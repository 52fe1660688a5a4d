import Suc.Proof.LoopInvariant
import Suc.Transition.Simulation

/-!
# A pass of the loop is a dispatch

`dispatch` computes what a batch does, given what the callbacks do; the loop takes the same way in
small steps, and its callbacks do whatever the labels say. A pass over a batch is a dispatch of it
whose callbacks leave the queue as they left it in the pass: at every position of the pass, what is
left of it is what the functions have still to do.
-/

namespace Suc.Epl

variable {F ι ε ω : Type}

/-! ### What the functions have still to do -/

/-- Each callback leaves the next queue of a record. -/
def replay : Behaviour F (Nat → EventQueue F) :=
  fun _ w => (none, ⟨w.user 0, fun n => w.user (n + 1)⟩)

section Rest

variable (body : Behaviour F ω) (i : Nat)

def scanFrom (r : Report) (types : List EventType) (w : World F ω) :
    List (Invocation F ω) × World F ω :=
  match w.queue.fds r.fd with
  | none => ([], w)
  | some callbacks => handleEventTypes body i r.events r.fd types callbacks w

def thenFrom (todo : List Report) (first : List (Invocation F ω) × World F ω) :
    List (Invocation F ω) × World F ω :=
  (first.1 ++ (dispatchFrom body (i + 1) todo first.2).1,
    (dispatchFrom body (i + 1) todo first.2).2)

def Cursor.afterCall (c : Cursor) (w : World F ω) : List (Invocation F ω) × World F ω :=
  if w.queue.running then
    thenFrom body i c.todo (scanFrom body i c.report c.next.types w)
  else
    dispatchFrom body (i + 1) c.todo w

/-- What is left of the dispatch at a position, which is in the report with index `i` or before
it. -/
def ExecPos.rest : ExecPos F ι → World F ω → List (Invocation F ω) × World F ω
  | .forTest todo, w => dispatchFrom body i todo w
  | .find r todo, w => thenFrom body i todo (handleEpollFilledEvent body i r.events r.fd w)
  | .scan c, w => thenFrom body i c.todo (scanFrom body i c.report c.types w)
  | .callback c func _, w => c.afterCall body i (body func w).2
  | .runTest c, w => c.afterCall body i w
  | .refind c, w => thenFrom body i c.todo (scanFrom body i c.report c.next.types w)
  | _, w => ([], w)

variable {body i}

theorem dispatchFrom_of_not_running {todo : List Report} {w : World F ω}
    (hw : w.queue.state ≠ .running) : dispatchFrom body i todo w = ([], w) := by
  have hrunning : w.queue.running = false := by simp [EventQueue.running, hw]
  cases todo <;> simp [dispatchFrom, hrunning]

theorem dispatchFrom_cons_of_running {r : Report} {todo : List Report} {w : World F ω}
    (hw : w.queue.state = .running) :
    dispatchFrom body i (r :: todo) w =
      thenFrom body i todo (handleEpollFilledEvent body i r.events r.fd w) := by
  have hrunning : w.queue.running = true := EventQueue.running_iff.mpr hw
  simp [dispatchFrom, hrunning, thenFrom]

theorem thenFrom_nil (todo : List Report) (w : World F ω) :
    thenFrom body i todo ([], w) = dispatchFrom body (i + 1) todo w := by
  simp [thenFrom]

theorem scanFrom_nil (r : Report) (w : World F ω) : scanFrom body i r [] w = ([], w) := by
  unfold scanFrom
  split <;> rfl

theorem scanFrom_of_absent {r : Report} {types : List EventType} {w : World F ω}
    (hfd : w.queue.fds r.fd = none) : scanFrom body i r types w = ([], w) := by
  simp [scanFrom, hfd]

theorem scanFrom_of_not_due {c : Cursor} {w : World F ω} (hdue : c.due w.queue = none) :
    scanFrom body i c.report c.types w = scanFrom body i c.report c.next.types w := by
  obtain ⟨r, types, todo⟩ := c
  cases types with
  | nil => rfl
  | cons t types =>
      cases hfd : w.queue.fds r.fd with
      | none => rw [scanFrom_of_absent hfd, scanFrom_of_absent hfd]
      | some callbacks =>
          simp only [scanFrom, hfd, Cursor.next, List.tail_cons, handleEventTypes]
          split
          · rfl
          · rename_i hbit
            have hnone : callbacks.callback t = none := by
              simpa [Cursor.due, hbit, EventQueue.stored, hfd] using hdue
            rw [hnone]

theorem thenFrom_of_due {r : Report} {t : EventType} {types : List EventType} {todo : List Report}
    {w : World F ω} {func : F} (hdue : Cursor.due ⟨r, t :: types, todo⟩ w.queue = some func) :
    thenFrom body i todo (scanFrom body i r (t :: types) w) =
      (⟨i, t, func, w, (body func w).2⟩ ::
          (Cursor.afterCall body i ⟨r, t :: types, todo⟩ (body func w).2).1,
        (Cursor.afterCall body i ⟨r, t :: types, todo⟩ (body func w).2).2) := by
  simp only [Cursor.due, Option.ite_none_left_eq_some] at hdue
  obtain ⟨hbit, hstored⟩ := hdue
  obtain ⟨callbacks, hfd, hcallback⟩ := Option.bind_eq_some_iff.mp hstored
  simp only [scanFrom, hfd, handleEventTypes, if_neg hbit, hcallback, Cursor.afterCall, Cursor.next,
    List.tail_cons]
  cases hrunning : (body func w).2.queue.running with
  | false => simp [thenFrom]
  | true =>
      simp only [↓reduceIte]
      cases hnext : (body func w).2.queue.fds r.fd with
      | none => simp [thenFrom]
      | some callbacks' => simp [thenFrom]

end Rest

/-! ### Steps of a pass -/

/-- What is seen of a call: the index of its report, the event type, the callback and the queue. -/
abbrev Seen (F : Type) := Nat × EventType × F × EventQueue F

def Invocation.seen (inv : Invocation F ω) : Seen F :=
  (inv.report, inv.event, inv.callback, inv.before.queue)

def ExecPos.seen (n : Nat) (q : EventQueue F) : ExecPos F ι → ExecAct F ι → List (Seen F)
  | .scan c, .invoke =>
      match c.types, c.due q with
      | t :: _, some func => [(n - (c.todo.length + 1), t, func, q)]
      | _, _ => []
  | _, _ => []

/-- The position is inside a pass over `n` reports, in the report with index `i` or before it, or
behind the pass. -/
def ExecPos.At (n i : Nat) : ExecPos F ι → Prop
  | .forTest todo => i + todo.length = n
  | .find _ todo => i + 1 + todo.length = n
  | .scan c | .callback c _ _ | .runTest c | .refind c => i + 1 + c.todo.length = n
  | .whileTest => True
  | _ => False

/-- What is left before a move is what is seen of it and what is left after it, for some record of
what the callbacks leave. -/
theorem ExecMove.rest_eq {q q' : EventQueue F} {pos pos' : ExecPos F ι} {act : ExecAct F ι}
    (h : ExecMove q pos act q' pos') {n i : Nat} (hat : pos.At n i) (hin : pos ≠ .whileTest)
    (hthrows : act ≠ .callback (.throws .other)) :
    ∃ i', pos'.At n i' ∧ ∀ record', ∃ record calls, calls.map Invocation.seen = pos.seen n q act ∧
      pos.rest replay i ⟨q, record⟩ =
        (calls ++ (pos'.rest replay i' ⟨q', record'⟩).1,
          (pos'.rest replay i' ⟨q', record'⟩).2) := by
  cases h with
  | call | enter | refuse | drained | drainedAgain | drainFailed | epollWait | interrupted | failed |
    woken | storeError | stopped | dispatch | loadExit => exact absurd hat id
  | goOn => exact absurd rfl hin
  | leave => exact absurd rfl hin
  | escaped => exact absurd rfl hthrows
  | batchEnd => exact ⟨i, trivial, fun record' => ⟨record', [], rfl, rfl⟩⟩
  | batchLeft todo hrunning =>
      exact ⟨i, trivial, fun record' => ⟨record', [], rfl, dispatchFrom_of_not_running hrunning⟩⟩
  | next r todo hrunning =>
      have hn : i + 1 + todo.length = n := by
        simp only [ExecPos.At, List.length_cons] at hat
        omega
      exact ⟨i, hn, fun record' => ⟨record', [], rfl, dispatchFrom_cons_of_running hrunning⟩⟩
  | absent r todo hfd =>
      refine ⟨i + 1, hat, fun record' => ⟨record', [], rfl, ?_⟩⟩
      have hfirst : handleEpollFilledEvent replay i r.events r.fd ⟨q, record'⟩ =
          ([], ⟨q, record'⟩) := by
        simp [handleEpollFilledEvent, hfd]
      simp only [ExecPos.rest, hfirst, thenFrom_nil, List.nil_append]
  | found r todo hfd => exact ⟨i, hat, fun record' => ⟨record', [], rfl, rfl⟩⟩
  | scanEnd c htypes =>
      refine ⟨i + 1, hat, fun record' => ⟨record', [], rfl, ?_⟩⟩
      simp only [ExecPos.rest, htypes, scanFrom_nil, thenFrom_nil, List.nil_append]
  | skip c hdue =>
      refine ⟨i, hat, fun record' => ⟨record', [], rfl, ?_⟩⟩
      simp only [ExecPos.rest, List.nil_append]
      rw [scanFrom_of_not_due (w := ⟨q, record'⟩) hdue]
      rfl
  | invoke c func hdue =>
      obtain ⟨r, types, todo⟩ := c
      cases types with
      | nil => cases hdue
      | cons t types =>
          have hn : i = n - (todo.length + 1) := by
            simp only [ExecPos.At] at hat
            omega
          refine ⟨i, hat, fun record' =>
            ⟨record', [⟨i, t, func, ⟨q, record'⟩, (replay func ⟨q, record'⟩).2⟩], ?_,
              thenFrom_of_due (w := ⟨q, record'⟩) hdue⟩⟩
          simp [ExecPos.seen, hdue, Invocation.seen, hn]
  | register | close | other | stop | resume => exact ⟨i, hat, fun record' => ⟨record', [], rfl, rfl⟩⟩
  | returns c func | caught c func =>
      -- what the callback has left is the next entry of the record
      exact ⟨i, hat, fun record' => ⟨fun k => k.casesOn q record', [], rfl, rfl⟩⟩
  | runGo c hrunning =>
      refine ⟨i, hat, fun record' => ⟨record', [], rfl, ?_⟩⟩
      have hgo : (⟨q, record'⟩ : World F (Nat → EventQueue F)).queue.running = true :=
        EventQueue.running_iff.mpr hrunning
      simp only [ExecPos.rest, Cursor.afterCall, hgo, ↓reduceIte, List.nil_append]
  | runLeft c hrunning =>
      refine ⟨i + 1, hat, fun record' => ⟨record', [], rfl, ?_⟩⟩
      have hleft : (⟨q, record'⟩ : World F (Nat → EventQueue F)).queue.running = false := by
        simp [EventQueue.running, hrunning]
      simp [ExecPos.rest, Cursor.afterCall, hleft]
  | gone c hfd =>
      refine ⟨i + 1, hat, fun record' => ⟨record', [], rfl, ?_⟩⟩
      simp only [ExecPos.rest, scanFrom_of_absent (w := ⟨q, record'⟩) hfd, thenFrom_nil,
        List.nil_append]
  | again c hfd => exact ⟨i, hat, fun record' => ⟨record', [], rfl, rfl⟩⟩

/-! ### Passes -/

/-- The pass of call `e` goes on, and the queue is left alone but for what its callbacks do: other
threads may stop the queue while a callback runs. -/
def Loop.InPass (e : ε) (s : Loop F ι ε) : LoopLabel F ι ε → Prop
  | .exec e' act => e' = e ∧ s.execs e ≠ .whileTest ∧ act ≠ .callback (.throws .other)
  | .stop _ _ => ∃ c func stopping, s.execs e = .callback c func stopping

def Loop.seen (n : Nat) (s : Loop F ι ε) : LoopLabel F ι ε → List (Seen F)
  | .exec e act => (s.execs e).seen n s.queue act
  | .stop _ _ => []

section Runs

variable [DecidableEq ι] [DecidableEq ε]

theorem run_rest {e : ε} {n i : Nat} {s t : Loop F ι ε} {ls : List (LoopLabel F ι ε)}
    (hrun : (eventLoop F ι ε).run s ls = some t)
    (hpass : (eventLoop F ι ε).Along (Loop.InPass e) s ls) (hat : (s.execs e).At n i)
    (hend : t.execs e = .whileTest) :
    ∃ record, ((s.execs e).rest replay i ⟨s.queue, record⟩).2.queue = t.queue ∧
      ((s.execs e).rest replay i ⟨s.queue, record⟩).1.map Invocation.seen =
        (eventLoop F ι ε).shown (Loop.seen n) s ls := by
  induction ls generalizing s i with
  | nil =>
      obtain rfl : s = t := by simpa using hrun
      rw [hend]
      exact ⟨fun _ => s.queue, rfl, rfl⟩
  | cons l ls ih =>
      obtain ⟨m, hstep, hrest⟩ := (Transition.System.run_cons_eq_some _).mp hrun
      obtain ⟨hhere, hlater⟩ := (Transition.System.along_cons_of_step _ hstep ls).mp hpass
      rw [Transition.System.shown_cons_of_step hstep]
      cases l with
      | stop id act =>
          obtain ⟨c, func, stopping, hpos⟩ := hhere
          obtain ⟨hexecs, -, -⟩ := Loop.step_stop hstep
          have hpos' : m.execs e = .callback c func stopping := by rw [hexecs, hpos]
          obtain ⟨record, hqueue, hseen⟩ := ih hrest hlater (by rwa [hpos', ← hpos])
          -- the rest of a callback does not depend on the queue at hand
          rw [hpos'] at hqueue hseen
          rw [hpos]
          exact ⟨record, hqueue, hseen⟩
      | exec e' act =>
          obtain ⟨rfl, hin, hthrows⟩ := hhere
          obtain ⟨hmove, -, -⟩ := Loop.step_exec hstep
          obtain ⟨i', hat', hnext⟩ := hmove.rest_eq hat hin hthrows
          obtain ⟨record', hqueue, hseen⟩ := ih hrest hlater hat'
          obtain ⟨record, calls, hcalls, hrest⟩ := hnext record'
          refine ⟨record, ?_, ?_⟩
          · rw [hrest]
            exact hqueue
          · rw [hrest, List.map_append, hcalls, hseen]
            rfl

/-- **A pass is a dispatch.** The calls that a pass over a batch makes, and the queue it leaves, are
those of `dispatch` on the batch, when each callback leaves the queue that it left in the pass. -/
theorem pass_eq_dispatch {e : ε} {batch : List Report} {s t : Loop F ι ε}
    {ls : List (LoopLabel F ι ε)} (hrun : (eventLoop F ι ε).run s ls = some t)
    (hbegin : s.execs e = .forTest batch)
    (hpass : (eventLoop F ι ε).Along (Loop.InPass e) s ls) (hend : t.execs e = .whileTest) :
    ∃ record, (dispatch replay batch ⟨s.queue, record⟩).2.queue = t.queue ∧
      (dispatch replay batch ⟨s.queue, record⟩).1.map Invocation.seen =
        (eventLoop F ι ε).shown (Loop.seen batch.length) s ls := by
  have hat : (s.execs e).At batch.length 0 := by simp [hbegin, ExecPos.At]
  have hrest := run_rest hrun hpass hat hend
  rwa [hbegin] at hrest

end Runs

end Suc.Epl
