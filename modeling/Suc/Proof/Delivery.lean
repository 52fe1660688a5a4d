import Suc.Epl.ThreadSafeQueue
import Suc.Transition.Channel

/-!
# What a thread-safe queue delivers

The deque is a channel: an element that is pushed is sent and one that is handed to a handler is
received. That the loop never takes an element from an empty deque rests on the counter, which with
the elements left in the loop never exceeds the length of the deque; that every element is announced
means that the two are equal, and a handler that throws with elements left in its batch ends that.
-/

namespace Suc.Epl

open Transition

variable {T H : Type}

namespace ThreadSafeQueue

/-! ### The deque as a channel -/

def emits (q : ThreadSafeQueue T H) : QueueLabel T H → List (ChannelLabel T)
  | .enqueue ele _ => [.send ele]
  | .step =>
      match q.dispatcher, q.deque with
      | .loop _ (_ + 1), ele :: _ => [.receive ele]
      | _, _ => []
  | _ => []

def delivered (q : ThreadSafeQueue T H) (ls : List (QueueLabel T H)) : List T :=
  received ((threadSafeQueue T H).shown emits q ls)

end ThreadSafeQueue

/-- The elements that are enqueued, in the order in which the calls take the mutex. -/
def enqueued (ls : List (QueueLabel T H)) : List T :=
  ls.filterMap fun
    | .enqueue ele _ => some ele
    | _ => none

namespace ThreadSafeQueue

/-- The elements that the loop has still to take from the deque. -/
def left (q : ThreadSafeQueue T H) : Nat :=
  match q.dispatcher with
  | .loop _ i | .handling _ _ i => i
  | _ => 0

/-! ### Steps -/

inductive Move (q : ThreadSafeQueue T H) : QueueLabel T H → ThreadSafeQueue T H → Prop where
  | enqueue (ele : T) : Move q (.enqueue ele none)
      { q with deque := q.deque ++ [ele], counter := q.counter + 1 }
  | enqueueFailed (ele : T) (errno : Errno) : Move q (.enqueue ele (some errno))
      { q with deque := q.deque ++ [ele] }
  | onElement (func : Option H) : Move q (.onElement func) { q with handler := func }
  | dispatch (func : H) (hidle : q.dispatcher = .idle) :
      Move q .dispatch { q with dispatcher := .reading func }
  | read (func : H) (hpos : q.dispatcher = .reading func) (hcounter : q.counter ≠ 0) :
      Move q .step { q with counter := 0, dispatcher := .loop func q.counter }
  | readFailed (func : H) (hpos : q.dispatcher = .reading func) (hcounter : q.counter = 0) :
      Move q .step { q with dispatcher := .idle }
  | loopEnd (func : H) (hpos : q.dispatcher = .loop func 0) :
      Move q .step { q with dispatcher := .idle }
  | crash (func : H) (i : Nat) (hpos : q.dispatcher = .loop func (i + 1)) (hdeque : q.deque = []) :
      Move q .step { q with dispatcher := .crashed }
  | dequeue (func : H) (i : Nat) (ele : T) (deque : List T)
      (hpos : q.dispatcher = .loop func (i + 1)) (hdeque : q.deque = ele :: deque) :
      Move q .step { q with deque := deque, dispatcher := .handling func ele i }
  | returns (func : H) (ele : T) (i : Nat) (hpos : q.dispatcher = .handling func ele i) :
      Move q .returns { q with dispatcher := .loop func i }
  | throws (func : H) (ele : T) (i : Nat) (exc : Exception)
      (hpos : q.dispatcher = .handling func ele i) :
      Move q (.throws exc) { q with dispatcher := .idle }

theorem move_of_step {q q' : ThreadSafeQueue T H} {l : QueueLabel T H}
    (h : (threadSafeQueue T H).step q l = some q') : Move q l q' := by
  obtain ⟨deque, counter, handler, dispatcher⟩ := q
  cases l with
  | enqueue ele failure =>
      cases failure with
      | none => cases h; exact .enqueue ele
      | some errno => cases h; exact .enqueueFailed ele errno
  | onElement func => cases dispatcher <;> cases h <;> exact .onElement func
  | dispatch =>
      cases dispatcher <;> cases handler <;> cases h
      exact .dispatch _ rfl
  | step =>
      cases dispatcher with
      | reading func =>
          by_cases hcounter : counter = 0
          · subst hcounter
            cases h
            exact .readFailed func rfl rfl
          · simp only [threadSafeQueue, step, dispatchStep, EventFd.shot_of_ne_zero hcounter,
              Option.some.injEq] at h
            subst h
            exact .read func rfl hcounter
      | loop func i =>
          cases i with
          | zero => cases h; exact .loopEnd func rfl
          | succ i =>
              cases deque with
              | nil => cases h; exact .crash func i rfl rfl
              | cons ele deque => cases h; exact .dequeue func i ele deque rfl rfl
      | _ => cases h
  | returns =>
      cases dispatcher with
      | handling func ele i => cases h; exact .returns func ele i rfl
      | _ => cases h
  | throws exc =>
      cases dispatcher with
      | handling func ele i => cases h; exact .throws func ele i exc rfl
      | _ => cases h

theorem Move.channel {q q' : ThreadSafeQueue T H} {l : QueueLabel T H} (h : Move q l q') :
    (channel T).run q.deque (q.emits l) = some q'.deque := by
  cases h with
  | dequeue func i ele deque hpos hdeque =>
      simp [emits, hpos, hdeque, System.run_cons, channel_receive]
  | crash func i hpos hdeque => simp [emits, hpos, hdeque]
  | read func hpos => simp [emits, hpos]
  | readFailed func hpos => simp [emits, hpos]
  | loopEnd func hpos => simp [emits, hpos]
  | _ => rfl

theorem run_channel {q q' : ThreadSafeQueue T H} {ls : List (QueueLabel T H)}
    (hrun : (threadSafeQueue T H).run q ls = some q') :
    (channel T).run q.deque ((threadSafeQueue T H).shown emits q ls) = some q'.deque :=
  System.run_shown_of_step deque emits (fun _ _ _ hstep => (move_of_step hstep).channel) hrun

theorem sent_emits (q : ThreadSafeQueue T H) (l : QueueLabel T H) :
    sent (q.emits l) = enqueued [l] := by
  cases l with
  | step =>
      simp only [emits]
      split <;> rfl
  | _ => rfl

theorem sent_shown {q q' : ThreadSafeQueue T H} {ls : List (QueueLabel T H)}
    (hrun : (threadSafeQueue T H).run q ls = some q') :
    sent ((threadSafeQueue T H).shown emits q ls) = enqueued ls := by
  induction ls generalizing q with
  | nil => rfl
  | cons l ls ih =>
      obtain ⟨m, hstep, hrest⟩ := System.run_cons_eq_some _ |>.mp hrun
      calc sent ((threadSafeQueue T H).shown emits q (l :: ls))
          = sent (q.emits l) ++ sent ((threadSafeQueue T H).shown emits m ls) := by
            rw [System.shown_cons_of_step hstep, sent, sent, sent, List.filterMap_append]
        _ = enqueued [l] ++ enqueued ls := by rw [q.sent_emits l, ih hrest]
        _ = enqueued (l :: ls) := (List.filterMap_append (l := [l])).symm

/-- The elements of a run: those in the deque at first and those enqueued are those delivered and
those in the deque at last. -/
theorem deque_append_enqueued {q q' : ThreadSafeQueue T H} {ls : List (QueueLabel T H)}
    (hrun : (threadSafeQueue T H).run q ls = some q') :
    q.deque ++ enqueued ls = q.delivered ls ++ q'.deque := by
  calc q.deque ++ enqueued ls
      = q.deque ++ sent ((threadSafeQueue T H).shown emits q ls) := by rw [sent_shown hrun]
    _ = q.delivered ls ++ q'.deque := append_sent_eq_received_append (run_channel hrun)

/-! ### The counter and the deque -/

/-- The elements that are queued but no longer announced after a step: one whose write fails, and
those left in the batch of a handler that throws. -/
def strands (q : ThreadSafeQueue T H) : QueueLabel T H → Nat
  | .enqueue _ (some _) => 1
  | .throws _ => q.left
  | _ => 0

/-- No element is taken that is not there: the counter and the elements left in the loop are backed
by the deque. -/
structure Backed (q : ThreadSafeQueue T H) : Prop where
  le : q.counter + q.left ≤ q.deque.length
  not_crashed : q.dispatcher ≠ .crashed

theorem Move.balance {q q' : ThreadSafeQueue T H} {l : QueueLabel T H} (h : Move q l q')
    (hq : q.Backed) :
    q'.deque.length + (q.counter + q.left) =
        q.deque.length + (q'.counter + q'.left) + q.strands l ∧
      q'.dispatcher ≠ .crashed := by
  cases h with
  | enqueue ele => exact ⟨by simp [left, strands]; omega, hq.not_crashed⟩
  | enqueueFailed ele errno => exact ⟨by simp [left, strands]; omega, hq.not_crashed⟩
  | onElement func => exact ⟨rfl, hq.not_crashed⟩
  | dispatch func hidle => exact ⟨by simp [left, strands, hidle], by simp⟩
  | read func hpos hcounter => exact ⟨by simp [left, strands, hpos], by simp⟩
  | readFailed func hpos hcounter => exact ⟨by simp [left, strands, hpos], by simp⟩
  | loopEnd func hpos => exact ⟨by simp [left, strands, hpos], by simp⟩
  | crash func i hpos hdeque =>
      have hle := hq.le
      simp [left, hpos, hdeque] at hle
  | dequeue func i ele deque hpos hdeque =>
      exact ⟨by simp [left, strands, hpos, hdeque]; omega, by simp⟩
  | returns func ele i hpos => exact ⟨by simp [left, strands, hpos], by simp⟩
  | throws func ele i exc hpos => exact ⟨by simp [left, strands, hpos]; omega, by simp⟩

theorem backed_preserved : (threadSafeQueue T H).Preserves Backed := by
  intro q l q' hstep hq
  obtain ⟨hbalance, hnotCrashed⟩ := (move_of_step hstep).balance hq
  have hle := hq.le
  exact ⟨by omega, hnotCrashed⟩

theorem backed_start : (start : ThreadSafeQueue T H).Backed :=
  ⟨Nat.le_refl 0, by simp [start]⟩

/-- **Exactly once and in order.** In every run, whatever the handlers and the dispatches are and
whether or not the writes succeed: what has been delivered, followed by what is queued, is what has
been enqueued, and the loop has never taken an element from an empty deque. -/
theorem delivered_prefix_enqueued {ls : List (QueueLabel T H)} {q : ThreadSafeQueue T H}
    (hrun : (threadSafeQueue T H).run start ls = some q) :
    delivered start ls ++ q.deque = enqueued ls ∧ delivered start ls <+: enqueued ls ∧
      q.dispatcher ≠ .crashed := by
  have heq : delivered start ls ++ q.deque = enqueued ls := (deque_append_enqueued hrun).symm
  exact ⟨heq, ⟨q.deque, heq⟩, (backed_preserved.run hrun backed_start).not_crashed⟩

theorem delivered_prefix_enqueued_two :
    let labels : List (QueueLabel Nat Nat) :=
      [.onElement (some 0), .enqueue 1 none, .enqueue 2 none, .dispatch, .step, .step, .returns,
        .step]
    ∃ q, (threadSafeQueue Nat Nat).run start labels = some q ∧
      delivered start labels = [1, 2] ∧ delivered start labels <+: enqueued labels :=
  ⟨_, rfl, rfl, (delivered_prefix_enqueued rfl).2.1⟩

/-! ### Stranded elements -/

/-- The handler does not throw while elements of its batch are left. -/
def KeepsBatch (q : ThreadSafeQueue T H) : QueueLabel T H → Prop
  | .throws _ => q.left = 0
  | _ => True

/-- Every queued element is announced, or one that the loop has still to take. -/
def Announced (q : ThreadSafeQueue T H) : Prop :=
  q.Backed ∧ q.counter + q.left = q.deque.length

def Stranded (q : ThreadSafeQueue T H) : Prop :=
  q.Backed ∧ q.counter + q.left < q.deque.length

end ThreadSafeQueue

def QueueLabel.Written : QueueLabel T H → Prop
  | .enqueue _ failure => failure = none
  | _ => True

def QueueLabel.enqueues : QueueLabel T H → Bool
  | .enqueue _ _ => true
  | _ => false

namespace ThreadSafeQueue

theorem strands_eq_zero_iff {q : ThreadSafeQueue T H} {l : QueueLabel T H} (hwritten : l.Written) :
    q.strands l = 0 ↔ q.KeepsBatch l := by
  cases l with
  | enqueue ele failure =>
      obtain rfl : failure = none := hwritten
      exact iff_of_true rfl trivial
  | throws exc => exact Iff.rfl
  | _ => exact iff_of_true rfl trivial

theorem Announced.step {q q' : ThreadSafeQueue T H} {l : QueueLabel T H}
    (hstep : (threadSafeQueue T H).step q l = some q') (hq : q.Announced)
    (hstrands : q.strands l = 0) : q'.Announced := by
  obtain ⟨hbalance, -⟩ := (move_of_step hstep).balance hq.1
  have heq := hq.2
  exact ⟨backed_preserved hstep hq.1, by omega⟩

theorem Announced.step_stranded {q q' : ThreadSafeQueue T H} {l : QueueLabel T H}
    (hstep : (threadSafeQueue T H).step q l = some q') (hq : q.Announced)
    (hstrands : q.strands l ≠ 0) : q'.Stranded := by
  obtain ⟨hbalance, -⟩ := (move_of_step hstep).balance hq.1
  have heq := hq.2
  exact ⟨backed_preserved hstep hq.1, by omega⟩

theorem stranded_preserved : (threadSafeQueue T H).Preserves Stranded := by
  intro q l q' hstep hq
  obtain ⟨hbalance, -⟩ := (move_of_step hstep).balance hq.1
  have hlt := hq.2
  exact ⟨backed_preserved hstep hq.1, by omega⟩

/-- The steps of a loop over `n` elements whose handler returns each time. -/
def loopLabels : Nat → List (QueueLabel T H)
  | 0 => [.step]
  | n + 1 => .step :: .returns :: loopLabels n

theorem enqueues_of_mem_loopLabels {n : Nat} {l : QueueLabel T H} (h : l ∈ loopLabels n) :
    l.enqueues = false := by
  induction n with
  | zero =>
      obtain rfl : l = .step := by simpa [loopLabels] using h
      rfl
  | succ n ih =>
      simp only [loopLabels, List.mem_cons] at h
      rcases h with rfl | rfl | h
      · rfl
      · rfl
      · exact ih h

theorem run_loopLabels (func : H) (deque : List T) (counter : Nat) (handler : Option H) :
    (threadSafeQueue T H).run ⟨deque, counter, handler, .loop func deque.length⟩
        (loopLabels deque.length) = some ⟨[], counter, handler, .idle⟩ := by
  induction deque with
  | nil => rfl
  | cons ele deque ih => exact ih

/-- Dispatches can deliver what is queued without another enqueue. -/
def Drains (q : ThreadSafeQueue T H) : Prop :=
  ∃ ls q', (∀ l ∈ ls, l.enqueues = false) ∧ (threadSafeQueue T H).run q ls = some q' ∧
    q.delivered ls = q.deque

theorem enqueued_eq_nil {ls : List (QueueLabel T H)} (h : ∀ l ∈ ls, l.enqueues = false) :
    enqueued ls = [] := by
  refine List.filterMap_eq_nil_iff.mpr ?_
  intro l hl
  have hl := h l hl
  cases l with
  | enqueue ele failure => cases hl
  | _ => rfl

theorem delivered_eq_deque_iff {q q' : ThreadSafeQueue T H} {ls : List (QueueLabel T H)}
    (hls : ∀ l ∈ ls, l.enqueues = false) (hrun : (threadSafeQueue T H).run q ls = some q') :
    q.delivered ls = q.deque ↔ q'.deque = [] := by
  have hqueued := deque_append_enqueued hrun
  rw [enqueued_eq_nil hls, List.append_nil] at hqueued
  rw [hqueued, List.self_eq_append_right]

theorem Announced.drains {q : ThreadSafeQueue T H} (hq : q.Announced) (hidle : q.dispatcher = .idle)
    {func : H} (hfunc : q.handler = some func) : q.Drains := by
  obtain ⟨deque, counter, handler, dispatcher⟩ := q
  obtain rfl : dispatcher = .idle := hidle
  obtain rfl : handler = some func := hfunc
  obtain rfl : counter = deque.length := hq.2
  cases deque with
  | nil => exact ⟨[], _, by simp, rfl, rfl⟩
  | cons ele deque =>
      let ls : List (QueueLabel T H) := .dispatch :: .step :: loopLabels (ele :: deque).length
      have hls : ∀ l ∈ ls, l.enqueues = false := by
        intro l hl
        simp only [ls, List.mem_cons] at hl
        rcases hl with rfl | rfl | hl
        · rfl
        · rfl
        · exact enqueues_of_mem_loopLabels hl
      have hrun : (threadSafeQueue T H).run
          ⟨ele :: deque, (ele :: deque).length, some func, .idle⟩ ls =
            some ⟨[], 0, some func, .idle⟩ :=
        run_loopLabels func (ele :: deque) 0 (some func)
      exact ⟨ls, _, hls, hrun, (delivered_eq_deque_iff hls hrun).mpr rfl⟩

theorem Stranded.not_drains {q : ThreadSafeQueue T H} (hq : q.Stranded) : ¬q.Drains := by
  rintro ⟨ls, q', hls, hrun, hdelivered⟩
  have hnil := (delivered_eq_deque_iff hls hrun).mp hdelivered
  have hend := (stranded_preserved.run hrun hq).2
  simp [hnil] at hend

/-- **Stranded elements.** Between dispatches every queued element is announced, in a run whose
writes succeed, exactly when no handler has thrown with elements of its batch left; and exactly then
can dispatches deliver what is queued without another enqueue. -/
theorem announced_iff_keepsBatch {ls : List (QueueLabel T H)} {q : ThreadSafeQueue T H}
    (hrun : (threadSafeQueue T H).run start ls = some q) (hwritten : ∀ l ∈ ls, l.Written)
    (hidle : q.dispatcher = .idle) :
    (q.counter = q.deque.length ↔ (threadSafeQueue T H).Along KeepsBatch start ls) ∧
      ∀ func, q.handler = some func →
        (q.Drains ↔ (threadSafeQueue T H).Along KeepsBatch start ls) := by
  have hstart : (start : ThreadSafeQueue T H).Announced := ⟨backed_start, rfl⟩
  have hleft : q.left = 0 := by simp [left, hidle]
  rw [← System.along_congr (fun q l hl => strands_eq_zero_iff (q := q) (hwritten l hl))]
  rcases System.run_good_or_bad (C := fun q l => q.strands l = 0)
    (fun _ _ _ hstep hq hC => hq.step hstep hC) (fun _ _ _ hstep hq hC => hq.step_stranded hstep hC)
    stranded_preserved hrun hstart with ⟨halong, hq⟩ | ⟨halong, hq⟩
  · have heq := hq.2
    exact ⟨iff_of_true (by omega) halong,
      fun func hfunc => iff_of_true (hq.drains hidle hfunc) halong⟩
  · have hlt := hq.2
    exact ⟨iff_of_false (by omega) halong, fun func _ => iff_of_false hq.not_drains halong⟩

theorem announced_iff_keepsBatch_last :
    let labels : List (QueueLabel Nat Nat) :=
      [.onElement (some 0), .enqueue 1 none, .enqueue 2 none, .dispatch, .step, .step, .returns,
        .step, .throws (.user "handler")]
    ∃ q, (threadSafeQueue Nat Nat).run start labels = some q ∧ q.dispatcher = .idle ∧
      (q.counter = q.deque.length ↔ (threadSafeQueue Nat Nat).Along KeepsBatch start labels) := by
  intro labels
  have hwritten : ∀ l ∈ labels, l.Written := by simp [labels, QueueLabel.Written]
  exact ⟨_, rfl, rfl, (announced_iff_keepsBatch rfl hwritten rfl).1⟩

/-- A handler that throws on the first of two elements: the second stays queued, and the counter is
zero. -/
theorem not_announced_of_throws :
    let labels : List (QueueLabel Nat Nat) :=
      [.onElement (some 0), .enqueue 1 none, .enqueue 2 none, .dispatch, .step, .step,
        .throws (.user "handler")]
    ∃ q, (threadSafeQueue Nat Nat).run start labels = some q ∧ (∀ l ∈ labels, l.Written) ∧
      q.dispatcher = .idle ∧ q.counter = 0 ∧ q.deque = [2] ∧ ¬q.Drains := by
  intro labels
  refine ⟨_, rfl, ?_, rfl, rfl, rfl, ?_⟩
  · simp [labels, QueueLabel.Written]
  · exact Stranded.not_drains ⟨⟨by decide, by simp⟩, by decide⟩

end ThreadSafeQueue

end Suc.Epl
