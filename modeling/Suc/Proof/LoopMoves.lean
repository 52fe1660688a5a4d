import Suc.Epl.Loop

/-!
# What a step of the event loop can do

Every step is a move of one call against the queue. The moves of an `exec` call are listed once, and
what most arguments need of them is coarser: the place of the call in the life of the loop, and how
a move changes that place together with the state of the queue.
-/

namespace Suc.Epl

variable {F ι ε : Type}

/-! ### The moves of `exec` -/

inductive ExecMove (q : EventQueue F) :
    ExecPos F ι → ExecAct F ι → EventQueue F → ExecPos F ι → Prop where
  | call : ExecMove q .notCalled .call q .exchange
  | enter (hidle : q.state = .idle) :
      ExecMove q .exchange .step { q with state := .running } .drain
  | refuse (hidle : q.state ≠ .idle) (exc : Exception) :
      ExecMove q .exchange .step q (.refused exc)
  | drained (hcounter : q.counter ≠ 0) :
      ExecMove q .drain (.drained none) { q with counter := 0 } .whileTest
  | drainedAgain (hcounter : q.counter = 0) :
      ExecMove q .drain (.drained (some eagain)) q .whileTest
  | drainFailed (errno : Errno) (hagain : errno ≠ eagain) (exc : Thrown) :
      ExecMove q .drain (.drained (some errno)) q (.threw exc)
  | goOn (hrunning : q.state = .running) : ExecMove q .whileTest .step q .wait
  | leave (hrunning : q.state ≠ .running) : ExecMove q .whileTest .step q .loadExit
  | epollWait : ExecMove q .wait .epollWait q .waiting
  | interrupted : ExecMove q .waiting (.woken (.error eintr)) q .whileTest
  | failed (errnum : Errno) (hintr : errnum ≠ eintr) :
      ExecMove q .waiting (.woken (.error errnum)) q (.storeError errnum)
  | woken (batch : List Report) : ExecMove q .waiting (.woken (.ok batch)) q (.stopExchange batch)
  | storeError (errnum : Errno) (exc : Thrown) :
      ExecMove q (.storeError errnum) .step { q with state := .error } (.threw exc)
  | stopped (batch : List Report) (hstopping : q.state = .stopping) :
      ExecMove q (.stopExchange batch) .step { q with state := .stopped } .loadExit
  | dispatch (batch : List Report) (hstopping : q.state ≠ .stopping) :
      ExecMove q (.stopExchange batch) .step q (.forTest batch)
  | batchEnd : ExecMove q (.forTest []) .step q .whileTest
  | batchLeft (todo : List Report) (hrunning : q.state ≠ .running) :
      ExecMove q (.forTest todo) .step q .whileTest
  | next (r : Report) (todo : List Report) (hrunning : q.state = .running) :
      ExecMove q (.forTest (r :: todo)) .step q (.find r todo)
  | absent (r : Report) (todo : List Report) (hfd : q.fds r.fd = none) :
      ExecMove q (.find r todo) .step q (.forTest todo)
  | found (r : Report) (todo : List Report) (hfd : (q.fds r.fd).isSome) :
      ExecMove q (.find r todo) .step q (.scan ⟨r, kEventTypes, todo⟩)
  | scanEnd (c : Cursor) (htypes : c.types = []) :
      ExecMove q (.scan c) .step q (.forTest c.todo)
  | skip (c : Cursor) (hdue : c.due q = none) : ExecMove q (.scan c) .step q (.scan c.next)
  | invoke (c : Cursor) (func : F) (hdue : c.due q = some func) :
      ExecMove q (.scan c) .invoke q (.callback c func none)
  | register (c : Cursor) (func : F) (call : Call F) :
      ExecMove q (.callback c func none) (.callback (.call call)) (call.apply q).2
        (.callback c func none)
  | close (c : Cursor) (func : F) (fd : Int) :
      ExecMove q (.callback c func none) (.callback (.close fd))
        { q with interest := Function.update q.interest fd none } (.callback c func none)
  | other (c : Cursor) (func : F) :
      ExecMove q (.callback c func none) (.callback .other) q (.callback c func none)
  | stop (c : Cursor) (func : F) (id : ι) (value : Int) :
      ExecMove q (.callback c func none) (.callback (.stop id value)) q
        (.callback c func (some id))
  | resume (c : Cursor) (func : F) (id : ι) :
      ExecMove q (.callback c func (some id)) (.callback .resume) q (.callback c func none)
  | returns (c : Cursor) (func : F) :
      ExecMove q (.callback c func none) (.callback .returns) q (.runTest c)
  | caught (c : Cursor) (func : F) (exc : Exception) :
      ExecMove q (.callback c func none) (.callback (.throws (.std exc))) q (.runTest c)
  | escaped (c : Cursor) (func : F) :
      ExecMove q (.callback c func none) (.callback (.throws .other)) q (.threw .other)
  | runGo (c : Cursor) (hrunning : q.state = .running) :
      ExecMove q (.runTest c) .step q (.refind c)
  | runLeft (c : Cursor) (hrunning : q.state ≠ .running) :
      ExecMove q (.runTest c) .step q (.forTest c.todo)
  | gone (c : Cursor) (hfd : q.fds c.report.fd = none) :
      ExecMove q (.refind c) .step q (.forTest c.todo)
  | again (c : Cursor) (hfd : (q.fds c.report.fd).isSome) :
      ExecMove q (.refind c) .step q (.scan c.next)
  | loadExit : ExecMove q .loadExit .step q (.returned q.exitCode)

theorem EventQueue.running_iff {q : EventQueue F} : q.running = true ↔ q.state = .running := by
  simp [EventQueue.running]

theorem callbackMove_of_step {q : EventQueue F} {c : Cursor} {func : F} {stopping : Option ι}
    {act : CallbackAct F ι} {r : EventQueue F × ExecPos F ι}
    (h : callbackStep q c func stopping act = some r) :
    ExecMove q (.callback c func stopping) (.callback act) r.1 r.2 := by
  cases stopping with
  | none =>
      cases act with
      | call call => cases h; exact .register c func call
      | close fd => cases h; exact .close c func fd
      | other => cases h; exact .other c func
      | stop id value => cases h; exact .stop c func id value
      | resume => cases h
      | returns => cases h; exact .returns c func
      | throws exc =>
          cases exc with
          | std exc => cases h; exact .caught c func exc
          | other => cases h; exact .escaped c func
  | some id =>
      cases act with
      | resume => cases h; exact .resume c func id
      | _ => cases h

theorem execMove_of_step {q : EventQueue F} {pos : ExecPos F ι} {act : ExecAct F ι}
    {r : EventQueue F × ExecPos F ι} (h : execStep q pos act = some r) :
    ExecMove q pos act r.1 r.2 := by
  unfold execStep at h
  split at h
  · cases h; exact .call
  · split at h
    · cases h; exact .enter ‹_›
    · cases h; exact .refuse ‹_› _
  · split at h
    · cases h
    · cases h; exact .drained ‹_›
  · rename_i errno
    by_cases hagain : errno = eagain
    · rw [if_pos hagain] at h
      split at h
      · cases h
        exact hagain ▸ .drainedAgain ‹_›
      · cases h
    · rw [if_neg hagain] at h
      cases h
      exact .drainFailed errno hagain _
  · split at h
    · cases h; exact .goOn (EventQueue.running_iff.mp ‹_›)
    · cases h; exact .leave (mt EventQueue.running_iff.mpr ‹_›)
  · cases h; exact .epollWait
  · rename_i errnum
    by_cases hintr : errnum = eintr
    · rw [if_pos hintr] at h
      cases h
      exact hintr ▸ .interrupted
    · rw [if_neg hintr] at h
      cases h
      exact .failed errnum hintr
  · cases h; exact .woken _
  · cases h; exact .storeError _ _
  · split at h
    · cases h; exact .stopped _ ‹_›
    · cases h; exact .dispatch _ ‹_›
  · split at h
    · cases h; exact .batchEnd
    · split at h
      · cases h; exact .next _ _ (EventQueue.running_iff.mp ‹_›)
      · cases h; exact .batchLeft _ (mt EventQueue.running_iff.mpr ‹_›)
  · split at h
    · cases h; exact .absent _ _ ‹_›
    · cases h; exact .found _ _ (Option.isSome_iff_exists.mpr ⟨_, ‹_›⟩)
  · split at h
    · cases h; exact .scanEnd _ ‹_›
    · cases h; exact .skip _ ‹_›
    · cases h
  · obtain ⟨func, hdue, rfl⟩ := Option.map_eq_some_iff.mp h
    exact .invoke _ func hdue
  · exact callbackMove_of_step h
  · split at h
    · cases h; exact .runGo _ (EventQueue.running_iff.mp ‹_›)
    · cases h; exact .runLeft _ (mt EventQueue.running_iff.mpr ‹_›)
  · split at h
    · cases h; exact .gone _ ‹_›
    · cases h; exact .again _ (Option.isSome_iff_exists.mpr ⟨_, ‹_›⟩)
  · cases h; exact .loadExit
  · cases h

theorem ExecMove.exitCode_eq {q q' : EventQueue F} {pos pos' : ExecPos F ι} {act : ExecAct F ι}
    (h : ExecMove q pos act q' pos') : q'.exitCode = q.exitCode := by
  cases h <;> simp

theorem ExecMove.counter_eq {q q' : EventQueue F} {pos pos' : ExecPos F ι} {act : ExecAct F ι}
    (h : ExecMove q pos act q' pos') :
    q'.counter = q.counter ∨ pos = .drain ∧ pos' = .whileTest ∧ q'.counter = 0 := by
  cases h <;> simp

/-! ### Places -/

/-- The place of a call in the life of the loop. `loop` is between two tests of the state that end
the loop when it is not running, `waiting` from the while test to the exchange after the wait. -/
inductive Place where
  | outside
  | loop
  | waiting
  | leaving
  | failed
  deriving DecidableEq, Repr

def ExecPos.place : ExecPos F ι → Place
  | .notCalled | .exchange | .refused _ => .outside
  | .wait | .waiting | .storeError _ | .stopExchange _ => .waiting
  | .loadExit | .returned _ => .leaving
  | .threw _ => .failed
  | _ => .loop

/-- How a move changes the state of the queue and the place of the call. The moves that leave the
state behind are marked `false`: an exception that no handler sees, and an interrupted wait to which
a stop has come. -/
inductive Flow : Bool → State → Place → State → Place → Prop where
  | stay (st : State) (p : Place) : Flow true st p st p
  | enter : Flow true .idle .outside .running .loop
  | wait : Flow true .running .loop .running .waiting
  | leave (st : State) (hst : st ≠ .running) : Flow true st .loop st .leaving
  | abandon (st : State) : Flow false st .loop st .failed
  | interrupted (st : State) : Flow (decide (st ≠ .stopping)) st .waiting st .loop
  | fail (st : State) : Flow true st .waiting .error .failed
  | stopped : Flow true .stopping .waiting .stopped .leaving
  | dispatch (st : State) (hst : st ≠ .stopping) : Flow true st .waiting st .loop

/-- The actions of the kernel and of a callback after which `exec` restores the state, given the
state of the queue. -/
def ExecAct.orderly (st : State) : ExecAct F ι → Bool
  | .drained (some errno) => decide (errno = eagain)
  | .woken (.error errnum) => decide (errnum ≠ eintr ∨ st ≠ .stopping)
  | .callback (.throws .other) => false
  | _ => true

theorem ExecMove.flow {q q' : EventQueue F} {pos pos' : ExecPos F ι} {act : ExecAct F ι}
    (h : ExecMove q pos act q' pos') :
    Flow (act.orderly q.state) q.state pos.place q'.state pos'.place := by
  cases h with
  | enter hidle => rw [hidle]; exact .enter
  | drainFailed errno hagain exc =>
      have hact : (ExecAct.drained (some errno) : ExecAct F ι).orderly q.state = false := by
        simp [ExecAct.orderly, hagain]
      rw [hact]
      exact .abandon q.state
  | goOn hrunning => rw [hrunning]; exact .wait
  | leave hrunning => exact .leave q.state hrunning
  | interrupted =>
      have hact : (ExecAct.woken (.error eintr) : ExecAct F ι).orderly q.state =
          decide (q.state ≠ .stopping) := by
        simp [ExecAct.orderly]
      rw [hact]
      exact .interrupted q.state
  | failed errnum hintr =>
      have hact : (ExecAct.woken (.error errnum) : ExecAct F ι).orderly q.state = true := by
        simp [ExecAct.orderly, hintr]
      rw [hact]
      exact .stay q.state .waiting
  | storeError => exact .fail q.state
  | stopped batch hstopping => rw [hstopping]; exact .stopped
  | dispatch batch hstopping => exact .dispatch q.state hstopping
  | escaped => exact .abandon q.state
  | register c func call =>
      rw [Call.apply_state]
      exact .stay q.state .loop
  | _ => exact .stay _ _

end Suc.Epl
