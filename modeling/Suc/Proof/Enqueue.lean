import Suc.Proof.Delivery

/-!
# An enqueue that fails

`enqueue` stores the element before it announces it. A write that fails is reported to the caller
but leaves the element in the deque, ahead of the counter by one for good.
-/

namespace Suc.Epl

open Transition

variable {T H : Type}

namespace ThreadSafeQueue

/-- How many queued elements the counter does not announce; negative when it announces more. -/
def unannounced (q : ThreadSafeQueue T H) : Int := q.deque.length - q.counter

/-- An enqueue either returns and has stored and announced the element, or throws and has done
neither. -/
def Atomic (q : ThreadSafeQueue T H) : QueueLabel T H → Prop
  | .enqueue ele failure =>
      let r := q.enqueue ele failure
      (r.1 = .ok () ∧ r.2.deque = q.deque ++ [ele] ∧ r.2.counter = q.counter + 1) ∨
        ∃ exc, r.1 = .error exc ∧ r.2.deque = q.deque ∧ r.2.counter = q.counter
  | _ => True

def KeepsDifference (q : ThreadSafeQueue T H) : QueueLabel T H → Prop
  | .enqueue ele failure => (q.enqueue ele failure).2.unannounced = q.unannounced
  | _ => True

variable (q : ThreadSafeQueue T H) (ele : T)

theorem enqueue_of_written :
    q.enqueue ele none =
      (.ok (), { q with deque := q.deque ++ [ele], counter := q.counter + 1 }) := rfl

theorem enqueue_of_failed (errno : Errno) :
    q.enqueue ele (some errno) =
      (.error (.errnoError "unexpected write rv: -1" errno),
        { q with deque := q.deque ++ [ele] }) := rfl

theorem unannounced_enqueue (failure : Option Errno) :
    (q.enqueue ele failure).2.unannounced =
      q.unannounced + if failure.isSome then 1 else 0 := by
  have hlength : ((q.deque ++ [ele]).length : Int) = q.deque.length + 1 := by simp
  cases failure with
  | none =>
      simp only [enqueue_of_written, unannounced, hlength, Option.isSome_none, Bool.false_eq_true,
        if_false]
      omega
  | some errno =>
      simp only [enqueue_of_failed, unannounced, hlength, Option.isSome_some, if_true]
      omega

theorem atomic_iff_written (l : QueueLabel T H) : q.Atomic l ↔ l.Written := by
  cases l with
  | enqueue ele failure =>
      cases failure with
      | none => exact iff_of_true (Or.inl ⟨rfl, rfl, rfl⟩) rfl
      | some errno =>
          refine iff_of_false ?_ (Option.some_ne_none errno)
          rintro (⟨hok, -⟩ | ⟨exc, -, hdeque, -⟩)
          · cases hok
          · rw [enqueue_of_failed] at hdeque
            simpa using congrArg List.length hdeque
  | _ => exact iff_of_true trivial trivial

theorem keepsDifference_iff_written (l : QueueLabel T H) :
    q.KeepsDifference l ↔ l.Written := by
  cases l with
  | enqueue ele failure =>
      rw [KeepsDifference, unannounced_enqueue]
      cases failure with
      | none => exact iff_of_true (by simp) rfl
      | some errno =>
          refine iff_of_false ?_ (Option.some_ne_none errno)
          simp only [Option.isSome_some, if_true]
          omega
  | _ => exact iff_of_true trivial trivial

/-- **Atomic enqueues.** In every run of producers and the dispatching thread the enqueues are atomic,
and leave the difference of queued and announced elements alone, exactly when every write
succeeds. -/
theorem enqueue_atomic_iff_written {ls : List (QueueLabel T H)} {q : ThreadSafeQueue T H}
    (hrun : (threadSafeQueue T H).run start ls = some q) :
    ((threadSafeQueue T H).Along Atomic start ls ↔ ∀ l ∈ ls, l.Written) ∧
      ((threadSafeQueue T H).Along KeepsDifference start ls ↔ ∀ l ∈ ls, l.Written) ∧
      ∀ ele failure, q.Atomic (.enqueue ele failure) ↔ failure = none := by
  rw [← System.along_iff_forall_mem hrun]
  refine ⟨?_, ?_, fun ele failure => q.atomic_iff_written (.enqueue ele failure)⟩
  · exact System.along_congr (fun q l _ => q.atomic_iff_written l) _
  · exact System.along_congr (fun q l _ => q.keepsDifference_iff_written l) _

theorem enqueue_atomic_iff_written_two :
    let labels : List (QueueLabel Nat Nat) := [.enqueue 1 none, .enqueue 2 none]
    (threadSafeQueue Nat Nat).run start labels = some ⟨[1, 2], 2, none, .idle⟩ ∧
      ((threadSafeQueue Nat Nat).Along Atomic start labels ↔ ∀ l ∈ labels, l.Written) :=
  ⟨rfl, (enqueue_atomic_iff_written (q := ⟨[1, 2], 2, none, .idle⟩) rfl).1⟩

/-- The write for element 1 fails: the call throws and the element stays, and the next enqueue
announces one of the two elements. -/
theorem not_atomic_of_failed :
    ∃ q : ThreadSafeQueue Nat Nat,
      (threadSafeQueue Nat Nat).run start [.enqueue 1 (some eagain), .enqueue 2 none] = some q ∧
      ¬Atomic (start : ThreadSafeQueue Nat Nat) (.enqueue 1 (some eagain)) ∧
      q.deque = [1, 2] ∧ q.counter = 1 := by
  refine ⟨_, rfl, ?_, rfl, rfl⟩
  rw [atomic_iff_written]
  exact Option.some_ne_none eagain

end ThreadSafeQueue

end Suc.Epl
