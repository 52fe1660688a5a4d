import Suc.Epl.EventFd
import Suc.Transition.System

/-!
# The thread-safe queue

Any number of threads enqueue, and one thread dispatches the callback that `onElement` installs at
the event descriptor. A section under the mutex is one step, and so is the read of the descriptor,
which is made outside of it. The callback that is dispatched is a copy: a handler that replaces
itself goes on with the elements of its batch.
-/

namespace Suc.Epl

/-- Where the dispatching thread stands. `loop` is the test of the loop over the elements with the
number of them that are left, `crashed` is behind a `front` of an empty deque. -/
inductive DispatchPos (T H : Type) where
  | idle
  | reading (func : H)
  | loop (func : H) (i : Nat)
  | handling (func : H) (ele : T) (i : Nat)
  | crashed
  deriving DecidableEq, Repr

structure ThreadSafeQueue (T H : Type) where
  deque : List T
  counter : Nat
  handler : Option H
  dispatcher : DispatchPos T H
  deriving DecidableEq, Repr

/-- The label of a step of the dispatching thread is `step` unless the step is the handler's. -/
inductive QueueLabel (T H : Type) where
  | enqueue (ele : T) (failure : Option Errno)
  | onElement (func : Option H)
  | dispatch
  | step
  | returns
  | throws (exc : Exception)

namespace ThreadSafeQueue

variable {T H : Type}

def start : ThreadSafeQueue T H where
  deque := []
  counter := 0
  handler := none
  dispatcher := .idle

def enqueue (q : ThreadSafeQueue T H) (ele : T) (failure : Option Errno) :
    Except Exception Unit × ThreadSafeQueue T H :=
  let (result, counter) := EventFd.add q.counter 1 failure
  (result, { q with deque := q.deque ++ [ele], counter })

def onElement (q : ThreadSafeQueue T H) (func : Option H) : ThreadSafeQueue T H :=
  { q with handler := func }

def dispatchStep (q : ThreadSafeQueue T H) : Option (ThreadSafeQueue T H) :=
  match q.dispatcher with
  | .reading func =>
      match EventFd.shot false q.counter with
      | (.ok value, counter) => some { q with counter, dispatcher := .loop func value }
      -- the exception is caught by the event queue and logged
      | (.error _, counter) => some { q with counter, dispatcher := .idle }
  | .loop _ 0 => some { q with dispatcher := .idle }
  | .loop func (i + 1) =>
      match q.deque with
      | [] => some { q with dispatcher := .crashed }
      | ele :: deque => some { q with deque, dispatcher := .handling func ele i }
  | _ => none

def step (q : ThreadSafeQueue T H) : QueueLabel T H → Option (ThreadSafeQueue T H)
  | .enqueue ele failure => some (q.enqueue ele failure).2
  | .onElement func =>
      match q.dispatcher with
      | .idle | .handling _ _ _ => some (q.onElement func)
      | _ => none
  | .dispatch =>
      match q.dispatcher, q.handler with
      | .idle, some func => some { q with dispatcher := .reading func }
      | _, _ => none
  | .step => q.dispatchStep
  | .returns =>
      match q.dispatcher with
      | .handling func _ i => some { q with dispatcher := .loop func i }
      | _ => none
  | .throws _ =>
      match q.dispatcher with
      | .handling _ _ _ => some { q with dispatcher := .idle }
      | _ => none

end ThreadSafeQueue

def threadSafeQueue (T H : Type) : Transition.System (ThreadSafeQueue T H) (QueueLabel T H) where
  step := ThreadSafeQueue.step

end Suc.Epl
