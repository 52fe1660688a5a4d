import Suc.Epl.EventQueue

/-!
# Dispatching a batch

The inner loop of `exec` and `handleEpollFilledEvent`, as functions of the batch that `epoll_wait`
returned and of what the callbacks do. A callback is an arbitrary transformer of the queue and of
the rest of the program's memory; what it throws is caught and logged, and the loop goes on. Beside
the final state the functions return the calls they made, each with the states before and after it.
-/

namespace Suc.Epl

variable {F ω : Type}

structure Report where
  events : BitVec 32
  fd : Int
  deriving DecidableEq, Repr

structure World (F ω : Type) where
  queue : EventQueue F
  user : ω

abbrev Behaviour (F ω : Type) := F → World F ω → Option Exception × World F ω

/-- One call of a callback: the index of its report in the batch and the event type it is for. -/
structure Invocation (F ω : Type) where
  report : Nat
  event : EventType
  callback : F
  before : World F ω
  after : World F ω

def EventQueue.stored (q : EventQueue F) (fd : Int) (t : EventType) : Option F :=
  (q.fds fd).bind fun callbacks => callbacks.callback t

/-- The loop over the event types; `callbacks` is what the iterator refers to. -/
def handleEventTypes (body : Behaviour F ω) (report : Nat) (events : BitVec 32) (fd : Int) :
    List EventType → Callbacks F → World F ω → List (Invocation F ω) × World F ω
  | [], _, w => ([], w)
  | eventType :: types, callbacks, w =>
      if events &&& eventType.bit = 0#32 then
        handleEventTypes body report events fd types callbacks w
      else
        match callbacks.callback eventType with
        | none => handleEventTypes body report events fd types callbacks w
        | some func =>
            let after := (body func w).2
            let invocation : Invocation F ω := ⟨report, eventType, func, w, after⟩
            if after.queue.running then
              match after.queue.fds fd with
              | none => ([invocation], after)
              | some callbacks =>
                  let (rest, final) := handleEventTypes body report events fd types callbacks after
                  (invocation :: rest, final)
            else
              ([invocation], after)

def handleEpollFilledEvent (body : Behaviour F ω) (report : Nat) (events : BitVec 32) (fd : Int)
    (w : World F ω) : List (Invocation F ω) × World F ω :=
  match w.queue.fds fd with
  | none => ([], w)
  | some callbacks => handleEventTypes body report events fd kEventTypes callbacks w

def dispatchFrom (body : Behaviour F ω) :
    Nat → List Report → World F ω → List (Invocation F ω) × World F ω
  | _, [], w => ([], w)
  | i, r :: reports, w =>
      if w.queue.running then
        let (calls, w) := handleEpollFilledEvent body i r.events r.fd w
        let (rest, final) := dispatchFrom body (i + 1) reports w
        (calls ++ rest, final)
      else
        ([], w)

def dispatch (body : Behaviour F ω) (batch : List Report) (w : World F ω) :
    List (Invocation F ω) × World F ω :=
  dispatchFrom body 0 batch w

end Suc.Epl
