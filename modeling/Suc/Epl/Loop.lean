import Suc.Epl.Dispatch

/-!
# The event loop and its stop calls

Any number of calls of `exec` and of `stop` on one queue, from any threads, interleaved at every
atomic operation on `m_state` and `m_exitCode` and at every system call. A label says which call
moves and carries what is not the code's choice: what the kernel answers and what a callback does
next. A stop call made by a callback is a stop call like any other, of which the callback awaits the
end.
-/

namespace Suc.Epl

variable {F ι ε : Type}

/-! ### `stop` -/

inductive StopPos where
  | exchange
  | store
  | write
  | returned
  | refused
  | threw
  deriving DecidableEq, Repr

/-- A call of `stop`; `caller` is the `exec` whose callback makes it, if it is made by one. -/
structure StopCall (ε : Type) where
  value : Int
  caller : Option ε
  pos : StopPos
  deriving DecidableEq, Repr

inductive StopAct where
  | call (value : Int)
  | step
  | written (failure : Option Errno)
  deriving DecidableEq, Repr

def stopStep (q : EventQueue F) (call : StopCall ε) :
    StopAct → Option (EventQueue F × StopCall ε)
  | .call _ => none
  | .step =>
      match call.pos with
      | .exchange =>
          if q.state = .running then
            some ({ q with state := .stopping }, { call with pos := .store })
          else
            some (q, { call with pos := .refused })
      | .store => some ({ q with exitCode := call.value }, { call with pos := .write })
      | _ => none
  | .written failure =>
      match call.pos, failure with
      | .write, none => some ({ q with counter := q.counter + 1 }, { call with pos := .returned })
      | .write, some _ => some (q, { call with pos := .threw })
      | _, _ => none

/-! ### `exec` -/

/-- Where `handleEpollFilledEvent` stands: the report at hand, the event types from the current one
on, and the reports behind it. -/
structure Cursor where
  report : Report
  types : List EventType
  todo : List Report
  deriving DecidableEq, Repr

def Cursor.next (c : Cursor) : Cursor := { c with types := c.types.tail }

/-- The callback that is due at the cursor: the bit is set and a callback is stored for it. -/
def Cursor.due (c : Cursor) (q : EventQueue F) : Option F :=
  match c.types with
  | [] => none
  | t :: _ => if c.report.events &&& t.bit = 0#32 then none else q.stored c.report.fd t

inductive Thrown where
  | std (exc : Exception)
  | other
  deriving DecidableEq, Repr

inductive ExecPos (F ι : Type) where
  | notCalled
  | exchange
  | drain
  | whileTest
  | wait
  | waiting
  | storeError (errnum : Errno)
  | stopExchange (batch : List Report)
  | forTest (todo : List Report)
  | find (report : Report) (todo : List Report)
  | scan (c : Cursor)
  | callback (c : Cursor) (func : F) (stopping : Option ι)
  | runTest (c : Cursor)
  | refind (c : Cursor)
  | loadExit
  | returned (value : Int)
  | refused (exc : Exception)
  | threw (exc : Thrown)
  deriving DecidableEq, Repr

/-- What a callback does next. `other` is anything that does not concern the queue, `resume` the end
of the stop call it made. -/
inductive CallbackAct (F ι : Type) where
  | call (call : Call F)
  | close (fd : Int)
  | other
  | stop (id : ι) (value : Int)
  | resume
  | returns
  | throws (exc : Thrown)

inductive ExecAct (F ι : Type) where
  | call
  | step
  | drained (failure : Option Errno)
  | epollWait
  | woken (result : Except Errno (List Report))
  | invoke
  | callback (act : CallbackAct F ι)

def callbackStep (q : EventQueue F) (c : Cursor) (func : F) (stopping : Option ι) :
    CallbackAct F ι → Option (EventQueue F × ExecPos F ι)
  | .resume =>
      match stopping with
      | some _ => some (q, .callback c func none)
      | none => none
  | act =>
      match stopping, act with
      | none, .call call => some ((call.apply q).2, .callback c func none)
      -- closing a descriptor takes it out of the interest list
      | none, .close fd =>
          some ({ q with interest := Function.update q.interest fd none }, .callback c func none)
      | none, .other => some (q, .callback c func none)
      | none, .stop id _ => some (q, .callback c func (some id))
      | none, .returns => some (q, .runTest c)
      -- caught by the handler of std::exception and logged
      | none, .throws (.std _) => some (q, .runTest c)
      | none, .throws .other => some (q, .threw .other)
      | _, _ => none

def execStep (q : EventQueue F) : ExecPos F ι → ExecAct F ι → Option (EventQueue F × ExecPos F ι)
  | .notCalled, .call => some (q, .exchange)
  | .exchange, .step =>
      if q.state = .idle then
        some ({ q with state := .running }, .drain)
      else
        some (q, .refused (.runtimeError "event queue not in idle state"))
  -- a read of the eventfd zeroes a counter that is not zero, and fails with EAGAIN on zero
  | .drain, .drained none =>
      if q.counter = 0 then none else some ({ q with counter := 0 }, .whileTest)
  | .drain, .drained (some errno) =>
      if errno = eagain then
        if q.counter = 0 then some (q, .whileTest) else none
      else
        some (q, .threw (.std (.errnoError "read evtfd failed" errno)))
  | .whileTest, .step => if q.running then some (q, .wait) else some (q, .loadExit)
  | .wait, .epollWait => some (q, .waiting)
  | .waiting, .woken (.error errnum) =>
      if errnum = eintr then some (q, .whileTest) else some (q, .storeError errnum)
  | .waiting, .woken (.ok batch) => some (q, .stopExchange batch)
  | .storeError errnum, .step =>
      some ({ q with state := .error }, .threw (.std (.errnoError "epoll_wait failed" errnum)))
  | .stopExchange batch, .step =>
      if q.state = .stopping then
        some ({ q with state := .stopped }, .loadExit)
      else
        some (q, .forTest batch)
  | .forTest todo, .step =>
      match todo with
      | [] => some (q, .whileTest)
      | r :: todo => if q.running then some (q, .find r todo) else some (q, .whileTest)
  | .find r todo, .step =>
      match q.fds r.fd with
      | none => some (q, .forTest todo)
      | some _ => some (q, .scan ⟨r, kEventTypes, todo⟩)
  | .scan c, .step =>
      match c.types, c.due q with
      | [], _ => some (q, .forTest c.todo)
      | _ :: _, none => some (q, .scan c.next)
      | _ :: _, some _ => none
  | .scan c, .invoke => (c.due q).map fun func => (q, .callback c func none)
  | .callback c func stopping, .callback act => callbackStep q c func stopping act
  | .runTest c, .step => if q.running then some (q, .refind c) else some (q, .forTest c.todo)
  | .refind c, .step =>
      match q.fds c.report.fd with
      | none => some (q, .forTest c.todo)
      | some _ => some (q, .scan c.next)
  | .loadExit, .step => some (q, .returned q.exitCode)
  | _, _ => none

/-! ### The whole system -/

structure Loop (F ι ε : Type) where
  queue : EventQueue F
  execs : ε → ExecPos F ι
  stops : ι → Option (StopCall ε)

inductive LoopLabel (F ι ε : Type) where
  | exec (e : ε) (act : ExecAct F ι)
  | stop (id : ι) (act : StopAct)

variable [DecidableEq ι] [DecidableEq ε]

def StopCall.ended (call : StopCall ε) : Bool :=
  decide (call.pos = .returned ∨ call.pos = .refused ∨ call.pos = .threw)

namespace Loop

/-- The stop calls after an action of the `exec` call `e`, which may begin one or await its end. -/
def stopsAfter (s : Loop F ι ε) (e : ε) : ExecAct F ι → Option (ι → Option (StopCall ε))
  | .callback (.stop id value) =>
      if (s.stops id).isNone then
        some (Function.update s.stops id (some ⟨value, some e, .exchange⟩))
      else
        none
  | .callback .resume =>
      match s.execs e with
      | .callback _ _ (some id) =>
          if (s.stops id).any StopCall.ended then some s.stops else none
      | _ => none
  | _ => some s.stops

def step (s : Loop F ι ε) : LoopLabel F ι ε → Option (Loop F ι ε)
  | .exec e act =>
      (s.stopsAfter e act).bind fun stops =>
        (execStep s.queue (s.execs e) act).map fun r =>
          { queue := r.1, execs := Function.update s.execs e r.2, stops }
  | .stop id (.call value) =>
      if (s.stops id).isNone then
        some { s with stops := Function.update s.stops id (some ⟨value, none, .exchange⟩) }
      else
        none
  | .stop id act =>
      (s.stops id).bind fun call =>
        (stopStep s.queue call act).map fun r =>
          { s with queue := r.1, stops := Function.update s.stops id (some r.2) }

/-- A queue that has registrations but on which nothing has been called. -/
def start (epfd evtfd : Cmn.Fd) (fds : Int → Option (Callbacks F))
    (interest : Int → Option (BitVec 32)) : Loop F ι ε where
  queue := { epfd, evtfd, fds, state := .idle, exitCode := 1, interest, counter := 0 }
  execs := fun _ => .notCalled
  stops := fun _ => none

end Loop

def eventLoop (F ι ε : Type) [DecidableEq ι] [DecidableEq ε] :
    Transition.System (Loop F ι ε) (LoopLabel F ι ε) where
  step := Loop.step

end Suc.Epl
