import Suc.Epl.Loop
import Suc.Epl.Setters

/-!
# Timers

A timerfd is armed with a first expiration and an interval, counts the expirations that have not been
read, and is readable while there are any. `TimerFd` sets it, cancels it, and installs a callback that
reads the count and hands it to a function. The event loop dispatches that callback like any other:
by reports it has collected earlier, between callbacks that may set or cancel the timer themselves.
-/

namespace Suc.Epl

/-! ### The kernel's timer -/

structure Timespec where
  sec : Int
  nsec : Int
  deriving DecidableEq, Repr

def Timespec.zero : Timespec := ⟨0, 0⟩

structure Itimerspec where
  interval : Timespec
  value : Timespec
  deriving DecidableEq, Repr

/-- The setting the timer is armed with, if it is, and the count of unread expirations. -/
structure Timer where
  armed : Option Itimerspec
  expirations : Nat
  deriving DecidableEq, Repr

/-- `timerfd_create`. -/
def Timer.created : Timer where
  armed := none
  expirations := 0

/-- A successful `timerfd_settime`. -/
def Timer.settime (value : Itimerspec) : Timer where
  armed := if value.value = Timespec.zero then none else some value
  expirations := 0

/-- The clock reaches the next expiration. A timer without an interval expires once. -/
def Timer.expire (timer : Timer) : Option Timer :=
  timer.armed.map fun value =>
    { armed := if value.interval = Timespec.zero then none else some value
      expirations := timer.expirations + 1 }

/-- A non-blocking `read` of the count. -/
def Timer.read (timer : Timer) (failure : Option Errno) : Except Errno Nat × Timer :=
  match failure with
  | some errno => (.error errno, timer)
  | none =>
      if timer.expirations = 0 then (.error eagain, timer)
      else (.ok timer.expirations, { timer with expirations := 0 })

/-! ### `TimerFd` -/

/-- A callable is the lambda of `onShot` around its function, or anything else. -/
inductive Callable (H G : Type) where
  | shot (func : H)
  | other (func : G)
  deriving DecidableEq, Repr

namespace TimerFd

def lowLevelSetTime (timer : Timer) (value : Itimerspec) (failure : Option Errno) :
    Except Exception Unit × Timer :=
  match failure with
  | some errno => (.error (.errnoError "timerfd_settime" errno), timer)
  | none => (.ok (), .settime value)

def setTime (timer : Timer) (value : Itimerspec) (failure : Option Errno) :
    Except Exception Unit × Timer :=
  lowLevelSetTime timer
    (if value.value.sec ≠ 0 ∨ value.value.nsec ≠ 0 then value else ⟨value.interval, ⟨0, 1⟩⟩) failure

def cancel (timer : Timer) (failure : Option Errno) : Except Exception Unit × Timer :=
  lowLevelSetTime timer ⟨⟨0, 0⟩, ⟨0, 0⟩⟩ failure

def onShot {H G : Type} (fd : Int) (func : Option H) (answer : Option Errno) :
    Call (Callable H G) :=
  match func with
  | none => Fd.onInputAvailable fd none answer
  | some func => Fd.onInputAvailable fd (some (.shot func)) answer

def readNumberOfExpirations (timer : Timer) (failure : Option Errno) :
    Except Exception Nat × Timer :=
  match timer.read failure with
  | (.ok numberOfExpirations, timer) => (.ok numberOfExpirations, timer)
  | (.error errnum, timer) =>
      (.error (.errnoError "unexpected read return value: -1" errnum), timer)

end TimerFd

/-! ### Under an event queue -/

/-- `handed` is what the function that an `exec` is running was called with. It is `none` while the
callback of `onShot` has not read yet. -/
structure TimerLoop (H G ι ε : Type) where
  loop : Loop (Callable H G) ι ε
  timer : Timer
  handed : ε → Option Nat

/-- The timer is set and cancelled and a function installed at any time, inside a callback or not, and
what `epoll_wait` reports need not agree with the timer: a report may be stale when it is collected as
well as when it is dispatched. -/
inductive TimerLabel (H G ι ε : Type) where
  | setTime (value : Itimerspec) (failure : Option Errno)
  | cancel (failure : Option Errno)
  | onShot (func : Option H) (answer : Option Errno)
  | expire
  | read (e : ε) (failure : Option Errno)
  | loop (l : LoopLabel (Callable H G) ι ε)

namespace TimerLoop

variable {H G ι ε : Type}

/-- The `exec` has called the callback of `onShot`, which is about to read. -/
def reads (s : TimerLoop H G ι ε) (e : ε) : Bool :=
  match s.loop.execs e with
  | .callback _ (.shot _) _ => (s.handed e).isNone
  | _ => false

/-- What is handed to a function is gone when its callback ends. -/
def after (s : TimerLoop H G ι ε) (loop : Loop (Callable H G) ι ε) : TimerLoop H G ι ε where
  loop := loop
  timer := s.timer
  handed e :=
    match loop.execs e with
    | .callback _ _ _ => s.handed e
    | _ => none

variable [DecidableEq ι] [DecidableEq ε]

def step (fd : Int) (s : TimerLoop H G ι ε) : TimerLabel H G ι ε → Option (TimerLoop H G ι ε)
  | .setTime value failure => some { s with timer := (TimerFd.setTime s.timer value failure).2 }
  | .cancel failure => some { s with timer := (TimerFd.cancel s.timer failure).2 }
  | .onShot func answer =>
      let queue := ((TimerFd.onShot fd func answer).apply s.loop.queue).2
      some { s with loop := { s.loop with queue } }
  | .expire => s.timer.expire.map fun timer => { s with timer }
  | .read e failure =>
      if s.reads e then
        match TimerFd.readNumberOfExpirations s.timer failure with
        | (.ok numberOfExpirations, timer) =>
            some { s with timer, handed := Function.update s.handed e (some numberOfExpirations) }
        -- the exception leaves the lambda before its function is called
        | (.error exc, timer) =>
            (s.loop.step (.exec e (.callback (.throws (.std exc))))).map fun loop =>
              { s.after loop with timer }
      else
        none
  | .loop (.exec e (.callback act)) =>
      if s.reads e then none
      else (s.loop.step (.exec e (.callback act))).map s.after
  | .loop l => (s.loop.step l).map s.after

/-- A new timer, under a queue in any state. -/
def start (loop : Loop (Callable H G) ι ε) : TimerLoop H G ι ε where
  loop := loop
  timer := .created
  handed := fun _ => none

end TimerLoop

def timerLoop (H G ι ε : Type) [DecidableEq ι] [DecidableEq ε] (fd : Int) :
    Transition.System (TimerLoop H G ι ε) (TimerLabel H G ι ε) where
  step := TimerLoop.step fd

end Suc.Epl
