import Suc.Epl.Services

/-!
# Constructors of sources

A source makes its descriptor and hands it over to an `epl::Fd`. If the registration throws, the
member of the `epl::Fd` closes the descriptor, and there is no object. `TimerFd` and `SignalFd` have
constructors more, which delegate to the one before. When that one has returned, the object is
constructed: what the body throws destroys it, and with it the registration and the descriptor.
-/

namespace Suc.Epl

variable {κ δ π α ο T H G ι ε : Type}

/-- What the kernel answers: `fd` and `errno` when the descriptor is made, and to the `epoll_ctl`
of the registration, the `epoll_ctl` of the callback, `timerfd_settime` and the `epoll_ctl` of the
destructor. -/
structure ConstructAnswers where
  fd : Int
  errno : Errno
  add : Option Errno
  mod : Option Errno
  settime : Option Errno
  del : Option Errno
  deriving DecidableEq, Repr

section

variable [DecidableEq κ]

/-- A constructor that makes the descriptor by the call `what`. -/
def Service.construct (service : Service δ π α ο H) (what : String) (s : Sources κ δ π H G ι ε)
    (k : κ) (answers : ConstructAnswers) : Except Exception Unit × Sources κ δ π H G ι ε :=
  match Cmn.Fd.make answers.fd what true answers.errno with
  | .error exc => (.error exc, s)
  | .ok fd =>
      match Fd.construct s.loop.queue fd answers.add with
      | (.ok (), queue, _) =>
          (.ok (), { s.setQueue queue with
            opened := Function.update s.opened fd.fd true
            source := Function.update s.source k (.alive fd.fd service.created) })
      | (.error exc, queue, _) => (.error exc, s.setQueue (Sources.closed queue fd.fd))

def Sources.destruct (s : Sources κ δ π H G ι ε) (k : κ) (fd : Int) (state : δ)
    (answer : Option Errno) : Sources κ δ π H G ι ε :=
  { s.setQueue (closed (Fd.destruct s.loop.queue ⟨fd⟩ answer).1 fd) with
    opened := Function.update s.opened fd false
    source := Function.update s.source k (.dead state) }

def EventFd.construct (semaphore : Bool) (s : Sources κ Nat (CountPos H) H G ι ε) :=
  (service semaphore).construct "eventfd" s

/-- There is memory for the other members. -/
def ThreadSafeQueue.construct (s : Sources κ (Members T) (DispatchPos T H) H G ι ε) :=
  (service T H).construct "eventfd" s

namespace TimerFd

/-- `TimerFd(eventQueue)`. -/
def construct (s : Sources κ Timer (CountPos H) H G ι ε) :=
  service.construct "timerfd_create" s

/-- `TimerFd(func, eventQueue)`. -/
def constructOnShot (s : Sources κ Timer (CountPos H) H G ι ε) (k : κ) (func : Option H)
    (answers : ConstructAnswers) :
    Except Exception Unit × Sources κ Timer (CountPos H) H G ι ε :=
  match construct s k answers with
  | (.error exc, s) => (.error exc, s)
  | (.ok (), s) =>
      let func := func.map fun func => (k, func)
      match (onShot answers.fd func answers.mod).apply s.loop.queue with
      | (.ok (), queue) => (.ok (), s.setQueue queue)
      | (.error exc, queue) =>
          (.error exc, (s.setQueue queue).destruct k answers.fd .created answers.del)

/-- `TimerFd(value, func, eventQueue)`. -/
def constructSetTime (s : Sources κ Timer (CountPos H) H G ι ε) (k : κ) (value : Itimerspec)
    (func : Option H) (answers : ConstructAnswers) :
    Except Exception Unit × Sources κ Timer (CountPos H) H G ι ε :=
  match constructOnShot s k func answers with
  | (.error exc, s) => (.error exc, s)
  | (.ok (), s) =>
      match setTime .created value answers.settime with
      | (.ok (), timer) =>
          (.ok (), { s with source := Function.update s.source k (.alive answers.fd timer) })
      | (.error exc, timer) => (.error exc, s.destruct k answers.fd timer answers.del)

end TimerFd

/-! ### `SignalFd` -/

/-- The signals of a `sigset_t`, or those that a thread blocks. -/
abbrev SigSet := Int → Bool

/-- The answers to the calls that deal with sets of signals. -/
structure SignalAnswers where
  sigemptyset : Option Errno
  sigaddset : Int → Option Errno
  sigprocmask : Option Errno

def sigkill : Int := 9
def sigstop : Int := 19

namespace SignalFd

/-- The body of the loop of `createSigSet`. -/
def addSignal (answers : SignalAnswers) (sigset : SigSet) (sig : Int) : Except Exception SigSet :=
  match answers.sigaddset sig with
  | some errno => .error (.errnoError "sigaddset failed" errno)
  | none => .ok (Function.update sigset sig true)

def createSigSet (signals : List Int) (answers : SignalAnswers) : Except Exception SigSet :=
  match answers.sigemptyset with
  | some errno => .error (.errnoError "sigemptyset failed" errno)
  | none => signals.foldlM (addSignal answers) fun _ => false

/-- Blocking the two signals that cannot be blocked succeeds without effect. -/
def blockSignals (mask sigset : SigSet) (answers : SignalAnswers) :
    Except Exception Unit × SigSet :=
  match answers.sigprocmask with
  | some errno => (.error (.errnoError "sigprocmask failed" errno), mask)
  | none => (.ok (), fun sig => mask sig || sigset sig && sig != sigkill && sig != sigstop)

/-- A program with signal descriptors. -/
abbrev Signals (κ H G ι ε : Type) :=
  Sources κ (List SignalfdSiginfo) (Reader.Pos SignalfdSiginfo SignalfdSiginfo H) H G ι ε

/-- `SignalFd(sigset, eventQueue)`. -/
def construct (s : Signals κ H G ι ε) := (service H).construct "signalfd" s

/-- `SignalFd(sigset, block, eventQueue)`, in a thread that blocks the signals of `mask`. -/
def constructBlock (s : Signals κ H G ι ε) (k : κ) (sigset : SigSet) (block : Bool)
    (mask : SigSet) (answers : ConstructAnswers) (signalAnswers : SignalAnswers) :
    Except Exception Unit × SigSet × Signals κ H G ι ε :=
  match construct s k answers with
  | (.error exc, s) => (.error exc, mask, s)
  | (.ok (), s) =>
      if block then
        match blockSignals mask sigset signalAnswers with
        | (.ok (), mask) => (.ok (), mask, s)
        | (.error exc, mask) =>
            (.error exc, mask, s.destruct k answers.fd (service H).created answers.del)
      else
        (.ok (), mask, s)

/-- `SignalFd(signals, block, eventQueue)`, the public one. -/
def constructSignals (s : Signals κ H G ι ε) (k : κ) (signals : List Int) (block : Bool)
    (mask : SigSet) (answers : ConstructAnswers) (signalAnswers : SignalAnswers) :
    Except Exception Unit × SigSet × Signals κ H G ι ε :=
  match createSigSet signals signalAnswers with
  | .error exc => (.error exc, mask, s)
  | .ok sigset => constructBlock s k sigset block mask answers signalAnswers

end SignalFd

end

end Suc.Epl
