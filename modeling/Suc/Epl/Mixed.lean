import Suc.Epl.Services

/-!
# Sources of several kinds

A program has sources of several kinds on one event queue: it stops on a signal, prints what is
queued, and runs timers. The lambda at a descriptor is of the kind of the function that was
installed last, and what other threads do with an object is of a kind as well. An object holds what
each kind would hold; it is of one kind when all functions and calls that it is given are.
-/

namespace Suc.Epl

section Mixed

variable {τ : Type} {δ π α ο H : τ → Type}

/-- The value, if it is of the kind. -/
def ofKind [DecidableEq τ] {β : τ → Type} (i : τ) (x : Sigma β) : Option (β i) :=
  if h : x.1 = i then some (h ▸ x.2) else none

def Next.mixed (i : τ) : Next (π i) → Next (Sigma π)
  | .goesOn pos => .goesOn ⟨i, pos⟩
  | .returns => .returns
  | .throws exc => .throws exc

variable [DecidableEq τ]

/-- What a lambda of one kind does uses what the object holds of that kind. -/
def Work.mixed (i : τ) : Work (δ i) (π i) (α i) → Work (∀ i, δ i) (Sigma π) (∀ i, α i)
  | .user back => .user ⟨i, back⟩
  | .frame next => .frame (next.mixed i)
  | .object use => .object fun choice state =>
      (use (choice i) (state i)).map fun r => (Function.update state i r.1, r.2.mixed i)

def Service.mixed (services : ∀ i, Service (δ i) (π i) (α i) (ο i) (H i)) :
    Service (∀ i, δ i) (Sigma π) (∀ i, α i) (Sigma ο) (Sigma H) where
  created i := (services i).created
  enter func := ⟨func.1, (services func.1).enter func.2⟩
  work pos := ((services pos.1).work pos.2).mixed pos.1
  outside state op := Function.update state op.1 ((services op.1).outside (state op.1) op.2)

end Mixed

/-! ### The kinds of the library -/

inductive Kind where
  | eventFd (semaphore : Bool)
  | timerFd
  | threadSafeQueue
  | signalFd
  | gpioEvent
  deriving DecidableEq, Repr

namespace Kind

def Object (T : Type) : Kind → Type
  | .eventFd _ => Nat
  | .timerFd => Timer
  | .threadSafeQueue => ThreadSafeQueue.Members T
  | .signalFd => List SignalfdSiginfo
  | .gpioEvent => List LineEvent

def Pos (T H : Type) : Kind → Type
  | .eventFd _ | .timerFd => CountPos H
  | .threadSafeQueue => DispatchPos T H
  | .signalFd => Reader.Pos SignalfdSiginfo SignalfdSiginfo H
  | .gpioEvent => Reader.Pos LineEvent (Int × Edge) H

def Choice : Kind → Type
  | .eventFd _ | .threadSafeQueue => Unit
  | .timerFd | .signalFd | .gpioEvent => Option Errno

/-- No read fails. -/
def readsSucceed : (i : Kind) → i.Choice
  | .eventFd _ | .threadSafeQueue => ()
  | .timerFd | .signalFd | .gpioEvent => (none : Option Errno)

/-- What other threads, the clock and the kernel do with an object. -/
def Op (T : Type) : Kind → Type
  | .eventFd _ => BitVec 64
  | .timerFd => TimerAct
  | .threadSafeQueue => T × Option Errno
  | .signalFd => SignalAct
  | .gpioEvent => KernelAct LineEvent

def service (T H : Type) :
    (i : Kind) → Service (i.Object T) (i.Pos T H) i.Choice (i.Op T) H
  | .eventFd semaphore => EventFd.service semaphore
  | .timerFd => TimerFd.service
  | .threadSafeQueue => ThreadSafeQueue.service T H
  | .signalFd => SignalFd.service H
  | .gpioEvent => Reader.service H inspectInput

end Kind

/-- Programs with sources of all kinds. -/
abbrev Program (T κ H G ι ε : Type) :=
  Sources κ (∀ i : Kind, i.Object T) (Sigma (Kind.Pos T H)) (Σ _ : Kind, H) G ι ε

abbrev ProgramLabel (T κ H G ι ε : Type) :=
  SourcesLabel κ (∀ i : Kind, i.Choice) (Sigma (Kind.Op T)) (Σ _ : Kind, H) G ι ε

def program (T κ H G ι ε : Type) [DecidableEq κ] [DecidableEq ι] [DecidableEq ε] :
    Transition.System (Program T κ H G ι ε) (ProgramLabel T κ H G ι ε) :=
  sources κ G ι ε (Service.mixed (Kind.service T H))

end Suc.Epl
