import Suc.Cmn.Error
import Suc.Transition.System

/-!
# Batch readers

The callbacks that `SignalFd::onSignal` and `GpioEvent::onEvent` install at a descriptor read as many
records as one `read` gives and hand them to a function one by one. The function is user code and may
throw, or install another one; the event queue has copied the callback it runs, catches what it throws
and logs it.
-/

namespace Suc.Epl

/-- What a `read` gives: whole records, nothing at all, or an error. -/
inductive ReadResult (ρ : Type) where
  | records (batch : List ρ)
  | zero (errno : Errno)
  | failed (errno : Errno)
  deriving DecidableEq, Repr

/-- What tells the readers apart: how many records a read gives at most, what the function is handed
for a record unless the loop throws, and how a read without records ends. -/
structure Reader (ρ α : Type) where
  capacity : Nat
  record : ρ → Except Exception α
  unread : ReadResult ρ → Except Exception Bool

/-! ### Signals -/

structure SignalfdSiginfo where
  signo : BitVec 32
  data : List (BitVec 8)
  deriving DecidableEq, Repr

def onSignal : Reader SignalfdSiginfo SignalfdSiginfo where
  capacity := 32
  record := .ok
  unread
    | .records _ => .ok true
    | .zero errno => .error (.errnoError "read of signalfd returns 0" errno)
    | .failed errno => .error (.errnoError "read of signalfd failed" errno)

/-! ### Line events -/

inductive Edge where
  | rising
  | falling
  deriving DecidableEq, Repr

structure LineEvent where
  timestampNs : BitVec 64
  id : BitVec 32
  deriving DecidableEq, Repr

def gpioV2LineEventRisingEdge : BitVec 32 := 1

def gpioV2LineEventFallingEdge : BitVec 32 := 2

/-- Nanoseconds of the steady clock, which are a signed number. -/
def timepoint (nanoSeconds : BitVec 64) : Int := nanoSeconds.toInt

def edge (id : BitVec 32) : Except Exception Edge :=
  if id = gpioV2LineEventRisingEdge then .ok .rising
  else if id = gpioV2LineEventFallingEdge then .ok .falling
  else .error (.runtimeError "unknown edge event")

/-- The boolean that `inspectInput` returns is ignored by the callback. -/
def inspectInput : Reader LineEvent (Int × Edge) where
  capacity := 16
  record event := (edge event.id).map fun edge => (timepoint event.timestampNs, edge)
  unread
    | .records _ => .ok true
    | .zero _ => .error (.runtimeError "unexpected read size: got=0")
    | .failed errno => if errno = eagain then .ok false else .error (.errnoError "read event" errno)

/-! ### Runs -/

/-- Where the dispatching thread stands; `todo` are the records of the batch behind the one at hand. -/
inductive ReaderPos (ρ α H : Type) where
  | idle
  | reading (func : H)
  | loop (func : H) (todo : List ρ)
  | handling (func : H) (item : α) (todo : List ρ)
  deriving DecidableEq, Repr

structure ReaderState (ρ α H : Type) where
  func : Option H
  pos : ReaderPos ρ α H
  log : List Exception
  deriving DecidableEq, Repr

inductive ReaderLabel (ρ H : Type) where
  | install (func : Option H)
  | dispatch
  | read (result : ReadResult ρ)
  | step
  | returns
  | throws (exc : Exception)

namespace ReaderState

variable {ρ α H : Type} (s : ReaderState ρ α H)

def start : ReaderState ρ α H where
  func := none
  pos := .idle
  log := []

/-- The callback has ended, by an exception or not. -/
def leave {β : Type} (result : Except Exception β) : ReaderState ρ α H :=
  match result with
  | .ok _ => { s with pos := .idle }
  | .error exc => { s with pos := .idle, log := s.log ++ [exc] }

def step (reader : Reader ρ α) : ReaderLabel ρ H → Option (ReaderState ρ α H)
  | .install func =>
      match s.pos with
      | .idle | .handling _ _ _ => some { s with func }
      | _ => none
  | .dispatch =>
      match s.pos, s.func with
      | .idle, some func => some { s with pos := .reading func }
      | _, _ => none
  | .read result =>
      match s.pos, result with
      | .reading func, .records batch =>
          if batch ≠ [] ∧ batch.length ≤ reader.capacity then
            some { s with pos := .loop func batch }
          else
            none
      | .reading _, result => some (s.leave (reader.unread result))
      | _, _ => none
  | .step =>
      match s.pos with
      | .loop _ [] => some (s.leave (.ok true))
      | .loop func (r :: todo) =>
          match reader.record r with
          | .ok item => some { s with pos := .handling func item todo }
          | .error exc => some (s.leave (.error exc : Except Exception Bool))
      | _ => none
  | .returns =>
      match s.pos with
      | .handling func _ todo => some { s with pos := .loop func todo }
      | _ => none
  | .throws exc =>
      match s.pos with
      | .handling _ _ _ => some (s.leave (.error exc : Except Exception Bool))
      | _ => none

end ReaderState

def batchReader {ρ α : Type} (H : Type) (reader : Reader ρ α) :
    Transition.System (ReaderState ρ α H) (ReaderLabel ρ H) where
  step s := s.step reader

end Suc.Epl
