import Mathlib.Algebra.Ring.Nat
import Suc.Epl.BatchReader
import Suc.Epl.Sources
import Suc.Epl.ThreadSafeQueue

/-!
# The kinds of sources

What the lambdas of `EventFd`, `TimerFd`, `ThreadSafeQueue`, `SignalFd` and `GpioEvent` do, between the
loop that runs them and the functions they call. A lambda holds a copy of its function, so it needs its
object for the reads of the descriptor and for the elements of the deque only.
-/

namespace Suc.Epl

variable {T H ρ α : Type}

/-! ### `EventFd` and `TimerFd` -/

/-- A lambda that reads one number and calls its function with it. -/
inductive CountPos (H : Type) where
  | reading (func : H)
  | calling (func : H) (value : Nat)
  | ending
  deriving DecidableEq, Repr

def countWork {δ α : Type} (read : α → δ → Except Exception Nat × δ) :
    CountPos H → Work δ (CountPos H) α
  | .reading func => .object fun choice state =>
      match read choice state with
      | (.ok value, state) => some (state, .goesOn (.calling func value))
      | (.error exc, state) => some (state, .throws exc)
  | .calling _ _ => .user .ending
  | .ending => .frame .returns

/-- The answer of the kernel to a `write`: the counter stays below the largest 64-bit number, which
is itself refused, and a descriptor that does not block refuses what has no room. -/
def EventFd.refuses (counter value : Nat) : Option Errno :=
  if value = 2 ^ 64 - 1 then some einval
  else if counter + value < 2 ^ 64 - 1 then none
  else some eagain

def EventFd.service (semaphore : Bool) : Service Nat (CountPos H) Unit (BitVec 64) H where
  created := 0
  enter := .reading
  work := countWork fun _ counter => shot semaphore counter
  outside counter value := (add counter value.toNat (refuses counter value.toNat)).2

/-- The calls of `setTime` and `cancel`, and the clock. -/
inductive TimerAct where
  | setTime (value : Itimerspec) (failure : Option Errno)
  | cancel (failure : Option Errno)
  | expire
  deriving DecidableEq, Repr

def TimerFd.service : Service Timer (CountPos H) (Option Errno) TimerAct H where
  created := .created
  enter := .reading
  work := countWork fun failure timer => readNumberOfExpirations timer failure
  outside timer
    | .setTime value failure => (setTime timer value failure).2
    | .cancel failure => (cancel timer failure).2
    | .expire => timer.expire.getD timer

/-! ### `ThreadSafeQueue` -/

namespace ThreadSafeQueue

/-- The members of a queue that its lambda and other threads use. -/
structure Members (T : Type) where
  deque : List T
  counter : Nat
  deriving DecidableEq, Repr

def Members.queue (m : Members T) (handler : Option H) (dispatcher : DispatchPos T H) :
    ThreadSafeQueue T H :=
  ⟨m.deque, m.counter, handler, dispatcher⟩

def members (q : ThreadSafeQueue T H) : Members T := ⟨q.deque, q.counter⟩

def service (T H : Type) : Service (Members T) (DispatchPos T H) Unit (T × Option Errno) H where
  created := ⟨[], 0⟩
  enter := .reading
  work
    | .reading func => .object fun _ m =>
        match EventFd.shot false m.counter with
        | (.ok value, counter) => some ({ m with counter }, .goesOn (.loop func value))
        | (.error exc, counter) => some ({ m with counter }, .throws exc)
    | .loop _ 0 => .frame .returns
    | .loop func (i + 1) => .object fun _ m =>
        match m.deque with
        | [] => some (m, .goesOn .crashed)
        | ele :: deque => some ({ m with deque }, .goesOn (.handling func ele i))
    | .handling func _ i => .user (.loop func i)
    | .idle | .crashed => .object fun _ _ => none
  outside m op := (enqueue (H := H) (m.queue none .idle) op.1 op.2).2.members

end ThreadSafeQueue

/-! ### Batch readers -/

/-- What the kernel does with the records of a descriptor: it queues one, and when there is no room
for it, it discards the oldest one first. -/
inductive KernelAct (ρ : Type) where
  | queue (r : ρ)
  | overrun (r : ρ)
  deriving DecidableEq, Repr

def KernelAct.record : KernelAct ρ → ρ
  | .queue r | .overrun r => r

namespace Reader

/-- A position of the lambda that is not `idle`. -/
inductive Pos (ρ α H : Type) where
  | reading (func : H)
  | loop (func : H) (todo : List ρ)
  | handling (func : H) (item : α) (todo : List ρ)
  deriving DecidableEq, Repr

/-- What a non-blocking read takes from the records that the kernel has queued. -/
def read (reader : Reader ρ α) (pending : List ρ) : Option Errno → ReadResult ρ × List ρ
  | some errno => (.failed errno, pending)
  | none =>
      if pending = [] then (.failed eagain, pending)
      else (.records (pending.take reader.capacity), pending.drop reader.capacity)

def work (reader : Reader ρ α) : Pos ρ α H → Work (List ρ) (Pos ρ α H) (Option Errno)
  | .reading func => .object fun failure pending =>
      match reader.read pending failure with
      | (.records batch, pending) => some (pending, .goesOn (.loop func batch))
      | (result, pending) =>
          match reader.unread result with
          | .ok _ => some (pending, .returns)
          | .error exc => some (pending, .throws exc)
  | .loop _ [] => .frame .returns
  | .loop func (r :: todo) =>
      match reader.record r with
      | .ok item => .frame (.goesOn (.handling func item todo))
      | .error exc => .frame (.throws exc)
  | .handling func _ todo => .user (.loop func todo)

/-- A reader whose descriptor gives its records in the order in which they are queued. -/
def service (H : Type) (reader : Reader ρ α) :
    Service (List ρ) (Pos ρ α H) (Option Errno) (KernelAct ρ) H where
  created := []
  enter := .reading
  work := reader.work
  outside pending
    | .queue r => pending ++ [r]
    | .overrun r => pending.tail ++ [r]

end Reader

/-! ### `SignalFd` -/

/-- What happens to the pending signals of a descriptor. One arrives, now or before there was a
descriptor, and gets the place that the kernel gives to its number, unless it `merges` with a pending
one of this number; or one is taken by somebody else, since what is pending is shared by all
descriptors and handlers of the process. -/
inductive SignalAct where
  | arrive (r : SignalfdSiginfo) (place : Nat) (merges : Bool)
  | taken (place : Nat)
  deriving DecidableEq, Repr

def SignalFd.merged (pending : List SignalfdSiginfo) (r : SignalfdSiginfo) (merges : Bool) : Bool :=
  merges && pending.any fun r' => r'.signo == r.signo

/-- The signals stand in the order in which a read takes them. -/
def SignalFd.service (H : Type) :
    Service (List SignalfdSiginfo) (Reader.Pos SignalfdSiginfo SignalfdSiginfo H) (Option Errno)
      SignalAct H where
  created := []
  enter := .reading
  work := onSignal.work
  outside pending
    | .arrive r place merges =>
        if merged pending r merges then pending
        else pending.take place ++ r :: pending.drop place
    | .taken place => pending.eraseIdx place

end Suc.Epl
