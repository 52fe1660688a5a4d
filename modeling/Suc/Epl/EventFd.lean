import Suc.Cmn.Error

/-!
# The event descriptor

An eventfd is a counter. `EventFd::add` writes to it, and the callback that `EventFd::onShot`
installs reads it: a read gives the counter and zeroes it, or takes one from it when the descriptor
counts as a semaphore, and fails while the counter is zero.
-/

namespace Suc.Epl.EventFd

def read (semaphore : Bool) (counter : Nat) : Option Nat × Nat :=
  if counter = 0 then (none, counter)
  else if semaphore then (some 1, counter - 1)
  else (some counter, 0)

/-- What the callback of `onShot` does before it calls its function: the value, or what it throws. -/
def shot (semaphore : Bool) (counter : Nat) : Except Exception Nat × Nat :=
  match read semaphore counter with
  | (some value, counter) => (.ok value, counter)
  | (none, counter) => (.error (.errnoError "unexpected read rv: -1" eagain), counter)

def add (counter value : Nat) (failure : Option Errno) : Except Exception Unit × Nat :=
  match failure with
  | none => (.ok (), counter + value)
  | some errno => (.error (.errnoError "unexpected write rv: -1" errno), counter)

theorem shot_of_ne_zero {counter : Nat} (hcounter : counter ≠ 0) :
    shot false counter = (.ok counter, 0) := by
  simp [shot, read, hcounter]

end Suc.Epl.EventFd
