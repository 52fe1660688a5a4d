import Suc.Cmn.Error

/-!
# Owned descriptors

`cmn::Fd` owns the descriptor it holds and closes it when it is destroyed. `-1` stands for none.
-/

namespace Suc.Cmn

structure Fd where
  fd : Int
  deriving DecidableEq, Repr

def Fd.make (fd : Int) (msg : String) (withErrno : Bool) (errno : Errno) : Except Exception Fd :=
  if fd < 0 then
    let what := "invalid file descriptor" ++ (if msg = "" then "" else "; " ++ msg)
    if withErrno then .error (.errnoError what errno) else .error (.runtimeError what)
  else
    .ok ⟨fd⟩

def Fd.moveConstruct (other : Fd) : Fd × Fd :=
  (⟨other.fd⟩, ⟨-1⟩)

/-- Both objects after an assignment, which swaps their descriptors. -/
def Fd.moveAssign (fd other : Fd) : Fd × Fd :=
  (⟨other.fd⟩, ⟨fd.fd⟩)

/-- The descriptor that the destructor closes, if any. -/
def Fd.closes (fd : Fd) : Option Int :=
  if 0 ≤ fd.fd then some fd.fd else none

theorem Fd.make_of_nonneg {fd : Int} (hfd : 0 ≤ fd) (msg : String) (withErrno : Bool)
    (errno : Errno) : Fd.make fd msg withErrno errno = .ok ⟨fd⟩ := by
  simp [Fd.make, Int.not_lt.mpr hfd]

end Suc.Cmn
