/-!
# Error numbers and exceptions

A failing system call leaves an error number; the library turns it into a `cmn::ErrnoError`, which
is a `std::runtime_error` with the number beside its message.
-/

namespace Suc

abbrev Errno := Nat

def eintr : Errno := 4

def ebadf : Errno := 9

def eagain : Errno := 11

def einval : Errno := 22

/-- The `std::exception`s the library throws, and those of user code. -/
inductive Exception where
  | runtimeError (what : String)
  | errnoError (msg : String) (errorNumber : Errno)
  | user (what : String)
  deriving DecidableEq, Repr

end Suc
