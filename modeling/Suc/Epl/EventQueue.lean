import Mathlib.Logic.Function.Basic
import Suc.Cmn.Fd
import Suc.Epl.Callbacks
import Suc.Transition.System

/-!
# The event queue and its registrations

The members of `EventQueue` together with the two kernel objects it owns, the interest list of its
epoll descriptor and the counter of its event descriptor, and the functions that register
descriptors. What the kernel answers to the one `epoll_ctl` a function may issue is an argument:
`none` is success.
-/

namespace Suc.Epl

variable {F : Type}

inductive State where
  | idle
  | running
  | stopping
  | stopped
  | error
  deriving DecidableEq, Repr

structure EventQueue (F : Type) where
  epfd : Cmn.Fd
  evtfd : Cmn.Fd
  fds : Int → Option (Callbacks F)
  state : State
  exitCode : Int
  interest : Int → Option (BitVec 32)
  counter : Nat

/-- A registration function: the callbacks as it leaves them, and what it throws, if anything. -/
abbrev Reg (F : Type) := Callbacks F → Callbacks F × Option Exception

inductive CtlOp where
  | add
  | mod
  | del
  deriving DecidableEq, Repr

namespace EventQueue

def running (q : EventQueue F) : Bool := decide (q.state = .running)

def store (q : EventQueue F) (fd : Int) (callbacks : Callbacks F) : EventQueue F :=
  { q with fds := Function.update q.fds fd (some callbacks) }

def erase (q : EventQueue F) (fd : Int) : EventQueue F :=
  { q with fds := Function.update q.fds fd none }

/-- `m_fds.emplace`, which leaves an element that is there as it is. -/
def emplace (q : EventQueue F) (fd : Int) (callbacks : Callbacks F) : EventQueue F × Bool :=
  if (q.fds fd).isSome then (q, false) else (q.store fd callbacks, true)

/-- One `epoll_ctl`. A failing call leaves the interest list alone. -/
def epollCtl (q : EventQueue F) (op : CtlOp) (fd : Int) (events : BitVec 32)
    (answer : Option Errno) : EventQueue F :=
  match answer, op with
  | some _, _ => q
  | none, .del => { q with interest := Function.update q.interest fd none }
  | none, _ => { q with interest := Function.update q.interest fd (some events) }

/-- The common end of `add` and `mod`: the registration function has edited the callbacks in place
and, unless it threw, the mask they ask for is installed. -/
def install (q : EventQueue F) (op : CtlOp) (fd : Int) (edited : Callbacks F × Option Exception)
    (answer : Option Errno) (msg : String) : Except Exception Unit × EventQueue F :=
  let q := q.store fd edited.1
  match edited.2 with
  | some exc => (.error exc, q)
  | none =>
      match calculateEvents edited.1 [] with
      | .error exc => (.error exc, q)
      | .ok events =>
          (match answer with
            | none => .ok ()
            | some errno => .error (.errnoError msg errno),
          q.epollCtl op fd events answer)

/-- The constructor. `wake` is the callback of the event descriptor, which does nothing. -/
def create (epfd evtfd : Int) (errno : Errno) (wake : F) (answer : Option Errno) :
    Except Exception (EventQueue F) := do
  let epfd ← Cmn.Fd.make epfd "epoll_create1" true errno
  let evtfd ← Cmn.Fd.make evtfd "eventfd" true errno
  let members : EventQueue F :=
    { epfd, evtfd, fds := fun _ => none, state := .idle, exitCode := 1, interest := fun _ => none,
      counter := 0 }
  let callbacks : Callbacks F := { inputAvailable := some wake }
  let (q, inserted) := members.emplace evtfd.fd callbacks
  if inserted = false then
    throw (.runtimeError "adding event file descriptor failed")
  let events ← calculateEvents callbacks []
  match answer with
  | some errno => throw (.errnoError "epoll_ctl add failed" errno)
  | none => pure (q.epollCtl .add evtfd.fd events none)

def add (q : EventQueue F) (fd : Int) (reg : Option (Reg F)) (answer : Option Errno) :
    Except Exception Unit × EventQueue F :=
  if (q.fds fd).isSome then
    (.error (.runtimeError "file descriptor already added"), q)
  else
    let (q, inserted) := q.emplace fd {}
    if inserted = false then
      (.error (.runtimeError "adding file descriptor failed"), q)
    else
      let edited := match reg with
        | some reg => reg {}
        | none => ({}, none)
      q.install .add fd edited answer "epoll_ctl add failed"

def mod (q : EventQueue F) (fd : Int) (reg : Option (Reg F)) (answer : Option Errno) :
    Except Exception Unit × EventQueue F :=
  match reg with
  | none => (.error (.runtimeError "reg is mandatory"), q)
  | some reg =>
      match q.fds fd with
      | some callbacks => q.install .mod fd (reg callbacks) answer "epoll_ctl mod failed"
      | none => (.error (.runtimeError "unknown file descriptor"), q)

def del (q : EventQueue F) (fd : Int) (answer : Option Errno) :
    Except Exception Unit × EventQueue F :=
  if (q.fds fd).isNone then
    (.error (.runtimeError "unknown fd"), q)
  else
    let q := q.erase fd
    (match answer with
      | none => .ok ()
      | some errno =>
          if errno = ebadf then .error (.errnoError "epoll_ctl del failed (EBADF)" errno)
          else .error (.errnoError "epoll_ctl del failed" errno),
    q.epollCtl .del fd 0 answer)

def delSafe (q : EventQueue F) (fd : Int) (answer : Option Errno) : EventQueue F :=
  (q.del fd answer).2

end EventQueue

inductive Call (F : Type) where
  | add (fd : Int) (reg : Option (Reg F)) (answer : Option Errno)
  | mod (fd : Int) (reg : Option (Reg F)) (answer : Option Errno)
  | del (fd : Int) (answer : Option Errno)

def Call.apply (q : EventQueue F) : Call F → Except Exception Unit × EventQueue F
  | .add fd reg answer => q.add fd reg answer
  | .mod fd reg answer => q.mod fd reg answer
  | .del fd answer => q.del fd answer

def registrations (F : Type) : Transition.System (EventQueue F) (Call F) where
  step q call := some (call.apply q).2

/-! ### What each call does -/

section Spec

variable (q : EventQueue F) (fd : Int) (reg : Option (Reg F)) (answer : Option Errno)

def newCallbacks (reg : Option (Reg F)) : Callbacks F × Option Exception :=
  match reg with
  | some reg => reg {}
  | none => ({}, none)

variable {q} {fd}

theorem add_of_present (hfd : (q.fds fd).isSome) :
    q.add fd reg answer = (.error (.runtimeError "file descriptor already added"), q) := by
  simp [EventQueue.add, hfd]

theorem add_of_absent (hfd : q.fds fd = none) :
    q.add fd reg answer =
      q.install .add fd (newCallbacks reg) answer "epoll_ctl add failed" := by
  simp only [EventQueue.add, EventQueue.emplace, EventQueue.install, EventQueue.store, hfd]
  cases reg <;> simp [newCallbacks]

theorem mod_of_absent (reg : Reg F) (hfd : q.fds fd = none) :
    q.mod fd (some reg) answer = (.error (.runtimeError "unknown file descriptor"), q) := by
  simp [EventQueue.mod, hfd]

theorem mod_of_present (reg : Reg F) {callbacks : Callbacks F} (hfd : q.fds fd = some callbacks) :
    q.mod fd (some reg) answer =
      q.install .mod fd (reg callbacks) answer "epoll_ctl mod failed" := by
  simp [EventQueue.mod, hfd]

theorem del_of_absent (hfd : q.fds fd = none) :
    q.del fd answer = (.error (.runtimeError "unknown fd"), q) := by
  simp [EventQueue.del, hfd]

theorem del_of_present {callbacks : Callbacks F} (hfd : q.fds fd = some callbacks) :
    (q.del fd answer).2 = (q.erase fd).epollCtl .del fd 0 answer := by
  simp [EventQueue.del, hfd]

end Spec

def EventQueue.created (epfd evtfd : Cmn.Fd) (wake : F) : EventQueue F :=
  let callbacks : Callbacks F := { inputAvailable := some wake }
  { epfd, evtfd
    fds := Function.update (fun _ => none) evtfd.fd (some callbacks)
    state := .idle
    exitCode := 1
    interest := Function.update (fun _ => none) evtfd.fd (some callbacks.mask)
    counter := 0 }

theorem create_eq_ok {epfd evtfd : Int} {errno : Errno} {wake : F} {answer : Option Errno}
    {q : EventQueue F} :
    EventQueue.create epfd evtfd errno wake answer = .ok q ↔
      0 ≤ epfd ∧ 0 ≤ evtfd ∧ answer = none ∧ EventQueue.created ⟨epfd⟩ ⟨evtfd⟩ wake = q := by
  by_cases hepfd : 0 ≤ epfd
  · by_cases hevtfd : 0 ≤ evtfd
    · rw [EventQueue.create, Cmn.Fd.make_of_nonneg hepfd, Cmn.Fd.make_of_nonneg hevtfd]
      cases answer with
      | some errno => simp [bind, Except.bind, EventQueue.emplace, throw, throwThe, MonadExceptOf.throw]
      | none =>
          simp [bind, Except.bind, EventQueue.emplace, pure, Except.pure, hepfd, hevtfd,
            EventQueue.created, EventQueue.store, EventQueue.epollCtl]
    · rw [EventQueue.create, Cmn.Fd.make_of_nonneg hepfd]
      simp [bind, Except.bind, Cmn.Fd.make, Int.not_le.mp hevtfd, hevtfd]
  · rw [EventQueue.create]
    simp [bind, Except.bind, Cmn.Fd.make, Int.not_le.mp hepfd, hepfd]

/-! ### What no registration call touches -/

namespace EventQueue

variable (q : EventQueue F) (fd : Int)

@[simp]
theorem epollCtl_fds (op : CtlOp) (events : BitVec 32) (answer : Option Errno) :
    (q.epollCtl op fd events answer).fds = q.fds := by
  cases answer <;> cases op <;> rfl

theorem exists_install_eq (op : CtlOp) (edited : Callbacks F × Option Exception)
    (answer : Option Errno) (msg : String) :
    ∃ interest, (q.install op fd edited answer msg).2 =
      { q.store fd edited.1 with interest := interest } := by
  unfold install
  rw [calculateEvents_nil]
  cases hthrown : edited.2 with
  | some exc => exact ⟨q.interest, rfl⟩
  | none =>
      cases answer with
      | some errno => exact ⟨q.interest, rfl⟩
      | none => cases op <;> exact ⟨_, rfl⟩

end EventQueue

/-! ### The keys of the map -/

theorem add_fds_of_absent {q : EventQueue F} {fd : Int} (reg : Option (Reg F))
    (answer : Option Errno) (hfd : q.fds fd = none) :
    (q.add fd reg answer).2.fds = Function.update q.fds fd (some (newCallbacks reg).1) := by
  obtain ⟨interest, hinstall⟩ := q.exists_install_eq fd .add (newCallbacks reg) answer
    "epoll_ctl add failed"
  rw [add_of_absent reg answer hfd, hinstall]
  rfl

theorem mod_fds_of_present {q : EventQueue F} {fd : Int} (reg : Reg F) (answer : Option Errno)
    {callbacks : Callbacks F} (hfd : q.fds fd = some callbacks) :
    (q.mod fd (some reg) answer).2.fds = Function.update q.fds fd (some (reg callbacks).1) := by
  obtain ⟨interest, hinstall⟩ := q.exists_install_eq fd .mod (reg callbacks) answer
    "epoll_ctl mod failed"
  rw [mod_of_present answer reg hfd, hinstall]
  rfl

theorem del_fds (q : EventQueue F) (fd : Int) (answer : Option Errno) :
    (q.del fd answer).2.fds = Function.update q.fds fd none := by
  cases hfd : q.fds fd with
  | none => rw [del_of_absent answer hfd, ← hfd, Function.update_eq_self]
  | some callbacks => rw [del_of_present answer hfd, EventQueue.epollCtl_fds, EventQueue.erase]

theorem add_result_of_absent {q : EventQueue F} {fd : Int} (answer : Option Errno)
    (hfd : q.fds fd = none) :
    (q.add fd none answer).1 =
      match answer with
      | none => .ok ()
      | some errno => .error (.errnoError "epoll_ctl add failed" errno) := by
  rw [add_of_absent none answer hfd]
  simp [EventQueue.install, newCallbacks, calculateEvents_nil]

/-- A registration call changes the map at its own descriptor at most, the interest list, and
nothing else. -/
theorem Call.exists_apply_eq (q : EventQueue F) (call : Call F) :
    ∃ fds interest, (call.apply q).2 = { q with fds := fds, interest := interest } := by
  cases call with
  | add fd reg answer =>
      cases hfd : q.fds fd with
      | some callbacks =>
          have hpresent : (q.fds fd).isSome := by simp [hfd]
          exact ⟨q.fds, q.interest, by rw [Call.apply, add_of_present reg answer hpresent]⟩
      | none =>
          obtain ⟨interest, hinstall⟩ := q.exists_install_eq fd .add (newCallbacks reg) answer
            "epoll_ctl add failed"
          exact ⟨_, interest, by rw [Call.apply, add_of_absent reg answer hfd, hinstall]; rfl⟩
  | mod fd reg answer =>
      cases reg with
      | none => exact ⟨q.fds, q.interest, rfl⟩
      | some reg =>
          cases hfd : q.fds fd with
          | none =>
              exact ⟨q.fds, q.interest, by rw [Call.apply, mod_of_absent answer reg hfd]⟩
          | some callbacks =>
              obtain ⟨interest, hinstall⟩ := q.exists_install_eq fd .mod (reg callbacks) answer
                "epoll_ctl mod failed"
              exact ⟨_, interest, by rw [Call.apply, mod_of_present answer reg hfd, hinstall]; rfl⟩
  | del fd answer =>
      cases hfd : q.fds fd with
      | none => exact ⟨q.fds, q.interest, by rw [Call.apply, del_of_absent answer hfd]⟩
      | some callbacks =>
          rw [Call.apply, del_of_present answer hfd]
          cases answer <;> exact ⟨_, _, rfl⟩

@[simp]
theorem Call.apply_state (q : EventQueue F) (call : Call F) :
    (call.apply q).2.state = q.state := by
  obtain ⟨fds, interest, h⟩ := call.exists_apply_eq q
  rw [h]

@[simp]
theorem Call.apply_exitCode (q : EventQueue F) (call : Call F) :
    (call.apply q).2.exitCode = q.exitCode := by
  obtain ⟨fds, interest, h⟩ := call.exists_apply_eq q
  rw [h]

@[simp]
theorem Call.apply_counter (q : EventQueue F) (call : Call F) :
    (call.apply q).2.counter = q.counter := by
  obtain ⟨fds, interest, h⟩ := call.exists_apply_eq q
  rw [h]

end Suc.Epl
