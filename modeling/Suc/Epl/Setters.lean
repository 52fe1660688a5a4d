import Suc.Epl.EventQueue

/-!
# The setters of `epl::Fd`

Each of the six setters is one `mod` whose registration function assigns one member of the callbacks
and returns. A pointer to a member is the event type that member serves.
-/

namespace Suc.Epl

variable {F : Type}

def Callbacks.assign (callbacks : Callbacks F) (member : EventType) (cb : Option F) : Callbacks F :=
  match member with
  | .input => { callbacks with inputAvailable := cb }
  | .output => { callbacks with outputPossible := cb }
  | .pri => { callbacks with priorityData := cb }
  | .rdHup => { callbacks with readSideHangUp := cb }
  | .hup => { callbacks with hangUp := cb }
  | .err => { callbacks with errorOccurred := cb }

theorem Callbacks.callback_assign (callbacks : Callbacks F) (member t : EventType) (cb : Option F) :
    (callbacks.assign member cb).callback t = if t = member then cb else callbacks.callback t := by
  cases member <;> cases t <;> rfl

namespace Fd

def setCallback (fd : Int) (member : EventType) (cb : Option F) (answer : Option Errno) : Call F :=
  .mod fd (some fun callbacks => (callbacks.assign member cb, none)) answer

def onInputAvailable (fd : Int) (cb : Option F) (answer : Option Errno) : Call F :=
  setCallback fd .input cb answer

def onOutputPossible (fd : Int) (cb : Option F) (answer : Option Errno) : Call F :=
  setCallback fd .output cb answer

def onPriorityData (fd : Int) (cb : Option F) (answer : Option Errno) : Call F :=
  setCallback fd .pri cb answer

def onReadSideHangUp (fd : Int) (cb : Option F) (answer : Option Errno) : Call F :=
  setCallback fd .rdHup cb answer

def onHangUp (fd : Int) (cb : Option F) (answer : Option Errno) : Call F :=
  setCallback fd .hup cb answer

def onError (fd : Int) (cb : Option F) (answer : Option Errno) : Call F :=
  setCallback fd .err cb answer

/-- A setter replaces the one callback it is for, whether or not `epoll_ctl` succeeds. -/
theorem setCallback_callback {q : EventQueue F} {fd : Int} {callbacks : Callbacks F}
    (member : EventType) (cb : Option F) (answer : Option Errno) (hfd : q.fds fd = some callbacks) :
    ∃ callbacks', ((setCallback fd member cb answer).apply q).2.fds fd = some callbacks' ∧
      ∀ t, callbacks'.callback t = if t = member then cb else callbacks.callback t := by
  refine ⟨callbacks.assign member cb, ?_, fun t => callbacks.callback_assign member t cb⟩
  rw [setCallback, Call.apply, mod_fds_of_present _ answer hfd, Function.update_self]

end Fd

end Suc.Epl
