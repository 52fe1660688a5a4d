import Mathlib.Tactic.Common
import Suc.Cmn.Error

/-!
# Callbacks and event masks

The six callbacks a descriptor can carry, the event bits of `sys/epoll.h` they belong to, and the
mask under which a descriptor is installed in the kernel. A `std::function` is an `Option`: it is
empty or holds one of the callables `F`.
-/

namespace Suc.Epl

variable {F : Type}

structure Callbacks (F : Type) where
  inputAvailable : Option F := none
  outputPossible : Option F := none
  priorityData : Option F := none
  readSideHangUp : Option F := none
  hangUp : Option F := none
  errorOccurred : Option F := none
  deriving DecidableEq, Repr

def epollIn : BitVec 32 := 0x001

def epollPri : BitVec 32 := 0x002

def epollOut : BitVec 32 := 0x004

def epollErr : BitVec 32 := 0x008

def epollHup : BitVec 32 := 0x010

def epollRdHup : BitVec 32 := 0x2000

def epollExclusive : BitVec 32 := 0x10000000

def epollWakeUp : BitVec 32 := 0x20000000

def epollOneShot : BitVec 32 := 0x40000000

def epollEt : BitVec 32 := 0x80000000

inductive EventType where
  | err
  | hup
  | input
  | output
  | rdHup
  | pri
  deriving DecidableEq, Repr

def EventType.bit : EventType → BitVec 32
  | .err => epollErr
  | .hup => epollHup
  | .input => epollIn
  | .output => epollOut
  | .rdHup => epollRdHup
  | .pri => epollPri

-- err and hup are handled first, so they are kept in front
def kEventTypes : List EventType :=
  [.err, .hup, .input, .output, .rdHup, .pri]

/-- The switch of the source on the enumerator's value. Its `default` is dead for the values of
`kEventTypes`, see `cbFunc_bit`. -/
def cbFunc (cb : Callbacks F) (eventType : BitVec 32) : Except Exception (Option F) :=
  if eventType = epollIn then .ok cb.inputAvailable
  else if eventType = epollOut then .ok cb.outputPossible
  else if eventType = epollRdHup then .ok cb.readSideHangUp
  else if eventType = epollPri then .ok cb.priorityData
  else if eventType = epollErr then .ok cb.errorOccurred
  else if eventType = epollHup then .ok cb.hangUp
  else .error (.runtimeError ("unknown event type: " ++ toString eventType.toNat))

def Callbacks.callback (cb : Callbacks F) : EventType → Option F
  | .err => cb.errorOccurred
  | .hup => cb.hangUp
  | .input => cb.inputAvailable
  | .output => cb.outputPossible
  | .rdHup => cb.readSideHangUp
  | .pri => cb.priorityData

@[simp]
theorem cbFunc_bit (cb : Callbacks F) (t : EventType) : cbFunc cb t.bit = .ok (cb.callback t) := by
  cases t <;> rfl

theorem mem_kEventTypes (t : EventType) : t ∈ kEventTypes := by
  cases t <;> decide

inductive InputFlags where
  | edgeTriggered
  | oneShot
  | wakeUp
  | exclusive
  deriving DecidableEq, Repr

def flagBits (iflags : List InputFlags) : BitVec 32 :=
  (if .edgeTriggered ∈ iflags then epollEt else 0#32) |||
    (if .oneShot ∈ iflags then epollOneShot else 0#32) |||
    (if .wakeUp ∈ iflags then epollWakeUp else 0#32) |||
    (if .exclusive ∈ iflags then epollExclusive else 0#32)

def calculateEvents (cb : Callbacks F) (iflags : List InputFlags) : Except Exception (BitVec 32) :=
  kEventTypes.foldlM (fun events eventType => do
    let func ← cbFunc cb eventType.bit
    if func.isSome then pure (events ||| eventType.bit) else pure events) (flagBits iflags)

def Callbacks.eventBit (cb : Callbacks F) (t : EventType) : BitVec 32 :=
  if (cb.callback t).isSome then t.bit else 0#32

def Callbacks.mask (cb : Callbacks F) : BitVec 32 :=
  kEventTypes.foldl (fun events t => events ||| cb.eventBit t) 0#32

theorem foldlM_eventBit (cb : Callbacks F) (types : List EventType) (events : BitVec 32) :
    (types.foldlM (fun events eventType => do
      let func ← cbFunc cb eventType.bit
      if func.isSome then pure (events ||| eventType.bit) else pure events) events :
        Except Exception (BitVec 32)) =
      .ok (types.foldl (fun events t => events ||| cb.eventBit t) events) := by
  induction types generalizing events with
  | nil => rfl
  | cons t types ih =>
      rw [List.foldlM_cons, List.foldl_cons, cbFunc_bit]
      cases hcb : (cb.callback t).isSome with
      | true =>
          have hbit : cb.eventBit t = t.bit := by simp [Callbacks.eventBit, hcb]
          rw [hbit, ← ih]
          simp [bind, Except.bind, pure, Except.pure, hcb]
      | false =>
          have hbit : cb.eventBit t = 0#32 := by simp [Callbacks.eventBit, hcb]
          rw [hbit, BitVec.or_zero, ← ih]
          simp [bind, Except.bind, pure, Except.pure, hcb]

@[simp]
theorem calculateEvents_nil (cb : Callbacks F) : calculateEvents cb [] = .ok cb.mask :=
  foldlM_eventBit cb kEventTypes 0

theorem eventBit_and_bit (cb : Callbacks F) (t u : EventType) :
    cb.eventBit u &&& t.bit ≠ 0#32 ↔ u = t ∧ (cb.callback t).isSome := by
  unfold Callbacks.eventBit
  by_cases heq : u = t
  · subst heq
    have hbit : u.bit &&& u.bit ≠ 0#32 := by cases u <;> decide
    cases hcb : (cb.callback u).isSome <;> simp_all
  · have hdisjoint : u.bit &&& t.bit = 0#32 := by
      cases u <;> cases t <;> first | exact absurd rfl heq | decide
    cases hcb : (cb.callback u).isSome <;> simp [heq, hdisjoint]

theorem foldl_eventBit_and_bit (cb : Callbacks F) (t : EventType) (types : List EventType)
    (events : BitVec 32) :
    types.foldl (fun events u => events ||| cb.eventBit u) events &&& t.bit ≠ 0#32 ↔
      events &&& t.bit ≠ 0#32 ∨ t ∈ types ∧ (cb.callback t).isSome := by
  induction types generalizing events with
  | nil => simp
  | cons u types ih =>
      have hsplit : (events ||| cb.eventBit u) &&& t.bit ≠ 0#32 ↔
          events &&& t.bit ≠ 0#32 ∨ u = t ∧ (cb.callback t).isSome := by
        rw [← eventBit_and_bit, BitVec.and_or_distrib_right, ← not_and_or, Ne,
          BitVec.or_eq_zero_iff]
      rw [List.foldl_cons, ih, hsplit, List.mem_cons, eq_comm (a := t)]
      tauto

/-- **The installed mask.** It has exactly the bits whose callback is not empty. -/
theorem Callbacks.mask_and_bit (cb : Callbacks F) (t : EventType) :
    cb.mask &&& t.bit ≠ 0#32 ↔ (cb.callback t).isSome := by
  simpa [Callbacks.mask, mem_kEventTypes] using foldl_eventBit_and_bit cb t kEventTypes 0#32

theorem and_foldl_eventBit (cb : Callbacks F) (report : BitVec 32) (types : List EventType)
    (events : BitVec 32) :
    report &&& types.foldl (fun events u => events ||| cb.eventBit u) events ≠ 0#32 ↔
      report &&& events ≠ 0#32 ∨
        ∃ t ∈ types, report &&& t.bit ≠ 0#32 ∧ (cb.callback t).isSome := by
  induction types generalizing events with
  | nil => simp
  | cons u types ih =>
      have hbit : report &&& cb.eventBit u ≠ 0#32 ↔
          report &&& u.bit ≠ 0#32 ∧ (cb.callback u).isSome := by
        unfold Callbacks.eventBit
        cases hcb : (cb.callback u).isSome <;> simp
      have hsplit : report &&& (events ||| cb.eventBit u) ≠ 0#32 ↔
          report &&& events ≠ 0#32 ∨ report &&& u.bit ≠ 0#32 ∧ (cb.callback u).isSome := by
        rw [← hbit, BitVec.and_or_distrib_left, ← not_and_or, Ne, BitVec.or_eq_zero_iff]
      rw [List.foldl_cons, ih, hsplit]
      simp only [List.mem_cons, exists_eq_or_imp, or_assoc]

/-- A report has a bit of the mask exactly when a callback is there for one of its bits. -/
theorem Callbacks.and_mask (cb : Callbacks F) (report : BitVec 32) :
    report &&& cb.mask ≠ 0#32 ↔ ∃ t : EventType, report &&& t.bit ≠ 0#32 ∧
      (cb.callback t).isSome := by
  rw [Callbacks.mask, and_foldl_eventBit]
  simp [mem_kEventTypes]

end Suc.Epl
