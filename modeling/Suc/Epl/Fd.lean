import Suc.Epl.Setters

/-!
# Descriptors with callbacks

`epl::Fd` owns a descriptor and its registration: the constructor adds the descriptor that it takes
over, the destructor deletes it, and the member closes it afterwards. When `add` throws in the
constructor there is no object to destroy, and only the member is destroyed.

The kernel gives a new descriptor any number that is not open, and a closed number leaves the
interest list.
-/

namespace Suc.Epl

variable {F ω : Type}

/-- An object that is constructed, or one of which only the member is left to destroy. -/
inductive FdObject where
  | live (m_fd : Cmn.Fd)
  | unwinding (m_fd : Cmn.Fd)
  deriving DecidableEq, Repr

structure Process (F ω : Type) where
  queue : EventQueue F
  opened : Int → Bool
  objects : ω → Option FdObject

inductive FdLabel (F ω : Type) where
  | construct (id : ω) (fd : Int) (answer : Option Errno)
  | set (id : ω) (member : EventType) (cb : Option F) (answer : Option Errno)
  | destroy (id : ω) (answer : Option Errno)
  | close (id : ω)

/-- `Fd::Fd` on a descriptor that the caller has made, with the object as it leaves it. -/
def Fd.construct (q : EventQueue F) (fd : Cmn.Fd) (answer : Option Errno) :
    Except Exception Unit × EventQueue F × FdObject :=
  let m_fd := fd.moveConstruct.1
  match q.add m_fd.fd none answer with
  | (.ok (), q) => (.ok (), q, .live m_fd)
  | (.error exc, q) => (.error exc, q, .unwinding m_fd)

def Fd.destruct (q : EventQueue F) (m_fd : Cmn.Fd) (answer : Option Errno) :
    EventQueue F × FdObject :=
  (q.delSafe m_fd.fd answer, .unwinding m_fd)

namespace Process

def close (p : Process F ω) (fd : Cmn.Fd) : Process F ω :=
  match fd.closes with
  | none => p
  | some n =>
      { p with
        queue := { p.queue with interest := Function.update p.queue.interest n none }
        opened := Function.update p.opened n false }

variable [DecidableEq ω]

def step (p : Process F ω) : FdLabel F ω → Option (Process F ω)
  | .construct id fd answer =>
      if 0 ≤ fd ∧ p.opened fd = false ∧ p.objects id = none then
        let (_, queue, object) := Fd.construct p.queue ⟨fd⟩ answer
        some { queue, opened := Function.update p.opened fd true,
               objects := Function.update p.objects id (some object) }
      else
        none
  | .set id member cb answer =>
      match p.objects id with
      | some (.live m_fd) =>
          some { p with queue := ((Fd.setCallback m_fd.fd member cb answer).apply p.queue).2 }
      | _ => none
  | .destroy id answer =>
      match p.objects id with
      | some (.live m_fd) =>
          let (queue, object) := Fd.destruct p.queue m_fd answer
          some { p with queue, objects := Function.update p.objects id (some object) }
      | _ => none
  | .close id =>
      match p.objects id with
      | some (.unwinding m_fd) =>
          some { p.close m_fd with objects := Function.update p.objects id none }
      | _ => none

end Process

/-- A process with a new event queue and no objects. `others` are the descriptors that are open
beside those of the queue. -/
def Process.start (epfd evtfd : Cmn.Fd) (wake : F) (others : Int → Bool) : Process F ω where
  queue := .created epfd evtfd wake
  opened fd := decide (fd = epfd.fd) || decide (fd = evtfd.fd) || others fd
  objects := fun _ => none

def fdObjects (F ω : Type) [DecidableEq ω] : Transition.System (Process F ω) (FdLabel F ω) where
  step := Process.step

end Suc.Epl
