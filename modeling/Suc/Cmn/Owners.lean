import Suc.Cmn.Fd
import Suc.Transition.Handles

/-!
# Objects that own descriptors

Any number of `cmn::Fd` objects are made, moved and destroyed in any order. The kernel gives a new
descriptor a number that is not open, which may be one that has been closed before; closing a number
that is not open fails and changes nothing.
-/

namespace Suc.Cmn

open Transition

variable {ω : Type}

structure Owners (ω : Type) where
  table : Handles Int
  objects : ω → Option Fd

inductive OwnersLabel (ω : Type) where
  | opens (fd : Int)
  | make (id : ω) (fd : Int)
  | moveConstruct (id other : ω)
  | moveAssign (id other : ω)
  | destroy (id : ω)
  deriving DecidableEq, Repr

namespace Owners

def start : Owners ω where
  table := .empty
  objects := fun _ => none

def close (table : Handles Int) (fd : Int) : Handles Int :=
  ((handles Int).step table (.release fd)).getD table

variable [DecidableEq ω]

def step (s : Owners ω) : OwnersLabel ω → Option (Owners ω)
  | .opens fd =>
      if 0 ≤ fd then
        ((handles Int).step s.table (.acquire fd)).map fun table => { s with table }
      else
        none
  | .make id fd =>
      match s.objects id, Fd.make fd "" true 0 with
      | none, .ok object => some { s with objects := Function.update s.objects id (some object) }
      -- there is no object, whatever the exception says
      | none, .error _ => some s
      | some _, _ => none
  | .moveConstruct id other =>
      match s.objects id, s.objects other with
      | none, some object =>
          let (constructed, left) := object.moveConstruct
          let objects := Function.update s.objects other (some left)
          some { s with objects := Function.update objects id (some constructed) }
      | _, _ => none
  | .moveAssign id other =>
      match s.objects id, s.objects other with
      | some object, some source =>
          let (assigned, left) := object.moveAssign source
          let objects := Function.update s.objects id (some assigned)
          some { s with objects := Function.update objects other (some left) }
      | _, _ => none
  | .destroy id =>
      (s.objects id).map fun object =>
        { table := (object.closes).elim s.table (close s.table)
          objects := Function.update s.objects id none }

end Owners

def owners (ω : Type) [DecidableEq ω] : System (Owners ω) (OwnersLabel ω) where
  step s l := s.step l

end Suc.Cmn
