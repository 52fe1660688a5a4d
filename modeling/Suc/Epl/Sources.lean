import Suc.Epl.Fd
import Suc.Epl.TimerFd

/-!
# Event sources

An event source is an object that owns a registered descriptor and installs a lambda at it, which has
captured `this` and a function of the user. The event loop runs a copy of the lambda; the lambda uses
the object and calls the function, and the function may do with the event queue and with the sources
what any user code may: install other functions, construct sources and destroy them, its own included.

What the kinds of sources have in common is here, with their lambda as a parameter. The life of a
source, the frames of the lambdas that run and the event loop are one system, interleaved at every
step of each.
-/

namespace Suc.Epl

/-! ### Lambdas -/

inductive Next (π : Type) where
  | goesOn (pos : π)
  | returns
  | throws (exc : Exception)

/-- What a lambda does at a position: its function runs, behind which it goes on at `back`, or it
takes a step that needs its own frame only, or one that uses the object it has captured. What the
code does not decide of the latter is an argument of it. -/
inductive Work (δ π α : Type) where
  | user (back : π)
  | frame (next : Next π)
  | object (use : α → δ → Option (δ × Next π))

/-- A kind of sources: the object as its constructor leaves it, where the lambda begins with a
function, what it does, and what any thread may do with the object from outside. -/
structure Service (δ π α ο H : Type) where
  created : δ
  enter : H → π
  work : π → Work δ π α
  outside : δ → ο → δ

/-! ### Objects -/

/-- A name is given to one object only. What an object held when it was destroyed is gone. -/
inductive Source (δ : Type) where
  | unborn
  | alive (fd : Int) (state : δ)
  | dead (state : δ)
  deriving DecidableEq, Repr

/-- `frame` is the source whose lambda an `exec` is running, with the position in it. An object that
is used after its destruction makes the program `wild`. -/
structure Sources (κ δ π H G ι ε : Type) where
  loop : Loop (Callable (κ × H) G) ι ε
  opened : Int → Bool
  source : κ → Source δ
  frame : ε → Option (κ × π)
  wild : Bool

/-- User code runs in a callback of the `exec` that is `who`, or outside of callbacks while no `exec`
is in its loop: behind the end of the `exec` that is `who`, or else by none. -/
inductive SourcesLabel (κ α ο H G ι ε : Type) where
  | construct (who : Option ε) (k : κ) (fd : Int) (answer : Option Errno)
  | install (who : Option ε) (k : κ) (func : Option H) (answer : Option Errno)
  | destroy (who : Option ε) (k : κ) (answer : Option Errno)
  | register (who : Option ε) (call : Call (Callable (κ × H) G))
  | outside (k : κ) (op : ο)
  | act (e : ε) (choice : α)
  | loop (l : LoopLabel (Callable (κ × H) G) ι ε)

namespace Sources

variable {κ δ π α ο H G ι ε : Type}

def setQueue (s : Sources κ δ π H G ι ε) (queue : EventQueue (Callable (κ × H) G)) :
    Sources κ δ π H G ι ε :=
  { s with loop := { s.loop with queue } }

/-- Closing a descriptor takes it out of the interest list. -/
def closed (q : EventQueue (Callable (κ × H) G)) (fd : Int) : EventQueue (Callable (κ × H) G) :=
  { q with interest := Function.update q.interest fd none }

/-- At most one `exec` ever enters its loop. The state alone does not tell that it has left: a stop
may leave `Stopping` behind, and an exception `Running`. -/
def userTurn (service : Service δ π α ο H) (s : Sources κ δ π H G ι ε) : Option ε → Bool
  | none => decide (s.loop.queue.state ≠ .running ∧ s.loop.queue.state ≠ .stopping)
  | some e =>
      match s.loop.execs e, s.frame e with
      | .returned _, none | .threw _, none => true
      | .callback _ (.other _) none, none => true
      | .callback _ (.shot _) none, some (_, pos) =>
          match service.work pos with
          | .user _ => true
          | _ => false
      | _, _ => false

variable [DecidableEq ι] [DecidableEq ε]

/-- The lambda that `e` runs goes on, or its callback ends. -/
def proceed (s : Sources κ δ π H G ι ε) (e : ε) (k : κ) : Next π → Option (Sources κ δ π H G ι ε)
  | .goesOn pos => some { s with frame := Function.update s.frame e (some (k, pos)) }
  | .returns =>
      (s.loop.step (.exec e (.callback .returns))).map fun loop =>
        { s with loop, frame := Function.update s.frame e none }
  | .throws exc =>
      (s.loop.step (.exec e (.callback (.throws (.std exc))))).map fun loop =>
        { s with loop, frame := Function.update s.frame e none }

/-- A step of the loop that a frame takes part in: a lambda is entered, or the function it has called
does something or ends. -/
def loopStep (service : Service δ π α ο H) (s : Sources κ δ π H G ι ε)
    (l : LoopLabel (Callable (κ × H) G) ι ε) : Option (Sources κ δ π H G ι ε) :=
  match l with
  | .exec e .invoke =>
      (s.loop.step l).map fun loop =>
        match loop.execs e with
        | .callback _ (.shot (k, func)) _ =>
            { s with loop, frame := Function.update s.frame e (some (k, service.enter func)) }
        | _ => { s with loop }
  | .exec e (.callback act) =>
      match s.frame e with
      | none => (s.loop.step l).map fun loop => { s with loop }
      | some (k, pos) =>
          match service.work pos, act with
          | .user back, .returns =>
              match s.loop.execs e with
              | .callback _ _ none =>
                  some { s with frame := Function.update s.frame e (some (k, back)) }
              | _ => none
          | .user _, .throws _ =>
              (s.loop.step l).map fun loop =>
                { s with loop, frame := Function.update s.frame e none }
          | .user _, _ => (s.loop.step l).map fun loop => { s with loop }
          | _, _ => none
  | _ => (s.loop.step l).map fun loop => { s with loop }

variable [DecidableEq κ]

def act (service : Service δ π α ο H) (s : Sources κ δ π H G ι ε) (e : ε) (choice : α) :
    Option (Sources κ δ π H G ι ε) :=
  match s.frame e with
  | none => none
  | some (k, pos) =>
      match service.work pos with
      | .user _ => none
      | .frame next => s.proceed e k next
      | .object use =>
          match s.source k with
          | .alive fd state =>
              (use choice state).bind fun r =>
                { s with source := Function.update s.source k (.alive fd r.1) }.proceed e k r.2
          | _ => some { s with wild := true }

def step (service : Service δ π α ο H) (s : Sources κ δ π H G ι ε) :
    SourcesLabel κ α ο H G ι ε → Option (Sources κ δ π H G ι ε)
  | .construct who k fd answer =>
      match s.source k with
      | .unborn =>
          if s.userTurn service who ∧ 0 ≤ fd ∧ s.opened fd = false then
            match Fd.construct s.loop.queue ⟨fd⟩ answer with
            | (.ok (), queue, _) =>
                some { s.setQueue queue with
                  opened := Function.update s.opened fd true
                  source := Function.update s.source k (.alive fd service.created) }
            -- the descriptor is closed again, and there is no object
            | (.error _, queue, _) => some (s.setQueue (closed queue fd))
          else
            none
      | _ => none
  | .install who k func answer =>
      match s.source k with
      | .alive fd _ =>
          if s.userTurn service who then
            let call := Fd.onInputAvailable fd (func.map fun func => .shot (k, func)) answer
            some (s.setQueue (call.apply s.loop.queue).2)
          else
            none
      | _ => none
  | .destroy who k answer =>
      match s.source k with
      | .alive fd state =>
          if s.userTurn service who then
            some { s.setQueue (closed (Fd.destruct s.loop.queue ⟨fd⟩ answer).1 fd) with
              opened := Function.update s.opened fd false
              source := Function.update s.source k (.dead state) }
          else
            none
      | _ => none
  | .register who call =>
      if s.userTurn service who then some (s.setQueue (call.apply s.loop.queue).2) else none
  | .outside k op =>
      match s.source k with
      | .alive fd state =>
          some { s with
            source := Function.update s.source k (.alive fd (service.outside state op)) }
      | _ => none
  | .act e choice => s.act service e choice
  | .loop l => s.loopStep service l

/-- A new event queue, on which nothing has been called, and no sources. `wake` is the callback of the
queue's own descriptor. -/
def start (epfd evtfd : Cmn.Fd) (wake : G) : Sources κ δ π H G ι ε where
  loop := { queue := .created epfd evtfd (.other wake), execs := fun _ => .notCalled,
            stops := fun _ => none }
  opened fd := decide (fd = epfd.fd) || decide (fd = evtfd.fd)
  source := fun _ => .unborn
  frame := fun _ => none
  wild := false

end Sources

def sources {δ π α ο H : Type} (κ G ι ε : Type) [DecidableEq κ] [DecidableEq ι] [DecidableEq ε]
    (service : Service δ π α ο H) :
    Transition.System (Sources κ δ π H G ι ε) (SourcesLabel κ α ο H G ι ε) where
  step s l := s.step service l

end Suc.Epl
