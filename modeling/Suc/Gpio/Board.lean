import Suc.Epl.Services
import Suc.Gpio.Chip

/-!
# Event lines on an event queue

The lines of a chip change their levels. While a `GpioEvent` has requested a line, the kernel takes its
changes for settled, at once or, if the line is debounced, when it finds that the level has lasted. It
queues an event for each settled change it has been asked to tell of, and discards the oldest one when
its buffer is full; what is queued, the event loop reads and hands to the functions of the object. A line
is requested by one object at a time, and released when the descriptor of this object is closed.
-/

namespace Suc.Gpio

open Epl (Edge KernelAct LineEvent Reader Sources SourcesLabel inspectInput)

/-- The arguments of `getEvent` for an object. -/
structure EventAsk where
  line : BitVec 32
  lineArgs : LineArgs
  eventLineArgs : EventLineArgs
  deriving DecidableEq, Repr

/-- `holder` is the object that has requested a line, and `settled` the level of a requested line as far
as the kernel has taken it for settled. -/
structure Board (κ H G ι ε : Type) where
  sources : Sources κ (List LineEvent) (Reader.Pos LineEvent (Int × Edge) H) H G ι ε
  level : BitVec 32 → Bool
  settled : BitVec 32 → Bool
  holder : BitVec 32 → Option κ

/-- A line may `change` its level at any time, and a debounced one may `settle` at the level it has. -/
inductive BoardLabel (κ H G ι ε : Type) where
  | construct (who : Option ε) (k : κ) (answers : LineAnswers) (answer : Option Errno)
  | destroy (who : Option ε) (k : κ) (answer : Option Errno)
  | change (line : BitVec 32) (now : BitVec 64)
  | settle (line : BitVec 32) (now : BitVec 64)
  | source (l : SourcesLabel κ (Option Errno) (KernelAct LineEvent) H G ι ε)

/-- The event that the kernel queues when the line settles at a level. -/
def Line.event (line : Line) (level : Bool) (now : BitVec 64) : Option LineEvent :=
  if line.value level then
    if line.edgeRising then some ⟨now, Epl.gpioV2LineEventRisingEdge⟩ else none
  else
    if line.edgeFalling then some ⟨now, Epl.gpioV2LineEventFallingEdge⟩ else none

namespace Board

variable {κ H G ι ε : Type}

/-- The line of an object, as the kernel configures it. -/
def requested (program : List Layout.Byte) (ask : EventAsk) : Option Line :=
  (Chip.getEvent program ask.line ask.lineArgs ask.eventLineArgs).map fun request => request.line 0

/-- The part of the kernel that queues the event. -/
def queued (pending : List LineEvent) (line : Line) (r : LineEvent) : KernelAct LineEvent :=
  if pending.length < line.bufferSize then .queue r else .overrun r

/-- How long a level has to last is for the kernel to find. -/
def debounced (line : Line) : Bool := line.debounce.isSome

/-- What does not change the lives of the objects and does not come from the kernel. -/
def inner : SourcesLabel κ (Option Errno) (KernelAct LineEvent) H G ι ε → Bool
  | .construct .. | .destroy .. | .outside .. => false
  | .install .. | .register .. | .act .. | .loop _ => true

variable [DecidableEq κ] [DecidableEq ι] [DecidableEq ε]

/-- The line that the object has requested settles at a level. -/
def tell (s : Board κ H G ι ε) (k : κ) (config : Line) (line : BitVec 32) (level : Bool)
    (now : BitVec 64) : Option (Board κ H G ι ε) :=
  let told :=
    { s with
      level := Function.update s.level line level
      settled := Function.update s.settled line level }
  match s.sources.source k with
  | .alive _ pending =>
      match config.event level now with
      | none => some told
      | some r =>
          (s.sources.step (Reader.service H inspectInput) (.outside k (queued pending config r))).map
            fun sources => { told with sources }
  | _ => none

def step (program : List Layout.Byte) (ask : κ → EventAsk) (s : Board κ H G ι ε) :
    BoardLabel κ H G ι ε → Option (Board κ H G ι ε)
  | .construct who k answers answer =>
      match (getLine (ask k).line answers).1, requested program (ask k) with
      | .error _, _ => some s
      | .ok fd, some line =>
          if s.holder line.offset = none then
            (s.sources.step (Reader.service H inspectInput) (.construct who k fd.fd answer)).map
              fun sources =>
                match sources.source k with
                | .alive _ _ =>
                    { s with
                      sources
                      settled :=
                        Function.update s.settled line.offset (s.level line.offset)
                      holder := Function.update s.holder line.offset (some k) }
                -- the event queue has thrown, and the descriptor is closed again
                | _ => { s with sources }
          else
            none
      | .ok _, none => none
  | .destroy who k answer =>
      (s.sources.step (Reader.service H inspectInput) (.destroy who k answer)).map fun sources =>
        { s with sources, holder := fun line => (s.holder line).filter (decide <| · ≠ k) }
  | .change line now =>
      let level := !s.level line
      let changed := { s with level := Function.update s.level line level }
      match s.holder line with
      | none => some changed
      | some k =>
          (requested program (ask k)).bind fun config =>
            -- a debounced line tells nothing before its level has lasted
            if debounced config then some changed else s.tell k config line level now
  | .settle line now =>
      match s.holder line with
      | none => none
      | some k =>
          (requested program (ask k)).bind fun config =>
            if debounced config ∧ s.settled line ≠ s.level line then
              s.tell k config line (s.level line) now
            else
              none
  | .source l =>
      if inner l then
        (s.sources.step (Reader.service H inspectInput) l).map fun sources => { s with sources }
      else
        none

/-- A chip whose lines nobody has requested, and a new event queue. -/
def start (epfd evtfd : Cmn.Fd) (wake : G) (level : BitVec 32 → Bool) : Board κ H G ι ε where
  sources := .start epfd evtfd wake
  level := level
  settled := level
  holder := fun _ => none

end Board

def board {κ : Type} (H G ι ε : Type) [DecidableEq κ] [DecidableEq ι] [DecidableEq ε]
    (program : List Layout.Byte) (ask : κ → EventAsk) :
    Transition.System (Board κ H G ι ε) (BoardLabel κ H G ι ε) where
  step s := s.step program ask

end Suc.Gpio
