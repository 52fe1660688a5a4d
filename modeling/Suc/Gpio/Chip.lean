import Suc.Cmn.Fd
import Suc.Layout.Block
import Suc.Layout.Integer

/-!
# Lines of a GPIO chip

A chip asks the kernel for one line at a time, in a request that says how the line is to be configured,
and `Input`, `Event` and `Output` own the descriptor that comes back. How the kernel reads a request is
what `linux/gpio.h` says of its fields, for the flags that this library uses.
-/

namespace Suc.Gpio

open Layout

/-! ### `linux/gpio.h` -/

def gpioMaxNameSize : Nat := 32

def gpioV2LinesMax : Nat := 64

def gpioV2LineNumAttrsMax : Nat := 10

def gpioV2LineFlagActiveLow : BitVec 64 := 0x2

def gpioV2LineFlagInput : BitVec 64 := 0x4

def gpioV2LineFlagOutput : BitVec 64 := 0x8

def gpioV2LineFlagEdgeRising : BitVec 64 := 0x10

def gpioV2LineFlagEdgeFalling : BitVec 64 := 0x20

def gpioV2LineAttrIdFlags : BitVec 32 := 1

def gpioV2LineAttrIdDebounce : BitVec 32 := 3

/-- The union in an attribute. -/
inductive GpioV2LineAttributeValue where
  | flags (value : BitVec 64)
  | values (value : BitVec 64)
  | debouncePeriodUs (value : BitVec 32)
  deriving DecidableEq, Repr

structure GpioV2LineAttribute where
  id : BitVec 32
  padding : BitVec 32
  value : GpioV2LineAttributeValue
  deriving DecidableEq, Repr

structure GpioV2LineConfigAttribute where
  attr : GpioV2LineAttribute
  mask : BitVec 64
  deriving DecidableEq, Repr

structure GpioV2LineConfig where
  flags : BitVec 64
  numAttrs : BitVec 32
  padding : List (BitVec 32)
  attrs : List GpioV2LineConfigAttribute
  deriving DecidableEq, Repr

structure GpioV2LineRequest where
  offsets : List (BitVec 32)
  consumer : List Byte
  config : GpioV2LineConfig
  numLines : BitVec 32
  eventBufferSize : BitVec 32
  padding : List (BitVec 32)
  fd : Int
  deriving DecidableEq, Repr

structure GpioV2LineValues where
  bits : BitVec 64
  mask : BitVec 64
  deriving DecidableEq, Repr

/-! ### Requests -/

structure LineArgs where
  consumer : List Byte := []
  activeLow : Bool := false
  deriving DecidableEq, Repr

structure InputLineArgs where
  debouncePeriodUs : Option (BitVec 32) := none
  deriving DecidableEq, Repr

inductive EventLineArgs.Edge where
  | rising
  | falling
  | both
  deriving DecidableEq, Repr

structure EventLineArgs extends InputLineArgs where
  edge : EventLineArgs.Edge := .both
  deriving DecidableEq, Repr

/-- The request as it is initialised. -/
def emptyRequest (line : BitVec 32) (flags : BitVec 64) : GpioV2LineRequest where
  offsets := line :: List.replicate (gpioV2LinesMax - 1) 0
  consumer := List.replicate gpioMaxNameSize 0
  config :=
    { flags, numAttrs := 0, padding := List.replicate 5 0,
      attrs := List.replicate gpioV2LineNumAttrsMax ⟨⟨0, 0, .flags 0⟩, 0⟩ }
  numLines := 1
  eventBufferSize := 0
  padding := List.replicate 5 0
  fd := -1

/-- The request that `getLine` makes, with the short name of the program for a consumer that is empty;
`none` where it would write behind the end of an array. -/
def lineRequest (program : List Byte) (line : BitVec 32) (flags : BitVec 64) (lineArgs : LineArgs)
    (inputLineArgs : Option InputLineArgs) : Option GpioV2LineRequest :=
  let request := emptyRequest line flags
  let flags :=
    if lineArgs.activeLow then request.config.flags ||| gpioV2LineFlagActiveLow
    else request.config.flags &&& ~~~gpioV2LineFlagActiveLow
  let consumer := if lineArgs.consumer = [] then program else lineArgs.consumer
  let consumerLen := min (request.consumer.length - 1) consumer.length
  (store request.consumer 0 (consumer.take consumerLen)).bind fun copied =>
    (store copied consumerLen [0]).bind fun terminated =>
      let request :=
        { request with consumer := terminated, config := { request.config with flags } }
      match inputLineArgs.bind InputLineArgs.debouncePeriodUs with
      | none => some request
      | some us =>
          let cfg := ⟨⟨gpioV2LineAttrIdDebounce, 0, .debouncePeriodUs us⟩, 1⟩
          (store request.config.attrs request.config.numAttrs.toNat [cfg]).map fun attrs =>
            { request with
              config := { request.config with attrs, numAttrs := request.config.numAttrs + 1 } }

def oNonblock : BitVec 32 := 0o4000

/-- What the kernel answers to the system calls of `getLine`: the descriptor it stores in the request,
and the flags of this descriptor if they can be read. -/
structure LineAnswers where
  ioctl : Except Errno Nat
  getfl : Option (BitVec 32)
  deriving Repr

/-- The rest of `getLine`, with the flags it sets for the descriptor. -/
def getLine (line : BitVec 32) (answers : LineAnswers) :
    Except Exception Cmn.Fd × Option (BitVec 32) :=
  match answers.ioctl with
  | .error errno =>
      (.error (.errnoError ("get line " ++ toString line.toNat ++ " failed") errno), none)
  | .ok fd => (Cmn.Fd.make fd "" true 0, answers.getfl.map (· ||| oNonblock))

def EventLineArgs.edgeFlags (eventLineArgs : EventLineArgs) : BitVec 64 :=
  let edgeFlags :=
    if eventLineArgs.edge = .rising ∨ eventLineArgs.edge = .both then
      0 ||| gpioV2LineFlagEdgeRising
    else
      0
  if eventLineArgs.edge = .falling ∨ eventLineArgs.edge = .both then
    edgeFlags ||| gpioV2LineFlagEdgeFalling
  else
    edgeFlags

namespace Chip

variable (program : List Byte) (line : BitVec 32) (lineArgs : LineArgs)

def getInput (inputLineArgs : InputLineArgs) : Option GpioV2LineRequest :=
  lineRequest program line gpioV2LineFlagInput lineArgs (some inputLineArgs)

def getEvent (eventLineArgs : EventLineArgs) : Option GpioV2LineRequest :=
  lineRequest program line (gpioV2LineFlagInput ||| eventLineArgs.edgeFlags) lineArgs
    (some eventLineArgs.toInputLineArgs)

def getOutput : Option GpioV2LineRequest :=
  lineRequest program line gpioV2LineFlagOutput lineArgs none

end Chip

/-! ### Values -/

/-- `ioctl` is what the kernel answers to the values it is given. -/
def Input.get (ioctl : GpioV2LineValues → Except Errno GpioV2LineValues) : Except Exception Bool :=
  match ioctl ⟨0, 1⟩ with
  | .error errno => .error (.errnoError "get" errno)
  | .ok values => .ok (decide (values.bits &&& 1 ≠ 0))

/-- The values that are set, and what becomes of the call. -/
def Output.set (active : Bool) (answer : Option Errno) : GpioV2LineValues × Except Exception Unit :=
  (⟨if active then 1 else 0, 1⟩,
    match answer with
    | none => .ok ()
    | some errno => .error (.errnoError "set" errno))

/-! ### How the kernel reads a request -/

def hasFlag (flags mask : BitVec 64) : Bool := decide (flags &&& mask ≠ 0)

/-- The first attribute of the kind that is for the line has precedence. -/
def GpioV2LineConfig.lineAttribute (config : GpioV2LineConfig) (id : BitVec 32) (i : Nat) :
    Option GpioV2LineAttributeValue :=
  ((config.attrs.take config.numAttrs.toNat).find? fun cfg =>
    decide (cfg.attr.id = id) && cfg.mask.getLsbD i).map fun cfg => cfg.attr.value

def GpioV2LineConfig.lineFlags (config : GpioV2LineConfig) (i : Nat) : BitVec 64 :=
  match config.lineAttribute gpioV2LineAttrIdFlags i with
  | some (.flags value) => value
  | _ => config.flags

/-- No period means that the line is not debounced. -/
def GpioV2LineConfig.lineDebounce (config : GpioV2LineConfig) (i : Nat) : Option (BitVec 32) :=
  match config.lineAttribute gpioV2LineAttrIdDebounce i with
  | some (.debouncePeriodUs value) => some value
  | _ => none

/-- A line as the kernel has configured it. Its label is a string, which ends at the first zero. -/
structure Line where
  offset : BitVec 32
  label : List Byte
  input : Bool
  output : Bool
  activeLow : Bool
  edgeRising : Bool
  edgeFalling : Bool
  debounce : Option (BitVec 32)
  bufferSize : Nat
  deriving DecidableEq, Repr

def GpioV2LineRequest.line (request : GpioV2LineRequest) (i : Nat) : Line :=
  let flags := request.config.lineFlags i
  { offset := request.offsets.getD i 0
    label := (request.consumer.take (gpioMaxNameSize - 1)).takeWhile (· ≠ 0)
    input := hasFlag flags gpioV2LineFlagInput
    output := hasFlag flags gpioV2LineFlagOutput
    activeLow := hasFlag flags gpioV2LineFlagActiveLow
    edgeRising := hasFlag flags gpioV2LineFlagEdgeRising
    edgeFalling := hasFlag flags gpioV2LineFlagEdgeFalling
    debounce := request.config.lineDebounce i
    bufferSize :=
      if request.eventBufferSize = 0 then request.numLines.toNat * 16
      else min request.eventBufferSize.toNat (gpioV2LinesMax * 16) }

/-- What contradicts itself is rejected: a line is an input or an output, and only an input has edges
and is debounced. -/
def Line.consistent (line : Line) : Bool :=
  !(line.input && line.output) && (!(line.edgeRising || line.edgeFalling) || line.input) &&
    (line.debounce.isNone || line.input)

/-- The requests that the kernel does not reject as they stand. -/
def GpioV2LineRequest.wellFormed (request : GpioV2LineRequest) : Bool :=
  decide (request.offsets.length = gpioV2LinesMax ∧ request.consumer.length = gpioMaxNameSize ∧
    request.config.attrs.length = gpioV2LineNumAttrsMax) &&
  decide (0 < request.numLines.toNat ∧ request.numLines.toNat ≤ gpioV2LinesMax) &&
  decide (request.config.numAttrs.toNat ≤ gpioV2LineNumAttrsMax) &&
  request.padding.all (· = 0) && request.config.padding.all (· = 0) &&
  (List.range request.numLines.toNat).all fun i =>
    decide (request.config.lineFlags i &&& ~~~(gpioV2LineFlagActiveLow ||| gpioV2LineFlagInput |||
      gpioV2LineFlagOutput ||| gpioV2LineFlagEdgeRising ||| gpioV2LineFlagEdgeFalling) = 0) &&
    (request.line i).consistent

/-! ### Levels -/

namespace Line

/-- A line that is active when it is low has the value that its level is not. -/
def value (line : Line) (level : Bool) : Bool := level != line.activeLow

/-- The bits of the only line of a request. -/
def getValues (line : Line) (level : Bool) (values : GpioV2LineValues) : GpioV2LineValues :=
  { values with bits := (if line.value level then 1 else 0) &&& values.mask }

/-- The level to which an output is driven. -/
def setValues (line : Line) (level : Bool) (values : GpioV2LineValues) : Bool :=
  if values.mask.getLsbD 0 then values.bits.getLsbD 0 != line.activeLow else level

end Line

end Suc.Gpio
