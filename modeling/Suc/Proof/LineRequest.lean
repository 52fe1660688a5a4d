import Suc.Gpio.Chip

/-!
# What a chip asks for is what it is asked for

Every request that `Chip` makes stays inside the arrays it writes to, is one the kernel does not reject,
and is read by the kernel as the arguments mean it.
-/

namespace Suc.Gpio

open Layout

/-! ### What the arguments mean -/

inductive Ask where
  | input (args : InputLineArgs)
  | event (args : EventLineArgs)
  | output
  deriving DecidableEq, Repr

namespace Ask

def request (program : List Byte) (line : BitVec 32) (lineArgs : LineArgs) :
    Ask → Option GpioV2LineRequest
  | .input args => Chip.getInput program line lineArgs args
  | .event args => Chip.getEvent program line lineArgs args
  | .output => Chip.getOutput program line lineArgs

def isOutput : Ask → Bool
  | .output => true
  | .input _ | .event _ => false

def debounce : Ask → Option (BitVec 32)
  | .input args => args.debouncePeriodUs
  | .event args => args.debouncePeriodUs
  | .output => none

/-- Whether it is an event that tells of the edge. -/
def detects (ask : Ask) (edge : EventLineArgs.Edge) : Bool :=
  match ask with
  | .event args => decide (args.edge = edge ∨ args.edge = .both)
  | .input _ | .output => false

def line (program : List Byte) (line : BitVec 32) (lineArgs : LineArgs) (ask : Ask) : Line where
  offset := line
  label :=
    ((if lineArgs.consumer = [] then program else lineArgs.consumer).take
      (gpioMaxNameSize - 1)).takeWhile (· ≠ 0)
  input := !ask.isOutput
  output := ask.isOutput
  activeLow := lineArgs.activeLow
  edgeRising := ask.detects .rising
  edgeFalling := ask.detects .falling
  debounce := ask.debounce
  bufferSize := 16

end Ask

/-! ### The name of the consumer -/

/-- A name in an array of zeros. -/
def padded (name : List Byte) : List Byte := name ++ List.replicate (gpioMaxNameSize - name.length) 0

theorem store_name {name : List Byte} (h : name.length < gpioMaxNameSize) :
    store (List.replicate gpioMaxNameSize 0) 0 name = some (padded name) := by
  simp [store, padded, Nat.le_of_lt h]

/-- The zero behind the name is there already. -/
theorem store_terminator {name : List Byte} (h : name.length < gpioMaxNameSize) :
    store (padded name) name.length [0] = some (padded name) := by
  have hrest : List.replicate (gpioMaxNameSize - name.length) (0 : Byte) =
      [0] ++ List.replicate (gpioMaxNameSize - name.length - 1) 0 := by
    rw [List.singleton_append, ← List.replicate_succ, Nat.sub_add_cancel (Nat.sub_pos_of_lt h)]
  have hlength : [(0 : Byte)].length = [(0 : Byte)].length := rfl
  rw [padded, hrest, ← List.append_assoc]
  exact store_stretch name _ hlength

theorem length_padded {name : List Byte} (h : name.length < gpioMaxNameSize) :
    (padded name).length = gpioMaxNameSize := by
  rw [padded, List.length_append, List.length_replicate]
  omega

/-- What is read back ends where the name ends, or at a zero in it. -/
theorem takeWhile_padded {name : List Byte} (h : name.length < gpioMaxNameSize) :
    ((padded name).take (gpioMaxNameSize - 1)).takeWhile (· ≠ 0) = name.takeWhile (· ≠ 0) := by
  have htake : (padded name).take (gpioMaxNameSize - 1) =
      name ++ List.replicate (gpioMaxNameSize - 1 - name.length) 0 := by
    rw [padded, List.take_append, List.take_of_length_le (Nat.le_sub_one_of_lt h),
      List.take_replicate]
    congr 2
    omega
  have hzeros : (List.replicate (gpioMaxNameSize - 1 - name.length) (0 : Byte)).takeWhile (· ≠ 0) =
      [] := by
    cases gpioMaxNameSize - 1 - name.length <;> rfl
  rw [htake, List.takeWhile_append, hzeros]
  split
  · rename_i hall
    rw [List.append_nil, (List.takeWhile_prefix _).eq_of_length hall]
  · rfl

/-! ### Requests -/

/-- A request put together at once. -/
def plainRequest (line : BitVec 32) (flags : BitVec 64) (name : List Byte)
    (debounce : Option (BitVec 32)) : GpioV2LineRequest :=
  let request := emptyRequest line flags
  let attrs : List GpioV2LineConfigAttribute :=
    (debounce.map fun us => ⟨⟨gpioV2LineAttrIdDebounce, 0, .debouncePeriodUs us⟩, 1⟩).toList
  { request with
    consumer := padded name
    config := { request.config with
      numAttrs := if debounce.isSome then 1 else 0
      attrs := attrs ++ request.config.attrs.drop attrs.length } }

def consumerName (program : List Byte) (lineArgs : LineArgs) : List Byte :=
  (if lineArgs.consumer = [] then program else lineArgs.consumer).take (gpioMaxNameSize - 1)

theorem length_consumerName_lt (program : List Byte) (lineArgs : LineArgs) :
    (consumerName program lineArgs).length < gpioMaxNameSize := by
  rw [consumerName, List.length_take, gpioMaxNameSize]
  omega

theorem lineRequest_eq (program : List Byte) (line : BitVec 32) (flags : BitVec 64)
    (lineArgs : LineArgs) (inputLineArgs : Option InputLineArgs) :
    lineRequest program line flags lineArgs inputLineArgs =
      some (plainRequest line
        (if lineArgs.activeLow then flags ||| gpioV2LineFlagActiveLow
          else flags &&& ~~~gpioV2LineFlagActiveLow)
        (consumerName program lineArgs) (inputLineArgs.bind InputLineArgs.debouncePeriodUs)) := by
  have hlength := length_consumerName_lt program lineArgs
  have hstored := store_name hlength
  have hterminated := store_terminator hlength
  simp only [lineRequest]
  generalize hconsumer : (if lineArgs.consumer = [] then program else lineArgs.consumer) = consumer
  have hname : consumerName program lineArgs =
      consumer.take (min ((emptyRequest line flags).consumer.length - 1) consumer.length) := by
    rw [consumerName, hconsumer, ← List.take_take, List.take_length]
    rfl
  have hend : min ((emptyRequest line flags).consumer.length - 1) consumer.length =
      (consumerName program lineArgs).length := by
    rw [consumerName, hconsumer, List.length_take]
    rfl
  rw [← hname, hend]
  change ((store (List.replicate gpioMaxNameSize 0) 0 _).bind _) = _
  rw [hstored, Option.bind_some, hterminated, Option.bind_some]
  cases inputLineArgs.bind InputLineArgs.debouncePeriodUs <;> rfl

section

variable (line : BitVec 32) (flags : BitVec 64) (name : List Byte) (debounce : Option (BitVec 32))

theorem plainRequest_lineFlags :
    (plainRequest line flags name debounce).config.lineFlags 0 = flags := by
  cases debounce <;> rfl

theorem plainRequest_lineDebounce :
    (plainRequest line flags name debounce).config.lineDebounce 0 = debounce := by
  cases debounce with
  | none => rfl
  | some us => simp [GpioV2LineConfig.lineDebounce, GpioV2LineConfig.lineAttribute, plainRequest]

end

/-- How the kernel reads it. -/
theorem plainRequest_line (line : BitVec 32) (flags : BitVec 64) {name : List Byte}
    (hname : name.length < gpioMaxNameSize) (debounce : Option (BitVec 32)) :
    (plainRequest line flags name debounce).line 0 =
      { offset := line
        label := name.takeWhile (· ≠ 0)
        input := hasFlag flags gpioV2LineFlagInput
        output := hasFlag flags gpioV2LineFlagOutput
        activeLow := hasFlag flags gpioV2LineFlagActiveLow
        edgeRising := hasFlag flags gpioV2LineFlagEdgeRising
        edgeFalling := hasFlag flags gpioV2LineFlagEdgeFalling
        debounce
        bufferSize := 16 } := by
  simp only [GpioV2LineRequest.line, plainRequest_lineFlags, plainRequest_lineDebounce]
  rw [← takeWhile_padded hname]
  rfl

/-- It is well formed if the kernel knows its flags and they do not contradict one another. -/
theorem plainRequest_wellFormed {line : BitVec 32} {flags : BitVec 64} {name : List Byte}
    (hname : name.length < gpioMaxNameSize) {debounce : Option (BitVec 32)}
    (hflags : flags &&& ~~~(gpioV2LineFlagActiveLow ||| gpioV2LineFlagInput |||
      gpioV2LineFlagOutput ||| gpioV2LineFlagEdgeRising ||| gpioV2LineFlagEdgeFalling) = 0)
    (hconsistent : ((plainRequest line flags name debounce).line 0).consistent) :
    (plainRequest line flags name debounce).wellFormed := by
  have hlength := length_padded hname
  have hattrs : (plainRequest line flags name debounce).config.attrs.length =
      gpioV2LineNumAttrsMax := by
    cases debounce <;> rfl
  have hnumAttrs : (plainRequest line flags name debounce).config.numAttrs.toNat ≤
      gpioV2LineNumAttrsMax := by
    cases debounce <;> exact of_decide_eq_true rfl
  have hrange : List.range (plainRequest line flags name debounce).numLines.toNat = [0] := rfl
  simp only [GpioV2LineRequest.wellFormed, hrange, plainRequest_lineFlags, hflags, hconsistent, hattrs,
    hnumAttrs, List.all_cons, List.all_nil, Bool.and_true, decide_true, and_true]
  simp [plainRequest, emptyRequest, hlength, gpioV2LinesMax]

/-- The flags of what is asked for. -/
def Ask.flags (lineArgs : LineArgs) (ask : Ask) : BitVec 64 :=
  let flags :=
    match ask with
    | .input _ => gpioV2LineFlagInput
    | .event args => gpioV2LineFlagInput ||| args.edgeFlags
    | .output => gpioV2LineFlagOutput
  if lineArgs.activeLow then flags ||| gpioV2LineFlagActiveLow
  else flags &&& ~~~gpioV2LineFlagActiveLow

theorem Ask.request_eq (program : List Byte) (line : BitVec 32) (lineArgs : LineArgs) (ask : Ask) :
    ask.request program line lineArgs =
      some (plainRequest line (ask.flags lineArgs) (consumerName program lineArgs)
        ask.debounce) := by
  cases ask with
  | input args => exact lineRequest_eq program line gpioV2LineFlagInput lineArgs (some args)
  | event args =>
      exact lineRequest_eq program line (gpioV2LineFlagInput ||| args.edgeFlags) lineArgs
        (some args.toInputLineArgs)
  | output => exact lineRequest_eq program line gpioV2LineFlagOutput lineArgs none

/-- The flags are a few, each of which is computed. -/
theorem Ask.flags_read (lineArgs : LineArgs) (ask : Ask) :
    hasFlag (ask.flags lineArgs) gpioV2LineFlagInput = !ask.isOutput ∧
      hasFlag (ask.flags lineArgs) gpioV2LineFlagOutput = ask.isOutput ∧
      hasFlag (ask.flags lineArgs) gpioV2LineFlagActiveLow = lineArgs.activeLow ∧
      hasFlag (ask.flags lineArgs) gpioV2LineFlagEdgeRising = ask.detects .rising ∧
      hasFlag (ask.flags lineArgs) gpioV2LineFlagEdgeFalling = ask.detects .falling ∧
      ask.flags lineArgs &&& ~~~(gpioV2LineFlagActiveLow ||| gpioV2LineFlagInput |||
        gpioV2LineFlagOutput ||| gpioV2LineFlagEdgeRising ||| gpioV2LineFlagEdgeFalling) = 0 := by
  obtain ⟨consumer, activeLow⟩ := lineArgs
  cases ask with
  | input args =>
      cases activeLow <;>
        simp [flags, hasFlag, isOutput, detects, gpioV2LineFlagInput, gpioV2LineFlagOutput,
          gpioV2LineFlagActiveLow, gpioV2LineFlagEdgeRising, gpioV2LineFlagEdgeFalling]
  | event args =>
      obtain ⟨debounce, edge⟩ := args
      cases activeLow <;> cases edge <;>
        simp [flags, hasFlag, isOutput, detects, EventLineArgs.edgeFlags, gpioV2LineFlagInput,
          gpioV2LineFlagOutput, gpioV2LineFlagActiveLow, gpioV2LineFlagEdgeRising,
          gpioV2LineFlagEdgeFalling]
  | output =>
      cases activeLow <;>
        simp [flags, hasFlag, isOutput, detects, gpioV2LineFlagInput, gpioV2LineFlagOutput,
          gpioV2LineFlagActiveLow, gpioV2LineFlagEdgeRising, gpioV2LineFlagEdgeFalling]

theorem Ask.exists_request (program : List Byte) (line : BitVec 32) (lineArgs : LineArgs)
    (ask : Ask) : ∃ request, ask.request program line lineArgs = some request ∧
      request.wellFormed ∧ request.line 0 = ask.line program line lineArgs := by
  obtain ⟨hinput, houtput, hactiveLow, hrising, hfalling, hknown⟩ := ask.flags_read lineArgs
  have hname := length_consumerName_lt program lineArgs
  have hline : (plainRequest line (ask.flags lineArgs) (consumerName program lineArgs)
      ask.debounce).line 0 = ask.line program line lineArgs := by
    rw [plainRequest_line _ _ hname, hinput, houtput, hactiveLow, hrising, hfalling]
    rfl
  refine ⟨_, ask.request_eq program line lineArgs, plainRequest_wellFormed hname hknown ?_, hline⟩
  rw [hline]
  cases ask <;> simp [Line.consistent, Ask.line, Ask.isOutput, Ask.detects, Ask.debounce]

/-! ### Values -/

/-- The bit that is read is the value of the line. -/
theorem Line.get_eq (line : Line) (level : Bool) :
    Input.get (fun values => .ok (line.getValues level values)) = .ok (line.value level) := by
  cases hvalue : line.value level <;> simp [Input.get, Line.getValues, hvalue]

/-- The bit that is written is the value the line gets. -/
theorem Line.value_setValues (line : Line) (level active : Bool) (answer : Option Errno) :
    line.value (line.setValues level (Output.set active answer).1) = active := by
  cases active <;> cases hactiveLow : line.activeLow <;>
    simp [Output.set, Line.setValues, Line.value, hactiveLow]

/-- **As it is asked.** Whatever a chip is asked for, the request stays inside its arrays, the kernel does
not reject it, and the line it configures is the one the arguments mean: its name cut off behind 31
bytes, its edges and its period those that are asked for. The values that are read and written are the
levels of this line, or their opposites if it is to be active when it is low. -/
theorem request_configures (program : List Byte) (line : BitVec 32) (lineArgs : LineArgs)
    (ask : Ask) : ∃ request, ask.request program line lineArgs = some request ∧
      request.wellFormed ∧ request.line 0 = ask.line program line lineArgs ∧
      ∀ level, Input.get (fun values => .ok ((request.line 0).getValues level values)) =
          .ok (level != lineArgs.activeLow) ∧
        ∀ active answer, (request.line 0).setValues level (Output.set active answer).1 =
          (active != lineArgs.activeLow) := by
  obtain ⟨request, hrequest, hwellFormed, hline⟩ := ask.exists_request program line lineArgs
  have hactiveLow : (request.line 0).activeLow = lineArgs.activeLow := by rw [hline]; rfl
  refine ⟨request, hrequest, hwellFormed, hline, fun level => ⟨?_, fun active answer => ?_⟩⟩
  · rw [Line.get_eq, Line.value, hactiveLow]
  · have hset := (request.line 0).value_setValues level active answer
    rw [Line.value, hactiveLow] at hset
    generalize (request.line 0).setValues level _ = driven at hset ⊢
    rw [← hset]
    simp

end Suc.Gpio
