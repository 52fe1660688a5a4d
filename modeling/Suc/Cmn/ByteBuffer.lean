import Suc.Cmn.Endian
import Suc.Cmn.Error
import Suc.Layout.Block
import Suc.Transition.System

/-!
# Byte buffers

`ByteBuffer` reads and writes integers at a position in a memory block that it does not own. Sizes
and positions are `size_t`s of `w` bits, and every addition and subtraction of them is modulo
`2 ^ w`. An access outside of the block is undefined behaviour: such a call has no outcome.
-/

namespace Suc.Cmn

open Layout

structure ByteBuffer (w : Nat) (endian : Endian) (readOnly : Bool) where
  data : List Byte
  size : BitVec w
  pos : BitVec w
  deriving DecidableEq

namespace ByteBuffer

variable {w : Nat} {endian : Endian} {readOnly : Bool}

/-- The constructor. Its parameter `startPos` cannot be given and is 0. -/
def create (data : List Byte) (size : BitVec w) : ByteBuffer w endian readOnly where
  data := data
  size := size
  pos := 0

def bufferOverflow : Exception := .runtimeError "buffer overflow exception"

def setPosition (b : ByteBuffer w endian readOnly) (position : BitVec w) :
    Except Exception Unit × ByteBuffer w endian readOnly :=
  if b.size < position then (.error bufferOverflow, b) else (.ok (), { b with pos := position })

def requiresRemaining (b : ByteBuffer w endian readOnly) (size : BitVec w) :
    Except Exception Unit :=
  if b.size - b.pos < size then .error bufferOverflow else .ok ()

/-- The pointer that is returned is an offset into the block. -/
def increasePos (b : ByteBuffer w endian readOnly) (size : BitVec w) :
    Except Exception (BitVec w) × ByteBuffer w endian readOnly :=
  match b.requiresRemaining size with
  | .error exc => (.error exc, b)
  | .ok () => (.ok b.pos, { b with pos := b.pos + size })

def getDataPtr (b : ByteBuffer w endian readOnly) (length : BitVec w) :
    Except Exception (BitVec w) × ByteBuffer w endian readOnly :=
  b.increasePos length

def get (native : Endian) (T : IntType w) (b : ByteBuffer w endian readOnly) :
    Option (Except Exception T.Value × ByteBuffer w endian readOnly) :=
  match b.increasePos T.sizeof with
  | (.error exc, b) => some (.error exc, b)
  | (.ok p, b) =>
      (load b.data p.toNat T.sizeof.toNat).map fun src =>
        (.ok (convertFrom native endian T src), b)

def set (native : Endian) (T : IntType w) (value : T.Value) (b : ByteBuffer w endian false) :
    Option (Except Exception Unit × ByteBuffer w endian false) :=
  match b.increasePos T.sizeof with
  | (.error exc, b) => some (.error exc, b)
  | (.ok p, b) =>
      (store b.data p.toNat (convertTo native endian T value)).map fun data =>
        (.ok (), { b with data })

/-! ### Sequences of calls -/

inductive BufferOp (w : Nat) : Bool → Type where
  | setPosition {readOnly : Bool} (position : BitVec w) : BufferOp w readOnly
  | getDataPtr {readOnly : Bool} (length : BitVec w) : BufferOp w readOnly
  | get {readOnly : Bool} (T : IntType w) : BufferOp w readOnly
  | set (T : IntType w) (value : T.Value) : BufferOp w false

inductive Reply (w : Nat) where
  | done
  | pointer (p : BitVec w)
  | value (T : IntType w) (v : T.Value)

def apply (native : Endian) :
    {readOnly : Bool} → BufferOp w readOnly → ByteBuffer w endian readOnly →
      Option (Except Exception (Reply w) × ByteBuffer w endian readOnly)
  | _, .setPosition position, b =>
      let (result, b) := b.setPosition position
      some (result.map fun _ => .done, b)
  | _, .getDataPtr length, b =>
      let (result, b) := b.getDataPtr length
      some (result.map .pointer, b)
  | _, .get T, b => (b.get native T).map fun r => (r.1.map (.value T), r.2)
  | _, .set T value, b => (b.set native T value).map fun r => (r.1.map fun _ => .done, r.2)

/-- A call, or a change that the rest of the program makes to the block. -/
inductive BufferLabel (w : Nat) (readOnly : Bool) where
  | op (op : BufferOp w readOnly)
  | outside (data : List Byte)

def step (native : Endian) (b : ByteBuffer w endian readOnly) :
    BufferLabel w readOnly → Option (ByteBuffer w endian readOnly)
  | .op op => (apply native op b).map Prod.snd
  | .outside data => if data.length = b.data.length then some { b with data } else none

/-! ### Sequences of fields -/

/-- `get<T_1>(), ..., get<T_n>()` -/
def getAll (native : Endian) : List (IntType w) → ByteBuffer w endian readOnly →
    Option (Except Exception (List (Σ T : IntType w, T.Value)) × ByteBuffer w endian readOnly)
  | [], b => some (.ok [], b)
  | T :: types, b =>
      match b.get native T with
      | none => none
      | some (.error exc, b) => some (.error exc, b)
      | some (.ok value, b) =>
          (getAll native types b).map fun r => (r.1.map fun rest => ⟨T, value⟩ :: rest, r.2)

/-- `set<T_1>(v_1), ..., set<T_n>(v_n)` -/
def setAll (native : Endian) : List (Σ T : IntType w, T.Value) → ByteBuffer w endian false →
    Option (Except Exception Unit × ByteBuffer w endian false)
  | [], b => some (.ok (), b)
  | ⟨T, value⟩ :: fields, b =>
      match b.set native T value with
      | none => none
      | some (.error exc, b) => some (.error exc, b)
      | some (.ok (), b) => setAll native fields b

end ByteBuffer

def byteBuffer (native : Endian) (w : Nat) (endian : Endian) (readOnly : Bool) :
    Transition.System (ByteBuffer w endian readOnly) (ByteBuffer.BufferLabel w readOnly) where
  step := ByteBuffer.step native

end Suc.Cmn
