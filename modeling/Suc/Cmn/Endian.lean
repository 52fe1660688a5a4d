import Suc.Layout.Integer
import Suc.Layout.Record

/-!
# Byte orders

`cmn::convert` copies an object forward or in reverse, depending on whether the byte order that is
asked for is the one of the host. What an object looks like in memory depends on the host; what the
copy of it looks like does not.
-/

namespace Suc.Cmn

open Layout

inductive Endian where
  | little
  | big
  deriving DecidableEq, Repr

inductive Direction where
  | forward
  | reverse
  deriving DecidableEq, Repr

def direction (native endian : Endian) : Direction :=
  if native = endian then .forward else .reverse

def copy (dir : Direction) (src : List Byte) : List Byte :=
  match dir with
  | .forward => src
  | .reverse => src.reverse

/-- An integral type other than `bool`. Its size is a `size_t` of `w` bits. -/
structure IntType (w : Nat) where
  sizeof : BitVec w
  signed : Bool
  sizeof_pos : 0 < sizeof.toNat
  deriving DecidableEq

namespace IntType

variable {w : Nat} (T : IntType w)

def format : IntFormat := ⟨T.sizeof.toNat, T.signed, T.sizeof_pos⟩

abbrev Value : Type := T.format.Value

/-- The bytes of an object of the type, as a host of the given byte order keeps them. -/
def object (native : Endian) (v : T.Value) : List Byte :=
  match native with
  | .little => T.format.encode v
  | .big => (T.format.encode v).reverse

def ofObject (native : Endian) (bytes : List Byte) : T.Value :=
  match native with
  | .little => T.format.decode bytes
  | .big => T.format.decode bytes.reverse

end IntType

/-- `convert(dst, src)`: the bytes that are written to `dst`. -/
def convertTo {w : Nat} (native endian : Endian) (T : IntType w) (src : T.Value) : List Byte :=
  copy (direction native endian) (T.object native src)

/-- `convert(src)` with the bytes at `src`. -/
def convertFrom {w : Nat} (native endian : Endian) (T : IntType w) (src : List Byte) : T.Value :=
  T.ofObject native (copy (direction native endian) src)

/-- `convert(src)` with a value. -/
def convert {w : Nat} (native endian : Endian) (T : IntType w) (src : T.Value) : T.Value :=
  if endian = native then src else T.format.byteswap src

variable {w : Nat} (native endian : Endian) (T : IntType w)

theorem convertTo_eq (v : T.Value) : convertTo native endian T v = T.object endian v := by
  cases native <;> cases endian <;> simp [convertTo, direction, copy, IntType.object]

theorem convertFrom_eq (bytes : List Byte) :
    convertFrom native endian T bytes = T.ofObject endian bytes := by
  cases native <;> cases endian <;> simp [convertFrom, direction, copy, IntType.ofObject]

namespace IntType

@[simp]
theorem length_object (v : T.Value) : (T.object endian v).length = T.sizeof.toNat := by
  cases endian with
  | little => exact T.format.length_encode v
  | big =>
      rw [object, List.length_reverse]
      exact T.format.length_encode v

theorem ofObject_object (v : T.Value) : T.ofObject endian (T.object endian v) = v := by
  cases endian <;> simp [object, ofObject, T.format.decode_encode]

theorem object_ofObject {bytes : List Byte} (h : bytes.length = T.sizeof.toNat) :
    T.object endian (T.ofObject endian bytes) = bytes := by
  cases endian with
  | little => exact T.format.encode_decode h
  | big =>
      have hreverse : bytes.reverse.length = T.format.size := by rw [List.length_reverse, h]; rfl
      rw [object, ofObject, T.format.encode_decode hreverse, List.reverse_reverse]

variable {native endian} in
/-- One host's bytes of the swapped value are the other host's bytes of the value. -/
theorem object_byteswap (hne : endian ≠ native) (v : T.Value) :
    T.object native (T.format.byteswap v) = T.object endian v := by
  have hencode : T.format.encode (T.format.byteswap v) = (T.format.encode v).reverse := by
    rw [T.format.byteswap_eq, T.format.encode_decode]
    rw [List.length_reverse, T.format.length_encode]
  cases native with
  | little =>
      cases endian with
      | little => exact absurd rfl hne
      | big => exact hencode
  | big =>
      cases endian with
      | little => exact (congrArg List.reverse hencode).trans (List.reverse_reverse _)
      | big => exact absurd rfl hne

theorem ofObject_object_comm (v : T.Value) :
    T.ofObject endian (T.object native v) = T.ofObject native (T.object endian v) := by
  cases native <;> cases endian <;> rfl

/-- The fields of a record in the given byte order. -/
def codec (w : Nat) (endian : Endian) : FieldCodec (IntType w) where
  Value := Value
  size T := T.sizeof.toNat
  encode T := T.object endian
  decode T := T.ofObject endian
  length_encode T v := T.length_object endian v
  decode_encode T v := T.ofObject_object endian v
  encode_decode T _ h := T.object_ofObject endian h

end IntType

/-! ### The three overloads -/

/-- The value is passed, or lies at `src`, or lies at `src` and the result at a `dst` beside it. -/
inductive Overload where
  | value
  | load
  | memory

def Overload.apply (overload : Overload) (v : T.Value) : T.Value :=
  match overload with
  | .value => convert native endian T v
  | .load => convertFrom native endian T (T.object native v)
  | .memory => T.ofObject native (convertTo native endian T v)

theorem Overload.apply_eq (overload : Overload) (v : T.Value) :
    overload.apply native endian T v = T.ofObject native (T.object endian v) := by
  cases overload with
  | value =>
      by_cases heq : endian = native
      · rw [apply, convert, if_pos heq, heq, T.ofObject_object]
      · rw [apply, convert, if_neg heq, ← T.object_byteswap heq, T.ofObject_object]
  | load => rw [apply, convertFrom_eq, T.ofObject_object_comm]
  | memory => rw [apply, convertTo_eq]

/-- **One conversion.** The overloads give the same value, whose bytes in memory are those of the
argument in the byte order that is asked for, and each of them undoes every other. -/
theorem overloads_agree (f g : Overload) (v : T.Value) :
    f.apply native endian T v = g.apply native endian T v ∧
      g.apply native endian T (f.apply native endian T v) = v ∧
      T.object native (f.apply native endian T v) = T.object endian v ∧
      convertTo native endian T v = T.object endian v := by
  have hobject : T.object native (f.apply native endian T v) = T.object endian v := by
    rw [f.apply_eq, T.object_ofObject native (T.length_object endian v)]
  refine ⟨by rw [f.apply_eq, g.apply_eq], ?_, hobject, convertTo_eq native endian T v⟩
  rw [g.apply_eq, ← T.ofObject_object_comm, hobject, T.ofObject_object]

end Suc.Cmn
