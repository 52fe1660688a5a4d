import Suc.Layout.Integer

/-!
# Records

A record is a sequence of fields of any types, laid out one behind the other without gaps. Where
each field type has a fixed size and encodes without loss in both directions, so does the record.
-/

namespace Layout

/-- Field types with the fixed-size representation of their values. -/
structure FieldCodec (τ : Type) where
  Value : τ → Type
  size : τ → Nat
  encode : (t : τ) → Value t → List Byte
  decode : (t : τ) → List Byte → Value t
  length_encode : ∀ t v, (encode t v).length = size t
  decode_encode : ∀ t v, decode t (encode t v) = v
  encode_decode : ∀ t bytes, bytes.length = size t → encode t (decode t bytes) = bytes

namespace FieldCodec

variable {τ : Type} (codec : FieldCodec τ)

abbrev Field : Type := Σ t : τ, codec.Value t

def sizes (types : List τ) : Nat := (types.map codec.size).sum

def types (fields : List codec.Field) : List τ := fields.map Sigma.fst

def encodeAll (fields : List codec.Field) : List Byte :=
  fields.flatMap fun field => codec.encode field.1 field.2

def decodeAll : List τ → List Byte → List codec.Field
  | [], _ => []
  | t :: types, bytes =>
      ⟨t, codec.decode t (bytes.take (codec.size t))⟩ ::
        decodeAll types (bytes.drop (codec.size t))

@[simp]
theorem sizes_cons (t : τ) (types : List τ) :
    codec.sizes (t :: types) = codec.size t + codec.sizes types := by
  simp [sizes]

@[simp]
theorem types_cons (t : τ) (v : codec.Value t) (fields : List codec.Field) :
    codec.types (⟨t, v⟩ :: fields) = t :: codec.types fields := rfl

@[simp]
theorem encodeAll_cons (t : τ) (v : codec.Value t) (fields : List codec.Field) :
    codec.encodeAll (⟨t, v⟩ :: fields) = codec.encode t v ++ codec.encodeAll fields := rfl

@[simp]
theorem length_encodeAll (fields : List codec.Field) :
    (codec.encodeAll fields).length = codec.sizes (codec.types fields) := by
  induction fields with
  | nil => rfl
  | cons field fields ih =>
      obtain ⟨t, v⟩ := field
      rw [encodeAll_cons, List.length_append, codec.length_encode, ih, types_cons, sizes_cons]

@[simp]
theorem types_decodeAll (types : List τ) (bytes : List Byte) :
    codec.types (codec.decodeAll types bytes) = types := by
  induction types generalizing bytes with
  | nil => rfl
  | cons t types ih => exact congrArg (t :: ·) (ih _)

theorem decodeAll_encodeAll (fields : List codec.Field) :
    codec.decodeAll (codec.types fields) (codec.encodeAll fields) = fields := by
  induction fields with
  | nil => rfl
  | cons field fields ih =>
      obtain ⟨t, v⟩ := field
      have hlength := codec.length_encode t v
      rw [types_cons, decodeAll, encodeAll_cons, List.take_left' hlength,
        List.drop_left' hlength, codec.decode_encode, ih]

theorem encodeAll_decodeAll {types : List τ} {bytes : List Byte}
    (h : bytes.length = codec.sizes types) :
    codec.encodeAll (codec.decodeAll types bytes) = bytes := by
  induction types generalizing bytes with
  | nil => exact (List.length_eq_zero_iff.mp h).symm
  | cons t types ih =>
      rw [sizes_cons] at h
      have htake : (bytes.take (codec.size t)).length = codec.size t := by
        rw [List.length_take]
        omega
      have hdrop : (bytes.drop (codec.size t)).length = codec.sizes types := by
        rw [List.length_drop]
        omega
      rw [decodeAll, encodeAll_cons, codec.encode_decode t _ htake, ih hdrop,
        List.take_append_drop]

end FieldCodec

end Layout
