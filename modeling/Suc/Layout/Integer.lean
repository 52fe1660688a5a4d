import Mathlib.Data.Nat.Digits.Lemmas

/-!
# Integers in bytes

A number as a fixed number of bytes, least significant first, and on top of it the two's complement
representation of the signed and unsigned integers of that many bytes. Every string of that many
bytes is the representation of exactly one value, so encoding and decoding are inverse to each other
on both sides.
-/

namespace Layout

abbrev Byte := BitVec 8

/-! ### Numbers -/

def littleEndian : Nat → Nat → List Byte
  | 0, _ => []
  | n + 1, k => BitVec.ofNat 8 k :: littleEndian n (k / 256)

def number (bytes : List Byte) : Nat :=
  Nat.ofDigits 256 (bytes.map BitVec.toNat)

@[simp]
theorem length_littleEndian (n k : Nat) : (littleEndian n k).length = n := by
  induction n generalizing k with
  | zero => rfl
  | succ n ih => rw [littleEndian, List.length_cons, ih]

theorem number_cons (b : Byte) (bytes : List Byte) :
    number (b :: bytes) = b.toNat + 256 * number bytes := by
  simp [number, Nat.ofDigits_cons]

theorem number_littleEndian (n k : Nat) : number (littleEndian n k) = k % 256 ^ n := by
  induction n generalizing k with
  | zero => simp [littleEndian, number, Nat.mod_one]
  | succ n ih =>
      have hpow : 256 ^ (n + 1) = 256 * 256 ^ n := Nat.pow_succ'
      rw [littleEndian, number_cons, ih, BitVec.toNat_ofNat, hpow, Nat.mod_mul]

theorem digit_lt {bytes : List Byte} {d : Nat} (h : d ∈ bytes.map BitVec.toNat) : d < 256 := by
  obtain ⟨b, -, rfl⟩ := List.mem_map.mp h
  exact b.isLt

theorem number_lt (bytes : List Byte) : number bytes < 256 ^ bytes.length := by
  have h := Nat.ofDigits_lt_base_pow_length (b := 256) (l := bytes.map BitVec.toNat) (by decide)
    fun d hd => digit_lt hd
  rwa [List.length_map] at h

theorem number_injective {bytes bytes' : List Byte} (hlength : bytes.length = bytes'.length)
    (h : number bytes = number bytes') : bytes = bytes' := by
  have hdigits : bytes.map BitVec.toNat = bytes'.map BitVec.toNat :=
    Nat.ofDigits_inj_of_len_eq (b := 256) (by decide) (by simpa using hlength)
      (fun d hd => digit_lt hd) (fun d hd => digit_lt hd) h
  exact List.map_injective_iff.mpr (fun b b' => BitVec.eq_of_toNat_eq) hdigits

theorem littleEndian_number (bytes : List Byte) :
    littleEndian bytes.length (number bytes) = bytes := by
  apply number_injective (length_littleEndian _ _)
  rw [number_littleEndian, Nat.mod_eq_of_lt (number_lt bytes)]

/-! ### Swapping bytes -/

/-- The number with the digits of the other in reverse, of which it has `n` in base 256. -/
def byteswap : Nat → Nat → Nat
  | 0, _ => 0
  | n + 1, k => k % 256 * 256 ^ n + byteswap n (k / 256)

theorem number_append (bytes bytes' : List Byte) :
    number (bytes ++ bytes') = number bytes + 256 ^ bytes.length * number bytes' := by
  rw [number, List.map_append, Nat.ofDigits_append, List.length_map]
  rfl

theorem number_reverse_littleEndian (n k : Nat) :
    number (littleEndian n k).reverse = byteswap n k := by
  induction n generalizing k with
  | zero => rfl
  | succ n ih =>
      have hdigit : number [BitVec.ofNat 8 k] = k % 256 := by
        rw [number_cons, BitVec.toNat_ofNat]
        rfl
      calc number (littleEndian (n + 1) k).reverse
          = number ((littleEndian n (k / 256)).reverse ++ [BitVec.ofNat 8 k]) := by
            rw [littleEndian, List.reverse_cons]
        _ = byteswap n (k / 256) + 256 ^ n * (k % 256) := by
            rw [number_append, ih, hdigit, List.length_reverse, length_littleEndian]
        _ = byteswap (n + 1) k := by rw [byteswap, Nat.add_comm, Nat.mul_comm]

/-! ### Two's complement -/

structure IntFormat where
  size : Nat
  signed : Bool
  size_pos : 0 < size

namespace IntFormat

variable (format : IntFormat)

def modulus : Nat := 256 ^ format.size

def lower : Int := if format.signed then -((format.modulus / 2 : Nat) : Int) else 0

def upper : Int := if format.signed then ((format.modulus / 2 : Nat) : Int) else format.modulus

def Value : Type := { v : Int // format.lower ≤ v ∧ v < format.upper }

def encode (v : format.Value) : List Byte :=
  littleEndian format.size (v.val % format.modulus).toNat

/-- The representative of a residue class that is a value of the format. -/
def wrap (k : Int) : Int := if format.signed then k.bmod format.modulus else k % format.modulus

theorem modulus_pos : 0 < format.modulus := Nat.pow_pos (by decide)

theorem two_dvd_modulus : 2 ∣ format.modulus := by
  have h : (2 : Nat) ∣ 256 := by decide
  exact h.trans (dvd_pow_self 256 format.size_pos.ne')

theorem wrap_mem (k : Int) : format.lower ≤ format.wrap k ∧ format.wrap k < format.upper := by
  have hpos := format.modulus_pos
  have heven := format.two_dvd_modulus
  unfold lower upper wrap
  cases format.signed with
  | true =>
      have hlower := Int.le_bmod (x := k) hpos
      have hupper := Int.bmod_lt (x := k) hpos
      simp only [if_true]
      omega
  | false =>
      simp only [Bool.false_eq_true, if_false]
      exact ⟨Int.emod_nonneg k (by omega), Int.emod_lt_of_pos k (by omega)⟩

theorem wrap_of_mem {k : Int} (h : format.lower ≤ k ∧ k < format.upper) : format.wrap k = k := by
  have heven := format.two_dvd_modulus
  unfold lower upper at h
  unfold wrap
  cases hsigned : format.signed with
  | true =>
      simp only [hsigned, if_true] at h ⊢
      exact Int.bmod_eq_of_le (by omega) (by omega)
  | false =>
      simp only [hsigned, Bool.false_eq_true, if_false] at h ⊢
      exact Int.emod_eq_of_lt h.1 h.2

theorem wrap_emod (k : Int) : format.wrap (k % format.modulus) = format.wrap k := by
  unfold wrap
  cases format.signed with
  | true => exact Int.emod_bmod k format.modulus
  | false => exact Int.emod_emod k format.modulus

theorem emod_wrap (k : Int) : format.wrap k % format.modulus = k % format.modulus := by
  unfold wrap
  cases format.signed with
  | true => exact Int.bmod_emod
  | false => exact Int.emod_emod k format.modulus

def decode (bytes : List Byte) : format.Value :=
  ⟨format.wrap (number bytes), format.wrap_mem (number bytes)⟩

@[simp]
theorem length_encode (v : format.Value) : (format.encode v).length = format.size :=
  length_littleEndian _ _

theorem decode_encode (v : format.Value) : format.decode (format.encode v) = v := by
  have hnonneg : 0 ≤ v.val % format.modulus :=
    Int.emod_nonneg _ (by have := format.modulus_pos; omega)
  apply Subtype.ext
  calc format.wrap (number (littleEndian format.size (v.val % format.modulus).toNat))
      = format.wrap (v.val % format.modulus) := by
        rw [number_littleEndian, ← modulus, Int.natCast_mod, Int.toNat_of_nonneg hnonneg,
          Int.emod_emod]
    _ = format.wrap v.val := format.wrap_emod v.val
    _ = v.val := format.wrap_of_mem v.property

theorem encode_decode {bytes : List Byte} (h : bytes.length = format.size) :
    format.encode (format.decode bytes) = bytes := by
  have hlt : number bytes < format.modulus := by
    rw [modulus, ← h]
    exact number_lt bytes
  calc littleEndian format.size (format.wrap (number bytes) % format.modulus).toNat
      = littleEndian format.size (number bytes) := by
        rw [format.emod_wrap, ← Int.natCast_mod, Nat.mod_eq_of_lt hlt, Int.toNat_natCast]
    _ = bytes := by rw [← h, littleEndian_number]

/-- The value whose digits, as an unsigned number, are those of the other in reverse. -/
def byteswap (v : format.Value) : format.Value :=
  ⟨format.wrap (Layout.byteswap format.size (v.val % format.modulus).toNat), format.wrap_mem _⟩

/-- To swap the digits of a value is to reverse its bytes. -/
theorem byteswap_eq (v : format.Value) :
    format.byteswap v = format.decode (format.encode v).reverse := by
  apply Subtype.ext
  change format.wrap _ = format.wrap _
  rw [encode, number_reverse_littleEndian]

end IntFormat

end Layout
