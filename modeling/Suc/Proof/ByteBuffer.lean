import Suc.Cmn.ByteBuffer

/-!
# Bounds of a byte buffer

The position never exceeds the size. Under this invariant the subtraction in the bounds check is
exact, so the check compares what is asked for with what is left, and the addition that moves the
position on does not wrap.
-/

namespace Suc.Cmn.ByteBuffer

open Layout

variable {w : Nat} {endian : Endian} {readOnly : Bool}

/-- The block has the size the buffer was given, and the position lies within. -/
structure InBounds (b : ByteBuffer w endian readOnly) : Prop where
  length : b.data.length = b.size.toNat
  pos_le : b.pos.toNat ≤ b.size.toNat

/-- The bytes behind the position. -/
def remaining (b : ByteBuffer w endian readOnly) : Nat := b.size.toNat - b.pos.toNat

theorem create_inBounds {data : List Byte} {size : BitVec w} (hdata : data.length = size.toNat) :
    (create data size : ByteBuffer w endian readOnly).InBounds where
  length := hdata
  pos_le := by simp [create]

section Bounds

variable {b : ByteBuffer w endian readOnly}

theorem InBounds.toNat_sub (h : b.InBounds) : (b.size - b.pos).toNat = b.remaining :=
  BitVec.toNat_sub_of_le (BitVec.le_def.mpr h.pos_le)

theorem InBounds.toNat_add (h : b.InBounds) {n : BitVec w} (hn : n.toNat ≤ b.remaining) :
    (b.pos + n).toNat = b.pos.toNat + n.toNat := by
  have hpos := h.pos_le
  have hsize := b.size.isLt
  unfold remaining at hn
  exact BitVec.toNat_add_of_lt (by omega)

theorem InBounds.increasePos_of_le (h : b.InBounds) {n : BitVec w} (hn : n.toNat ≤ b.remaining) :
    b.increasePos n = (.ok b.pos, { b with pos := b.pos + n }) := by
  have hcheck : ¬b.size - b.pos < n := by
    rw [BitVec.lt_def, h.toNat_sub]
    omega
  rw [increasePos, requiresRemaining, if_neg hcheck]

theorem InBounds.increasePos_of_lt (h : b.InBounds) {n : BitVec w} (hn : b.remaining < n.toNat) :
    b.increasePos n = (.error bufferOverflow, b) := by
  have hcheck : b.size - b.pos < n := by
    rwa [BitVec.lt_def, h.toNat_sub]
  rw [increasePos, requiresRemaining, if_pos hcheck]

theorem InBounds.advance (h : b.InBounds) {n : BitVec w} (hn : n.toNat ≤ b.remaining)
    {data : List Byte} (hdata : data.length = b.data.length) :
    ({ b with data := data, pos := b.pos + n } : ByteBuffer w endian readOnly).InBounds where
  length := hdata.trans h.length
  pos_le := by
    have hpos := h.pos_le
    unfold remaining at hn
    change (b.pos + n).toNat ≤ b.size.toNat
    rw [h.toNat_add hn]
    omega

theorem InBounds.stretch_le (h : b.InBounds) {n : BitVec w} (hn : n.toNat ≤ b.remaining) :
    b.pos.toNat + n.toNat ≤ b.data.length := by
  have hpos := h.pos_le
  have hlength := h.length
  unfold remaining at hn
  omega

/-! ### The calls -/

theorem InBounds.get_of_le (h : b.InBounds) (native : Endian) {T : IntType w}
    (hn : T.sizeof.toNat ≤ b.remaining) :
    ∃ src, load b.data b.pos.toNat T.sizeof.toNat = some src ∧
      b.get native T = some (.ok (T.ofObject endian src), { b with pos := b.pos + T.sizeof }) := by
  obtain ⟨src, hload⟩ := exists_load (h.stretch_le hn)
  refine ⟨src, hload, ?_⟩
  rw [get, h.increasePos_of_le hn]
  simp only [hload, Option.map_some, convertFrom_eq]

theorem InBounds.get_of_lt (h : b.InBounds) (native : Endian) {T : IntType w}
    (hn : b.remaining < T.sizeof.toNat) : b.get native T = some (.error bufferOverflow, b) := by
  rw [get, h.increasePos_of_lt hn]

end Bounds

section Writes

variable {b : ByteBuffer w endian false}

theorem InBounds.set_of_le (h : b.InBounds) (native : Endian) {T : IntType w} (value : T.Value)
    (hn : T.sizeof.toNat ≤ b.remaining) :
    ∃ data, store b.data b.pos.toNat (T.object endian value) = some data ∧
      b.set native T value =
        some (.ok (), { b with data := data, pos := b.pos + T.sizeof }) := by
  have hstretch : b.pos.toNat + (T.object endian value).length ≤ b.data.length := by
    rw [T.length_object]
    exact h.stretch_le hn
  obtain ⟨data, hstore⟩ := exists_store hstretch
  refine ⟨data, hstore, ?_⟩
  rw [set, h.increasePos_of_le hn]
  simp only [convertTo_eq, hstore, Option.map_some]

theorem InBounds.set_of_lt (h : b.InBounds) (native : Endian) {T : IntType w} (value : T.Value)
    (hn : b.remaining < T.sizeof.toNat) :
    b.set native T value = some (.error bufferOverflow, b) := by
  rw [set, h.increasePos_of_lt hn]

end Writes

/-! ### Runs -/

/-- The bytes a call asks for. -/
def BufferOp.asked : {readOnly : Bool} → BufferOp w readOnly → Option (BitVec w)
  | _, .setPosition _ => none
  | _, .getDataPtr length => some length
  | _, .get T | _, .set T _ => some T.sizeof

/-- What a call that asks for `n` bytes does: it throws when that many are not left, without any
change, and otherwise has the stretch at the position, which lies in the block, changes no byte
beside it, and moves on by its length. -/
structure Serves (b : ByteBuffer w endian readOnly) (n : BitVec w)
    (result : Except Exception (Reply w)) (b' : ByteBuffer w endian readOnly) : Prop where
  throws_iff : (∃ exc, result = .error exc) ↔ b.remaining < n.toNat
  unchanged : ∀ exc, result = .error exc → b' = b
  stretch : ∀ reply, result = .ok reply →
    b.pos.toNat + n.toNat ≤ b.data.length ∧ ∀ p, reply = .pointer p → p = b.pos
  moved : ∀ reply, result = .ok reply →
    b'.pos.toNat = b.pos.toNat + n.toNat ∧ b'.size = b.size ∧ b'.data.length = b.data.length
  frame : ∀ i, i < b.pos.toNat ∨ b.pos.toNat + n.toNat ≤ i → b'.data[i]? = b.data[i]?

section Calls

variable {b : ByteBuffer w endian readOnly} {n : BitVec w}

theorem Serves.inBounds {result : Except Exception (Reply w)} {b' : ByteBuffer w endian readOnly}
    (h : b.InBounds) (hserves : b.Serves n result b') : b'.InBounds ∧ b'.size = b.size := by
  cases result with
  | error exc =>
      obtain rfl := hserves.unchanged exc rfl
      exact ⟨h, rfl⟩
  | ok reply =>
      obtain ⟨hpos, hsize, hlength⟩ := hserves.moved reply rfl
      have hstretch := (hserves.stretch reply rfl).1
      refine ⟨⟨?_, ?_⟩, hsize⟩
      · rw [hlength, h.length, hsize]
      · rw [hpos, hsize, ← h.length]
        exact hstretch

theorem InBounds.serves_error (hn : b.remaining < n.toNat) :
    b.Serves n (.error bufferOverflow) b where
  throws_iff := iff_of_true ⟨_, rfl⟩ hn
  unchanged _ _ := rfl
  stretch _ hreply := by cases hreply
  moved _ hreply := by cases hreply
  frame _ _ := rfl

theorem InBounds.serves_ok (h : b.InBounds) (hn : n.toNat ≤ b.remaining) {reply : Reply w}
    (hreply : ∀ p, reply = .pointer p → p = b.pos) {data : List Byte}
    (hlength : data.length = b.data.length)
    (hframe : ∀ i, i < b.pos.toNat ∨ b.pos.toNat + n.toNat ≤ i → data[i]? = b.data[i]?) :
    b.Serves n (.ok reply) { b with data := data, pos := b.pos + n } where
  throws_iff := iff_of_false (fun ⟨exc, herror⟩ => by cases herror) (Nat.not_lt.mpr hn)
  unchanged _ herror := by cases herror
  stretch reply' heq := by
    obtain rfl := Except.ok.inj heq
    exact ⟨h.stretch_le hn, hreply⟩
  moved _ _ := ⟨h.toNat_add hn, rfl, hlength⟩
  frame := hframe

end Calls

theorem InBounds.apply_serves (native : Endian) {readOnly : Bool}
    {b : ByteBuffer w endian readOnly} (h : b.InBounds) {op : BufferOp w readOnly} {n : BitVec w}
    (hasked : op.asked = some n) :
    ∃ result b', apply native op b = some (result, b') ∧ b.Serves n result b' := by
  cases op with
  | setPosition position => cases hasked
  | getDataPtr length =>
      obtain rfl := Option.some.inj hasked
      rcases Nat.lt_or_ge b.remaining length.toNat with hlt | hle
      · exact ⟨_, _, by rw [apply, getDataPtr, h.increasePos_of_lt hlt]; rfl,
          InBounds.serves_error hlt⟩
      · refine ⟨_, _, by rw [apply, getDataPtr, h.increasePos_of_le hle]; rfl,
          h.serves_ok hle ?_ rfl fun i _ => rfl⟩
        intro p hp
        cases hp
        rfl
  | get T =>
      obtain rfl := Option.some.inj hasked
      rcases Nat.lt_or_ge b.remaining T.sizeof.toNat with hlt | hle
      · exact ⟨_, _, by rw [apply, h.get_of_lt native hlt]; rfl, InBounds.serves_error hlt⟩
      · obtain ⟨src, -, hget⟩ := h.get_of_le native hle
        refine ⟨_, _, by rw [apply, hget]; rfl, h.serves_ok hle ?_ rfl fun i _ => rfl⟩
        intro p hp
        cases hp
  | set T value =>
      obtain rfl := Option.some.inj hasked
      rcases Nat.lt_or_ge b.remaining T.sizeof.toNat with hlt | hle
      · exact ⟨_, _, by rw [apply, h.set_of_lt native value hlt]; rfl, InBounds.serves_error hlt⟩
      · obtain ⟨data, hstore, hset⟩ := h.set_of_le native value hle
        refine ⟨_, _, by rw [apply, hset]; rfl,
          h.serves_ok hle ?_ (length_of_store hstore) ?_⟩
        · intro p hp
          cases hp
        · intro i hi
          exact getElem?_of_store hstore (by rwa [T.length_object])

/-- What `setPosition` does, which asks for no bytes. -/
theorem setPosition_cases (b : ByteBuffer w endian readOnly) (position : BitVec w) :
    (b.size.toNat < position.toNat ∧ b.setPosition position = (.error bufferOverflow, b)) ∨
      (position.toNat ≤ b.size.toNat ∧
        b.setPosition position = (.ok (), { b with pos := position })) := by
  unfold setPosition
  split
  · rename_i hlt
    exact Or.inl ⟨BitVec.lt_def.mp hlt, rfl⟩
  · rename_i hge
    rw [BitVec.lt_def, Nat.not_lt] at hge
    exact Or.inr ⟨hge, rfl⟩

theorem inBounds_preserved (native : Endian) (size : BitVec w) :
    (byteBuffer native w endian readOnly).Preserves fun b => b.InBounds ∧ b.size = size := by
  intro b l b' hstep h
  obtain ⟨h, rfl⟩ := h
  cases l with
  | outside data =>
      simp only [byteBuffer, step] at hstep
      split at hstep
      · obtain rfl := Option.some.inj hstep
        exact ⟨⟨Eq.trans ‹_› h.length, h.pos_le⟩, rfl⟩
      · cases hstep
  | op op =>
      obtain ⟨r, happly, rfl⟩ := Option.map_eq_some_iff.mp hstep
      cases hasked : op.asked with
      | some n =>
          obtain ⟨result, b', happly', hserves⟩ := h.apply_serves native hasked
          obtain rfl : (result, b') = r := Option.some.inj (happly'.symm.trans happly)
          exact hserves.inBounds h
      | none =>
          cases op with
          | setPosition position =>
              rcases b.setPosition_cases position with ⟨-, heq⟩ | ⟨hle, heq⟩
              · rw [apply, heq] at happly
                obtain rfl := Option.some.inj happly
                exact ⟨h, rfl⟩
              · rw [apply, heq] at happly
                obtain rfl := Option.some.inj happly
                exact ⟨⟨h.length, hle⟩, rfl⟩
          | _ => cases hasked

/-- **Bounds.** In every state that calls reach on a buffer over a block of its size, whatever the
rest of the program does to the block: the position is within the size, so that the difference of
the two is exact; `setPosition` throws exactly beyond the size; and every other call throws exactly
when it asks for more bytes than are left, stays inside the block, and moves on by what it asks for
or changes nothing. -/
theorem serves_of_run (native : Endian) {data : List Byte} {size : BitVec w}
    (hdata : data.length = size.toNat) {labels : List (BufferLabel w readOnly)}
    {b : ByteBuffer w endian readOnly}
    (hrun : (byteBuffer native w endian readOnly).run (create data size) labels = some b) :
    (b.size = size ∧ b.pos.toNat ≤ b.size.toNat ∧
        (b.size - b.pos).toNat = b.size.toNat - b.pos.toNat) ∧
      (∀ position, ∃ result b',
        apply native (.setPosition position) b = some (result, b') ∧
          ((∃ exc, result = .error exc) ↔ b.size.toNat < position.toNat) ∧
          (∀ exc, result = .error exc → b' = b) ∧
          ∀ reply, result = .ok reply → b' = { b with pos := position }) ∧
      ∀ (op : BufferOp w readOnly) (n : BitVec w), op.asked = some n →
        ∃ result b', apply native op b = some (result, b') ∧ b.Serves n result b' := by
  obtain ⟨h, hsize⟩ := (inBounds_preserved native size).run hrun ⟨create_inBounds hdata, rfl⟩
  refine ⟨⟨hsize, h.pos_le, h.toNat_sub⟩, ?_, fun op n hasked => h.apply_serves native hasked⟩
  intro position
  rcases b.setPosition_cases position with ⟨hlt, heq⟩ | ⟨hle, heq⟩
  · exact ⟨.error bufferOverflow, b, by rw [apply, heq]; rfl, iff_of_true ⟨_, rfl⟩ hlt,
      fun _ _ => rfl, fun reply hreply => by cases hreply⟩
  · exact ⟨.ok .done, { b with pos := position }, by rw [apply, heq]; rfl,
      iff_of_false (fun ⟨exc, herror⟩ => by cases herror) (Nat.not_lt.mpr hle),
      fun exc herror => (by cases herror), fun _ _ => rfl⟩

theorem serves_of_run_edge :
    let int16 : IntType 8 := ⟨2, true, by decide⟩
    let labels : List (BufferLabel 8 false) := [.op (.get int16), .op (.getDataPtr 1)]
    ∃ b : ByteBuffer 8 .big false,
      (byteBuffer .little 8 .big false).run (create [1, 2, 3, 4] 4) labels = some b ∧
        b.pos = 3 ∧ ∃ result b', apply .little (.get int16) b = some (result, b') ∧
          b.Serves 2 result b' := by
  intro int16 labels
  have hrun : (byteBuffer .little 8 .big false).run (create [1, 2, 3, 4] 4) labels =
      some ⟨[1, 2, 3, 4], 4, 3⟩ := by decide
  exact ⟨_, hrun, rfl, (serves_of_run .little rfl hrun).2.2 (.get int16) 2 rfl⟩

end Suc.Cmn.ByteBuffer
