import Suc.Proof.ByteBuffer

/-!
# Fields in a byte buffer

Setting fields one after the other stores their concatenated representations at once, and getting
them loads the same stretch at once. Both follow from the rules for adjacent stretches, and the
round trips are then those of the record.
-/

namespace Suc.Cmn.ByteBuffer

open Layout
open IntType (codec)

variable {w : Nat} {endian : Endian} {readOnly : Bool}

theorem remaining_advance {b : ByteBuffer w endian readOnly} (h : b.InBounds) {n : BitVec w}
    (hn : n.toNat ≤ b.remaining) (data : List Byte) :
    ({ b with data := data, pos := b.pos + n } : ByteBuffer w endian readOnly).remaining =
      b.remaining - n.toNat := by
  unfold remaining
  change b.size.toNat - (b.pos + n).toNat = b.size.toNat - b.pos.toNat - n.toNat
  rw [h.toNat_add hn, Nat.sub_sub]

theorem InBounds.setAll_of_le (native : Endian) {b : ByteBuffer w endian false} (h : b.InBounds)
    (fields : List (codec w endian).Field)
    (hn : (codec w endian).sizes ((codec w endian).types fields) ≤ b.remaining) :
    ∃ b', b.setAll native fields = some (.ok (), b') ∧ b'.size = b.size ∧
      b'.pos.toNat = b.pos.toNat + (codec w endian).sizes ((codec w endian).types fields) ∧
      store b.data b.pos.toNat ((codec w endian).encodeAll fields) = some b'.data := by
  induction fields generalizing b with
  | nil =>
      refine ⟨b, rfl, rfl, rfl, store_nil ?_⟩
      rw [h.length]
      exact h.pos_le
  | cons field fields ih =>
      obtain ⟨T, value⟩ := field
      have hsizes : (codec w endian).sizes ((codec w endian).types (⟨T, value⟩ :: fields)) =
          T.sizeof.toNat + (codec w endian).sizes ((codec w endian).types fields) :=
        (codec w endian).sizes_cons T _
      have hle : T.sizeof.toNat ≤ b.remaining := by omega
      obtain ⟨data, hstore, hset⟩ := h.set_of_le native value hle
      have hbounds := h.advance hle (length_of_store hstore)
      obtain ⟨b', hsetAll, hsize, hpos, hstoreAll⟩ := ih hbounds (by
        rw [remaining_advance h hle]
        omega)
      refine ⟨b', ?_, hsize, ?_, ?_⟩
      · simp only [setAll, hset]
        exact hsetAll
      · rw [hpos, hsizes, h.toNat_add hle, Nat.add_assoc]
      · rw [← hstoreAll, h.toNat_add hle, ← T.length_object endian value]
        exact (store_append hstore).symm

theorem InBounds.getAll_of_le (native : Endian) {b : ByteBuffer w endian readOnly} (h : b.InBounds)
    (types : List (IntType w)) (hn : (codec w endian).sizes types ≤ b.remaining) :
    ∃ bytes b', b.getAll native types = some (.ok ((codec w endian).decodeAll types bytes), b') ∧
      b'.size = b.size ∧ b'.data = b.data ∧
      b'.pos.toNat = b.pos.toNat + (codec w endian).sizes types ∧
      load b.data b.pos.toNat ((codec w endian).sizes types) = some bytes := by
  induction types generalizing b with
  | nil =>
      have hpos : b.pos.toNat ≤ b.data.length := by
        rw [h.length]
        exact h.pos_le
      exact ⟨[], b, rfl, rfl, rfl, rfl, by simp [load, FieldCodec.sizes, hpos]⟩
  | cons T types ih =>
      have hsizes : (codec w endian).sizes (T :: types) =
          T.sizeof.toNat + (codec w endian).sizes types := (codec w endian).sizes_cons T types
      have hle : T.sizeof.toNat ≤ b.remaining := by omega
      obtain ⟨src, hsrc, hget⟩ := h.get_of_le native hle
      have hbounds := h.advance hle (rfl : b.data.length = b.data.length)
      obtain ⟨bytes, b', hgetAll, hsize, hdata, hpos, hload⟩ := ih hbounds (by
        rw [remaining_advance h hle]
        omega)
      rw [h.toNat_add hle] at hpos hload
      refine ⟨src ++ bytes, b', ?_, hsize, hdata, ?_, ?_⟩
      · have hdecode : (codec w endian).decodeAll (T :: types) (src ++ bytes) =
            ⟨T, T.ofObject endian src⟩ :: (codec w endian).decodeAll types bytes := by
          have hlength : src.length = (codec w endian).size T := length_of_load hsrc
          rw [FieldCodec.decodeAll, List.take_left' hlength, List.drop_left' hlength]
          rfl
        simp only [getAll, hget, hgetAll, Option.map_some, hdecode]
        rfl
      · rw [hpos, hsizes, Nat.add_assoc]
      · rw [hsizes]
        exact load_append hsrc hload

theorem setPosition_of_le {b : ByteBuffer w endian readOnly}
    (hlength : b.data.length = b.size.toNat) {p : BitVec w} {n : Nat}
    (hp : p.toNat + n ≤ b.size.toNat) :
    b.setPosition p = (.ok (), { b with pos := p }) ∧
      ({ b with pos := p } : ByteBuffer w endian readOnly).InBounds ∧
      n ≤ ({ b with pos := p } : ByteBuffer w endian readOnly).remaining := by
  have hle : p.toNat ≤ b.size.toNat := by omega
  rcases b.setPosition_cases p with ⟨hlt, -⟩ | ⟨-, heq⟩
  · omega
  · exact ⟨heq, ⟨hlength, hle⟩, Nat.le_sub_of_add_le' hp⟩

section RoundTrips

variable (native native' : Endian) {b : ByteBuffer w endian false} {r : ByteBuffer w endian true}
  {p : BitVec w}

theorem setAll_spec (hlength : b.data.length = b.size.toNat) (fields : List (codec w endian).Field)
    (hfits : p.toNat + (codec w endian).sizes ((codec w endian).types fields) ≤ b.size.toNat) :
    ∃ writer, (b.setPosition p).1 = .ok () ∧
      (b.setPosition p).2.setAll native fields = some (.ok (), writer) ∧ writer.size = b.size ∧
      writer.pos.toNat = p.toNat + (codec w endian).sizes ((codec w endian).types fields) ∧
      store b.data p.toNat ((codec w endian).encodeAll fields) = some writer.data := by
  obtain ⟨hset, hbounds, hremaining⟩ := setPosition_of_le hlength hfits
  obtain ⟨writer, hsetAll, hsize, hpos, hstore⟩ := hbounds.setAll_of_le native fields hremaining
  exact ⟨writer, by rw [hset], by rw [hset]; exact hsetAll, hsize, hpos, hstore⟩

theorem getAll_spec (hlength : r.data.length = r.size.toNat) {types : List (IntType w)}
    (hfits : p.toNat + (codec w endian).sizes types ≤ r.size.toNat) :
    ∃ bytes reader, (r.setPosition p).1 = .ok () ∧
      (r.setPosition p).2.getAll native types =
        some (.ok ((codec w endian).decodeAll types bytes), reader) ∧
      reader.pos.toNat = p.toNat + (codec w endian).sizes types ∧
      load r.data p.toNat ((codec w endian).sizes types) = some bytes := by
  obtain ⟨hset, hbounds, hremaining⟩ := setPosition_of_le hlength hfits
  obtain ⟨bytes, reader, hgetAll, -, -, hpos, hload⟩ :=
    hbounds.getAll_of_le native types hremaining
  exact ⟨bytes, reader, by rw [hset], by rw [hset]; exact hgetAll, hpos, hload⟩

end RoundTrips

/-- **Lossless in both directions.** On a buffer over a block of its size: after `setPosition(p)`,
setting fields that fit leaves their representations in the byte order of the buffer one behind the
other from `p` on and every other byte alone, and getting their types from the same memory returns
them and ends at the same position; and getting fields and setting them where they were read leaves
the memory as it was. The hosts of the writer and of the reader have any byte order. -/
theorem fields_roundTrip (native native' : Endian) (b : ByteBuffer w endian false)
    (r : ByteBuffer w endian true) (hlength : b.data.length = b.size.toNat) (hsize : r.size = b.size)
    (p : BitVec w) :
    (∀ fields : List (codec w endian).Field,
        p.toNat + (codec w endian).sizes ((codec w endian).types fields) ≤ b.size.toNat →
        ∃ writer, (b.setPosition p).1 = .ok () ∧
          (b.setPosition p).2.setAll native fields = some (.ok (), writer) ∧
          writer.data.length = b.data.length ∧
          load writer.data p.toNat ((codec w endian).sizes ((codec w endian).types fields)) =
            some ((codec w endian).encodeAll fields) ∧
          (∀ i, i < p.toNat ∨
              p.toNat + (codec w endian).sizes ((codec w endian).types fields) ≤ i →
            writer.data[i]? = b.data[i]?) ∧
          (r.data = writer.data →
            ∃ reader, (r.setPosition p).1 = .ok () ∧
              (r.setPosition p).2.getAll native' ((codec w endian).types fields) =
                some (.ok fields, reader) ∧
              reader.pos = writer.pos)) ∧
      ∀ types : List (IntType w), r.data = b.data →
        p.toNat + (codec w endian).sizes types ≤ b.size.toNat →
        ∃ fields reader writer, (codec w endian).types fields = types ∧
          (r.setPosition p).2.getAll native' types = some (.ok fields, reader) ∧
          (b.setPosition p).2.setAll native fields = some (.ok (), writer) ∧
          writer.data = b.data := by
  constructor
  · intro fields hfits
    obtain ⟨writer, hset, hsetAll, -, hpos, hstore⟩ := setAll_spec native hlength fields hfits
    have hload := load_of_store hstore
    rw [FieldCodec.length_encodeAll] at hload
    refine ⟨writer, hset, hsetAll, length_of_store hstore, hload, ?_, ?_⟩
    · intro i hi
      exact getElem?_of_store hstore (by rwa [FieldCodec.length_encodeAll])
    · intro hdata
      have hlength' : r.data.length = r.size.toNat := by
        rw [hdata, hsize, ← hlength]
        exact length_of_store hstore
      rw [← hsize] at hfits
      obtain ⟨bytes, reader, hset', hgetAll, hpos', hload'⟩ := getAll_spec native' hlength' hfits
      obtain rfl : (codec w endian).encodeAll fields = bytes :=
        Option.some.inj (hload.symm.trans (by rw [← hdata]; exact hload'))
      rw [FieldCodec.decodeAll_encodeAll] at hgetAll
      exact ⟨reader, hset', hgetAll, BitVec.eq_of_toNat_eq (hpos'.trans hpos.symm)⟩
  · intro types hdata hfits
    have hlength' : r.data.length = r.size.toNat := by rw [hdata, hsize, hlength]
    obtain ⟨bytes, reader, -, hgetAll, -, hload⟩ :=
      getAll_spec native' hlength' (by rw [hsize]; exact hfits)
    rw [hdata] at hload
    have htypes := (codec w endian).types_decodeAll types bytes
    obtain ⟨writer, -, hsetAll, -, -, hstore⟩ := setAll_spec native hlength
      ((codec w endian).decodeAll types bytes) (by rw [htypes]; exact hfits)
    rw [(codec w endian).encodeAll_decodeAll (length_of_load hload)] at hstore
    exact ⟨_, reader, writer, htypes, hgetAll, hsetAll,
      Option.some.inj (hstore.symm.trans (store_of_load hload))⟩

theorem fields_roundTrip_two :
    let int16 : IntType 8 := ⟨2, true, by decide⟩
    let uint8 : IntType 8 := ⟨1, false, by decide⟩
    let fields : List (codec 8 .big).Field :=
      [⟨int16, ⟨-2, by decide⟩⟩, ⟨uint8, ⟨200, by decide⟩⟩]
    let b : ByteBuffer 8 .big false := create [0, 0, 0, 0] 4
    ∃ writer, (b.setPosition 1).2.setAll .little fields = some (.ok (), writer) ∧
      load writer.data 1 3 = some [0xff, 0xfe, 200] := by
  intro int16 uint8 fields b
  obtain ⟨writer, -, hsetAll, -, hload, -⟩ :=
    (fields_roundTrip .little .big b (create [] 4) rfl rfl 1).1 fields (by decide)
  exact ⟨writer, hsetAll, hload.trans (by decide)⟩

end Suc.Cmn.ByteBuffer
