import Mathlib.Data.List.Basic

/-!
# Blocks

A block is a list of cells. An access reads or writes a stretch of it and is not defined when the
stretch does not lie inside: a block never grows, and nothing beside the stretch is touched.
Stretches that follow one another can be accessed one by one or at once.
-/

namespace Layout

variable {α : Type*} {block block' cells rest : List α} {p n m : Nat}

def load (block : List α) (p n : Nat) : Option (List α) :=
  if p + n ≤ block.length then some ((block.drop p).take n) else none

def store (block : List α) (p : Nat) (cells : List α) : Option (List α) :=
  if p + cells.length ≤ block.length then
    some (block.take p ++ cells ++ block.drop (p + cells.length))
  else
    none

/-! ### Stretches -/

theorem exists_stretch (h : p + n ≤ block.length) :
    ∃ before mid after, block = before ++ mid ++ after ∧ before.length = p ∧ mid.length = n := by
  refine ⟨block.take p, (block.drop p).take n, block.drop (p + n), ?_, ?_, ?_⟩
  · rw [List.append_assoc, ← List.drop_drop, List.take_append_drop, List.take_append_drop]
  · rw [List.length_take]
    omega
  · rw [List.length_take, List.length_drop]
    omega

theorem load_stretch (before mid after : List α) :
    load (before ++ mid ++ after) before.length mid.length = some mid := by
  simp [load]

theorem store_stretch (before after : List α) {mid : List α} (h : mid.length = cells.length) :
    store (before ++ mid ++ after) before.length cells = some (before ++ cells ++ after) := by
  simp [store, ← h]

theorem load_eq_some_iff :
    load block p n = some cells ↔
      ∃ before after, block = before ++ cells ++ after ∧ before.length = p ∧ cells.length = n := by
  constructor
  · intro h
    have hle : p + n ≤ block.length := by
      by_contra hlt
      simp [load, hlt] at h
    obtain ⟨before, mid, after, rfl, rfl, rfl⟩ := exists_stretch hle
    rw [load_stretch] at h
    obtain rfl := Option.some.inj h
    exact ⟨before, after, rfl, rfl, rfl⟩
  · rintro ⟨before, after, rfl, rfl, rfl⟩
    exact load_stretch before cells after

theorem store_eq_some_iff :
    store block p cells = some block' ↔
      ∃ before mid after, block = before ++ mid ++ after ∧ before.length = p ∧
        mid.length = cells.length ∧ block' = before ++ cells ++ after := by
  constructor
  · intro h
    have hle : p + cells.length ≤ block.length := by
      by_contra hlt
      simp [store, hlt] at h
    obtain ⟨before, mid, after, rfl, rfl, hmid⟩ := exists_stretch hle
    rw [store_stretch before after hmid] at h
    exact ⟨before, mid, after, rfl, rfl, hmid, (Option.some.inj h).symm⟩
  · rintro ⟨before, mid, after, rfl, rfl, hmid, rfl⟩
    exact store_stretch before after hmid

theorem exists_load (h : p + n ≤ block.length) : ∃ cells, load block p n = some cells :=
  ⟨_, if_pos h⟩

theorem exists_store (h : p + cells.length ≤ block.length) :
    ∃ block', store block p cells = some block' :=
  ⟨_, if_pos h⟩

theorem length_of_load (h : load block p n = some cells) : cells.length = n := by
  obtain ⟨_, _, -, -, hlength⟩ := load_eq_some_iff.mp h
  exact hlength

theorem length_of_store (h : store block p cells = some block') :
    block'.length = block.length := by
  obtain ⟨before, mid, after, rfl, -, hmid, rfl⟩ := store_eq_some_iff.mp h
  simp [hmid]

/-! ### Frame and round trips -/

/-- A store leaves every cell beside its stretch alone. -/
theorem getElem?_of_store (h : store block p cells = some block') {i : Nat}
    (hi : i < p ∨ p + cells.length ≤ i) : block'[i]? = block[i]? := by
  obtain ⟨before, mid, after, rfl, rfl, hmid, rfl⟩ := store_eq_some_iff.mp h
  rcases hi with hi | hi
  · rw [List.append_assoc, List.append_assoc, List.getElem?_append_left hi,
      List.getElem?_append_left hi]
  · rw [List.getElem?_append_right (by simpa using hi),
      List.getElem?_append_right (by simpa [hmid] using hi)]
    simp [hmid]

theorem load_of_store (h : store block p cells = some block') :
    load block' p cells.length = some cells := by
  obtain ⟨before, mid, after, -, rfl, -, rfl⟩ := store_eq_some_iff.mp h
  exact load_stretch before cells after

theorem store_of_load (h : load block p n = some cells) : store block p cells = some block := by
  obtain ⟨before, after, rfl, rfl, -⟩ := load_eq_some_iff.mp h
  exact store_stretch before after rfl

/-! ### Adjacent stretches -/

theorem store_nil (h : p ≤ block.length) : store block p [] = some block := by
  simp [store, h]

theorem load_append (h : load block p n = some cells) (hrest : load block (p + n) m = some rest) :
    load block p (n + m) = some (cells ++ rest) := by
  obtain ⟨before, after, rfl, rfl, rfl⟩ := load_eq_some_iff.mp h
  obtain ⟨before', after', heq, hlength, rfl⟩ := load_eq_some_iff.mp hrest
  have hsplit : before ++ cells ++ after = before' ++ (rest ++ after') := by
    rw [heq, List.append_assoc]
  obtain ⟨-, rfl⟩ := List.append_inj hsplit (by rw [List.length_append, hlength])
  refine load_eq_some_iff.mpr ⟨before, after', ?_, rfl, List.length_append⟩
  simp only [List.append_assoc]

theorem store_append (h : store block p cells = some block') :
    store block' (p + cells.length) rest = store block p (cells ++ rest) := by
  obtain ⟨before, mid, after, rfl, rfl, hmid, rfl⟩ := store_eq_some_iff.mp h
  have hlength : (before ++ mid ++ after).length = (before ++ cells ++ after).length := by
    simp [hmid]
  have htake : (before ++ cells ++ after).take (before.length + cells.length) = before ++ cells := by
    rw [← List.length_append, List.take_left]
  have hdrop : ∀ l : List α, l.length = cells.length →
      (before ++ l ++ after).drop (before.length + cells.length + rest.length) =
        after.drop rest.length := by
    intro l hl
    rw [← hl, ← List.length_append, ← List.drop_drop, List.drop_left]
  have hsum : before.length + (cells ++ rest).length =
      before.length + cells.length + rest.length := by
    rw [List.length_append, Nat.add_assoc]
  unfold store
  rw [hlength, htake, hsum, hdrop cells rfl, hdrop mid hmid]
  simp only [List.append_assoc, List.take_left]

end Layout
