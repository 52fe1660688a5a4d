import Mathlib.Data.Fintype.Basic
import Mathlib.Logic.Equiv.Basic
import Suc.Cmn.Owners

/-!
# A descriptor has one owner

Both moves swap what two objects own: an object that is constructed owns nothing before. So the owners
of the descriptors are permuted, and no descriptor gains or loses one.
-/

namespace Suc.Cmn

open Transition

variable {ω : Type}

namespace Owners

/-- The descriptor that an object owns. -/
def owned (s : Owners ω) (id : ω) : Option Int := (s.objects id).bind Fd.closes

/-- The calls that open and close descriptors. -/
def calls (s : Owners ω) : OwnersLabel ω → List (HandleLabel Int)
  | .opens fd => [.acquire fd]
  | .destroy id => ((s.owned id).map HandleLabel.release).toList
  | _ => []

/-- The descriptor that is given to `make`. -/
def made (s : Owners ω) : OwnersLabel ω → List Nat
  | .make _ fd => (s.table.serial fd).toList
  | _ => []

/-- `make` is given an open descriptor that no object owns. -/
def MakesUnowned (s : Owners ω) : OwnersLabel ω → Prop
  | .make _ fd => (∃ d, s.table.serial fd = some d) ∧ ∀ id, s.owned id ≠ some fd
  | _ => True

instance [Fintype ω] (s : Owners ω) (l : OwnersLabel ω) : Decidable (s.MakesUnowned l) :=
  match l with
  | .make _ fd =>
      decidable_of_iff ((s.table.serial fd).isSome ∧ ∀ id, s.owned id ≠ some fd)
        (and_congr_left' Option.isSome_iff_exists)
  | .opens _ | .moveConstruct _ _ | .moveAssign _ _ | .destroy _ => isTrue trivial

/-! ### Invariants -/

/-- No descriptor has two owners, and what is owned is open. -/
structure Sound (s : Owners ω) : Prop where
  inj : ∀ {id id' fd}, s.owned id = some fd → s.owned id' = some fd → id = id'
  opened : ∀ {id fd}, s.owned id = some fd → ∃ d, s.table.serial fd = some d
  nonneg : ∀ {fd d}, s.table.serial fd = some d → 0 ≤ fd

/-- What has been given to `make` is owned as long as it is open. -/
def Kept (s : Owners ω) (d : Nat) : Prop :=
  d < s.table.next ∧ ∀ fd, s.table.serial fd = some d → ∃ id, s.owned id = some fd

theorem sound_start : (start : Owners ω).Sound where
  inj h := nomatch h
  opened h := nomatch h
  nonneg h := nomatch h

variable {s t : Owners ω}

theorem Sound.permute (hs : s.Sound) (htable : t.table = s.table) {perm : Equiv.Perm ω}
    (howned : t.owned = s.owned ∘ perm) : t.Sound where
  inj {id id' fd} h h' := by
    rw [howned] at h h'
    exact perm.injective (hs.inj h h')
  opened {id fd} h := by
    rw [howned] at h
    rw [htable]
    exact hs.opened h
  nonneg {fd d} h := by
    rw [htable] at h
    exact hs.nonneg h

theorem Kept.permute {d : Nat} (hd : s.Kept d) (htable : t.table = s.table) {perm : Equiv.Perm ω}
    (howned : t.owned = s.owned ∘ perm) : t.Kept d := by
  refine ⟨by rw [htable]; exact hd.1, fun fd hfd => ?_⟩
  rw [htable] at hfd
  obtain ⟨id, hid⟩ := hd.2 fd hfd
  exact ⟨perm.symm id, by rw [howned, Function.comp_apply, Equiv.apply_symm_apply, hid]⟩

theorem Sound.acquire (hs : s.Sound) {fd : Int} (hfd : 0 ≤ fd)
    (htable : t.table = s.table.acquired fd) (howned : t.owned = s.owned) : t.Sound where
  inj {id id' fd'} h h' := by
    rw [howned] at h h'
    exact hs.inj h h'
  opened {id fd'} h := by
    rw [howned] at h
    rw [htable, Handles.serial_acquired]
    split
    · exact ⟨_, rfl⟩
    · exact hs.opened h
  nonneg {fd' d} h := by
    rw [htable, Handles.serial_acquired] at h
    split at h
    · next heq => rwa [heq]
    · exact hs.nonneg h

theorem Kept.acquire {d : Nat} (hd : s.Kept d) {fd : Int} (htable : t.table = s.table.acquired fd)
    (howned : t.owned = s.owned) : t.Kept d := by
  obtain ⟨hlt, hkept⟩ := hd
  refine ⟨by rw [htable]; exact Nat.lt_succ_of_lt hlt, fun fd' hfd' => ?_⟩
  rw [htable, Handles.serial_acquired] at hfd'
  rw [howned]
  split at hfd'
  · exact absurd (Option.some.inj hfd') (Nat.ne_of_gt hlt)
  · exact hkept fd' hfd'

theorem close_owned (hs : s.Sound) {id : ω} {fd : Int} (hid : s.owned id = some fd) :
    close s.table fd = s.table.released fd := by
  obtain ⟨d, hd⟩ := hs.opened hid
  rw [close, Handles.step_release hd, Option.getD_some]

/-- The table when the owner, if it is one, has closed its descriptor. -/
theorem serial_close_owned (hs : s.Sound) (id : ω) (fd : Int) :
    ((s.owned id).elim s.table (close s.table)).serial fd =
      if s.owned id = some fd then none else s.table.serial fd := by
  cases hid : s.owned id with
  | none => rw [if_neg (by simp)]; rfl
  | some fd' =>
      rw [Option.elim_some, close_owned hs hid, Handles.serial_released]
      simp only [Option.some.injEq, eq_comm]

theorem next_close_owned (hs : s.Sound) (id : ω) :
    ((s.owned id).elim s.table (close s.table)).next = s.table.next := by
  cases hid : s.owned id with
  | none => rfl
  | some fd => rw [Option.elim_some, close_owned hs hid]; rfl

variable [DecidableEq ω]

theorem Sound.make (hs : s.Sound) {id : ω} {fd : Int} (hopen : ∃ d, s.table.serial fd = some d)
    (hunowned : ∀ id, s.owned id ≠ some fd) (htable : t.table = s.table)
    (howned : t.owned = Function.update s.owned id (some fd)) : t.Sound := by
  have hcases {id' : ω} {fd' : Int} (h : t.owned id' = some fd') :
      id' = id ∧ fd' = fd ∨ s.owned id' = some fd' := by
    by_cases heq : id' = id
    · exact Or.inl ⟨heq, by simpa [howned, heq] using h.symm⟩
    · exact Or.inr (by simpa [howned, heq] using h)
  constructor
  · intro id₁ id₂ fd' h₁ h₂
    rcases hcases h₁ with ⟨rfl, rfl⟩ | hold₁
    · rcases hcases h₂ with ⟨rfl, -⟩ | hold₂
      · rfl
      · exact absurd hold₂ (hunowned id₂)
    · rcases hcases h₂ with ⟨-, rfl⟩ | hold₂
      · exact absurd hold₁ (hunowned id₁)
      · exact hs.inj hold₁ hold₂
  · intro id' fd' h
    rw [htable]
    rcases hcases h with ⟨-, rfl⟩ | hold
    · exact hopen
    · exact hs.opened hold
  · intro fd' d hd
    rw [htable] at hd
    exact hs.nonneg hd

theorem Kept.make {d : Nat} (hd : s.Kept d) {id : ω} {fd : Int} (hid : s.owned id = none)
    (htable : t.table = s.table) (howned : t.owned = Function.update s.owned id (some fd)) :
    t.Kept d := by
  refine ⟨by rw [htable]; exact hd.1, fun fd' hfd' => ?_⟩
  rw [htable] at hfd'
  obtain ⟨id', hid'⟩ := hd.2 fd' hfd'
  have hne : id' ≠ id := by
    rintro rfl
    rw [hid] at hid'
    cases hid'
  exact ⟨id', by rw [howned, Function.update_of_ne hne, hid']⟩

theorem kept_of_make {d : Nat} {id : ω} {fd : Int} (hserial : s.table.serial fd = some d)
    (htable : t.table = s.table) (howned : t.owned = Function.update s.owned id (some fd)) :
    t.Kept d := by
  refine ⟨by rw [htable]; exact s.table.lt_next hserial, fun fd' hfd' => ?_⟩
  rw [htable] at hfd'
  obtain rfl := s.table.inj hserial hfd'
  exact ⟨id, by rw [howned, Function.update_self]⟩

theorem Sound.destroy (hs : s.Sound) {id : ω}
    (htable : t.table = (s.owned id).elim s.table (close s.table))
    (howned : t.owned = Function.update s.owned id none) : t.Sound := by
  have hold {id' : ω} {fd : Int} (h : t.owned id' = some fd) :
      id' ≠ id ∧ s.owned id' = some fd := by
    by_cases heq : id' = id
    · simp [howned, heq] at h
    · exact ⟨heq, by simpa [howned, heq] using h⟩
  constructor
  · intro id₁ id₂ fd h₁ h₂
    exact hs.inj (hold h₁).2 (hold h₂).2
  · intro id' fd h
    obtain ⟨hne, hid'⟩ := hold h
    have hother : s.owned id ≠ some fd := fun hid => hne (hs.inj hid' hid)
    rw [htable, serial_close_owned hs, if_neg hother]
    exact hs.opened hid'
  · intro fd d hd
    rw [htable, serial_close_owned hs] at hd
    split at hd
    · cases hd
    · exact hs.nonneg hd

theorem Kept.destroy {d : Nat} (hd : s.Kept d) (hs : s.Sound) {id : ω}
    (htable : t.table = (s.owned id).elim s.table (close s.table))
    (howned : t.owned = Function.update s.owned id none) : t.Kept d := by
  obtain ⟨hlt, hkept⟩ := hd
  refine ⟨by rw [htable, next_close_owned hs]; exact hlt, fun fd hfd => ?_⟩
  rw [htable, serial_close_owned hs] at hfd
  split at hfd
  · cases hfd
  · next hother =>
      obtain ⟨id', hid'⟩ := hkept fd hfd
      have hne : id' ≠ id := by
        rintro rfl
        exact hother hid'
      exact ⟨id', by rw [howned, Function.update_of_ne hne, hid']⟩

/-! ### One step -/

/-- The steps by what they do to the table and to the owners. -/
inductive Move (s t : Owners ω) : OwnersLabel ω → Prop where
  | opens (fd : Int) (hfd : 0 ≤ fd) (hfree : s.table.serial fd = none)
      (htable : t.table = s.table.acquired fd) (howned : t.owned = s.owned) : Move s t (.opens fd)
  | make (id : ω) (fd : Int) (hid : s.owned id = none) (htable : t.table = s.table)
      (howned : t.owned = Function.update s.owned id (some fd)) : Move s t (.make id fd)
  | refused (id : ω) (fd : Int) (hfd : fd < 0) (heq : t = s) : Move s t (.make id fd)
  | construct (id other : ω) (htable : t.table = s.table)
      (howned : t.owned = s.owned ∘ Equiv.swap id other) : Move s t (.moveConstruct id other)
  | assign (id other : ω) (htable : t.table = s.table)
      (howned : t.owned = s.owned ∘ Equiv.swap id other) : Move s t (.moveAssign id other)
  | destroy (id : ω) (htable : t.table = (s.owned id).elim s.table (close s.table))
      (howned : t.owned = Function.update s.owned id none) : Move s t (.destroy id)

theorem owned_update (s : Owners ω) (id : ω) (object : Option Fd) (table : Handles Int) :
    (⟨table, Function.update s.objects id object⟩ : Owners ω).owned =
      Function.update s.owned id (object.bind Fd.closes) := by
  funext id'
  by_cases heq : id' = id <;> simp [owned, heq]

theorem closes_of_nonneg {fd : Int} (hfd : 0 ≤ fd) : Fd.closes ⟨fd⟩ = some fd :=
  if_pos hfd

/-- Two objects that have exchanged what they own. -/
theorem owned_swap {s t : Owners ω} {id other : ω}
    (hid : t.owned id = s.owned other) (hother : t.owned other = s.owned id)
    (hrest : ∀ id', id' ≠ id → id' ≠ other → t.owned id' = s.owned id') :
    t.owned = s.owned ∘ Equiv.swap id other := by
  funext id'
  rw [Function.comp_apply]
  by_cases heq : id' = id
  · rw [heq, Equiv.swap_apply_left, hid]
  · by_cases heq' : id' = other
    · rw [heq', Equiv.swap_apply_right, hother]
    · rw [Equiv.swap_apply_of_ne_of_ne heq heq', hrest id' heq heq']

theorem owned_moveConstruct {s : Owners ω} {id other : ω} {object : Fd} (hid : s.objects id = none)
    (hother : s.objects other = some object) :
    (⟨s.table, Function.update (Function.update s.objects other (some object.moveConstruct.2)) id
        (some object.moveConstruct.1)⟩ : Owners ω).owned =
      s.owned ∘ Equiv.swap id other := by
  have hne : other ≠ id := by
    rintro rfl
    rw [hid] at hother
    cases hother
  refine owned_swap ?_ ?_ ?_
  · simp [owned, hother, Fd.moveConstruct]
  · simp [owned, hid, hne, Fd.moveConstruct, Fd.closes]
  · intro id' hne₁ hne₂
    simp [owned, hne₁, hne₂]

theorem owned_moveAssign {s : Owners ω} {id other : ω} {object source : Fd}
    (hid : s.objects id = some object) (hother : s.objects other = some source) :
    (⟨s.table, Function.update (Function.update s.objects id (some (object.moveAssign source).1))
        other (some (object.moveAssign source).2)⟩ : Owners ω).owned =
      s.owned ∘ Equiv.swap id other := by
  refine owned_swap ?_ ?_ ?_
  · by_cases heq : id = other
    · subst heq
      simp [owned, hid, Fd.moveAssign]
    · simp [owned, hother, heq, Fd.moveAssign]
  · simp [owned, hid, Fd.moveAssign]
  · intro id' hne₁ hne₂
    simp [owned, hne₁, hne₂]

theorem move_of_step {s t : Owners ω} {l : OwnersLabel ω} (hstep : (owners ω).step s l = some t) :
    Move s t l := by
  change step s l = some t at hstep
  cases l with
  | opens fd =>
      by_cases hfd : 0 ≤ fd
      · rw [step, if_pos hfd] at hstep
        obtain ⟨table, htable, rfl⟩ := Option.map_eq_some_iff.mp hstep
        rcases Handles.step_cases htable with ⟨n, hlabel, hfree, rfl⟩ | ⟨n, d, hlabel, -⟩
        · obtain rfl := HandleLabel.acquire.inj hlabel
          exact .opens fd hfd hfree rfl rfl
        · cases hlabel
      · simp [step, hfd] at hstep
  | make id fd =>
      cases hid : s.objects id with
      | some object => simp [step, hid] at hstep
      | none =>
          by_cases hfd : fd < 0
          · have heq : s = t := by simpa [step, hid, Fd.make, hfd] using hstep
            exact .refused id fd hfd heq.symm
          · rw [step, hid, Fd.make_of_nonneg (Int.not_lt.mp hfd)] at hstep
            obtain rfl := Option.some.inj hstep
            refine .make id fd (by rw [owned, hid]; rfl) rfl ?_
            rw [owned_update, Option.bind_some, closes_of_nonneg (Int.not_lt.mp hfd)]
  | moveConstruct id other =>
      cases hid : s.objects id with
      | some object => simp [step, hid] at hstep
      | none =>
          cases hother : s.objects other with
          | none => simp [step, hid, hother] at hstep
          | some object =>
              rw [step, hid, hother] at hstep
              obtain rfl := Option.some.inj hstep
              exact .construct id other rfl (owned_moveConstruct hid hother)
  | moveAssign id other =>
      cases hid : s.objects id with
      | none => simp [step, hid] at hstep
      | some object =>
          cases hother : s.objects other with
          | none => simp [step, hid, hother] at hstep
          | some source =>
              rw [step, hid, hother] at hstep
              obtain rfl := Option.some.inj hstep
              exact .assign id other rfl (owned_moveAssign hid hother)
  | destroy id =>
      obtain ⟨object, hobject, rfl⟩ := Option.map_eq_some_iff.mp hstep
      refine .destroy id ?_ (owned_update s id none _)
      simp [owned, hobject]

/-! ### Runs -/

variable {l : OwnersLabel ω}

theorem Move.sound (h : Move s t l) (hmakes : MakesUnowned s l) (hs : s.Sound) : t.Sound := by
  cases h with
  | opens fd hfd hfree htable howned => exact hs.acquire hfd htable howned
  | make id fd hid htable howned => exact hs.make hmakes.1 hmakes.2 htable howned
  | refused id fd hfd heq => rwa [heq]
  | construct id other htable howned => exact hs.permute htable howned
  | assign id other htable howned => exact hs.permute htable howned
  | destroy id htable howned => exact hs.destroy htable howned

theorem Move.kept (h : Move s t l) (hmakes : MakesUnowned s l) (hs : s.Sound) {d : Nat}
    (hd : s.Kept d ∨ d ∈ s.made l) : t.Kept d := by
  cases h with
  | opens fd hfd hfree htable howned => exact Kept.acquire (by simpa [made] using hd) htable howned
  | make id fd hid htable howned =>
      rcases hd with hkept | hmade
      · exact hkept.make hid htable howned
      · exact kept_of_make (by simpa [made] using hmade) htable howned
  | refused id fd hfd heq =>
      obtain ⟨⟨d', hd'⟩, -⟩ := hmakes
      exact absurd (hs.nonneg hd') (Int.not_le.mpr hfd)
  | construct id other htable howned =>
      exact Kept.permute (by simpa [made] using hd) htable howned
  | assign id other htable howned =>
      exact Kept.permute (by simpa [made] using hd) htable howned
  | destroy id htable howned => exact Kept.destroy (by simpa [made] using hd) hs htable howned

/-- The calls of a step are steps of the table: what is closed is open. -/
theorem Move.run_calls (h : Move s t l) (hs : s.Sound) :
    (handles Int).run s.table (s.calls l) = some t.table := by
  cases h with
  | opens fd hfd hfree htable howned =>
      rw [calls, System.run_cons, Handles.step_acquire hfree, htable]
      rfl
  | make id fd hid htable howned => rw [htable]; rfl
  | refused id fd hfd heq => rw [heq]; rfl
  | construct id other htable howned => rw [htable]; rfl
  | assign id other htable howned => rw [htable]; rfl
  | destroy id htable howned =>
      rw [calls, htable]
      cases hid : s.owned id with
      | none => rfl
      | some fd =>
          obtain ⟨d, hd⟩ := hs.opened hid
          rw [Option.elim_some, close_owned hs hid, Option.map_some, Option.toList_some,
            System.run_cons, Handles.step_release hd]
          rfl

theorem sound_preserved : ((owners ω).restrict MakesUnowned).Preserves Sound := by
  intro s l t hstep hs
  obtain ⟨hmakes, hmove⟩ := System.restrict_step_eq_some.mp hstep
  exact (move_of_step hmove).sound hmakes hs

section Run

variable {ls : List (OwnersLabel ω)}

theorem run_calls (hrun : (owners ω).run start ls = some s)
    (hmakes : (owners ω).Along MakesUnowned start ls) :
    (handles Int).run .empty ((owners ω).shown calls start ls) = some s.table := by
  rw [← System.shown_restrict hrun hmakes]
  refine System.run_shown sound_preserved Owners.table calls ?_ (System.run_restrict hrun hmakes)
    sound_start
  intro s l t hstep hs
  exact (move_of_step (System.restrict_step_eq_some.mp hstep).2).run_calls hs

theorem kept_of_made (hrun : (owners ω).run start ls = some s)
    (hmakes : (owners ω).Along MakesUnowned start ls) {d : Nat}
    (hd : d ∈ (owners ω).shown made start ls) : s.Kept d := by
  rw [← System.shown_restrict hrun hmakes] at hd
  have hinv : s.Sound ∧ ∀ d ∈ [] ++ ((owners ω).restrict MakesUnowned).shown made start ls,
      s.Kept d := by
    have hstart : (start : Owners ω).Sound ∧ ∀ d ∈ ([] : List Nat), (start : Owners ω).Kept d :=
      ⟨sound_start, by simp⟩
    refine System.shown_invariant (J := fun history s => s.Sound ∧ ∀ d ∈ history, s.Kept d) ?_
      (System.run_restrict hrun hmakes) hstart
    rintro history s l t hstep ⟨hs, hkept⟩
    obtain ⟨hC, hmove⟩ := System.restrict_step_eq_some.mp hstep
    refine ⟨(move_of_step hmove).sound hC hs, fun d hd => (move_of_step hmove).kept hC hs ?_⟩
    exact (List.mem_append.mp hd).imp_left (hkept d)
  exact hinv.2 d (by simpa using hd)

/-- The descriptors that a run closes. -/
def closed (ls : List (OwnersLabel ω)) : List Nat :=
  (handles Int).shown Handles.releases .empty ((owners ω).shown calls start ls)

/-- **One owner, one close.** In every state that is reached, no two objects own one descriptor, every
call of `close` has been made for an open one, and a descriptor that was given to `make` is open
exactly while an object owns it. None is closed twice, and when no object is left, each has been
closed. -/
theorem closed_once (hrun : (owners ω).run start ls = some s)
    (hmakes : (owners ω).Along MakesUnowned start ls) :
    (∀ id id' fd, s.owned id = some fd → s.owned id' = some fd → id = id') ∧
    (handles Int).run .empty ((owners ω).shown calls start ls) = some s.table ∧
    (∀ d ∈ (owners ω).shown made start ls, (∃ fd, s.table.serial fd = some d) ↔
      ∃ id fd, s.owned id = some fd ∧ s.table.serial fd = some d) ∧
    (∀ d, (closed ls).count d ≤ 1) ∧
    ((∀ id, s.objects id = none) →
      ∀ d ∈ (owners ω).shown made start ls, (closed ls).count d = 1) := by
  have hsound : s.Sound := sound_preserved.run (System.run_restrict hrun hmakes) sound_start
  have hcalls := run_calls hrun hmakes
  refine ⟨fun _ _ _ => hsound.inj, hcalls, ?_, Handles.count_releases_le_one hcalls, ?_⟩
  · intro d hd
    constructor
    · rintro ⟨fd, hfd⟩
      obtain ⟨id, hid⟩ := (kept_of_made hrun hmakes hd).2 fd hfd
      exact ⟨id, fd, hid, hfd⟩
    · rintro ⟨-, fd, -, hfd⟩
      exact ⟨fd, hfd⟩
  · intro hnone d hd
    obtain ⟨hlt, hkept⟩ := kept_of_made hrun hmakes hd
    rcases Handles.count_releases_of_new hcalls (Nat.zero_le d) hlt with ⟨⟨fd, hfd⟩, -⟩ | ⟨-, hone⟩
    · obtain ⟨id, hid⟩ := hkept fd hfd
      simp [owned, hnone] at hid
    · exact hone

/-- Two descriptors change their owners, one owner is assigned to itself and one moved from, and a
number is used again. -/
theorem closed_once_all :
    let labels : List (OwnersLabel (Fin 3)) :=
      [.opens 5, .opens 6, .make 0 5, .make 1 6, .moveAssign 0 1, .moveAssign 0 0,
        .moveConstruct 2 0, .destroy 1, .opens 5, .make 1 5, .moveAssign 1 0, .destroy 2,
        .destroy 1, .destroy 0]
    (owners (Fin 3)).shown made start labels = [0, 1, 2] ∧
      ∀ d ∈ (owners (Fin 3)).shown made start labels, (closed labels).count d = 1 := by
  intro labels
  have hmakes : (owners (Fin 3)).Along MakesUnowned start labels := by decide
  have hrun : ∃ s, (owners (Fin 3)).run start labels = some s ∧ ∀ id, s.objects id = none :=
    ⟨_, rfl, by decide⟩
  obtain ⟨s, hrun, hnone⟩ := hrun
  obtain ⟨-, -, -, -, hall⟩ := closed_once hrun hmakes
  exact ⟨rfl, hall hnone⟩

end Run

end Owners

end Suc.Cmn
