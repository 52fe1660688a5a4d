import Suc.Transition.System

/-!
# History variables and simulations

A history variable records what a run has done so far. It reads the state and the label of each step
and decides neither, so every run carries one and no run is lost.

What the steps of a run show, label by label, is a history of it that needs no state of its own.

A simulation shows each step of one system as a list of labels of another: the runs of the first are
then runs of the second, and what is proved of the second holds of the first.
-/

namespace Transition

variable {σ ℓ γ τ μ : Type*}

namespace System

variable (sys : System σ ℓ)

/-! ### History variables -/

def withHistory (record : γ → σ → ℓ → γ) : System (σ × γ) ℓ where
  step s l := (sys.step s.1 l).map fun t => (t, record s.2 s.1 l)

theorem withHistory_step_eq_some {record : γ → σ → ℓ → γ} {s t : σ × γ} {l : ℓ} :
    (sys.withHistory record).step s l = some t ↔
      sys.step s.1 l = some t.1 ∧ t.2 = record s.2 s.1 l := by
  constructor
  · intro h
    obtain ⟨m, hstep, rfl⟩ := Option.map_eq_some_iff.mp h
    exact ⟨hstep, rfl⟩
  · rintro ⟨hstep, hrecord⟩
    exact Option.map_eq_some_iff.mpr ⟨t.1, hstep, Prod.ext rfl hrecord.symm⟩

/-! ### What a run shows -/

/-- What a run shows when each of its steps shows a list of labels. -/
def shown (emit : σ → ℓ → List μ) : σ → List ℓ → List μ
  | _, [] => []
  | s, l :: ls => emit s l ++ ((sys.step s l).elim [] fun t => shown emit t ls)

variable {sys}

theorem shown_cons_of_step {emit : σ → ℓ → List μ} {s t : σ} {l : ℓ}
    (hstep : sys.step s l = some t) (ls : List ℓ) :
    sys.shown emit s (l :: ls) = emit s l ++ sys.shown emit t ls := by
  simp [shown, hstep]

theorem shown_filterMap {emit : σ → ℓ → List μ} (f : μ → Option γ) (s : σ) (ls : List ℓ) :
    (sys.shown emit s ls).filterMap f = sys.shown (fun s l => (emit s l).filterMap f) s ls := by
  induction ls generalizing s with
  | nil => rfl
  | cons l ls ih =>
      cases hstep : sys.step s l with
      | none => simp [shown, hstep]
      | some t => rw [shown_cons_of_step hstep, shown_cons_of_step hstep, List.filterMap_append, ih]

theorem shown_map {emit : σ → ℓ → List μ} (f : μ → γ) (s : σ) (ls : List ℓ) :
    (sys.shown emit s ls).map f = sys.shown (fun s l => (emit s l).map f) s ls := by
  simp only [← List.filterMap_eq_map, shown_filterMap]

/-- What the labels alone tell. -/
theorem shown_eq_flatMap {emit : σ → ℓ → List μ} {f : ℓ → List μ} (hemit : ∀ s l, emit s l = f l)
    {s t : σ} {ls : List ℓ} (hrun : sys.run s ls = some t) : sys.shown emit s ls = ls.flatMap f := by
  induction ls generalizing s with
  | nil => rfl
  | cons l ls ih =>
      obtain ⟨m, hfirst, hrest⟩ := sys.run_cons_eq_some.mp hrun
      rw [shown_cons_of_step hfirst, hemit, ih hrest, List.flatMap_cons]

theorem shown_eq_nil {emit : σ → ℓ → List μ} {ls : List ℓ} (hemit : ∀ s, ∀ l ∈ ls, emit s l = [])
    (s : σ) : sys.shown emit s ls = [] := by
  induction ls generalizing s with
  | nil => rfl
  | cons l ls ih =>
      rw [shown, hemit s l List.mem_cons_self, List.nil_append]
      cases sys.step s l with
      | none => rfl
      | some t => exact ih (fun s' l' hl' => hemit s' l' (List.mem_cons_of_mem l hl')) t

theorem shown_congr {I : σ → Prop} (hI : sys.Preserves I) {emit emit' : σ → ℓ → List μ}
    (hemit : ∀ s l, I s → emit s l = emit' s l) {s t : σ} {ls : List ℓ}
    (hrun : sys.run s ls = some t) (hs : I s) : sys.shown emit s ls = sys.shown emit' s ls := by
  induction ls generalizing s with
  | nil => rfl
  | cons l ls ih =>
      obtain ⟨m, hfirst, hrest⟩ := sys.run_cons_eq_some.mp hrun
      rw [shown_cons_of_step hfirst, shown_cons_of_step hfirst, hemit s l hs,
        ih hrest (hI hfirst hs)]

theorem shown_append {emit : σ → ℓ → List μ} {s m : σ} {ls ls' : List ℓ}
    (hrun : sys.run s ls = some m) :
    sys.shown emit s (ls ++ ls') = sys.shown emit s ls ++ sys.shown emit m ls' := by
  induction ls generalizing s with
  | nil =>
      obtain rfl : s = m := by simpa using hrun
      rfl
  | cons l ls ih =>
      obtain ⟨t, hfirst, hrest⟩ := sys.run_cons_eq_some.mp hrun
      rw [List.cons_append, shown_cons_of_step hfirst, shown_cons_of_step hfirst, ih hrest,
        List.append_assoc]

theorem shown_eq_nil_iff {emit : σ → ℓ → List μ} {s t : σ} {ls : List ℓ}
    (hrun : sys.run s ls = some t) :
    sys.shown emit s ls = [] ↔ sys.Along (fun s l => emit s l = []) s ls := by
  induction ls generalizing s with
  | nil => simp [shown]
  | cons l ls ih =>
      obtain ⟨m, hfirst, hrest⟩ := sys.run_cons_eq_some.mp hrun
      rw [shown_cons_of_step hfirst, List.append_eq_nil_iff, sys.along_cons_of_step hfirst,
        ih hrest]

/-- What holds after a run held before it or is due to a label that the run shows, if that is so of
every step. -/
theorem holds_iff_mem_shown {emit : σ → ℓ → List μ} {P : σ → Prop} {a : μ}
    (hstep : ∀ s l t, sys.step s l = some t → (P t ↔ P s ∨ a ∈ emit s l)) {s t : σ} {ls : List ℓ}
    (hrun : sys.run s ls = some t) : P t ↔ P s ∨ a ∈ sys.shown emit s ls := by
  induction ls generalizing s with
  | nil =>
      obtain rfl : s = t := by simpa using hrun
      simp [shown]
  | cons l ls ih =>
      obtain ⟨m, hfirst, hrest⟩ := sys.run_cons_eq_some.mp hrun
      rw [ih hrest, hstep s l m hfirst, shown_cons_of_step hfirst, List.mem_append, or_assoc]

/-- A part of the state that each step folds its labels into is the fold of all that the run
shows. -/
theorem eq_foldl_shown {emit : σ → ℓ → List μ} {f : γ → μ → γ} {part : σ → γ}
    (hstep : ∀ s l t, sys.step s l = some t → part t = (emit s l).foldl f (part s)) {s t : σ}
    {ls : List ℓ} (hrun : sys.run s ls = some t) :
    part t = (sys.shown emit s ls).foldl f (part s) := by
  induction ls generalizing s with
  | nil =>
      obtain rfl : s = t := by simpa using hrun
      rfl
  | cons l ls ih =>
      obtain ⟨m, hfirst, hrest⟩ := sys.run_cons_eq_some.mp hrun
      rw [ih hrest, hstep s l m hfirst, shown_cons_of_step hfirst, List.foldl_append]

/-- What each step adds to a measure by showing a label, a run adds by showing it that often. -/
theorem count_shown_add [DecidableEq μ] {emit : σ → ℓ → List μ} {a : μ} {m : σ → Nat}
    (hstep : ∀ s l t, sys.step s l = some t → (emit s l).count a + m s = m t) {s t : σ}
    {ls : List ℓ} (hrun : sys.run s ls = some t) : (sys.shown emit s ls).count a + m s = m t := by
  induction ls generalizing s with
  | nil =>
      obtain rfl : s = t := by simpa using hrun
      simp [shown]
  | cons l ls ih =>
      obtain ⟨u, hfirst, hrest⟩ := sys.run_cons_eq_some.mp hrun
      have hhead := hstep s l u hfirst
      have htail := ih hrest
      rw [shown_cons_of_step hfirst, List.count_append]
      omega

/-- An invariant of the state and of what has been shown so far. -/
theorem shown_invariant {emit : σ → ℓ → List μ} {J : List μ → σ → Prop}
    (hstep : ∀ h s l t, sys.step s l = some t → J h s → J (h ++ emit s l) t) {h : List μ}
    {s t : σ} {ls : List ℓ} (hrun : sys.run s ls = some t) (hs : J h s) :
    J (h ++ sys.shown emit s ls) t := by
  induction ls generalizing h s with
  | nil =>
      obtain rfl : s = t := by simpa using hrun
      simpa [shown] using hs
  | cons l ls ih =>
      obtain ⟨m, hfirst, hrest⟩ := sys.run_cons_eq_some.mp hrun
      rw [shown_cons_of_step hfirst, ← List.append_assoc]
      exact ih hrest (hstep h s l m hfirst hs)

/-- **Justified by the past.** When each step shows one label at most, and only one that what was
shown before allows, this is so of every label that a run shows. -/
theorem shown_justified {emit : σ → ℓ → List μ} {J : List μ → σ → Prop}
    {Allows : List μ → μ → Prop}
    (hstep : ∀ h s l t, sys.step s l = some t → J h s → J (h ++ emit s l) t)
    (hemit : ∀ h s l t, sys.step s l = some t → J h s →
      emit s l = [] ∨ ∃ a, emit s l = [a] ∧ Allows h a)
    {h : List μ} {s t : σ} {ls : List ℓ} (hrun : sys.run s ls = some t) (hs : J h s)
    {before after : List μ} {a : μ} (hsplit : sys.shown emit s ls = before ++ a :: after) :
    Allows (h ++ before) a := by
  induction ls generalizing h s before with
  | nil => simp [shown] at hsplit
  | cons l ls ih =>
      obtain ⟨m, hfirst, hrest⟩ := sys.run_cons_eq_some.mp hrun
      have hm := hstep h s l m hfirst hs
      rw [shown_cons_of_step hfirst] at hsplit
      rcases hemit h s l m hfirst hs with hnone | ⟨b, hone, hallows⟩
      · rw [hnone, List.append_nil] at hm
        rw [hnone, List.nil_append] at hsplit
        exact ih hrest hm hsplit
      · rw [hone] at hm hsplit
        -- the label is the one this step shows, or one that the rest of the run shows
        cases before with
        | nil =>
            obtain ⟨rfl, -⟩ := List.cons.inj hsplit
            rwa [List.append_nil]
        | cons b' before =>
            obtain ⟨rfl, hrestsplit⟩ := List.cons.inj hsplit
            have htail := ih hrest hm hrestsplit
            rwa [List.append_assoc] at htail

/-- **Once.** What is shown only by the step that makes a stable property true is shown at most
once, and not at all when the property holds at first. -/
theorem length_shown_le_one {I P : σ → Prop} (hI : sys.Preserves I) {emit : σ → ℓ → List μ}
    (hstable : ∀ s l t, sys.step s l = some t → I s → P s → P t ∧ emit s l = [])
    (honce : ∀ s l t, sys.step s l = some t → I s → emit s l = [] ∨ (emit s l).length = 1 ∧ P t)
    {s t : σ} {ls : List ℓ} (hrun : sys.run s ls = some t) (hs : I s) :
    (sys.shown emit s ls).length ≤ 1 ∧ (P s → sys.shown emit s ls = []) := by
  induction ls generalizing s with
  | nil => exact ⟨Nat.zero_le 1, fun _ => rfl⟩
  | cons l ls ih =>
      obtain ⟨m, hfirst, hrest⟩ := sys.run_cons_eq_some.mp hrun
      obtain ⟨hle, hnil⟩ := ih hrest (hI hfirst hs)
      rw [shown_cons_of_step hfirst, List.length_append]
      constructor
      · rcases honce s l m hfirst hs with hnone | ⟨hone, hm⟩
        · rw [hnone, List.length_nil, Nat.zero_add]
          exact hle
        · rw [hone, hnil hm]
          exact Nat.le_refl 1
      · intro hP
        obtain ⟨hm, hnone⟩ := hstable s l m hfirst hs hP
        rw [hnone, hnil hm, List.append_nil]

/-! ### Runs whose steps meet a condition -/

variable (sys) in
open Classical in
/-- The system of the steps that meet the condition: its invariants are those that hold along the runs
whose steps all do. -/
noncomputable def restrict (C : σ → ℓ → Prop) : System σ ℓ where
  step s l := if C s l then sys.step s l else none

theorem restrict_step_eq_some {C : σ → ℓ → Prop} {s t : σ} {l : ℓ} :
    (sys.restrict C).step s l = some t ↔ C s l ∧ sys.step s l = some t := by
  by_cases hC : C s l <;> simp [restrict, hC]

theorem run_restrict {C : σ → ℓ → Prop} {s t : σ} {ls : List ℓ} (hrun : sys.run s ls = some t)
    (hC : sys.Along C s ls) : (sys.restrict C).run s ls = some t := by
  induction ls generalizing s with
  | nil => exact hrun
  | cons l ls ih =>
      obtain ⟨m, hfirst, hrest⟩ := sys.run_cons_eq_some.mp hrun
      have hstep := restrict_step_eq_some.mpr ⟨hC.1, hfirst⟩
      exact (run_cons_eq_some _).mpr ⟨m, hstep, ih hrest (hC.2 m hfirst)⟩

theorem shown_restrict {C : σ → ℓ → Prop} {s t : σ} {ls : List ℓ} (hrun : sys.run s ls = some t)
    (hC : sys.Along C s ls) (emit : σ → ℓ → List μ) :
    (sys.restrict C).shown emit s ls = sys.shown emit s ls := by
  induction ls generalizing s with
  | nil => rfl
  | cons l ls ih =>
      obtain ⟨m, hfirst, hrest⟩ := sys.run_cons_eq_some.mp hrun
      have hstep := restrict_step_eq_some.mpr ⟨hC.1, hfirst⟩
      rw [shown_cons_of_step hfirst, shown_cons_of_step hstep, ih hrest (hC.2 m hfirst)]

/-! ### Simulations -/

/-- **Simulation.** When the labels each step shows lead between the images of its states, the
labels a run shows are a run of the specification. -/
theorem run_shown {spec : System τ μ} {I : σ → Prop} (hI : sys.Preserves I) (abs : σ → τ)
    (emit : σ → ℓ → List μ)
    (hsim : ∀ s l t, sys.step s l = some t → I s → spec.run (abs s) (emit s l) = some (abs t))
    {s t : σ} {ls : List ℓ} (hrun : sys.run s ls = some t) (hs : I s) :
    spec.run (abs s) (sys.shown emit s ls) = some (abs t) := by
  induction ls generalizing s with
  | nil =>
      obtain rfl : s = t := by simpa using hrun
      rfl
  | cons l ls ih =>
      obtain ⟨m, hstep, hrest⟩ := sys.run_cons_eq_some.mp hrun
      rw [shown_cons_of_step hstep]
      exact spec.run_append_eq_some.mpr ⟨abs m, hsim s l m hstep hs, ih hrest (hI hstep hs)⟩

/-- A simulation that needs no invariant. -/
theorem run_shown_of_step {spec : System τ μ} (abs : σ → τ) (emit : σ → ℓ → List μ)
    (hsim : ∀ s l t, sys.step s l = some t → spec.run (abs s) (emit s l) = some (abs t))
    {s t : σ} {ls : List ℓ} (hrun : sys.run s ls = some t) :
    spec.run (abs s) (sys.shown emit s ls) = some (abs t) :=
  run_shown (I := fun _ => True) (fun _ _ _ _ _ => trivial) abs emit
    (fun s l t hstep _ => hsim s l t hstep) hrun trivial

theorem along_shown {spec : System τ μ} {abs : σ → τ} {emit : σ → ℓ → List μ}
    (hsim : ∀ s l t, sys.step s l = some t → spec.run (abs s) (emit s l) = some (abs t))
    {C : τ → μ → Prop} {s t : σ} {ls : List ℓ} (hrun : sys.run s ls = some t) :
    spec.Along C (abs s) (sys.shown emit s ls) ↔
      sys.Along (fun s l => spec.Along C (abs s) (emit s l)) s ls := by
  induction ls generalizing s with
  | nil => exact Iff.rfl
  | cons l ls ih =>
      obtain ⟨m, hstep, hrest⟩ := sys.run_cons_eq_some.mp hrun
      rw [shown_cons_of_step hstep, sys.along_cons_of_step hstep,
        along_append (hsim s l m hstep), ih hrest]

end System

end Transition
