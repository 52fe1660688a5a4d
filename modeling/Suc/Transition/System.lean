import Mathlib.Data.List.Basic

/-!
# Labelled transition systems

A system is a partial step function: the label carries every choice that is not the system's own, so
that a step is either impossible or has one outcome, and a run is the list of its labels. Runs are
executable, and every fact about them is an induction over the list, done once here: an invariant is
carried along a run, a condition is checked at every step of it, and a measure bounds how often a
kind of step occurs in it.
-/

namespace Transition

variable {σ ℓ : Type*}

structure System (σ ℓ : Type*) where
  step : σ → ℓ → Option σ

namespace System

variable (sys : System σ ℓ)

def run : σ → List ℓ → Option σ
  | s, [] => some s
  | s, l :: ls => (sys.step s l).bind fun t => run t ls

@[simp]
theorem run_nil (s : σ) : sys.run s [] = some s := rfl

theorem run_cons (s : σ) (l : ℓ) (ls : List ℓ) :
    sys.run s (l :: ls) = (sys.step s l).bind fun t => sys.run t ls := rfl

theorem run_cons_eq_some {s t : σ} {l : ℓ} {ls : List ℓ} :
    sys.run s (l :: ls) = some t ↔ ∃ m, sys.step s l = some m ∧ sys.run m ls = some t := by
  simp [run_cons, Option.bind_eq_some_iff]

theorem run_append (s : σ) (ls ls' : List ℓ) :
    sys.run s (ls ++ ls') = (sys.run s ls).bind fun t => sys.run t ls' := by
  induction ls generalizing s with
  | nil => simp
  | cons l ls ih =>
      simp only [List.cons_append, run_cons, ih, Option.bind_assoc]

theorem run_append_eq_some {s t : σ} {ls ls' : List ℓ} :
    sys.run s (ls ++ ls') = some t ↔
      ∃ m, sys.run s ls = some m ∧ sys.run m ls' = some t := by
  simp [run_append, Option.bind_eq_some_iff]

/-! ### Invariants -/

def Preserves (I : σ → Prop) : Prop :=
  ∀ ⦃s l t⦄, sys.step s l = some t → I s → I t

variable {sys}

theorem Preserves.run {I : σ → Prop} (hI : sys.Preserves I) {s t : σ} {ls : List ℓ}
    (hrun : sys.run s ls = some t) (hs : I s) : I t := by
  induction ls generalizing s with
  | nil =>
      obtain rfl : s = t := by simpa using hrun
      exact hs
  | cons l ls ih =>
      obtain ⟨m, hstep, hrest⟩ := sys.run_cons_eq_some.mp hrun
      exact ih hrest (hI hstep hs)

/-! ### Conditions on the steps of a run -/

variable (sys)

/-- Every step of the run, taken in the state the run has then reached, meets the condition. -/
def Along (C : σ → ℓ → Prop) : σ → List ℓ → Prop
  | _, [] => True
  | s, l :: ls => C s l ∧ ∀ t, sys.step s l = some t → Along C t ls

@[simp]
theorem along_nil (C : σ → ℓ → Prop) (s : σ) : sys.Along C s [] := trivial

theorem along_cons_of_step {C : σ → ℓ → Prop} {s t : σ} {l : ℓ} (hstep : sys.step s l = some t)
    (ls : List ℓ) : sys.Along C s (l :: ls) ↔ C s l ∧ sys.Along C t ls := by
  simp [Along, hstep]

instance decidableAlong {C : σ → ℓ → Prop} [∀ s l, Decidable (C s l)] :
    ∀ s ls, Decidable (sys.Along C s ls)
  | _, [] => isTrue trivial
  | s, l :: ls =>
      match hstep : sys.step s l with
      | none => decidable_of_iff (C s l) (by simp [Along, hstep])
      | some t =>
          have := decidableAlong (C := C) t ls
          decidable_of_iff (C s l ∧ sys.Along C t ls) (sys.along_cons_of_step hstep ls).symm

theorem along_of_forall {C : σ → ℓ → Prop} (h : ∀ s l, C s l) (s : σ) (ls : List ℓ) :
    sys.Along C s ls := by
  induction ls generalizing s with
  | nil => trivial
  | cons l ls ih => exact ⟨h s l, fun t _ => ih t⟩

variable {sys}

theorem along_append {C : σ → ℓ → Prop} {s m : σ} {ls ls' : List ℓ}
    (hrun : sys.run s ls = some m) :
    sys.Along C s (ls ++ ls') ↔ sys.Along C s ls ∧ sys.Along C m ls' := by
  induction ls generalizing s with
  | nil =>
      obtain rfl : s = m := by simpa using hrun
      simp
  | cons l ls ih =>
      obtain ⟨t, hstep, hrest⟩ := sys.run_cons_eq_some.mp hrun
      rw [List.cons_append, sys.along_cons_of_step hstep, sys.along_cons_of_step hstep, ih hrest,
        and_assoc]

theorem along_iff_forall_mem {C : ℓ → Prop} {s t : σ} {ls : List ℓ}
    (hrun : sys.run s ls = some t) : sys.Along (fun _ => C) s ls ↔ ∀ l ∈ ls, C l := by
  induction ls generalizing s with
  | nil => simp
  | cons l ls ih =>
      obtain ⟨m, hstep, hrest⟩ := sys.run_cons_eq_some.mp hrun
      rw [sys.along_cons_of_step hstep, ih hrest, List.forall_mem_cons]

theorem along_congr {C D : σ → ℓ → Prop} {ls : List ℓ} (hCD : ∀ s, ∀ l ∈ ls, (C s l ↔ D s l))
    (s : σ) : sys.Along C s ls ↔ sys.Along D s ls := by
  induction ls generalizing s with
  | nil => exact Iff.rfl
  | cons l ls ih =>
      have hhead := hCD s l List.mem_cons_self
      have htail := ih fun s l' hl' => hCD s l' (List.mem_cons_of_mem l hl')
      exact and_congr hhead (forall_congr' fun t => imp_congr_right fun _ => htail t)

theorem Along.and {C D : σ → ℓ → Prop} {s : σ} {ls : List ℓ} (hC : sys.Along C s ls)
    (hD : sys.Along D s ls) : sys.Along (fun s l => C s l ∧ D s l) s ls := by
  induction ls generalizing s with
  | nil => trivial
  | cons l ls ih =>
      exact ⟨⟨hC.1, hD.1⟩, fun t hstep => ih (hC.2 t hstep) (hD.2 t hstep)⟩

theorem Along.invariant {C : σ → ℓ → Prop} {I : σ → Prop}
    (hI : ∀ s l t, sys.step s l = some t → C s l → I s → I t) {s t : σ} {ls : List ℓ}
    (hrun : sys.run s ls = some t) (hC : sys.Along C s ls) (hs : I s) : I t := by
  induction ls generalizing s with
  | nil =>
      obtain rfl : s = t := by simpa using hrun
      exact hs
  | cons l ls ih =>
      obtain ⟨m, hstep, hrest⟩ := sys.run_cons_eq_some.mp hrun
      exact ih hrest (hC.2 m hstep) (hI s l m hstep hC.1 hs)

/-- A condition that follows, at the steps that meet `C`, from an invariant that these steps keep
holds along every run of them. -/
theorem Along.of_invariant {C D : σ → ℓ → Prop} {I : σ → Prop}
    (hI : ∀ s l t, sys.step s l = some t → C s l → I s → I t)
    (hD : ∀ s l t, sys.step s l = some t → C s l → I s → D s l) {s t : σ} {ls : List ℓ}
    (hrun : sys.run s ls = some t) (hC : sys.Along C s ls) (hs : I s) : sys.Along D s ls := by
  induction ls generalizing s with
  | nil => trivial
  | cons l ls ih =>
      obtain ⟨m, hstep, hrest⟩ := sys.run_cons_eq_some.mp hrun
      have hhead := hD s l m hstep hC.1 hs
      have htail := ih hrest (hC.2 m hstep) (hI s l m hstep hC.1 hs)
      exact (sys.along_cons_of_step hstep ls).mpr ⟨hhead, htail⟩

/-- **Exact conditions.** Steps that meet `C` stay in `Good`, the first step that does not enters
`Bad`, and `Bad` is never left: a run from `Good` ends in `Good` when all its steps meet `C`, and in
`Bad` otherwise. -/
theorem run_good_or_bad {C : σ → ℓ → Prop} {Good Bad : σ → Prop}
    (hgood : ∀ s l t, sys.step s l = some t → Good s → C s l → Good t)
    (henter : ∀ s l t, sys.step s l = some t → Good s → ¬C s l → Bad t)
    (hbad : sys.Preserves Bad) {s t : σ} {ls : List ℓ}
    (hrun : sys.run s ls = some t) (hs : Good s) :
    (sys.Along C s ls ∧ Good t) ∨ (¬sys.Along C s ls ∧ Bad t) := by
  induction ls generalizing s with
  | nil =>
      obtain rfl : s = t := by simpa using hrun
      exact Or.inl ⟨trivial, hs⟩
  | cons l ls ih =>
      obtain ⟨m, hstep, hrest⟩ := sys.run_cons_eq_some.mp hrun
      rw [sys.along_cons_of_step hstep]
      by_cases hC : C s l
      · rcases ih hrest (hgood s l m hstep hs hC) with ⟨halong, hend⟩ | ⟨halong, hend⟩
        · exact Or.inl ⟨⟨hC, halong⟩, hend⟩
        · exact Or.inr ⟨fun h => halong h.2, hend⟩
      · exact Or.inr ⟨fun h => hC h.1, hbad.run hrest (henter s l m hstep hs hC)⟩

/-! ### Bounded work -/

/-- When every step pays for its kind out of a budget that no step refills, the kind occurs no more
often than the budget allows. -/
theorem count_add_budget_le {I : σ → Prop} (hI : sys.Preserves I) (costs : ℓ → Bool)
    (budget : σ → Nat)
    (hstep : ∀ s l t, sys.step s l = some t → I s → (costs l).toNat + budget t ≤ budget s)
    {s t : σ} {ls : List ℓ} (hrun : sys.run s ls = some t) (hs : I s) :
    ls.countP costs + budget t ≤ budget s := by
  induction ls generalizing s with
  | nil =>
      obtain rfl : s = t := by simpa using hrun
      simp
  | cons l ls ih =>
      obtain ⟨m, hfirst, hrest⟩ := sys.run_cons_eq_some.mp hrun
      have hpaid := hstep s l m hfirst hs
      have htail := ih hrest (hI hfirst hs)
      have hcount : (l :: ls).countP costs = (costs l).toNat + ls.countP costs := by
        rw [List.countP_cons, Nat.add_comm]
        cases costs l <;> rfl
      calc (l :: ls).countP costs + budget t
          = (costs l).toNat + (ls.countP costs + budget t) := by rw [hcount, Nat.add_assoc]
        _ ≤ (costs l).toNat + budget m := Nat.add_le_add_left htail _
        _ ≤ budget s := hpaid

end System

end Transition
