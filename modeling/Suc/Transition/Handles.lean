import Mathlib.Logic.Function.Basic
import Suc.Transition.Simulation

/-!
# Handles

A name stands for a resource from its acquisition to its release, and may be given to another one
afterwards. The serial number of an acquisition tells the resources apart that one name stands for in
turn. A run acquires no name that is taken and releases none that is free; each resource it acquires
is then released once, or not at all and still held.
-/

namespace Transition

variable {ν : Type*}

structure Handles (ν : Type*) where
  serial : ν → Option Nat
  next : Nat
  lt_next : ∀ {n d}, serial n = some d → d < next
  inj : ∀ {n m d}, serial n = some d → serial m = some d → n = m

inductive HandleLabel (ν : Type*) where
  | acquire (name : ν)
  | release (name : ν)
  deriving DecidableEq, Repr

namespace Handles

variable (s : Handles ν)

def empty : Handles ν where
  serial _ := none
  next := 0
  lt_next h := nomatch h
  inj h := nomatch h

/-- The resource has been acquired and released. -/
def Past (d : Nat) : Prop := d < s.next ∧ ∀ n, s.serial n ≠ some d

theorem not_past_of_le {s : Handles ν} {d : Nat} (hd : s.next ≤ d) : ¬s.Past d :=
  fun h => Nat.not_lt.mpr hd h.1

variable [DecidableEq ν]

def acquired (n : ν) : Handles ν where
  serial := Function.update s.serial n (some s.next)
  next := s.next + 1
  lt_next {m d} h := by
    by_cases heq : m = n
    · subst heq
      obtain rfl : s.next = d := by simpa using h
      exact Nat.lt_succ_self _
    · rw [Function.update_of_ne heq] at h
      exact Nat.lt_succ_of_lt (s.lt_next h)
  inj {m m' d} h h' := by
    -- a serial number that was given before is not the next one
    have hold {k : ν} (hne : k ≠ n) (hk : Function.update s.serial n (some s.next) k = some d) :
        d < s.next := by
      rw [Function.update_of_ne hne] at hk
      exact s.lt_next hk
    have hnew {k : ν} (heq : k = n) (hk : Function.update s.serial n (some s.next) k = some d) :
        d = s.next := by
      simpa [heq] using hk.symm
    by_cases hm : m = n <;> by_cases hm' : m' = n
    · rw [hm, hm']
    · exact absurd (hnew hm h) (Nat.ne_of_lt (hold hm' h'))
    · exact absurd (hnew hm' h') (Nat.ne_of_lt (hold hm h))
    · rw [Function.update_of_ne hm] at h
      rw [Function.update_of_ne hm'] at h'
      exact s.inj h h'

def released (n : ν) : Handles ν where
  serial := Function.update s.serial n none
  next := s.next
  lt_next {m d} h := by
    by_cases heq : m = n
    · simp [heq] at h
    · rw [Function.update_of_ne heq] at h
      exact s.lt_next h
  inj {m m' d} h h' := by
    have hold {k : ν} (hk : Function.update s.serial n none k = some d) : s.serial k = some d := by
      by_cases heq : k = n
      · simp [heq] at hk
      · rwa [Function.update_of_ne heq] at hk
    exact s.inj (hold h) (hold h')

def step : HandleLabel ν → Option (Handles ν)
  | .acquire n => if s.serial n = none then some (s.acquired n) else none
  | .release n => if s.serial n = none then none else some (s.released n)

/-- What a step releases. -/
def releases : HandleLabel ν → List Nat
  | .acquire _ => []
  | .release n => (s.serial n).toList

end Handles

def handles (ν : Type*) [DecidableEq ν] : System (Handles ν) (HandleLabel ν) where
  step s l := s.step l

namespace Handles

variable [DecidableEq ν] {s t : Handles ν}

theorem serial_acquired (n m : ν) :
    (s.acquired n).serial m = if m = n then some s.next else s.serial m :=
  Function.update_apply ..

theorem serial_released (n m : ν) :
    (s.released n).serial m = if m = n then none else s.serial m :=
  Function.update_apply ..

theorem step_acquire {n : ν} (hn : s.serial n = none) :
    (handles ν).step s (.acquire n) = some (s.acquired n) :=
  if_pos hn

theorem step_release {n : ν} {d : Nat} (hn : s.serial n = some d) :
    (handles ν).step s (.release n) = some (s.released n) :=
  if_neg (by simp [hn])

theorem step_cases {l : HandleLabel ν} (hstep : (handles ν).step s l = some t) :
    (∃ n, l = .acquire n ∧ s.serial n = none ∧ t = s.acquired n) ∨
      ∃ n d, l = .release n ∧ s.serial n = some d ∧ t = s.released n := by
  cases l with
  | acquire n =>
      by_cases hn : s.serial n = none
      · rw [step_acquire hn] at hstep
        exact Or.inl ⟨n, rfl, hn, (Option.some.inj hstep).symm⟩
      · simp [handles, step, hn] at hstep
  | release n =>
      by_cases hn : s.serial n = none
      · simp [handles, step, hn] at hstep
      · obtain ⟨d, hd⟩ := Option.ne_none_iff_exists'.mp hn
        rw [step_release hd] at hstep
        exact Or.inr ⟨n, d, rfl, hd, (Option.some.inj hstep).symm⟩

/-- An acquisition takes a free name, so whatever was held is held still. -/
theorem past_acquired {n : ν} (hn : s.serial n = none) (d : Nat) :
    (s.acquired n).Past d ↔ s.Past d := by
  constructor
  · rintro ⟨hlt, hfree⟩
    have hne : d ≠ s.next := by
      rintro rfl
      exact hfree n (Function.update_self ..)
    refine ⟨by simp only [acquired] at hlt; omega, fun m hm => hfree m ?_⟩
    have hmn : m ≠ n := by
      rintro rfl
      simp [hn] at hm
    simpa [acquired, hmn] using hm
  · rintro ⟨hlt, hfree⟩
    refine ⟨Nat.lt_succ_of_lt hlt, fun m hm => ?_⟩
    by_cases hmn : m = n
    · have hd : s.next = d := by simpa [acquired, hmn] using hm
      omega
    · exact hfree m (by simpa [acquired, hmn] using hm)

theorem past_released {n : ν} {d : Nat} (hn : s.serial n = some d) (d' : Nat) :
    (s.released n).Past d' ↔ s.Past d' ∨ d' = d := by
  constructor
  · rintro ⟨hlt, hfree⟩
    by_cases heq : d' = d
    · exact Or.inr heq
    · refine Or.inl ⟨hlt, fun m hm => hfree m ?_⟩
      have hmn : m ≠ n := by
        rintro rfl
        rw [hn] at hm
        exact heq (Option.some.inj hm).symm
      simpa [released, hmn] using hm
  · rintro (⟨hlt, hfree⟩ | rfl)
    · refine ⟨hlt, fun m hm => ?_⟩
      by_cases hmn : m = n
      · simp [released, hmn] at hm
      · exact hfree m (by simpa [released, hmn] using hm)
    · refine ⟨s.lt_next hn, fun m hm => ?_⟩
      by_cases hmn : m = n
      · simp [released, hmn] at hm
      · have hm' : s.serial m = some d' := by simpa [released, hmn] using hm
        exact hmn (s.inj hm' hn)

open Classical in
/-- **Released once.** A resource is released when it becomes past, and at no other time. -/
theorem count_releases {ls : List (HandleLabel ν)} (hrun : (handles ν).run s ls = some t) (d : Nat) :
    ((handles ν).shown releases s ls).count d + (if s.Past d then 1 else 0) =
      if t.Past d then 1 else 0 := by
  refine System.count_shown_add (m := fun s : Handles ν => if s.Past d then 1 else 0) ?_ hrun
  intro s l t hstep
  rcases step_cases hstep with ⟨n, rfl, hn, rfl⟩ | ⟨n, d', rfl, hn, rfl⟩
  · simp [releases, past_acquired hn]
  · have hheld : ¬s.Past d' := fun h => h.2 n hn
    by_cases heq : d = d'
    · subst heq
      simp [releases, hn, past_released hn, hheld]
    · have hne : ¬d' = d := fun h => heq h.symm
      simp [releases, hn, past_released hn, heq, hne]

theorem count_releases_le_one {ls : List (HandleLabel ν)} (hrun : (handles ν).run s ls = some t)
    (d : Nat) : ((handles ν).shown releases s ls).count d ≤ 1 := by
  have hcount := count_releases hrun d
  split at hcount <;> split at hcount <;> omega

/-- A resource acquired in a run is held at its end or has been released in it once. -/
theorem count_releases_of_new {ls : List (HandleLabel ν)} (hrun : (handles ν).run s ls = some t)
    {d : Nat} (hold : s.next ≤ d) (hnew : d < t.next) :
    (∃ n, t.serial n = some d) ∧ ((handles ν).shown releases s ls).count d = 0 ∨
      (∀ n, t.serial n ≠ some d) ∧ ((handles ν).shown releases s ls).count d = 1 := by
  have hcount := count_releases hrun d
  rw [if_neg (not_past_of_le hold), Nat.add_zero] at hcount
  by_cases hheld : ∃ n, t.serial n = some d
  · have hpast : ¬t.Past d := fun h => by
      obtain ⟨n, hn⟩ := hheld
      exact h.2 n hn
    exact Or.inl ⟨hheld, by rw [hcount, if_neg hpast]⟩
  · have hfree : ∀ n, t.serial n ≠ some d := fun n hn => hheld ⟨n, hn⟩
    exact Or.inr ⟨hfree, by rw [hcount, if_pos ⟨hnew, hfree⟩]⟩

end Handles

end Transition
