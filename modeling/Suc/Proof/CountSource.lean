import Suc.Epl.Services
import Suc.Proof.Rounds

/-!
# Sources that hand over one number

The lambdas of `EventFd` and `TimerFd` read a number and call their function with it, whatever the read
does to the descriptor. What can be read when a wait reports such a source is handed over in its round.
-/

namespace Suc.Epl

open Transition

variable {κ δ α ο H G ι ε : Type}

namespace CountPos

variable {read : α → δ → Except Exception Nat × δ} {service : Service δ (CountPos H) α ο H}

/-! ### One source by itself -/

/-- The number that is read. -/
def given (read : α → δ → Except Exception Nat × δ) (s : Solo δ (CountPos H)) :
    SoloLabel α ο H → List Nat
  | .act choice =>
      match s.pos with
      | some (.reading _) => (read choice s.state).1.toOption.toList
      | _ => []
  | _ => []

/-- The lambda reads and goes on to its function, or its read fails; nothing else that it does concerns
the descriptor. -/
theorem act_cases (hwork : service.work = countWork read) {s t : Solo δ (CountPos H)} {choice : α}
    (hstep : service.solo.step s (.act choice) = some t) :
    (∃ func value state, s.pos = some (.reading func) ∧ read choice s.state = (.ok value, state) ∧
        t = ⟨state, some (.calling func value)⟩) ∨
      (∃ func exc state, s.pos = some (.reading func) ∧ read choice s.state = (.error exc, state) ∧
        t = ⟨state, none⟩) ∨
      s.pos = some .ending ∧ t = ⟨s.state, none⟩ := by
  obtain ⟨state, pos⟩ := s
  cases pos with
  | none => cases hstep
  | some pos =>
      simp only [Service.solo, Service.soloStep, hwork, Option.bind_some] at hstep
      cases pos with
      | reading func =>
          rcases hread : read choice state with ⟨exc | value, state'⟩ <;>
            simp only [countWork, hread, Option.map_some, Option.some.injEq, Next.pos] at hstep
          · exact Or.inr (Or.inl ⟨func, exc, state', rfl, rfl, hstep.symm⟩)
          · exact Or.inl ⟨func, value, state', rfl, rfl, hstep.symm⟩
      | calling func value => cases hstep
      | ending =>
          cases hstep
          exact Or.inr (Or.inr ⟨rfl, rfl⟩)

theorem calling_of_user (hwork : service.work = countWork read) {pos back : CountPos H}
    (h : service.work pos = .user back) : ∃ func value, pos = .calling func value ∧ back = .ending := by
  rw [hwork] at h
  cases pos with
  | calling func value =>
      cases h
      exact ⟨func, value, rfl, rfl⟩
  | _ => cases h

/-- What can be read stays there until it is read, as long as the steps meet the condition. -/
structure Kept (service : Service δ (CountPos H) α ο H) (read : α → δ → Except Exception Nat × δ)
    (available : δ → Nat) (C : Solo δ (CountPos H) → SoloLabel α ο H → Prop) : Prop where
  enter : service.enter = .reading
  work : service.work = countWork read
  outside : ∀ s op, C s (.outside op) → available s.state ≤ available (service.outside s.state op)
  ok : ∀ s choice value state, C s (.act choice) → read choice s.state = (.ok value, state) →
    available s.state ≤ value
  error : ∀ s func choice exc state, C s (.act choice) → s.pos = some (.reading func) →
    read choice s.state = (.error exc, state) → available s.state = 0

/-- What could be read at first has been handed over, or can still be read. -/
def Pending (available : δ → Nat) (n : Nat) (h : List Nat) (s : Solo δ (CountPos H)) : Prop :=
  n ≤ h.sum + available s.state

/-- It has been handed over, or the lambda is about to read. -/
def Served (available : δ → Nat) (n : Nat) (h : List Nat) (s : Solo δ (CountPos H)) : Prop :=
  Pending available n h s ∧ ((∃ func, s.pos = some (.reading func)) ∨ n ≤ h.sum)

variable {available : δ → Nat} {C : Solo δ (CountPos H) → SoloLabel α ο H → Prop}
  (hkept : Kept service read available C) {n : Nat} {h : List Nat} {s t : Solo δ (CountPos H)}

include hkept

theorem Pending.step {l : SoloLabel α ο H} (hstep : service.solo.step s l = some t) (hC : C s l)
    (hs : Pending available n h s) : Pending available n (h ++ given read s l) t := by
  rw [Pending] at hs ⊢
  cases l with
  | outside op =>
      cases hstep
      have hle := hkept.outside s op hC
      simp only [given, List.append_nil]
      omega
  | enter func =>
      obtain ⟨-, rfl⟩ := Service.eq_of_enter hstep
      simpa [given] using hs
  | act choice =>
      rcases act_cases hkept.work hstep with ⟨func, value, state, hpos, hread, rfl⟩ |
        ⟨func, exc, state, hpos, hread, rfl⟩ | ⟨hpos, rfl⟩
      · have hle := hkept.ok s choice value state hC hread
        simp [given, hpos, hread, Except.toOption]
        omega
      · have hzero := hkept.error s func choice exc state hC hpos hread
        simp [given, hpos, hread, Except.toOption]
        omega
      · simpa [given, hpos] using hs
  | returns =>
      obtain ⟨pos, back, -, -, rfl⟩ := Service.eq_of_returns hstep
      simpa [given] using hs
  | throws exc =>
      obtain ⟨pos, back, -, -, rfl⟩ := Service.eq_of_throws hstep
      simpa [given] using hs

theorem Served.step {l : SoloLabel α ο H} (hstep : service.solo.step s l = some t) (hC : C s l)
    (hs : Served available n h s) : Served available n (h ++ given read s l) t := by
  refine ⟨hs.1.step hkept hstep hC, ?_⟩
  obtain ⟨hpending, hserved⟩ := hs
  rw [Pending] at hpending
  cases l with
  | outside op =>
      cases hstep
      simpa [given] using hserved
  | enter func =>
      obtain ⟨-, rfl⟩ := Service.eq_of_enter hstep
      exact Or.inl ⟨func, congrArg some (congrFun hkept.enter func)⟩
  | act choice =>
      refine Or.inr ?_
      rcases act_cases hkept.work hstep with ⟨func, value, state, hpos, hread, rfl⟩ |
        ⟨func, exc, state, hpos, hread, rfl⟩ | ⟨hpos, rfl⟩
      · have hle := hkept.ok s choice value state hC hread
        simp [given, hpos, hread, Except.toOption]
        omega
      · have hzero := hkept.error s func choice exc state hC hpos hread
        simp [given, hpos, hread, Except.toOption]
        omega
      · rw [hpos] at hserved
        simpa [given, hpos] using hserved
  | returns =>
      obtain ⟨pos, back, hpos, hwork, rfl⟩ := Service.eq_of_returns hstep
      obtain ⟨func, value, rfl, rfl⟩ := calling_of_user hkept.work hwork
      rw [hpos] at hserved
      simpa [given] using hserved
  | throws exc =>
      obtain ⟨pos, back, hpos, hwork, rfl⟩ := Service.eq_of_throws hstep
      obtain ⟨func, value, rfl, rfl⟩ := calling_of_user hkept.work hwork
      rw [hpos] at hserved
      simpa [given] using hserved

theorem Pending.entered {func : H} (hstep : service.solo.step s (.enter func) = some t)
    (hs : Pending available n h s) :
    Served available n (h ++ given (ο := ο) read s (.enter func)) t := by
  obtain ⟨-, rfl⟩ := Service.eq_of_enter hstep
  refine ⟨?_, Or.inl ⟨func, congrArg some (congrFun hkept.enter func)⟩⟩
  simpa [Pending, given] using hs

omit hkept

/-! ### Many sources -/

variable [DecidableEq κ]

/-- The number that the lambda of the source reads and calls its function with. -/
def handed (read : α → δ → Except Exception Nat × δ) (k : κ)
    (s : Sources κ δ (CountPos H) H G ι ε) : SourcesLabel κ α ο H G ι ε → List Nat
  | .act e choice =>
      match s.frame e, s.source k with
      | some (k', .reading _), .alive _ state =>
          if k' = k then (read choice state).1.toOption.toList else []
      | _, _ => []
  | _ => []

theorem given_history (hwork : service.work = countWork read) (k : κ)
    {s : Sources κ δ (CountPos H) H G ι ε} (h : s.Inv) (l : SourcesLabel κ α ο H G ι ε) :
    s.history service (given read) k l = handed read k s l := by
  cases l with
  | act e choice =>
      cases hframe : s.frame e with
      | none => simp [Sources.history, Sources.soloSteps, handed, hframe]
      | some r =>
          obtain ⟨k', pos⟩ := r
          by_cases heq : k' = k
          · subst heq
            have hpos := Sources.posOf_eq_some h hframe
            cases pos <;> cases hsource : s.source k' <;>
              simp [Sources.history, Sources.soloSteps, Sources.soloOf, given, handed, hframe, hpos,
                hsource, hwork, countWork, Source.state]
          · cases pos <;> cases hsource : s.source k <;>
              simp [Sources.history, Sources.soloSteps, handed, hframe, hsource, heq]
  | outside k' op =>
      by_cases heq : k' = k <;> simp [Sources.history, Sources.soloSteps, given, handed, heq]
  | loop l =>
      refine List.flatMap_eq_nil_iff.mpr fun a ha => ?_
      cases Sources.shows_of_mem ha <;> rfl
  | _ => rfl

variable [DecidableEq ι] [DecidableEq ε]

/-- The numbers that the functions of the source are called with. -/
def handedAt (service : Service δ (CountPos H) α ο H) (read : α → δ → Except Exception Nat × δ)
    (k : κ) (s : Sources κ δ (CountPos H) H G ι ε) (ls : List (SourcesLabel κ α ο H G ι ε)) :
    List Nat :=
  (sources κ G ι ε service).shown (handed read k) s ls

/-- **Read in the round.** What can be read when a wait reports the source is handed over before the loop
waits again. -/
theorem Kept.round {k : κ} {e : ε} {batch : List Report} {r : Report}
    {ls : List (SourcesLabel κ α ο H G ι ε)} {s u t : Sources κ δ (CountPos H) H G ι ε}
    (hkept : Kept service read available C) (hs : s.Inv)
    (hwoken : (sources κ G ι ε service).step s (.loop (.exec e (.woken (.ok batch)))) = some u)
    (hrun : (sources κ G ι ε service).run u ls = some t)
    (hr : r ∈ batch) (hbit : r.events &&& epollIn ≠ 0#32)
    (hinstalled : (sources κ G ι ε service).Along (fun s _ => s.Installed k r.fd) u ls)
    (hend : t.loop.execs e = .whileTest) (hrunning : t.loop.queue.state = .running)
    (hC : (sources κ G ι ε service).Along (Sources.Does service C k) u ls) :
    available ((s.source k).state service.created) ≤ (handedAt service read k u ls).sum := by
  have hu := Sources.inv_preserved service hwoken hs
  obtain ⟨⟨-, hserved⟩, hpos⟩ := Sources.round_invariant (given read) (C := C)
    (J := Pending available (available ((s.source k).state service.created)))
    (K := Served available (available ((s.source k).state service.created)))
    (fun _ _ _ _ => Pending.step hkept) (fun _ _ _ _ => Pending.entered hkept)
    (fun _ _ _ _ => Served.step hkept) hs hwoken hrun hr hbit hinstalled hend hrunning hC
    (Nat.le_add_left ..)
  have hshown : (sources κ G ι ε service).shown (Sources.history service (given read) k) u ls =
      handedAt service read k u ls :=
    System.shown_congr (Sources.inv_preserved service)
      (fun s l h => given_history hkept.work k h l) hrun hu
  rw [hpos, hshown] at hserved
  exact hserved.resolve_left (by simp)

end CountPos

end Suc.Epl
