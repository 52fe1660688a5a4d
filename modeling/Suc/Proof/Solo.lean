import Suc.Proof.Sources
import Suc.Transition.Simulation

/-!
# One source by itself

What one source does in a run of many is a run of it alone: its lambda is entered when no lambda is
running, it goes on by its own steps and by those of its function, and between them other threads use
the object. What holds of a source alone holds of each of any number of them on one event queue.
-/

namespace Suc.Epl

open Transition

variable {κ δ π α ο μ ν H G ι ε : Type}

structure Solo (δ π : Type) where
  state : δ
  pos : Option π
  deriving DecidableEq, Repr

inductive SoloLabel (α ο H : Type) where
  | outside (op : ο)
  | enter (func : H)
  | act (choice : α)
  | returns
  | throws (exc : Thrown)
  deriving DecidableEq, Repr

def SoloLabel.outside? : SoloLabel α ο H → Option ο
  | .outside op => some op
  | _ => none

def SourcesLabel.outside? [DecidableEq κ] (k : κ) : SourcesLabel κ α ο H G ι ε → Option ο
  | .outside k' op => if k' = k then some op else none
  | _ => none

def Next.pos : Next π → Option π
  | .goesOn pos => some pos
  | .returns | .throws _ => none

namespace Service

variable (service : Service δ π α ο H)

def soloStep (s : Solo δ π) : SoloLabel α ο H → Option (Solo δ π)
  | .outside op => some { s with state := service.outside s.state op }
  | .enter func =>
      match s.pos with
      | none => some { s with pos := some (service.enter func) }
      | some _ => none
  | .act choice =>
      s.pos.bind fun pos =>
        match service.work pos with
        | .user _ => none
        | .frame next => some { s with pos := next.pos }
        | .object use => (use choice s.state).map fun r => ⟨r.1, r.2.pos⟩
  | .returns =>
      s.pos.bind fun pos =>
        match service.work pos with
        | .user back => some { s with pos := some back }
        | _ => none
  | .throws _ =>
      s.pos.bind fun pos =>
        match service.work pos with
        | .user _ => some { s with pos := none }
        | _ => none

def solo : System (Solo δ π) (SoloLabel α ο H) where
  step := service.soloStep

def soloStart : Solo δ π := ⟨service.created, none⟩

variable {service}

theorem eq_of_enter {s t : Solo δ π} {func : H} (h : service.solo.step s (.enter func) = some t) :
    s.pos = none ∧ t = ⟨s.state, some (service.enter func)⟩ := by
  obtain ⟨state, pos⟩ := s
  cases pos with
  | none =>
      cases h
      exact ⟨rfl, rfl⟩
  | some pos => cases h

theorem eq_of_returns {s t : Solo δ π} (h : service.solo.step s .returns = some t) :
    ∃ pos back, s.pos = some pos ∧ service.work pos = .user back ∧ t = ⟨s.state, some back⟩ := by
  obtain ⟨state, pos⟩ := s
  cases pos with
  | none => cases h
  | some pos =>
      simp only [solo, soloStep, Option.bind_some] at h
      split at h
      · rename_i back hwork
        exact ⟨pos, back, rfl, hwork, (Option.some.inj h).symm⟩
      · cases h

theorem eq_of_throws {s t : Solo δ π} {exc : Thrown}
    (h : service.solo.step s (.throws exc) = some t) :
    ∃ pos back, s.pos = some pos ∧ service.work pos = .user back ∧ t = ⟨s.state, none⟩ := by
  obtain ⟨state, pos⟩ := s
  cases pos with
  | none => cases h
  | some pos =>
      simp only [solo, soloStep, Option.bind_some] at h
      split at h
      · rename_i back hwork
        exact ⟨pos, back, rfl, hwork, (Option.some.inj h).symm⟩
      · cases h

end Service

def Source.state (created : δ) : Source δ → δ
  | .unborn => created
  | .alive _ state | .dead state => state

namespace Sources

open Classical in
/-- Where the lambda of the source stands, if it is running. -/
noncomputable def posOf (frame : ε → Option (κ × π)) (k : κ) : Option π :=
  if h : ∃ e pos, frame e = some (k, pos) then some h.choose_spec.choose else none

noncomputable def soloOf (service : Service δ π α ο H) (k : κ) (s : Sources κ δ π H G ι ε) :
    Solo δ π :=
  ⟨(s.source k).state service.created, posOf s.frame k⟩

variable {s t : Sources κ δ π H G ι ε} {k : κ}

theorem posOf_eq_some (h : s.Inv) {e : ε} {pos : π} (hframe : s.frame e = some (k, pos)) :
    posOf s.frame k = some pos := by
  have hex : ∃ e pos, s.frame e = some (k, pos) := ⟨e, pos, hframe⟩
  obtain ⟨e', pos', hframe', hposOf⟩ :
      ∃ e' pos', s.frame e' = some (k, pos') ∧ posOf s.frame k = some pos' :=
    ⟨_, _, hex.choose_spec.choose_spec, dif_pos hex⟩
  obtain rfl := h.unique hframe hframe'
  obtain ⟨-, rfl⟩ := Prod.mk.inj (Option.some.inj (hframe.symm.trans hframe'))
  exact hposOf

theorem posOf_eq_none {frame : ε → Option (κ × π)} (hnone : ∀ e pos, frame e ≠ some (k, pos)) :
    posOf frame k = none :=
  dif_neg fun ⟨e, pos, hframe⟩ => hnone e pos hframe

theorem posOf_of_none {frame : ε → Option (κ × π)} (hnone : ∀ e, frame e = none) :
    posOf frame k = none :=
  posOf_eq_none fun e pos hframe => by simp [hnone e] at hframe

theorem posOf_eq_none_of_ne (h : s.Inv) {e : ε} {k' : κ} {pos : π}
    (hframe : s.frame e = some (k', pos)) (hne : k' ≠ k) : posOf s.frame k = none := by
  refine posOf_eq_none fun e' pos' hframe' => ?_
  obtain rfl := h.unique hframe hframe'
  obtain ⟨heq, -⟩ := Prod.mk.inj (Option.some.inj (hframe.symm.trans hframe'))
  exact hne heq

/-- There is no other frame. -/
theorem frame_eq_none_of_ne (h : s.Inv) {e e' : ε} {k' : κ} {pos : π}
    (hframe : s.frame e = some (k', pos)) (hne : e' ≠ e) : s.frame e' = none := by
  cases hframe' : s.frame e' with
  | none => rfl
  | some r => exact absurd (h.unique hframe' hframe) hne

section

variable [DecidableEq ε]

theorem posOf_of_left (h : s.Inv) {e : ε} {k' : κ} {pos : π}
    (hframe : s.frame e = some (k', pos)) : posOf (Function.update s.frame e none) k = none := by
  refine posOf_of_none fun e' => ?_
  by_cases heq : e' = e
  · rw [heq]
    exact Function.update_self ..
  · exact (Function.update_of_ne heq ..).trans (frame_eq_none_of_ne h hframe heq)

variable [DecidableEq ι]

/-- A lambda is entered while no other one runs. -/
theorem frame_of_invoke (h : s.Inv) {e : ε} {loop : Loop (Callable (κ × H) G) ι ε}
    (hloop : (eventLoop (Callable (κ × H) G) ι ε).step s.loop (.exec e .invoke) = some loop) :
    (∃ c func, s.loop.execs e = .scan c ∧ c.due s.loop.queue = some func ∧
        loop.execs e = .callback c func none) ∧ ∀ e', s.frame e' = none := by
  obtain ⟨hmove, -, -⟩ := Loop.step_exec hloop
  generalize hscan : s.loop.execs e = pos at hmove
  generalize hcallback : loop.execs e = pos' at hmove
  generalize loop.queue = queue at hmove
  cases hmove with
  | invoke c func hdue =>
      refine ⟨⟨c, func, rfl, hdue, rfl⟩, fun e' => ?_⟩
      cases hframe : s.frame e' with
      | none => rfl
      | some r =>
          have hentered : (s.loop.execs e).Entered := by
            simp [ExecPos.Entered, hscan, ExecPos.place]
          obtain rfl := h.exec.unique e' e (h.entered hframe) hentered
          obtain ⟨c', func', stopping, hpos⟩ := h.framed e' r.1 r.2 hframe
          rw [hscan] at hpos
          cases hpos

end

theorem soloOf_start (service : Service δ π α ο H) (k : κ) (epfd evtfd : Cmn.Fd) (wake : G) :
    (start epfd evtfd wake : Sources κ δ π H G ι ε).soloOf service k = service.soloStart := by
  simp [soloOf, start, posOf_of_none, Source.state, Service.soloStart]

variable [DecidableEq κ]

/-- What a step does to the source. -/
def soloSteps (service : Service δ π α ο H) (k : κ) (s : Sources κ δ π H G ι ε) :
    SourcesLabel κ α ο H G ι ε → List (SoloLabel α ο H)
  | .outside k' op => if k' = k then [.outside op] else []
  | .act e choice =>
      match s.frame e with
      | some (k', pos) =>
          if k' = k then
            match service.work pos, s.source k with
            | .object _, .unborn | .object _, .dead _ => []
            | _, _ => [.act choice]
          else []
      | none => []
  | .loop (.exec e .invoke) =>
      match s.loop.execs e with
      | .scan c =>
          match c.due s.loop.queue with
          | some (.shot (k', func)) => if k' = k then [.enter func] else []
          | _ => []
      | _ => []
  | .loop (.exec e (.callback .returns)) =>
      match s.frame e with
      | some (k', _) => if k' = k then [.returns] else []
      | none => []
  | .loop (.exec e (.callback (.throws exc))) =>
      match s.frame e with
      | some (k', _) => if k' = k then [.throws exc] else []
      | none => []
  | _ => []

/-- A step of the sources is one step of the source alone, or none. -/
theorem soloSteps_cases (service : Service δ π α ο H) (k : κ) (s : Sources κ δ π H G ι ε)
    (l : SourcesLabel κ α ο H G ι ε) :
    s.soloSteps service k l = [] ∨ ∃ a, s.soloSteps service k l = [a] := by
  unfold soloSteps
  split <;> grind

/-- Where a step of the source alone comes from. -/
inductive Shows (k : κ) (s : Sources κ δ π H G ι ε) :
    SourcesLabel κ α ο H G ι ε → SoloLabel α ο H → Prop where
  | outside (op : ο) : Shows k s (.outside k op) (.outside op)
  | enter (e : ε) (c : Cursor) (func : H) (hscan : s.loop.execs e = .scan c) :
      Shows k s (.loop (.exec e .invoke)) (.enter func)
  | act (e : ε) (pos : π) (choice : α) (hframe : s.frame e = some (k, pos)) :
      Shows k s (.act e choice) (.act choice)
  | returns (e : ε) (pos : π) (hframe : s.frame e = some (k, pos)) :
      Shows k s (.loop (.exec e (.callback .returns))) .returns
  | throws (e : ε) (pos : π) (exc : Thrown) (hframe : s.frame e = some (k, pos)) :
      Shows k s (.loop (.exec e (.callback (.throws exc)))) (.throws exc)

theorem shows_of_mem {service : Service δ π α ο H} {l : SourcesLabel κ α ο H G ι ε}
    {a : SoloLabel α ο H} (h : a ∈ s.soloSteps service k l) : Shows k s l a := by
  unfold soloSteps at h
  split at h
  · split at h
    · rename_i heq
      subst heq
      obtain rfl := List.mem_singleton.mp h
      exact .outside _
    · cases h
  · split at h
    · rename_i k' pos hframe
      split at h
      · rename_i heq
        subst heq
        split at h
        · cases h
        · cases h
        · obtain rfl := List.mem_singleton.mp h
          exact .act _ pos _ hframe
      · cases h
    · cases h
  · split at h
    · rename_i c hscan
      split at h
      · split at h
        · obtain rfl := List.mem_singleton.mp h
          exact .enter _ c _ hscan
        · cases h
      · cases h
    · cases h
  · split at h
    · rename_i k' pos hframe
      split at h
      · rename_i heq
        subst heq
        obtain rfl := List.mem_singleton.mp h
        exact .returns _ pos hframe
      · cases h
    · cases h
  · split at h
    · rename_i k' pos hframe
      split at h
      · rename_i heq
        subst heq
        obtain rfl := List.mem_singleton.mp h
        exact .throws _ pos _ hframe
      · cases h
    · cases h
  · cases h

/-- Where the lambda of the source stands, if the call of `exec` that the label is of runs it. -/
def posAt (k : κ) (s : Sources κ δ π H G ι ε) : SourcesLabel κ α ο H G ι ε → Option π
  | .act e _ | .loop (.exec e _) =>
      (s.frame e).bind fun r => if r.1 = k then some r.2 else none
  | _ => none

/-- What is shown of a source in a run of many. -/
noncomputable def history (service : Service δ π α ο H)
    (emit : Solo δ π → SoloLabel α ο H → List μ) (k : κ) (s : Sources κ δ π H G ι ε)
    (l : SourcesLabel κ α ο H G ι ε) : List μ :=
  (s.soloSteps service k l).flatMap (emit (s.soloOf service k))

/-- The same, without a search for the call of `exec` that runs the lambda. -/
def seen (service : Service δ π α ο H) (emit : Solo δ π → SoloLabel α ο H → List μ) (k : κ)
    (s : Sources κ δ π H G ι ε) (l : SourcesLabel κ α ο H G ι ε) : List μ :=
  (s.soloSteps service k l).flatMap (emit ⟨(s.source k).state service.created, s.posAt k l⟩)

/-- What other threads do does not show where the lambda stands, so both show the same. -/
theorem history_eq_seen {service : Service δ π α ο H}
    {emit : Solo δ π → SoloLabel α ο H → List μ}
    (houtside : ∀ state pos op, emit ⟨state, pos⟩ (.outside op) = emit ⟨state, none⟩ (.outside op))
    (h : s.Inv) (l : SourcesLabel κ α ο H G ι ε) :
    s.history service emit k l = s.seen service emit k l := by
  refine List.flatMap_congr fun a ha => ?_
  cases shows_of_mem ha with
  | outside op => exact houtside _ _ op
  | enter e c func hscan =>
      have hentered : (s.loop.execs e).Entered := by
        simp [ExecPos.Entered, hscan, ExecPos.place]
      have hnone (e' : ε) (r : κ × π) : s.frame e' ≠ some r := by
        intro hframe
        obtain rfl := h.exec.unique e' e (h.entered hframe) hentered
        obtain ⟨c', func', stopping, hpos⟩ := h.framed e' r.1 r.2 hframe
        rw [hscan] at hpos
        cases hpos
      rw [soloOf, posOf_of_none fun e' => Option.eq_none_iff_forall_ne_some.mpr (hnone e'), posAt,
        Option.eq_none_iff_forall_ne_some.mpr (hnone e)]
      rfl
  | act e pos choice hframe | returns e pos hframe | throws e pos exc hframe =>
      rw [soloOf, posOf_eq_some h hframe, posAt, hframe]
      simp

theorem outside?_of_shows {l : SourcesLabel κ α ο H G ι ε} {a : SoloLabel α ο H}
    (h : Shows k s l a) : l.outside? k = a.outside? := by
  cases h with
  | outside op => exact if_pos rfl
  | _ => rfl

theorem filterMap_history {service : Service δ π α ο H}
    {emit : Solo δ π → SoloLabel α ο H → List μ} {g : μ → Option ν} {f : ο → List ν}
    (hemit : ∀ s a, (emit s a).filterMap g = a.outside?.elim [] f)
    (s : Sources κ δ π H G ι ε) (l : SourcesLabel κ α ο H G ι ε) :
    (s.history service emit k l).filterMap g = (l.outside? k).elim [] f := by
  rcases soloSteps_cases service k s l with hnone | ⟨a, hone⟩
  · rw [history, hnone]
    cases l with
    | outside k' op =>
        have hne : k' ≠ k := by
          rintro rfl
          simp [soloSteps] at hnone
        simp [SourcesLabel.outside?, hne]
    | _ => rfl
  · have hshows : Shows k s l a := shows_of_mem (hone ▸ List.mem_singleton_self a)
    rw [outside?_of_shows hshows, ← hemit (s.soloOf service k) a, history, hone]
    simp

/-- What the step does to the source, if it does anything to it, meets the condition. -/
def Does (service : Service δ π α ο H) (C : Solo δ π → SoloLabel α ο H → Prop) (k : κ)
    (s : Sources κ δ π H G ι ε) (l : SourcesLabel κ α ο H G ι ε) : Prop :=
  ∀ a ∈ s.soloSteps service k l, C (s.soloOf service k) a

theorem posOf_of_frame (h : s.Inv) {e : ε} {k' : κ} {pos : π}
    (hframe : s.frame e = some (k', pos)) : posOf s.frame k = if k' = k then some pos else none := by
  by_cases heq : k' = k
  · subst heq
    rw [posOf_eq_some h hframe, if_pos rfl]
  · rw [posOf_eq_none_of_ne h hframe heq, if_neg heq]

variable [DecidableEq ι] [DecidableEq ε]

theorem posOf_of_proceed (h : s.Inv) {e : ε} {k' : κ} {pos : π} {next : Next π}
    (hframe : s.frame e = some (k', pos)) (hnext : s.proceed e k' next = some t) :
    t.source = s.source ∧ posOf t.frame k = if k' = k then next.pos else none := by
  have ht := h.proceed hframe hnext
  rcases proceed_cases hnext with ⟨pos', rfl, rfl⟩ | ⟨hends, act, loop, -, -, rfl⟩
  · exact ⟨rfl, posOf_of_frame ht (Function.update_self ..)⟩
  · have hpos : next.pos = none := by
      cases next with
      | goesOn pos' => exact absurd rfl (hends pos')
      | returns | throws => rfl
    rw [hpos, ite_self]
    exact ⟨rfl, posOf_of_left h hframe⟩

/-- The loop takes no part in what a source does, unless it enters the lambda or the lambda's function
ends. -/
theorem soloSteps_of_looped {service : Service δ π α ο H} (h : s.Inv)
    {l : LoopLabel (Callable (κ × H) G) ι ε} {loop : Loop (Callable (κ × H) G) ι ε}
    (hloop : (eventLoop (Callable (κ × H) G) ι ε).step s.loop l = some loop)
    (hstays : ∀ e act, l = .exec e (.callback act) → s.frame e ≠ none →
      act ≠ .returns ∧ ∀ exc, act ≠ .throws exc)
    (hother : ∀ e c k func stopping, l = .exec e .invoke →
      loop.execs e ≠ .callback c (.shot (k, func)) stopping) :
    s.soloSteps service k (.loop l) = [] := by
  have hends {e : ε} {act : CallbackAct (Callable (κ × H) G) ι}
      (hl : l = .exec e (.callback act)) (hact : act = .returns ∨ ∃ exc, act = .throws exc) :
      s.frame e = none := by
    by_contra hframe
    obtain ⟨hreturns, hthrows⟩ := hstays e act hl hframe
    rcases hact with hact | ⟨exc, hact⟩
    · exact hreturns hact
    · exact hthrows exc hact
  cases l with
  | stop id act => rfl
  | exec e act =>
      cases act with
      | invoke =>
          obtain ⟨⟨c, func, hscan, hdue, hcallback⟩, -⟩ := frame_of_invoke h hloop
          cases func with
          | shot r => exact absurd hcallback (hother e c r.1 r.2 none rfl)
          | other func => simp [soloSteps, hscan, hdue]
      | callback act =>
          cases act with
          | returns => simp [soloSteps, hends rfl (Or.inl rfl)]
          | throws exc => simp [soloSteps, hends rfl (Or.inr ⟨exc, rfl⟩)]
          | _ => rfl
      | _ => rfl

theorem solo_step {service : Service δ π α ο H} (h : s.Inv) {l : SourcesLabel κ α ο H G ι ε}
    (hstep : (sources κ G ι ε service).step s l = some t) :
    service.solo.run (soloOf service k s) (soloSteps service k s l) = some (soloOf service k t) := by
  have ht := inv_preserved service hstep h
  cases move_of_step hstep with
  | constructed who k' fd answer queue object hturn hunborn hclosed hadd =>
      by_cases heq : k' = k
      · subst heq
        simp [soloSteps, soloOf, Source.state, hunborn, setQueue]
      · simp [soloSteps, soloOf, Ne.symm heq, setQueue]
  | notConstructed | installed | registered => rfl
  | destroyed who k' answer fd state hturn halive =>
      by_cases heq : k' = k
      · subst heq
        simp [soloSteps, soloOf, Source.state, halive, setQueue]
      · simp [soloSteps, soloOf, Ne.symm heq, setQueue]
  | outside k' op fd state halive =>
      by_cases heq : k' = k
      · subst heq
        simp [soloSteps, soloOf, Source.state, halive, System.run_cons, Service.solo,
          Service.soloStep]
      · simp [soloSteps, soloOf, heq, Ne.symm heq]
  | entered e k' func c stopping loop hloop hpos =>
      obtain ⟨⟨c', func', hscan, hdue, hcallback⟩, hnone⟩ := frame_of_invoke h hloop
      obtain ⟨-, rfl, -⟩ := ExecPos.callback.inj (hpos.symm.trans hcallback)
      have hentered : posOf (Function.update s.frame e (some (k', service.enter func))) k =
          if k' = k then some (service.enter func) else none :=
        posOf_of_frame ht (Function.update_self ..)
      by_cases heq : k' = k
      · subst heq
        simp [soloSteps, hscan, hdue, soloOf, posOf_of_none hnone, hentered, System.run_cons,
          Service.solo, Service.soloStep]
      · simp [soloSteps, hscan, hdue, soloOf, posOf_of_none hnone, hentered, heq]
  | looped l loop hloop hstays hother =>
      rw [soloSteps_of_looped h hloop hstays hother]
      rfl
  | back e k' pos back c func hframe hwork hpos =>
      have hback : posOf (Function.update s.frame e (some (k', back))) k =
          if k' = k then some back else none :=
        posOf_of_frame ht (Function.update_self ..)
      by_cases heq : k' = k
      · subst heq
        simp [soloSteps, hframe, soloOf, posOf_of_frame h hframe, hback, System.run_cons,
          Service.solo, Service.soloStep, hwork]
      · simp [soloSteps, hframe, soloOf, posOf_of_frame h hframe, hback, heq]
  | thrown e k' pos back exc loop hframe hwork hloop =>
      have hleft := posOf_of_left (k := k) h hframe
      by_cases heq : k' = k
      · subst heq
        simp [soloSteps, hframe, soloOf, posOf_of_frame h hframe, hleft, System.run_cons,
          Service.solo, Service.soloStep, hwork]
      · simp [soloSteps, hframe, soloOf, posOf_of_frame h hframe, hleft, heq]
  | framed e choice k' pos next t hframe hwork hnext =>
      obtain ⟨hsource, hpos⟩ := posOf_of_proceed (k := k) h hframe hnext
      by_cases heq : k' = k
      · subst heq
        simp [soloSteps, hframe, soloOf, posOf_of_frame h hframe, hpos, hsource, hwork,
          System.run_cons, Service.solo, Service.soloStep]
      · simp [soloSteps, hframe, soloOf, posOf_of_frame h hframe, hpos, hsource, heq]
  | used e choice k' pos use fd state state' next t hframe hwork halive huse hnext =>
      have hused : Inv { s with source := Function.update s.source k' (.alive fd state') } :=
        h.congr rfl rfl fun _ _ pos hpos => ⟨pos, hpos⟩
      obtain ⟨hsource, hpos⟩ := posOf_of_proceed (k := k) hused hframe hnext
      by_cases heq : k' = k
      · subst heq
        simp [soloSteps, hframe, soloOf, posOf_of_frame h hframe, hpos, hsource, hwork, halive,
          huse, System.run_cons, Service.solo, Service.soloStep, Source.state]
      · simp [soloSteps, hframe, soloOf, posOf_of_frame h hframe, hpos, hsource, heq, Ne.symm heq]
  | wild e choice k' pos use hframe hwork hgone =>
      by_cases heq : k' = k
      · subst heq
        cases hsource : s.source k' with
        | alive fd state => exact absurd hsource (hgone fd state)
        | unborn | dead => simp [soloSteps, hframe, hwork, hsource, soloOf]
      · simp [soloSteps, hframe, heq, soloOf]

theorem solo_cases {service : Service δ π α ο H} (h : s.Inv) {l : SourcesLabel κ α ο H G ι ε}
    (hstep : (sources κ G ι ε service).step s l = some t) :
    (s.soloSteps service k l = [] ∧ t.soloOf service k = s.soloOf service k) ∨
      ∃ a, s.soloSteps service k l = [a] ∧
        service.solo.step (s.soloOf service k) a = some (t.soloOf service k) := by
  have hsolo := solo_step (k := k) h hstep
  rcases soloSteps_cases service k s l with hnone | ⟨a, hone⟩
  · rw [hnone, System.run_nil, Option.some.injEq] at hsolo
    exact Or.inl ⟨hnone, hsolo.symm⟩
  · rw [hone] at hsolo
    obtain ⟨m, hm, hrest⟩ := System.run_cons_eq_some _ |>.mp hsolo
    obtain rfl : m = t.soloOf service k := by simpa using hrest
    exact Or.inr ⟨a, hone, hm⟩

/-- **One source by itself.** What the steps of a source alone keep, of its state and of what is shown
of it, the steps of many sources keep. -/
theorem history_invariant {service : Service δ π α ο H}
    (emit : Solo δ π → SoloLabel α ο H → List μ) {C : Solo δ π → SoloLabel α ο H → Prop}
    {J : List μ → Solo δ π → Prop}
    (hstep : ∀ h s l t, service.solo.step s l = some t → C s l → J h s → J (h ++ emit s l) t)
    {h : List μ} {ls : List (SourcesLabel κ α ο H G ι ε)}
    (hrun : (sources κ G ι ε service).run s ls = some t) (hs : s.Inv)
    (hC : (sources κ G ι ε service).Along (Does service C k) s ls) (hJ : J h (s.soloOf service k)) :
    J (h ++ (sources κ G ι ε service).shown (history service emit k) s ls)
      (t.soloOf service k) := by
  induction ls generalizing h s with
  | nil =>
      obtain rfl : s = t := by simpa using hrun
      simpa [System.shown] using hJ
  | cons l ls ih =>
      obtain ⟨m, hfirst, hrest⟩ := System.run_cons_eq_some _ |>.mp hrun
      rw [System.shown_cons_of_step hfirst, ← List.append_assoc]
      refine ih hrest (inv_preserved service hfirst hs) (hC.2 m hfirst) ?_
      rcases solo_cases (k := k) hs hfirst with ⟨hnone, heq⟩ | ⟨a, hone, hsolo⟩
      · simpa [history, hnone, heq] using hJ
      · have hmeets := hC.1 a (by simp [hone])
        simpa [history, hone] using hstep h _ a _ hsolo hmeets hJ

theorem history_preserved {service : Service δ π α ο H}
    (emit : Solo δ π → SoloLabel α ο H → List μ) {J : List μ → Solo δ π → Prop}
    (hstep : ∀ h s l t, service.solo.step s l = some t → J h s → J (h ++ emit s l) t)
    {h : List μ} {ls : List (SourcesLabel κ α ο H G ι ε)}
    (hrun : (sources κ G ι ε service).run s ls = some t) (hs : s.Inv)
    (hJ : J h (s.soloOf service k)) :
    J (h ++ (sources κ G ι ε service).shown (history service emit k) s ls)
      (t.soloOf service k) :=
  history_invariant emit (C := fun _ _ => True)
    (fun h s l t hsolo _ hJ => hstep h s l t hsolo hJ) hrun hs
    (System.along_of_forall _ (fun _ _ _ _ => trivial) s ls) hJ

/-- What other threads do with the source, the labels alone tell. -/
theorem filterMap_shown_history {service : Service δ π α ο H}
    {emit : Solo δ π → SoloLabel α ο H → List μ} {g : μ → Option ν} {f : ο → List ν}
    (hemit : ∀ s a, (emit s a).filterMap g = a.outside?.elim [] f)
    {ls : List (SourcesLabel κ α ο H G ι ε)}
    (hrun : (sources κ G ι ε service).run s ls = some t) :
    ((sources κ G ι ε service).shown (history service emit k) s ls).filterMap g =
      (ls.filterMap (SourcesLabel.outside? k)).flatMap f := by
  rw [System.shown_filterMap, System.shown_eq_flatMap (filterMap_history hemit) hrun]
  clear hrun
  induction ls with
  | nil => rfl
  | cons l ls ih => cases hl : l.outside? k <;> simp [hl, ih]

end Sources

end Suc.Epl
