import Suc.Proof.LoopMoves

/-!
# What holds in every state of the event loop

At most one call of `exec` ever passes its first exchange and at most one call of `stop` its own;
the place of the one and the progress of the other are tied to the state of the queue and to the
exit code. Every result about the loop rests on these two invariants.
-/

namespace Suc.Epl

variable {F ι ε : Type}

/-! ### Steps of the system -/

inductive StopMove (q : EventQueue F) :
    StopCall ε → StopAct → EventQueue F → StopCall ε → Prop where
  | win (value : Int) (caller : Option ε) (hrunning : q.state = .running) :
      StopMove q ⟨value, caller, .exchange⟩ .step { q with state := .stopping }
        ⟨value, caller, .store⟩
  | lose (value : Int) (caller : Option ε) (hrunning : q.state ≠ .running) :
      StopMove q ⟨value, caller, .exchange⟩ .step q ⟨value, caller, .refused⟩
  | store (value : Int) (caller : Option ε) :
      StopMove q ⟨value, caller, .store⟩ .step { q with exitCode := value }
        ⟨value, caller, .write⟩
  | written (value : Int) (caller : Option ε) :
      StopMove q ⟨value, caller, .write⟩ (.written none) { q with counter := q.counter + 1 }
        ⟨value, caller, .returned⟩
  | writeFailed (value : Int) (caller : Option ε) (errno : Errno) :
      StopMove q ⟨value, caller, .write⟩ (.written (some errno)) q ⟨value, caller, .threw⟩

theorem stopMove_of_step {q : EventQueue F} {call : StopCall ε} {act : StopAct}
    {r : EventQueue F × StopCall ε} (h : stopStep q call act = some r) :
    StopMove q call act r.1 r.2 := by
  obtain ⟨value, caller, pos⟩ := call
  cases act with
  | call value' => cases h
  | step =>
      cases pos with
      | exchange =>
          simp only [stopStep] at h
          split at h
          · cases h; exact .win value caller ‹_›
          · cases h; exact .lose value caller ‹_›
      | store => cases h; exact .store value caller
      | _ => cases h
  | written failure =>
      cases pos with
      | write =>
          cases failure with
          | none => cases h; exact .written value caller
          | some errno => cases h; exact .writeFailed value caller errno
      | _ => cases failure <;> cases h

theorem Loop.stopsAfter_cases [DecidableEq ι] {s : Loop F ι ε} {e : ε} {act : ExecAct F ι}
    {stops : ι → Option (StopCall ε)} (h : s.stopsAfter e act = some stops) :
    stops = s.stops ∨
      ∃ id value, act = .callback (.stop id value) ∧ s.stops id = none ∧
        stops = Function.update s.stops id (some ⟨value, some e, .exchange⟩) := by
  unfold Loop.stopsAfter at h
  split at h
  · split at h
    · rename_i id value hnone
      cases h
      exact Or.inr ⟨id, value, rfl, by simpa using hnone, rfl⟩
    · cases h
  · split at h
    · split at h
      · cases h; exact Or.inl rfl
      · cases h
    · cases h
  · cases h; exact Or.inl rfl

theorem Loop.ended_of_resume [DecidableEq ι] {s : Loop F ι ε} {e : ε} {c : Cursor} {func : F} {id : ι}
    {stops : ι → Option (StopCall ε)} (hpos : s.execs e = .callback c func (some id))
    (h : s.stopsAfter e (.callback .resume) = some stops) :
    (s.stops id).any StopCall.ended := by
  simp only [Loop.stopsAfter, hpos] at h
  split at h
  · assumption
  · cases h

theorem Loop.step_exec [DecidableEq ι] [DecidableEq ε] {s t : Loop F ι ε} {e : ε} {act : ExecAct F ι}
    (h : (eventLoop F ι ε).step s (.exec e act) = some t) :
    ExecMove s.queue (s.execs e) act t.queue (t.execs e) ∧
      (∀ e', e' ≠ e → t.execs e' = s.execs e') ∧ s.stopsAfter e act = some t.stops := by
  obtain ⟨stops, hstops, h⟩ := Option.bind_eq_some_iff.mp h
  obtain ⟨r, hstep, rfl⟩ := Option.map_eq_some_iff.mp h
  refine ⟨?_, fun e' hne => Function.update_of_ne hne _ _, hstops⟩
  simpa using execMove_of_step hstep

theorem Loop.step_stop [DecidableEq ι] [DecidableEq ε] {s t : Loop F ι ε} {id : ι} {act : StopAct}
    (h : (eventLoop F ι ε).step s (.stop id act) = some t) :
    t.execs = s.execs ∧ (∀ id', id' ≠ id → t.stops id' = s.stops id') ∧
      ((∃ value, act = .call value ∧ s.stops id = none ∧ t.queue = s.queue ∧
          t.stops id = some ⟨value, none, .exchange⟩) ∨
        ∃ call call', s.stops id = some call ∧ t.stops id = some call' ∧
          StopMove s.queue call act t.queue call') := by
  cases act with
  | call value =>
      simp only [eventLoop, Loop.step] at h
      split at h
      · rename_i hnone
        cases h
        refine ⟨rfl, fun id' hne => Function.update_of_ne hne _ _, Or.inl ⟨value, rfl, ?_, rfl, ?_⟩⟩
        · simpa using hnone
        · simp
      · cases h
  | step | written failure =>
      obtain ⟨call, hcall, h⟩ := Option.bind_eq_some_iff.mp h
      obtain ⟨r, hstep, rfl⟩ := Option.map_eq_some_iff.mp h
      refine ⟨rfl, fun id' hne => Function.update_of_ne hne _ _, Or.inr ⟨call, r.2, hcall, ?_, ?_⟩⟩
      · simp
      · exact stopMove_of_step hstep

/-- What a step does to one call of `exec`. -/
theorem Loop.exec_cases [DecidableEq ι] [DecidableEq ε] {s t : Loop F ι ε} {l : LoopLabel F ι ε}
    (h : (eventLoop F ι ε).step s l = some t) (e : ε) :
    (t.execs e = s.execs e ∧ ∀ act, l ≠ .exec e act) ∨
      ∃ act, l = .exec e act ∧ ExecMove s.queue (s.execs e) act t.queue (t.execs e) := by
  cases l with
  | stop id act =>
      obtain ⟨hexecs, -, -⟩ := Loop.step_stop h
      exact Or.inl ⟨by rw [hexecs], by simp⟩
  | exec e' act =>
      obtain ⟨hmove, hothers, -⟩ := Loop.step_exec h
      by_cases heq : e = e'
      · subst heq
        exact Or.inr ⟨act, rfl, hmove⟩
      · exact Or.inl ⟨hothers e heq, by simp [Ne.symm heq]⟩

/-- What a step does to one call of `stop`: nothing, it begins, or it moves. -/
theorem Loop.stop_cases [DecidableEq ι] [DecidableEq ε] {s t : Loop F ι ε} {l : LoopLabel F ι ε}
    (h : (eventLoop F ι ε).step s l = some t) (id : ι) :
    (t.stops id = s.stops id ∧ ∀ act, l ≠ .stop id act) ∨
      (∃ value caller, s.stops id = none ∧ t.stops id = some ⟨value, caller, .exchange⟩ ∧
        l ≠ .stop id .step) ∨
      ∃ act call call', l = .stop id act ∧ s.stops id = some call ∧ t.stops id = some call' ∧
        StopMove s.queue call act t.queue call' := by
  cases l with
  | exec e act =>
      obtain ⟨-, -, hstops⟩ := Loop.step_exec h
      rcases Loop.stopsAfter_cases hstops with hsame | ⟨id', value, -, hnone, hnew⟩
      · exact Or.inl ⟨by rw [hsame], by simp⟩
      · by_cases heq : id = id'
        · subst heq
          exact Or.inr (Or.inl ⟨value, some e, hnone, by simp [hnew], by simp⟩)
        · exact Or.inl ⟨by rw [hnew, Function.update_of_ne heq], by simp⟩
  | stop id' act =>
      obtain ⟨-, hothers, hmoves⟩ := Loop.step_stop h
      by_cases heq : id = id'
      · subst heq
        rcases hmoves with ⟨value, rfl, hnone, -, hnew⟩ | ⟨call, call', hcall, hcall', hmove⟩
        · exact Or.inr (Or.inl ⟨value, none, hnone, hnew, by simp⟩)
        · exact Or.inr (Or.inr ⟨act, call, call', rfl, hcall, hcall', hmove⟩)
      · exact Or.inl ⟨hothers id heq, by simp [Ne.symm heq]⟩

/-! ### The calls of `exec` -/

/-- The places a call of `exec` can have in a state of the queue. -/
inductive Coherent : State → Place → Prop where
  | outside (st : State) : Coherent st .outside
  | runningLoop : Coherent .running .loop
  | runningWaiting : Coherent .running .waiting
  | runningFailed : Coherent .running .failed
  | stopping (p : Place) : Coherent .stopping p
  | stopped : Coherent .stopped .leaving
  | error : Coherent .error .failed

theorem Flow.coherent {o : Bool} {st st' : State} {p p' : Place} (h : Flow o st p st' p')
    (hp : Coherent st p) : Coherent st' p' := by
  cases h with
  | stay => exact hp
  | enter => exact .runningLoop
  | wait => exact .runningWaiting
  | leave _ hst =>
      cases hp with
      | runningLoop => exact absurd rfl hst
      | stopping => exact .stopping _
  | abandon => cases hp <;> constructor
  | interrupted => cases hp <;> constructor
  | fail => exact .error
  | stopped => exact .stopped
  | dispatch _ hst =>
      cases hp with
      | runningWaiting => exact .runningLoop
      | stopping => exact absurd rfl hst

theorem Flow.of_outside {o : Bool} {st st' : State} {p' : Place} (h : Flow o st .outside st' p') :
    (st' = st ∧ p' = .outside) ∨ st = .idle ∧ st' = .running ∧ p' = .loop := by
  cases h with
  | stay => exact Or.inl ⟨rfl, rfl⟩
  | enter => exact Or.inr ⟨rfl, rfl, rfl⟩

theorem Flow.not_outside {o : Bool} {st st' : State} {p p' : Place} (h : Flow o st p st' p')
    (hp : p ≠ .outside) : p' ≠ .outside := by
  cases h <;> simp_all

theorem Flow.not_idle {o : Bool} {st st' : State} {p p' : Place} (h : Flow o st p st' p')
    (hst : st ≠ .idle) : st' ≠ .idle := by
  cases h <;> simp_all

def ExecPos.Entered (pos : ExecPos F ι) : Prop := pos.place ≠ .outside

structure Loop.ExecInv (s : Loop F ι ε) : Prop where
  coherent : ∀ e, Coherent s.queue.state (s.execs e).place
  unique : ∀ e e', (s.execs e).Entered → (s.execs e').Entered → e = e'
  entered : s.queue.state ≠ .idle → ∃ e, (s.execs e).Entered

theorem Loop.ExecInv.not_idle {s : Loop F ι ε} (h : s.ExecInv) {e : ε} (he : (s.execs e).Entered) :
    s.queue.state ≠ .idle := by
  intro hidle
  have hcoherent := h.coherent e
  rw [hidle] at hcoherent
  generalize hp : (s.execs e).place = p at hcoherent
  cases hcoherent
  exact he hp

/-- A move of one call leaves the state alone while another has entered. -/
theorem Loop.ExecInv.state_eq_of_ne {s t : Loop F ι ε} (h : s.ExecInv) {e e' : ε}
    {act : ExecAct F ι} (hmove : ExecMove s.queue (s.execs e) act t.queue (t.execs e))
    (hne : e' ≠ e) (he' : (s.execs e').Entered) :
    t.queue.state = s.queue.state ∧ (t.execs e).place = .outside := by
  have houtside : (s.execs e).place = .outside := by
    by_contra he
    exact hne (h.unique e' e he' he)
  have hflow := hmove.flow
  rw [houtside] at hflow
  rcases hflow.of_outside with hstay | ⟨hidle, -, -⟩
  · exact hstay
  · exact absurd hidle (h.not_idle he')

theorem StopMove.state_cases {q q' : EventQueue F} {call call' : StopCall ε} {act : StopAct}
    (h : StopMove q call act q' call') :
    q'.state = q.state ∨ q.state = .running ∧ q'.state = .stopping ∧ act = .step ∧
      call.pos = .exchange := by
  cases h with
  | win value caller hrunning => exact Or.inr ⟨hrunning, rfl, rfl, rfl⟩
  | _ => exact Or.inl rfl

theorem StopMove.stopping_of_exchange {q q' : EventQueue F} {call call' : StopCall ε}
    {act : StopAct} (h : StopMove q call act q' call') (hpos : call.pos = .exchange)
    (hrunning : q.state = .running) : q'.state = .stopping := by
  cases h with
  | win => rfl
  | lose _ _ hnot => exact absurd hrunning hnot
  | _ => cases hpos

/-- A step of a stop call changes the state only by an exchange that succeeds. -/
theorem Loop.state_stop [DecidableEq ι] [DecidableEq ε] {s t : Loop F ι ε} {id : ι} {act : StopAct}
    (h : (eventLoop F ι ε).step s (.stop id act) = some t) :
    t.queue.state = s.queue.state ∨
      s.queue.state = .running ∧ t.queue.state = .stopping ∧ act = .step ∧
        ∃ call, s.stops id = some call ∧ call.pos = .exchange := by
  obtain ⟨-, -, hmoves⟩ := Loop.step_stop h
  rcases hmoves with ⟨value, -, -, hqueue, -⟩ | ⟨call, call', hcall, -, hmove⟩
  · exact Or.inl (by rw [hqueue])
  · rcases hmove.state_cases with hsame | ⟨hrunning, hstopping, hact, hpos⟩
    · exact Or.inl hsame
    · exact Or.inr ⟨hrunning, hstopping, hact, call, hcall, hpos⟩

/-- When a call moves, no other call has entered by the time it is inside. -/
theorem Loop.ExecInv.not_entered_of_ne {s t : Loop F ι ε} (h : s.ExecInv) {e e' : ε}
    {act : ExecAct F ι} (hmove : ExecMove s.queue (s.execs e) act t.queue (t.execs e))
    (hne : e' ≠ e) (he : (t.execs e).Entered) : ¬(s.execs e').Entered := by
  intro he'
  exact he (h.state_eq_of_ne hmove hne he').2

theorem Loop.ExecInv.exec {s t : Loop F ι ε} (h : s.ExecInv) {e : ε} {act : ExecAct F ι}
    (hmove : ExecMove s.queue (s.execs e) act t.queue (t.execs e))
    (hothers : ∀ e', e' ≠ e → t.execs e' = s.execs e') : t.ExecInv := by
  have hflow := hmove.flow
  refine ⟨?_, ?_, ?_⟩
  · intro e'
    by_cases heq : e' = e
    · rw [heq]
      exact hflow.coherent (h.coherent e)
    · rw [hothers e' heq]
      by_cases he' : (s.execs e').Entered
      · rw [(h.state_eq_of_ne hmove heq he').1]
        exact h.coherent e'
      · rw [Classical.not_not.mp he']
        exact .outside _
  · intro e₁ e₂ h₁ h₂
    by_cases heq₁ : e₁ = e
    · subst heq₁
      by_contra hne
      rw [hothers e₂ (Ne.symm hne)] at h₂
      exact h.not_entered_of_ne hmove (Ne.symm hne) h₁ h₂
    · rw [hothers e₁ heq₁] at h₁
      by_cases heq₂ : e₂ = e
      · rw [heq₂] at h₂
        exact absurd h₁ (h.not_entered_of_ne hmove heq₁ h₂)
      · rw [hothers e₂ heq₂] at h₂
        exact h.unique e₁ e₂ h₁ h₂
  · intro hst
    by_cases hidle : s.queue.state = .idle
    · -- only the entering move leaves `idle`
      refine ⟨e, ?_⟩
      by_contra hplace
      have houtside : (s.execs e).place = .outside := by
        by_contra hne
        exact h.not_idle hne hidle
      rw [houtside] at hflow
      rcases hflow.of_outside with hstay | hentered
      · exact hst (hstay.1.trans hidle)
      · exact hplace (by simp [ExecPos.Entered, hentered.2.2])
    · obtain ⟨e', he'⟩ := h.entered hidle
      by_cases heq : e' = e
      · exact ⟨e, hflow.not_outside (heq ▸ he')⟩
      · exact ⟨e', by rw [hothers e' heq]; exact he'⟩

theorem Loop.ExecInv.stop {s t : Loop F ι ε} (h : s.ExecInv) (hexecs : t.execs = s.execs)
    (hstate : t.queue.state = s.queue.state ∨
      s.queue.state = .running ∧ t.queue.state = .stopping) : t.ExecInv := by
  refine ⟨?_, ?_, ?_⟩
  · intro e
    rw [hexecs]
    rcases hstate with hsame | ⟨-, hstopping⟩
    · rw [hsame]
      exact h.coherent e
    · rw [hstopping]
      exact .stopping _
  · intro e₁ e₂
    rw [hexecs]
    exact h.unique e₁ e₂
  · intro hst
    rw [hexecs]
    apply h.entered
    rcases hstate with hsame | ⟨hrunning, -⟩
    · rwa [← hsame]
    · simp [hrunning]

theorem Loop.execInv_preserved [DecidableEq ι] [DecidableEq ε] :
    (eventLoop F ι ε).Preserves Loop.ExecInv := by
  intro s l t hstep h
  cases l with
  | exec e act =>
      obtain ⟨hmove, hothers, -⟩ := Loop.step_exec hstep
      exact h.exec hmove hothers
  | stop id act =>
      obtain ⟨hexecs, -, -⟩ := Loop.step_stop hstep
      exact h.stop hexecs ((Loop.state_stop hstep).imp_right fun hwon => ⟨hwon.1, hwon.2.1⟩)

/-! ### The calls of `stop` -/

def StopPos.won : StopPos → Bool
  | .store | .write | .returned | .threw => true
  | .exchange | .refused => false

def Loop.Winner (s : Loop F ι ε) (id : ι) (call : StopCall ε) : Prop :=
  s.stops id = some call ∧ call.pos.won

structure Loop.StopInv (s : Loop F ι ε) : Prop where
  winner_state : ∀ id call, s.Winner id call →
    s.queue.state ≠ .idle ∧ s.queue.state ≠ .running
  winner_unique : ∀ id id' call call', s.Winner id call → s.Winner id' call' → id = id'
  exists_winner : s.queue.state = .stopping ∨ s.queue.state = .stopped →
    ∃ id call, s.Winner id call
  exitCode_initial : (∀ id call, s.Winner id call → call.pos = .store) → s.queue.exitCode = 1
  exitCode_stored : ∀ id call, s.Winner id call → call.pos ≠ .store →
    s.queue.exitCode = call.value
  caller : ∀ id call e, s.stops id = some call → call.caller = some e → call.ended = false →
    ∃ c func, s.execs e = .callback c func (some id)

theorem Flow.winner_state {o : Bool} {st st' : State} {p p' : Place} (h : Flow o st p st' p')
    (hst : st ≠ .idle ∧ st ≠ .running) : st' ≠ .idle ∧ st' ≠ .running := by
  cases h <;> simp_all

theorem Flow.exists_winner {o : Bool} {st st' : State} {p p' : Place} (h : Flow o st p st' p')
    (hst : st' = .stopping ∨ st' = .stopped) : st = .stopping ∨ st = .stopped := by
  cases h <;> simp_all

theorem StopMove.won {q q' : EventQueue F} {call call' : StopCall ε} {act : StopAct}
    (h : StopMove q call act q' call') (hwon : call.pos.won) : call'.pos.won := by
  cases h with
  | win => cases hwon
  | lose => cases hwon
  | _ => rfl

theorem Loop.winner_iff {s t : Loop F ι ε} {id : ι}
    (hothers : ∀ id', id' ≠ id → t.stops id' = s.stops id')
    (hs : ∀ call, s.stops id = some call → call.pos.won = false)
    (ht : ∀ call, t.stops id = some call → call.pos.won = false) (id' : ι) (call : StopCall ε) :
    t.Winner id' call ↔ s.Winner id' call := by
  unfold Loop.Winner
  by_cases heq : id' = id
  · subst heq
    constructor
    · rintro ⟨hcall, hwon⟩
      simp [ht call hcall] at hwon
    · rintro ⟨hcall, hwon⟩
      simp [hs call hcall] at hwon
  · rw [hothers id' heq]

theorem Loop.StopInv.of_winner_iff {s t : Loop F ι ε} (h : s.StopInv)
    (hwinner : ∀ id call, t.Winner id call ↔ s.Winner id call)
    (hcode : t.queue.exitCode = s.queue.exitCode)
    (hstate : s.queue.state ≠ .idle ∧ s.queue.state ≠ .running →
      t.queue.state ≠ .idle ∧ t.queue.state ≠ .running)
    (hstopped : t.queue.state = .stopping ∨ t.queue.state = .stopped →
      s.queue.state = .stopping ∨ s.queue.state = .stopped)
    (hcaller : ∀ id call e, t.stops id = some call → call.caller = some e →
      call.ended = false → ∃ c func, t.execs e = .callback c func (some id)) : t.StopInv where
  winner_state id call hw := hstate (h.winner_state id call ((hwinner id call).mp hw))
  winner_unique id id' call call' hw hw' :=
    h.winner_unique id id' call call' ((hwinner id call).mp hw) ((hwinner id' call').mp hw')
  exists_winner hst := by
    obtain ⟨id, call, hw⟩ := h.exists_winner (hstopped hst)
    exact ⟨id, call, (hwinner id call).mpr hw⟩
  exitCode_initial hall := by
    rw [hcode]
    exact h.exitCode_initial fun id call hw => hall id call ((hwinner id call).mpr hw)
  exitCode_stored id call hw hpos := by
    rw [hcode]
    exact h.exitCode_stored id call ((hwinner id call).mp hw) hpos
  caller := hcaller

theorem Loop.StopInv.of_sole_winner {s : Loop F ι ε} {id : ι} {call : StopCall ε}
    (hw : s.Winner id call)
    (hsole : ∀ id' call', s.Winner id' call' → id' = id ∧ call' = call)
    (hstate : s.queue.state ≠ .idle ∧ s.queue.state ≠ .running)
    (hinitial : call.pos = .store → s.queue.exitCode = 1)
    (hstored : call.pos ≠ .store → s.queue.exitCode = call.value)
    (hcaller : ∀ id call e, s.stops id = some call → call.caller = some e →
      call.ended = false → ∃ c func, s.execs e = .callback c func (some id)) : s.StopInv where
  winner_state _ _ _ := hstate
  winner_unique id₁ id₂ call₁ call₂ h₁ h₂ := (hsole id₁ call₁ h₁).1.trans (hsole id₂ call₂ h₂).1.symm
  exists_winner _ := ⟨id, call, hw⟩
  exitCode_initial hall := hinitial (hall id call hw)
  exitCode_stored id' call' hw' hpos := by
    obtain ⟨-, rfl⟩ := hsole id' call' hw'
    exact hstored hpos
  caller := hcaller

theorem ExecMove.of_awaiting {q q' : EventQueue F} {c : Cursor} {func : F} {id : ι}
    {pos' : ExecPos F ι} {act : ExecAct F ι}
    (h : ExecMove q (.callback c func (some id)) act q' pos') : act = .callback .resume := by
  cases h
  rfl

theorem ExecMove.of_stop {q q' : EventQueue F} {pos pos' : ExecPos F ι} {id : ι} {value : Int}
    (h : ExecMove q pos (.callback (.stop id value)) q' pos') :
    ∃ c func, pos = .callback c func none ∧ pos' = .callback c func (some id) := by
  cases h with
  | stop c func => exact ⟨c, func, rfl, rfl⟩

theorem StopMove.not_ended {q q' : EventQueue F} {call call' : StopCall ε} {act : StopAct}
    (h : StopMove q call act q' call') :
    call.ended = false ∧ call'.caller = call.caller ∧ call'.value = call.value := by
  cases h <;> simp [StopCall.ended]

section Preserved

variable [DecidableEq ι] [DecidableEq ε]

theorem Loop.StopInv.caller_exec {s t : Loop F ι ε} (h : s.StopInv) {e : ε} {act : ExecAct F ι}
    (hmove : ExecMove s.queue (s.execs e) act t.queue (t.execs e))
    (hothers : ∀ e', e' ≠ e → t.execs e' = s.execs e')
    (hstops : s.stopsAfter e act = some t.stops) (id : ι) (call : StopCall ε) (e' : ε)
    (hcall : t.stops id = some call) (hcaller : call.caller = some e')
    (hended : call.ended = false) : ∃ c func, t.execs e' = .callback c func (some id) := by
  have hold : s.stops id = some call → ∃ c func, t.execs e' = .callback c func (some id) := by
    intro hcall
    obtain ⟨c, func, hpos⟩ := h.caller id call e' hcall hcaller hended
    by_cases heq : e' = e
    · subst heq
      rw [hpos] at hmove
      obtain rfl := hmove.of_awaiting
      have hresume := Loop.ended_of_resume hpos hstops
      simp [hcall, hended] at hresume
    · exact ⟨c, func, by rw [hothers e' heq]; exact hpos⟩
  rcases Loop.stopsAfter_cases hstops with hsame | ⟨id', value, rfl, -, hnew⟩
  · exact hold (hsame ▸ hcall)
  · rw [hnew] at hcall
    by_cases heq : id = id'
    · subst heq
      obtain rfl : ⟨value, some e, .exchange⟩ = call := by simpa using hcall
      obtain rfl : e = e' := by simpa using hcaller
      obtain ⟨c, func, -, hpos⟩ := hmove.of_stop
      exact ⟨c, func, hpos⟩
    · rw [Function.update_of_ne heq] at hcall
      exact hold hcall

/-- A step of `exec` may begin a stop call, which is no winner yet, and leaves the others alone. -/
theorem Loop.winner_exec {s t : Loop F ι ε} {e : ε} {act : ExecAct F ι}
    (hstep : (eventLoop F ι ε).step s (.exec e act) = some t) (id : ι) (call : StopCall ε) :
    t.Winner id call ↔ s.Winner id call := by
  unfold Loop.Winner
  rcases Loop.stop_cases hstep id with ⟨hsame, -⟩ | ⟨value, caller, hnone, hnew, -⟩ | ⟨_, _, _, hl, -⟩
  · rw [hsame]
  · rw [hnone, hnew]
    constructor
    · rintro ⟨hcall, hwon⟩
      cases hcall
      cases hwon
    · rintro ⟨hcall, -⟩
      cases hcall
  · cases hl

theorem Loop.StopInv.exec {s t : Loop F ι ε} (h : s.StopInv) {e : ε} {act : ExecAct F ι}
    (hstep : (eventLoop F ι ε).step s (.exec e act) = some t) : t.StopInv := by
  obtain ⟨hmove, hothers, hstops⟩ := Loop.step_exec hstep
  exact h.of_winner_iff (Loop.winner_exec hstep) hmove.exitCode_eq hmove.flow.winner_state
    hmove.flow.exists_winner (h.caller_exec hmove hothers hstops)

omit [DecidableEq ι] [DecidableEq ε] in
theorem Loop.StopInv.caller_stop {s t : Loop F ι ε} (h : s.StopInv) {id : ι}
    {call call' : StopCall ε} {act : StopAct} (hexecs : t.execs = s.execs)
    (hothers : ∀ id', id' ≠ id → t.stops id' = s.stops id') (hcall : s.stops id = some call)
    (hcall' : t.stops id = some call') (hmove : StopMove s.queue call act t.queue call')
    (id' : ι) (call'' : StopCall ε) (e : ε) (hid' : t.stops id' = some call'')
    (hcaller : call''.caller = some e) (hended : call''.ended = false) :
    ∃ c func, t.execs e = .callback c func (some id') := by
  rw [hexecs]
  by_cases heq : id' = id
  · subst heq
    obtain rfl : call' = call'' := by simpa [hcall'] using hid'
    obtain ⟨hbefore, hsame, -⟩ := hmove.not_ended
    exact h.caller id' call e hcall (hsame ▸ hcaller) hbefore
  · exact h.caller id' call'' e (by rw [← hothers id' heq]; exact hid') hcaller hended

omit [DecidableEq ι] [DecidableEq ε] in
theorem Loop.sole_winner_of_move {s t : Loop F ι ε} {id : ι} {call' : StopCall ε}
    (hothers : ∀ id', id' ≠ id → t.stops id' = s.stops id') (hcall' : t.stops id = some call')
    (honly : ∀ id' call, s.Winner id' call → id' = id) (id' : ι) (call : StopCall ε)
    (hw : t.Winner id' call) : id' = id ∧ call = call' := by
  by_cases heq : id' = id
  · subst heq
    exact ⟨rfl, by simpa [hcall'] using hw.1.symm⟩
  · exact absurd (honly id' call ⟨by rw [← hothers id' heq]; exact hw.1, hw.2⟩) heq

omit [DecidableEq ι] [DecidableEq ε] in
/-- A move of the winner that leaves its value in the exit code. -/
theorem Loop.StopInv.of_winner_move {s t : Loop F ι ε} (h : s.StopInv) {id : ι}
    {call call' : StopCall ε} (hw : s.Winner id call) (hw' : t.Winner id call')
    (hothers : ∀ id', id' ≠ id → t.stops id' = s.stops id')
    (hstate : t.queue.state = s.queue.state) (hpos : call'.pos ≠ .store)
    (hcode : t.queue.exitCode = call'.value)
    (hcallers : ∀ id call e, t.stops id = some call → call.caller = some e → call.ended = false →
      ∃ c func, t.execs e = .callback c func (some id)) : t.StopInv := by
  have honly : ∀ id' call'', s.Winner id' call'' → id' = id := fun id' call'' hother =>
    h.winner_unique id' id call'' call hother hw
  refine Loop.StopInv.of_sole_winner hw' (Loop.sole_winner_of_move hothers hw'.1 honly) ?_
    (fun hstore => absurd hstore hpos) (fun _ => hcode) hcallers
  rw [hstate]
  exact h.winner_state id call hw

theorem Loop.StopInv.stop {s t : Loop F ι ε} (h : s.StopInv) {id : ι} {act : StopAct}
    (hstep : (eventLoop F ι ε).step s (.stop id act) = some t) : t.StopInv := by
  obtain ⟨hexecs, hothers, hcases⟩ := Loop.step_stop hstep
  rcases hcases with ⟨value, -, hnone, hqueue, hnew⟩ | ⟨call, call', hcall, hcall', hmove⟩
  · -- a call that begins
    have hwinner := Loop.winner_iff hothers (s := s) (by simp [hnone]) (by simp [hnew, StopPos.won])
    refine h.of_winner_iff hwinner (by rw [hqueue]) (by rw [hqueue]; exact fun h => h)
      (by rw [hqueue]; exact fun h => h) ?_
    intro id' call' e hid' hcaller hended
    rw [hexecs]
    by_cases heq : id' = id
    · subst heq
      obtain rfl : ⟨value, none, .exchange⟩ = call' := by simpa [hnew] using hid'
      simp at hcaller
    · exact h.caller id' call' e (by rw [← hothers id' heq]; exact hid') hcaller hended
  · have hcallers := h.caller_stop hexecs hothers hcall hcall' hmove
    generalize hqueue : t.queue = q at hmove
    cases hmove with
    | win value caller hrunning =>
        have hnone : ∀ id' call'', ¬s.Winner id' call'' := fun id' call'' hw =>
          (h.winner_state id' call'' hw).2 hrunning
        have hsole := Loop.sole_winner_of_move hothers hcall'
          fun id' call'' hw => absurd hw (hnone id' call'')
        refine Loop.StopInv.of_sole_winner ⟨hcall', rfl⟩ hsole (by simp [hqueue]) ?_ (by simp)
          hcallers
        intro _
        rw [hqueue]
        exact h.exitCode_initial fun id' call'' hw => absurd hw (hnone id' call'')
    | lose value caller hrunning =>
        have hwinner := Loop.winner_iff hothers (s := s) (by simp [hcall, StopPos.won])
          (by simp [hcall', StopPos.won])
        exact h.of_winner_iff hwinner (by rw [hqueue]) (by rw [hqueue]; exact fun h => h)
          (by rw [hqueue]; exact fun h => h) hcallers
    | store value caller =>
        exact h.of_winner_move ⟨hcall, rfl⟩ ⟨hcall', rfl⟩ hothers (by rw [hqueue]) (by simp)
          (by rw [hqueue]) hcallers
    | written value caller | writeFailed value caller =>
        have hw : s.Winner id ⟨value, caller, .write⟩ := ⟨hcall, rfl⟩
        have hcode : s.queue.exitCode = value := h.exitCode_stored id _ hw (by simp)
        exact h.of_winner_move hw ⟨hcall', rfl⟩ hothers (by rw [hqueue]) (by simp)
          (by rw [hqueue]; exact hcode) hcallers

theorem Loop.stopInv_preserved : (eventLoop F ι ε).Preserves Loop.StopInv := by
  intro s l t hstep h
  cases l with
  | exec e act => exact h.exec hstep
  | stop id act => exact h.stop hstep

/-- A stop call that has won stays a winner, and stays as it is once it has returned. -/
theorem Loop.Winner.step {s t : Loop F ι ε} {l : LoopLabel F ι ε}
    (hstep : (eventLoop F ι ε).step s l = some t) {id : ι} {call : StopCall ε}
    (h : s.Winner id call) :
    ∃ call', t.Winner id call' ∧ call'.value = call.value ∧
      (call.pos = .returned → call' = call) := by
  obtain ⟨hcall, hwon⟩ := h
  rcases Loop.stop_cases hstep id with
    ⟨hsame, -⟩ | ⟨_, _, hnone, -⟩ | ⟨act, old, call', -, hold, hcall', hmove⟩
  · exact ⟨call, ⟨by rw [hsame]; exact hcall, hwon⟩, rfl, fun _ => rfl⟩
  · simp [hcall] at hnone
  · obtain rfl : call = old := by simpa [hcall] using hold
    refine ⟨call', ⟨hcall', hmove.won hwon⟩, hmove.not_ended.2.2, ?_⟩
    intro hreturned
    have hopen := hmove.not_ended.1
    simp [StopCall.ended, hreturned] at hopen

end Preserved

/-! ### Reachable states -/

structure Loop.Inv (s : Loop F ι ε) : Prop where
  exec : s.ExecInv
  stop : s.StopInv

theorem Loop.inv_start (epfd evtfd : Cmn.Fd) (fds : Int → Option (Callbacks F))
    (interest : Int → Option (BitVec 32)) :
    (Loop.start epfd evtfd fds interest : Loop F ι ε).Inv where
  exec :=
    { coherent := fun _ => .outside _
      unique := fun _ _ he => absurd rfl he
      entered := fun h => absurd rfl h }
  stop :=
    { winner_state := fun id call hw => by simp [Loop.Winner, Loop.start] at hw
      winner_unique := fun id id' call call' hw => by simp [Loop.Winner, Loop.start] at hw
      exists_winner := by simp [Loop.start]
      exitCode_initial := fun _ => rfl
      exitCode_stored := fun id call hw => by simp [Loop.Winner, Loop.start] at hw
      caller := by simp [Loop.start] }

theorem Loop.inv_preserved [DecidableEq ι] [DecidableEq ε] : (eventLoop F ι ε).Preserves Loop.Inv :=
  fun _ _ _ hstep h =>
    ⟨Loop.execInv_preserved hstep h.exec, Loop.stopInv_preserved hstep h.stop⟩

end Suc.Epl
