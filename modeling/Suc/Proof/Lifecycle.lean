import Suc.Proof.LoopInvariant
import Suc.Transition.Simulation

/-!
# The life of an event queue

The state moves forward only: every write of it, the unconditional one of `Error` among them, is
made by the one call of `exec` that has entered or by the one call of `stop` that wins. All other
calls are turned away at their exchange and leave the queue as it is.
-/

namespace Suc.Epl

open Transition

variable {F ι ε : Type}

def State.rank : State → Nat
  | .idle => 0
  | .running => 1
  | .stopping => 2
  | .stopped | .error => 3

/-- The state stays as it is or moves to a later one; `stopped` and `error` are both last. -/
def State.Forward (st st' : State) : Prop := st = st' ∨ st.rank < st'.rank

theorem State.Forward.trans {st st' st'' : State} (h : st.Forward st') (h' : st'.Forward st'') :
    st.Forward st'' := by
  rcases h with rfl | h
  · exact h'
  · rcases h' with rfl | h'
    · exact Or.inr h
    · exact Or.inr (Nat.lt_trans h h')

theorem State.Forward.not_idle {st st' : State} (h : st.Forward st') (hst : st ≠ .idle) :
    st' ≠ .idle := by
  rcases h with rfl | h
  · exact hst
  · rintro rfl
    exact Nat.not_lt_zero _ h

theorem State.Forward.last {st st' : State} (h : st.Forward st')
    (hst : st = .stopped ∨ st = .error) : st' = st := by
  rcases h with rfl | h
  · rfl
  · rcases hst with rfl | rfl <;> cases st' <;> simp [State.rank] at h

theorem Flow.forward {o : Bool} {st st' : State} {p p' : Place} (h : Flow o st p st' p')
    (hp : Coherent st p) : st.Forward st' := by
  cases h with
  | enter => exact Or.inr (by decide)
  | stopped => exact Or.inr (by decide)
  | fail st => cases hp <;> exact Or.inr (by decide)
  | _ => exact Or.inl rfl

/-! ### The three exchanges and stores -/

/-- The call of `exec` that passes its exchange in a step. -/
def Loop.entries (s : Loop F ι ε) : LoopLabel F ι ε → List ε
  | .exec e .step =>
      match s.execs e, s.queue.state with
      | .exchange, .idle => [e]
      | _, _ => []
  | _ => []

/-- The call of `stop` that passes its exchange in a step. -/
def Loop.wins (s : Loop F ι ε) : LoopLabel F ι ε → List ι
  | .stop id .step =>
      match (s.stops id).map StopCall.pos, s.queue.state with
      | some .exchange, .running => [id]
      | _, _ => []
  | _ => []

/-- The value that a step writes to `m_exitCode`. -/
def Loop.exitCodes (s : Loop F ι ε) : LoopLabel F ι ε → List Int
  | .stop id .step =>
      match s.stops id with
      | some ⟨value, _, .store⟩ => [value]
      | _ => []
  | _ => []

theorem Loop.entries_cases (s : Loop F ι ε) (l : LoopLabel F ι ε) :
    s.entries l = [] ∨ ∃ e, l = .exec e .step ∧ s.execs e = .exchange ∧ s.queue.state = .idle ∧
      s.entries l = [e] := by
  unfold Loop.entries
  split
  · rename_i e
    split
    · exact Or.inr ⟨e, rfl, ‹_›, ‹_›, rfl⟩
    · exact Or.inl rfl
  · exact Or.inl rfl

theorem Loop.wins_cases (s : Loop F ι ε) (l : LoopLabel F ι ε) :
    s.wins l = [] ∨ ∃ id call, l = .stop id .step ∧ s.stops id = some call ∧
      call.pos = .exchange ∧ s.queue.state = .running ∧ s.wins l = [id] := by
  unfold Loop.wins
  split
  · rename_i id
    split
    · rename_i hpos hstate
      obtain ⟨call, hcall, hexchange⟩ := Option.map_eq_some_iff.mp hpos
      exact Or.inr ⟨id, call, rfl, hcall, hexchange, hstate, rfl⟩
    · exact Or.inl rfl
  · exact Or.inl rfl

theorem Loop.exitCodes_cases (s : Loop F ι ε) (l : LoopLabel F ι ε) :
    s.exitCodes l = [] ∨ ∃ id value caller, l = .stop id .step ∧
      s.stops id = some ⟨value, caller, .store⟩ ∧ s.exitCodes l = [value] := by
  unfold Loop.exitCodes
  split
  · rename_i id
    split
    · exact Or.inr ⟨id, _, _, rfl, ‹_›, rfl⟩
    · exact Or.inl rfl
  · exact Or.inl rfl

theorem Loop.mem_entries {s : Loop F ι ε} {l : LoopLabel F ι ε} {e : ε} :
    e ∈ s.entries l ↔ l = .exec e .step ∧ s.execs e = .exchange ∧ s.queue.state = .idle := by
  rcases s.entries_cases l with hnil | ⟨e', rfl, hpos, hidle, hone⟩
  · refine iff_of_false (by simp [hnil]) ?_
    rintro ⟨rfl, hpos, hidle⟩
    simp [Loop.entries, hpos, hidle] at hnil
  · rw [hone, List.mem_singleton]
    constructor
    · rintro rfl
      exact ⟨rfl, hpos, hidle⟩
    · rintro ⟨hl, -, -⟩
      cases hl
      rfl

theorem Loop.mem_wins {s : Loop F ι ε} {l : LoopLabel F ι ε} {id : ι} :
    id ∈ s.wins l ↔ l = .stop id .step ∧
      ∃ call, s.stops id = some call ∧ call.pos = .exchange ∧ s.queue.state = .running := by
  rcases s.wins_cases l with hnil | ⟨id', call, rfl, hcall, hpos, hrunning, hone⟩
  · refine iff_of_false (by simp [hnil]) ?_
    rintro ⟨rfl, call, hcall, hpos, hrunning⟩
    simp [Loop.wins, hcall, hpos, hrunning] at hnil
  · rw [hone, List.mem_singleton]
    constructor
    · rintro rfl
      exact ⟨rfl, call, hcall, hpos, hrunning⟩
    · rintro ⟨hl, -⟩
      cases hl
      rfl

theorem Loop.exists_winner_iff {s : Loop F ι ε} {id : ι} {call : StopCall ε}
    (hcall : s.stops id = some call) : (∃ call', s.Winner id call') ↔ call.pos.won := by
  simp [Loop.Winner, hcall]

/-- The exit code has been written. -/
def Loop.Stored (s : Loop F ι ε) : Prop := ∃ id call, s.Winner id call ∧ call.pos ≠ .store

/-- A step of a call that has not passed its exchange leaves the queue as it is: the call has just
begun, or it throws, for `exec`, or returns, for `stop`. -/
def Loop.TurnedAway (s t : Loop F ι ε) : LoopLabel F ι ε → Prop
  | .exec e act => (t.execs e).Entered ∨ t.queue = s.queue ∧
      (act = .call ∧ t.execs e = .exchange ∨ ∃ exc, t.execs e = .refused exc)
  | .stop id act => ∃ call, t.stops id = some call ∧ (call.pos.won ∨ t.queue = s.queue ∧
      (act = .call call.value ∧ call.pos = .exchange ∨ call.pos = .refused))

theorem ExecMove.turnedAway {q q' : EventQueue F} {pos pos' : ExecPos F ι} {act : ExecAct F ι}
    (h : ExecMove q pos act q' pos') :
    pos'.Entered ∨ q' = q ∧ (act = .call ∧ pos' = .exchange ∨ ∃ exc, pos' = .refused exc) := by
  cases h with
  | call => exact Or.inr ⟨rfl, Or.inl ⟨rfl, rfl⟩⟩
  | refuse hidle exc => exact Or.inr ⟨rfl, Or.inr ⟨exc, rfl⟩⟩
  | _ => exact Or.inl Place.noConfusion

theorem StopMove.turnedAway {q q' : EventQueue F} {call call' : StopCall ε} {act : StopAct}
    (h : StopMove q call act q' call') :
    call'.pos.won ∨ q' = q ∧ call'.pos = .refused := by
  cases h with
  | lose => exact Or.inr ⟨rfl, rfl⟩
  | _ => exact Or.inl rfl

theorem ExecMove.entered_iff {q q' : EventQueue F} {pos pos' : ExecPos F ι} {act : ExecAct F ι}
    (h : ExecMove q pos act q' pos') :
    pos'.Entered ↔ pos.Entered ∨ pos = .exchange ∧ act = .step ∧ q.state = .idle := by
  cases h with
  | enter hidle => exact iff_of_true Place.noConfusion (Or.inr ⟨rfl, rfl, hidle⟩)
  | refuse hidle => simp [ExecPos.Entered, ExecPos.place, hidle]
  | _ => simp [ExecPos.Entered, ExecPos.place]

theorem StopMove.won_iff {q q' : EventQueue F} {call call' : StopCall ε} {act : StopAct}
    (h : StopMove q call act q' call') :
    call'.pos.won ↔ call.pos.won ∨ call.pos = .exchange ∧ act = .step ∧ q.state = .running := by
  cases h with
  | win value caller hrunning => exact iff_of_true rfl (Or.inr ⟨rfl, rfl, hrunning⟩)
  | lose value caller hrunning => simp [StopPos.won, hrunning]
  | _ => simp [StopPos.won]

theorem StopMove.stored {q q' : EventQueue F} {call call' : StopCall ε} {act : StopAct}
    (h : StopMove q call act q' call') (hwon : call.pos.won) (hpos : call.pos ≠ .store) :
    call'.pos ≠ .store := by
  cases h with
  | win => cases hwon
  | store => exact absurd rfl hpos
  | _ => exact StopPos.noConfusion

section Runs

variable [DecidableEq ι] [DecidableEq ε] {s t : Loop F ι ε} {l : LoopLabel F ι ε}

theorem Loop.Inv.forward (h : s.Inv) (hstep : (eventLoop F ι ε).step s l = some t) :
    s.queue.state.Forward t.queue.state := by
  cases l with
  | exec e act =>
      obtain ⟨hmove, -, -⟩ := Loop.step_exec hstep
      exact hmove.flow.forward (h.exec.coherent e)
  | stop id act =>
      rcases Loop.state_stop hstep with hsame | ⟨hrunning, hstopping, -⟩
      · exact Or.inl hsame.symm
      · rw [hrunning, hstopping]
        exact Or.inr (by decide)

theorem Loop.entered_step (hstep : (eventLoop F ι ε).step s l = some t) (e : ε) :
    (t.execs e).Entered ↔ (s.execs e).Entered ∨ e ∈ s.entries l := by
  rw [Loop.mem_entries]
  rcases Loop.exec_cases hstep e with ⟨hsame, hother⟩ | ⟨act, rfl, hmove⟩
  · simp [hsame, hother]
  · rw [hmove.entered_iff]
    simp [and_left_comm]

theorem Loop.winner_step (hstep : (eventLoop F ι ε).step s l = some t) (id : ι) :
    (∃ call, t.Winner id call) ↔ (∃ call, s.Winner id call) ∨ id ∈ s.wins l := by
  rw [Loop.mem_wins]
  rcases Loop.stop_cases hstep id with
    ⟨hsame, hother⟩ | ⟨value, caller, hnone, hnew, hother⟩ |
      ⟨act, call, call', rfl, hcall, hcall', hmove⟩
  · simp [Loop.Winner, hsame, hother]
  · simp [Loop.Winner, hnone, hnew, hother, StopPos.won]
  · rw [Loop.exists_winner_iff hcall', Loop.exists_winner_iff hcall, hmove.won_iff]
    simp [hcall, and_left_comm]

theorem Loop.entries_once (h : s.Inv) (hstep : (eventLoop F ι ε).step s l = some t) :
    s.entries l = [] ∨ (s.entries l).length = 1 ∧ t.queue.state ≠ .idle := by
  rcases s.entries_cases l with hnil | ⟨e, rfl, hpos, -, hone⟩
  · exact Or.inl hnil
  · refine Or.inr ⟨by rw [hone]; rfl, ?_⟩
    have hentered := (Loop.entered_step hstep e).mpr (Or.inr (by simp [hone]))
    exact (Loop.inv_preserved hstep h).exec.not_idle hentered

theorem Loop.entries_stable (h : s.Inv) (hstep : (eventLoop F ι ε).step s l = some t)
    (hstate : s.queue.state ≠ .idle) : t.queue.state ≠ .idle ∧ s.entries l = [] := by
  refine ⟨(h.forward hstep).not_idle hstate, ?_⟩
  rcases s.entries_cases l with hnil | ⟨e, -, -, hidle, -⟩
  · exact hnil
  · exact absurd hidle hstate

theorem Loop.wins_once (hstep : (eventLoop F ι ε).step s l = some t) :
    s.wins l = [] ∨ (s.wins l).length = 1 ∧ ∃ id call, t.Winner id call := by
  rcases s.wins_cases l with hnil | ⟨id, call, -, -, -, -, hone⟩
  · exact Or.inl hnil
  · exact Or.inr ⟨by rw [hone]; rfl, id, (Loop.winner_step hstep id).mpr (Or.inr (by simp [hone]))⟩

theorem Loop.wins_stable (h : s.Inv) (hstep : (eventLoop F ι ε).step s l = some t)
    (hwinner : ∃ id call, s.Winner id call) :
    (∃ id call, t.Winner id call) ∧ s.wins l = [] := by
  obtain ⟨id, call, hw⟩ := hwinner
  obtain ⟨call', hw', -⟩ := hw.step hstep
  refine ⟨⟨id, call', hw'⟩, ?_⟩
  rcases s.wins_cases l with hnil | ⟨id', call'', -, -, -, hrunning, -⟩
  · exact hnil
  · exact absurd hrunning (h.stop.winner_state id call hw).2

theorem Loop.exitCodes_once (hstep : (eventLoop F ι ε).step s l = some t) :
    s.exitCodes l = [] ∨ (s.exitCodes l).length = 1 ∧ t.Stored := by
  rcases s.exitCodes_cases l with hnil | ⟨id, value, caller, rfl, hcall, hone⟩
  · exact Or.inl hnil
  · refine Or.inr ⟨by rw [hone]; rfl, id, ⟨value, caller, .write⟩, ⟨?_, rfl⟩, StopPos.noConfusion⟩
    obtain ⟨-, -, hmoves⟩ := Loop.step_stop hstep
    rcases hmoves with ⟨value', hact, -⟩ | ⟨call, call', hold, hnew, hmove⟩
    · cases hact
    · obtain rfl : ⟨value, caller, .store⟩ = call := by simpa [hcall] using hold
      generalize t.queue = q at hmove
      cases hmove
      exact hnew

theorem Loop.exitCodes_stable (h : s.Inv) (hstep : (eventLoop F ι ε).step s l = some t)
    (hstored : s.Stored) : t.Stored ∧ s.exitCodes l = [] := by
  obtain ⟨id, call, hw, hpos⟩ := hstored
  constructor
  · rcases Loop.stop_cases hstep id with
      ⟨hsame, -⟩ | ⟨_, _, hnone, -⟩ | ⟨act, old, call', -, hold, hcall', hmove⟩
    · exact ⟨id, call, ⟨hsame ▸ hw.1, hw.2⟩, hpos⟩
    · exact absurd hw.1 (by simp [hnone])
    · obtain rfl : call = old := by simpa [hw.1] using hold
      exact ⟨id, call', ⟨hcall', hmove.won hw.2⟩, hmove.stored hw.2 hpos⟩
  · rcases s.exitCodes_cases l with hnil | ⟨id', value, caller, -, hcall, -⟩
    · exact hnil
    · have hother : s.Winner id' ⟨value, caller, .store⟩ := ⟨hcall, rfl⟩
      obtain rfl := h.stop.winner_unique id id' call _ hw hother
      obtain rfl : call = ⟨value, caller, .store⟩ := by simpa [hw.1] using hcall
      exact absurd rfl hpos

theorem Loop.exitCode_step (hstep : (eventLoop F ι ε).step s l = some t) :
    t.queue.exitCode = (s.exitCodes l).foldl (fun _ value => value) s.queue.exitCode := by
  cases l with
  | exec e act =>
      obtain ⟨hmove, -, -⟩ := Loop.step_exec hstep
      exact hmove.exitCode_eq
  | stop id act =>
      obtain ⟨-, -, hmoves⟩ := Loop.step_stop hstep
      rcases hmoves with ⟨value, rfl, -, hqueue, -⟩ | ⟨call, call', hcall, -, hmove⟩
      · rw [hqueue]
        rfl
      · generalize t.queue = q at hmove
        cases hmove <;> simp [Loop.exitCodes, hcall]

theorem Loop.turnedAway_step (hstep : (eventLoop F ι ε).step s l = some t) : s.TurnedAway t l := by
  cases l with
  | exec e act =>
      obtain ⟨hmove, -, -⟩ := Loop.step_exec hstep
      exact hmove.turnedAway
  | stop id act =>
      obtain ⟨-, -, hmoves⟩ := Loop.step_stop hstep
      rcases hmoves with ⟨value, rfl, -, hqueue, hnew⟩ | ⟨call, call', -, hcall', hmove⟩
      · exact ⟨_, hnew, Or.inr ⟨hqueue, Or.inl ⟨rfl, rfl⟩⟩⟩
      · refine ⟨call', hcall', hmove.turnedAway.imp_right fun h => ?_⟩
        exact ⟨h.1, Or.inr h.2⟩

section History

variable {ls : List (LoopLabel F ι ε)} (h : s.Inv) (hrun : (eventLoop F ι ε).run s ls = some t)

include h hrun

theorem Loop.forward_run : s.queue.state.Forward t.queue.state := by
  have hpreserves : (eventLoop F ι ε).Preserves fun m =>
      m.Inv ∧ s.queue.state.Forward m.queue.state := by
    intro m l m' hstep hm
    exact ⟨Loop.inv_preserved hstep hm.1, hm.2.trans (hm.1.forward hstep)⟩
  exact (hpreserves.run hrun ⟨h, Or.inl rfl⟩).2

theorem Loop.forward_prefix {ls₁ ls₂ : List (LoopLabel F ι ε)} {m : Loop F ι ε}
    (hls : ls = ls₁ ++ ls₂) (hfirst : (eventLoop F ι ε).run s ls₁ = some m) :
    m.queue.state.Forward t.queue.state := by
  subst hls
  obtain ⟨m', hm', hrest⟩ := (eventLoop F ι ε).run_append_eq_some.mp hrun
  obtain rfl : m = m' := by simpa [hfirst] using hm'
  exact Loop.forward_run (Loop.inv_preserved.run hfirst h) hrest

theorem Loop.length_entries_le_one : ((eventLoop F ι ε).shown Loop.entries s ls).length ≤ 1 :=
  (System.length_shown_le_one Loop.inv_preserved
    (fun _ _ _ hstep h hP => Loop.entries_stable h hstep hP)
    (fun _ _ _ hstep h => Loop.entries_once h hstep) hrun h).1

theorem Loop.length_wins_le_one : ((eventLoop F ι ε).shown Loop.wins s ls).length ≤ 1 :=
  (System.length_shown_le_one Loop.inv_preserved
    (fun _ _ _ hstep h hP => Loop.wins_stable h hstep hP)
    (fun _ _ _ hstep _ => Loop.wins_once hstep) hrun h).1

theorem Loop.length_exitCodes_le_one : ((eventLoop F ι ε).shown Loop.exitCodes s ls).length ≤ 1 :=
  (System.length_shown_le_one Loop.inv_preserved
    (fun _ _ _ hstep h hP => Loop.exitCodes_stable h hstep hP)
    (fun _ _ _ hstep _ => Loop.exitCodes_once hstep) hrun h).1

/-- The exit code is the one value that has been written to it, if any. -/
theorem Loop.exitCode_run : t.queue.exitCode =
    ((eventLoop F ι ε).shown Loop.exitCodes s ls).headD s.queue.exitCode := by
  have hlength := Loop.length_exitCodes_le_one h hrun
  rw [System.eq_foldl_shown (fun _ _ _ hstep => Loop.exitCode_step hstep) hrun]
  match hshown : (eventLoop F ι ε).shown Loop.exitCodes s ls, hlength with
  | [], _ => rfl
  | [value], _ => rfl

end History

/-- What is promised of the life of a queue on which nothing has been called at first. -/
structure Loop.Lifecycle (s start : Loop F ι ε) (ls : List (LoopLabel F ι ε)) : Prop where
  forward : ∀ ls₁ ls₂ m, ls = ls₁ ++ ls₂ → (eventLoop F ι ε).run start ls₁ = some m →
    m.queue.state.Forward s.queue.state
  last : ∀ ls₁ ls₂ m, ls = ls₁ ++ ls₂ → (eventLoop F ι ε).run start ls₁ = some m →
    m.queue.state = .stopped ∨ m.queue.state = .error → s.queue.state = m.queue.state
  entered : ∀ e, (s.execs e).Entered ↔ e ∈ (eventLoop F ι ε).shown Loop.entries start ls
  entered_once : ((eventLoop F ι ε).shown Loop.entries start ls).length ≤ 1
  won : ∀ id, (∃ call, s.Winner id call) ↔ id ∈ (eventLoop F ι ε).shown Loop.wins start ls
  won_once : ((eventLoop F ι ε).shown Loop.wins start ls).length ≤ 1
  stored_once : ((eventLoop F ι ε).shown Loop.exitCodes start ls).length ≤ 1
  exitCode : s.queue.exitCode =
    ((eventLoop F ι ε).shown Loop.exitCodes start ls).headD start.queue.exitCode
  turnedAway : (eventLoop F ι ε).Along
    (fun m l => ∀ m', (eventLoop F ι ε).step m l = some m' → m.TurnedAway m' l) start ls

/-- **The life of an event queue.** -/
theorem lifecycle_of_run {epfd evtfd : Cmn.Fd} {fds : Int → Option (Callbacks F)}
    {interest : Int → Option (BitVec 32)} {ls : List (LoopLabel F ι ε)}
    (hrun : (eventLoop F ι ε).run (Loop.start epfd evtfd fds interest) ls = some s) :
    s.Lifecycle (Loop.start epfd evtfd fds interest) ls := by
  have h := Loop.inv_start epfd evtfd fds interest (F := F) (ι := ι) (ε := ε)
  have hforward : ∀ ls₁ ls₂ m, ls = ls₁ ++ ls₂ →
      (eventLoop F ι ε).run (Loop.start epfd evtfd fds interest) ls₁ = some m →
      m.queue.state.Forward s.queue.state :=
    fun _ _ _ hls hfirst => Loop.forward_prefix h hrun hls hfirst
  refine ⟨hforward, fun ls₁ ls₂ m hls hfirst => (hforward ls₁ ls₂ m hls hfirst).last, ?_,
    Loop.length_entries_le_one h hrun, ?_, Loop.length_wins_le_one h hrun,
    Loop.length_exitCodes_le_one h hrun, Loop.exitCode_run h hrun, ?_⟩
  · intro e
    rw [System.holds_iff_mem_shown (fun _ _ _ hstep => Loop.entered_step hstep e) hrun]
    exact or_iff_right fun h => h rfl
  · intro id
    rw [System.holds_iff_mem_shown (fun _ _ _ hstep => Loop.winner_step hstep id) hrun]
    refine or_iff_right ?_
    rintro ⟨call, hcall, -⟩
    cases hcall
  · exact (eventLoop F ι ε).along_of_forall (fun _ _ _ hstep => Loop.turnedAway_step hstep) _ ls

/-- Two calls of `exec` and two of `stop`: the second ones are turned away. -/
theorem lifecycle_of_run_twice :
    let start : Loop Nat Nat Nat := Loop.start ⟨3⟩ ⟨4⟩ (fun _ => none) (fun _ => none)
    let labels : List (LoopLabel Nat Nat Nat) :=
      [.exec 0 .call, .exec 1 .call, .exec 1 .step, .exec 0 .step,
        .exec 1 (.drained (some eagain)), .stop 0 (.call 7), .stop 1 (.call 8), .stop 1 .step,
        .stop 0 .step, .stop 1 .step, .exec 1 .step, .exec 1 .step]
    ∃ s, (eventLoop Nat Nat Nat).run start labels = some s ∧ s.execs 1 = .returned 8 ∧
      s.execs 0 = .refused (.runtimeError "event queue not in idle state") ∧
      s.Lifecycle start labels :=
  ⟨_, rfl, rfl, rfl, lifecycle_of_run rfl⟩

end Runs

end Suc.Epl
