import Suc.Proof.LoopInvariant

/-!
# Waking `exec` up

The counter of the event descriptor is not zero exactly when a stop call has written it after the
initial read of `exec`. That read comes before the first test of the state, and a stop call writes
after its exchange: a write that the read has swallowed is one whose exchange the test sees.
-/

namespace Suc.Epl

variable {F ι ε : Type}

def ExecPos.AtWait (pos : ExecPos F ι) : Prop := pos = .wait ∨ pos = .waiting

theorem ExecPos.AtWait.entered {pos : ExecPos F ι} (h : pos.AtWait) : pos.Entered := by
  rcases h with rfl | rfl <;> exact Place.noConfusion

theorem ExecMove.of_atWait {q q' : EventQueue F} {pos pos' : ExecPos F ι} {act : ExecAct F ι}
    (h : ExecMove q pos act q' pos') (hwait : pos'.AtWait) :
    q'.counter = q.counter ∧ (q.state = .running ∨ pos.AtWait) := by
  cases h with
  | goOn hrunning => exact ⟨rfl, Or.inl hrunning⟩
  | epollWait => exact ⟨rfl, Or.inr (Or.inl rfl)⟩
  | _ => rcases hwait with hpos | hpos <;> cases hpos

theorem StopMove.counter_eq {q q' : EventQueue F} {call call' : StopCall ε} {act : StopAct}
    (h : StopMove q call act q' call') :
    call'.pos ≠ .returned ∧ q'.counter = q.counter ∨
      call'.pos = .returned ∧ q'.counter = q.counter + 1 := by
  cases h <;> simp

/-- The counter is zero until the stop call that has won has written it, and not zero while a call
of `exec` waits after that write. -/
structure Loop.WakeInv (s : Loop F ι ε) : Prop where
  inv : s.Inv
  quiet : (∀ id call, s.Winner id call → call.pos ≠ .returned) → s.queue.counter = 0
  signalled : ∀ e id call, (s.execs e).AtWait → s.Winner id call → call.pos = .returned →
    s.queue.counter ≠ 0

section Runs

variable [DecidableEq ι] [DecidableEq ε]

theorem Loop.counter_step {s t : Loop F ι ε} {l : LoopLabel F ι ε}
    (hstep : (eventLoop F ι ε).step s l = some t) :
    t.queue.counter = s.queue.counter ∨
      (∃ e act, l = .exec e act ∧ s.execs e = .drain ∧ t.execs e = .whileTest ∧
        t.queue.counter = 0) ∨
      ∃ id call, t.Winner id call ∧ call.pos = .returned ∧
        t.queue.counter = s.queue.counter + 1 := by
  cases l with
  | exec e act =>
      obtain ⟨hmove, -, -⟩ := Loop.step_exec hstep
      rcases hmove.counter_eq with hsame | ⟨hdrain, htest, hzero⟩
      · exact Or.inl hsame
      · exact Or.inr (Or.inl ⟨e, act, rfl, hdrain, htest, hzero⟩)
  | stop id act =>
      obtain ⟨-, -, hmoves⟩ := Loop.step_stop hstep
      rcases hmoves with ⟨value, -, -, hqueue, -⟩ | ⟨call, call', -, hcall', hmove⟩
      · exact Or.inl (by rw [hqueue])
      · rcases hmove.counter_eq with ⟨-, hsame⟩ | ⟨hpos, hcounter⟩
        · exact Or.inl hsame
        · exact Or.inr (Or.inr ⟨id, call', ⟨hcall', by rw [hpos]; rfl⟩, hpos, hcounter⟩)

theorem Loop.Winner.of_step {s t : Loop F ι ε} {l : LoopLabel F ι ε}
    (hstep : (eventLoop F ι ε).step s l = some t) {id : ι} {call : StopCall ε}
    (h : t.Winner id call) (hpos : call.pos = .returned) :
    s.Winner id call ∨ t.queue.counter = s.queue.counter + 1 := by
  obtain ⟨hcall, hwon⟩ := h
  rcases Loop.stop_cases hstep id with
    ⟨hsame, -⟩ | ⟨value, caller, -, hnew, -⟩ | ⟨act, old, call', -, -, hcall', hmove⟩
  · exact Or.inl ⟨hsame ▸ hcall, hwon⟩
  · obtain rfl : ⟨value, caller, .exchange⟩ = call := by simpa [hnew] using hcall
    cases hpos
  · obtain rfl : call' = call := by simpa [hcall'] using hcall
    rcases hmove.counter_eq with ⟨hnot, -⟩ | ⟨-, hcounter⟩
    · exact absurd hpos hnot
    · exact Or.inr hcounter

theorem Loop.Inv.of_atWait_step {s t : Loop F ι ε} (h : s.Inv) {l : LoopLabel F ι ε}
    (hstep : (eventLoop F ι ε).step s l = some t) {e : ε} (hwait : (t.execs e).AtWait) :
    s.queue.state = .running ∨ (s.execs e).AtWait ∧ ∀ e', s.execs e' ≠ .drain := by
  have hnodrain : (s.execs e).AtWait → ∀ e', s.execs e' ≠ .drain := by
    intro hwait e' hdrain
    have hentered : (s.execs e').Entered := by
      rw [hdrain]
      exact Place.noConfusion
    obtain rfl := h.exec.unique e e' hwait.entered hentered
    rw [hdrain] at hwait
    rcases hwait with hpos | hpos <;> cases hpos
  rcases Loop.exec_cases hstep e with ⟨hsame, -⟩ | ⟨act, -, hmove⟩
  · rw [hsame] at hwait
    exact Or.inr ⟨hwait, hnodrain hwait⟩
  · rcases (hmove.of_atWait hwait).2 with hrunning | hold
    · exact Or.inl hrunning
    · exact Or.inr ⟨hold, hnodrain hold⟩

theorem Loop.wakeInv_preserved : (eventLoop F ι ε).Preserves Loop.WakeInv := by
  intro s l t hstep h
  refine ⟨Loop.inv_preserved hstep h.inv, ?_, ?_⟩
  · intro hnone
    rcases Loop.counter_step hstep with hsame | ⟨e, act, -, -, -, hzero⟩ | ⟨id, call, hw, hpos, -⟩
    · rw [hsame]
      apply h.quiet
      intro id call hw hpos
      obtain ⟨call', hw', -, hstays⟩ := hw.step hstep
      exact hnone id call' hw' (by rw [hstays hpos, hpos])
    · exact hzero
    · exact absurd hpos (hnone id call hw)
  · intro e id call hwait hw hpos
    rcases hw.of_step hstep hpos with hold | hcounter
    · have hstate := (h.inv.stop.winner_state id call hold).2
      obtain ⟨hwaited, hnodrain⟩ :=
        (h.inv.of_atWait_step hstep hwait).resolve_left hstate
      have hsignalled := h.signalled e id call hwaited hold hpos
      rcases Loop.counter_step hstep with hsame | ⟨e', act, -, hdrain, -⟩ | ⟨-, -, -, -, hmore⟩
      · rwa [hsame]
      · exact absurd hdrain (hnodrain e')
      · omega
    · omega

/-- **No lost and no stuck wake-up.** In every state that a run reaches: when a stop call has
succeeded and written the counter, a call of `exec` that is about to wait or waits finds the counter
not zero; and while the queue is running the counter is zero. -/
theorem counter_of_run {epfd evtfd : Cmn.Fd} {fds : Int → Option (Callbacks F)}
    {interest : Int → Option (BitVec 32)} {ls : List (LoopLabel F ι ε)} {s : Loop F ι ε}
    (hrun : (eventLoop F ι ε).run (Loop.start epfd evtfd fds interest) ls = some s) :
    (∀ e id call, s.execs e = .wait ∨ s.execs e = .waiting → s.Winner id call →
        call.pos = .returned → s.queue.counter ≠ 0) ∧
      (s.queue.state = .running → s.queue.counter = 0) := by
  have hstart : (Loop.start epfd evtfd fds interest : Loop F ι ε).WakeInv :=
    { inv := Loop.inv_start epfd evtfd fds interest
      quiet := fun _ => rfl
      signalled := fun e id call _ hw => by simp [Loop.Winner, Loop.start] at hw }
  have h := Loop.wakeInv_preserved.run hrun hstart
  refine ⟨h.signalled, ?_⟩
  intro hrunning
  apply h.quiet
  intro id call hw
  exact absurd hrunning (h.inv.stop.winner_state id call hw).2

theorem counter_of_run_stop :
    let labels : List (LoopLabel Nat Nat Nat) :=
      [.exec 0 .call, .exec 0 .step, .exec 0 (.drained (some eagain)), .exec 0 .step,
        .stop 0 (.call 7), .stop 0 .step, .stop 0 .step, .stop 0 (.written none),
        .exec 0 .epollWait]
    ∃ s, (eventLoop Nat Nat Nat).run (Loop.start ⟨3⟩ ⟨4⟩ (fun _ => none) fun _ => none) labels =
        some s ∧ s.execs 0 = .waiting ∧ s.queue.counter ≠ 0 := by
  intro labels
  refine ⟨_, rfl, rfl, ?_⟩
  have hrun := @counter_of_run Nat Nat Nat _ _ ⟨3⟩ ⟨4⟩ (fun _ => none) (fun _ => none) labels _ rfl
  exact hrun.1 0 0 ⟨7, none, .returned⟩ (Or.inr rfl) ⟨rfl, rfl⟩ rfl

end Runs

end Suc.Epl
