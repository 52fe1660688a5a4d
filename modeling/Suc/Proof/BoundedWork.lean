import Suc.Proof.LoopInvariant

/-!
# Work after a stop

Once the exchange of a stop call has succeeded, the queue is not running any more, and every way to
another wait or another callback leads through a test of the state. What is left is the wait or the
callback that a call of `exec` was about to begin when the stop came, and a callback that makes the
stop call itself is already under way.
-/

namespace Suc.Epl

variable {F ι ε : Type}

def ExecAct.begins : ExecAct F ι → Bool
  | .epollWait | .invoke => true
  | _ => false

def LoopLabel.begins : LoopLabel F ι ε → Bool
  | .exec _ act => act.begins
  | .stop _ _ => false

/-- Where a call has passed the test that guards its next wait or callback. -/
def ExecPos.pending : ExecPos F ι → Bool
  | .wait | .find _ _ | .scan _ | .refind _ => true
  | _ => false

theorem ExecMove.begins_le {q q' : EventQueue F} {pos pos' : ExecPos F ι} {act : ExecAct F ι}
    (h : ExecMove q pos act q' pos') (hrunning : q.state ≠ .running) (hidle : q.state ≠ .idle) :
    act.begins.toNat + pos'.pending.toNat ≤ pos.pending.toNat := by
  cases h with
  | enter h => exact absurd h hidle
  | goOn h => exact absurd h hrunning
  | next _ _ h => exact absurd h hrunning
  | runGo _ h => exact absurd h hrunning
  | _ => simp [ExecAct.begins, ExecPos.pending]

theorem ExecMove.entered_of_begins {q q' : EventQueue F} {pos pos' : ExecPos F ι}
    {act : ExecAct F ι} (h : ExecMove q pos act q' pos') (hbegins : act.begins) : pos.Entered := by
  cases h with
  | epollWait => exact Place.noConfusion
  | invoke => exact Place.noConfusion
  | _ => cases hbegins

/-- A queue on which a stop has succeeded, and the call of `exec` that it stops. -/
structure Loop.Halting (e : ε) (s : Loop F ι ε) : Prop where
  inv : s.Inv
  halted : s.queue.state ≠ .idle ∧ s.queue.state ≠ .running
  entered : (s.execs e).Entered

theorem Loop.Inv.not_pending_of_caller {s : Loop F ι ε} (h : s.Inv) {id : ι} {call : StopCall ε}
    {e : ε} (hcall : s.stops id = some call) (hcaller : call.caller = some e)
    (hopen : call.ended = false) : (s.execs e).Entered ∧ (s.execs e).pending = false := by
  obtain ⟨c, func, hpos⟩ := h.stop.caller id call e hcall hcaller hopen
  rw [hpos]
  exact ⟨Place.noConfusion, rfl⟩

section Runs

variable [DecidableEq ι] [DecidableEq ε]

theorem Loop.entered_of_step {s t : Loop F ι ε} {l : LoopLabel F ι ε}
    (hstep : (eventLoop F ι ε).step s l = some t) {e : ε} (he : (s.execs e).Entered) :
    (t.execs e).Entered := by
  rcases Loop.exec_cases hstep e with ⟨hsame, -⟩ | ⟨act, -, hmove⟩
  · rwa [hsame]
  · exact hmove.flow.not_outside he

theorem Loop.halting_preserved (e : ε) : (eventLoop F ι ε).Preserves (Loop.Halting e) := by
  intro s l t hstep h
  refine ⟨Loop.inv_preserved hstep h.inv, ?_, Loop.entered_of_step hstep h.entered⟩
  cases l with
  | exec e' act =>
      obtain ⟨hmove, -, -⟩ := Loop.step_exec hstep
      exact hmove.flow.winner_state h.halted
  | stop id act =>
      rcases Loop.state_stop hstep with hsame | ⟨hrunning, -⟩
      · rw [hsame]
        exact h.halted
      · exact absurd hrunning h.halted.2

theorem Loop.Halting.begins_le {e : ε} {s t : Loop F ι ε} {l : LoopLabel F ι ε}
    (hstep : (eventLoop F ι ε).step s l = some t) (h : s.Halting e) :
    l.begins.toNat + (t.execs e).pending.toNat ≤ (s.execs e).pending.toNat := by
  cases l with
  | exec e' act =>
      obtain ⟨hmove, hothers, -⟩ := Loop.step_exec hstep
      by_cases heq : e = e'
      · subst heq
        exact hmove.begins_le h.halted.2 h.halted.1
      · -- another call is still outside, so it begins nothing
        have hbegins : act.begins = false := by
          by_contra hact
          have hentered := hmove.entered_of_begins (by simpa using hact)
          exact heq (h.inv.exec.unique e e' h.entered hentered)
        rw [hothers e heq]
        simp [LoopLabel.begins, hbegins]
  | stop id act =>
      obtain ⟨hexecs, -, -⟩ := Loop.step_stop hstep
      rw [hexecs]
      simp [LoopLabel.begins]

theorem Loop.Halting.countP_begins_le {e : ε} {s t : Loop F ι ε} {ls : List (LoopLabel F ι ε)}
    (hrun : (eventLoop F ι ε).run s ls = some t) (h : s.Halting e) :
    ls.countP LoopLabel.begins ≤ (s.execs e).pending.toNat := by
  have hcount := Transition.System.count_add_budget_le (Loop.halting_preserved e) LoopLabel.begins
    (fun s => (s.execs e).pending.toNat) (fun _ _ _ hstep hs => hs.begins_le hstep) hrun h
  calc ls.countP LoopLabel.begins
      ≤ ls.countP LoopLabel.begins + (t.execs e).pending.toNat := Nat.le_add_right _ _
    _ ≤ (s.execs e).pending.toNat := hcount

/-- **Bounded work after a stop.** After the step in which the exchange of a stop call succeeds, at
most one wait or callback is begun, however the run goes on, and none if a callback made the
call. -/
theorem countP_begins_le_one_of_stop {epfd evtfd : Cmn.Fd} {fds : Int → Option (Callbacks F)}
    {interest : Int → Option (BitVec 32)} {before after : List (LoopLabel F ι ε)}
    {s t u : Loop F ι ε} {id : ι} {call : StopCall ε}
    (hbefore : (eventLoop F ι ε).run (Loop.start epfd evtfd fds interest) before = some s)
    (hcall : s.stops id = some call) (hpos : call.pos = .exchange)
    (hrunning : s.queue.state = .running)
    (hstop : (eventLoop F ι ε).step s (.stop id .step) = some t)
    (hafter : (eventLoop F ι ε).run t after = some u) :
    after.countP LoopLabel.begins ≤ 1 ∧
      (call.caller.isSome → after.countP LoopLabel.begins = 0) := by
  have hinv : s.Inv := Loop.inv_preserved.run hbefore (Loop.inv_start epfd evtfd fds interest)
  obtain ⟨hexecs, -, hmoves⟩ := Loop.step_stop hstop
  have hstopping : t.queue.state = .stopping := by
    rcases hmoves with ⟨value, hact, -⟩ | ⟨old, call', hold, -, hmove⟩
    · cases hact
    · obtain rfl : call = old := by simpa [hcall] using hold
      exact hmove.stopping_of_exchange hpos hrunning
  have hhalting : ∀ e, (s.execs e).Entered → t.Halting e := fun e he =>
    ⟨Loop.inv_preserved hstop hinv, by simp [hstopping], by rw [hexecs]; exact he⟩
  refine ⟨?_, ?_⟩
  · obtain ⟨e, he⟩ := hinv.exec.entered (by simp [hrunning])
    calc after.countP LoopLabel.begins
        ≤ (t.execs e).pending.toNat := (hhalting e he).countP_begins_le hafter
      _ ≤ 1 := Bool.toNat_le _
  · intro hcaller
    obtain ⟨e, hcaller⟩ := Option.isSome_iff_exists.mp hcaller
    obtain ⟨he, hpending⟩ := hinv.not_pending_of_caller hcall hcaller (by simp [StopCall.ended, hpos])
    have hcount := (hhalting e he).countP_begins_le hafter
    rw [hexecs, hpending] at hcount
    exact Nat.le_zero.mp hcount

theorem countP_begins_le_one_of_stop_wait :
    let before : List (LoopLabel Nat Nat Nat) :=
      [.exec 0 .call, .exec 0 .step, .exec 0 (.drained (some eagain)), .exec 0 .step,
        .stop 0 (.call 7)]
    let after : List (LoopLabel Nat Nat Nat) :=
      [.exec 0 .epollWait, .exec 0 (.woken (.error eintr)), .stop 0 .step, .exec 0 .step]
    ∃ s t u, (eventLoop Nat Nat Nat).run (Loop.start ⟨3⟩ ⟨4⟩ (fun _ => none) fun _ => none) before =
        some s ∧
      (eventLoop Nat Nat Nat).step s (.stop 0 .step) = some t ∧
      (eventLoop Nat Nat Nat).run t after = some u ∧ u.execs 0 = .loadExit ∧
      after.countP LoopLabel.begins ≤ 1 := by
  intro before after
  exact ⟨_, _, _, rfl, rfl, rfl, rfl, (@countP_begins_le_one_of_stop Nat Nat Nat _ _ ⟨3⟩ ⟨4⟩
    (fun _ => none) (fun _ => none) before after _ _ _ 0 _ rfl rfl rfl rfl rfl rfl).1⟩

end Runs

end Suc.Epl
