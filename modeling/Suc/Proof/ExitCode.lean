import Suc.Proof.LoopInvariant

/-!
# The value `exec` returns

A stop call changes the state and stores the exit code in two steps. The loop can end between the
two, when something other than the wake-up of this call ends the wait or the loop, and `exec` then
loads the exit code before it is stored.
-/

namespace Suc.Epl

variable {F ι ε : Type}

/-- Every value that an `exec` has returned is the argument of the one stop call whose exchange has
succeeded. -/
def Loop.ReturnsStopped (s : Loop F ι ε) : Prop :=
  ∀ e value, s.execs e = .returned value →
    ∃ id call, s.Winner id call ∧ call.value = value ∧
      ∀ id' call', s.Winner id' call' → id' = id

/-- When `exec` loads the exit code, the stop call whose exchange has succeeded has stored its
argument, unless that is the initial exit code. -/
def Loop.CodeStored (s : Loop F ι ε) : LoopLabel F ι ε → Prop
  | .exec e .step => s.execs e = .loadExit →
      ∀ id call, s.stops id = some call → call.pos = .store → call.value = 1
  | _ => True

/-- What `exec` loads is the argument of the winner, or the initial exit code that the winner has
not overwritten yet. -/
theorem Loop.Inv.exitCode_eq {s : Loop F ι ε} (h : s.Inv) {id : ι} {call : StopCall ε}
    (hw : s.Winner id call) :
    s.queue.exitCode = if call.pos = .store then 1 else call.value := by
  split
  · rename_i hstore
    refine h.stop.exitCode_initial ?_
    intro id' call' hw'
    obtain rfl := h.stop.winner_unique id id' call call' hw hw'
    obtain rfl : call = call' := by simpa [hw.1] using hw'.1
    exact hstore
  · rename_i hstored
    exact h.stop.exitCode_stored id call hw hstored

theorem Loop.Inv.exists_winner_of_leaving {s : Loop F ι ε} (h : s.Inv) {e : ε}
    (hplace : (s.execs e).place = .leaving) : ∃ id call, s.Winner id call := by
  have hcoherent := h.exec.coherent e
  rw [hplace] at hcoherent
  apply h.stop.exists_winner
  generalize s.queue.state = st at hcoherent
  cases hcoherent with
  | stopping => exact Or.inl rfl
  | stopped => exact Or.inr rfl

theorem ExecMove.of_returned {q q' : EventQueue F} {pos : ExecPos F ι} {act : ExecAct F ι}
    {value : Int} (h : ExecMove q pos act q' (.returned value)) :
    pos = .loadExit ∧ act = .step ∧ value = q.exitCode := by
  cases h
  exact ⟨rfl, rfl, rfl⟩

theorem ExecMove.of_loadExit {q q' : EventQueue F} {pos' : ExecPos F ι} {act : ExecAct F ι}
    (h : ExecMove q .loadExit act q' pos') : pos' = .returned q.exitCode := by
  cases h
  rfl

theorem ExecMove.not_returned {q q' : EventQueue F} {pos' : ExecPos F ι} {act : ExecAct F ι}
    {value : Int} : ¬ExecMove q (.returned value) act q' pos' := by
  intro h
  cases h

def Loop.AllStopped (s : Loop F ι ε) : Prop := s.Inv ∧ s.ReturnsStopped

def Loop.SomeEarly (s : Loop F ι ε) : Prop :=
  s.Inv ∧ ∃ e value id call, s.execs e = .returned value ∧ s.Winner id call ∧ call.value ≠ value

theorem Loop.SomeEarly.not_returnsStopped {s : Loop F ι ε} (h : s.SomeEarly) :
    ¬s.ReturnsStopped := by
  obtain ⟨hinv, e, value, id, call, hpos, hw, hne⟩ := h
  intro hreturns
  obtain ⟨id', call', hw', hvalue, -⟩ := hreturns e value hpos
  obtain rfl := hinv.stop.winner_unique id id' call call' hw hw'
  obtain rfl : call = call' := by simpa [hw.1] using hw'.1
  exact hne hvalue

section Runs

variable [DecidableEq ι] [DecidableEq ε]

theorem Loop.returned_step {s t : Loop F ι ε} {l : LoopLabel F ι ε}
    (hstep : (eventLoop F ι ε).step s l = some t) {e : ε} {value : Int}
    (hpos : s.execs e = .returned value) : t.execs e = .returned value := by
  rcases Loop.exec_cases hstep e with ⟨hsame, -⟩ | ⟨act, -, hmove⟩
  · rw [hsame, hpos]
  · rw [hpos] at hmove
    exact absurd hmove ExecMove.not_returned

theorem Loop.of_returned_step {s t : Loop F ι ε} {l : LoopLabel F ι ε}
    (hstep : (eventLoop F ι ε).step s l = some t) {e : ε} {value : Int}
    (hpos : t.execs e = .returned value) :
    s.execs e = .returned value ∨
      l = .exec e .step ∧ s.execs e = .loadExit ∧ value = s.queue.exitCode := by
  rcases Loop.exec_cases hstep e with ⟨hsame, -⟩ | ⟨act, rfl, hmove⟩
  · exact Or.inl (hsame ▸ hpos)
  · rw [hpos] at hmove
    obtain ⟨hload, rfl, hvalue⟩ := hmove.of_returned
    exact Or.inr ⟨rfl, hload, hvalue⟩

theorem Loop.AllStopped.step {s t : Loop F ι ε} {l : LoopLabel F ι ε}
    (hstep : (eventLoop F ι ε).step s l = some t) (h : s.AllStopped) (hstored : s.CodeStored l) :
    t.AllStopped := by
  have hinv := Loop.inv_preserved hstep h.1
  refine ⟨hinv, ?_⟩
  intro e value hpos
  obtain ⟨id, call, hw, hvalue⟩ : ∃ id call, s.Winner id call ∧ call.value = value := by
    rcases Loop.of_returned_step hstep hpos with hpos | ⟨rfl, hload, rfl⟩
    · obtain ⟨id, call, hw, hvalue, -⟩ := h.2 e value hpos
      exact ⟨id, call, hw, hvalue⟩
    · obtain ⟨id, call, hw⟩ := h.1.exists_winner_of_leaving (e := e) (by rw [hload]; rfl)
      refine ⟨id, call, hw, ?_⟩
      rw [h.1.exitCode_eq hw]
      split
      · exact hstored hload id call hw.1 ‹_›
      · rfl
  obtain ⟨call', hw', hsame, -⟩ := hw.step hstep
  exact ⟨id, call', hw', hsame.trans hvalue,
    fun id'' call'' hw'' => hinv.stop.winner_unique id'' id call'' call' hw'' hw'⟩

theorem Loop.AllStopped.step_early {s t : Loop F ι ε} {l : LoopLabel F ι ε}
    (hstep : (eventLoop F ι ε).step s l = some t) (h : s.AllStopped) (hearly : ¬s.CodeStored l) :
    t.SomeEarly := by
  have hinv := Loop.inv_preserved hstep h.1
  cases l with
  | stop id act => exact absurd trivial hearly
  | exec e act =>
      cases act with
      | step =>
          simp only [Loop.CodeStored, not_forall] at hearly
          obtain ⟨hload, id, call, hcall, hpos, hvalue⟩ := hearly
          have hw : s.Winner id call := ⟨hcall, by rw [hpos]; rfl⟩
          obtain ⟨call', hw', hsame, -⟩ := hw.step hstep
          obtain ⟨hmove, -, -⟩ := Loop.step_exec hstep
          rw [hload] at hmove
          refine ⟨hinv, e, s.queue.exitCode, id, call', hmove.of_loadExit, hw', ?_⟩
          rw [hsame, h.1.exitCode_eq hw, if_pos hpos]
          exact hvalue
      | _ => exact absurd trivial hearly

theorem Loop.someEarly_preserved : (eventLoop F ι ε).Preserves Loop.SomeEarly := by
  intro s l t hstep h
  obtain ⟨hinv, e, value, id, call, hpos, hw, hne⟩ := h
  obtain ⟨call', hw', hsame, -⟩ := hw.step hstep
  exact ⟨Loop.inv_preserved hstep hinv, e, value, id, call', Loop.returned_step hstep hpos, hw',
    by rwa [hsame]⟩

/-- **The value `exec` returns.** In every run, whatever is returned is the argument of the stop
call whose exchange succeeded if and only if no exit code is loaded before that call has stored
it. -/
theorem returnsStopped_iff_codeStored {epfd evtfd : Cmn.Fd} {fds : Int → Option (Callbacks F)}
    {interest : Int → Option (BitVec 32)} {ls : List (LoopLabel F ι ε)} {s : Loop F ι ε}
    (hrun : (eventLoop F ι ε).run (Loop.start epfd evtfd fds interest) ls = some s) :
    s.ReturnsStopped ↔
      (eventLoop F ι ε).Along Loop.CodeStored (Loop.start epfd evtfd fds interest) ls := by
  have hstart : (Loop.start epfd evtfd fds interest : Loop F ι ε).AllStopped :=
    ⟨Loop.inv_start epfd evtfd fds interest, fun e value hpos => by cases hpos⟩
  rcases Transition.System.run_good_or_bad (fun _ _ _ hstep h hC => h.step hstep hC)
    (fun _ _ _ hstep h hC => h.step_early hstep hC) Loop.someEarly_preserved hrun hstart with
    ⟨halong, hgood⟩ | ⟨halong, hearly⟩
  · exact ⟨fun _ => halong, fun _ => hgood.2⟩
  · exact ⟨fun hreturns => absurd hreturns hearly.not_returnsStopped, fun h => absurd h halong⟩

theorem returnsStopped_iff_codeStored_waiting :
    let start : Loop Nat Nat Nat := Loop.start ⟨3⟩ ⟨4⟩ (fun _ => none) (fun _ => none)
    let labels : List (LoopLabel Nat Nat Nat) :=
      [.exec 0 .call, .exec 0 .step, .exec 0 (.drained (some eagain)), .exec 0 .step,
        .exec 0 .epollWait, .stop 0 (.call 7), .stop 0 .step, .stop 0 .step,
        .stop 0 (.written none), .exec 0 (.woken (.ok [⟨epollIn, 4⟩])), .exec 0 .step,
        .exec 0 .step]
    ∃ s, (eventLoop Nat Nat Nat).run start labels = some s ∧ s.execs 0 = .returned 7 ∧
      (s.ReturnsStopped ↔ (eventLoop Nat Nat Nat).Along Loop.CodeStored start labels) :=
  ⟨_, rfl, rfl, returnsStopped_iff_codeStored rfl⟩

/-- An unrelated event wakes `exec` between the exchange of a stop call with argument 7 and its store:
`exec` returns the initial exit code. -/
theorem not_returnsStopped_of_early_load :
    let start : Loop Nat Nat Nat := Loop.start ⟨3⟩ ⟨4⟩ (fun _ => none) (fun _ => none)
    let labels : List (LoopLabel Nat Nat Nat) :=
      [.exec 0 .call, .exec 0 .step, .exec 0 (.drained (some eagain)), .exec 0 .step,
        .exec 0 .epollWait, .stop 0 (.call 7), .stop 0 .step,
        .exec 0 (.woken (.ok [⟨epollIn, 5⟩])), .exec 0 .step, .exec 0 .step]
    ∃ s, (eventLoop Nat Nat Nat).run start labels = some s ∧ s.execs 0 = .returned 1 ∧
      s.Winner 0 ⟨7, none, .store⟩ ∧ ¬s.ReturnsStopped := by
  refine ⟨_, rfl, rfl, ⟨rfl, rfl⟩, ?_⟩
  intro hreturns
  obtain ⟨id, call, hw, hvalue, hunique⟩ := hreturns 0 1 rfl
  obtain rfl : 0 = id := hunique 0 ⟨7, none, .store⟩ ⟨rfl, rfl⟩
  have hcall : (⟨7, none, .store⟩ : StopCall Nat) = call := Option.some.inj hw.1
  rw [← hcall] at hvalue
  cases hvalue

end Runs

end Suc.Epl
