import Suc.Proof.LoopInvariant

/-!
# The state after `exec`

The state of the queue is meant to say whether an `exec` is under way, and the way out through the
exchange after `epoll_wait` keeps it so, as does a failing `epoll_wait`. The other ways out do not
touch the state: a stop that comes while the loop is not about to wait is seen by a test that only
ends the loop, and an exception passes by.
-/

namespace Suc.Epl

variable {F ι ε : Type}

/-- The places of a call in a state that tells the truth about it. -/
inductive Agrees : State → Place → Prop where
  | outside (st : State) : Agrees st .outside
  | runningLoop : Agrees .running .loop
  | runningWaiting : Agrees .running .waiting
  | stoppingWaiting : Agrees .stopping .waiting
  | stoppedLeaving : Agrees .stopped .leaving
  | errorFailed : Agrees .error .failed

/-- The places of a call in a state that does not, or will not when the call has left. -/
inductive Astray : State → Place → Prop where
  | runningFailed : Astray .running .failed
  | stoppingLoop : Astray .stopping .loop
  | stoppingLeaving : Astray .stopping .leaving
  | stoppingFailed : Astray .stopping .failed

theorem Flow.agrees {o : Bool} {st st' : State} {p p' : Place} (h : Flow o st p st' p')
    (ho : o = true) (hp : Agrees st p) : Agrees st' p' := by
  cases h with
  | stay => exact hp
  | enter => exact .runningLoop
  | wait => exact .runningWaiting
  | leave _ hst =>
      cases hp
      exact absurd rfl hst
  | abandon => cases ho
  | interrupted =>
      cases hp with
      | runningWaiting => exact .runningLoop
      | stoppingWaiting => simp at ho
  | fail => exact .errorFailed
  | stopped => exact .stoppedLeaving
  | dispatch _ hst =>
      cases hp with
      | runningWaiting => exact .runningLoop
      | stoppingWaiting => exact absurd rfl hst

theorem Flow.astray_of_agrees {o : Bool} {st st' : State} {p p' : Place}
    (h : Flow o st p st' p') (ho : o = false) (hp : Agrees st p) : Astray st' p' := by
  cases h with
  | abandon =>
      cases hp
      exact .runningFailed
  | interrupted =>
      cases hp with
      | runningWaiting => simp at ho
      | stoppingWaiting => exact .stoppingLoop
  | _ => cases ho

theorem Flow.astray {o : Bool} {st st' : State} {p p' : Place} (h : Flow o st p st' p')
    (hp : Astray st p) : Astray st' p' := by
  cases h with
  | stay => exact hp
  | leave =>
      cases hp
      exact .stoppingLeaving
  | abandon =>
      cases hp
      exact .stoppingFailed
  | _ => cases hp

theorem Astray.entered {st : State} {pos : ExecPos F ι} (h : Astray st pos.place) :
    pos.Entered := by
  unfold ExecPos.Entered
  generalize pos.place = p at h
  cases h <;> decide

/-! ### Orderly runs -/

/-- What `exec` copes with: its initial read does not fail otherwise than with `EAGAIN`, no callback
throws anything but a `std::exception`, a wait to which a stop has come is not interrupted, and the
exchange of a stop succeeds only between the while test and the exchange after the wait. -/
def Loop.Orderly (s : Loop F ι ε) : LoopLabel F ι ε → Prop
  | .exec _ act => act.orderly s.queue.state
  | .stop id .step => (∃ call, s.stops id = some call ∧ call.pos = .exchange) →
      s.queue.state = .running → ∀ e, (s.execs e).place ≠ .loop
  | .stop _ _ => True

def ExecPos.Left (pos : ExecPos F ι) : Prop :=
  (∃ value, pos = .returned value) ∨ ∃ exc, pos = .threw exc

def ExecPos.Active (pos : ExecPos F ι) : Prop :=
  pos.Entered ∧ ¬pos.Left

/-- What the state promises: `Stopped` after a normal return, `Error` after an exception, and
`Running` or `Stopping` only while a call is active. -/
structure Loop.Settled (s : Loop F ι ε) : Prop where
  returned : ∀ e value, s.execs e = .returned value → s.queue.state = .stopped
  threw : ∀ e exc, s.execs e = .threw exc → s.queue.state = .error
  active : s.queue.state = .running ∨ s.queue.state = .stopping → ∃ e, (s.execs e).Active

def Loop.AllAgree (s : Loop F ι ε) : Prop :=
  s.Inv ∧ ∀ e, Agrees s.queue.state (s.execs e).place

def Loop.SomeAstray (s : Loop F ι ε) : Prop :=
  s.Inv ∧ ∃ e, Astray s.queue.state (s.execs e).place

theorem Loop.AllAgree.settled {s : Loop F ι ε} (h : s.AllAgree) : s.Settled where
  returned e value hpos := by
    have hagrees := h.2 e
    rw [hpos] at hagrees
    generalize s.queue.state = st at hagrees
    cases hagrees
    rfl
  threw e exc hpos := by
    have hagrees := h.2 e
    rw [hpos] at hagrees
    generalize s.queue.state = st at hagrees
    cases hagrees
    rfl
  active hst := by
    obtain ⟨e, he⟩ := h.1.exec.entered (by rcases hst with hst | hst <;> simp [hst])
    refine ⟨e, he, ?_⟩
    have hagrees := h.2 e
    rintro (⟨value, hpos⟩ | ⟨exc, hpos⟩) <;>
    · rw [hpos] at hagrees
      generalize s.queue.state = st at hagrees hst
      cases hagrees
      simp at hst

theorem Loop.SomeAstray.not_settled {s : Loop F ι ε} (h : s.SomeAstray)
    (hleft : ∃ e, (s.execs e).Left) : ¬s.Settled := by
  obtain ⟨hinv, e, hastray⟩ := h
  obtain ⟨e', hleft⟩ := hleft
  have hentered : (s.execs e').Entered := by
    rcases hleft with ⟨value, hpos⟩ | ⟨exc, hpos⟩ <;> simp [ExecPos.Entered, hpos, ExecPos.place]
  obtain rfl := hinv.exec.unique e e' hastray.entered hentered
  intro hsettled
  rcases hleft with ⟨value, hpos⟩ | ⟨exc, hpos⟩
  · rw [hpos, hsettled.returned e value hpos] at hastray
    cases hastray
  · rw [hpos, hsettled.threw e exc hpos] at hastray
    cases hastray

section Runs

variable [DecidableEq ι] [DecidableEq ε]

theorem Loop.AllAgree.step {s t : Loop F ι ε} {l : LoopLabel F ι ε}
    (hstep : (eventLoop F ι ε).step s l = some t) (h : s.AllAgree) (horderly : s.Orderly l) :
    t.AllAgree := by
  refine ⟨Loop.inv_preserved hstep h.1, ?_⟩
  cases l with
  | exec e act =>
      obtain ⟨hmove, hothers, -⟩ := Loop.step_exec hstep
      intro e'
      by_cases heq : e' = e
      · exact heq ▸ hmove.flow.agrees horderly (h.2 e)
      · rw [hothers e' heq]
        by_cases he' : (s.execs e').Entered
        · rw [(h.1.exec.state_eq_of_ne hmove heq he').1]
          exact h.2 e'
        · rw [Classical.not_not.mp he']
          exact .outside _
  | stop id act =>
      obtain ⟨hexecs, -, -⟩ := Loop.step_stop hstep
      intro e
      have hagrees := h.2 e
      rw [hexecs]
      rcases Loop.state_stop hstep with hsame | ⟨hrunning, hstopping, rfl, hexchange⟩
      · rwa [hsame]
      · have hplace := horderly hexchange hrunning e
        rw [hrunning] at hagrees
        rw [hstopping]
        generalize (s.execs e).place = p at hagrees hplace
        cases hagrees with
        | outside => exact .outside _
        | runningLoop => exact absurd rfl hplace
        | runningWaiting => exact .stoppingWaiting

theorem Loop.AllAgree.step_astray {s t : Loop F ι ε} {l : LoopLabel F ι ε}
    (hstep : (eventLoop F ι ε).step s l = some t) (h : s.AllAgree) (horderly : ¬s.Orderly l) :
    t.SomeAstray := by
  refine ⟨Loop.inv_preserved hstep h.1, ?_⟩
  cases l with
  | exec e act =>
      obtain ⟨hmove, -, -⟩ := Loop.step_exec hstep
      exact ⟨e, hmove.flow.astray_of_agrees (by simpa [Loop.Orderly] using horderly) (h.2 e)⟩
  | stop id act =>
      obtain ⟨hexecs, -, hmoves⟩ := Loop.step_stop hstep
      cases act with
      | step =>
          simp only [Loop.Orderly, Classical.not_imp, not_forall, Classical.not_not] at horderly
          obtain ⟨⟨call, hcall, hpos⟩, hrunning, e, hplace⟩ := horderly
          rcases hmoves with ⟨value, hact, -⟩ | ⟨call', call'', hcall', -, hmove⟩
          · cases hact
          · obtain rfl : call = call' := by simpa [hcall] using hcall'
            refine ⟨e, ?_⟩
            rw [hexecs, hplace, hmove.stopping_of_exchange hpos hrunning]
            exact .stoppingLoop
      | call value => exact absurd trivial horderly
      | written failure => exact absurd trivial horderly

theorem Loop.someAstray_preserved : (eventLoop F ι ε).Preserves Loop.SomeAstray := by
  intro s l t hstep h
  refine ⟨Loop.inv_preserved hstep h.1, ?_⟩
  obtain ⟨hinv, e, hastray⟩ := h
  cases l with
  | exec e' act =>
      obtain ⟨hmove, hothers, -⟩ := Loop.step_exec hstep
      by_cases heq : e = e'
      · exact ⟨e', hmove.flow.astray (heq ▸ hastray)⟩
      · refine ⟨e, ?_⟩
        rw [hothers e heq, (hinv.exec.state_eq_of_ne hmove heq hastray.entered).1]
        exact hastray
  | stop id act =>
      obtain ⟨hexecs, -, -⟩ := Loop.step_stop hstep
      refine ⟨e, ?_⟩
      rw [hexecs]
      rcases Loop.state_stop hstep with hsame | ⟨hrunning, hstopping, -⟩
      · rwa [hsame]
      · rw [hrunning] at hastray
        rw [hstopping]
        generalize (s.execs e).place = p at hastray
        cases hastray
        exact .stoppingFailed

/-- **The state after `exec`.** A run of orderly steps keeps what the state promises, and a run after
which a call of `exec` has left keeps it only if all its steps are orderly. -/
theorem settled_iff_orderly {epfd evtfd : Cmn.Fd} {fds : Int → Option (Callbacks F)}
    {interest : Int → Option (BitVec 32)} {ls : List (LoopLabel F ι ε)} {s : Loop F ι ε}
    (hrun : (eventLoop F ι ε).run (Loop.start epfd evtfd fds interest) ls = some s) :
    ((eventLoop F ι ε).Along Loop.Orderly (Loop.start epfd evtfd fds interest) ls →
        s.Settled) ∧
      ((∃ e, (s.execs e).Left) →
        (s.Settled ↔
          (eventLoop F ι ε).Along Loop.Orderly (Loop.start epfd evtfd fds interest) ls)) := by
  have hstart : (Loop.start epfd evtfd fds interest : Loop F ι ε).AllAgree :=
    ⟨Loop.inv_start epfd evtfd fds interest, fun _ => .outside _⟩
  rcases Transition.System.run_good_or_bad (fun _ _ _ hstep h hC => h.step hstep hC)
    (fun _ _ _ hstep h hC => h.step_astray hstep hC) Loop.someAstray_preserved hrun hstart with
    ⟨halong, hagree⟩ | ⟨halong, hastray⟩
  · exact ⟨fun _ => hagree.settled, fun _ => ⟨fun _ => halong, fun _ => hagree.settled⟩⟩
  · refine ⟨fun h => absurd h halong, fun hleft => ⟨fun hsettled => ?_, fun h => absurd h halong⟩⟩
    exact absurd hsettled (hastray.not_settled hleft)

theorem settled_iff_orderly_waiting :
    let start : Loop Nat Nat Nat := Loop.start ⟨3⟩ ⟨4⟩ (fun _ => none) (fun _ => none)
    let labels : List (LoopLabel Nat Nat Nat) :=
      [.exec 0 .call, .exec 0 .step, .exec 0 (.drained (some eagain)), .exec 0 .step,
        .exec 0 .epollWait, .stop 0 (.call 7), .stop 0 .step, .stop 0 .step,
        .stop 0 (.written none), .exec 0 (.woken (.ok [⟨epollIn, 4⟩])), .exec 0 .step,
        .exec 0 .step]
    ∃ s, (eventLoop Nat Nat Nat).run start labels = some s ∧ s.execs 0 = .returned 7 ∧
      (s.Settled ↔ (eventLoop Nat Nat Nat).Along Loop.Orderly start labels) :=
  ⟨_, rfl, rfl, (settled_iff_orderly rfl).2 ⟨0, Or.inl ⟨7, rfl⟩⟩⟩

/-- A callback stops the queue: the loop ends at its test of the state, which stays `Stopping`. -/
theorem not_settled_of_stop_in_callback :
    let fds : Int → Option (Callbacks Nat) := fun fd =>
      if fd = 5 then some { inputAvailable := some 1 } else none
    let start : Loop Nat Nat Nat := Loop.start ⟨3⟩ ⟨4⟩ fds (fun _ => none)
    let labels : List (LoopLabel Nat Nat Nat) :=
      [.exec 0 .call, .exec 0 .step, .exec 0 (.drained (some eagain)), .exec 0 .step,
        .exec 0 .epollWait, .exec 0 (.woken (.ok [⟨epollIn, 5⟩])), .exec 0 .step, .exec 0 .step,
        .exec 0 .step, .exec 0 .step, .exec 0 .step, .exec 0 .invoke,
        .exec 0 (.callback (.stop 0 7)), .stop 0 .step, .stop 0 .step, .stop 0 (.written none),
        .exec 0 (.callback .resume), .exec 0 (.callback .returns), .exec 0 .step, .exec 0 .step,
        .exec 0 .step, .exec 0 .step]
    ∃ s, (eventLoop Nat Nat Nat).run start labels = some s ∧ s.execs 0 = .returned 7 ∧
      s.queue.state = .stopping ∧ ¬s.Settled := by
  refine ⟨_, rfl, rfl, rfl, ?_⟩
  intro hsettled
  have hstate := hsettled.returned 0 7 rfl
  cases hstate

end Runs

end Suc.Epl
