import Suc.Proof.PendingEvents
import Suc.Proof.Solo

/-!
# What a wait reports is served in its round

A round is what the loop does from the end of a wait to the next test of its while loop. An event that
the wait has reported stays outstanding until its turn comes; if the lambda of a source is registered
for it all the while and nobody stops the loop, the lambda is entered before the round is over.
-/

namespace Suc.Epl

open Transition

variable {F κ δ π α ο μ H G ι ε : Type}

/-! ### Outstanding events -/

theorem Outstanding.of_ne {r : Report} {todo : List Report} {fd : Int} {t : EventType}
    (h : Outstanding (r :: todo) fd t) (hne : r.fd ≠ fd) : Outstanding todo fd t := by
  obtain ⟨r', hr', hfd, hbit⟩ := h
  rcases List.mem_cons.mp hr' with rfl | hr'
  · exact absurd hfd hne
  · exact ⟨r', hr', hfd, hbit⟩

theorem Cursor.Outstanding.todo_of_nil {c : Cursor} {fd : Int} {t : EventType}
    (h : c.Outstanding fd t) (htypes : c.types = []) : Epl.Outstanding c.todo fd t := by
  rcases h with ⟨hmem, -⟩ | htodo
  · simp [htypes] at hmem
  · exact htodo

theorem Cursor.Outstanding.todo_of_ne {c : Cursor} {fd : Int} {t : EventType}
    (h : c.Outstanding fd t) (hne : c.report.fd ≠ fd) : Epl.Outstanding c.todo fd t := by
  rcases h with ⟨-, hfd, -⟩ | htodo
  · exact absurd hfd hne
  · exact htodo

/-- The turn of the event is now, or it is still to come. -/
theorem Cursor.Outstanding.due_or_next {c : Cursor} {q : EventQueue F} {fd : Int} {t : EventType}
    {func : F} (h : c.Outstanding fd t) (hstored : q.stored fd t = some func) :
    c.due q = some func ∨ c.next.Outstanding fd t := by
  rcases h with ⟨hmem, hfd, hbit⟩ | htodo
  · obtain ⟨r, types, todo⟩ := c
    cases types with
    | nil => simp at hmem
    | cons t' types =>
        rcases List.mem_cons.mp hmem with rfl | hmem
        · refine Or.inl ?_
          simp only [due, if_neg hbit]
          rw [hfd]
          exact hstored
        · exact Or.inr (Or.inl ⟨hmem, hfd, hbit⟩)
  · exact Or.inr (Or.inr htodo)

/-- While a callback is stored for an outstanding event, the event stays outstanding until the callback
is called, or a callback throws what the loop does not catch. -/
theorem ExecMove.serves {q q' : EventQueue F} {pos pos' : ExecPos F ι} {act : ExecAct F ι}
    (h : ExecMove q pos act q' pos') {fd : Int} {t : EventType} {func : F}
    (hout : pos.Outstanding fd t) (hrunning : q.state = .running)
    (hstored : q.stored fd t = some func) :
    pos'.Outstanding fd t ∨
      (act = .invoke ∧ ∃ c, pos = .scan c ∧ c.due q = some func) ∨ ∃ exc, pos' = .threw exc := by
  have hpresent : ∀ {n}, q.fds n = none → n ≠ fd := by
    rintro n hn rfl
    simp [EventQueue.stored, hn] at hstored
  cases h with
  | dispatch | next | register | close | other | stop | resume | returns | caught | runGo |
    again => exact Or.inl hout
  | stopped batch hstopping => rw [hrunning] at hstopping; cases hstopping
  | batchEnd =>
      obtain ⟨r, hr, -⟩ := hout
      cases hr
  | batchLeft todo hnot => exact absurd hrunning hnot
  | absent r todo hfd => exact Or.inl (Outstanding.of_ne hout (hpresent hfd))
  | found r todo =>
      refine Or.inl ?_
      obtain ⟨r', hr', hfd, hbit⟩ := hout
      rcases List.mem_cons.mp hr' with rfl | hr'
      · exact Or.inl ⟨mem_kEventTypes t, hfd, hbit⟩
      · exact Or.inr ⟨r', hr', hfd, hbit⟩
  | scanEnd c htypes => exact Or.inl (Cursor.Outstanding.todo_of_nil hout htypes)
  | skip c hdue =>
      rcases Cursor.Outstanding.due_or_next hout hstored with hnow | hlater
      · rw [hdue] at hnow
        cases hnow
      · exact Or.inl hlater
  | invoke c func' hdue =>
      rcases Cursor.Outstanding.due_or_next hout hstored with hnow | hlater
      · exact Or.inr (Or.inl ⟨rfl, c, rfl, hnow⟩)
      · exact Or.inl hlater
  | escaped c func' => exact Or.inr (Or.inr ⟨_, rfl⟩)
  | runLeft c hnot => exact absurd hrunning hnot
  | gone c hfd => exact Or.inl (Cursor.Outstanding.todo_of_ne (c := c.next) hout (hpresent hfd))
  | _ => exact absurd hout id

theorem not_execMove_of_threw {q q' : EventQueue F} {exc : Thrown} {act : ExecAct F ι}
    {pos' : ExecPos F ι} : ¬ExecMove q (.threw exc) act q' pos' := by
  intro h
  cases h

/-- A loop that is told to stop, or is left, does not run again. -/
theorem Loop.running_of_step [DecidableEq ι] [DecidableEq ε] {s t : Loop F ι ε}
    {l : LoopLabel F ι ε} (h : (eventLoop F ι ε).step s l = some t)
    (hidle : s.queue.state ≠ .idle) (hrunning : t.queue.state = .running) :
    s.queue.state = .running := by
  cases l with
  | stop id act =>
      rcases Loop.state_stop h with hsame | ⟨hbefore, -⟩
      · rw [← hsame, hrunning]
      · exact hbefore
  | exec e act =>
      obtain ⟨hmove, -, -⟩ := Loop.step_exec h
      have hflow := hmove.flow
      rw [hrunning] at hflow
      generalize act.orderly s.queue.state = o at hflow
      generalize s.queue.state = st at hflow hidle ⊢
      generalize (s.execs e).place = p at hflow
      generalize (t.execs e).place = p' at hflow
      cases hflow with
      | enter => exact absurd rfl hidle
      | _ => rfl

/-! ### Rounds -/

namespace Sources

/-- The lambda of the source is registered for what its descriptor has to read. -/
def Installed (k : κ) (fd : Int) (s : Sources κ δ π H G ι ε) : Prop :=
  ∃ func, s.loop.queue.stored fd .input = some (.shot (k, func))

instance [DecidableEq κ] {k : κ} {fd : Int} (s : Sources κ δ π H G ι ε) :
    Decidable (s.Installed k fd) :=
  match hstored : s.loop.queue.stored fd .input with
  | some (.shot (k', _)) => decidable_of_iff (k' = k) (by simp [Installed, hstored])
  | some (.other _) | none => isFalse (by simp [Installed, hstored])

/-- No lambda runs between two callbacks. -/
theorem posOf_of_not_callback {s : Sources κ δ π H G ι ε} (h : s.Inv) {e : ε}
    (hentered : (s.loop.execs e).Entered)
    (he : ∀ c func stopping, s.loop.execs e ≠ .callback c func stopping) (k : κ) :
    posOf s.frame k = none := by
  refine posOf_eq_none fun e' pos hframe => ?_
  obtain rfl := h.exec.unique e' e (h.entered hframe) hentered
  obtain ⟨c, func, stopping, hpos⟩ := h.framed e' k pos hframe
  exact he c _ stopping hpos

theorem posOf_of_whileTest {s : Sources κ δ π H G ι ε} (h : s.Inv) {e : ε}
    (he : s.loop.execs e = .whileTest) (k : κ) : posOf s.frame k = none := by
  refine posOf_of_not_callback h (e := e) ?_ (by simp [he]) k
  simp [ExecPos.Entered, he, ExecPos.place]

variable [DecidableEq κ] [DecidableEq ι] [DecidableEq ε] {service : Service δ π α ο H}
  {s t : Sources κ δ π H G ι ε}

/-- What a step does to the loop: nothing that the calls of `exec` and the state of the queue show, or
a step of the loop, which the lambda takes part in when it ends its callback. -/
theorem loop_cases {l : SourcesLabel κ α ο H G ι ε}
    (hstep : (sources κ G ι ε service).step s l = some t) :
    (t.loop.execs = s.loop.execs ∧ t.loop.queue.state = s.loop.queue.state) ∨
      ∃ l', (eventLoop (Callable (κ × H) G) ι ε).step s.loop l' = some t.loop ∧
        (l = .loop l' ∨ ∃ e act, l' = .exec e (.callback act)) := by
  have hproceed {s t : Sources κ δ π H G ι ε} {e : ε} {k : κ} {next : Next π}
      (hnext : s.proceed e k next = some t) :
      (t.loop.execs = s.loop.execs ∧ t.loop.queue.state = s.loop.queue.state) ∨
        ∃ l', (eventLoop (Callable (κ × H) G) ι ε).step s.loop l' = some t.loop ∧
          ∃ e act, l' = .exec e (.callback act) := by
    rcases proceed_cases hnext with ⟨pos, -, rfl⟩ | ⟨-, act, loop, -, hloop, rfl⟩
    · exact Or.inl ⟨rfl, rfl⟩
    · exact Or.inr ⟨_, hloop, e, act, rfl⟩
  cases move_of_step hstep with
  | constructed who k fd answer queue object hturn hunborn hclosed hadd =>
      exact Or.inl ⟨rfl, construct_state hadd⟩
  | notConstructed who k fd answer exc queue object hturn hadd =>
      exact Or.inl ⟨rfl, (construct_state hadd :)⟩
  | installed => exact Or.inl ⟨rfl, Call.apply_state _ _⟩
  | destroyed who k answer fd => exact Or.inl ⟨rfl, (Call.del fd answer).apply_state _⟩
  | registered => exact Or.inl ⟨rfl, Call.apply_state _ _⟩
  | outside | wild | back => exact Or.inl ⟨rfl, rfl⟩
  | entered e k func c stopping loop hloop => exact Or.inr ⟨_, hloop, Or.inl rfl⟩
  | looped l loop hloop => exact Or.inr ⟨_, hloop, Or.inl rfl⟩
  | thrown e k pos back exc loop hframe hwork hloop => exact Or.inr ⟨_, hloop, Or.inl rfl⟩
  | framed e choice k pos next t hframe hwork hnext =>
      exact (hproceed hnext).imp_right fun ⟨l', hloop, hl'⟩ => ⟨l', hloop, Or.inr hl'⟩
  | used e choice k pos use fd state state' next t hframe hwork halive huse hnext =>
      exact (hproceed hnext).imp_right fun ⟨l', hloop, hl'⟩ => ⟨l', hloop, Or.inr hl'⟩

theorem running_of_run {ls : List (SourcesLabel κ α ο H G ι ε)}
    (hrun : (sources κ G ι ε service).run s ls = some t) (hs : s.Inv) {e : ε}
    (he : (s.loop.execs e).Entered) (hrunning : t.loop.queue.state = .running) :
    s.loop.queue.state = .running := by
  have hleft : (sources κ G ι ε service).Preserves fun s : Sources κ δ π H G ι ε =>
      s.loop.queue.state ≠ .idle ∧ s.loop.queue.state ≠ .running := by
    rintro s l t hstep ⟨hidle, hnot⟩
    rcases loop_cases hstep with ⟨-, hstate⟩ | ⟨l', hloop, -⟩
    · rw [hstate]
      exact ⟨hidle, hnot⟩
    · refine ⟨fun hidle' => ?_, fun hrunning => hnot (Loop.running_of_step hloop hidle hrunning)⟩
      cases l' with
      | stop id act =>
          rcases Loop.state_stop hloop with hsame | ⟨-, hstopping, -⟩
          · exact hidle (hsame.symm.trans hidle')
          · rw [hstopping] at hidle'
            cases hidle'
      | exec e act =>
          obtain ⟨hmove, -, -⟩ := Loop.step_exec hloop
          exact hmove.flow.not_idle hidle hidle'
  by_contra hnot
  exact (hleft.run hrun ⟨hs.exec.not_idle he, hnot⟩).2 hrunning

theorem threw_of_run {ls : List (SourcesLabel κ α ο H G ι ε)}
    (hrun : (sources κ G ι ε service).run s ls = some t) {e : ε} {exc : Thrown}
    (he : s.loop.execs e = .threw exc) : t.loop.execs e = .threw exc := by
  have hthrew : (sources κ G ι ε service).Preserves fun s : Sources κ δ π H G ι ε =>
      s.loop.execs e = .threw exc := by
    intro s l t hstep he
    rcases loop_cases hstep with ⟨hexecs, -⟩ | ⟨l', hloop, -⟩
    · rwa [hexecs]
    · rcases Loop.exec_cases hloop e with ⟨hsame, -⟩ | ⟨act, -, hmove⟩
      · rwa [hsame]
      · rw [he] at hmove
        exact absurd hmove not_execMove_of_threw
  exact hthrew.run hrun he

/-- **Served in the round.** The lambda of a source that stays registered for a reported event is entered
before the loop, which nobody stops, tests again whether to go on. -/
theorem exists_entered {ls : List (SourcesLabel κ α ο H G ι ε)} {k : κ} {fd : Int} {e : ε}
    (hrun : (sources κ G ι ε service).run s ls = some t) (hs : s.Inv)
    (hout : (s.loop.execs e).Outstanding fd .input)
    (hinstalled : (sources κ G ι ε service).Along (fun s _ => s.Installed k fd) s ls)
    (hend : t.loop.execs e = .whileTest) (hrunning : t.loop.queue.state = .running) :
    ∃ before after u v func, ls = before ++ .loop (.exec e .invoke) :: after ∧
      (sources κ G ι ε service).run s before = some u ∧
      (sources κ G ι ε service).step u (.loop (.exec e .invoke)) = some v ∧
      (sources κ G ι ε service).run v after = some t ∧
      service.solo.step (u.soloOf service k) (.enter func) = some (v.soloOf service k) := by
  induction ls generalizing s with
  | nil =>
      obtain rfl : s = t := by simpa using hrun
      rw [hend] at hout
      exact absurd hout id
  | cons l ls ih =>
      obtain ⟨m, hstep, hrest⟩ := System.run_cons_eq_some _ |>.mp hrun
      obtain ⟨func, hstored⟩ := hinstalled.1
      -- the event is outstanding still, or its turn has come
      have hkept (hm : (m.loop.execs e).Outstanding fd .input) :
          ∃ before after u v func, l :: ls = before ++ .loop (.exec e .invoke) :: after ∧
            (sources κ G ι ε service).run s before = some u ∧
            (sources κ G ι ε service).step u (.loop (.exec e .invoke)) = some v ∧
            (sources κ G ι ε service).run v after = some t ∧
            service.solo.step (u.soloOf service k) (.enter func) = some (v.soloOf service k) := by
        obtain ⟨before, after, u, v, func, rfl, hbefore, hinvoke, hafter, hsolo⟩ :=
          ih hrest (inv_preserved service hstep hs) hm (hinstalled.2 m hstep)
        exact ⟨l :: before, after, u, v, func, rfl,
          System.run_cons_eq_some _ |>.mpr ⟨m, hstep, hbefore⟩, hinvoke, hafter, hsolo⟩
      rcases loop_cases hstep with ⟨hexecs, -⟩ | ⟨l', hloop, hl'⟩
      · exact hkept (by rwa [hexecs])
      · rcases Loop.exec_cases hloop e with ⟨hsame, -⟩ | ⟨act, rfl, hmove⟩
        · exact hkept (by rwa [hsame])
        · have hstate := running_of_run hrun hs hout.entered hrunning
          rcases hmove.serves hout hstate hstored with hm | ⟨rfl, c, hscan, hdue⟩ | ⟨exc, hthrew⟩
          · exact hkept hm
          · obtain rfl : l = .loop (.exec e .invoke) := by simpa using hl'
            have hentered : s.soloSteps service k (.loop (.exec e .invoke)) = [.enter func] := by
              simp [soloSteps, hscan, hdue]
            rcases solo_cases (k := k) hs hstep with ⟨hnone, -⟩ | ⟨a, hone, hsolo⟩
            · rw [hentered] at hnone
              cases hnone
            · obtain rfl : .enter func = a := by simpa [hentered] using hone
              exact ⟨[], ls, s, m, func, rfl, rfl, hstep, hrest, hsolo⟩
          · have hthrew := threw_of_run hrest hthrew
            rw [hend] at hthrew
            cases hthrew

theorem of_woken {e : ε} {batch : List Report}
    (hstep : (sources κ G ι ε service).step s (.loop (.exec e (.woken (.ok batch)))) = some t) :
    t.source = s.source ∧ t.frame = s.frame ∧ t.loop.execs e = .stopExchange batch := by
  cases move_of_step hstep with
  | looped l loop hloop =>
      obtain ⟨hmove, -, -⟩ := Loop.step_exec hloop
      refine ⟨rfl, rfl, ?_⟩
      change loop.execs e = _
      generalize s.loop.execs e = pos at hmove
      generalize loop.execs e = pos' at hmove ⊢
      generalize loop.queue = queue at hmove
      cases hmove
      rfl

/-- **A round of a source.** What holds of a source when a wait reports it is kept until its lambda is
entered, and what holds from then on is kept to the end of the round. -/
theorem round_invariant (emit : Solo δ π → SoloLabel α ο H → List μ)
    {C : Solo δ π → SoloLabel α ο H → Prop} {J K : List μ → Solo δ π → Prop}
    (hJ : ∀ h s l t, service.solo.step s l = some t → C s l → J h s → J (h ++ emit s l) t)
    (henter : ∀ h s func t, service.solo.step s (.enter func) = some t → J h s →
      K (h ++ emit s (.enter func)) t)
    (hK : ∀ h s l t, service.solo.step s l = some t → C s l → K h s → K (h ++ emit s l) t)
    {u : Sources κ δ π H G ι ε} {ls : List (SourcesLabel κ α ο H G ι ε)} {k : κ} {e : ε}
    {batch : List Report} {r : Report} (hs : s.Inv)
    (hwoken : (sources κ G ι ε service).step s (.loop (.exec e (.woken (.ok batch)))) = some u)
    (hrun : (sources κ G ι ε service).run u ls = some t)
    (hr : r ∈ batch) (hbit : r.events &&& epollIn ≠ 0#32)
    (hinstalled : (sources κ G ι ε service).Along (fun s _ => s.Installed k r.fd) u ls)
    (hend : t.loop.execs e = .whileTest) (hrunning : t.loop.queue.state = .running)
    (hC : (sources κ G ι ε service).Along (Does service C k) u ls)
    (hstart : J [] (s.soloOf service k)) :
    K ((sources κ G ι ε service).shown (history service emit k) u ls) (t.soloOf service k) ∧
      (t.soloOf service k).pos = none := by
  have hu := inv_preserved service hwoken hs
  obtain ⟨hsource, hframe, hpos⟩ := of_woken hwoken
  have hout : (u.loop.execs e).Outstanding r.fd .input := by
    rw [hpos]
    exact ⟨r, hr, rfl, hbit⟩
  have hreported : J [] (u.soloOf service k) := by
    rwa [soloOf, hsource, hframe]
  obtain ⟨before, after, v, w, func, rfl, hbefore, hinvoke, hafter, hentered⟩ :=
    exists_entered hrun hu hout hinstalled hend hrunning
  have ht := (inv_preserved service).run hrun hu
  have hv := (inv_preserved service).run hbefore hu
  have hw := inv_preserved service hinvoke hv
  obtain ⟨hCbefore, hCrest⟩ := (System.along_append hbefore).mp hC
  have hkept := history_invariant emit hJ hbefore hu hCbefore hreported
  rcases solo_cases (k := k) hv hinvoke with ⟨-, hsame⟩ | ⟨a, hone, hsolo⟩
  · obtain ⟨hnone, hreading⟩ := Service.eq_of_enter hentered
    rw [hsame] at hreading
    rw [hreading] at hnone
    cases hnone
  · have hshows : Shows k v (.loop (.exec e .invoke)) a :=
      shows_of_mem (hone ▸ List.mem_singleton_self a)
    cases hshows with
    | enter _ c func' hscan =>
        have hserved := henter _ _ func' _ hsolo hkept
        have hlast := history_invariant emit hK hafter hw (hCrest.2 w hinvoke) hserved
        rw [System.shown_append hbefore, System.shown_cons_of_step hinvoke, ← List.append_assoc]
        refine ⟨?_, posOf_of_whileTest ht hend k⟩
        simpa [history, hone] using hlast

end Sources

end Suc.Epl
