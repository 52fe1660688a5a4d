import Suc.Epl.Services
import Suc.Proof.PendingEvents
import Suc.Proof.Sources

/-!
# Sources are not used behind their destruction

A lambda is registered under its own source's descriptor, from which the destructor removes it, so
what the loop enters belongs to an object that lives. Only the function that a lambda calls can destroy
the object under it; then all depends on whether the lambda still needs the object when the function
is done.
-/

namespace Suc.Epl

variable {κ δ π α ο T H G ι ε : Type}

/-! ### Registration functions that keep lambdas in place -/

/-- The registration function leaves no callable of the kind where it has not found it. -/
def Reg.Keeps {F : Type} (P : F → Prop) (reg : Reg F) : Prop :=
  ∀ callbacks t func, (reg callbacks).1.callback t = some func → P func →
    callbacks.callback t = some func

def Call.Keeps {F : Type} (P : F → Prop) : Call F → Prop
  | .add _ (some reg) _ | .mod _ (some reg) _ => Reg.Keeps P reg
  | _ => True

theorem stored_update {F : Type} {q : EventQueue F} {fds : Int → Option (Callbacks F)} {fd n : Int}
    {callbacks : Option (Callbacks F)} (hfds : fds = Function.update q.fds fd callbacks)
    (t : EventType) :
    ((fds n).bind fun callbacks => callbacks.callback t) =
      if n = fd then callbacks.bind fun callbacks => callbacks.callback t else q.stored n t := by
  rw [hfds]
  by_cases heq : n = fd <;> simp [heq, EventQueue.stored]

/-- A call that keeps callables of a kind in place does not bring one to where there was none. -/
theorem Call.Keeps.stored {F : Type} {P : F → Prop} {call : Call F} (h : call.Keeps P)
    (q : EventQueue F) {fd : Int} {t : EventType} {func : F}
    (hstored : (call.apply q).2.stored fd t = some func) (hfunc : P func) :
    q.stored fd t = some func := by
  cases call with
  | add n reg answer =>
      cases hn : q.fds n with
      | some callbacks =>
          rwa [Call.apply, add_of_present reg answer (by simp [hn])] at hstored
      | none =>
          rw [EventQueue.stored, Call.apply,
            stored_update (add_fds_of_absent reg answer hn)] at hstored
          by_cases heq : fd = n
          · rw [if_pos heq] at hstored
            cases reg with
            | none => cases t <;> cases hstored
            | some reg =>
                have hold := h {} t func hstored hfunc
                cases t <;> cases hold
          · rwa [if_neg heq] at hstored
  | mod n reg answer =>
      cases reg with
      | none => exact hstored
      | some reg =>
          cases hn : q.fds n with
          | none => rwa [Call.apply, mod_of_absent answer reg hn] at hstored
          | some callbacks =>
              rw [EventQueue.stored, Call.apply,
                stored_update (mod_fds_of_present reg answer hn)] at hstored
              by_cases heq : fd = n
              · rw [if_pos heq] at hstored
                have hold := h callbacks t func hstored hfunc
                rw [heq, EventQueue.stored, hn]
                exact hold
              · rwa [if_neg heq] at hstored
  | del n answer =>
      rw [EventQueue.stored, Call.apply, stored_update (del_fds q n answer)] at hstored
      by_cases heq : fd = n
      · rw [if_pos heq] at hstored
        cases hstored
      · rwa [if_neg heq] at hstored

/-- What a step of the loop leaves stored was stored before or is due to a call of a callback. -/
theorem Loop.fds_cases [DecidableEq ι] [DecidableEq ε] {F : Type} {s t : Loop F ι ε}
    {l : LoopLabel F ι ε} (h : (eventLoop F ι ε).step s l = some t) :
    t.queue.fds = s.queue.fds ∨
      ∃ e call, l = .exec e (.callback (.call call)) ∧ t.queue = (call.apply s.queue).2 := by
  cases l with
  | stop id act =>
      obtain ⟨-, -, hmoves⟩ := Loop.step_stop h
      rcases hmoves with ⟨value, -, -, hqueue, -⟩ | ⟨call, call', -, -, hmove⟩
      · exact Or.inl (by rw [hqueue])
      · exact Or.inl hmove.fds_eq
  | exec e act =>
      obtain ⟨hmove, -, -⟩ := Loop.step_exec h
      rcases hmove.fds_cases with ⟨hfds, -⟩ | ⟨c, func, call, -, -, rfl, hqueue⟩
      · exact Or.inl hfds
      · exact Or.inr ⟨e, call, rfl, hqueue⟩

/-- What the loop calls is stored under the descriptor of the report at hand. -/
theorem ExecMove.of_invoke {F : Type} {q q' : EventQueue F} {pos pos' : ExecPos F ι}
    (h : ExecMove q pos .invoke q' pos') :
    ∃ c func, pos' = .callback c func none ∧ q' = q ∧ ∃ t, q.stored c.report.fd t = some func := by
  cases h with
  | invoke c func hdue =>
      obtain ⟨t, -, hstored⟩ := Cursor.due_eq_some hdue
      exact ⟨c, func, rfl, rfl, t, hstored⟩

def Callable.IsShot {H G : Type} : Callable H G → Prop
  | .shot _ => True
  | .other _ => False

/-- User code does not copy the lambda of a source to another place in the map. -/
def SourcesLabel.KeepsLambdas : SourcesLabel κ α ο H G ι ε → Prop
  | .register _ call | .loop (.exec _ (.callback (.call call))) => call.Keeps Callable.IsShot
  | _ => True

/-! ### Lambdas and their objects -/

/-- From these positions on the lambda does not use its object, whatever the function does. -/
structure Service.Frees (service : Service δ π α ο H) (free : π → Prop) : Prop where
  user : ∀ pos back, service.work pos = .user back → free pos → free back
  frame : ∀ pos pos', service.work pos = .frame (.goesOn pos') → free pos → free pos'
  object : ∀ pos use, service.work pos = .object use → ¬free pos

namespace Sources

def Alive (s : Sources κ δ π H G ι ε) (k : κ) : Prop := ∃ fd state, s.source k = .alive fd state

/-- A function that destroys the source whose lambda has called it does so where the lambda can do
without. -/
def DestroysFree (free : π → Prop) (s : Sources κ δ π H G ι ε) : SourcesLabel κ α ο H G ι ε → Prop
  | .destroy (some e) k _ => ∀ pos, s.frame e = some (k, pos) → free pos
  | _ => True

instance [DecidableEq κ] {free : π → Prop} [DecidablePred free] (s : Sources κ δ π H G ι ε)
    (l : SourcesLabel κ α ο H G ι ε) : Decidable (s.DestroysFree free l) :=
  match l with
  | .destroy (some e) k _ =>
      match hframe : s.frame e with
      | none => isTrue (by simp [DestroysFree, hframe])
      | some (k', pos) =>
          decidable_of_iff (k' = k → free pos) (by simp +contextual [DestroysFree, hframe])
  | .destroy none _ _ | .construct _ _ _ _ | .install _ _ _ _ | .register _ _ | .outside _ _
  | .act _ _ | .loop _ => isTrue trivial

structure Safe (free : π → Prop) (s : Sources κ δ π H G ι ε) : Prop where
  inv : s.Inv
  tame : s.wild = false
  stored : ∀ fd t k func, s.loop.queue.stored fd t = some (.shot (k, func)) →
    ∃ state, s.source k = .alive fd state
  framed : ∀ e k pos, s.frame e = some (k, pos) → s.Alive k ∨ free pos

variable {free : π → Prop}

/-- No object has been used after its destruction, and no lambda of a destroyed object can be called
any more. -/
def Sound (s : Sources κ δ π H G ι ε) : Prop :=
  s.wild = false ∧ ∀ fd t k func, s.loop.queue.stored fd t = some (.shot (k, func)) → s.Alive k

theorem Safe.sound {s : Sources κ δ π H G ι ε} (h : s.Safe free) : s.Sound := by
  refine ⟨h.tame, fun fd t k func hstored => ?_⟩
  obtain ⟨state, hk⟩ := h.stored fd t k func hstored
  exact ⟨fd, state, hk⟩

/-- What a step must keep when it registers no lambda and ends no life. -/
theorem Safe.of_alive {s t : Sources κ δ π H G ι ε} (h : s.Safe free) (hinv : t.Inv)
    (htame : t.wild = s.wild)
    (hstored : ∀ fd event k func, t.loop.queue.stored fd event = some (.shot (k, func)) →
      s.loop.queue.stored fd event = some (.shot (k, func)))
    (halive : ∀ k fd state, s.source k = .alive fd state → ∃ state', t.source k = .alive fd state')
    (hframed : ∀ e k pos, t.frame e = some (k, pos) →
      (∃ pos', s.frame e = some (k, pos') ∧ (free pos' → free pos)) ∨ t.Alive k) :
    t.Safe free where
  inv := hinv
  tame := htame.trans h.tame
  stored fd event k func hnew := by
    obtain ⟨state, hk⟩ := h.stored fd event k func (hstored fd event k func hnew)
    exact halive k fd state hk
  framed e k pos hframe := by
    rcases hframed e k pos hframe with ⟨pos', hold, hfree⟩ | hnew
    · rcases h.framed e k pos' hold with ⟨fd, state, hk⟩ | hpos
      · obtain ⟨state', hk'⟩ := halive k fd state hk
        exact Or.inl ⟨fd, state', hk'⟩
      · exact Or.inr (hfree hpos)
    · exact Or.inl hnew

theorem stored_construct {q queue : EventQueue (Callable (κ × H) G)} {fd n : Int}
    {answer : Option Errno} {result : Except Exception Unit} {object : FdObject} {t : EventType}
    {func : Callable (κ × H) G} (h : Fd.construct q ⟨fd⟩ answer = (result, queue, object))
    (hstored : queue.stored n t = some func) (hshot : func.IsShot) : q.stored n t = some func := by
  have hkeeps : (Call.add fd none answer : Call (Callable (κ × H) G)).Keeps Callable.IsShot :=
    trivial
  rw [construct_queue h] at hstored
  exact hkeeps.stored q hstored hshot

theorem safe_start (epfd evtfd : Cmn.Fd) (wake : G) :
    (start epfd evtfd wake : Sources κ δ π H G ι ε).Safe free where
  inv := inv_start epfd evtfd wake
  tame := rfl
  stored fd t k func h := by
    simp only [start, EventQueue.created, EventQueue.stored, Function.update_apply] at h
    split at h
    · cases t <;> cases h
    · cases h
  framed _ _ _ h := by cases h

variable {service : Service δ π α ο H}

/-- A source that user code destroys is not the one whose lambda is running, or its lambda can do
without it. -/
theorem free_of_destroy {s : Sources κ δ π H G ι ε} (h : s.Inv) {who : Option ε} {k : κ}
    {answer : Option Errno} (hturn : s.userTurn service who)
    (hfree : s.DestroysFree free (.destroy (α := α) (ο := ο) who k answer)) {e : ε} {pos : π}
    (hframe : s.frame e = some (k, pos)) : free pos := by
  obtain ⟨c, func, stopping, hpos⟩ := h.framed e k pos hframe
  rcases h.turn_cases hturn with ⟨e', rfl, c', func', stopping', hpos'⟩ | hnone
  · have hentered : (s.loop.execs e').Entered := by simp [ExecPos.Entered, hpos', ExecPos.place]
    obtain rfl := h.exec.unique e e' (h.entered hframe) hentered
    exact hfree pos hframe
  · -- no callback runs while no `exec` is in its loop
    exact absurd (by simp [hpos, ExecPos.place]) (hnone e).1

theorem work_of_userTurn {s : Sources κ δ π H G ι ε} {e : ε} {k : κ} {pos : π}
    (hturn : s.userTurn service (some e)) (hframe : s.frame e = some (k, pos)) :
    ∃ back, service.work pos = .user back := by
  simp only [userTurn, hframe] at hturn
  split at hturn
  · simp_all
  · simp_all
  · simp_all
  · rename_i k' pos' _ hpos
    obtain ⟨-, rfl⟩ : k = k' ∧ pos = pos' := by simpa using hpos
    split at hturn
    · exact ⟨_, ‹_›⟩
    · cases hturn
  · cases hturn

variable [DecidableEq ι] [DecidableEq ε]

theorem Safe.proceed {s t : Sources κ δ π H G ι ε} (h : s.Safe free) {e : ε} {k : κ} {pos : π}
    {next : Next π} (hframe : s.frame e = some (k, pos))
    (hfree : ∀ pos', next = .goesOn pos' → s.Alive k ∨ (free pos → free pos'))
    (hnext : s.proceed e k next = some t) : t.Safe free := by
  have hinv := h.inv.proceed hframe hnext
  rcases proceed_cases hnext with ⟨pos', rfl, rfl⟩ | ⟨-, act, loop, hact, hloop, rfl⟩
  · refine h.of_alive hinv rfl (fun _ _ _ _ hs => hs) (fun _ _ state hk => ⟨state, hk⟩) ?_
    intro e' k' pos'' hframe'
    by_cases heq : e' = e
    · subst heq
      obtain ⟨rfl, rfl⟩ : k = k' ∧ pos' = pos'' := by simpa using hframe'
      rcases hfree pos' rfl with halive | hpos
      · exact Or.inr halive
      · exact Or.inl ⟨pos, hframe, hpos⟩
    · exact Or.inl ⟨pos'', by simpa [heq] using hframe', id⟩
  · refine h.of_alive hinv rfl ?_ (fun _ _ state hk => ⟨state, hk⟩) ?_
    · intro fd event k' func hs
      rcases Loop.fds_cases hloop with hfds | ⟨e', call, hl, -⟩
      · rwa [EventQueue.stored_of_fds_eq hfds] at hs
      · rcases hact with rfl | ⟨exc, rfl⟩ <;> simp at hl
    · intro e' k' pos' hframe'
      by_cases heq : e' = e
      · simp [heq] at hframe'
      · exact Or.inl ⟨pos', by simpa [heq] using hframe', id⟩

variable [DecidableEq κ]

theorem Safe.step {s t : Sources κ δ π H G ι ε} {l : SourcesLabel κ α ο H G ι ε}
    (hfrees : service.Frees free) (h : s.Safe free)
    (hstep : (sources κ G ι ε service).step s l = some t) (hkeeps : l.KeepsLambdas)
    (hdestroys : s.DestroysFree free l) : t.Safe free := by
  have hinv := inv_preserved service hstep h.inv
  have hframe : ∀ e k pos, s.frame e = some (k, pos) →
      (∃ pos', s.frame e = some (k, pos') ∧ (free pos' → free pos)) ∨ t.Alive k :=
    fun e k pos hpos => Or.inl ⟨pos, hpos, id⟩
  cases move_of_step hstep with
  | constructed who k fd answer queue object hturn hunborn hclosed hadd =>
      refine h.of_alive hinv rfl (fun _ _ _ _ hs => stored_construct hadd hs trivial) ?_ hframe
      intro k' fd' state hk'
      have hne : k' ≠ k := by
        rintro rfl
        simp [hunborn] at hk'
      exact ⟨state, by simpa [hne] using hk'⟩
  | notConstructed who k fd answer exc queue object hturn hadd =>
      exact h.of_alive hinv rfl (fun _ _ _ _ hs => stored_construct hadd hs trivial)
        (fun _ _ state hk => ⟨state, hk⟩) hframe
  | installed who k func answer fd state hturn halive =>
      refine ⟨hinv, h.tame, ?_, h.framed⟩
      intro fd' event k' func' hs
      change EventQueue.stored _ fd' event = _ at hs
      cases hfd : s.loop.queue.fds fd with
      | none =>
          rw [Fd.onInputAvailable, Fd.setCallback, Call.apply, setQueue] at hs
          rw [mod_of_absent answer _ hfd] at hs
          exact h.stored fd' event k' func' hs
      | some callbacks =>
          simp only [setQueue, Fd.onInputAvailable, Fd.setCallback, Call.apply] at hs
          rw [EventQueue.stored, stored_update (mod_fds_of_present _ answer hfd)] at hs
          by_cases heq : fd' = fd
          · subst heq
            simp only [if_true, Option.bind_some, Callbacks.callback_assign] at hs
            by_cases hinput : event = .input
            · -- the lambda just installed
              rw [if_pos hinput] at hs
              obtain ⟨func'', -, hshot⟩ := Option.map_eq_some_iff.mp hs
              obtain ⟨rfl, -⟩ : k = k' ∧ func'' = func' := by simpa using hshot
              exact ⟨state, halive⟩
            · rw [if_neg hinput] at hs
              exact h.stored fd' event k' func' (by rw [EventQueue.stored, hfd]; exact hs)
          · rw [if_neg heq] at hs
            exact h.stored fd' event k' func' hs
  | destroyed who k answer fd state hturn halive =>
      have hdel : (closed (Fd.destruct s.loop.queue ⟨fd⟩ answer).1 fd).fds =
          Function.update s.loop.queue.fds fd none :=
        del_fds s.loop.queue fd answer
      refine ⟨hinv, h.tame, ?_, ?_⟩
      · intro fd' event k' func hs
        simp only [setQueue] at hs
        rw [EventQueue.stored, stored_update hdel] at hs
        by_cases heq : fd' = fd
        · simp [heq] at hs
        · rw [if_neg heq] at hs
          obtain ⟨state', hk'⟩ := h.stored fd' event k' func hs
          have hne : k' ≠ k := by
            rintro rfl
            rw [halive] at hk'
            exact heq (Source.alive.inj hk').1.symm
          exact ⟨state', by simpa [hne] using hk'⟩
      · intro e k' pos hpos
        by_cases heq : k' = k
        · subst heq
          exact Or.inr (free_of_destroy h.inv hturn hdestroys hpos)
        · rcases h.framed e k' pos hpos with ⟨fd', state', hk'⟩ | hfree
          · exact Or.inl ⟨fd', state', by simpa [heq] using hk'⟩
          · exact Or.inr hfree
  | registered who call hturn =>
      exact h.of_alive hinv rfl (fun _ _ _ _ hs => hkeeps.stored _ hs trivial)
        (fun _ _ state hk => ⟨state, hk⟩) hframe
  | outside k op fd state halive =>
      refine h.of_alive hinv rfl (fun _ _ _ _ hs => hs) ?_ hframe
      intro k' fd' state' hk'
      by_cases heq : k' = k
      · subst heq
        obtain ⟨rfl, -⟩ := Source.alive.inj (halive.symm.trans hk')
        exact ⟨_, Function.update_self ..⟩
      · exact ⟨state', by simpa [heq] using hk'⟩
  | entered e k func c stopping loop hloop hpos =>
      obtain ⟨hmove, -, -⟩ := Loop.step_exec hloop
      obtain ⟨c', func', hcallback, hqueue, event, hstored⟩ := hmove.of_invoke
      refine h.of_alive hinv rfl ?_ (fun _ _ state hk => ⟨state, hk⟩) ?_
      · intro fd event k' func hs
        rwa [← hqueue]
      · intro e' k' pos' hpos'
        by_cases heq : e' = e
        · subst heq
          obtain ⟨rfl, -⟩ : k = k' ∧ service.enter func = pos' := by simpa using hpos'
          obtain ⟨-, rfl, -⟩ := ExecPos.callback.inj (hpos.symm.trans hcallback)
          obtain ⟨state, hk⟩ := h.stored c'.report.fd event k func hstored
          exact Or.inr ⟨c'.report.fd, state, hk⟩
        · exact Or.inl ⟨pos', by simpa [heq] using hpos', id⟩
  | looped l loop hloop hstays hother =>
      refine h.of_alive hinv rfl ?_ (fun _ _ state hk => ⟨state, hk⟩) hframe
      intro fd event k func hs
      rcases Loop.fds_cases hloop with hfds | ⟨e, call, rfl, hqueue⟩
      · rwa [EventQueue.stored_of_fds_eq hfds] at hs
      · rw [hqueue] at hs
        exact hkeeps.stored _ hs trivial
  | back e k pos back c func hframe' hwork hpos =>
      refine h.of_alive hinv rfl (fun _ _ _ _ hs => hs) (fun _ _ state hk => ⟨state, hk⟩) ?_
      intro e' k' pos' hpos'
      by_cases heq : e' = e
      · subst heq
        obtain ⟨rfl, rfl⟩ : k = k' ∧ back = pos' := by simpa using hpos'
        exact Or.inl ⟨pos, hframe', hfrees.user pos back hwork⟩
      · exact Or.inl ⟨pos', by simpa [heq] using hpos', id⟩
  | thrown e k pos back exc loop hframe' hwork hloop =>
      refine h.of_alive hinv rfl ?_ (fun _ _ state hk => ⟨state, hk⟩) ?_
      · intro fd event k' func hs
        rcases Loop.fds_cases hloop with hfds | ⟨e', call, hl, -⟩
        · rwa [EventQueue.stored_of_fds_eq hfds] at hs
        · simp at hl
      · intro e' k' pos' hpos'
        by_cases heq : e' = e
        · simp [heq] at hpos'
        · exact Or.inl ⟨pos', by simpa [heq] using hpos', id⟩
  | framed e choice k pos next t hframe' hwork hnext =>
      refine h.proceed hframe' ?_ hnext
      rintro pos' rfl
      exact Or.inr (hfrees.frame pos pos' hwork)
  | used e choice k pos use fd state state' next t hframe' hwork halive huse hnext =>
      have hused : Safe free
          { s with source := Function.update s.source k (.alive fd state') } := by
        refine h.of_alive (h.inv.congr rfl rfl fun _ _ pos hpos => ⟨pos, hpos⟩) rfl
          (fun _ _ _ _ hs => hs) ?_ fun _ _ pos hpos => Or.inl ⟨pos, hpos, id⟩
        intro k' fd' state'' hk'
        by_cases heq : k' = k
        · subst heq
          obtain ⟨rfl, -⟩ := Source.alive.inj (halive.symm.trans hk')
          exact ⟨state', Function.update_self ..⟩
        · exact ⟨state'', by simpa [heq] using hk'⟩
      exact hused.proceed hframe'
        (fun _ _ => Or.inl ⟨fd, state', Function.update_self ..⟩) hnext
  | wild e choice k pos use hframe' hwork hgone =>
      exfalso
      rcases h.framed e k pos hframe' with ⟨fd, state, hk⟩ | hfree
      · exact hgone fd state hk
      · exact hfrees.object pos use hwork hfree

theorem safe_of_run {epfd evtfd : Cmn.Fd} {wake : G} {ls : List (SourcesLabel κ α ο H G ι ε)}
    {s : Sources κ δ π H G ι ε} (hfrees : service.Frees free)
    (hrun : (sources κ G ι ε service).run (start epfd evtfd wake) ls = some s)
    (hkeeps : ∀ l ∈ ls, l.KeepsLambdas)
    (hdestroys : (sources κ G ι ε service).Along (DestroysFree free) (start epfd evtfd wake) ls) :
    s.Safe free := by
  have halong := (Transition.System.along_iff_forall_mem hrun).mpr hkeeps
  exact (halong.and hdestroys).invariant
    (fun s l t hstep hl hsafe => hsafe.step hfrees hstep hl.1 hl.2) hrun
    (safe_start epfd evtfd wake)

/-- When the lambda can do without its object wherever its function runs, the function is free to
destroy the source. -/
theorem along_destroysFree {s t : Sources κ δ π H G ι ε} {ls : List (SourcesLabel κ α ο H G ι ε)}
    (huser : ∀ pos back, service.work pos = .user back → free pos)
    (hrun : (sources κ G ι ε service).run s ls = some t) :
    (sources κ G ι ε service).Along (DestroysFree free) s ls := by
  have hany := (sources κ G ι ε service).along_of_forall (C := fun _ _ => True)
    (fun _ _ => trivial) s ls
  refine hany.of_invariant (I := fun _ => True) (fun _ _ _ _ _ _ => trivial) ?_ hrun trivial
  intro s l t hstep _ _
  cases l with
  | destroy who k answer =>
      cases who with
      | none => trivial
      | some e =>
          intro pos hframe
          cases move_of_step hstep with
          | destroyed who k answer fd state hturn halive =>
              obtain ⟨back, hwork⟩ := work_of_userTurn hturn hframe
              exact huser pos back hwork
  | _ => trivial

end Sources

/-! ### Lambdas that read first -/

/-- Its function is called last. -/
theorem countWork_frees {service : Service δ (CountPos H) α ο H}
    {read : α → δ → Except Exception Nat × δ} (hwork : service.work = countWork read) :
    service.Frees fun pos : CountPos H => ∀ func, pos ≠ .reading func where
  user pos back h _ func := by
    rw [hwork] at h
    cases pos <;> cases h
    simp
  frame pos pos' h _ func := by
    rw [hwork] at h
    cases pos <;> cases h
  object pos use h hfree := by
    rw [hwork] at h
    cases pos with
    | reading func => exact hfree func rfl
    | _ => cases h

theorem Reader.work_frees {ρ α : Type}
    {service : Service (List ρ) (Reader.Pos ρ α H) (Option Errno) ο H} {reader : Reader ρ α}
    (hwork : service.work = reader.work) : service.Frees fun pos => ∀ func, pos ≠ .reading func where
  user pos back h _ func := by
    rw [hwork] at h
    cases pos with
    | reading func => cases h
    | loop func todo =>
        cases todo with
        | nil => cases h
        | cons r todo =>
            simp only [Reader.work] at h
            split at h <;> cases h
    | handling func item todo =>
        cases h
        simp
  frame pos pos' h _ func := by
    rw [hwork] at h
    cases pos with
    | reading func => cases h
    | loop func todo =>
        cases todo with
        | nil => cases h
        | cons r todo =>
            simp only [Reader.work] at h
            split at h <;> cases h
            simp
    | handling func item todo => cases h
  object pos use h hfree := by
    rw [hwork] at h
    cases pos with
    | reading func => exact hfree func rfl
    | loop func todo =>
        cases todo with
        | nil => cases h
        | cons r todo =>
            simp only [Reader.work] at h
            split at h <;> cases h
    | handling func item todo => cases h

section

variable [DecidableEq κ] [DecidableEq ι] [DecidableEq ε]

/-- **Destruction from within.** Whatever user code does in callbacks and while no `exec` is in its loop,
short of copying lambdas: no `EventFd`, `TimerFd`, `SignalFd` or `GpioEvent` is used after its
destruction, not even by the lambda whose function has destroyed it, and once one is destroyed its lambda
is not called again. -/
theorem sources_sound (epfd evtfd : Cmn.Fd) (wake : G) :
    (∀ semaphore (ls : List (SourcesLabel κ Unit (BitVec 64) H G ι ε)) s,
        (sources κ G ι ε (EventFd.service semaphore)).run (.start epfd evtfd wake) ls = some s →
        (∀ l ∈ ls, l.KeepsLambdas) → s.Sound) ∧
      (∀ (ls : List (SourcesLabel κ (Option Errno) TimerAct H G ι ε)) s,
        (sources κ G ι ε TimerFd.service).run (.start epfd evtfd wake) ls = some s →
        (∀ l ∈ ls, l.KeepsLambdas) → s.Sound) ∧
      (∀ (ls : List (SourcesLabel κ (Option Errno) SignalAct H G ι ε)) s,
        (sources κ G ι ε (SignalFd.service H)).run (.start epfd evtfd wake) ls = some s →
        (∀ l ∈ ls, l.KeepsLambdas) → s.Sound) ∧
      ∀ (ls : List (SourcesLabel κ (Option Errno) (KernelAct LineEvent) H G ι ε)) s,
        (sources κ G ι ε (Reader.service H inspectInput)).run (.start epfd evtfd wake) ls = some s →
        (∀ l ∈ ls, l.KeepsLambdas) → s.Sound := by
  have hcount {δ α ο : Type} (service : Service δ (CountPos H) α ο H)
      (read : α → δ → Except Exception Nat × δ) (hwork : service.work = countWork read)
      {ls : List (SourcesLabel κ α ο H G ι ε)} {s : Sources κ δ (CountPos H) H G ι ε}
      (hrun : (sources κ G ι ε service).run (.start epfd evtfd wake) ls = some s)
      (hkeeps : ∀ l ∈ ls, l.KeepsLambdas) : s.Sound := by
    refine (Sources.safe_of_run (countWork_frees hwork) hrun hkeeps
      (Sources.along_destroysFree ?_ hrun)).sound
    rintro pos back huser func rfl
    rw [hwork] at huser
    cases huser
  have hreader {ρ α ο : Type}
      (service : Service (List ρ) (Reader.Pos ρ α H) (Option Errno) ο H) (reader : Reader ρ α)
      (hwork : service.work = reader.work)
      {ls : List (SourcesLabel κ (Option Errno) ο H G ι ε)}
      {s : Sources κ (List ρ) (Reader.Pos ρ α H) H G ι ε}
      (hrun : (sources κ G ι ε service).run (.start epfd evtfd wake) ls = some s)
      (hkeeps : ∀ l ∈ ls, l.KeepsLambdas) : s.Sound := by
    refine (Sources.safe_of_run (Reader.work_frees hwork) hrun hkeeps
      (Sources.along_destroysFree ?_ hrun)).sound
    rintro pos back huser func rfl
    rw [hwork] at huser
    cases huser
  exact ⟨fun semaphore _ _ hrun hkeeps => hcount (EventFd.service semaphore) _ rfl hrun hkeeps,
    fun _ _ hrun hkeeps => hcount TimerFd.service _ rfl hrun hkeeps,
    fun _ _ hrun hkeeps => hreader (SignalFd.service H) onSignal rfl hrun hkeeps,
    fun _ _ hrun hkeeps => hreader (Reader.service H inspectInput) _ rfl hrun hkeeps⟩

/-- A timer is destroyed by the function that it has called. -/
theorem sources_sound_timer :
    let exec : ExecAct (Callable (Nat × Nat) Nat) Nat →
        SourcesLabel Nat (Option Errno) TimerAct Nat Nat Nat Nat := fun act => .loop (.exec 0 act)
    let labels : List (SourcesLabel Nat (Option Errno) TimerAct Nat Nat Nat Nat) :=
      [.construct none 0 5 none, .install none 0 (some 7) none,
        .outside 0 (.setTime ⟨⟨1, 0⟩, ⟨1, 0⟩⟩ none), exec .call, exec .step,
        exec (.drained (some eagain)), exec .step, exec .epollWait, .outside 0 .expire,
        exec (.woken (.ok [⟨epollIn, 5⟩])), exec .step, exec .step, exec .step, exec .step,
        exec .step, exec .invoke, .act 0 none, .destroy (some 0) 0 none,
        exec (.callback .returns), .act 0 none]
    ∃ s : Sources Nat Timer (CountPos Nat) Nat Nat Nat Nat,
      (sources Nat Nat Nat Nat TimerFd.service).run (.start ⟨3⟩ ⟨4⟩ 0) labels = some s ∧
        s.source 0 = .dead ⟨some ⟨⟨1, 0⟩, ⟨1, 0⟩⟩, 0⟩ ∧ s.frame 0 = none ∧ s.Sound := by
  intro exec labels
  have hkeeps : ∀ l ∈ labels, l.KeepsLambdas := by
    simp [labels, exec, SourcesLabel.KeepsLambdas]
  exact ⟨_, rfl, rfl, rfl, (sources_sound ⟨3⟩ ⟨4⟩ 0).2.1 labels _ rfl hkeeps⟩

/-! ### `ThreadSafeQueue` -/

namespace ThreadSafeQueue

/-- No element is left for the lambda to take. -/
def Last : DispatchPos T H → Prop
  | .loop _ i | .handling _ _ i => i = 0
  | _ => False

instance : DecidablePred (Last : DispatchPos T H → Prop)
  | .loop _ i | .handling _ _ i => inferInstanceAs (Decidable (i = 0))
  | .idle | .reading _ | .crashed => isFalse id

theorem service_frees : (service T H).Frees Last where
  user pos back hwork hlast := by
    cases pos with
    | handling func ele i =>
        cases hwork
        exact hlast
    | loop func i => cases i <;> cases hwork
    | _ => cases hwork
  frame pos pos' hwork hlast := by
    cases pos with
    | loop func i => cases i <;> cases hwork
    | _ => cases hwork
  object pos use hwork hlast := by
    cases pos with
    | loop func i =>
        obtain rfl : i = 0 := hlast
        cases hwork
    | handling => cases hwork
    | _ => exact hlast

/-- **Destruction of a queue.** A queue is not used behind its destruction when no handler destroys its
own queue with elements of its batch left; and one that does so and returns has the lambda use the
queue that is gone. -/
theorem sound_iff_last {epfd evtfd : Cmn.Fd} {wake : G}
    {ls : List (SourcesLabel κ Unit (T × Option Errno) H G ι ε)}
    {s : Sources κ (Members T) (DispatchPos T H) H G ι ε}
    (hrun : (sources κ G ι ε (service T H)).run (.start epfd evtfd wake) ls = some s)
    (hkeeps : ∀ l ∈ ls, l.KeepsLambdas)
    (hlast : (sources κ G ι ε (service T H)).Along (Sources.DestroysFree Last)
      (.start epfd evtfd wake) ls) :
    s.Sound ∧ ∀ e k func ele i c callable answer,
      s.frame e = some (k, .handling func ele i) → s.Alive k →
      s.loop.execs e = .callback c callable none →
        ∃ t, (sources κ G ι ε (service T H)).run s
            [.destroy (some e) k answer, .loop (.exec e (.callback .returns)), .act e ()] = some t ∧
          (t.wild = true ↔ i ≠ 0) := by
  have hsafe := Sources.safe_of_run service_frees hrun hkeeps hlast
  refine ⟨hsafe.sound, ?_⟩
  rintro e k func ele i c callable answer hframe ⟨fd, m, hk⟩ hpos
  obtain ⟨c', func', stopping, hcallback⟩ := hsafe.inv.framed e k _ hframe
  obtain ⟨rfl, rfl, rfl⟩ := ExecPos.callback.inj (hpos.symm.trans hcallback)
  let gone : Sources κ (Members T) (DispatchPos T H) H G ι ε :=
    { s.setQueue (Sources.closed (Fd.destruct s.loop.queue ⟨fd⟩ answer).1 fd) with
      opened := Function.update s.opened fd false
      source := Function.update s.source k (.dead m) }
  have hdestroyed : (sources κ G ι ε (service T H)).step s (.destroy (some e) k answer) =
      some gone := by
    have hturn : s.userTurn (service T H) (some e) = true := by
      simp [Sources.userTurn, hpos, hframe, service]
    simp [sources, Sources.step, hk, hturn, gone]
  have hreturned : (sources κ G ι ε (service T H)).step gone
      (.loop (.exec e (.callback .returns))) =
        some { gone with frame := Function.update s.frame e (some (k, .loop func i)) } := by
    simp [sources, Sources.step, Sources.loopStep, gone, Sources.setQueue, hframe, hpos, service]
  have hrun' (t : Sources κ (Members T) (DispatchPos T H) H G ι ε)
      (hact : (sources κ G ι ε (service T H)).step
        { gone with frame := Function.update s.frame e (some (k, .loop func i)) } (.act e ()) =
          some t) :
      (sources κ G ι ε (service T H)).run s
        [.destroy (some e) k answer, .loop (.exec e (.callback .returns)), .act e ()] = some t := by
    simp only [Transition.System.run_cons, hdestroyed, hreturned, hact, Option.bind_some,
      Transition.System.run_nil]
  cases i with
  | zero =>
      -- the loop over the elements ends, and the callback returns
      have hend : (eventLoop (Callable (κ × H) G) ι ε).step gone.loop
          (.exec e (.callback .returns)) =
            some { gone.loop with execs := Function.update s.loop.execs e (.runTest c) } := by
        simp [eventLoop, Loop.step, Loop.stopsAfter, execStep, callbackStep, gone,
          Sources.setQueue, hpos]
      have hact : (sources κ G ι ε (service T H)).step
          { gone with frame := Function.update s.frame e (some (k, .loop func 0)) } (.act e ()) =
            some { gone with
              loop := { gone.loop with execs := Function.update s.loop.execs e (.runTest c) }
              frame := Function.update s.frame e none } := by
        have hloop : gone.loop.step (.exec e (.callback .returns)) = _ := hend
        simp [sources, Sources.step, Sources.act, Sources.proceed, service, hloop]
      refine ⟨_, hrun' _ hact, iff_of_false ?_ (absurd rfl)⟩
      simp [gone, Sources.setQueue, hsafe.tame]
  | succ i =>
      have hact : (sources κ G ι ε (service T H)).step
          { gone with frame := Function.update s.frame e (some (k, .loop func (i + 1))) }
            (.act e ()) =
            some { gone with
              frame := Function.update s.frame e (some (k, .loop func (i + 1))), wild := true } := by
        simp [sources, Sources.step, Sources.act, service, gone]
      exact ⟨_, hrun' _ hact, iff_of_true rfl (Nat.succ_ne_zero i)⟩

/-- A handler that is called for the second of two elements destroys its queue. -/
theorem sound_iff_last_two :
    let exec : ExecAct (Callable (Nat × Nat) Nat) Nat →
        SourcesLabel Nat Unit (Nat × Option Errno) Nat Nat Nat Nat := fun act => .loop (.exec 0 act)
    let labels : List (SourcesLabel Nat Unit (Nat × Option Errno) Nat Nat Nat Nat) :=
      [.construct none 0 5 none, .install none 0 (some 7) none, .outside 0 (1, none),
        .outside 0 (2, none), exec .call, exec .step, exec (.drained (some eagain)), exec .step,
        exec .epollWait, exec (.woken (.ok [⟨epollIn, 5⟩])), exec .step, exec .step, exec .step,
        exec .step, exec .step, exec .invoke, .act 0 (), .act 0 (), exec (.callback .returns),
        .act 0 (), .destroy (some 0) 0 none, exec (.callback .returns), .act 0 ()]
    ∃ s : Sources Nat (Members Nat) (DispatchPos Nat Nat) Nat Nat Nat Nat,
      (sources Nat Nat Nat Nat (service Nat Nat)).run (.start ⟨3⟩ ⟨4⟩ 0) labels = some s ∧
        s.source 0 = .dead ⟨[], 0⟩ ∧ s.frame 0 = none ∧ s.Sound := by
  intro exec labels
  have hkeeps : ∀ l ∈ labels, l.KeepsLambdas := by
    simp [labels, exec, SourcesLabel.KeepsLambdas]
  have hlast : (sources Nat Nat Nat Nat (service Nat Nat)).Along (Sources.DestroysFree Last)
      (.start ⟨3⟩ ⟨4⟩ 0) labels := by
    decide +kernel
  exact ⟨_, rfl, rfl, rfl, (sound_iff_last rfl hkeeps hlast).1⟩

end ThreadSafeQueue

end

end Suc.Epl
