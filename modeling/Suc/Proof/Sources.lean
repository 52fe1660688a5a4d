import Suc.Epl.Sources
import Suc.Proof.LoopInvariant

/-!
# What a step of the sources can do

The event loop runs one callback at a time, so there is one frame at most. Every step is one of a few
moves: user code changes registrations and lives, another thread uses an object, a lambda is entered,
goes on or is left, or the loop does what it does without sources.
-/

namespace Suc.Epl

variable {κ δ π α ο H G ι ε : Type}

namespace Sources

/-! ### One frame at most -/

structure Inv (s : Sources κ δ π H G ι ε) : Prop where
  exec : s.loop.ExecInv
  framed : ∀ e k pos, s.frame e = some (k, pos) →
    ∃ c func stopping, s.loop.execs e = .callback c (.shot (k, func)) stopping

theorem Inv.entered {s : Sources κ δ π H G ι ε} (h : s.Inv) {e : ε} {k : κ} {pos : π}
    (hframe : s.frame e = some (k, pos)) : (s.loop.execs e).Entered := by
  obtain ⟨c, func, stopping, hpos⟩ := h.framed e k pos hframe
  simp [ExecPos.Entered, hpos, ExecPos.place]

theorem Inv.unique {s : Sources κ δ π H G ι ε} (h : s.Inv) {e e' : ε} {k k' : κ} {pos pos' : π}
    (hframe : s.frame e = some (k, pos)) (hframe' : s.frame e' = some (k', pos')) : e = e' :=
  h.exec.unique e e' (h.entered hframe) (h.entered hframe')

/-- It is the turn of user code in a callback, or while no `exec` is in its loop. -/
theorem Inv.turn_cases {service : Service δ π α ο H} {s : Sources κ δ π H G ι ε} (h : s.Inv)
    {who : Option ε} (hturn : s.userTurn service who) :
    (∃ e, who = some e ∧ ∃ c func stopping, s.loop.execs e = .callback c func stopping) ∨
      ∀ e, (s.loop.execs e).place ≠ .loop ∧ (s.loop.execs e).place ≠ .waiting := by
  cases who with
  | none =>
      simp only [userTurn, decide_eq_true_eq] at hturn
      refine Or.inr fun e => ?_
      have hcoherent := h.exec.coherent e
      generalize (s.loop.execs e).place = p, s.loop.queue.state = st at hcoherent hturn
      cases hcoherent <;> simp_all
  | some e =>
      -- an `exec` that has ended was the only one to enter its loop
      have hended (hleft : (s.loop.execs e).place = .leaving ∨ (s.loop.execs e).place = .failed)
          (e' : ε) : (s.loop.execs e').place ≠ .loop ∧ (s.loop.execs e').place ≠ .waiting := by
        have hentered : (s.loop.execs e).Entered := by
          rcases hleft with hleft | hleft <;> simp [ExecPos.Entered, hleft]
        by_cases hin : (s.loop.execs e').Entered
        · obtain rfl := h.exec.unique e e' hentered hin
          rcases hleft with hleft | hleft <;> simp [hleft]
        · simp [not_not.mp hin]
      simp only [userTurn] at hturn
      split at hturn
      · rename_i hpos _
        exact Or.inr (hended (by simp [hpos, ExecPos.place]))
      · rename_i hpos _
        exact Or.inr (hended (by simp [hpos, ExecPos.place]))
      · rename_i hpos _
        exact Or.inl ⟨e, rfl, _, _, _, hpos⟩
      · rename_i hpos _
        exact Or.inl ⟨e, rfl, _, _, _, hpos⟩
      · cases hturn

/-- Once every `exec` that has entered its loop has returned or thrown, it is the turn of user code,
whatever state they have left behind. -/
theorem Inv.exists_turn (service : Service δ π α ο H) {s : Sources κ δ π H G ι ε} (h : s.Inv)
    (hended : ∀ e, (s.loop.execs e).Entered → (∃ value, s.loop.execs e = .returned value) ∨
      ∃ exc, s.loop.execs e = .threw exc) : ∃ who, s.userTurn service who := by
  by_cases hidle : s.loop.queue.state = .idle
  · exact ⟨none, by simp [userTurn, hidle]⟩
  · obtain ⟨e, hentered⟩ := h.exec.entered hidle
    have hnone : s.frame e = none := by
      by_contra hframe
      obtain ⟨⟨k, pos⟩, hframe⟩ := Option.ne_none_iff_exists'.mp hframe
      obtain ⟨c, func, stopping, hpos⟩ := h.framed e k pos hframe
      rcases hended e hentered with ⟨value, hpos'⟩ | ⟨exc, hpos'⟩ <;> simp [hpos] at hpos'
    refine ⟨some e, ?_⟩
    rcases hended e hentered with ⟨value, hpos⟩ | ⟨exc, hpos⟩ <;> simp [userTurn, hpos, hnone]

theorem Inv.congr {s t : Sources κ δ π H G ι ε} (h : s.Inv) (hexecs : t.loop.execs = s.loop.execs)
    (hstate : t.loop.queue.state = s.loop.queue.state)
    (hframe : ∀ e k pos, t.frame e = some (k, pos) → ∃ pos', s.frame e = some (k, pos')) :
    t.Inv where
  exec := h.exec.stop hexecs (Or.inl hstate)
  framed e k pos hpos := by
    obtain ⟨pos', hpos'⟩ := hframe e k pos hpos
    rw [hexecs]
    exact h.framed e k pos' hpos'

/-- In its callback a call of `exec` stays there unless it returns or throws. -/
theorem execMove_callback {F : Type} {q q' : EventQueue F} {c : Cursor} {func : F}
    {stopping : Option ι} {act : ExecAct F ι} {pos : ExecPos F ι}
    (h : ExecMove q (.callback c func stopping) act q' pos) :
    ∃ act', act = .callback act' ∧
      ((∃ stopping', pos = .callback c func stopping') ∨
        act' = .returns ∨ ∃ exc, act' = .throws exc) := by
  cases h with
  | returns => exact ⟨_, rfl, Or.inr (Or.inl rfl)⟩
  | caught _ _ exc => exact ⟨_, rfl, Or.inr (Or.inr ⟨_, rfl⟩)⟩
  | escaped => exact ⟨_, rfl, Or.inr (Or.inr ⟨_, rfl⟩)⟩
  | register | close | other | stop | resume => exact ⟨_, rfl, Or.inl ⟨_, rfl⟩⟩

theorem construct_queue {q queue : EventQueue (Callable (κ × H) G)} {fd : Int}
    {answer : Option Errno} {result : Except Exception Unit} {object : FdObject}
    (h : Fd.construct q ⟨fd⟩ answer = (result, queue, object)) :
    queue = ((Call.add fd none answer).apply q).2 := by
  have hqueue : (Fd.construct q ⟨fd⟩ answer).2.1 = (q.add fd none answer).2 := by
    simp only [Fd.construct, Cmn.Fd.moveConstruct]
    split <;> simp_all
  rw [h] at hqueue
  exact hqueue

theorem construct_state {q queue : EventQueue (Callable (κ × H) G)} {fd : Int}
    {answer : Option Errno} {result : Except Exception Unit} {object : FdObject}
    (h : Fd.construct q ⟨fd⟩ answer = (result, queue, object)) : queue.state = q.state := by
  rw [construct_queue h, Call.apply_state]

theorem inv_start (epfd evtfd : Cmn.Fd) (wake : G) :
    (start epfd evtfd wake : Sources κ δ π H G ι ε).Inv where
  exec :=
    { coherent := fun _ => .outside _
      unique := fun _ _ h => absurd rfl h
      entered := fun h => absurd rfl h }
  framed _ _ _ h := by cases h

section

variable [DecidableEq ι] [DecidableEq ε]

/-- The lambda goes on in its frame, or the callback ends and the frame is gone. -/
theorem proceed_cases {s t : Sources κ δ π H G ι ε} {e : ε} {k : κ} {next : Next π}
    (h : s.proceed e k next = some t) :
    (∃ pos, next = .goesOn pos ∧
        t = { s with frame := Function.update s.frame e (some (k, pos)) }) ∨
      (∀ pos, next ≠ .goesOn pos) ∧ ∃ act loop,
        (act = .returns ∨ ∃ exc, act = .throws (.std exc)) ∧
        (eventLoop (Callable (κ × H) G) ι ε).step s.loop (.exec e (.callback act)) = some loop ∧
          t = { s with loop, frame := Function.update s.frame e none } := by
  cases next with
  | goesOn pos =>
      cases h
      exact Or.inl ⟨pos, rfl, rfl⟩
  | returns =>
      obtain ⟨loop, hloop, rfl⟩ := Option.map_eq_some_iff.mp h
      exact Or.inr ⟨by simp, .returns, loop, Or.inl rfl, hloop, rfl⟩
  | throws exc =>
      obtain ⟨loop, hloop, rfl⟩ := Option.map_eq_some_iff.mp h
      exact Or.inr ⟨by simp, .throws (.std exc), loop, Or.inr ⟨exc, rfl⟩, hloop, rfl⟩

theorem source_of_proceed {s t : Sources κ δ π H G ι ε} {e : ε} {k : κ} {next : Next π}
    (h : s.proceed e k next = some t) : t.source = s.source := by
  rcases proceed_cases h with ⟨pos, -, rfl⟩ | ⟨-, act, loop, -, -, rfl⟩ <;> rfl

/-- A step of the loop leaves the callbacks that other calls of `exec` run as they are. -/
theorem Inv.loop {s : Sources κ δ π H G ι ε} (h : s.Inv)
    {l : LoopLabel (Callable (κ × H) G) ι ε} {loop : Loop (Callable (κ × H) G) ι ε}
    {frame : ε → Option (κ × π)}
    (hloop : (eventLoop (Callable (κ × H) G) ι ε).step s.loop l = some loop)
    (hframe : ∀ e k pos, frame e = some (k, pos) →
      (∃ c func stopping, loop.execs e = .callback c (.shot (k, func)) stopping) ∨
        s.frame e = some (k, pos) ∧ ∀ act, l ≠ .exec e act) :
    Inv { s with loop, frame } where
  exec := Loop.execInv_preserved hloop h.exec
  framed e k pos hpos := by
    rcases hframe e k pos hpos with hdone | ⟨hold, hne⟩
    · exact hdone
    · rcases Loop.exec_cases hloop e with ⟨hsame, -⟩ | ⟨act, hl, -⟩
      · obtain ⟨c, func, stopping, hcallback⟩ := h.framed e k pos hold
        exact ⟨c, func, stopping, hsame.trans hcallback⟩
      · exact absurd hl (hne act)

theorem Inv.left {s : Sources κ δ π H G ι ε} (h : s.Inv) {e : ε}
    {act : CallbackAct (Callable (κ × H) G) ι} {loop : Loop (Callable (κ × H) G) ι ε}
    (hloop : (eventLoop (Callable (κ × H) G) ι ε).step s.loop (.exec e (.callback act)) =
      some loop) : Inv { s with loop, frame := Function.update s.frame e none } := by
  refine h.loop hloop fun e' k pos hpos => Or.inr ?_
  by_cases heq : e' = e
  · simp [heq] at hpos
  · exact ⟨by simpa [heq] using hpos, by simp [Ne.symm heq]⟩

theorem Inv.proceed {s t : Sources κ δ π H G ι ε} (h : s.Inv) {e : ε} {k : κ} {pos : π}
    {next : Next π} (hframe : s.frame e = some (k, pos)) (hnext : s.proceed e k next = some t) :
    t.Inv := by
  rcases proceed_cases hnext with ⟨pos', -, rfl⟩ | ⟨-, act, loop, -, hloop, rfl⟩
  · refine h.congr rfl rfl fun e' k' pos'' hpos => ?_
    by_cases heq : e' = e
    · subst heq
      obtain ⟨rfl, -⟩ : k = k' ∧ pos' = pos'' := by simpa using hpos
      exact ⟨pos, hframe⟩
    · exact ⟨pos'', by simpa [heq] using hpos⟩
  · exact h.left hloop

end

variable [DecidableEq κ] [DecidableEq ι] [DecidableEq ε]

/-! ### Moves -/

inductive Move (service : Service δ π α ο H) (s : Sources κ δ π H G ι ε) :
    SourcesLabel κ α ο H G ι ε → Sources κ δ π H G ι ε → Prop where
  | constructed (who : Option ε) (k : κ) (fd : Int) (answer : Option Errno)
      (queue : EventQueue (Callable (κ × H) G)) (object : FdObject)
      (hturn : s.userTurn service who) (hunborn : s.source k = .unborn)
      (hclosed : s.opened fd = false)
      (hadd : Fd.construct s.loop.queue ⟨fd⟩ answer = (.ok (), queue, object)) :
      Move service s (.construct who k fd answer)
        { s.setQueue queue with
          opened := Function.update s.opened fd true
          source := Function.update s.source k (.alive fd service.created) }
  | notConstructed (who : Option ε) (k : κ) (fd : Int) (answer : Option Errno) (exc : Exception)
      (queue : EventQueue (Callable (κ × H) G)) (object : FdObject)
      (hturn : s.userTurn service who)
      (hadd : Fd.construct s.loop.queue ⟨fd⟩ answer = (.error exc, queue, object)) :
      Move service s (.construct who k fd answer) (s.setQueue (closed queue fd))
  | installed (who : Option ε) (k : κ) (func : Option H) (answer : Option Errno) (fd : Int)
      (state : δ) (hturn : s.userTurn service who) (halive : s.source k = .alive fd state) :
      Move service s (.install who k func answer)
        (s.setQueue ((Fd.onInputAvailable fd (func.map fun func => .shot (k, func)) answer).apply
          s.loop.queue).2)
  | destroyed (who : Option ε) (k : κ) (answer : Option Errno) (fd : Int) (state : δ)
      (hturn : s.userTurn service who) (halive : s.source k = .alive fd state) :
      Move service s (.destroy who k answer)
        { s.setQueue (closed (Fd.destruct s.loop.queue ⟨fd⟩ answer).1 fd) with
          opened := Function.update s.opened fd false
          source := Function.update s.source k (.dead state) }
  | registered (who : Option ε) (call : Call (Callable (κ × H) G))
      (hturn : s.userTurn service who) :
      Move service s (.register who call) (s.setQueue (call.apply s.loop.queue).2)
  | outside (k : κ) (op : ο) (fd : Int) (state : δ) (halive : s.source k = .alive fd state) :
      Move service s (.outside k op)
        { s with source := Function.update s.source k (.alive fd (service.outside state op)) }
  | entered (e : ε) (k : κ) (func : H) (c : Cursor) (stopping : Option ι)
      (loop : Loop (Callable (κ × H) G) ι ε)
      (hloop : (eventLoop (Callable (κ × H) G) ι ε).step s.loop (.exec e .invoke) = some loop)
      (hpos : loop.execs e = .callback c (.shot (k, func)) stopping) :
      Move service s (.loop (.exec e .invoke))
        { s with loop, frame := Function.update s.frame e (some (k, service.enter func)) }
  | looped (l : LoopLabel (Callable (κ × H) G) ι ε) (loop : Loop (Callable (κ × H) G) ι ε)
      (hloop : (eventLoop (Callable (κ × H) G) ι ε).step s.loop l = some loop)
      (hstays : ∀ e act, l = .exec e (.callback act) → s.frame e ≠ none →
        act ≠ .returns ∧ ∀ exc, act ≠ .throws exc)
      (hother : ∀ e c k func stopping, l = .exec e .invoke →
        loop.execs e ≠ .callback c (.shot (k, func)) stopping) :
      Move service s (.loop l) { s with loop }
  | back (e : ε) (k : κ) (pos back : π) (c : Cursor) (func : Callable (κ × H) G)
      (hframe : s.frame e = some (k, pos)) (hwork : service.work pos = .user back)
      (hpos : s.loop.execs e = .callback c func none) :
      Move service s (.loop (.exec e (.callback .returns)))
        { s with frame := Function.update s.frame e (some (k, back)) }
  | thrown (e : ε) (k : κ) (pos back : π) (exc : Thrown) (loop : Loop (Callable (κ × H) G) ι ε)
      (hframe : s.frame e = some (k, pos)) (hwork : service.work pos = .user back)
      (hloop : (eventLoop (Callable (κ × H) G) ι ε).step s.loop
        (.exec e (.callback (.throws exc))) = some loop) :
      Move service s (.loop (.exec e (.callback (.throws exc))))
        { s with loop, frame := Function.update s.frame e none }
  | framed (e : ε) (choice : α) (k : κ) (pos : π) (next : Next π) (t : Sources κ δ π H G ι ε)
      (hframe : s.frame e = some (k, pos)) (hwork : service.work pos = .frame next)
      (hnext : s.proceed e k next = some t) : Move service s (.act e choice) t
  | used (e : ε) (choice : α) (k : κ) (pos : π) (use : α → δ → Option (δ × Next π)) (fd : Int)
      (state state' : δ) (next : Next π) (t : Sources κ δ π H G ι ε)
      (hframe : s.frame e = some (k, pos)) (hwork : service.work pos = .object use)
      (halive : s.source k = .alive fd state) (huse : use choice state = some (state', next))
      (hnext : { s with source := Function.update s.source k (.alive fd state') }.proceed e k next =
        some t) : Move service s (.act e choice) t
  | wild (e : ε) (choice : α) (k : κ) (pos : π) (use : α → δ → Option (δ × Next π))
      (hframe : s.frame e = some (k, pos)) (hwork : service.work pos = .object use)
      (hgone : ∀ fd state, s.source k ≠ .alive fd state) :
      Move service s (.act e choice) { s with wild := true }

theorem loopMove_of_step {service : Service δ π α ο H} {s t : Sources κ δ π H G ι ε}
    {l : LoopLabel (Callable (κ × H) G) ι ε} (h : s.loopStep service l = some t) :
    Move service s (.loop l) t := by
  unfold loopStep at h
  split at h
  · rename_i e
    obtain ⟨loop, hloop, h⟩ := Option.map_eq_some_iff.mp h
    split at h
    · subst h
      exact .entered e _ _ _ _ loop hloop ‹_›
    · rename_i hother
      subst h
      refine .looped _ loop hloop (by simp) ?_
      rintro e' c k func stopping hl
      obtain rfl := by simpa using hl
      exact hother c k func stopping
  · rename_i e act
    split at h
    · rename_i hframe
      obtain ⟨loop, hloop, rfl⟩ := Option.map_eq_some_iff.mp h
      refine .looped _ loop hloop ?_ (by simp)
      rintro e' act' hl hne
      obtain ⟨rfl, -⟩ := by simpa using hl
      exact absurd hframe hne
    · rename_i k pos hframe
      split at h
      · split at h
        · cases h
          exact .back e k pos _ _ _ hframe ‹_› ‹_›
        · cases h
      · obtain ⟨loop, hloop, rfl⟩ := Option.map_eq_some_iff.mp h
        exact .thrown e k pos _ _ loop hframe ‹_› hloop
      · rename_i act' hwork hreturns hthrows
        obtain ⟨loop, hloop, rfl⟩ := Option.map_eq_some_iff.mp h
        refine .looped _ loop hloop ?_ (by simp)
        rintro e' act'' hl -
        obtain ⟨rfl, rfl⟩ := by simpa using hl
        exact ⟨hreturns, hthrows⟩
      · cases h
  · obtain ⟨loop, hloop, rfl⟩ := Option.map_eq_some_iff.mp h
    rename_i hinvoke hcallback
    refine .looped _ loop hloop ?_ ?_
    · rintro e act rfl
      exact absurd rfl (hcallback e act)
    · rintro e c k func stopping rfl
      exact absurd rfl (hinvoke e)

theorem move_of_step {service : Service δ π α ο H} {s t : Sources κ δ π H G ι ε}
    {l : SourcesLabel κ α ο H G ι ε} (h : (sources κ G ι ε service).step s l = some t) :
    Move service s l t := by
  change Sources.step service s l = some t at h
  cases l with
  | construct who k fd answer =>
      simp only [step] at h
      split at h
      · split at h
        · rename_i hunborn hcond
          obtain ⟨hturn, -, hclosed⟩ := hcond
          split at h
          · cases h
            exact .constructed who k fd answer _ _ hturn hunborn hclosed ‹_›
          · cases h
            exact .notConstructed who k fd answer _ _ _ hturn ‹_›
        · cases h
      · cases h
  | install who k func answer =>
      simp only [step] at h
      split at h
      · rename_i fd state halive
        split at h
        · cases h
          exact .installed who k func answer fd state ‹_› halive
        · cases h
      · cases h
  | destroy who k answer =>
      simp only [step] at h
      split at h
      · rename_i fd state halive
        split at h
        · cases h
          exact .destroyed who k answer fd state ‹_› halive
        · cases h
      · cases h
  | register who call =>
      simp only [step] at h
      split at h
      · cases h
        exact .registered who call ‹_›
      · cases h
  | outside k op =>
      simp only [step] at h
      split at h
      · cases h
        exact .outside k op _ _ ‹_›
      · cases h
  | act e choice =>
      simp only [step, act] at h
      split at h
      · cases h
      · rename_i k pos hframe
        split at h
        · cases h
        · exact .framed e choice k pos _ t hframe ‹_› h
        · rename_i use hwork
          split at h
          · rename_i fd state halive
            obtain ⟨⟨state', next⟩, huse, hnext⟩ := Option.bind_eq_some_iff.mp h
            exact .used e choice k pos use fd state state' next t hframe hwork halive huse hnext
          · rename_i hgone
            cases h
            exact .wild e choice k pos use hframe hwork hgone
  | loop l => exact loopMove_of_step h

/-! ### Runs -/

theorem inv_preserved (service : Service δ π α ο H) :
    (sources κ G ι ε service).Preserves Inv := by
  intro s l t hstep h
  have hsame : ∀ e k pos, s.frame e = some (k, pos) → ∃ pos', s.frame e = some (k, pos') :=
    fun e k pos hpos => ⟨pos, hpos⟩
  cases move_of_step hstep with
  | constructed who k fd answer queue object hturn hunborn hclosed hadd =>
      exact h.congr rfl (construct_state hadd) hsame
  | notConstructed who k fd answer exc queue object hturn hadd =>
      exact h.congr rfl (construct_state hadd :) hsame
  | installed who k func answer fd state hturn halive =>
      exact h.congr rfl (Call.apply_state _ _) hsame
  | destroyed who k answer fd state hturn halive =>
      exact h.congr rfl ((Call.del fd answer).apply_state _) hsame
  | registered who call hturn => exact h.congr rfl (Call.apply_state _ _) hsame
  | outside | wild => exact h.congr rfl rfl hsame
  | entered e k func c stopping loop hloop hpos =>
      refine h.loop hloop fun e' k' pos' hframe => ?_
      by_cases heq : e' = e
      · subst heq
        obtain ⟨rfl, -⟩ : k = k' ∧ service.enter func = pos' := by simpa using hframe
        exact Or.inl ⟨c, func, stopping, hpos⟩
      · exact Or.inr ⟨by simpa [heq] using hframe, by simp [Ne.symm heq]⟩
  | looped l loop hloop hstays hother =>
      refine h.loop hloop fun e k pos hframe => ?_
      by_cases hmoves : ∃ act, l = .exec e act
      · obtain ⟨act, rfl⟩ := hmoves
        obtain ⟨c, func, stopping, hpos⟩ := h.framed e k pos hframe
        obtain ⟨hmove, -, -⟩ := Loop.step_exec hloop
        rw [hpos] at hmove
        obtain ⟨act', rfl, hcallback⟩ := execMove_callback hmove
        obtain ⟨hreturns, hthrows⟩ := hstays e act' rfl (by simp [hframe])
        rcases hcallback with ⟨stopping', hcallback⟩ | rfl | ⟨exc, rfl⟩
        · exact Or.inl ⟨c, func, stopping', hcallback⟩
        · exact absurd rfl hreturns
        · exact absurd rfl (hthrows exc)
      · exact Or.inr ⟨hframe, fun act hl => hmoves ⟨act, hl⟩⟩
  | back e k pos back c func hframe hwork hpos =>
      refine h.congr rfl rfl fun e' k' pos' hpos' => ?_
      by_cases heq : e' = e
      · subst heq
        obtain ⟨rfl, -⟩ : k = k' ∧ back = pos' := by simpa using hpos'
        exact ⟨pos, hframe⟩
      · exact ⟨pos', by simpa [heq] using hpos'⟩
  | thrown e k pos back exc loop hframe hwork hloop => exact h.left hloop
  | framed e choice k pos next t hframe hwork hnext => exact h.proceed hframe hnext
  | used e choice k pos use fd state state' next t hframe hwork halive huse hnext =>
      have hused : Inv { s with source := Function.update s.source k (.alive fd state') } :=
        h.congr rfl rfl hsame
      exact hused.proceed hframe hnext

/-! ### Lives -/

theorem unborn_of_construct {service : Service δ π α ο H} {s t : Sources κ δ π H G ι ε}
    {who : Option ε} {k : κ} {fd : Int} {answer : Option Errno}
    (h : (sources κ G ι ε service).step s (.construct who k fd answer) = some t) :
    s.source k = .unborn := by
  change Sources.step service s (.construct who k fd answer) = some t at h
  simp only [step] at h
  split at h
  · assumption
  · cases h

/-- A source stays what it is, with its descriptor while it is alive, unless it is constructed or
destroyed. -/
theorem source_cases {service : Service δ π α ο H} {s t : Sources κ δ π H G ι ε}
    {l : SourcesLabel κ α ο H G ι ε} (h : (sources κ G ι ε service).step s l = some t) (k : κ) :
    t.source k = s.source k ∨
      (∃ fd state state', s.source k = .alive fd state ∧ t.source k = .alive fd state') ∨
      (∃ who fd answer, l = .construct who k fd answer ∧ s.source k = .unborn ∧
        t.source k = .alive fd service.created) ∨
      ∃ who answer fd state, l = .destroy who k answer ∧ s.source k = .alive fd state ∧
        t.source k = .dead state := by
  -- what a step does to the object that it is about
  have hupdate {k' : κ} {old new : Source δ} {f : κ → Source δ} (hf : f = Function.update s.source k' new)
      (hold : s.source k' = old) : f k = s.source k ∨ k' = k ∧ s.source k = old ∧ f k = new := by
    subst hf
    by_cases heq : k' = k
    · subst heq
      exact Or.inr ⟨rfl, hold, Function.update_self ..⟩
    · exact Or.inl (Function.update_of_ne (Ne.symm heq) ..)
  cases move_of_step h with
  | constructed who k' fd answer queue object hturn hunborn =>
      rcases hupdate rfl hunborn with hsame | ⟨rfl, hold, hnew⟩
      · exact Or.inl hsame
      · exact Or.inr (Or.inr (Or.inl ⟨who, fd, answer, rfl, hold, hnew⟩))
  | destroyed who k' answer fd state hturn halive =>
      rcases hupdate rfl halive with hsame | ⟨rfl, hold, hnew⟩
      · exact Or.inl hsame
      · exact Or.inr (Or.inr (Or.inr ⟨who, answer, fd, state, rfl, hold, hnew⟩))
  | outside k' op fd state halive =>
      rcases hupdate rfl halive with hsame | ⟨rfl, hold, hnew⟩
      · exact Or.inl hsame
      · exact Or.inr (Or.inl ⟨fd, state, _, hold, hnew⟩)
  | used e choice k' pos use fd state state' next t hframe hwork halive huse hnext =>
      rcases hupdate (source_of_proceed hnext) halive with hsame | ⟨rfl, hold, hnew⟩
      · exact Or.inl hsame
      · exact Or.inr (Or.inl ⟨fd, state, state', hold, hnew⟩)
  | framed e choice k' pos next t hframe hwork hnext =>
      exact Or.inl (congrFun (source_of_proceed hnext) k)
  | _ => exact Or.inl rfl

end Sources

end Suc.Epl
