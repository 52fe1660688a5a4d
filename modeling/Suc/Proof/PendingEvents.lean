import Suc.Proof.LoopInvariant
import Suc.Transition.Simulation

/-!
# Pending events of a removed descriptor

The reports of a batch name descriptors by number, and the loop finds the registration of a number
when the turn of its report comes. A callback can remove a registration and add another one under
the same number in between: what the batch still holds for the number then goes to the new one.

Whether a report is stale is a matter of the history of the batch and not of the registrations, so
the runs carry a ledger of what has become of each number since `epoll_wait` returned.
-/

namespace Suc.Epl

variable {F ι ε : Type}

/-! ### The ledger -/

/-- What has become of the registration that a number had when `epoll_wait` returned. It is `erased`
when the `del` that removed it threw, after the entry was gone. -/
inductive Fate where
  | absent
  | kept
  | removed
  | erased
  deriving DecidableEq, Repr

abbrev Ledger := Int → Fate

def Fate.ofDel : Except Exception Unit → Fate
  | .ok _ => .removed
  | .error _ => .erased

def Ledger.record (ledger : Ledger) (s : Loop F ι ε) : LoopLabel F ι ε → Ledger
  | .exec _ (.woken (.ok _)) => fun fd => if (s.queue.fds fd).isSome then .kept else .absent
  | .exec _ (.callback (.call (.del fd answer))) =>
      if ledger fd = .kept then
        Function.update ledger fd (.ofDel (s.queue.del fd answer).1)
      else
        ledger
  | _ => ledger

theorem Ledger.of_removed {ledger : Ledger} {s : Loop F ι ε} {l : LoopLabel F ι ε} {fd : Int}
    (h : ledger.record s l fd = .removed) :
    (ledger fd = .removed ∧ ∀ e batch, l ≠ .exec e (.woken (.ok batch))) ∨
      ∃ e answer, l = .exec e (.callback (.call (.del fd answer))) := by
  unfold Ledger.record at h
  split at h
  · split at h <;> cases h
  · rename_i e fd' answer
    by_cases heq : fd = fd'
    · subst heq
      exact Or.inr ⟨e, answer, rfl⟩
    · refine Or.inl ⟨?_, fun _ _ => by simp⟩
      split at h
      · rwa [Function.update_of_ne heq] at h
      · exact h
  · exact Or.inl ⟨h, fun e batch heq => by simp_all⟩

def ledgerLoop (F ι ε : Type) [DecidableEq ι] [DecidableEq ε] :
    Transition.System (Loop F ι ε × Ledger) (LoopLabel F ι ε) :=
  (eventLoop F ι ε).withHistory Ledger.record

/-! ### Outstanding events -/

/-- The batch holds an event of the type for the number, and its turn has not come yet. -/
def Outstanding (reports : List Report) (fd : Int) (t : EventType) : Prop :=
  ∃ r ∈ reports, r.fd = fd ∧ r.events &&& t.bit ≠ 0#32

def Cursor.Outstanding (c : Cursor) (fd : Int) (t : EventType) : Prop :=
  (t ∈ c.types ∧ c.report.fd = fd ∧ c.report.events &&& t.bit ≠ 0#32) ∨
    Epl.Outstanding c.todo fd t

def ExecPos.Outstanding (fd : Int) (t : EventType) : ExecPos F ι → Prop
  | .stopExchange batch => Epl.Outstanding batch fd t
  | .forTest todo => Epl.Outstanding todo fd t
  | .find r todo => Epl.Outstanding (r :: todo) fd t
  | .scan c => c.Outstanding fd t
  | .callback c _ _ | .runTest c | .refind c => c.next.Outstanding fd t
  | _ => False

instance (reports : List Report) (fd : Int) (t : EventType) :
    Decidable (Outstanding reports fd t) :=
  inferInstanceAs (Decidable (∃ r ∈ reports, _))

instance (c : Cursor) (fd : Int) (t : EventType) : Decidable (c.Outstanding fd t) :=
  inferInstanceAs (Decidable (_ ∨ _))

instance (fd : Int) (t : EventType) :
    (pos : ExecPos F ι) → Decidable (pos.Outstanding fd t)
  | .stopExchange batch => inferInstanceAs (Decidable (Epl.Outstanding batch fd t))
  | .forTest todo => inferInstanceAs (Decidable (Epl.Outstanding todo fd t))
  | .find r todo => inferInstanceAs (Decidable (Epl.Outstanding (r :: todo) fd t))
  | .scan c => inferInstanceAs (Decidable (c.Outstanding fd t))
  | .callback c _ _ | .runTest c | .refind c =>
      inferInstanceAs (Decidable (c.next.Outstanding fd t))
  | .notCalled | .exchange | .drain | .whileTest | .wait | .waiting | .storeError _ | .loadExit
  | .returned _ | .refused _ | .threw _ => isFalse id

/-- The numbers that the reports of the batch name. -/
def ExecPos.batchFds : ExecPos F ι → List Int
  | .stopExchange batch => batch.map Report.fd
  | .forTest todo => todo.map Report.fd
  | .find r todo => (r :: todo).map Report.fd
  | .scan c | .callback c _ _ | .runTest c | .refind c => (c.report :: c.todo).map Report.fd
  | _ => []

theorem Outstanding.mem_map {reports : List Report} {fd : Int} {t : EventType}
    (h : Outstanding reports fd t) : fd ∈ reports.map Report.fd := by
  obtain ⟨r, hr, rfl, -⟩ := h
  exact List.mem_map_of_mem hr

theorem Cursor.Outstanding.mem_map {c : Cursor} {fd : Int} {t : EventType}
    (h : c.Outstanding fd t) : fd ∈ (c.report :: c.todo).map Report.fd := by
  rcases h with ⟨-, rfl, -⟩ | hrest
  · exact List.mem_cons_self
  · exact List.mem_cons_of_mem _ hrest.mem_map

theorem ExecPos.Outstanding.mem_batchFds {pos : ExecPos F ι} {fd : Int} {t : EventType}
    (h : pos.Outstanding fd t) : fd ∈ pos.batchFds := by
  cases pos with
  | stopExchange | forTest | find => exact Epl.Outstanding.mem_map h
  | scan c => exact Cursor.Outstanding.mem_map h
  | callback c | runTest c | refind c => exact Cursor.Outstanding.mem_map (c := c.next) h
  | _ => cases h

theorem Outstanding.cons {reports : List Report} {fd : Int} {t : EventType} (r : Report)
    (h : Outstanding reports fd t) : Outstanding (r :: reports) fd t := by
  obtain ⟨r', hr', hrest⟩ := h
  exact ⟨r', List.mem_cons_of_mem r hr', hrest⟩

theorem Cursor.Outstanding.of_todo {c : Cursor} {fd : Int} {t : EventType}
    (h : Epl.Outstanding c.todo fd t) : c.Outstanding fd t := Or.inr h

theorem Cursor.Outstanding.of_next {c : Cursor} {fd : Int} {t : EventType}
    (h : c.next.Outstanding fd t) : c.Outstanding fd t := by
  rcases h with ⟨hmem, hrest⟩ | htodo
  · exact Or.inl ⟨List.mem_of_mem_tail hmem, hrest⟩
  · exact Or.inr htodo

theorem ExecMove.outstanding {q q' : EventQueue F} {pos pos' : ExecPos F ι} {act : ExecAct F ι}
    (h : ExecMove q pos act q' pos') {fd : Int} {t : EventType} (hout : pos'.Outstanding fd t) :
    pos.Outstanding fd t ∨ ∃ batch, act = .woken (.ok batch) := by
  cases h with
  | woken batch => exact Or.inr ⟨batch, rfl⟩
  | dispatch | next | register | close | other | stop | resume | returns | caught | runGo |
    again => exact Or.inl hout
  | absent r todo => exact Or.inl (hout.cons r)
  | found r todo =>
      refine Or.inl ?_
      rcases hout with ⟨-, hfd, hbit⟩ | htodo
      · exact ⟨r, List.mem_cons_self, hfd, hbit⟩
      · exact Outstanding.cons r htodo
  | scanEnd c => exact Or.inl (.of_todo hout)
  | skip c => exact Or.inl (.of_next hout)
  | invoke c => exact Or.inl (.of_next hout)
  | runLeft c => exact Or.inl (.of_todo hout)
  | gone c => exact Or.inl (.of_todo hout)
  | _ => exact absurd hout id

theorem ExecPos.Outstanding.entered {pos : ExecPos F ι} {fd : Int} {t : EventType}
    (h : pos.Outstanding fd t) : pos.Entered := by
  cases pos <;> first | exact Place.noConfusion | exact absurd h id

theorem Cursor.due_eq_some {c : Cursor} {q : EventQueue F} {func : F} (h : c.due q = some func) :
    ∃ t, c.Outstanding c.report.fd t ∧ q.stored c.report.fd t = some func := by
  unfold Cursor.due at h
  split at h
  · cases h
  · rename_i t types htypes
    split at h
    · cases h
    · rename_i hbit
      exact ⟨t, Or.inl ⟨by simp [htypes], rfl, hbit⟩, h⟩

theorem ExecMove.due_of_invoke {q q' : EventQueue F} {c : Cursor} {pos' : ExecPos F ι}
    (h : ExecMove q (.scan c) .invoke q' pos') : ∃ func, c.due q = some func := by
  cases h with
  | invoke c func hdue => exact ⟨func, hdue⟩

theorem ExecMove.due_of_scan {q q' : EventQueue F} {c : Cursor} {pos' : ExecPos F ι}
    {act : ExecAct F ι} (h : ExecMove q (.scan c) act q' pos') :
    c.due q = none ∨ act = .invoke := by
  cases h with
  | scanEnd c htypes => exact Or.inl (by rw [Cursor.due, htypes])
  | skip c hdue => exact Or.inl hdue
  | invoke => exact Or.inr rfl

/-! ### Registrations -/

theorem ExecMove.fds_cases {q q' : EventQueue F} {pos pos' : ExecPos F ι} {act : ExecAct F ι}
    (h : ExecMove q pos act q' pos') :
    (q'.fds = q.fds ∧ ∀ call, act ≠ .callback (.call call)) ∨
      ∃ c func call, pos = .callback c func none ∧ pos' = .callback c func none ∧
      act = .callback (.call call) ∧ q' = (call.apply q).2 := by
  cases h with
  | register c func call => exact Or.inr ⟨c, func, call, rfl, rfl, rfl, rfl⟩
  | _ => exact Or.inl ⟨rfl, fun _ hact => by cases hact⟩

theorem StopMove.fds_eq {q q' : EventQueue F} {call call' : StopCall ε} {act : StopAct}
    (h : StopMove q call act q' call') : q'.fds = q.fds := by
  cases h <;> rfl

theorem EventQueue.stored_of_fds_eq {q q' : EventQueue F} (h : q'.fds = q.fds) (fd : Int)
    (t : EventType) : q'.stored fd t = q.stored fd t := by
  rw [EventQueue.stored, EventQueue.stored, h]

/-! ### Reused numbers -/

/-- No callback leaves a number that a `del` has freed since the wait registered again with a
callback for an event that the batch still holds for it. -/
def Loop.NotReused (s : Loop F ι ε × Ledger) : LoopLabel F ι ε → Prop
  | .exec e (.callback (.call call)) => ∀ fd t, s.2 fd = .removed →
      (s.1.execs e).Outstanding fd t → (call.apply s.1.queue).2.stored fd t = none
  | _ => True

instance (s : Loop F ι ε × Ledger) (l : LoopLabel F ι ε) : Decidable (Loop.NotReused s l) :=
  match l with
  | .exec e (.callback (.call call)) =>
      decidable_of_iff (∀ fd ∈ (s.1.execs e).batchFds, s.2 fd = .removed →
          ∀ t ∈ kEventTypes, (s.1.execs e).Outstanding fd t →
            ((call.apply s.1.queue).2.stored fd t).isNone)
        ⟨fun h fd t hremoved hout => Option.isNone_iff_eq_none.mp
            (h fd hout.mem_batchFds hremoved t (mem_kEventTypes t) hout),
          fun h fd _ hremoved t _ hout => Option.isNone_iff_eq_none.mpr (h fd t hremoved hout)⟩
  | .exec _ .call | .exec _ .step | .exec _ (.drained _) | .exec _ .epollWait
  | .exec _ (.woken _) | .exec _ .invoke | .exec _ (.callback (.close _))
  | .exec _ (.callback .other) | .exec _ (.callback (.stop _ _)) | .exec _ (.callback .resume)
  | .exec _ (.callback .returns) | .exec _ (.callback (.throws _)) | .stop _ _ => isTrue trivial

/-- The event at the cursor is not delivered if its number has been freed by a `del` since the
wait. -/
def Loop.Fresh (s : Loop F ι ε × Ledger) : LoopLabel F ι ε → Prop
  | .exec e .invoke => ∀ c, s.1.execs e = .scan c → s.2 c.report.fd ≠ .removed
  | _ => True

/-- When the loop comes to an event whose number has been freed by a `del` since the wait, nothing
is registered for the event under that number. -/
def Loop.Unclaimed (s : Loop F ι ε × Ledger) : LoopLabel F ι ε → Prop
  | .exec e _ => ∀ c, s.1.execs e = .scan c → s.2 c.report.fd = .removed →
      c.due s.1.queue = none
  | _ => True

structure Loop.FreedInv (s : Loop F ι ε × Ledger) : Prop where
  inv : s.1.Inv
  unregistered : ∀ e fd t, s.2 fd = .removed → (s.1.execs e).Outstanding fd t →
    s.1.queue.stored fd t = none

section Runs

variable [DecidableEq ι] [DecidableEq ε]

theorem ledgerLoop_step_eq_some {s t : Loop F ι ε × Ledger} {l : LoopLabel F ι ε} :
    (ledgerLoop F ι ε).step s l = some t ↔
      (eventLoop F ι ε).step s.1 l = some t.1 ∧ t.2 = s.2.record s.1 l :=
  Transition.System.withHistory_step_eq_some _

theorem Loop.FreedInv.step {s t : Loop F ι ε × Ledger} {l : LoopLabel F ι ε}
    (hstep : (ledgerLoop F ι ε).step s l = some t) (hreused : Loop.NotReused s l)
    (h : Loop.FreedInv s) : Loop.FreedInv t := by
  obtain ⟨hstep, hledger⟩ := ledgerLoop_step_eq_some.mp hstep
  refine ⟨Loop.inv_preserved hstep h.inv, ?_⟩
  intro e fd t' hremoved hout
  rw [hledger] at hremoved
  cases l with
  | stop id act =>
      obtain ⟨hexecs, -, hmoves⟩ := Loop.step_stop hstep
      have hfds : t.1.queue.fds = s.1.queue.fds := by
        rcases hmoves with ⟨value, -, -, hqueue, -⟩ | ⟨call, call', -, -, hmove⟩
        · rw [hqueue]
        · exact hmove.fds_eq
      rw [EventQueue.stored_of_fds_eq hfds]
      rw [hexecs] at hout
      exact h.unregistered e fd t' hremoved hout
  | exec e' act =>
      obtain ⟨hmove, hothers, -⟩ := Loop.step_exec hstep
      rcases Ledger.of_removed hremoved with ⟨hold, hnowake⟩ | ⟨e'', answer, heq⟩
      · -- the number had been freed before, so what is outstanding for it was so before
        have hout' : (s.1.execs e).Outstanding fd t' := by
          by_cases heq : e = e'
          · subst heq
            exact (hmove.outstanding hout).resolve_right
              fun ⟨batch, hact⟩ => hnowake e batch (by rw [hact])
          · rwa [hothers e heq] at hout
        rcases hmove.fds_cases with ⟨hfds, -⟩ | ⟨c, func, call, hpos, -, rfl, hqueue⟩
        · rw [EventQueue.stored_of_fds_eq hfds]
          exact h.unregistered e fd t' hold hout'
        · have hentered : (s.1.execs e').Entered := by
            rw [hpos]
            exact Place.noConfusion
          obtain rfl := h.inv.exec.unique e e' hout'.entered hentered
          rw [hqueue]
          exact hreused fd t' hold hout'
      · -- the step frees the number
        cases heq
        rcases hmove.fds_cases with ⟨-, hnocall⟩ | ⟨c, func, call, -, -, hact, hqueue⟩
        · exact absurd rfl (hnocall _)
        · cases hact
          rw [EventQueue.stored, hqueue, Call.apply, del_fds, Function.update_self]
          rfl

theorem Loop.FreedInv.fresh {s t : Loop F ι ε × Ledger} {l : LoopLabel F ι ε}
    (hstep : (ledgerLoop F ι ε).step s l = some t) (h : Loop.FreedInv s) : Loop.Fresh s l := by
  obtain ⟨hstep, -⟩ := ledgerLoop_step_eq_some.mp hstep
  cases l with
  | stop id act => trivial
  | exec e act =>
      cases act with
      | invoke =>
          intro c hpos hremoved
          obtain ⟨hmove, -, -⟩ := Loop.step_exec hstep
          rw [hpos] at hmove
          obtain ⟨func, hdue⟩ := hmove.due_of_invoke
          obtain ⟨t', hout, hstored⟩ := Cursor.due_eq_some hdue
          rw [h.unregistered e c.report.fd t' hremoved (by rw [hpos]; exact hout)] at hstored
          cases hstored
      | _ => trivial

theorem Loop.fresh_iff_unclaimed {s t : Loop F ι ε × Ledger} {l : LoopLabel F ι ε}
    (hstep : (ledgerLoop F ι ε).step s l = some t) : Loop.Fresh s l ↔ Loop.Unclaimed s l := by
  obtain ⟨hstep, -⟩ := ledgerLoop_step_eq_some.mp hstep
  cases l with
  | stop id act => exact Iff.rfl
  | exec e act =>
      obtain ⟨hmove, -, -⟩ := Loop.step_exec hstep
      constructor
      · intro hfresh c hpos hremoved
        rw [hpos] at hmove
        rcases hmove.due_of_scan with hnone | rfl
        · exact hnone
        · exact absurd hremoved (hfresh c hpos)
      · intro hunclaimed
        cases act with
        | invoke =>
            intro c hpos hremoved
            rw [hpos] at hmove
            obtain ⟨func, hdue⟩ := hmove.due_of_invoke
            rw [hunclaimed c hpos hremoved] at hdue
            cases hdue
        | _ => trivial

/-- **Pending events.** In a run whose callbacks do not register a number again, for events that the
batch still holds for it, after a `del` has freed it, no event that was collected for a removed
registration is delivered; and none is delivered in a run exactly when nothing is registered for
such an event by the time the loop comes to it. -/
theorem fresh_of_notReused {epfd evtfd : Cmn.Fd} {fds : Int → Option (Callbacks F)}
    {interest : Int → Option (BitVec 32)} {ls : List (LoopLabel F ι ε)} {s : Loop F ι ε × Ledger}
    (hrun : (ledgerLoop F ι ε).run (Loop.start epfd evtfd fds interest, fun _ => .absent) ls =
      some s) :
    let start : Loop F ι ε × Ledger := (Loop.start epfd evtfd fds interest, fun _ => .absent)
    ((ledgerLoop F ι ε).Along Loop.NotReused start ls →
        (ledgerLoop F ι ε).Along Loop.Fresh start ls) ∧
      ((ledgerLoop F ι ε).Along Loop.Fresh start ls ↔
        (ledgerLoop F ι ε).Along Loop.Unclaimed start ls) := by
  intro start
  have hstart : Loop.FreedInv start :=
    ⟨Loop.inv_start epfd evtfd fds interest, fun e fd t hremoved => by cases hremoved⟩
  refine ⟨fun hreused => ?_, fun hfresh => ?_, fun hunclaimed => ?_⟩
  · exact hreused.of_invariant (fun _ _ _ hstep hC h => h.step hstep hC)
      (fun _ _ _ hstep _ h => h.fresh hstep) hrun hstart
  · exact hfresh.of_invariant (I := fun _ => True) (fun _ _ _ _ _ _ => trivial)
      (fun _ _ _ hstep hC _ => (Loop.fresh_iff_unclaimed hstep).mp hC) hrun trivial
  · exact hunclaimed.of_invariant (I := fun _ => True) (fun _ _ _ _ _ _ => trivial)
      (fun _ _ _ hstep hC _ => (Loop.fresh_iff_unclaimed hstep).mpr hC) hrun trivial

/-- The callback gets the number again and registers it for input only, so what is pending for output
goes to nobody. -/
theorem fresh_of_notReused_del :
    let callbacks : Callbacks Nat := { inputAvailable := some 1, outputPossible := some 2 }
    let fds : Int → Option (Callbacks Nat) := fun fd => if fd = 5 then some callbacks else none
    let interest : Int → Option (BitVec 32) := fun fd =>
      if fd = 5 then some callbacks.mask else none
    let start : Loop Nat Nat Nat × Ledger := (Loop.start ⟨3⟩ ⟨4⟩ fds interest, fun _ => .absent)
    let reg : Reg Nat := fun callbacks => ({ callbacks with inputAvailable := some 3 }, none)
    let labels : List (LoopLabel Nat Nat Nat) :=
      [.exec 0 .call, .exec 0 .step, .exec 0 (.drained (some eagain)), .exec 0 .step,
        .exec 0 .epollWait, .exec 0 (.woken (.ok [⟨epollIn ||| epollOut, 5⟩])), .exec 0 .step,
        .exec 0 .step, .exec 0 .step, .exec 0 .step, .exec 0 .step, .exec 0 .invoke,
        .exec 0 (.callback (.call (.del 5 none))), .exec 0 (.callback (.close 5)),
        .exec 0 (.callback (.call (.add 5 (some reg) none))), .exec 0 (.callback .returns),
        .exec 0 .step, .exec 0 .step, .exec 0 .step]
    ∃ s, (ledgerLoop Nat Nat Nat).run start labels = some s ∧ s.2 5 = .removed ∧
      s.1.queue.stored 5 .input = some 3 ∧
      (ledgerLoop Nat Nat Nat).Along Loop.Fresh start labels ∧
      (ledgerLoop Nat Nat Nat).Along Loop.Unclaimed start labels := by
  intro callbacks fds interest start reg labels
  have hrun : (ledgerLoop Nat Nat Nat).run start labels = some _ := rfl
  have hreused : (ledgerLoop Nat Nat Nat).Along Loop.NotReused start labels := by decide +kernel
  obtain ⟨hfresh, hiff⟩ := fresh_of_notReused hrun
  exact ⟨_, hrun, rfl, rfl, hfresh hreused, hiff.mp (hfresh hreused)⟩

/-- A callback removes and closes its descriptor, gets the same number for a new one and adds it:
the new registration is called for the event that is pending from the old one. -/
theorem not_fresh_of_reuse :
    let callbacks : Callbacks Nat := { inputAvailable := some 1, outputPossible := some 2 }
    let fds : Int → Option (Callbacks Nat) := fun fd => if fd = 5 then some callbacks else none
    let interest : Int → Option (BitVec 32) := fun fd =>
      if fd = 5 then some callbacks.mask else none
    let start : Loop Nat Nat Nat × Ledger := (Loop.start ⟨3⟩ ⟨4⟩ fds interest, fun _ => .absent)
    let reg : Reg Nat := fun callbacks => ({ callbacks with outputPossible := some 3 }, none)
    let labels : List (LoopLabel Nat Nat Nat) :=
      [.exec 0 .call, .exec 0 .step, .exec 0 (.drained (some eagain)), .exec 0 .step,
        .exec 0 .epollWait, .exec 0 (.woken (.ok [⟨epollIn ||| epollOut, 5⟩])), .exec 0 .step,
        .exec 0 .step, .exec 0 .step, .exec 0 .step, .exec 0 .step, .exec 0 .invoke,
        .exec 0 (.callback (.call (.del 5 none))), .exec 0 (.callback (.close 5)),
        .exec 0 (.callback (.call (.add 5 (some reg) none))), .exec 0 (.callback .returns),
        .exec 0 .step, .exec 0 .step]
    ∃ s t c, (ledgerLoop Nat Nat Nat).run start labels = some s ∧
      (ledgerLoop Nat Nat Nat).step s (.exec 0 .invoke) = some t ∧
      t.1.execs 0 = .callback c 3 none ∧ c.report.fd = 5 ∧ s.2 5 = .removed ∧
      ¬(ledgerLoop Nat Nat Nat).Along Loop.Fresh start (labels ++ [.exec 0 .invoke]) := by
  intro callbacks fds interest start reg labels
  refine ⟨_, _, _, rfl, rfl, rfl, rfl, rfl, ?_⟩
  intro hfresh
  have hlast := ((Transition.System.along_append rfl).mp hfresh).2.1
  exact hlast _ rfl rfl

end Runs

end Suc.Epl
