import Suc.Proof.Dispatch
import Suc.Proof.InterestList
import Suc.Proof.LoopDispatch

/-!
# Progress of the event loop

A report makes progress when a callback is called for it. The mask of a descriptor is computed from
its callbacks, so every bit that was asked for has one. `EPOLLERR` and `EPOLLHUP` are reported
whether or not they were asked for, and without a callback nothing is done about them.
-/

namespace Suc.Epl

open Transition

variable {F ι ε ω : Type}

/-- What `epoll_wait` may report of a registered descriptor. -/
def Report.Deliverable (q : EventQueue F) (r : Report) : Prop :=
  r.events ≠ 0#32 ∧ ∃ mask, q.interest r.fd = some mask ∧
    r.events &&& (mask ||| (epollErr ||| epollHup)) = r.events

/-- The report has a bit of the installed mask. -/
def Report.Requested (q : EventQueue F) (r : Report) : Prop :=
  ∃ mask, q.interest r.fd = some mask ∧ r.events &&& mask ≠ 0#32

/-- A callback is stored for a bit of the report. -/
def Report.HasCallback (q : EventQueue F) (r : Report) : Prop :=
  ∃ t : EventType, r.events &&& t.bit ≠ 0#32 ∧ (q.stored r.fd t).isSome

theorem EventQueue.Installed.hasCallback_iff {q : EventQueue F} (h : q.Installed) (r : Report) :
    r.HasCallback q ↔ r.Requested q := by
  cases hfd : q.fds r.fd with
  | none => simp [Report.HasCallback, Report.Requested, EventQueue.stored, h r.fd, hfd]
  | some callbacks =>
      simp [Report.HasCallback, Report.Requested, EventQueue.stored, h r.fd, hfd,
        callbacks.and_mask]

/-- Of a deliverable report without a bit of the mask nothing is left but error and hang-up. -/
theorem Report.Deliverable.errHup_of_not_requested {q : EventQueue F} {r : Report}
    (h : r.Deliverable q) (hr : ¬r.Requested q) :
    r.events &&& (epollErr ||| epollHup) = r.events := by
  obtain ⟨-, mask, hmask, hwithin⟩ := h
  have hdisjoint : r.events &&& mask = 0#32 := by
    by_contra hbit
    exact hr ⟨mask, hmask, hbit⟩
  calc r.events &&& (epollErr ||| epollHup)
      = r.events &&& mask ||| r.events &&& (epollErr ||| epollHup) := by
        rw [hdisjoint, BitVec.zero_or]
    _ = r.events &&& (mask ||| (epollErr ||| epollHup)) := BitVec.and_or_distrib_left.symm
    _ = r.events := hwithin

/-! ### Which reports call something -/

section Dispatch

variable {body : Behaviour F ω} {i : Nat} {w final : World F ω}

theorem Chain.exists_first {calls : List (Invocation F ω)} (h : Chain body w calls final)
    (hcalls : calls ≠ []) : ∃ inv ∈ calls, inv.before = w := by
  cases calls with
  | nil => exact absurd rfl hcalls
  | cons inv calls => exact ⟨inv, List.mem_cons_self, h.1⟩

/-- The first call finds the state that the report does; without a call its turns find it too. -/
theorem handleEpollFilledEvent_ne_nil_iff {r : Report} :
    (handleEpollFilledEvent body i r.events r.fd w).1 ≠ [] ↔ r.HasCallback w.queue := by
  have h := handleEpollFilledEvent_exact body i r w
  constructor
  · intro hcalls
    obtain ⟨inv, hinv, hbefore⟩ := h.chain.exists_first hcalls
    obtain ⟨-, -, hbit, hstored⟩ := h.sound inv hinv
    rw [hbefore] at hstored
    exact ⟨inv.event, hbit, by simp [hstored]⟩
  · rintro ⟨t, hbit, hstored⟩ hcalls
    rw [hcalls] at h
    rcases h.complete t (mem_kEventTypes t) hbit hstored with ⟨inv, hinv, -⟩ | ⟨inv, hinv, -⟩ <;>
      cases hinv

theorem dispatch_ne_nil_iff {batch : List Report} (hrunning : w.queue.state = .running) :
    (dispatch body batch w).1 ≠ [] ↔ ∃ r ∈ batch, r.HasCallback w.queue := by
  have h := dispatchFrom_exact body batch 0 w (EventQueue.running_iff.mpr hrunning)
  rw [dispatch]
  constructor
  · intro hcalls
    obtain ⟨inv, hinv, hbefore⟩ := h.chain.exists_first hcalls
    obtain ⟨j, r, -, hr, hbit, hstored⟩ := h.sound inv hinv
    rw [hbefore] at hstored
    exact ⟨r, List.mem_of_getElem? hr, inv.event, hbit, by simp [hstored]⟩
  · rintro ⟨r, hmem, t, hbit, hstored⟩ hcalls
    obtain ⟨j, hr⟩ := List.mem_iff_getElem?.mp hmem
    rw [hcalls] at h
    rcases h.complete j r t hr hbit hstored with ⟨inv, hinv, -⟩ | ⟨inv, hinv, -⟩ <;> cases hinv

end Dispatch

/-! ### Runs that keep the two stores in step -/

/-- The registration calls of the callbacks succeed, and no descriptor is closed that is still
registered. -/
def Loop.KeepsInstalled (s : Loop F ι ε) : LoopLabel F ι ε → Prop
  | .exec _ (.callback (.call call)) => call.Succeeds
  | .exec _ (.callback (.close fd)) => s.queue.fds fd = none
  | _ => True

theorem ExecMove.installed {q q' : EventQueue F} {pos pos' : ExecPos F ι} {act : ExecAct F ι}
    (h : ExecMove q pos act q' pos') (hq : q.Installed)
    (hcall : ∀ call, act = .callback (.call call) → call.Succeeds)
    (hclose : ∀ fd, act = .callback (.close fd) → q.fds fd = none) : q'.Installed := by
  cases h with
  | register c func call => exact hq.apply (hcall call rfl)
  | close c func fd =>
      have habsent : q.interest fd = none := by rw [hq fd, hclose fd rfl, Option.map_none]
      rw [← habsent, Function.update_eq_self]
      exact hq
  | _ => exact hq

theorem StopMove.installed {q q' : EventQueue F} {call call' : StopCall ε} {act : StopAct}
    (h : StopMove q call act q' call') (hq : q.Installed) : q'.Installed := by
  cases h <;> exact hq

theorem Loop.installed_start_update (epfd evtfd : Cmn.Fd) (fd : Int) (callbacks : Callbacks F) :
    (Loop.start epfd evtfd (Function.update (fun _ => none) fd (some callbacks))
      (Function.update (fun _ => none) fd (some callbacks.mask)) : Loop F ι ε).queue.Installed := by
  intro fd'
  by_cases heq : fd' = fd <;> simp [Loop.start, heq]

section Runs

variable [DecidableEq ι] [DecidableEq ε]

theorem Loop.KeepsInstalled.step {s t : Loop F ι ε} {l : LoopLabel F ι ε}
    (hstep : (eventLoop F ι ε).step s l = some t) (hl : s.KeepsInstalled l)
    (hs : s.queue.Installed) : t.queue.Installed := by
  cases l with
  | exec e act =>
      obtain ⟨hmove, -, -⟩ := Loop.step_exec hstep
      refine hmove.installed hs ?_ ?_
      · rintro call rfl
        exact hl
      · rintro fd rfl
        exact hl
  | stop id act =>
      obtain ⟨-, -, hmoves⟩ := Loop.step_stop hstep
      rcases hmoves with ⟨-, -, -, hqueue, -⟩ | ⟨call, call', -, -, hmove⟩
      · rw [hqueue]
        exact hs
      · exact hmove.installed hs

/-- **Progress.** Registration calls that succeed keep the installed masks in step with the stored
callbacks. In every running state in which they are, a report calls a callback if and only if it has
a bit of the installed mask, as long as its registration is as it was, and a pass of the loop over a
batch calls one if and only if some report of the batch has such a bit. The reports that may be
delivered without one are of error and hang-up alone. -/
theorem progress_iff_requested {epfd evtfd : Cmn.Fd} {fds : Int → Option (Callbacks F)}
    {interest : Int → Option (BitVec 32)} {ls : List (LoopLabel F ι ε)} {s : Loop F ι ε}
    (hrun : (eventLoop F ι ε).run (Loop.start epfd evtfd fds interest) ls = some s)
    (hrunning : s.queue.state = .running) :
    ((Loop.start epfd evtfd fds interest : Loop F ι ε).queue.Installed →
        (eventLoop F ι ε).Along Loop.KeepsInstalled (Loop.start epfd evtfd fds interest) ls →
        s.queue.Installed) ∧
      (s.queue.Installed →
        (∀ (body : Behaviour F ω) (i : Nat) (r : Report) (w : World F ω),
            w.queue.fds r.fd = s.queue.fds r.fd →
            ((handleEpollFilledEvent body i r.events r.fd w).1 ≠ [] ↔ r.Requested s.queue)) ∧
          (∀ (e : ε) (batch : List Report) (pass : List (LoopLabel F ι ε)) (t : Loop F ι ε),
            s.execs e = .forTest batch → (eventLoop F ι ε).run s pass = some t →
            (eventLoop F ι ε).Along (Loop.InPass e) s pass → t.execs e = .whileTest →
            ((eventLoop F ι ε).shown (Loop.seen batch.length) s pass ≠ [] ↔
              ∃ r ∈ batch, r.Requested s.queue)) ∧
          ∀ r : Report, r.Deliverable s.queue → ¬r.Requested s.queue →
            r.events &&& (epollErr ||| epollHup) = r.events) := by
  constructor
  · intro hstart hkeeps
    exact hkeeps.invariant (fun _ _ _ hstep hl => Loop.KeepsInstalled.step hstep hl) hrun hstart
  intro hinstalled
  refine ⟨?_, ?_, fun r hr => hr.errHup_of_not_requested⟩
  · intro body i r w hsame
    rw [handleEpollFilledEvent_ne_nil_iff, ← hinstalled.hasCallback_iff]
    simp only [Report.HasCallback, EventQueue.stored, hsame]
  · intro e batch pass t hbegin hpass hin hend
    obtain ⟨record, -, hseen⟩ := pass_eq_dispatch hpass hbegin hin hend
    rw [← hseen, Ne, List.map_eq_nil_iff, ← Ne, dispatch_ne_nil_iff hrunning]
    simp only [hinstalled.hasCallback_iff]

/-- Descriptor 5 has a callback for input and is reported readable and hung up. -/
theorem progress_iff_requested_input :
    let callbacks : Callbacks Nat := { inputAvailable := some 1 }
    let start : Loop Nat Nat Nat :=
      Loop.start ⟨3⟩ ⟨4⟩ (Function.update (fun _ => none) 5 (some callbacks))
        (Function.update (fun _ => none) 5 (some callbacks.mask))
    let labels : List (LoopLabel Nat Nat Nat) :=
      [.exec 0 .call, .exec 0 .step, .exec 0 (.drained (some eagain)), .exec 0 .step,
        .exec 0 .epollWait, .exec 0 (.woken (.ok [⟨epollIn ||| epollHup, 5⟩])), .exec 0 .step]
    let body : Behaviour Nat Unit := fun _ w => (none, w)
    ∃ s, (eventLoop Nat Nat Nat).run start labels = some s ∧
      (handleEpollFilledEvent body 0 (epollIn ||| epollHup) 5 ⟨s.queue, ()⟩).1 ≠ [] := by
  intro callbacks start labels body
  have hkeeps : (eventLoop Nat Nat Nat).Along Loop.KeepsInstalled start labels := by
    simp [labels, System.Along, Loop.KeepsInstalled]
  refine ⟨_, rfl, ?_⟩
  have hrun : (eventLoop Nat Nat Nat).run start labels = some _ := rfl
  obtain ⟨hkept, hprogress⟩ := progress_iff_requested (ω := Unit) hrun rfl
  have hinstalled := hkept (Loop.installed_start_update _ _ 5 callbacks) hkeeps
  have hcalls := (hprogress hinstalled).1 body 0 ⟨epollIn ||| epollHup, 5⟩ ⟨_, ()⟩ rfl
  exact hcalls.mpr ⟨callbacks.mask, rfl, by decide⟩

/-- Descriptor 7 is registered without callbacks, as the constructor of `epl::Fd` does it, and its
peer hangs up: a round of the loop calls nothing and ends where it began. -/
theorem not_progress_of_hangUp :
    let start : Loop Nat Nat Nat :=
      Loop.start ⟨3⟩ ⟨4⟩ (Function.update (fun _ => none) 7 (some {}))
        (Function.update (fun _ => none) 7 (some (Callbacks.mask ({} : Callbacks Nat))))
    let labels : List (LoopLabel Nat Nat Nat) :=
      [.exec 0 .call, .exec 0 .step, .exec 0 (.drained (some eagain)), .exec 0 .step,
        .exec 0 .epollWait]
    let round : List (LoopLabel Nat Nat Nat) :=
      .exec 0 (.woken (.ok [⟨epollHup, 7⟩])) :: List.replicate 12 (.exec 0 .step) ++
        [.exec 0 .epollWait]
    ∃ s t, (eventLoop Nat Nat Nat).run start labels = some s ∧ s.execs 0 = .waiting ∧
      s.queue.Installed ∧ (⟨epollHup, 7⟩ : Report).Deliverable s.queue ∧
      (eventLoop Nat Nat Nat).run s round = some t ∧ t.execs 0 = .waiting ∧
      t.queue = s.queue ∧ (eventLoop Nat Nat Nat).shown (Loop.seen 1) s round = [] := by
  intro start labels round
  have hinstalled : start.queue.Installed := Loop.installed_start_update _ _ 7 {}
  exact ⟨_, _, rfl, rfl, hinstalled, ⟨by decide, 0, rfl, by decide⟩, rfl, rfl, rfl, rfl⟩

end Runs

end Suc.Epl
