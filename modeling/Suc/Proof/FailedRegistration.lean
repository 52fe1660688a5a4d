import Suc.Proof.Ownership

/-!
# Numbers on which a registration has failed

A constructor whose `epoll_ctl` fails leaves its number behind as a key. What `keysOwned_iff_added`
says of the runs without such a failure, this says of all runs: the keys are the numbers of live
objects and the numbers on which a registration has failed, and no object can be constructed on the
latter any more.
-/

namespace Suc.Epl

open Transition

variable {F ω : Type}

/-- The number on which the `epoll_ctl` of a constructor fails. -/
def FdLabel.failed? : FdLabel F ω → Option Int
  | .construct _ fd (some _) => some fd
  | _ => none

/-- The queue as it would be without the keys that failures have left behind. -/
def EventQueue.without (failed : List Int) (q : EventQueue F) : EventQueue F :=
  { q with fds := fun n => if n ∈ failed then none else q.fds n }

theorem without_isKey {failed : List Int} {q : EventQueue F} {n : Int} :
    ((q.without failed).fds n).isSome ↔ n ∉ failed ∧ (q.fds n).isSome := by
  by_cases hn : n ∈ failed <;> simp [EventQueue.without, hn]

namespace Process

def without (failed : List Int) (p : Process F ω) : Process F ω :=
  { p with queue := p.queue.without failed }

structure Accounted (evtfd : Int) (failed : List Int) (p : Process F ω) : Prop where
  owned : (p.without failed).Owned evtfd
  left : ∀ n ∈ failed, n ≠ evtfd ∧ (p.queue.fds n).isSome

variable {evtfd : Int} {failed : List Int} {p : Process F ω}

theorem Accounted.isKey_iff (h : p.Accounted evtfd failed) {n : Int} (hne : n ≠ evtfd) :
    (p.queue.fds n).isSome ↔ (∃ id, p.objects id = some (.live ⟨n⟩)) ∨ n ∈ failed := by
  have hkeys := h.owned.keys n hne
  rw [without, without_isKey] at hkeys
  by_cases hn : n ∈ failed
  · exact iff_of_true (h.left n hn).2 (Or.inr hn)
  · simpa [hn] using hkeys

theorem Accounted.not_live (h : p.Accounted evtfd failed) {n : Int} (hn : n ∈ failed) (id : ω) :
    p.objects id ≠ some (.live ⟨n⟩) := by
  intro hlive
  have hkey := (h.owned.keys n (h.left n hn).1).mpr ⟨id, hlive⟩
  exact (without_isKey.mp hkey).1 hn

/-- A key whose number is not open is one on which a registration has failed. -/
theorem Accounted.isKey_iff_of_not_opened (h : p.Accounted evtfd failed) {fd : Int}
    (hclosed : p.opened fd = false) : (p.queue.fds fd).isSome ↔ fd ∈ failed := by
  obtain ⟨hne, -, hunowned⟩ := h.owned.of_not_opened hclosed
  rw [h.isKey_iff hne]
  refine or_iff_right fun ⟨id, hlive⟩ => ?_
  exact hunowned id _ hlive rfl

theorem accounted_start (epfd evtfd : Cmn.Fd) (wake : F) (others : Int → Bool) :
    (start epfd evtfd wake others : Process F ω).Accounted evtfd.fd [] where
  owned := owned_start epfd evtfd wake others
  left := List.forall_mem_nil _

variable [DecidableEq ω]

/-- A constructor that throws takes its number and leaves the registrations as they are. -/
theorem Owned.unwound (hp : p.Owned evtfd) {id : ω} {fd : Int} {q : EventQueue F}
    (hclosed : p.opened fd = false) (hid : p.objects id = none)
    (hq : ∀ n, (q.fds n).isSome ↔ (p.queue.fds n).isSome) :
    Process.Owned evtfd ⟨q, Function.update p.opened fd true,
      Function.update p.objects id (some (.unwinding ⟨fd⟩))⟩ := by
  have habsent := (hp.of_not_opened hclosed).2.1
  -- as if it had been constructed and destroyed
  let registered : EventQueue F := { q with fds := Function.update q.fds fd (some {}) }
  have hlive := hp.construct (q := registered) hclosed hid fun n => by
    by_cases heq : n = fd <;> simp [registered, heq, hq]
  have hid' : Function.update p.objects id (some (.live ⟨fd⟩)) id = some (.live ⟨fd⟩) :=
    Function.update_self ..
  have hgone := hlive.destroy (q := q) hid' fun n => by
    by_cases heq : n = fd <;> simp [registered, heq, hq, habsent]
  simpa using hgone

theorem Accounted.step {p' : Process F ω} {l : FdLabel F ω}
    (hstep : (fdObjects F ω).step p l = some p') (h : p.Accounted evtfd failed) :
    p'.Accounted evtfd (failed ++ l.failed?.toList) := by
  cases fdMove_of_step hstep with
  | constructed id fd q hclosed hid habsent hq =>
      have hfd : fd ∉ failed := by simp [← h.isKey_iff_of_not_opened hclosed, habsent]
      refine ⟨?_, ?_⟩
      · refine h.owned.construct (q := q.without _) hclosed hid fun n => ?_
        rw [without, without_isKey, without_isKey, hq n]
        by_cases heq : n = fd <;> simp [FdLabel.failed?, heq, hfd]
      · simp only [FdLabel.failed?, Option.toList_none, List.append_nil]
        exact fun n hn => ⟨(h.left n hn).1, (hq n).mpr (Or.inr (h.left n hn).2)⟩
  | addFailed id fd errno q hclosed hid habsent hq =>
      have hne := (h.owned.of_not_opened hclosed).1
      refine ⟨?_, fun n hn => ?_⟩
      · refine h.owned.unwound (q := q.without _) hclosed hid fun n => ?_
        rw [without, without_isKey, without_isKey, hq n]
        by_cases heq : n = fd <;> simp [FdLabel.failed?, heq, habsent]
      · rcases List.mem_append.mp hn with hn | hn
        · exact ⟨(h.left n hn).1, (hq n).mpr (Or.inr (h.left n hn).2)⟩
        · obtain rfl : n = fd := by simpa [FdLabel.failed?] using hn
          exact ⟨hne, (hq n).mpr (Or.inl rfl)⟩
  | alreadyAdded id fd answer hclosed hpresent =>
      have hid : p.objects id = none := by
        simp only [fdObjects, Process.step, Option.ite_none_right_eq_some] at hstep
        exact hstep.1.2.2
      have hfd := (h.isKey_iff_of_not_opened hclosed).mp hpresent
      -- a registration has failed on the number before
      have hmem (n : Int) : n ∈ failed ++
          (FdLabel.construct id fd answer : FdLabel F ω).failed?.toList ↔ n ∈ failed := by
        cases answer with
        | none => simp [FdLabel.failed?]
        | some errno =>
            simp only [FdLabel.failed?, List.mem_append, Option.mem_toList, Option.some.injEq]
            exact or_iff_left_of_imp fun heq => heq ▸ hfd
      refine ⟨?_, fun n hn => h.left n ((hmem n).mp hn)⟩
      refine h.owned.unwound (q := p.queue.without _) hclosed hid fun n => ?_
      rw [without, without_isKey, without_isKey, hmem]
  | set id member cb answer q hq =>
      simp only [FdLabel.failed?, Option.toList_none, List.append_nil]
      refine ⟨⟨fun n hne => ?_, h.owned.evtfd_opened, h.owned.owns, h.owned.distinct⟩, ?_⟩
      · rw [without, without_isKey, hq n, ← without_isKey]
        exact h.owned.keys n hne
      · exact fun n hn => ⟨(h.left n hn).1, (hq n).mpr (h.left n hn).2⟩
  | destroyed id answer m_fd q hid hq =>
      have hother : ∀ n ∈ failed, n ≠ m_fd.fd := by
        rintro n hn rfl
        exact h.not_live hn id hid
      simp only [FdLabel.failed?, Option.toList_none, List.append_nil]
      refine ⟨?_, fun n hn => ⟨(h.left n hn).1, (hq n).mpr ⟨hother n hn, (h.left n hn).2⟩⟩⟩
      refine h.owned.destroy (q := q.without failed) hid fun n => ?_
      rw [without, without_isKey, without_isKey, hq n]
      tauto
  | closed id m_fd q opened hid hq hopened =>
      simp only [FdLabel.failed?, Option.toList_none, List.append_nil]
      refine ⟨h.owned.closed (q := q.without failed) hid ?_ hopened, fun n hn => ?_⟩
      · simp [without, EventQueue.without, hq]
      · exact ⟨(h.left n hn).1, by simpa [hq] using (h.left n hn).2⟩

theorem Accounted.run {p' : Process F ω} {ls : List (FdLabel F ω)}
    (hrun : (fdObjects F ω).run p ls = some p') (h : p.Accounted evtfd failed) :
    p'.Accounted evtfd (failed ++ ls.filterMap FdLabel.failed?) := by
  induction ls generalizing p failed with
  | nil =>
      obtain rfl : p = p' := by simpa using hrun
      simpa using h
  | cons l ls ih =>
      obtain ⟨m, hstep, hrest⟩ := System.run_cons_eq_some _ |>.mp hrun
      have hend := ih hrest (h.step hstep)
      rw [List.append_assoc] at hend
      cases hl : l.failed? <;> simpa [hl] using hend

end Process

section

variable [DecidableEq ω]

/-- **What failed registrations leave behind.** After any run of constructors, setters and
destructors, with any results of `epoll_ctl`: the keys are the numbers of live objects, and the
numbers on which a constructor's `epoll_ctl` has ever failed. No object lives on one of the latter,
and a constructor whose descriptor has such a number, and no other one, finds it already added. -/
theorem isKey_iff_live_or_failed {epfd evtfd : Cmn.Fd} {wake : F} {others : Int → Bool}
    {ls : List (FdLabel F ω)} {p : Process F ω}
    (hrun : (fdObjects F ω).run (Process.start epfd evtfd wake others) ls = some p) (n : Int) :
    let failed := ls.filterMap FdLabel.failed?
    (n ≠ evtfd.fd → ((p.queue.fds n).isSome ↔
        (∃ id, p.objects id = some (.live ⟨n⟩)) ∨ n ∈ failed)) ∧
      (n ∈ failed → ∀ id, p.objects id ≠ some (.live ⟨n⟩)) ∧
      (p.opened n = false → ∀ answer, (Fd.construct p.queue ⟨n⟩ answer).1 =
        .error (.runtimeError "file descriptor already added") ↔ n ∈ failed) := by
  intro failed
  have h := (Process.accounted_start epfd evtfd wake others).run hrun
  rw [List.nil_append] at h
  refine ⟨h.isKey_iff, h.not_live, fun hclosed answer => ?_⟩
  rw [← h.isKey_iff_of_not_opened hclosed]
  cases hfd : p.queue.fds n with
  | some callbacks =>
      have hpresent : (p.queue.fds n).isSome := by simp [hfd]
      simp [Fd.construct_of_present answer hpresent]
  | none => cases answer <;> simp [Fd.construct_of_absent _ hfd]

/-- The number on which a registration has failed is closed and given out again: it stays a key
while another object is constructed and destroyed. -/
theorem isKey_iff_live_or_failed_again :
    let labels : List (FdLabel Nat Nat) :=
      [.construct 0 5 (some 12), .close 0, .construct 1 6 none, .construct 2 5 none, .close 2,
        .destroy 1 none, .close 1]
    ∃ p, (fdObjects Nat Nat).run (Process.start ⟨3⟩ ⟨4⟩ 0 fun _ => false) labels = some p ∧
      p.opened 5 = false ∧ p.opened 6 = false ∧
      (Fd.construct p.queue ⟨5⟩ none).1 =
        .error (.runtimeError "file descriptor already added") ∧
      (Fd.construct p.queue ⟨6⟩ none).1 ≠
        .error (.runtimeError "file descriptor already added") := by
  intro labels
  have hrun : (fdObjects Nat Nat).run (Process.start ⟨3⟩ ⟨4⟩ 0 fun _ => false) labels = some _ :=
    rfl
  refine ⟨_, hrun, rfl, rfl, ?_, ?_⟩
  · exact ((isKey_iff_live_or_failed hrun 5).2.2 rfl none).mpr (by decide)
  · exact mt ((isKey_iff_live_or_failed hrun 6).2.2 rfl none).mp (by decide)

end

end Suc.Epl
