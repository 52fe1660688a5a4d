import Suc.Proof.InterestList

/-!
# Registration calls that fail

`add` and `mod` edit the stored callbacks in place before the two points where they may throw, and
`del` erases them before its `epoll_ctl`. None of them takes the change back, so a call that fails
at one of these points leaves both stores as they were only if it had changed nothing.
-/

namespace Suc.Epl

variable {F : Type}

/-- A call that throws leaves the map and the interest list as they were. -/
def Call.Atomic (q : EventQueue F) (call : Call F) : Prop :=
  ∀ exc, (call.apply q).1 = .error exc →
    (call.apply q).2.fds = q.fds ∧ (call.apply q).2.interest = q.interest

/-- Either the call is rejected before it changes the map, or it meets no failure behind the change,
or the change is none. -/
def Call.Clean (q : EventQueue F) : Call F → Prop
  | .add fd reg answer => (q.fds fd).isSome ∨ (newCallbacks reg).2 = none ∧ answer = none
  | .mod _ none _ => True
  | .mod fd (some reg) answer => ∀ callbacks, q.fds fd = some callbacks →
      (reg callbacks).2 = none ∧ answer = none ∨ (reg callbacks).1 = callbacks
  | .del fd answer => q.fds fd = none ∨ answer = none

theorem EventQueue.store_fds_eq_iff {q : EventQueue F} {fd : Int} {callbacks : Callbacks F} :
    (q.store fd callbacks).fds = q.fds ↔ q.fds fd = some callbacks := by
  rw [EventQueue.store, Function.update_eq_self_iff, eq_comm]

theorem EventQueue.erase_fds_eq_iff {q : EventQueue F} {fd : Int} :
    (q.erase fd).fds = q.fds ↔ q.fds fd = none := by
  rw [EventQueue.erase, Function.update_eq_self_iff, eq_comm]

/-! ### Exactly the clean calls are atomic -/

variable {q : EventQueue F} {call : Call F}

theorem Call.Atomic.of_ok (h : (call.apply q).1 = .ok ()) : call.Atomic q := by
  intro exc hexc
  rw [h] at hexc
  cases hexc

theorem Call.atomic_iff_of_error {exc : Exception} {q' : EventQueue F}
    (h : call.apply q = (.error exc, q')) :
    call.Atomic q ↔ q'.fds = q.fds ∧ q'.interest = q.interest := by
  simp [Call.Atomic, h]

theorem Call.RejectedBy.atomic (h : call.RejectedBy q) : call.Atomic q := by
  obtain ⟨exc, hexc⟩ := h.apply_eq
  exact (Call.atomic_iff_of_error hexc).mpr ⟨rfl, rfl⟩

/-- The common end of `add` and `mod` is atomic when it does not fail or changes nothing. -/
theorem Call.atomic_iff_of_install {op : CtlOp} {fd : Int}
    {edited : Callbacks F × Option Exception} {answer : Option Errno} {msg : String}
    (h : call.apply q = q.install op fd edited answer msg) :
    call.Atomic q ↔ edited.2 = none ∧ answer = none ∨ q.fds fd = some edited.1 := by
  by_cases hok : edited.2 = none ∧ answer = none
  · obtain ⟨hedited, rfl⟩ := hok
    refine iff_of_true (Call.Atomic.of_ok ?_) (Or.inl ⟨hedited, rfl⟩)
    rw [h, q.install_of_succeeds op fd msg hedited]
  · obtain ⟨exc, hexc⟩ := q.install_of_fails op fd msg hok
    rw [Call.atomic_iff_of_error (h.trans hexc), EventQueue.store_fds_eq_iff, or_iff_right hok]
    exact and_iff_left rfl

theorem Call.atomic_iff_clean (q : EventQueue F) (call : Call F) :
    call.Atomic q ↔ call.Clean q := by
  cases call with
  | add fd reg answer =>
      cases hfd : q.fds fd with
      | some callbacks =>
          have hpresent : (q.fds fd).isSome := by simp [hfd]
          exact iff_of_true (Call.RejectedBy.addPresent hpresent).atomic (Or.inl hpresent)
      | none =>
          have hinstall : (Call.add fd reg answer).apply q = _ := add_of_absent reg answer hfd
          rw [Call.atomic_iff_of_install hinstall]
          simp [Call.Clean, hfd]
  | mod fd reg answer =>
      cases reg with
      | none => exact iff_of_true Call.RejectedBy.modEmpty.atomic trivial
      | some reg =>
          cases hfd : q.fds fd with
          | none =>
              refine iff_of_true (Call.RejectedBy.modAbsent hfd).atomic ?_
              intro callbacks hcallbacks
              simp [hfd] at hcallbacks
          | some callbacks =>
              have hinstall : (Call.mod fd (some reg) answer).apply q = _ :=
                mod_of_present answer reg hfd
              rw [Call.atomic_iff_of_install hinstall]
              simp [Call.Clean, hfd, eq_comm]
  | del fd answer =>
      cases hfd : q.fds fd with
      | none => exact iff_of_true (Call.RejectedBy.delAbsent hfd).atomic (Or.inl hfd)
      | some callbacks =>
          cases answer with
          | none =>
              refine iff_of_true (Call.Atomic.of_ok ?_) (Or.inr rfl)
              rw [Call.apply, EventQueue.del_of_succeeds hfd]
          | some errno =>
              obtain ⟨exc, hexc⟩ := EventQueue.del_of_fails errno hfd
              have hfails : (Call.del fd (some errno)).apply q = _ := hexc
              rw [Call.atomic_iff_of_error hfails, EventQueue.erase_fds_eq_iff]
              simp [Call.Clean, hfd]

/-! ### Runs of registration calls -/

theorem EventQueue.Installed.apply_of_clean (h : q.Installed) (hclean : call.Clean q) :
    (call.apply q).2.Installed := by
  cases hresult : (call.apply q).1 with
  | ok => exact h.apply_of_ok hresult
  | error exc =>
      obtain ⟨hfds, hinterest⟩ := (Call.atomic_iff_clean q call).mpr hclean exc hresult
      intro fd
      rw [hfds, hinterest]
      exact h fd

/-- **Failing registration calls.** A call leaves both stores as they were, should it fail, if and
only if it is clean, in whatever state; and along a run of clean calls the installed masks match the
stored callbacks whether or not the calls fail. -/
theorem registrations_atomic_iff_clean {epfd evtfd : Int} {errno : Errno} {wake : F}
    {q₀ q : EventQueue F} {calls : List (Call F)}
    (hcreate : EventQueue.create epfd evtfd errno wake none = .ok q₀)
    (hrun : (registrations F).run q₀ calls = some q) :
    ((registrations F).Along (fun q call => call.Atomic q) q₀ calls ↔
        (registrations F).Along (fun q call => call.Clean q) q₀ calls) ∧
      ((registrations F).Along (fun q call => call.Clean q) q₀ calls → q.InStep) ∧
      ∀ (q' : EventQueue F) (call : Call F), call.Atomic q' ↔ call.Clean q' := by
  obtain ⟨-, -, -, rfl⟩ := create_eq_ok.mp hcreate
  refine ⟨?_, ?_, Call.atomic_iff_clean⟩
  · exact Transition.System.along_congr (fun q call _ => Call.atomic_iff_clean q call) _
  · intro hclean
    refine EventQueue.Installed.inStep ?_
    refine hclean.invariant ?_ hrun (created_installed _ _ wake)
    intro q call m hstep hcall h
    obtain rfl : (call.apply q).2 = m := Option.some.inj hstep
    exact h.apply_of_clean hcall

/-- Descriptor 7 is added, a `mod` of it with a registration function that throws at once fails, and
descriptor 7 is added again. -/
theorem registrations_atomic_iff_clean_throws :
    let throws : Reg Nat := fun callbacks => (callbacks, some (.runtimeError "failed"))
    ∃ q : EventQueue Nat,
      (registrations Nat).run (EventQueue.created ⟨3⟩ ⟨4⟩ 0)
        [.add 7 none none, .mod 7 (some throws) none, .add 7 none none] = some q ∧
      q.InStep ∧ (Call.del 7 none).Atomic q := by
  intro throws
  have hcreate : EventQueue.create 3 4 0 0 none = .ok (EventQueue.created ⟨3⟩ ⟨4⟩ 0) :=
    create_eq_ok.mpr ⟨by decide, by decide, rfl, rfl⟩
  obtain ⟨-, hinStep, hatomic⟩ := registrations_atomic_iff_clean (q := _) hcreate
    (show (registrations Nat).run (EventQueue.created ⟨3⟩ ⟨4⟩ 0)
      [.add 7 none none, .mod 7 (some throws) none, .add 7 none none] = some _ from rfl)
  refine ⟨_, rfl, hinStep ?_, (hatomic _ _).mpr (Or.inr rfl)⟩
  refine ⟨Or.inr ⟨rfl, rfl⟩, ?_⟩
  rintro _ ⟨rfl⟩
  refine ⟨fun callbacks _ => Or.inr rfl, ?_⟩
  rintro _ ⟨rfl⟩
  exact ⟨Or.inl rfl, fun _ _ => trivial⟩

/-- The kernel is out of memory when descriptor 7 is added: 7 stays a key of the map, and adding it
again is rejected. -/
theorem not_atomic_of_add_failed :
    ∃ q : EventQueue Nat,
      (registrations Nat).run (EventQueue.created ⟨3⟩ ⟨4⟩ 0) [.add 7 none (some 12)] = some q ∧
      ¬(Call.add 7 none (some 12)).Atomic (EventQueue.created ⟨3⟩ ⟨4⟩ 0) ∧
      q.fds 7 = some {} ∧ q.interest 7 = none ∧
      (q.add 7 none none).1 = .error (.runtimeError "file descriptor already added") := by
  refine ⟨_, rfl, ?_, rfl, rfl, rfl⟩
  intro hatomic
  have hfds := congrFun (hatomic _ rfl).1 7
  cases hfds

end Suc.Epl
