import Suc.Epl.Setters

/-!
# The map and the kernel interest list

As long as `epoll_ctl` succeeds and registration functions return, the interest list is the image of
`m_fds` under the mask of the callbacks. Each of the three calls changes both at its own descriptor
and to the same effect; the order in which it does so is not observable, since no call ends between
the two changes.
-/

namespace Suc.Epl

variable {F : Type}

/-- The descriptors installed in the kernel are the keys of the map, and the installed mask of each
has, among the six event types, exactly the bits whose callback is not empty. -/
structure EventQueue.InStep (q : EventQueue F) : Prop where
  keys : ∀ fd, (q.interest fd).isSome ↔ (q.fds fd).isSome
  bits : ∀ fd events callbacks, q.interest fd = some events → q.fds fd = some callbacks →
    ∀ t : EventType, events &&& t.bit ≠ 0#32 ↔ (callbacks.callback t).isSome

def EventQueue.Installed (q : EventQueue F) : Prop :=
  ∀ fd, q.interest fd = (q.fds fd).map Callbacks.mask

theorem EventQueue.Installed.inStep {q : EventQueue F} (h : q.Installed) : q.InStep where
  keys fd := by rw [h fd, Option.isSome_map]
  bits fd events callbacks hevents hcallbacks t := by
    rw [h fd, hcallbacks, Option.map_some, Option.some.injEq] at hevents
    rw [← hevents]
    exact callbacks.mask_and_bit t

def Returns (reg : Option (Reg F)) : Prop :=
  ∀ r ∈ reg, ∀ callbacks, (r callbacks).2 = none

def Call.Succeeds : Call F → Prop
  | .add _ reg answer => Returns reg ∧ answer = none
  | .mod _ reg answer => Returns reg ∧ answer = none
  | .del _ answer => answer = none

/-- The calls that are rejected before any `epoll_ctl`. -/
inductive Call.RejectedBy (q : EventQueue F) : Call F → Prop where
  | addPresent {fd : Int} {reg : Option (Reg F)} {answer : Option Errno}
      (hfd : (q.fds fd).isSome) : RejectedBy q (.add fd reg answer)
  | modEmpty {fd : Int} {answer : Option Errno} : RejectedBy q (.mod fd none answer)
  | modAbsent {fd : Int} {reg : Option (Reg F)} {answer : Option Errno}
      (hfd : q.fds fd = none) : RejectedBy q (.mod fd reg answer)
  | delAbsent {fd : Int} {answer : Option Errno}
      (hfd : q.fds fd = none) : RejectedBy q (.del fd answer)

theorem Fd.setCallback_succeeds (fd : Int) (member : EventType) (cb : Option F) :
    (Fd.setCallback fd member cb none).Succeeds := by
  refine ⟨?_, rfl⟩
  intro r hr callbacks
  obtain rfl := Option.mem_some_iff.mp hr
  rfl

theorem Call.RejectedBy.apply_eq {q : EventQueue F} {call : Call F} (h : call.RejectedBy q) :
    ∃ exc, call.apply q = (.error exc, q) := by
  cases h with
  | addPresent hfd => exact ⟨_, add_of_present _ _ hfd⟩
  | modEmpty => exact ⟨_, rfl⟩
  | @modAbsent fd reg answer hfd =>
      cases reg with
      | none => exact ⟨_, rfl⟩
      | some reg => exact ⟨_, mod_of_absent answer reg hfd⟩
  | delAbsent hfd => exact ⟨_, del_of_absent _ hfd⟩

/-! ### The two ends of a call -/

namespace EventQueue

variable (q : EventQueue F) (op : CtlOp) (fd : Int) (msg : String)

theorem install_of_succeeds {edited : Callbacks F × Option Exception} (hedited : edited.2 = none) :
    q.install op fd edited none msg =
      (.ok (), (q.store fd edited.1).epollCtl op fd edited.1.mask none) := by
  simp only [install, hedited, calculateEvents_nil]

theorem install_of_fails {edited : Callbacks F × Option Exception} {answer : Option Errno}
    (h : ¬(edited.2 = none ∧ answer = none)) :
    ∃ exc, q.install op fd edited answer msg = (.error exc, q.store fd edited.1) := by
  unfold install
  rw [calculateEvents_nil]
  cases hthrown : edited.2 with
  | some exc => exact ⟨exc, rfl⟩
  | none =>
      cases answer with
      | some errno => exact ⟨.errnoError msg errno, rfl⟩
      | none => exact absurd ⟨hthrown, rfl⟩ h

theorem install_eq_ok_iff {edited : Callbacks F × Option Exception} {answer : Option Errno} :
    (q.install op fd edited answer msg).1 = .ok () ↔ edited.2 = none ∧ answer = none := by
  by_cases hok : edited.2 = none ∧ answer = none
  · obtain ⟨hedited, rfl⟩ := hok
    rw [q.install_of_succeeds op fd msg hedited]
    exact iff_of_true rfl ⟨hedited, rfl⟩
  · obtain ⟨exc, hexc⟩ := q.install_of_fails op fd msg hok
    rw [hexc]
    exact iff_of_false (by simp) hok

variable {q} {fd}

theorem del_of_fails {callbacks : Callbacks F} (errno : Errno) (hfd : q.fds fd = some callbacks) :
    ∃ exc, q.del fd (some errno) = (.error exc, q.erase fd) := by
  by_cases hbad : errno = ebadf
  · exact ⟨_, by simp [del, hfd, hbad, epollCtl]; rfl⟩
  · exact ⟨_, by simp [del, hfd, hbad, epollCtl]; rfl⟩

theorem del_of_succeeds {callbacks : Callbacks F} (hfd : q.fds fd = some callbacks) :
    q.del fd none = (.ok (), (q.erase fd).epollCtl .del fd 0 none) := by
  simp [del, hfd]

end EventQueue

/-- A call without failures returns, unless it is rejected. -/
theorem Call.Succeeds.rejected_or_ok {call : Call F} (h : call.Succeeds) (q : EventQueue F) :
    call.RejectedBy q ∨ (call.apply q).1 = .ok () := by
  cases call with
  | add fd reg answer =>
      obtain ⟨hreg, rfl⟩ := h
      cases hfd : q.fds fd with
      | some callbacks => exact Or.inl (.addPresent (by simp [hfd]))
      | none =>
          have hreturns : (newCallbacks reg).2 = none := by
            cases reg with
            | none => rfl
            | some r => exact hreg r rfl {}
          refine Or.inr ?_
          rw [Call.apply, add_of_absent reg none hfd, EventQueue.install_eq_ok_iff]
          exact ⟨hreturns, rfl⟩
  | mod fd reg answer =>
      obtain ⟨hreg, rfl⟩ := h
      cases reg with
      | none => exact Or.inl .modEmpty
      | some reg =>
          cases hfd : q.fds fd with
          | none => exact Or.inl (.modAbsent hfd)
          | some callbacks =>
              refine Or.inr ?_
              rw [Call.apply, mod_of_present none reg hfd, EventQueue.install_eq_ok_iff]
              exact ⟨hreg reg rfl callbacks, rfl⟩
  | del fd answer =>
      obtain rfl : answer = none := h
      cases hfd : q.fds fd with
      | none => exact Or.inl (.delAbsent hfd)
      | some callbacks => exact Or.inr (by rw [Call.apply, EventQueue.del_of_succeeds hfd])

namespace EventQueue.Installed

variable {q : EventQueue F}

theorem store (h : q.Installed) {op : CtlOp} (hop : op ≠ .del) (fd : Int)
    (callbacks : Callbacks F) :
    ((q.store fd callbacks).epollCtl op fd callbacks.mask none).Installed := by
  intro fd'
  have hresult : ((q.store fd callbacks).epollCtl op fd callbacks.mask none).interest =
      Function.update q.interest fd (some callbacks.mask) := by
    cases op with
    | add => rfl
    | mod => rfl
    | del => exact absurd rfl hop
  rw [hresult]
  by_cases heq : fd' = fd
  · simp [EventQueue.store, heq]
  · simp [EventQueue.store, heq, h fd']

theorem install (h : q.Installed) {op : CtlOp} (hop : op ≠ .del) {fd : Int}
    {edited : Callbacks F × Option Exception} {answer : Option Errno} {msg : String}
    (hok : (q.install op fd edited answer msg).1 = .ok ()) :
    (q.install op fd edited answer msg).2.Installed := by
  obtain ⟨hedited, rfl⟩ := (q.install_eq_ok_iff op fd msg).mp hok
  rw [q.install_of_succeeds op fd msg hedited]
  exact h.store hop fd edited.1

theorem erase (h : q.Installed) (fd : Int) (events : BitVec 32) :
    ((q.erase fd).epollCtl .del fd events none).Installed := by
  intro fd'
  by_cases heq : fd' = fd
  · simp [EventQueue.erase, EventQueue.epollCtl, heq]
  · simp [EventQueue.erase, EventQueue.epollCtl, heq, h fd']

/-- A call that returns has changed both stores to the same effect. -/
theorem apply_of_ok (h : q.Installed) {call : Call F} (hok : (call.apply q).1 = .ok ()) :
    (call.apply q).2.Installed := by
  cases call with
  | add fd reg answer =>
      cases hfd : q.fds fd with
      | some callbacks => simp [Call.apply, add_of_present reg answer, hfd] at hok
      | none =>
          rw [Call.apply, add_of_absent reg answer hfd] at hok ⊢
          exact h.install (by decide) hok
  | mod fd reg answer =>
      cases reg with
      | none => cases hok
      | some reg =>
          cases hfd : q.fds fd with
          | none => simp [Call.apply, mod_of_absent answer reg hfd] at hok
          | some callbacks =>
              rw [Call.apply, mod_of_present answer reg hfd] at hok ⊢
              exact h.install (by decide) hok
  | del fd answer =>
      cases hfd : q.fds fd with
      | none => simp [Call.apply, del_of_absent answer hfd] at hok
      | some callbacks =>
          cases answer with
          | some errno =>
              obtain ⟨exc, hexc⟩ := EventQueue.del_of_fails errno hfd
              simp [Call.apply, hexc] at hok
          | none =>
              rw [Call.apply, EventQueue.del_of_succeeds hfd]
              exact h.erase fd 0

theorem apply (h : q.Installed) {call : Call F} (hcall : call.Succeeds) :
    (call.apply q).2.Installed := by
  rcases hcall.rejected_or_ok q with hrejected | hok
  · obtain ⟨exc, hexc⟩ := hrejected.apply_eq
    rw [hexc]
    exact h
  · exact h.apply_of_ok hok

end EventQueue.Installed

theorem created_installed (epfd evtfd : Cmn.Fd) (wake : F) :
    (EventQueue.created epfd evtfd wake).Installed := by
  intro fd
  by_cases heq : fd = evtfd.fd <;> simp [EventQueue.created, heq]

theorem registrations_installed {q q' : EventQueue F} {calls : List (Call F)} (h : q.Installed)
    (hcalls : ∀ call ∈ calls, call.Succeeds) (hrun : (registrations F).run q calls = some q') :
    q'.Installed := by
  have halong := (Transition.System.along_iff_forall_mem hrun).mpr hcalls
  refine halong.invariant ?_ hrun h
  intro q call m hstep hcall h
  obtain rfl : (call.apply q).2 = m := Option.some.inj hstep
  exact h.apply hcall

/-- **The two stores stay in step.** After any calls of `add`, `mod` and `del` on a constructed
queue, the setters of `epl::Fd` among them, the interest list has the keys of the map and the masks
of its callbacks, and a call that is rejected before `epoll_ctl` changes neither. -/
theorem interestList_inStep {epfd evtfd : Int} {errno : Errno} {wake : F} {q₀ q : EventQueue F}
    {calls : List (Call F)} (hcreate : EventQueue.create epfd evtfd errno wake none = .ok q₀)
    (hcalls : ∀ call ∈ calls, call.Succeeds)
    (hrun : (registrations F).run q₀ calls = some q) :
    q.InStep ∧ ∀ call : Call F, call.RejectedBy q → ∃ exc, call.apply q = (.error exc, q) := by
  obtain ⟨-, -, -, rfl⟩ := create_eq_ok.mp hcreate
  have hinstalled := registrations_installed (created_installed _ _ wake) hcalls hrun
  exact ⟨hinstalled.inStep, fun call hrejected => hrejected.apply_eq⟩

theorem interestList_inStep_setter :
    ∃ q : EventQueue Nat,
      (registrations Nat).run (EventQueue.created ⟨3⟩ ⟨4⟩ 0)
        [.add 7 none none, Fd.onOutputPossible 7 (some 1) none] = some q ∧ q.InStep := by
  have hcreate : EventQueue.create 3 4 0 0 none = .ok (EventQueue.created ⟨3⟩ ⟨4⟩ 0) :=
    create_eq_ok.mpr ⟨by decide, by decide, rfl, rfl⟩
  obtain ⟨q, hrun⟩ : ∃ q : EventQueue Nat,
      (registrations Nat).run (EventQueue.created ⟨3⟩ ⟨4⟩ 0)
        [.add 7 none none, Fd.onOutputPossible 7 (some 1) none] = some q := ⟨_, rfl⟩
  refine ⟨q, hrun, (interestList_inStep hcreate ?_ hrun).1⟩
  intro call hcall
  simp only [List.mem_cons, List.not_mem_nil, or_false] at hcall
  rcases hcall with rfl | rfl
  · exact ⟨fun r hr => absurd hr (by simp), rfl⟩
  · exact Fd.setCallback_succeeds 7 .output (some 1)

end Suc.Epl
