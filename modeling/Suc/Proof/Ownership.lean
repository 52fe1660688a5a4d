import Suc.Epl.Fd

/-!
# Registrations and their owners

Every entry of the map beside that of the event descriptor should belong to an object that lives.
A constructor whose `epoll_ctl` fails leaves the entry behind that `add` has made before it: there
is no object then whose destructor would delete it, and once the kernel gives the number out again,
no object can be constructed on it.
-/

namespace Suc.Epl

variable {F ω : Type}

/-! ### Constructors, setters and destructors -/

theorem Fd.construct_of_present {q : EventQueue F} {fd : Int} (answer : Option Errno)
    (hfd : (q.fds fd).isSome) :
    Fd.construct q ⟨fd⟩ answer =
      (.error (.runtimeError "file descriptor already added"), q, .unwinding ⟨fd⟩) := by
  simp [Fd.construct, Cmn.Fd.moveConstruct, add_of_present none answer hfd]

theorem Fd.construct_of_absent {q : EventQueue F} {fd : Int} (answer : Option Errno)
    (hfd : q.fds fd = none) :
    Fd.construct q ⟨fd⟩ answer =
      match answer with
      | none => (.ok (), (q.add fd none none).2, .live ⟨fd⟩)
      | some errno =>
          (.error (.errnoError "epoll_ctl add failed" errno), (q.add fd none (some errno)).2,
            .unwinding ⟨fd⟩) := by
  have hresult := add_result_of_absent answer hfd
  simp only [Fd.construct, Cmn.Fd.moveConstruct]
  cases answer with
  | none =>
      rw [show q.add fd none none = ((q.add fd none none).1, (q.add fd none none).2) from rfl,
        hresult]
  | some errno =>
      rw [show q.add fd none (some errno) =
        ((q.add fd none (some errno)).1, (q.add fd none (some errno)).2) from rfl, hresult]

theorem add_isKey {q : EventQueue F} {fd : Int} (reg : Option (Reg F)) (answer : Option Errno)
    (hfd : q.fds fd = none) (n : Int) :
    ((q.add fd reg answer).2.fds n).isSome ↔ n = fd ∨ (q.fds n).isSome := by
  rw [add_fds_of_absent reg answer hfd]
  by_cases heq : n = fd <;> simp [heq]

theorem setCallback_isKey (q : EventQueue F) (fd : Int) (member : EventType) (cb : Option F)
    (answer : Option Errno) (n : Int) :
    (((Fd.setCallback fd member cb answer).apply q).2.fds n).isSome ↔ (q.fds n).isSome := by
  simp only [Fd.setCallback, Call.apply]
  cases hfd : q.fds fd with
  | none => rw [mod_of_absent answer _ hfd]
  | some callbacks =>
      rw [mod_fds_of_present _ answer hfd]
      by_cases heq : n = fd <;> simp [heq, hfd]

theorem delSafe_isKey (q : EventQueue F) (fd : Int) (answer : Option Errno) (n : Int) :
    ((q.delSafe fd answer).fds n).isSome ↔ n ≠ fd ∧ (q.fds n).isSome := by
  rw [EventQueue.delSafe, del_fds]
  by_cases heq : n = fd <;> simp [heq]

/-! ### Steps -/

def FdObject.fd : FdObject → Int
  | .live m_fd | .unwinding m_fd => m_fd.fd

inductive FdMove [DecidableEq ω] (p : Process F ω) : FdLabel F ω → Process F ω → Prop where
  | constructed (id : ω) (fd : Int) (q : EventQueue F) (hclosed : p.opened fd = false)
      (hid : p.objects id = none) (habsent : p.queue.fds fd = none)
      (hq : ∀ n, (q.fds n).isSome ↔ n = fd ∨ (p.queue.fds n).isSome) :
      FdMove p (.construct id fd none)
        ⟨q, Function.update p.opened fd true, Function.update p.objects id (some (.live ⟨fd⟩))⟩
  | addFailed (id : ω) (fd : Int) (errno : Errno) (q : EventQueue F)
      (hclosed : p.opened fd = false) (hid : p.objects id = none)
      (habsent : p.queue.fds fd = none)
      (hq : ∀ n, (q.fds n).isSome ↔ n = fd ∨ (p.queue.fds n).isSome) :
      FdMove p (.construct id fd (some errno))
        ⟨q, Function.update p.opened fd true,
          Function.update p.objects id (some (.unwinding ⟨fd⟩))⟩
  | alreadyAdded (id : ω) (fd : Int) (answer : Option Errno) (hclosed : p.opened fd = false)
      (hpresent : (p.queue.fds fd).isSome) :
      FdMove p (.construct id fd answer)
        ⟨p.queue, Function.update p.opened fd true,
          Function.update p.objects id (some (.unwinding ⟨fd⟩))⟩
  | set (id : ω) (member : EventType) (cb : Option F) (answer : Option Errno) (q : EventQueue F)
      (hq : ∀ n, (q.fds n).isSome ↔ (p.queue.fds n).isSome) :
      FdMove p (.set id member cb answer) ⟨q, p.opened, p.objects⟩
  | destroyed (id : ω) (answer : Option Errno) (m_fd : Cmn.Fd) (q : EventQueue F)
      (hid : p.objects id = some (.live m_fd))
      (hq : ∀ n, (q.fds n).isSome ↔ n ≠ m_fd.fd ∧ (p.queue.fds n).isSome) :
      FdMove p (.destroy id answer)
        ⟨q, p.opened, Function.update p.objects id (some (.unwinding m_fd))⟩
  | closed (id : ω) (m_fd : Cmn.Fd) (q : EventQueue F) (opened : Int → Bool)
      (hid : p.objects id = some (.unwinding m_fd)) (hq : q.fds = p.queue.fds)
      (hopened : ∀ n, n ≠ m_fd.fd → opened n = p.opened n) :
      FdMove p (.close id) ⟨q, opened, Function.update p.objects id none⟩

theorem Process.close_queue_fds (p : Process F ω) (fd : Cmn.Fd) :
    (p.close fd).queue.fds = p.queue.fds := by
  unfold Process.close
  split <;> rfl

theorem Process.close_opened_of_ne (p : Process F ω) (fd : Cmn.Fd) {n : Int} (hne : n ≠ fd.fd) :
    (p.close fd).opened n = p.opened n := by
  unfold Process.close Cmn.Fd.closes
  by_cases hfd : 0 ≤ fd.fd <;> simp [hfd, hne]

theorem fdMove_of_step [DecidableEq ω] {p p' : Process F ω} {l : FdLabel F ω}
    (h : (fdObjects F ω).step p l = some p') : FdMove p l p' := by
  cases l with
  | construct id fd answer =>
      simp only [fdObjects, Process.step, Option.ite_none_right_eq_some] at h
      obtain ⟨⟨-, hclosed, hid⟩, h⟩ := h
      cases hfd : p.queue.fds fd with
      | some callbacks =>
          have hpresent : (p.queue.fds fd).isSome := by simp [hfd]
          rw [Fd.construct_of_present answer hpresent] at h
          cases h
          exact .alreadyAdded id fd answer hclosed hpresent
      | none =>
          rw [Fd.construct_of_absent answer hfd] at h
          cases answer with
          | none =>
              cases h
              exact .constructed id fd _ hclosed hid hfd (add_isKey none none hfd)
          | some errno =>
              cases h
              exact .addFailed id fd errno _ hclosed hid hfd (add_isKey none (some errno) hfd)
  | set id member cb answer =>
      simp only [fdObjects, Process.step] at h
      split at h
      · cases h
        exact .set id member cb answer _ (setCallback_isKey p.queue _ member cb answer)
      · cases h
  | destroy id answer =>
      simp only [fdObjects, Process.step, Fd.destruct] at h
      split at h
      · rename_i m_fd hid
        cases h
        exact .destroyed id answer m_fd _ hid (delSafe_isKey p.queue m_fd.fd answer)
      · cases h
  | close id =>
      simp only [fdObjects, Process.step] at h
      split at h
      · rename_i m_fd hid
        cases h
        exact .closed id m_fd _ _ hid (p.close_queue_fds m_fd)
          fun n hne => p.close_opened_of_ne m_fd hne
      · cases h

/-! ### Owned registrations -/

/-- The keys but for the event descriptor are the numbers that live objects own. -/
def Process.KeysOwned (evtfd : Int) (p : Process F ω) : Prop :=
  ∀ n, n ≠ evtfd → ((p.queue.fds n).isSome ↔ ∃ id, p.objects id = some (.live ⟨n⟩))

/-- Beside that: the objects own distinct open descriptors, none of them that of the queue. -/
structure Process.Owned (evtfd : Int) (p : Process F ω) : Prop where
  keys : p.KeysOwned evtfd
  evtfd_opened : p.opened evtfd = true
  owns : ∀ id object, p.objects id = some object →
    p.opened object.fd = true ∧ object.fd ≠ evtfd
  distinct : ∀ id id' object object', p.objects id = some object → p.objects id' = some object' →
    object.fd = object'.fd → id = id'

def Process.LeftBehind (evtfd : Int) (p : Process F ω) : Prop :=
  ∃ n, n ≠ evtfd ∧ (p.queue.fds n).isSome ∧ ∀ id, p.objects id ≠ some (.live ⟨n⟩)

theorem Process.LeftBehind.not_keysOwned {evtfd : Int} {p : Process F ω}
    (h : p.LeftBehind evtfd) : ¬p.KeysOwned evtfd := by
  obtain ⟨n, hne, hkey, hnone⟩ := h
  intro hkeys
  obtain ⟨id, hid⟩ := (hkeys n hne).mp hkey
  exact hnone id hid

theorem Process.Owned.of_not_opened {evtfd : Int} {p : Process F ω} (h : p.Owned evtfd) {fd : Int}
    (hclosed : p.opened fd = false) :
    fd ≠ evtfd ∧ p.queue.fds fd = none ∧ ∀ id object, p.objects id = some object →
      object.fd ≠ fd := by
  have hne : fd ≠ evtfd := by
    rintro rfl
    simp [h.evtfd_opened] at hclosed
  have hunowned : ∀ id object, p.objects id = some object → object.fd ≠ fd := by
    rintro id object hid rfl
    simp [(h.owns id object hid).1] at hclosed
  refine ⟨hne, ?_, hunowned⟩
  by_contra hkey
  obtain ⟨id, hid⟩ := (h.keys fd hne).mp (Option.isSome_iff_ne_none.mpr hkey)
  exact hunowned id _ hid rfl

theorem Process.Owned.of_unwinding {evtfd : Int} {p : Process F ω} (h : p.Owned evtfd) {id : ω}
    {m_fd : Cmn.Fd} (hid : p.objects id = some (.unwinding m_fd)) :
    p.queue.fds m_fd.fd = none := by
  by_contra hkey
  obtain ⟨id', hid'⟩ :=
    (h.keys m_fd.fd (h.owns id _ hid).2).mp (Option.isSome_iff_ne_none.mpr hkey)
  obtain rfl := h.distinct id id' _ _ hid hid' rfl
  simp [hid] at hid'

theorem Process.Owned.distinct_of_back {evtfd : Int} {p : Process F ω} (h : p.Owned evtfd)
    {objects : ω → Option FdObject}
    (hback : ∀ id object, objects id = some object →
      ∃ old, p.objects id = some old ∧ old.fd = object.fd)
    (id id' : ω) (object object' : FdObject) (hid : objects id = some object)
    (hid' : objects id' = some object') (hfd : object.fd = object'.fd) : id = id' := by
  obtain ⟨old, hold, hsame⟩ := hback id object hid
  obtain ⟨old', hold', hsame'⟩ := hback id' object' hid'
  exact h.distinct id id' old old' hold hold' (hsame.trans (hfd.trans hsame'.symm))

def FdLabel.Added : FdLabel F ω → Prop
  | .construct _ _ answer => answer = none
  | _ => True

/-- The step closes no key, and no constructor finds the number of its new descriptor taken. -/
def Process.Clean (p : Process F ω) : FdLabel F ω → Prop
  | .close id => ∀ m_fd, p.objects id = some (.unwinding m_fd) → p.queue.fds m_fd.fd = none
  | .construct _ fd answer =>
      (Fd.construct p.queue ⟨fd⟩ answer).1 ≠ .error (.runtimeError "file descriptor already added")
  | _ => True

theorem Process.owned_start (epfd evtfd : Cmn.Fd) (wake : F) (others : Int → Bool) :
    (Process.start epfd evtfd wake others : Process F ω).Owned evtfd.fd where
  keys n hne := by simp [Process.start, EventQueue.created, hne]
  evtfd_opened := by simp [Process.start]
  owns id object hid := by cases hid
  distinct id id' object object' hid := by cases hid

section Runs

variable [DecidableEq ω]

/-- Who is who after an object has taken a place. -/
theorem objects_update_eq_some {objects : ω → Option FdObject} {id id' : ω}
    {object object' : FdObject} :
    Function.update objects id (some object) id' = some object' ↔
      (id' = id ∧ object = object') ∨ (id' ≠ id ∧ objects id' = some object') := by
  by_cases heq : id' = id <;> simp [heq]

theorem Process.Owned.construct {evtfd : Int} {p : Process F ω} (hp : p.Owned evtfd) {id : ω}
    {fd : Int} {q : EventQueue F} (hclosed : p.opened fd = false) (hid : p.objects id = none)
    (hq : ∀ n, (q.fds n).isSome ↔ n = fd ∨ (p.queue.fds n).isSome) :
    Process.Owned evtfd ⟨q, Function.update p.opened fd true,
      Function.update p.objects id (some (.live ⟨fd⟩))⟩ := by
  obtain ⟨hne, -, hunowned⟩ := hp.of_not_opened hclosed
  constructor
  · intro n hn
    simp only [hq n, hp.keys n hn, objects_update_eq_some]
    constructor
    · rintro (rfl | ⟨id', hid'⟩)
      · exact ⟨id, Or.inl ⟨rfl, rfl⟩⟩
      · refine ⟨id', Or.inr ⟨?_, hid'⟩⟩
        rintro rfl
        simp [hid] at hid'
    · rintro ⟨id', ⟨-, hlive⟩ | ⟨-, hid'⟩⟩
      · exact Or.inl (by simpa using hlive.symm)
      · exact Or.inr ⟨id', hid'⟩
  · simp [hne.symm, hp.evtfd_opened]
  · intro id' object hid'
    rcases objects_update_eq_some.mp hid' with ⟨-, rfl⟩ | ⟨-, hold⟩
    · exact ⟨by simp [FdObject.fd], hne⟩
    · obtain ⟨hopened, hother⟩ := hp.owns id' object hold
      exact ⟨by simp [hunowned id' object hold, hopened], hother⟩
  · intro id₁ id₂ object₁ object₂ h₁ h₂ hfd
    rcases objects_update_eq_some.mp h₁ with ⟨rfl, rfl⟩ | ⟨-, hold₁⟩
    · rcases objects_update_eq_some.mp h₂ with ⟨rfl, -⟩ | ⟨-, hold₂⟩
      · rfl
      · exact absurd hfd.symm (hunowned id₂ object₂ hold₂)
    · rcases objects_update_eq_some.mp h₂ with ⟨rfl, rfl⟩ | ⟨-, hold₂⟩
      · exact absurd hfd (hunowned id₁ object₁ hold₁)
      · exact hp.distinct id₁ id₂ object₁ object₂ hold₁ hold₂ hfd

theorem Process.Owned.destroy {evtfd : Int} {p : Process F ω} (hp : p.Owned evtfd) {id : ω}
    {m_fd : Cmn.Fd} {q : EventQueue F} (hid : p.objects id = some (.live m_fd))
    (hq : ∀ n, (q.fds n).isSome ↔ n ≠ m_fd.fd ∧ (p.queue.fds n).isSome) :
    Process.Owned evtfd
      ⟨q, p.opened, Function.update p.objects id (some (.unwinding m_fd))⟩ := by
  have hback : ∀ id' object, Function.update p.objects id (some (.unwinding m_fd)) id' =
      some object → ∃ old, p.objects id' = some old ∧ old.fd = object.fd := by
    intro id' object hid'
    rcases objects_update_eq_some.mp hid' with ⟨rfl, rfl⟩ | ⟨-, hold⟩
    · exact ⟨_, hid, rfl⟩
    · exact ⟨object, hold, rfl⟩
  refine ⟨?_, hp.evtfd_opened, ?_, hp.distinct_of_back hback⟩
  · intro n hn
    simp only [hq n, hp.keys n hn, objects_update_eq_some]
    constructor
    · rintro ⟨hne, id', hid'⟩
      refine ⟨id', Or.inr ⟨?_, hid'⟩⟩
      rintro rfl
      obtain rfl : m_fd = ⟨n⟩ := by simpa [hid] using hid'
      exact hne rfl
    · rintro ⟨id', ⟨-, hunwinding⟩ | ⟨hother, hid'⟩⟩
      · cases hunwinding
      · refine ⟨?_, id', hid'⟩
        rintro rfl
        exact hother (hp.distinct id' id _ _ hid' hid rfl)
  · intro id' object hid'
    obtain ⟨old, hold, hfd⟩ := hback id' object hid'
    rw [← hfd]
    exact hp.owns id' old hold

theorem Process.Owned.closed {evtfd : Int} {p : Process F ω} (hp : p.Owned evtfd) {id : ω}
    {m_fd : Cmn.Fd} {q : EventQueue F} {opened : Int → Bool}
    (hid : p.objects id = some (.unwinding m_fd)) (hq : q.fds = p.queue.fds)
    (hopened : ∀ n, n ≠ m_fd.fd → opened n = p.opened n) :
    Process.Owned evtfd ⟨q, opened, Function.update p.objects id none⟩ := by
  have hback : ∀ id' object, Function.update p.objects id none id' = some object →
      id' ≠ id ∧ p.objects id' = some object := by
    intro id' object hid'
    simpa [Function.update_apply, ite_eq_iff] using hid'
  refine ⟨?_, ?_, ?_, hp.distinct_of_back fun id' object hid' =>
    ⟨object, (hback id' object hid').2, rfl⟩⟩
  · intro n hn
    simp only [hq, hp.keys n hn]
    constructor
    · rintro ⟨id', hid'⟩
      refine ⟨id', ?_⟩
      have hother : id' ≠ id := by
        rintro rfl
        simp [hid] at hid'
      rwa [Function.update_of_ne hother]
    · rintro ⟨id', hid'⟩
      exact ⟨id', (hback id' _ hid').2⟩
  · exact (hopened evtfd (hp.owns id _ hid).2.symm).trans hp.evtfd_opened
  · intro id' object hid'
    obtain ⟨hother, hold⟩ := hback id' object hid'
    have hne : object.fd ≠ m_fd.fd := fun hfd => hother (hp.distinct id' id _ _ hold hid hfd)
    obtain ⟨hopen, hevtfd⟩ := hp.owns id' object hold
    exact ⟨(hopened object.fd hne).trans hopen, hevtfd⟩

theorem FdMove.owned {evtfd : Int} {p p' : Process F ω} {l : FdLabel F ω} (h : FdMove p l p')
    (hp : p.Owned evtfd) (hadded : l.Added) : p'.Owned evtfd := by
  cases h with
  | constructed id fd q hclosed hid habsent hq => exact hp.construct hclosed hid hq
  | addFailed => cases hadded
  | alreadyAdded id fd answer hclosed hpresent =>
      simp [(hp.of_not_opened hclosed).2.1] at hpresent
  | set id member cb answer q hq =>
      refine ⟨?_, hp.evtfd_opened, hp.owns, hp.distinct⟩
      intro n hne
      rw [hq n]
      exact hp.keys n hne
  | destroyed id answer m_fd q hid hq => exact hp.destroy hid hq
  | closed id m_fd q opened hid hq hopened => exact hp.closed hid hq hopened

theorem FdMove.leftBehind_of_not_added {evtfd : Int} {p p' : Process F ω} {l : FdLabel F ω}
    (h : FdMove p l p') (hp : p.Owned evtfd) (hadded : ¬l.Added) : p'.LeftBehind evtfd := by
  cases h with
  | constructed => exact absurd rfl hadded
  | addFailed id fd errno q hclosed hid habsent hq =>
      obtain ⟨hne, -, hunowned⟩ := hp.of_not_opened hclosed
      refine ⟨fd, hne, (hq fd).mpr (Or.inl rfl), ?_⟩
      intro id' hid'
      rcases objects_update_eq_some.mp hid' with ⟨-, hunwinding⟩ | ⟨-, hold⟩
      · cases hunwinding
      · exact hunowned id' _ hold rfl
  | alreadyAdded id fd answer hclosed hpresent =>
      simp [(hp.of_not_opened hclosed).2.1] at hpresent
  | _ => exact absurd trivial hadded

/-- What is left behind stays: no object lives whose destructor would delete it, and none can be
constructed on its number. -/
theorem FdMove.leftBehind {evtfd : Int} {p p' : Process F ω} {l : FdLabel F ω} (h : FdMove p l p')
    (hp : p.LeftBehind evtfd) : p'.LeftBehind evtfd := by
  obtain ⟨n, hne, hkey, hnone⟩ := hp
  refine ⟨n, hne, ?_⟩
  have hunwinding : ∀ id m_fd id',
      Function.update p.objects id (some (.unwinding m_fd)) id' ≠ some (.live ⟨n⟩) := by
    intro id m_fd id' hid'
    rcases objects_update_eq_some.mp hid' with ⟨-, hlive⟩ | ⟨-, hold⟩
    · cases hlive
    · exact hnone id' hold
  cases h with
  | constructed id fd q hclosed hid habsent hq =>
      refine ⟨(hq n).mpr (Or.inr hkey), ?_⟩
      intro id' hid'
      rcases objects_update_eq_some.mp hid' with ⟨-, hlive⟩ | ⟨-, hold⟩
      · obtain rfl : fd = n := by simpa using hlive
        simp [habsent] at hkey
      · exact hnone id' hold
  | addFailed id fd errno q hclosed hid habsent hq =>
      exact ⟨(hq n).mpr (Or.inr hkey), hunwinding id ⟨fd⟩⟩
  | alreadyAdded id fd answer hclosed hpresent => exact ⟨hkey, hunwinding id ⟨fd⟩⟩
  | set id member cb answer q hq => exact ⟨(hq n).mpr hkey, hnone⟩
  | destroyed id answer m_fd q hid hq =>
      have hother : n ≠ m_fd.fd := by
        rintro rfl
        exact hnone id hid
      exact ⟨(hq n).mpr ⟨hother, hkey⟩, hunwinding id m_fd⟩
  | closed id m_fd q opened hid hq hopened =>
      refine ⟨by simpa [hq] using hkey, ?_⟩
      intro id' hid'
      simp [Function.update_apply, ite_eq_iff, hnone id'] at hid'

theorem Process.Owned.clean {evtfd : Int} {p p' : Process F ω} {l : FdLabel F ω}
    (hstep : (fdObjects F ω).step p l = some p') (hp : p.Owned evtfd) : p.Clean l := by
  cases l with
  | construct id fd answer =>
      simp only [fdObjects, Process.step, Option.ite_none_right_eq_some] at hstep
      have habsent := (hp.of_not_opened hstep.1.2.1).2.1
      rw [Process.Clean, Fd.construct_of_absent answer habsent]
      cases answer <;> simp
  | close id => exact fun m_fd hid => hp.of_unwinding hid
  | _ => trivial

/-- **Registrations and their owners.** After any run of constructors, setters and destructors, the
keys of the map are the numbers that live objects own if and only if no constructor's `epoll_ctl`
has failed; and as long as none does, no descriptor is closed that is a key and no constructor finds
its descriptor already added. -/
theorem keysOwned_iff_added {epfd evtfd : Cmn.Fd} {wake : F} {others : Int → Bool}
    {ls : List (FdLabel F ω)} {p : Process F ω}
    (hrun : (fdObjects F ω).run (Process.start epfd evtfd wake others) ls = some p) :
    (p.KeysOwned evtfd.fd ↔ ∀ l ∈ ls, l.Added) ∧
      ((∀ l ∈ ls, l.Added) →
        (fdObjects F ω).Along Process.Clean (Process.start epfd evtfd wake others) ls) := by
  have hstart : (Process.start epfd evtfd wake others : Process F ω).Owned evtfd.fd :=
    Process.owned_start epfd evtfd wake others
  rw [← Transition.System.along_iff_forall_mem hrun]
  constructor
  · rcases Transition.System.run_good_or_bad (C := fun _ => FdLabel.Added)
      (fun _ _ _ hstep hp hC => (fdMove_of_step hstep).owned hp hC)
      (fun _ _ _ hstep hp hC => (fdMove_of_step hstep).leftBehind_of_not_added hp hC)
      (fun _ _ _ hstep hp => (fdMove_of_step hstep).leftBehind hp) hrun hstart with
      ⟨halong, hp⟩ | ⟨halong, hp⟩
    · exact iff_of_true hp.keys halong
    · exact iff_of_false hp.not_keysOwned halong
  · intro halong
    exact halong.of_invariant (fun _ _ _ hstep hC hp => (fdMove_of_step hstep).owned hp hC)
      (fun _ _ _ hstep _ hp => hp.clean hstep) hrun hstart

theorem keysOwned_iff_added_again :
    let labels : List (FdLabel Nat Nat) :=
      [.construct 0 5 none, .set 0 .input (some 1) none, .destroy 0 (some ebadf), .close 0,
        .construct 1 5 none]
    ∃ p, (fdObjects Nat Nat).run (Process.start ⟨3⟩ ⟨4⟩ 0 fun _ => false) labels = some p ∧
      p.objects 1 = some (.live ⟨5⟩) ∧ p.KeysOwned 4 := by
  intro labels
  have hadded : ∀ l ∈ labels, l.Added := by simp [labels, FdLabel.Added]
  exact ⟨_, rfl, rfl,
    (@keysOwned_iff_added Nat Nat _ ⟨3⟩ ⟨4⟩ 0 (fun _ => false) labels _ rfl).1.mpr hadded⟩

/-- The `epoll_ctl` of a constructor fails: its number stays a key when the descriptor is closed,
and the next object on that number cannot be constructed. -/
theorem not_keysOwned_of_failed :
    let labels : List (FdLabel Nat Nat) := [.construct 0 5 (some 12)]
    ∃ p p', (fdObjects Nat Nat).run (Process.start ⟨3⟩ ⟨4⟩ 0 fun _ => false) labels = some p ∧
      ¬p.Clean (.close 0) ∧ (fdObjects Nat Nat).step p (.close 0) = some p' ∧
      ¬p'.KeysOwned 4 ∧ p'.opened 5 = false ∧
      (Fd.construct p'.queue ⟨5⟩ none).1 =
        .error (.runtimeError "file descriptor already added") := by
  intro labels
  refine ⟨_, _, rfl, ?_, rfl, ?_, rfl, rfl⟩
  · intro hclean
    have hkey := hclean ⟨5⟩ rfl
    cases hkey
  · refine Process.LeftBehind.not_keysOwned ⟨5, by decide, rfl, ?_⟩
    intro id hid
    cases id <;> cases hid

end Runs

end Suc.Epl
