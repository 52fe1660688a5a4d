import Suc.Epl.Construct
import Suc.Proof.Ownership
import Suc.Proof.Sources
import Suc.Proof.TimerFd

/-!
# A source is constructed or it is not there

What a constructor leaves behind, by what is answered to its calls. The kernel gives a
number that is not open, which is therefore not in the interest list; but it may be a key of the
map, since a failed registration leaves one.
-/

namespace Suc.Epl

variable {κ δ π α ο H G ι ε : Type}

namespace Sources

/-- A number that the kernel may give to a new descriptor. -/
structure Free (s : Sources κ δ π H G ι ε) (fd : Int) : Prop where
  opened : s.opened fd = false
  interest : s.loop.queue.interest fd = none

/-- Nothing has happened but that a key without callbacks is in the map. -/
def keyed (s : Sources κ δ π H G ι ε) (fd : Int) : Sources κ δ π H G ι ε :=
  s.setQueue { s.loop.queue with fds := Function.update s.loop.queue.fds fd (some {}) }

theorem Free.update_interest {s : Sources κ δ π H G ι ε} {fd : Int} (h : s.Free fd) :
    Function.update s.loop.queue.interest fd none = s.loop.queue.interest := by
  rw [← h.interest, Function.update_eq_self]

/-- The constructor gets a descriptor, and its number is not a key. -/
def Makes (s : Sources κ δ π H G ι ε) (answers : ConstructAnswers) : Prop :=
  0 ≤ answers.fd ∧ s.loop.queue.fds answers.fd = none

/-- The callbacks of a source: its lambda around `func`, or none. -/
def callbacks (k : κ) (func : Option H) : Callbacks (Callable (κ × H) G) :=
  { inputAvailable := func.map fun func => .shot (k, func) }

variable [DecidableEq κ]

/-- A source whose callback is the lambda around `func`, while the interest list asks for the
events of one around `listed`. -/
def registered (s : Sources κ δ π H G ι ε) (k : κ) (fd : Int) (func listed : Option H)
    (state : δ) : Sources κ δ π H G ι ε :=
  let events := (callbacks k listed : Callbacks (Callable (κ × H) G)).mask
  { s.setQueue { s.loop.queue with
      fds := Function.update s.loop.queue.fds fd (some (callbacks k func))
      interest := Function.update s.loop.queue.interest fd (some events) } with
    opened := Function.update s.opened fd true
    source := Function.update s.source k (.alive fd state) }

/-- Nothing has happened but that the name is used up. -/
def unwound (s : Sources κ δ π H G ι ε) (k : κ) (state : δ) : Sources κ δ π H G ι ε :=
  { s with source := Function.update s.source k (.dead state) }

theorem userTurn_registered (service : Service δ π α ο H) (s : Sources κ δ π H G ι ε) (k : κ)
    (fd : Int) (func listed : Option H) (state : δ) (who : Option ε) :
    (s.registered k fd func listed state).userTurn service who = s.userTurn service who := by
  cases who <;> rfl

end Sources

open Transition Sources

section

variable [DecidableEq κ] {s : Sources κ δ π H G ι ε} {k : κ} {answers : ConstructAnswers}

/-! ### Construction and destruction -/

theorem destruct_registered (h : s.Free answers.fd) (hm : s.Makes answers)
    (func listed : Option H) (state state' : δ) (answer : Option Errno) :
    (s.registered k answers.fd func listed state).destruct k answers.fd state' answer =
      s.unwound k state' := by
  have hfds : Function.update s.loop.queue.fds answers.fd none = s.loop.queue.fds := by
    rw [← hm.2, Function.update_eq_self]
  have hopened : Function.update s.opened answers.fd false = s.opened := by
    rw [← h.opened, Function.update_eq_self]
  cases answer <;>
    simp [Sources.destruct, registered, unwound, setQueue, closed, Fd.destruct, EventQueue.delSafe,
      EventQueue.del, EventQueue.erase, EventQueue.epollCtl, hfds, h.update_interest, hopened]

theorem Service.construct_of_not_makes (service : Service δ π α ο H) (what : String)
    (h : s.Free answers.fd) (hm : ¬s.Makes answers) :
    ∃ exc, service.construct what s k answers = (.error exc, s) := by
  by_cases hfd : 0 ≤ answers.fd
  · have hkey : (s.loop.queue.fds answers.fd).isSome :=
      Option.ne_none_iff_isSome.mp fun hnone => hm ⟨hfd, hnone⟩
    refine ⟨.runtimeError "file descriptor already added", ?_⟩
    rw [Service.construct, Cmn.Fd.make_of_nonneg hfd]
    simp only [Fd.construct_of_present _ hkey]
    rw [closed, h.update_interest]
    rfl
  · exact ⟨_, by rw [Service.construct, Cmn.Fd.make, if_pos (Int.not_le.mp hfd)]; rfl⟩

theorem Service.construct_of_add_failed (service : Service δ π α ο H) (what : String)
    (h : s.Free answers.fd) (hm : s.Makes answers) (hadd : answers.add ≠ none) :
    ∃ exc, service.construct what s k answers = (.error exc, s.keyed answers.fd) := by
  obtain ⟨errno, hadd⟩ := Option.ne_none_iff_exists'.mp hadd
  refine ⟨.errnoError "epoll_ctl add failed" errno, ?_⟩
  rw [Service.construct, Cmn.Fd.make_of_nonneg hm.1]
  simp only [Fd.construct_of_absent _ hm.2, hadd]
  rw [add_of_absent none _ hm.2]
  simp [EventQueue.install, newCallbacks, calculateEvents_nil, EventQueue.epollCtl,
    EventQueue.store, keyed, setQueue, closed, h.update_interest]

theorem Service.construct_of_add (service : Service δ π α ο H) (what : String)
    (hm : s.Makes answers) (hadd : answers.add = none) :
    service.construct what s k answers =
      (.ok (), s.registered k answers.fd none none service.created) := by
  rw [Service.construct, Cmn.Fd.make_of_nonneg hm.1]
  simp only [Fd.construct_of_absent _ hm.2, hadd]
  rw [add_of_absent none none hm.2]
  simp [EventQueue.install, newCallbacks, calculateEvents_nil, EventQueue.epollCtl,
    EventQueue.store, registered, setQueue, callbacks]

section

variable [DecidableEq ι] [DecidableEq ε]

theorem step_construct (service : Service δ π α ο H) (what : String) {who : Option ε}
    (hk : s.source k = .unborn) (hturn : s.userTurn service who) (h : s.Free answers.fd)
    (hfd : 0 ≤ answers.fd) :
    s.step service (.construct who k answers.fd answers.add) =
      some (service.construct what s k answers).2 := by
  rw [Service.construct, Cmn.Fd.make_of_nonneg hfd]
  simp only [Sources.step, hk, hturn, hfd, h.opened, and_self, if_true]
  cases heq : Fd.construct s.loop.queue ⟨answers.fd⟩ answers.add with
  | mk result rest => cases result <;> rfl

theorem step_destroy (service : Service δ π α ο H) {who : Option ε} (k : κ) (fd : Int)
    (hturn : s.userTurn service who) (func listed : Option H) (state : δ) (answer : Option Errno) :
    (s.registered k fd func listed state).step service (.destroy who k answer) =
      some ((s.registered k fd func listed state).destruct k fd state answer) := by
  have hturn := (userTurn_registered service s k fd func listed state who).trans hturn
  have hk : (s.registered k fd func listed state).source k = .alive fd state := by
    simp [registered]
  simp only [Sources.step, hk, hturn, if_true]
  rfl

/-- **A constructor that throws leaves at most a key.** Whatever the kernel answers and wherever
user code constructs a source, what happens is a run of sources and event queue. The constructor
returns exactly if it gets a descriptor whose number is not a key and the registration succeeds,
and then the object is there, without a callback. If it throws, descriptors, interest list and all
objects are as they were, and so is the map unless the registration has failed. -/
theorem Service.constructed_or_refused (service : Service δ π α ο H) (what : String)
    (answers : ConstructAnswers) {who : Option ε} (hk : s.source k = .unborn)
    (hturn : s.userTurn service who) (h : s.Free answers.fd) :
    let r := service.construct what s k answers
    (∃ ls, (sources κ G ι ε service).run s ls = some r.2) ∧
      (r.1 = .ok () ↔ s.Makes answers ∧ answers.add = none) ∧
      (r.1 = .ok () → r.2 = s.registered k answers.fd none none service.created) ∧
      (¬s.Makes answers → r.2 = s) ∧
      (s.Makes answers → answers.add ≠ none → r.2 = s.keyed answers.fd) := by
  intro r
  by_cases hm : s.Makes answers
  · have hrun : (sources κ G ι ε service).run s [.construct who k answers.fd answers.add] =
        some r.2 :=
      (System.run_cons_eq_some _).mpr ⟨_, step_construct service what hk hturn h hm.1, rfl⟩
    refine ⟨⟨_, hrun⟩, ?_⟩
    by_cases hadd : answers.add = none
    · simp [r, service.construct_of_add (k := k) what hm hadd, hm, hadd]
    · obtain ⟨exc, heq⟩ := service.construct_of_add_failed (k := k) what h hm hadd
      simp [r, heq, hm, hadd]
  · obtain ⟨exc, heq⟩ := service.construct_of_not_makes (k := k) what h hm
    refine ⟨⟨[], ?_⟩, ?_⟩
    · rw [show r = _ from heq]
      rfl
    · simp [r, heq, hm]

/-- A second `EventFd` on the number at which the registration of a first has failed. -/
theorem Service.constructed_or_refused_again :
    let s : Sources Nat Nat (CountPos Nat) Nat Nat Unit Unit := .start ⟨3⟩ ⟨4⟩ 0
    let first := EventFd.construct false s 0 ⟨5, 0, some 12, none, none, none⟩
    let second := EventFd.construct false first.2 0 ⟨5, 0, none, none, none, none⟩
    first.1 ≠ .ok () ∧ second.1 ≠ .ok () ∧ first.2.source 0 = .unborn ∧ second.2 = first.2 := by
  intro s first second
  have hturn : s.userTurn (EventFd.service false) (none : Option Unit) := by decide
  obtain ⟨-, hfirst, -⟩ := (EventFd.service false).constructed_or_refused (k := 0) "eventfd"
    ⟨5, 0, some 12, none, none, none⟩ rfl hturn ⟨rfl, rfl⟩
  have hturn' : first.2.userTurn (EventFd.service false) (none : Option Unit) := by decide
  obtain ⟨-, hsecond, -, hsame, -⟩ := (EventFd.service false).constructed_or_refused (k := 0)
    "eventfd" ⟨5, 0, none, none, none, none⟩ rfl hturn' ⟨rfl, rfl⟩
  have hnot : ¬first.2.Makes ⟨5, 0, none, none, none, none⟩ :=
    fun h => Option.some_ne_none _ h.2
  refine ⟨fun h => ?_, fun h => hnot (hsecond.mp h).1, rfl, hsame hnot⟩
  exact absurd (hfirst.mp h).2 (by decide)

end

end

namespace TimerFd

section

variable [DecidableEq κ] {s : Sources κ Timer (CountPos H) H G ι ε} {k : κ}
  {answers : ConstructAnswers}

theorem onShot_registered (s : Sources κ Timer (CountPos H) H G ι ε) (k : κ) (fd : Int)
    (func : Option H) (timer : Timer) (answer : Option Errno) :
    let r := (onShot fd (func.map fun func => (k, func)) answer).apply
      (s.registered k fd none none timer).loop.queue
    (r.1 = .ok () ↔ answer = none) ∧
      (s.registered k fd none none timer).setQueue r.2 =
        s.registered k fd func (if answer = none then func else none) timer := by
  cases func <;> cases answer <;>
    simp [onShot, Fd.onInputAvailable, Fd.setCallback, Call.apply, EventQueue.mod, registered,
      setQueue, EventQueue.install, EventQueue.store, calculateEvents_nil, EventQueue.epollCtl,
      Callbacks.assign, callbacks]

/-! ### The constructors -/

theorem construct_eq_registered (hm : s.Makes answers) (hadd : answers.add = none) :
    construct s k answers = (.ok (), s.registered k answers.fd none none .created) :=
  service.construct_of_add "timerfd_create" hm hadd

/-- What the first constructor throws leaves all three. -/
theorem constructSetTime_of_error {exc : Exception} {t : Sources κ Timer (CountPos H) H G ι ε}
    (value : Itimerspec) (func : Option H) (h : construct s k answers = (.error exc, t)) :
    constructSetTime s k value func answers = (.error exc, t) := by
  rw [constructSetTime, constructOnShot, h]

theorem constructOnShot_of_mod_failed (h : s.Free answers.fd) (hm : s.Makes answers)
    (func : Option H) (hadd : answers.add = none) (hmod : answers.mod ≠ none) :
    ∃ exc, constructOnShot s k func answers = (.error exc, s.unwound k .created) := by
  obtain ⟨hresult, hqueue⟩ := onShot_registered s k answers.fd func .created answers.mod
  have herror := mt hresult.mp hmod
  rw [constructOnShot, construct_eq_registered hm hadd]
  dsimp only
  split
  · next heq => rw [heq] at herror; exact absurd rfl herror
  · next exc queue heq =>
      rw [heq] at hqueue
      exact ⟨exc, by rw [hqueue, destruct_registered h hm]⟩

theorem constructOnShot_of_mod (hm : s.Makes answers) (func : Option H)
    (hadd : answers.add = none) (hmod : answers.mod = none) :
    constructOnShot s k func answers =
      (.ok (), s.registered k answers.fd func func .created) := by
  obtain ⟨hresult, hqueue⟩ := onShot_registered s k answers.fd func .created answers.mod
  have hok := hresult.mpr hmod
  rw [constructOnShot, construct_eq_registered hm hadd]
  dsimp only
  split
  · next queue heq => rw [heq, if_pos hmod] at hqueue; rw [hqueue]
  · next heq => rw [heq] at hok; cases hok

theorem constructSetTime_of_mod_failed (h : s.Free answers.fd) (hm : s.Makes answers)
    (value : Itimerspec) (func : Option H) (hadd : answers.add = none)
    (hmod : answers.mod ≠ none) :
    ∃ exc, constructSetTime s k value func answers = (.error exc, s.unwound k .created) := by
  obtain ⟨exc, heq⟩ := constructOnShot_of_mod_failed (k := k) h hm func hadd hmod
  exact ⟨exc, by rw [constructSetTime, heq]⟩

theorem constructSetTime_of_settime_failed (h : s.Free answers.fd) (hm : s.Makes answers)
    (value : Itimerspec) (func : Option H) (hadd : answers.add = none)
    (hmod : answers.mod = none) (hsettime : answers.settime ≠ none) :
    ∃ exc, constructSetTime s k value func answers = (.error exc, s.unwound k .created) := by
  obtain ⟨errno, hsettime⟩ := Option.ne_none_iff_exists'.mp hsettime
  refine ⟨.errnoError "timerfd_settime" errno, ?_⟩
  rw [constructSetTime, constructOnShot_of_mod hm func hadd hmod, hsettime]
  simp only [setTime, lowLevelSetTime]
  rw [destruct_registered h hm]

theorem constructSetTime_of_settime (hm : s.Makes answers) (value : Itimerspec)
    (func : Option H) (hadd : answers.add = none) (hmod : answers.mod = none)
    (hsettime : answers.settime = none) :
    constructSetTime s k value func answers =
      (.ok (), s.registered k answers.fd func func (setTime .created value none).2) := by
  rw [constructSetTime, constructOnShot_of_mod hm func hadd hmod, hsettime]
  simp only [setTime, lowLevelSetTime]
  simp [registered]

end

/-! ### Their steps -/

section

variable [DecidableEq κ] [DecidableEq ι] [DecidableEq ε]
  {s : Sources κ Timer (CountPos H) H G ι ε} {k : κ} {answers : ConstructAnswers} {who : Option ε}

theorem step_install (k : κ) (fd : Int) (hturn : s.userTurn service who) (func : Option H)
    (timer : Timer) (answer : Option Errno) :
    (s.registered k fd none none timer).step service (.install who k func answer) =
      some (s.registered k fd func (if answer = none then func else none) timer) := by
  have hturn := (userTurn_registered service s k fd none none timer who).trans hturn
  have hk : (s.registered k fd none none timer).source k = .alive fd timer := by
    simp [registered]
  rw [← (onShot_registered s k fd func timer answer).2]
  simp only [Sources.step, hk, hturn, if_true]
  cases func <;> rfl

theorem step_setTime (s : Sources κ Timer (CountPos H) H G ι ε) (k : κ) (fd : Int)
    (func listed : Option H) (timer : Timer) (value : Itimerspec) (failure : Option Errno) :
    (s.registered k fd func listed timer).step service (.outside k (.setTime value failure)) =
      some (s.registered k fd func listed (setTime timer value failure).2) := by
  have hk : (s.registered k fd func listed timer).source k = .alive fd timer := by
    simp [registered]
  simp only [Sources.step, hk]
  simp [registered, service]

/-- The steps of a constructor that gets past its registration. -/
theorem run_registered (hk : s.source k = .unborn) (hturn : s.userTurn service who)
    (h : s.Free answers.fd) (hm : s.Makes answers) (hadd : answers.add = none)
    (func : Option H) {ls : List (SourcesLabel κ (Option Errno) TimerAct H G ι ε)}
    {t : Sources κ Timer (CountPos H) H G ι ε}
    (hrest : (sources κ G ι ε service).run (s.registered k answers.fd func
      (if answers.mod = none then func else none) .created) ls = some t) :
    (sources κ G ι ε service).run s
      (.construct who k answers.fd answers.add :: .install who k func answers.mod :: ls) =
        some t := by
  have hconstruct := step_construct service "timerfd_create" hk hturn h hm.1
  rw [service.construct_of_add "timerfd_create" hm hadd] at hconstruct
  have hinstall := step_install k answers.fd hturn func .created answers.mod
  exact (System.run_cons_eq_some _).mpr ⟨_, hconstruct,
    (System.run_cons_eq_some _).mpr ⟨_, hinstall, hrest⟩⟩

theorem run_constructSetTime (hk : s.source k = .unborn) (hturn : s.userTurn service who)
    (h : s.Free answers.fd) (value : Itimerspec) (func : Option H) :
    ∃ ls, (sources κ G ι ε service).run s ls =
      some (constructSetTime s k value func answers).2 := by
  by_cases hm : s.Makes answers
  · by_cases hadd : answers.add = none
    · by_cases hmod : answers.mod = none
      · have hset := step_setTime s k answers.fd func func .created value answers.settime
        by_cases hsettime : answers.settime = none
        · rw [constructSetTime_of_settime hm value func hadd hmod hsettime]
          refine ⟨_ :: _ :: [.outside k (.setTime value answers.settime)],
            run_registered hk hturn h hm hadd func ?_⟩
          rw [if_pos hmod]
          exact (System.run_cons_eq_some _).mpr ⟨_, hset, by rw [hsettime]; rfl⟩
        · obtain ⟨exc, heq⟩ := constructSetTime_of_settime_failed (k := k) h hm value func hadd hmod
            hsettime
          obtain ⟨errno, hsettime⟩ := Option.ne_none_iff_exists'.mp hsettime
          rw [heq]
          refine ⟨_ :: _ :: [.outside k (.setTime value answers.settime),
            .destroy who k answers.del], run_registered hk hturn h hm hadd func ?_⟩
          rw [if_pos hmod]
          have hdestroy :=
            step_destroy service k answers.fd hturn func func .created answers.del
          rw [destruct_registered h hm] at hdestroy
          rw [hsettime] at hset ⊢
          exact (System.run_cons_eq_some _).mpr ⟨_, hset,
            (System.run_cons_eq_some _).mpr ⟨_, hdestroy, rfl⟩⟩
      · obtain ⟨exc, heq⟩ := constructSetTime_of_mod_failed (k := k) h hm value func hadd hmod
        rw [heq]
        refine ⟨_ :: _ :: [.destroy who k answers.del], run_registered hk hturn h hm hadd func ?_⟩
        have hdestroy := step_destroy service k answers.fd hturn func none .created answers.del
        rw [destruct_registered h hm] at hdestroy
        rw [if_neg hmod]
        exact (System.run_cons_eq_some _).mpr ⟨_, hdestroy, rfl⟩
    · obtain ⟨exc, heq⟩ := service.construct_of_add_failed (k := k) "timerfd_create" h hm hadd
      have hconstruct := step_construct service "timerfd_create" hk hturn h hm.1
      refine ⟨[.construct who k answers.fd answers.add], ?_⟩
      rw [constructSetTime_of_error value func heq, ← congrArg Prod.snd heq]
      exact (System.run_cons_eq_some _).mpr ⟨_, hconstruct, rfl⟩
  · obtain ⟨exc, heq⟩ := service.construct_of_not_makes (k := k) "timerfd_create" h hm
    exact ⟨[], by rw [constructSetTime_of_error value func heq]; rfl⟩

/-- **A timer is constructed or it is not there.** Whatever the kernel answers and wherever user
code constructs a timer with a value and a function, what happens is a run of sources and event
queue. The constructor returns exactly if every call of it succeeds, and then the timer is armed
and its lambda is installed. If it throws, descriptors, interest list and all other objects are as
they were, and so is the map unless the registration itself has failed, which leaves a key behind.
-/
theorem constructed_or_unwound (value : Itimerspec) (func : Option H)
    (answers : ConstructAnswers) (hk : s.source k = .unborn) (hturn : s.userTurn service who)
    (h : s.Free answers.fd) :
    let r := constructSetTime s k value func answers
    (∃ ls, (sources κ G ι ε service).run s ls = some r.2) ∧
      (r.1 = .ok () ↔ s.Makes answers ∧ answers.add = none ∧ answers.mod = none ∧
        answers.settime = none) ∧
      (r.1 = .ok () → ∃ first, first ≠ Timespec.zero ∧
        (value.value ≠ Timespec.zero → first = value.value) ∧
        r.2 = s.registered k answers.fd func func ⟨some ⟨value.interval, first⟩, 0⟩) ∧
      (¬s.Makes answers → r.2 = s) ∧
      (s.Makes answers → answers.add ≠ none → r.2 = s.keyed answers.fd) ∧
      (s.Makes answers → answers.add = none → answers.mod ≠ none ∨ answers.settime ≠ none →
        r.2 = s.unwound k .created) := by
  intro r
  refine ⟨run_constructSetTime hk hturn h value func, ?_⟩
  by_cases hm : s.Makes answers
  · by_cases hadd : answers.add = none
    · by_cases hmod : answers.mod = none
      · by_cases hsettime : answers.settime = none
        · have heq : r = _ := constructSetTime_of_settime hm value func hadd hmod hsettime
          obtain ⟨first, hfirst, hvalue, hset⟩ := setTime_eq .created value none
          rw [hset] at heq
          refine ⟨by simp [heq, hm, hadd, hmod, hsettime], fun _ => ⟨first, hfirst, hvalue, ?_⟩, ?_⟩
          · rw [heq]
          · simp [hm, hadd, hmod, hsettime]
        · obtain ⟨exc, heq⟩ := constructSetTime_of_settime_failed (k := k) h hm value func hadd hmod
            hsettime
          simp [r, heq, hm, hadd, hsettime]
      · obtain ⟨exc, heq⟩ := constructSetTime_of_mod_failed (k := k) h hm value func hadd hmod
        simp [r, heq, hm, hadd, hmod]
    · obtain ⟨exc, heq⟩ := service.construct_of_add_failed (k := k) "timerfd_create" h hm hadd
      have heq := constructSetTime_of_error value func heq
      simp [r, heq, hm, hadd]
  · obtain ⟨exc, heq⟩ := service.construct_of_not_makes (k := k) "timerfd_create" h hm
    have heq := constructSetTime_of_error value func heq
    simp [r, heq, hm]

/-- A timer with a value of zero on a new event queue: once everything succeeds, and once the
memory does not suffice for installing the callback. -/
theorem constructed_or_unwound_twice :
    let s : Sources Nat Timer (CountPos Nat) Nat Nat Unit Unit := .start ⟨3⟩ ⟨4⟩ 0
    let value : Itimerspec := ⟨⟨1, 0⟩, ⟨0, 0⟩⟩
    let succeeds : ConstructAnswers := ⟨5, 0, none, none, none, none⟩
    let fails : ConstructAnswers := ⟨5, 0, none, some 12, none, none⟩
    (∃ first, first ≠ Timespec.zero ∧ (constructSetTime s 0 value (some 7) succeeds).2.source 0 =
      .alive 5 ⟨some ⟨⟨1, 0⟩, first⟩, 0⟩) ∧
      (constructSetTime s 0 value (some 7) fails).1 ≠ .ok () ∧
      (constructSetTime s 0 value (some 7) fails).2.loop.queue.interest 5 = none ∧
      (constructSetTime s 0 value (some 7) fails).2.opened 5 = false := by
  intro s value succeeds fails
  have hfree : s.Free 5 := ⟨rfl, rfl⟩
  have hturn : s.userTurn service (none : Option Unit) := by decide
  obtain ⟨-, hok, hregistered, -⟩ :=
    constructed_or_unwound (k := 0) value (some 7) succeeds rfl hturn hfree
  obtain ⟨-, hnot, -, -, -, hunwound⟩ :=
    constructed_or_unwound (k := 0) value (some 7) fails rfl hturn hfree
  have hmakes : s.Makes succeeds := ⟨by decide, rfl⟩
  obtain ⟨first, hfirst, -, heq⟩ := hregistered (hok.mpr ⟨hmakes, rfl, rfl, rfl⟩)
  have hfailed := hunwound ⟨by decide, rfl⟩ rfl (.inl (by decide))
  refine ⟨⟨first, hfirst, ?_⟩, fun h => ?_, ?_, ?_⟩
  · rw [heq]
    simp [registered, succeeds, value]
  · exact absurd (hnot.mp h).2.2.1 (by decide)
  · rw [hfailed]
    rfl
  · rw [hfailed]
    rfl

end

end TimerFd

namespace SignalFd

/-! ### Sets of signals -/

/-- No call that makes the set fails. -/
def Selects (signals : List Int) (answers : SignalAnswers) : Prop :=
  answers.sigemptyset = none ∧ ∀ sig ∈ signals, answers.sigaddset sig = none

instance (signals : List Int) (answers : SignalAnswers) : Decidable (Selects signals answers) :=
  inferInstanceAs (Decidable (_ ∧ _))

theorem addSignals (answers : SignalAnswers) {signals : List Int}
    (hadds : ∀ sig ∈ signals, answers.sigaddset sig = none) (sigset : SigSet) :
    signals.foldlM (addSignal answers) sigset =
      .ok fun sig => sigset sig || decide (sig ∈ signals) := by
  induction signals generalizing sigset with
  | nil => simp [pure, Except.pure]
  | cons sig signals ih =>
      rw [List.foldlM_cons, addSignal, hadds sig List.mem_cons_self]
      refine (ih (fun sig' hsig' => hadds sig' (List.mem_cons_of_mem _ hsig')) _).trans ?_
      congr 1
      funext sig'
      by_cases heq : sig' = sig <;> simp [heq]

theorem createSigSet_of_selects {signals : List Int} {answers : SignalAnswers}
    (h : Selects signals answers) :
    createSigSet signals answers = .ok fun sig => decide (sig ∈ signals) := by
  rw [createSigSet, h.1]
  exact (addSignals answers h.2 _).trans (by simp)

theorem createSigSet_of_not_selects {signals : List Int} {answers : SignalAnswers}
    (h : ¬Selects signals answers) : ∃ exc, createSigSet signals answers = .error exc := by
  cases hempty : answers.sigemptyset with
  | some errno => exact ⟨_, by rw [createSigSet, hempty]⟩
  | none =>
      have hadds : ¬∀ sig ∈ signals, answers.sigaddset sig = none := fun hadds => h ⟨hempty, hadds⟩
      rw [createSigSet, hempty]
      generalize (fun _ : Int => false) = sigset
      induction signals generalizing sigset with
      | nil => simp at hadds
      | cons sig signals ih =>
          rw [List.foldlM_cons, addSignal]
          cases hsig : answers.sigaddset sig with
          | some errno => exact ⟨_, rfl⟩
          | none =>
              have hrest : ¬∀ sig ∈ signals, answers.sigaddset sig = none := fun hrest =>
                hadds (List.forall_mem_cons.mpr ⟨hsig, hrest⟩)
              exact ih (fun hselects => hrest hselects.2) hrest _

/-! ### The constructors -/

section

variable [DecidableEq κ] {s : Signals κ H G ι ε} {k : κ} {answers : ConstructAnswers}

/-- What is registered before the signals are blocked is undone when that fails. -/
theorem constructBlock_of_block_failed (h : s.Free answers.fd) (hm : s.Makes answers)
    (hadd : answers.add = none) (sigset mask : SigSet) {signalAnswers : SignalAnswers}
    (hmask : signalAnswers.sigprocmask ≠ none) :
    ∃ exc, constructBlock s k sigset true mask answers signalAnswers =
      (.error exc, mask, s.unwound k []) := by
  obtain ⟨errno, hmask⟩ := Option.ne_none_iff_exists'.mp hmask
  refine ⟨.errnoError "sigprocmask failed" errno, ?_⟩
  rw [constructBlock, construct, (service H).construct_of_add "signalfd" hm hadd]
  simp only [blockSignals, hmask, if_true]
  rw [destruct_registered h hm]
  rfl

theorem constructBlock_of_error {exc : Exception} {t : Signals κ H G ι ε}
    (h : construct s k answers = (.error exc, t)) (sigset : SigSet) (block : Bool) (mask : SigSet)
    (signalAnswers : SignalAnswers) :
    constructBlock s k sigset block mask answers signalAnswers = (.error exc, mask, t) := by
  rw [constructBlock, h]

/-- The ways out of a constructor, in the order of its calls. -/
theorem constructSignals_cases (h : s.Free answers.fd) (signals : List Int) (block : Bool)
    (mask : SigSet) (signalAnswers : SignalAnswers) :
    let r := constructSignals s k signals block mask answers signalAnswers
    (¬(Selects signals signalAnswers ∧ s.Makes answers) ∧ ∃ exc, r = (.error exc, mask, s)) ∨
      ((Selects signals signalAnswers ∧ s.Makes answers) ∧ answers.add ≠ none ∧
        ∃ exc, r = (.error exc, mask, s.keyed answers.fd)) ∨
      ((Selects signals signalAnswers ∧ s.Makes answers) ∧ answers.add = none ∧
        (block ∧ signalAnswers.sigprocmask ≠ none) ∧
        ∃ exc, r = (.error exc, mask, s.unwound k [])) ∨
      ((Selects signals signalAnswers ∧ s.Makes answers) ∧ answers.add = none ∧
        (block → signalAnswers.sigprocmask = none) ∧
        ∃ mask', r = (.ok (), mask', s.registered k answers.fd none none []) ∧
          ∀ sig, mask' sig ↔ mask sig ∨ block ∧ sig ∈ signals ∧ sig ≠ sigkill ∧ sig ≠ sigstop) := by
  intro r
  by_cases hselects : Selects signals signalAnswers
  · have hr : r = constructBlock s k (fun sig => decide (sig ∈ signals)) block mask answers
        signalAnswers := by
      simp only [r, constructSignals, createSigSet_of_selects hselects]
    by_cases hm : s.Makes answers
    · by_cases hadd : answers.add = none
      · by_cases hfails : block ∧ signalAnswers.sigprocmask ≠ none
        · obtain ⟨rfl, hmask⟩ := hfails
          obtain ⟨exc, heq⟩ := constructBlock_of_block_failed (k := k) h hm hadd _ mask hmask
          exact Or.inr (Or.inr (Or.inl
            ⟨⟨hselects, hm⟩, hadd, ⟨rfl, hmask⟩, exc, hr.trans heq⟩))
        · have hmask : block → signalAnswers.sigprocmask = none := fun hblock =>
            not_not.mp fun hmask => hfails ⟨hblock, hmask⟩
          refine Or.inr (Or.inr (Or.inr ⟨⟨hselects, hm⟩, hadd, hmask, ?_⟩))
          rw [hr, constructBlock, construct, (service H).construct_of_add "signalfd" hm hadd]
          cases block with
          | false => exact ⟨mask, rfl, by simp⟩
          | true =>
              simp only [blockSignals, hmask rfl, if_true]
              exact ⟨_, rfl, by simp [and_assoc]⟩
      · obtain ⟨exc, heq⟩ := (service H).construct_of_add_failed (k := k) "signalfd" h hm hadd
        exact Or.inr (Or.inl ⟨⟨hselects, hm⟩, hadd, exc, hr.trans (constructBlock_of_error heq ..)⟩)
    · obtain ⟨exc, heq⟩ := (service H).construct_of_not_makes (k := k) "signalfd" h hm
      exact Or.inl ⟨fun hboth => hm hboth.2, exc, hr.trans (constructBlock_of_error heq ..)⟩
  · obtain ⟨exc, heq⟩ := createSigSet_of_not_selects hselects
    exact Or.inl ⟨fun hboth => hselects hboth.1, exc, by simp only [r, constructSignals, heq]⟩

variable [DecidableEq ι] [DecidableEq ε]

/-- What a constructor does, whatever is answered, is a run of sources and event queue. -/
theorem run_constructSignals (signals : List Int) (block : Bool) (mask : SigSet)
    (signalAnswers : SignalAnswers) {who : Option ε} (hk : s.source k = .unborn)
    (hturn : s.userTurn (service H) who) (h : s.Free answers.fd) :
    ∃ ls, (sources κ G ι ε (service H)).run s ls =
      some (constructSignals s k signals block mask answers signalAnswers).2.2 := by
  have hconstruct (hm : s.Makes answers) :=
    step_construct (service H) "signalfd" hk hturn h hm.1
  rcases constructSignals_cases (k := k) h signals block mask signalAnswers with
    ⟨-, exc, heq⟩ | ⟨⟨-, hm⟩, hadd, exc, heq⟩ | ⟨⟨-, hm⟩, hadd, -, exc, heq⟩ |
    ⟨⟨-, hm⟩, hadd, -, mask', heq, -⟩ <;> rw [heq]
  · exact ⟨[], rfl⟩
  · obtain ⟨exc', hfailed⟩ := (service H).construct_of_add_failed (k := k) "signalfd" h hm hadd
    have hstep := hconstruct hm
    rw [hfailed] at hstep
    exact ⟨[.construct who k answers.fd answers.add],
      (System.run_cons_eq_some _).mpr ⟨_, hstep, rfl⟩⟩
  · have hstep := hconstruct hm
    rw [(service H).construct_of_add "signalfd" hm hadd] at hstep
    have hdestroy := step_destroy (service H) k answers.fd hturn none none [] answers.del
    rw [destruct_registered h hm] at hdestroy
    exact ⟨[.construct who k answers.fd answers.add, .destroy who k answers.del],
      (System.run_cons_eq_some _).mpr ⟨_, hstep,
        (System.run_cons_eq_some _).mpr ⟨_, hdestroy, rfl⟩⟩⟩
  · have hstep := hconstruct hm
    rw [(service H).construct_of_add "signalfd" hm hadd] at hstep
    exact ⟨[.construct who k answers.fd answers.add],
      (System.run_cons_eq_some _).mpr ⟨_, hstep, rfl⟩⟩

/-- **A signal descriptor is constructed or it is not there.** Whatever the library and the kernel answer
and wherever user code constructs one for a list of signals, what happens is a run of sources and event
queue. The constructor returns exactly if the set of signals can be made, it gets a descriptor whose
number is not a key, the registration succeeds, and so does blocking the signals where it is asked for;
then the object is there, without a callback, and the thread blocks what it blocked before and those of
the signals that can be blocked. If it throws, the thread blocks what it blocked before; descriptors,
interest list and all other objects are as they were, and so is the map unless the registration itself
has failed. -/
theorem constructed_or_undone (signals : List Int) (block : Bool) (mask : SigSet)
    (answers : ConstructAnswers) (signalAnswers : SignalAnswers) {who : Option ε}
    (hk : s.source k = .unborn) (hturn : s.userTurn (service H) who) (h : s.Free answers.fd) :
    let r := constructSignals s k signals block mask answers signalAnswers
    (∃ ls, (sources κ G ι ε (service H)).run s ls = some r.2.2) ∧
      (r.1 = .ok () ↔ (Selects signals signalAnswers ∧ s.Makes answers) ∧ answers.add = none ∧
        (block → signalAnswers.sigprocmask = none)) ∧
      (r.1 = .ok () → r.2.2 = s.registered k answers.fd none none [] ∧
        ∀ sig, r.2.1 sig ↔ mask sig ∨ block ∧ sig ∈ signals ∧ sig ≠ sigkill ∧ sig ≠ sigstop) ∧
      (r.1 ≠ .ok () → r.2.1 = mask) ∧
      (¬(Selects signals signalAnswers ∧ s.Makes answers) → r.2.2 = s) ∧
      (Selects signals signalAnswers ∧ s.Makes answers → answers.add ≠ none →
        r.2.2 = s.keyed answers.fd) ∧
      (Selects signals signalAnswers ∧ s.Makes answers → answers.add = none →
        block → signalAnswers.sigprocmask ≠ none → r.2.2 = s.unwound k []) := by
  intro r
  refine ⟨run_constructSignals signals block mask signalAnswers hk hturn h, ?_⟩
  rcases constructSignals_cases (k := k) h signals block mask signalAnswers with
    ⟨hnot, exc, heq⟩ | ⟨hmade, hadd, exc, heq⟩ | ⟨hmade, hadd, ⟨hblock, hmask⟩, exc, heq⟩ |
    ⟨hmade, hadd, hmask, mask', heq, hsignals⟩
  · simp [r, heq, hnot]
  · simp [r, heq, hmade, hadd]
  · simp [r, heq, hmade, hadd, hblock, hmask]
  · simp +contextual [r, heq, hmade, hadd, hmask, hsignals]

/-- `SIGINT` and `SIGTERM` on a new event queue: once everything succeeds, and once the signals cannot
be blocked. -/
theorem constructed_or_undone_sigint :
    let s : Signals Nat Nat Nat Unit Unit := .start ⟨3⟩ ⟨4⟩ 0
    let answers : ConstructAnswers := ⟨5, 0, none, none, none, none⟩
    let succeeds := constructSignals s 0 [2, 15] true (fun _ => false) answers
      ⟨none, fun _ => none, none⟩
    let fails := constructSignals s 0 [2, 15] true (fun _ => false) answers
      ⟨none, fun _ => none, some 22⟩
    succeeds.2.2.source 0 = .alive 5 [] ∧ succeeds.2.1 15 ∧ fails.1 ≠ .ok () ∧
      ¬fails.2.1 15 ∧ fails.2.2.opened 5 = false ∧ fails.2.2.loop.queue.fds 5 = none := by
  intro s answers succeeds fails
  have hfree : s.Free 5 := ⟨rfl, rfl⟩
  have hturn : s.userTurn (service Nat) (none : Option Unit) := by decide
  obtain ⟨-, hok, hregistered, -⟩ := constructed_or_undone (k := 0) [2, 15] true (fun _ => false)
    answers ⟨none, fun _ => none, none⟩ rfl hturn hfree
  obtain ⟨-, hnot, -, hmask, -, -, hunwound⟩ := constructed_or_undone (k := 0) [2, 15] true
    (fun _ => false) answers ⟨none, fun _ => none, some 22⟩ rfl hturn hfree
  have hmakes : s.Makes answers := ⟨by decide, rfl⟩
  obtain ⟨heq, hsignals⟩ := hregistered (hok.mpr ⟨⟨⟨rfl, fun _ _ => rfl⟩, hmakes⟩, rfl, fun _ => rfl⟩)
  have hthrows : fails.1 ≠ .ok () := fun h => absurd ((hnot.mp h).2.2 rfl) (by decide)
  have hunwound := hunwound ⟨⟨rfl, fun _ _ => rfl⟩, hmakes⟩ rfl rfl (by decide)
  refine ⟨?_, (hsignals 15).mpr (Or.inr (by decide)), hthrows, ?_, ?_, ?_⟩
  · rw [heq]
    simp [registered, answers]
  · rw [hmask hthrows]
    decide
  · rw [hunwound]
    rfl
  · rw [hunwound]
    rfl

end

end SignalFd

end Suc.Epl
