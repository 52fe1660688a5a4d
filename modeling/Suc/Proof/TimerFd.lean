import Mathlib.Data.List.Induction
import Suc.Epl.TimerFd
import Suc.Transition.Simulation

/-!
# What a timer hands over

A report may have been collected before the timer was cancelled or set again. The callback is called
for it all the same, but `timerfd_settime` has zeroed the count, the read fails, and the exception
keeps the function from being called. So what a function is called with belongs to the setting that is
in force.
-/

namespace Suc.Epl

open Transition

variable {H G ι ε : Type}

/-- What concerns the timer: calls that have returned, expirations, and calls of the function. -/
inductive TimerEvent where
  | set (value : Itimerspec)
  | cancelled
  | expired
  | handed (numberOfExpirations : Nat)
  deriving DecidableEq, Repr

namespace TimerEvent

/-- The expirations since the last of the other events. -/
def unread (history : List TimerEvent) : Nat :=
  history.foldl (fun n event => match event with
    | .expired => n + 1
    | _ => 0) 0

/-- The value of the last `set`, unless the timer has been cancelled since. -/
def setting (history : List TimerEvent) : Option Itimerspec :=
  history.foldl (fun last event => match event with
    | .set value => some value
    | .cancelled => none
    | _ => last) none

theorem unread_concat (history : List TimerEvent) (event : TimerEvent) :
    unread (history ++ [event]) = match event with
      | .expired => unread history + 1
      | _ => 0 := by
  simp only [unread, List.foldl_append, List.foldl_cons, List.foldl_nil]

theorem setting_concat (history : List TimerEvent) (event : TimerEvent) :
    setting (history ++ [event]) = match event with
      | .set value => some value
      | .cancelled => none
      | _ => setting history := by
  simp only [setting, List.foldl_append, List.foldl_cons, List.foldl_nil]

theorem exists_set_mem {earlier since : List TimerEvent}
    (h : (setting (earlier ++ .cancelled :: since)).isSome) : ∃ value, .set value ∈ since := by
  induction since using List.reverseRecOn with
  | nil => simp [setting_concat] at h
  | append_singleton since event ih =>
      rw [← List.cons_append, ← List.append_assoc, setting_concat] at h
      cases event with
      | set value => exact ⟨value, by simp⟩
      | cancelled => simp at h
      | expired | handed n =>
          obtain ⟨value, hvalue⟩ := ih h
          exact ⟨value, List.mem_append_left _ hvalue⟩

end TimerEvent

namespace TimerLoop

def events (s : TimerLoop H G ι ε) : TimerLabel H G ι ε → List TimerEvent
  | .setTime value failure =>
      match (TimerFd.setTime s.timer value failure).1 with
      | .ok _ => [.set value]
      | .error _ => []
  | .cancel failure =>
      match (TimerFd.cancel s.timer failure).1 with
      | .ok _ => [.cancelled]
      | .error _ => []
  | .expire => [.expired]
  | .read _ failure =>
      match (TimerFd.readNumberOfExpirations s.timer failure).1 with
      | .ok numberOfExpirations => [.handed numberOfExpirations]
      | .error _ => []
  | .onShot _ _ | .loop _ => []

end TimerLoop

/-! ### One step -/

namespace TimerFd

/-- `setTime` sets a first expiration that is not zero, which is the given one unless that is. -/
theorem setTime_eq (timer : Timer) (value : Itimerspec) (failure : Option Errno) :
    ∃ first, first ≠ Timespec.zero ∧
      (value.value ≠ Timespec.zero → first = value.value) ∧
      setTime timer value failure = match failure with
        | none => (.ok (), ⟨some ⟨value.interval, first⟩, 0⟩)
        | some errno => (.error (.errnoError "timerfd_settime" errno), timer) := by
  obtain ⟨interval, sec, nsec⟩ := value
  by_cases hzero : sec ≠ 0 ∨ nsec ≠ 0
  · have hne : (⟨sec, nsec⟩ : Timespec) ≠ .zero := by
      simp only [Timespec.zero, ne_eq, Timespec.mk.injEq]
      tauto
    refine ⟨⟨sec, nsec⟩, hne, fun _ => rfl, ?_⟩
    cases failure <;> simp [setTime, lowLevelSetTime, Timer.settime, hzero, hne]
  · have hvalue : (⟨sec, nsec⟩ : Timespec) = .zero := by
      simp only [Timespec.zero, Timespec.mk.injEq]
      tauto
    refine ⟨⟨0, 1⟩, by decide, fun hne => absurd hvalue hne, ?_⟩
    cases failure <;> simp [setTime, lowLevelSetTime, Timer.settime, hzero, Timespec.zero]

theorem cancel_eq (timer : Timer) (failure : Option Errno) :
    cancel timer failure = match failure with
      | none => (.ok (), .created)
      | some errno => (.error (.errnoError "timerfd_settime" errno), timer) := by
  cases failure with
  | none => rfl
  | some errno => rfl

/-- A read gives the count, which is not zero then, or throws and leaves the timer as it is. -/
theorem readNumberOfExpirations_cases (timer : Timer) (failure : Option Errno) :
    (∃ exc, readNumberOfExpirations timer failure = (.error exc, timer)) ∨
      timer.expirations ≠ 0 ∧ readNumberOfExpirations timer failure =
        (.ok timer.expirations, { timer with expirations := 0 }) := by
  cases failure with
  | some errno => exact Or.inl ⟨_, rfl⟩
  | none =>
      by_cases hzero : timer.expirations = 0
      · exact Or.inl ⟨.errnoError "unexpected read return value: -1" eagain,
          by simp [readNumberOfExpirations, Timer.read, hzero]⟩
      · exact Or.inr ⟨hzero, by simp [readNumberOfExpirations, Timer.read, hzero]⟩

end TimerFd

namespace TimerLoop

variable [DecidableEq ι] [DecidableEq ε] {fd : Int}

/-- The steps by what they do to the timer. -/
inductive Move (s : TimerLoop H G ι ε) : List TimerEvent → TimerLoop H G ι ε → Prop where
  | set (value : Itimerspec) (first : Timespec) :
      Move s [.set value] { s with timer := ⟨some ⟨value.interval, first⟩, 0⟩ }
  | cancelled : Move s [.cancelled] { s with timer := .created }
  | expired (timer : Timer) (htimer : s.timer.expire = some timer) :
      Move s [.expired] { s with timer }
  | handed (e : ε) (hunread : s.timer.expirations ≠ 0) :
      Move s [.handed s.timer.expirations]
        { s with
          timer := { s.timer with expirations := 0 }
          handed := Function.update s.handed e (some s.timer.expirations) }
  | other (t : TimerLoop H G ι ε) (htimer : t.timer = s.timer)
      (hhanded : ∀ e n, t.handed e = some n → s.handed e = some n) : Move s [] t

omit [DecidableEq ι] [DecidableEq ε] in
theorem handed_of_after {s : TimerLoop H G ι ε} (loop : Loop (Callable H G) ι ε) {e : ε} {n : Nat}
    (h : (s.after loop).handed e = some n) : s.handed e = some n := by
  unfold after at h
  cases hpos : loop.execs e with
  | callback => simpa [hpos] using h
  | _ => simp [hpos] at h

theorem exists_after {s t : TimerLoop H G ι ε} {l : LoopLabel (Callable H G) ι ε}
    (hstep : step fd s (.loop l) = some t) : ∃ loop, s.loop.step l = some loop ∧ t = s.after loop := by
  have hmap (hm : (s.loop.step l).map s.after = some t) :
      ∃ loop, s.loop.step l = some loop ∧ t = s.after loop := by
    obtain ⟨loop, hloop, rfl⟩ := Option.map_eq_some_iff.mp hm
    exact ⟨loop, hloop, rfl⟩
  cases l with
  | stop id act => exact hmap hstep
  | exec e act =>
      cases act with
      | callback act =>
          by_cases hreads : s.reads e
          · simp [step, hreads] at hstep
          · rw [step, if_neg hreads] at hstep
            exact hmap hstep
      | _ => exact hmap hstep

theorem move_of_step {s t : TimerLoop H G ι ε} {l : TimerLabel H G ι ε}
    (hstep : (timerLoop H G ι ε fd).step s l = some t) : Move s (s.events l) t := by
  change TimerLoop.step fd s l = some t at hstep
  cases l with
  | setTime value failure =>
      obtain ⟨first, -, -, hset⟩ := TimerFd.setTime_eq s.timer value failure
      obtain rfl := Option.some.inj hstep
      rw [events, hset]
      cases failure with
      | none => exact .set value first
      | some errno => exact .other s rfl fun _ _ h => h
  | cancel failure =>
      obtain rfl := Option.some.inj hstep
      rw [events, TimerFd.cancel_eq]
      cases failure with
      | none => exact .cancelled
      | some errno => exact .other s rfl fun _ _ h => h
  | onShot func answer =>
      obtain rfl := Option.some.inj hstep
      exact .other _ rfl fun _ _ h => h
  | expire =>
      obtain ⟨timer, htimer, rfl⟩ := Option.map_eq_some_iff.mp hstep
      exact .expired timer htimer
  | read e failure =>
      by_cases hreads : s.reads e
      · rw [step, if_pos hreads] at hstep
        rw [events]
        rcases TimerFd.readNumberOfExpirations_cases s.timer failure with
          ⟨exc, hread⟩ | ⟨hunread, hread⟩
        · rw [hread] at hstep ⊢
          obtain ⟨loop, -, rfl⟩ := Option.map_eq_some_iff.mp hstep
          exact .other _ rfl fun _ _ => handed_of_after loop
        · rw [hread] at hstep ⊢
          obtain rfl := Option.some.inj hstep
          exact .handed e hunread
      · simp [step, hreads] at hstep
  | loop l =>
      obtain ⟨loop, -, rfl⟩ := exists_after hstep
      exact .other _ rfl fun _ _ => handed_of_after loop

/-! ### Runs -/

/-- The count is what the history says, and a timer that is not set stays at zero. -/
def Agrees (history : List TimerEvent) (s : TimerLoop H G ι ε) : Prop :=
  s.timer.expirations = TimerEvent.unread history ∧
    (TimerEvent.setting history = none → s.timer = .created)

omit [DecidableEq ι] [DecidableEq ε] in
theorem Agrees.isSome_setting {history : List TimerEvent} {s : TimerLoop H G ι ε}
    (hs : Agrees history s) (hne : s.timer.expirations ≠ 0) :
    (TimerEvent.setting history).isSome := by
  rw [Option.isSome_iff_ne_none]
  intro hnone
  rw [hs.2 hnone] at hne
  exact absurd rfl hne

omit [DecidableEq ι] in
theorem Move.agrees {s t : TimerLoop H G ι ε} {events history : List TimerEvent}
    (h : Move s events t) (hs : Agrees history s) : Agrees (history ++ events) t := by
  have ⟨hunread, hsetting⟩ := hs
  cases h with
  | set value first =>
      refine ⟨by rw [TimerEvent.unread_concat], fun hnone => ?_⟩
      simp [TimerEvent.setting_concat] at hnone
  | cancelled =>
      refine ⟨?_, fun _ => rfl⟩
      rw [TimerEvent.unread_concat]
      rfl
  | expired timer htimer =>
      obtain ⟨value, harmed, rfl⟩ := Option.map_eq_some_iff.mp htimer
      refine ⟨?_, fun hnone => ?_⟩
      · rw [TimerEvent.unread_concat, ← hunread]
      · -- a timer without a setting is not armed, so it does not expire
        rw [TimerEvent.setting_concat] at hnone
        rw [hsetting hnone] at harmed
        cases harmed
  | handed e hne =>
      refine ⟨by rw [TimerEvent.unread_concat], fun hnone => ?_⟩
      have hsome := hs.isSome_setting hne
      rw [TimerEvent.setting_concat] at hnone
      simp [hnone] at hsome
  | other t htimer hhanded =>
      rw [List.append_nil, Agrees, htimer]
      exact ⟨hunread, hsetting⟩

/-- What may come after a history: a function is called with what the history has left unread. -/
def Allows (history : List TimerEvent) : TimerEvent → Prop
  | .handed n => 1 ≤ n ∧ n = TimerEvent.unread history ∧ (TimerEvent.setting history).isSome
  | _ => True

omit [DecidableEq ι] in
theorem Move.allows {s t : TimerLoop H G ι ε} {events history : List TimerEvent}
    (h : Move s events t) (hs : Agrees history s) :
    events = [] ∨ ∃ event, events = [event] ∧ Allows history event := by
  cases h with
  | handed e hne =>
      exact Or.inr ⟨_, rfl, Nat.one_le_iff_ne_zero.mpr hne, hs.1, hs.isSome_setting hne⟩
  | other => exact Or.inl rfl
  | set | cancelled | expired => exact Or.inr ⟨_, rfl, trivial⟩

omit [DecidableEq ι] in
theorem Move.mem {s t : TimerLoop H G ι ε} {events history : List TimerEvent}
    (h : Move s events t) (hs : ∀ e n, s.handed e = some n → .handed n ∈ history) :
    ∀ e n, t.handed e = some n → .handed n ∈ history ++ events := by
  intro e' n hn
  cases h with
  | handed e hne =>
      by_cases heq : e' = e
      · subst heq
        obtain rfl : s.timer.expirations = n := by simpa using hn
        simp
      · have hold : s.handed e' = some n := by simpa [heq] using hn
        exact List.mem_append_left _ (hs e' n hold)
  | other t htimer hhanded => exact List.mem_append_left _ (hs e' n (hhanded e' n hn))
  | set | cancelled | expired => exact List.mem_append_left _ (hs e' n hn)

omit [DecidableEq ι] [DecidableEq ε] in
theorem agrees_start (loop : Loop (Callable H G) ι ε) : Agrees [] (start loop) :=
  ⟨rfl, fun _ => rfl⟩

/-- What the loop does in a step. A failing read is an exception of the callback. -/
def loopSteps (s : TimerLoop H G ι ε) :
    TimerLabel H G ι ε → List (LoopLabel (Callable H G) ι ε)
  | .loop l => [l]
  | .read e failure =>
      match (TimerFd.readNumberOfExpirations s.timer failure).1 with
      | .ok _ => []
      | .error exc => [.exec e (.callback (.throws (.std exc)))]
  | .setTime _ _ | .cancel _ | .onShot _ _ | .expire => []

/-- The timer leaves the loop as it is: but for calls of `onShot` from outside, what is proved of the
runs of the loop holds of the loop under a timer. -/
theorem run_loopSteps {s t : TimerLoop H G ι ε} {ls : List (TimerLabel H G ι ε)}
    (hrun : (timerLoop H G ι ε fd).run s ls = some t)
    (hshot : ∀ l ∈ ls, ∀ func answer, l ≠ .onShot func answer) :
    (eventLoop (Callable H G) ι ε).run s.loop ((timerLoop H G ι ε fd).shown loopSteps s ls) =
      some t.loop := by
  have halong := (System.along_iff_forall_mem hrun).mpr hshot
  rw [← System.shown_restrict hrun halong]
  refine System.run_shown_of_step TimerLoop.loop loopSteps ?_ (System.run_restrict hrun halong)
  intro s l t hrestrict
  obtain ⟨hshot, hstep⟩ := System.restrict_step_eq_some.mp hrestrict
  change TimerLoop.step fd s l = some t at hstep
  have hone {l : LoopLabel (Callable H G) ι ε} {loop : Loop (Callable H G) ι ε}
      (hloop : s.loop.step l = some loop) :
      (eventLoop (Callable H G) ι ε).run s.loop [l] = some loop :=
    (System.run_cons_eq_some _).mpr ⟨loop, hloop, rfl⟩
  cases l with
  | setTime | cancel =>
      obtain rfl := Option.some.inj hstep
      rfl
  | onShot func answer => exact absurd rfl (hshot func answer)
  | expire =>
      obtain ⟨timer, -, rfl⟩ := Option.map_eq_some_iff.mp hstep
      rfl
  | read e failure =>
      by_cases hreads : s.reads e
      · rw [step, if_pos hreads] at hstep
        rw [loopSteps]
        rcases TimerFd.readNumberOfExpirations_cases s.timer failure with
          ⟨exc, hread⟩ | ⟨-, hread⟩
        · rw [hread] at hstep ⊢
          obtain ⟨loop, hloop, rfl⟩ := Option.map_eq_some_iff.mp hstep
          exact hone hloop
        · rw [hread] at hstep ⊢
          obtain rfl := Option.some.inj hstep
          rfl
      · simp [step, hreads] at hstep
  | loop l =>
      obtain ⟨loop, hloop, rfl⟩ := exists_after hstep
      exact hone hloop

/-- What a function is running with is a call that the history has. -/
theorem handed_mem_shown {loop : Loop (Callable H G) ι ε} {ls : List (TimerLabel H G ι ε)}
    {s : TimerLoop H G ι ε} (hrun : (timerLoop H G ι ε fd).run (start loop) ls = some s) {e : ε}
    {n : Nat} (hhanded : s.handed e = some n) :
    .handed n ∈ (timerLoop H G ι ε fd).shown events (start loop) ls := by
  have hinv : ∀ e n, s.handed e = some n →
      .handed n ∈ [] ++ (timerLoop H G ι ε fd).shown events (start loop) ls :=
    System.shown_invariant
      (J := fun history s => ∀ e n, s.handed e = some n → TimerEvent.handed n ∈ history)
      (fun _ _ _ _ hstep hs => (move_of_step hstep).mem hs) hrun (by simp [start])
  exact hinv e n hhanded

/-- **Current expirations.** A function is called with the number of expirations since the last
`setTime` or the last read, if that is later; this is not zero, and the timer has been set since it
was last cancelled. A `setTime` that returns has armed the timer with the interval it was given. -/
theorem handed_eq_unread {loop : Loop (Callable H G) ι ε} {ls : List (TimerLabel H G ι ε)}
    {s : TimerLoop H G ι ε} (hrun : (timerLoop H G ι ε fd).run (start loop) ls = some s) :
    (∀ before n after,
      (timerLoop H G ι ε fd).shown events (start loop) ls = before ++ .handed n :: after →
        1 ≤ n ∧ n = TimerEvent.unread before ∧ (TimerEvent.setting before).isSome ∧
          ∀ earlier since, before = earlier ++ .cancelled :: since → ∃ value, .set value ∈ since) ∧
    ∀ timer value failure timer', TimerFd.setTime timer value failure = (.ok (), timer') →
      ∃ first, first ≠ Timespec.zero ∧ (value.value ≠ Timespec.zero → first = value.value) ∧
        timer'.armed = some ⟨value.interval, first⟩ := by
  constructor
  · intro before n after hsplit
    have hallows : Allows ([] ++ before) (.handed n) :=
      System.shown_justified (fun _ _ _ _ hstep hs => (move_of_step hstep).agrees hs)
        (fun _ _ _ _ hstep hs => (move_of_step hstep).allows hs) hrun (agrees_start loop) hsplit
    obtain ⟨hpos, hunread, hsetting⟩ := hallows
    refine ⟨hpos, hunread, hsetting, ?_⟩
    rintro earlier since rfl
    exact TimerEvent.exists_set_mem hsetting
  · intro timer value failure timer' hset
    obtain ⟨first, hfirst, hgiven, heq⟩ := TimerFd.setTime_eq timer value failure
    refine ⟨first, hfirst, hgiven, ?_⟩
    rw [heq] at hset
    cases failure with
    | none =>
        obtain ⟨-, rfl⟩ := Prod.mk.inj hset
        rfl
    | some errno => cases (Prod.mk.inj hset).1

/-- The timer is reported after two expirations, and before the callback is called, it is set again
and expires once: the function is called with one. -/
theorem handed_eq_unread_set_again :
    let fds : Int → Option (Callbacks (Callable Nat Nat)) :=
      Function.update (fun _ => none) 5 (some {})
    let first : TimerLoop Nat Nat Nat Nat :=
      start (.start ⟨3⟩ ⟨4⟩ fds fun fd => (fds fd).map fun _ => 0)
    let value : Itimerspec := ⟨⟨1, 0⟩, ⟨0, 0⟩⟩
    let exec : ExecAct (Callable Nat Nat) Nat → TimerLabel Nat Nat Nat Nat := fun act =>
      .loop (.exec 0 act)
    let labels : List (TimerLabel Nat Nat Nat Nat) :=
      [.onShot (some 7) none, .setTime value none, exec .call, exec .step,
        exec (.drained (some eagain)), exec .step, exec .epollWait, .expire, .expire,
        exec (.woken (.ok [⟨epollIn, 5⟩])), exec .step, exec .step, .cancel none,
        .setTime value none, exec .step, exec .step, exec .step, exec .invoke, .expire, .read 0 none]
    let before : List TimerEvent :=
      [.set value, .expired, .expired, .cancelled, .set value, .expired]
    ∃ s, (timerLoop Nat Nat Nat Nat 5).run first labels = some s ∧ s.handed 0 = some 1 ∧
      1 = TimerEvent.unread before ∧ (TimerEvent.setting before).isSome := by
  intro fds first value exec labels before
  have hrun : ∃ s, (timerLoop Nat Nat Nat Nat 5).run first labels = some s ∧ s.handed 0 = some 1 :=
    ⟨_, rfl, rfl⟩
  obtain ⟨s, hrun, hhanded⟩ := hrun
  obtain ⟨-, hunread, hsetting, -⟩ := (handed_eq_unread hrun).1 before 1 [] rfl
  exact ⟨s, hrun, hhanded, hunread, hsetting⟩

end TimerLoop

end Suc.Epl
