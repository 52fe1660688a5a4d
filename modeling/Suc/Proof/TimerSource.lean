import Suc.Proof.CountSource
import Suc.Proof.TimerFd
import Suc.Transition.Channel

/-!
# Timers on an event queue

The clock counts the expirations of a `TimerFd` until its lambda reads them; setting and cancelling the
timer discard them. Every expiration is handed to one function, or discarded, or still unread, and what
is unread when a wait reports the timer is handed over before the loop waits again.
-/

namespace Suc.Epl

open Transition

variable {κ H G ι ε : Type}

namespace TimerFd

/-- The read of the lambda. -/
def readExpirations (failure : Option Errno) (timer : Timer) : Except Exception Nat × Timer :=
  readNumberOfExpirations timer failure

theorem work_eq : (service (H := H)).work = countWork readExpirations := rfl

theorem readExpirations_eq_ok {failure : Option Errno} {timer timer' : Timer} {n : Nat}
    (h : readExpirations failure timer = (.ok n, timer')) :
    0 < n ∧ n = timer.expirations ∧ timer' = { timer with expirations := 0 } := by
  rcases readNumberOfExpirations_cases timer failure with ⟨exc, hread⟩ | ⟨hunread, hread⟩
  · rw [readExpirations, hread] at h
    cases h
  · rw [readExpirations, hread] at h
    cases h
    exact ⟨Nat.pos_of_ne_zero hunread, rfl, rfl⟩

theorem readExpirations_eq_error {failure : Option Errno} {timer timer' : Timer} {exc : Exception}
    (h : readExpirations failure timer = (.error exc, timer')) :
    timer' = timer ∧ (failure = none → timer.expirations = 0) := by
  rcases readNumberOfExpirations_cases timer failure with ⟨exc', hread⟩ | ⟨hunread, hread⟩
  · rw [readExpirations, hread] at h
    cases h
    refine ⟨rfl, ?_⟩
    rintro rfl
    by_contra hunread
    simp [readNumberOfExpirations, Timer.read, hunread] at hread
  · rw [readExpirations, hread] at h
    cases h

/-! ### One timer by itself -/

/-- The expirations that the clock counts, those that functions are called with, and those that a new
setting discards. -/
def numbers (s : Solo Timer (CountPos H)) :
    SoloLabel (Option Errno) TimerAct H → List (LossyLabel Nat)
  | .outside .expire => if s.state.armed.isSome then [.send 1] else []
  | .outside (.setTime _ none) | .outside (.cancel none) => [.drop s.state.expirations]
  | .outside _ => []
  | l => (CountPos.given readExpirations s l).map .receive

/-- Each expiration is handed over, discarded or unread. -/
structure Balanced (h : List (LossyLabel Nat)) (s : Solo Timer (CountPos H)) : Prop where
  sum : (h.filterMap LossyLabel.sent?).sum = (h.filterMap LossyLabel.received?).sum +
    (h.filterMap LossyLabel.dropped?).sum + s.state.expirations
  pos : ∀ n ∈ h.filterMap LossyLabel.received?, 0 < n

theorem Balanced.same {h : List (LossyLabel Nat)} {s t : Solo Timer (CountPos H)}
    (hs : Balanced h s) (hstate : t.state = s.state) : Balanced (h ++ []) t := by
  rw [List.append_nil]
  exact ⟨hstate ▸ hs.sum, hs.pos⟩

theorem Balanced.step {h : List (LossyLabel Nat)} {s t : Solo Timer (CountPos H)}
    {l : SoloLabel (Option Errno) TimerAct H} (hstep : (service (H := H)).solo.step s l = some t)
    (hs : Balanced h s) : Balanced (h ++ numbers s l) t := by
  obtain ⟨hsum, hpos⟩ := hs
  cases l with
  | outside act =>
      cases hstep
      cases act with
      | setTime value failure =>
          obtain ⟨first, -, -, hset⟩ := setTime_eq s.state value failure
          cases failure with
          | none =>
              refine ⟨?_, by simpa [numbers, List.filterMap_cons] using hpos⟩
              simp [numbers, service, hset, List.filterMap_cons]
              omega
          | some errno =>
              refine Balanced.same ⟨hsum, hpos⟩ ?_
              simp [service, hset]
      | cancel failure =>
          cases failure with
          | none =>
              refine ⟨?_, by simpa [numbers, List.filterMap_cons] using hpos⟩
              simp [numbers, service, cancel_eq, Timer.created, List.filterMap_cons]
              omega
          | some errno => exact Balanced.same ⟨hsum, hpos⟩ rfl
      | expire =>
          cases harmed : s.state.armed with
          | none =>
              refine ⟨?_, by simpa [numbers, harmed] using hpos⟩
              simpa [numbers, service, Timer.expire, harmed] using hsum
          | some value =>
              refine ⟨?_, by simpa [numbers, harmed, List.filterMap_cons] using hpos⟩
              simp [numbers, service, Timer.expire, harmed, List.filterMap_cons]
              omega
  | enter func =>
      obtain ⟨-, rfl⟩ := Service.eq_of_enter hstep
      exact Balanced.same ⟨hsum, hpos⟩ rfl
  | act failure =>
      rcases CountPos.act_cases work_eq hstep with ⟨func, value, timer, hpos', hread, rfl⟩ |
        ⟨func, exc, timer, hpos', hread, rfl⟩ | ⟨hpos', rfl⟩
      · obtain ⟨hn, rfl, rfl⟩ := readExpirations_eq_ok hread
        constructor
        · simp [numbers, CountPos.given, hpos', hread, Except.toOption, List.filterMap_cons]
          omega
        · simp only [numbers, CountPos.given, hpos', hread, Except.toOption, Option.toList,
            List.map_cons, List.map_nil, List.filterMap_append, List.filterMap_cons,
            List.filterMap_nil, LossyLabel.received?, List.mem_append, List.mem_singleton]
          rintro n (hn' | rfl)
          · exact hpos n hn'
          · exact hn
      · obtain ⟨rfl, -⟩ := readExpirations_eq_error hread
        have hsame : Balanced (h ++ []) (⟨s.state, none⟩ : Solo Timer (CountPos H)) :=
          Balanced.same ⟨hsum, hpos⟩ rfl
        simpa [numbers, CountPos.given, hpos', hread, Except.toOption] using hsame
      · have hsame : Balanced (h ++ []) (⟨s.state, none⟩ : Solo Timer (CountPos H)) :=
          Balanced.same ⟨hsum, hpos⟩ rfl
        simpa [numbers, CountPos.given, hpos'] using hsame
  | returns =>
      obtain ⟨pos, back, -, -, rfl⟩ := Service.eq_of_returns hstep
      exact Balanced.same ⟨hsum, hpos⟩ rfl
  | throws exc =>
      obtain ⟨pos, back, -, -, rfl⟩ := Service.eq_of_throws hstep
      exact Balanced.same ⟨hsum, hpos⟩ rfl

/-! ### Many timers -/

/-- What the kernel's timer is, or was when it was closed. -/
def timerOf (k : κ) (s : Sources κ Timer (CountPos H) H G ι ε) : Timer := (s.source k).state .created

variable [DecidableEq κ]

/-- An expiration that the clock counts. -/
def expired (k : κ) (s : Sources κ Timer (CountPos H) H G ι ε) :
    SourcesLabel κ (Option Errno) TimerAct H G ι ε → List Nat
  | .outside k' .expire => if k' = k ∧ (timerOf k s).armed.isSome then [1] else []
  | _ => []

/-- The unread expirations of the setting that is replaced or cancelled. -/
def discarded (k : κ) (s : Sources κ Timer (CountPos H) H G ι ε) :
    SourcesLabel κ (Option Errno) TimerAct H G ι ε → List Nat
  | .outside k' (.setTime _ none) | .outside k' (.cancel none) =>
      if k' = k then [(timerOf k s).expirations] else []
  | _ => []

theorem numbers_history (k : κ) {s : Sources κ Timer (CountPos H) H G ι ε} (h : s.Inv)
    (l : SourcesLabel κ (Option Errno) TimerAct H G ι ε) :
    s.history service numbers k l = (expired k s l).map .send ++ (discarded k s l).map .drop ++
      (CountPos.handed readExpirations k s l).map .receive := by
  have hgiven := CountPos.given_history work_eq k h l
  cases l with
  | outside k' act =>
      by_cases heq : k' = k
      · subst heq
        cases act with
        | setTime value failure | cancel failure =>
            cases failure <;>
              simp [Sources.history, Sources.soloSteps, Sources.soloOf, service, numbers, expired,
                discarded, CountPos.handed, timerOf]
        | expire =>
            by_cases harmed : ((s.source k').state .created).armed.isSome <;>
              simp [Sources.history, Sources.soloSteps, Sources.soloOf, service, numbers, expired,
                discarded, CountPos.handed, timerOf, harmed]
      · rcases act with ⟨value, _ | errno⟩ | (_ | errno) | _ <;>
          simp [Sources.history, Sources.soloSteps, expired, discarded, CountPos.handed, heq]
  | _ =>
      refine Eq.trans ?_ (congrArg (List.map LossyLabel.receive) hgiven)
      rw [Sources.history, Sources.history, List.map_flatMap]
      refine List.flatMap_congr fun a ha => ?_
      cases Sources.shows_of_mem ha <;> rfl

variable [DecidableEq ι] [DecidableEq ε]

/-- The expirations that the clock counts in a run, one by one. -/
def expiredAt (k : κ) (s : Sources κ Timer (CountPos H) H G ι ε)
    (ls : List (SourcesLabel κ (Option Errno) TimerAct H G ι ε)) : List Nat :=
  (sources κ G ι ε service).shown (expired k) s ls

def discardedAt (k : κ) (s : Sources κ Timer (CountPos H) H G ι ε)
    (ls : List (SourcesLabel κ (Option Errno) TimerAct H G ι ε)) : List Nat :=
  (sources κ G ι ε service).shown (discarded k) s ls

def handedAt (k : κ) (s : Sources κ Timer (CountPos H) H G ι ε)
    (ls : List (SourcesLabel κ (Option Errno) TimerAct H G ι ε)) : List Nat :=
  CountPos.handedAt service readExpirations k s ls

section

variable {k : κ} {s t : Sources κ Timer (CountPos H) H G ι ε}
  {ls : List (SourcesLabel κ (Option Errno) TimerAct H G ι ε)}
  (hrun : (sources κ G ι ε service).run s ls = some t) (hs : s.Inv)

include hrun hs

theorem sent_of_run : ((sources κ G ι ε service).shown (Sources.history service numbers k) s
    ls).filterMap LossyLabel.sent? = expiredAt k s ls := by
  rw [System.shown_filterMap]
  refine System.shown_congr (Sources.inv_preserved service) (fun s l h => ?_) hrun hs
  rw [numbers_history k h]
  simp [List.filterMap_append, List.filterMap_map, Function.comp_def]

theorem received_of_run : ((sources κ G ι ε service).shown (Sources.history service numbers k) s
    ls).filterMap LossyLabel.received? = handedAt k s ls := by
  rw [System.shown_filterMap]
  refine System.shown_congr (Sources.inv_preserved service) (fun s l h => ?_) hrun hs
  rw [numbers_history k h]
  simp [List.filterMap_append, List.filterMap_map, Function.comp_def]

theorem dropped_of_run : ((sources κ G ι ε service).shown (Sources.history service numbers k) s
    ls).filterMap LossyLabel.dropped? = discardedAt k s ls := by
  rw [System.shown_filterMap]
  refine System.shown_congr (Sources.inv_preserved service) (fun s l h => ?_) hrun hs
  rw [numbers_history k h]
  simp [List.filterMap_append, List.filterMap_map, Function.comp_def]

end

/-- **No expiration is lost or handed over twice.** Among any number of timers on an event queue, with
functions that do whatever user code may: the expirations that the clock has counted are those that the
functions of the timer have been called with, those that a new setting or a cancellation has discarded,
and those that are unread. No function is called with zero. -/
theorem expiredAt_sum_eq {epfd evtfd : Cmn.Fd} {wake : G} (k : κ)
    {ls : List (SourcesLabel κ (Option Errno) TimerAct H G ι ε)}
    {s : Sources κ Timer (CountPos H) H G ι ε}
    (hrun : (sources κ G ι ε service).run (.start epfd evtfd wake) ls = some s) :
    (expiredAt k (.start epfd evtfd wake) ls).sum = (handedAt k (.start epfd evtfd wake) ls).sum +
        (discardedAt k (.start epfd evtfd wake) ls).sum + (timerOf k s).expirations ∧
      ∀ n ∈ handedAt k (.start epfd evtfd wake) ls, 0 < n := by
  have hstart := Sources.inv_start (κ := κ) (δ := Timer) (π := CountPos H) (H := H) (ι := ι) (ε := ε)
    epfd evtfd wake
  have hbalanced : Balanced [] ((Sources.start epfd evtfd wake :
      Sources κ Timer (CountPos H) H G ι ε).soloOf service k) := by
    rw [Sources.soloOf_start]
    exact ⟨rfl, List.forall_mem_nil _⟩
  have hend := Sources.history_preserved numbers (fun _ _ _ _ hstep h => Balanced.step hstep h) hrun
    hstart hbalanced
  rw [List.nil_append] at hend
  obtain ⟨hsum, hpos⟩ := hend
  rw [sent_of_run hrun hstart, received_of_run hrun hstart, dropped_of_run hrun hstart] at hsum
  rw [received_of_run hrun hstart] at hpos
  exact ⟨hsum, hpos⟩

/-- The timer is set while its function runs, and two expirations that have not been read are gone. -/
theorem expiredAt_sum_eq_set_again :
    let exec : ExecAct (Callable (Nat × Nat) Nat) Nat →
        SourcesLabel Nat (Option Errno) TimerAct Nat Nat Nat Nat := fun act => .loop (.exec 0 act)
    let start : Sources Nat Timer (CountPos Nat) Nat Nat Nat Nat := .start ⟨3⟩ ⟨4⟩ 0
    let every : Itimerspec := ⟨⟨1, 0⟩, ⟨1, 0⟩⟩
    let labels : List (SourcesLabel Nat (Option Errno) TimerAct Nat Nat Nat Nat) :=
      [.construct none 0 5 none, .install none 0 (some 7) none, .outside 0 (.setTime every none),
        .outside 0 .expire, exec .call, exec .step, exec (.drained (some eagain)), exec .step,
        exec .epollWait, exec (.woken (.ok [⟨epollIn, 5⟩])), exec .step, exec .step, exec .step,
        exec .step, exec .step, exec .invoke, .outside 0 .expire, .act 0 none, .outside 0 .expire,
        .outside 0 .expire, .outside 0 (.setTime every none), .outside 0 .expire]
    ∃ s, (sources Nat Nat Nat Nat service).run start labels = some s ∧
      handedAt 0 start labels = [2] ∧ discardedAt 0 start labels = [0, 2] ∧
      (expiredAt 0 start labels).sum = (handedAt 0 start labels).sum +
        (discardedAt 0 start labels).sum + (timerOf 0 s).expirations := by
  intro exec start every labels
  have hrun : (sources Nat Nat Nat Nat service).run start labels = some _ := rfl
  exact ⟨_, hrun, rfl, rfl, (expiredAt_sum_eq 0 hrun).1⟩

/-- Nobody sets or cancels the timer, and the reads give what it has counted. -/
def LeftAlone (k : κ) : SourcesLabel κ (Option Errno) TimerAct H G ι ε → Prop
  | .outside k' (.setTime _ failure) | .outside k' (.cancel failure) => k' = k → failure ≠ none
  | .act _ failure => failure = none
  | _ => True

/-- What is unread stays so until it is read. -/
theorem kept : CountPos.Kept (service (H := H)) readExpirations Timer.expirations fun _ l =>
    match l with
    | .outside (.setTime _ failure) | .outside (.cancel failure) => failure ≠ none
    | .act failure => failure = none
    | _ => True where
  enter := rfl
  work := work_eq
  outside s act hC := by
    cases act with
    | setTime value failure =>
        obtain ⟨first, -, -, hset⟩ := setTime_eq s.state value failure
        obtain ⟨errno, rfl⟩ := Option.ne_none_iff_exists'.mp hC
        simp [service, hset]
    | cancel failure =>
        obtain ⟨errno, rfl⟩ := Option.ne_none_iff_exists'.mp hC
        exact Nat.le_refl _
    | expire => cases harmed : s.state.armed <;> simp [service, Timer.expire, harmed]
  ok s _ value timer _ hread := Nat.le_of_eq (readExpirations_eq_ok hread).2.1.symm
  error s _ _ exc timer hC _ hread := (readExpirations_eq_error hread).2 hC

/-- **Handed over in the round.** The expirations that are unread when a wait reports the timer are handed
to its functions before the loop waits again: as long as its lambda stays registered, nobody sets or
cancels the timer, the reads succeed and nobody stops the loop. -/
theorem expirations_le_handedAt_sum {epfd evtfd : Cmn.Fd} {wake : G} {k : κ} {e : ε}
    (batch : List Report) {r : Report}
    (ls ls' : List (SourcesLabel κ (Option Errno) TimerAct H G ι ε))
    {s u t : Sources κ Timer (CountPos H) H G ι ε}
    (hrun : (sources κ G ι ε service).run (.start epfd evtfd wake) ls = some s)
    (hwoken : (sources κ G ι ε service).step s (.loop (.exec e (.woken (.ok batch)))) = some u)
    (hrun' : (sources κ G ι ε service).run u ls' = some t)
    (hr : r ∈ batch) (hbit : r.events &&& epollIn ≠ 0#32)
    (hinstalled : (sources κ G ι ε service).Along (fun s _ => s.Installed k r.fd) u ls')
    (halone : ∀ l ∈ ls', LeftAlone k l)
    (hend : t.loop.execs e = .whileTest) (hrunning : t.loop.queue.state = .running) :
    (timerOf k s).expirations ≤ (handedAt k u ls').sum := by
  have hs := (Sources.inv_preserved service).run hrun (Sources.inv_start epfd evtfd wake)
  refine kept.round hs hwoken hrun' hr hbit hinstalled hend hrunning
    (((System.along_iff_forall_mem hrun').mpr halone).of_invariant (I := fun _ => True)
      (fun _ _ _ _ _ _ => trivial) (fun s l t _ halone _ a ha => ?_) hrun' trivial)
  cases Sources.shows_of_mem ha with
  | outside act =>
      cases act with
      | setTime value failure | cancel failure => exact halone rfl
      | expire => trivial
  | act e pos failure hframe => exact halone
  | _ => trivial

/-- It expires once more before the read. -/
theorem expirations_le_handedAt_sum_two :
    let exec : ExecAct (Callable (Nat × Nat) Nat) Nat →
        SourcesLabel Nat (Option Errno) TimerAct Nat Nat Nat Nat := fun act => .loop (.exec 0 act)
    let start : Sources Nat Timer (CountPos Nat) Nat Nat Nat Nat := .start ⟨3⟩ ⟨4⟩ 0
    let waiting : List (SourcesLabel Nat (Option Errno) TimerAct Nat Nat Nat Nat) :=
      [.construct none 0 5 none, .install none 0 (some 7) none,
        .outside 0 (.setTime ⟨⟨1, 0⟩, ⟨1, 0⟩⟩ none), .outside 0 .expire, exec .call, exec .step,
        exec (.drained (some eagain)), exec .step, exec .epollWait]
    let round : List (SourcesLabel Nat (Option Errno) TimerAct Nat Nat Nat Nat) :=
      [exec .step, exec .step, exec .step, exec .step, exec .step, exec .invoke, .outside 0 .expire,
        .act 0 none, exec (.callback (.throws (.std (.user "shot")))), exec .step, exec .step,
        exec .step, exec .step, exec .step, exec .step, exec .step]
    ∃ s u t, (sources Nat Nat Nat Nat service).run start waiting = some s ∧
      (sources Nat Nat Nat Nat service).step s (exec (.woken (.ok [⟨epollIn, 5⟩]))) = some u ∧
      (sources Nat Nat Nat Nat service).run u round = some t ∧ t.loop.execs 0 = .whileTest ∧
      (timerOf 0 s).expirations = 1 ∧ handedAt 0 u round = [2] ∧
      (timerOf 0 s).expirations ≤ (handedAt 0 u round).sum := by
  intro exec start waiting round
  have hrun : (sources Nat Nat Nat Nat service).run start waiting = some _ := rfl
  have halone : ∀ l ∈ round, LeftAlone 0 l := by simp [round, exec, LeftAlone]
  refine ⟨_, _, _, hrun, rfl, rfl, ?_, ?_, ?_, ?_⟩
  · rfl
  · rfl
  · rfl
  · refine expirations_le_handedAt_sum [⟨epollIn, 5⟩] waiting round (r := ⟨epollIn, 5⟩) (e := 0) hrun
      rfl rfl ?_ ?_ ?_ halone ?_ ?_
    · exact List.mem_singleton.mpr rfl
    · decide
    · decide +kernel
    · rfl
    · rfl

end TimerFd

end Suc.Epl
