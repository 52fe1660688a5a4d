import Suc.Proof.CountSource
import Suc.Transition.Channel

/-!
# Event descriptors on an event queue

What is added to an `EventFd` is in its counter until its lambda reads it. The numbers that the functions
are called with add up to what has been added and read, the counter never reaches the largest 64-bit
number, and what is added before a wait reports the descriptor is read before the loop waits again.
-/

namespace Suc.Epl

open Transition

variable {κ H G ι ε : Type}

namespace EventFd

variable {semaphore : Bool}

theorem refuses_eq_none {counter value : Nat} :
    refuses counter value = none ↔ counter + value < 2 ^ 64 - 1 := by
  unfold refuses
  split
  · exact iff_of_false (Option.some_ne_none _) (by omega)
  · split
    · exact iff_of_true rfl ‹_›
    · exact iff_of_false (Option.some_ne_none _) ‹_›

/-- The numbers that are added, and those that functions are called with. -/
def numbers (semaphore : Bool) (s : Solo Nat (CountPos H)) :
    SoloLabel Unit (BitVec 64) H → List (ChannelLabel Nat)
  | .outside value => if refuses s.state value.toNat = none then [.send value.toNat] else []
  | l => (CountPos.given (fun _ => shot semaphore) s l).map .receive

/-- What a read gives. -/
def available (semaphore : Bool) (counter : Nat) : Nat :=
  if semaphore then min 1 counter else counter

theorem available_le (semaphore : Bool) (counter : Nat) : available semaphore counter ≤ counter := by
  cases semaphore
  · exact Nat.le_refl _
  · exact Nat.min_le_right ..

theorem available_pos {counter : Nat} (hcounter : 0 < counter) : 0 < available semaphore counter := by
  cases semaphore
  · exact hcounter
  · exact Nat.lt_min.mpr ⟨Nat.one_pos, hcounter⟩

theorem available_mono (semaphore : Bool) {counter counter' : Nat} (hle : counter ≤ counter') :
    available semaphore counter ≤ available semaphore counter' := by
  cases semaphore <;> simp only [available, Bool.false_eq_true, if_true, if_false] <;> omega

theorem shot_cases (semaphore : Bool) (counter : Nat) :
    (counter = 0 ∧ ∃ exc, shot semaphore counter = (.error exc, 0)) ∨
      0 < counter ∧ shot semaphore counter =
        (.ok (available semaphore counter), counter - available semaphore counter) := by
  by_cases hcounter : counter = 0
  · subst hcounter
    exact Or.inl ⟨rfl, _, rfl⟩
  · have hpos : 0 < counter := Nat.pos_of_ne_zero hcounter
    refine Or.inr ⟨hpos, ?_⟩
    cases semaphore
    · simp [shot, read, hcounter, available]
    · have hmin : min 1 counter = 1 := by omega
      simp [shot, read, hcounter, available, hmin]

theorem shot_eq_ok {counter value counter' : Nat}
    (h : shot semaphore counter = (.ok value, counter')) :
    0 < counter ∧ value = available semaphore counter ∧ counter' = counter - value := by
  rcases shot_cases semaphore counter with ⟨-, exc, hshot⟩ | ⟨hcounter, hshot⟩
  · rw [hshot] at h
    cases h
  · rw [hshot] at h
    cases h
    exact ⟨hcounter, rfl, rfl⟩

theorem shot_eq_error {counter counter' : Nat} {exc : Exception}
    (h : shot semaphore counter = (.error exc, counter')) : counter = 0 ∧ counter' = 0 := by
  rcases shot_cases semaphore counter with ⟨hzero, exc, hshot⟩ | ⟨-, hshot⟩
  · rw [hshot] at h
    cases h
    exact ⟨hzero, rfl⟩
  · rw [hshot] at h
    cases h

/-- Nothing is lost, and the counter does not overflow. -/
structure Balanced (semaphore : Bool) (h : List (ChannelLabel Nat))
    (s : Solo Nat (CountPos H)) : Prop where
  sum : (sent h).sum = (received h).sum + s.state
  lt : s.state < 2 ^ 64 - 1
  pos : ∀ value ∈ received h, 0 < value
  one : semaphore → ∀ value ∈ received h, value = 1

theorem Balanced.same {h : List (ChannelLabel Nat)} {s t : Solo Nat (CountPos H)}
    (hs : Balanced semaphore h s) (hstate : t.state = s.state) :
    Balanced semaphore (h ++ []) t := by
  rw [List.append_nil]
  exact ⟨hstate ▸ hs.sum, hstate ▸ hs.lt, hs.pos, hs.one⟩

theorem Balanced.added {h : List (ChannelLabel Nat)} {s : Solo Nat (CountPos H)}
    (hs : Balanced semaphore h s) {value : Nat} (hvalue : s.state + value < 2 ^ 64 - 1) :
    Balanced semaphore (h ++ [.send value]) { s with state := s.state + value } where
  sum := by
    have hsum := hs.sum
    simp only [sent_append, received_append, sent_send, received_send, List.sum_append,
      List.sum_singleton, List.append_nil]
    omega
  lt := hvalue
  pos := by simpa using hs.pos
  one := by simpa using hs.one

theorem Balanced.taken {h : List (ChannelLabel Nat)} {s : Solo Nat (CountPos H)}
    (hs : Balanced semaphore h s) {value : Nat} (hvalue : 0 < value) (hle : value ≤ s.state)
    (hone : semaphore → value = 1) (pos : Option (CountPos H)) :
    Balanced semaphore (h ++ [.receive value]) ⟨s.state - value, pos⟩ where
  sum := by
    have hsum := hs.sum
    simp only [sent_append, received_append, sent_receive, received_receive, List.sum_append,
      List.sum_singleton, List.append_nil]
    omega
  lt := Nat.lt_of_le_of_lt (Nat.sub_le ..) hs.lt
  pos := by
    simp only [received_append, received_receive, List.mem_append, List.mem_singleton]
    rintro v (hv | rfl)
    · exact hs.pos v hv
    · exact hvalue
  one := by
    simp only [received_append, received_receive, List.mem_append, List.mem_singleton]
    rintro hsemaphore v (hv | rfl)
    · exact hs.one hsemaphore v hv
    · exact hone hsemaphore

theorem Balanced.step {h : List (ChannelLabel Nat)} {s t : Solo Nat (CountPos H)}
    {l : SoloLabel Unit (BitVec 64) H} (hstep : (service semaphore).solo.step s l = some t)
    (hs : Balanced semaphore h s) : Balanced semaphore (h ++ numbers semaphore s l) t := by
  cases l with
  | outside value =>
      cases hstep
      cases hrefuses : refuses s.state value.toNat with
      | none =>
          have hadded := hs.added (refuses_eq_none.mp hrefuses)
          simpa [numbers, hrefuses, service, add] using hadded
      | some errno =>
          have hsame : Balanced semaphore (h ++ []) s := hs.same rfl
          simpa [numbers, hrefuses, service, add] using hsame
  | enter func =>
      obtain ⟨-, rfl⟩ := Service.eq_of_enter hstep
      exact hs.same rfl
  | act choice =>
      rcases CountPos.act_cases rfl hstep with ⟨func, value, counter, hpos, hread, rfl⟩ |
        ⟨func, exc, counter, hpos, hread, rfl⟩ | ⟨hpos, rfl⟩
      · obtain ⟨hcounter, rfl, rfl⟩ := shot_eq_ok hread
        have hone : semaphore → available semaphore s.state = 1 := fun hsemaphore => by
          rw [hsemaphore, available, if_pos rfl, Nat.min_eq_left hcounter]
        have htaken := hs.taken (available_pos hcounter) (available_le ..) hone
          (some (.calling func (available semaphore s.state)))
        simpa [numbers, CountPos.given, hpos, hread, Except.toOption] using htaken
      · obtain ⟨hzero, rfl⟩ := shot_eq_error hread
        have hsame : Balanced semaphore (h ++ []) (⟨0, none⟩ : Solo Nat (CountPos H)) :=
          hs.same hzero.symm
        simpa [numbers, CountPos.given, hpos, hread, Except.toOption] using hsame
      · have hsame : Balanced semaphore (h ++ []) (⟨s.state, none⟩ : Solo Nat (CountPos H)) :=
          hs.same rfl
        simpa [numbers, CountPos.given, hpos] using hsame
  | returns =>
      obtain ⟨pos, back, -, -, rfl⟩ := Service.eq_of_returns hstep
      exact hs.same rfl
  | throws exc =>
      obtain ⟨pos, back, -, -, rfl⟩ := Service.eq_of_throws hstep
      exact hs.same rfl

/-- What is in the counter stays there until it is read. -/
theorem kept (semaphore : Bool) :
    CountPos.Kept (service (H := H) semaphore) (fun _ => shot semaphore) (available semaphore)
      fun _ _ => True where
  enter := rfl
  work := rfl
  outside s value _ := by
    refine available_mono semaphore ?_
    simp only [service, add]
    split
    · exact Nat.le_add_right ..
    · exact Nat.le_refl _
  ok s _ value counter _ hread := Nat.le_of_eq (shot_eq_ok hread).2.1.symm
  error s _ _ exc counter _ _ hread := by
    have hle := available_le semaphore s.state
    have hzero := (shot_eq_error hread).1
    omega

/-! ### Many descriptors -/

/-- What the counter of a descriptor is, or was when it was closed. -/
def counterOf (k : κ) (s : Sources κ Nat (CountPos H) H G ι ε) : Nat := (s.source k).state 0

variable [DecidableEq κ]

/-- The number that is added, unless the write fails. -/
def added (k : κ) (s : Sources κ Nat (CountPos H) H G ι ε) :
    SourcesLabel κ Unit (BitVec 64) H G ι ε → List Nat
  | .outside k' value =>
      if k' = k ∧ refuses (counterOf k s) value.toNat = none then [value.toNat] else []
  | _ => []

theorem numbers_history (k : κ) {s : Sources κ Nat (CountPos H) H G ι ε} (h : s.Inv)
    (l : SourcesLabel κ Unit (BitVec 64) H G ι ε) :
    s.history (service semaphore) (numbers semaphore) k l =
      (added k s l).map .send ++
        (CountPos.handed (fun _ => shot semaphore) k s l).map .receive := by
  have hwork : (service (H := H) semaphore).work = countWork fun _ => shot semaphore := rfl
  have hgiven := CountPos.given_history hwork k h l
  cases l with
  | outside k' value =>
      by_cases heq : k' = k
      · subst heq
        by_cases hrefuses : refuses ((s.source k').state 0) value.toNat = none <;>
          simp [Sources.history, Sources.soloSteps, Sources.soloOf, service, numbers, added,
            CountPos.handed, counterOf, hrefuses]
      · simp [Sources.history, Sources.soloSteps, added, CountPos.handed, heq]
  | _ =>
      refine Eq.trans ?_ (congrArg (List.map ChannelLabel.receive) hgiven)
      rw [Sources.history, Sources.history, List.map_flatMap]
      refine List.flatMap_congr fun a ha => ?_
      cases Sources.shows_of_mem ha <;> rfl

variable [DecidableEq ι] [DecidableEq ε]

/-- What is added to the descriptor in a run. -/
def addedAt (semaphore : Bool) (k : κ) (s : Sources κ Nat (CountPos H) H G ι ε)
    (ls : List (SourcesLabel κ Unit (BitVec 64) H G ι ε)) : List Nat :=
  (sources κ G ι ε (service semaphore)).shown (added k) s ls

/-- The numbers that its functions are called with. -/
def handedAt (semaphore : Bool) (k : κ) (s : Sources κ Nat (CountPos H) H G ι ε)
    (ls : List (SourcesLabel κ Unit (BitVec 64) H G ι ε)) : List Nat :=
  CountPos.handedAt (service semaphore) (fun _ => shot semaphore) k s ls

section

variable {k : κ} {s t : Sources κ Nat (CountPos H) H G ι ε}
  {ls : List (SourcesLabel κ Unit (BitVec 64) H G ι ε)}
  (hrun : (sources κ G ι ε (service semaphore)).run s ls = some t) (hs : s.Inv)

include hrun hs

theorem sent_of_run : sent ((sources κ G ι ε (service semaphore)).shown
    (Sources.history (service semaphore) (numbers semaphore) k) s ls) = addedAt semaphore k s ls := by
  rw [sent, System.shown_filterMap]
  refine System.shown_congr (Sources.inv_preserved (service semaphore)) (fun s l h => ?_) hrun hs
  rw [numbers_history k h]
  simp [List.filterMap_append, List.filterMap_map]

theorem received_of_run : received ((sources κ G ι ε (service semaphore)).shown
    (Sources.history (service semaphore) (numbers semaphore) k) s ls) =
      handedAt semaphore k s ls := by
  rw [received, System.shown_filterMap]
  refine System.shown_congr (Sources.inv_preserved (service semaphore)) (fun s l h => ?_) hrun hs
  rw [numbers_history k h]
  simp [List.filterMap_append, List.filterMap_map]

end

/-- **Nothing that is added is lost.** Among any number of event descriptors on an event queue, with
functions that do whatever user code may: what a descriptor has been added is what its functions have
been called with, and what its counter holds. The counter stays below the largest 64-bit number, and
no function is called with zero, nor with any number but one for a semaphore. -/
theorem addedAt_sum_eq {epfd evtfd : Cmn.Fd} {wake : G} (k : κ)
    {ls : List (SourcesLabel κ Unit (BitVec 64) H G ι ε)} {s : Sources κ Nat (CountPos H) H G ι ε}
    (hrun : (sources κ G ι ε (service semaphore)).run (.start epfd evtfd wake) ls = some s) :
    (addedAt semaphore k (.start epfd evtfd wake) ls).sum =
        (handedAt semaphore k (.start epfd evtfd wake) ls).sum + counterOf k s ∧
      counterOf k s < 2 ^ 64 - 1 ∧
      ∀ value ∈ handedAt semaphore k (.start epfd evtfd wake) ls,
        0 < value ∧ (semaphore → value = 1) := by
  have hstart := Sources.inv_start (κ := κ) (δ := Nat) (π := CountPos H) (H := H) (ι := ι) (ε := ε)
    epfd evtfd wake
  have hbalanced : Balanced semaphore [] ((Sources.start epfd evtfd wake :
      Sources κ Nat (CountPos H) H G ι ε).soloOf (service semaphore) k) := by
    rw [Sources.soloOf_start]
    exact ⟨rfl, Nat.sub_pos_of_lt (Nat.one_lt_two_pow (by decide)), List.forall_mem_nil _,
      fun _ => List.forall_mem_nil _⟩
  have hend := Sources.history_preserved (numbers semaphore)
    (fun _ _ _ _ hstep h => Balanced.step hstep h) hrun hstart hbalanced
  rw [List.nil_append] at hend
  obtain ⟨hsum, hlt, hpos, hone⟩ := hend
  rw [sent_of_run hrun hstart, received_of_run hrun hstart] at hsum
  rw [received_of_run hrun hstart] at hpos hone
  exact ⟨hsum, hlt, fun value hvalue => ⟨hpos value hvalue, fun hsemaphore =>
    hone hsemaphore value hvalue⟩⟩

/-- What is added while the lambda is between its read and its function is read the next time. -/
theorem addedAt_sum_eq_twice :
    let exec : ExecAct (Callable (Nat × Nat) Nat) Nat →
        SourcesLabel Nat Unit (BitVec 64) Nat Nat Nat Nat := fun act => .loop (.exec 0 act)
    let start : Sources Nat Nat (CountPos Nat) Nat Nat Nat Nat := .start ⟨3⟩ ⟨4⟩ 0
    let labels : List (SourcesLabel Nat Unit (BitVec 64) Nat Nat Nat Nat) :=
      [.construct none 0 5 none, .install none 0 (some 7) none, .outside 0 2, .outside 0 3,
        .outside 0 (BitVec.allOnes 64), exec .call, exec .step, exec (.drained (some eagain)),
        exec .step, exec .epollWait, exec (.woken (.ok [⟨epollIn, 5⟩])), exec .step, exec .step,
        exec .step, exec .step, exec .step, exec .invoke, .act 0 (), .outside 0 4,
        exec (.callback .returns)]
    ∃ s, (sources Nat Nat Nat Nat (service false)).run start labels = some s ∧
      handedAt false 0 start labels = [5] ∧ counterOf 0 s = 4 ∧
      (addedAt false 0 start labels).sum = (handedAt false 0 start labels).sum + counterOf 0 s := by
  intro exec start labels
  exact ⟨_, rfl, rfl, rfl, (addedAt_sum_eq 0 rfl).1⟩

/-- **Read in the round.** When a wait reports a descriptor, its functions are called with what a read
could have given at that time, or more, before the loop waits again: as long as its lambda stays
registered and nobody stops the loop, and whether or not a function throws. -/
theorem available_le_handedAt_sum {epfd evtfd : Cmn.Fd} {wake : G} {k : κ} {e : ε}
    (batch : List Report) {r : Report}
    (ls ls' : List (SourcesLabel κ Unit (BitVec 64) H G ι ε))
    {s u t : Sources κ Nat (CountPos H) H G ι ε}
    (hrun : (sources κ G ι ε (service semaphore)).run (.start epfd evtfd wake) ls = some s)
    (hwoken : (sources κ G ι ε (service semaphore)).step s (.loop (.exec e (.woken (.ok batch)))) =
      some u)
    (hrun' : (sources κ G ι ε (service semaphore)).run u ls' = some t)
    (hr : r ∈ batch) (hbit : r.events &&& epollIn ≠ 0#32)
    (hinstalled : (sources κ G ι ε (service semaphore)).Along (fun s _ => s.Installed k r.fd) u ls')
    (hend : t.loop.execs e = .whileTest) (hrunning : t.loop.queue.state = .running) :
    available semaphore (counterOf k s) ≤ (handedAt semaphore k u ls').sum := by
  have hs := (Sources.inv_preserved (service semaphore)).run hrun (Sources.inv_start epfd evtfd wake)
  exact (kept semaphore).round hs hwoken hrun' hr hbit hinstalled hend hrunning
    (System.along_of_forall _ (fun _ _ _ _ => trivial) u ls')

/-- A semaphore gives one of the two that it holds. -/
theorem available_le_handedAt_sum_one :
    let exec : ExecAct (Callable (Nat × Nat) Nat) Nat →
        SourcesLabel Nat Unit (BitVec 64) Nat Nat Nat Nat := fun act => .loop (.exec 0 act)
    let start : Sources Nat Nat (CountPos Nat) Nat Nat Nat Nat := .start ⟨3⟩ ⟨4⟩ 0
    let waiting : List (SourcesLabel Nat Unit (BitVec 64) Nat Nat Nat Nat) :=
      [.construct none 0 5 none, .install none 0 (some 7) none, .outside 0 2, exec .call,
        exec .step, exec (.drained (some eagain)), exec .step, exec .epollWait]
    let round : List (SourcesLabel Nat Unit (BitVec 64) Nat Nat Nat Nat) :=
      [exec .step, exec .step, exec .step, exec .step, exec .step, exec .invoke, .act 0 (),
        exec (.callback (.throws (.std (.user "shot")))), exec .step, exec .step, exec .step,
        exec .step, exec .step, exec .step, exec .step]
    ∃ s u t, (sources Nat Nat Nat Nat (service true)).run start waiting = some s ∧
      (sources Nat Nat Nat Nat (service true)).step s (exec (.woken (.ok [⟨epollIn, 5⟩]))) = some u ∧
      (sources Nat Nat Nat Nat (service true)).run u round = some t ∧
      t.loop.execs 0 = .whileTest ∧ counterOf 0 s = 2 ∧ counterOf 0 t = 1 ∧
      available true (counterOf 0 s) ≤ (handedAt true 0 u round).sum := by
  intro exec start waiting round
  have hrun : (sources Nat Nat Nat Nat (service true)).run start waiting = some _ := rfl
  refine ⟨_, _, _, hrun, rfl, rfl, ?_, ?_, ?_, ?_⟩
  · rfl
  · rfl
  · rfl
  · refine available_le_handedAt_sum [⟨epollIn, 5⟩] waiting round (r := ⟨epollIn, 5⟩) (e := 0) hrun
      rfl rfl ?_ ?_ ?_ ?_ ?_
    · exact List.mem_singleton.mpr rfl
    · decide
    · decide +kernel
    · rfl
    · rfl

end EventFd

end Suc.Epl
