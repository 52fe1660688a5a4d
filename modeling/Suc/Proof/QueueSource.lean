import Suc.Epl.Services
import Suc.Proof.Delivery
import Suc.Proof.Rounds

/-!
# Thread-safe queues on an event queue

The model of `ThreadSafeQueue` by itself takes the dispatch of its lambda for granted. On an event queue,
among any number of other sources and whatever their functions do, what becomes of a queue is a run of
that model: what it delivers, it delivers under the loop as well, and what is announced when a wait
reports the queue is delivered before the loop waits again.
-/

namespace Suc.Epl

open Transition

variable {κ T H G ι ε : Type}

/-! ### The queue by itself -/

def DispatchPos.func : DispatchPos T H → Option H
  | .reading func | .loop func _ | .handling func _ _ => some func
  | .idle | .crashed => none

namespace ThreadSafeQueue

/-- The queue, with the function whose copy is running for the handler that is set. -/
def ofSolo (s : Solo (Members T) (DispatchPos T H)) : ThreadSafeQueue T H :=
  s.state.queue (s.pos.bind DispatchPos.func) (s.pos.getD .idle)

def queueLabels (s : Solo (Members T) (DispatchPos T H)) :
    SoloLabel Unit (T × Option Errno) H → List (QueueLabel T H)
  | .outside op => [.enqueue op.1 op.2]
  | .enter func => [.onElement (some func), .dispatch]
  | .act _ =>
      match s.pos with
      | some (.reading _) => if s.state.counter = 0 then [.step, .onElement none] else [.step]
      | some (.loop _ 0) => [.step, .onElement none]
      | _ => [.step]
  | .returns => [.returns]
  | .throws (.std exc) => [.throws exc, .onElement none]
  -- what is thrown makes no difference to the queue
  | .throws .other => [.throws (.user ""), .onElement none]

theorem run_queueLabels {s t : Solo (Members T) (DispatchPos T H)}
    {l : SoloLabel Unit (T × Option Errno) H} (hstep : (service T H).solo.step s l = some t)
    (hbacked : (ofSolo s).Backed) :
    (threadSafeQueue T H).run (ofSolo s) (queueLabels s l) = some (ofSolo t) := by
  obtain ⟨⟨deque, counter⟩, pos⟩ := s
  cases l with
  | outside op =>
      cases hstep
      rfl
  | enter func =>
      cases pos with
      | none =>
          cases hstep
          rfl
      | some pos => cases hstep
  | act choice =>
      cases pos with
      | none => cases hstep
      | some pos =>
          cases pos with
          | reading func =>
              by_cases hcounter : counter = 0
              · subst hcounter
                cases hstep
                rfl
              · simp only [Service.solo, Service.soloStep, service, Option.bind_some, Option.map_some,
                  EventFd.shot_of_ne_zero hcounter, Option.some.injEq] at hstep
                subst hstep
                simp [queueLabels, hcounter, System.run_cons, threadSafeQueue, step, dispatchStep,
                  ofSolo, Members.queue, EventFd.shot_of_ne_zero hcounter, DispatchPos.func, Next.pos]
          | loop func i =>
              cases i with
              | zero =>
                  cases hstep
                  rfl
              | succ i =>
                  cases deque with
                  | nil =>
                      -- the deque backs what the loop has still to take
                      have hle := hbacked.le
                      simp [ofSolo, Members.queue, left] at hle
                  | cons ele deque =>
                      cases hstep
                      rfl
          | idle | handling | crashed => cases hstep
  | returns =>
      cases pos with
      | none => cases hstep
      | some pos =>
          cases pos with
          | handling func ele i =>
              cases hstep
              rfl
          | loop func i => cases i <;> cases hstep
          | _ => cases hstep
  | throws exc =>
      cases pos with
      | none => cases hstep
      | some pos =>
          cases pos with
          | handling func ele i =>
              cases hstep
              cases exc <;> rfl
          | loop func i => cases i <;> cases hstep
          | _ => cases hstep

/-- The elements that the queue is sent, and those that it hands to its function. -/
def elements (s : Solo (Members T) (DispatchPos T H)) (l : SoloLabel Unit (T × Option Errno) H) :
    List (ChannelLabel T) :=
  (threadSafeQueue T H).shown emits (ofSolo s) (queueLabels s l)

/-- What is shown of the queue is a run of the channel. -/
theorem elements_step {h : List (ChannelLabel T)} {held : List T}
    {s t : Solo (Members T) (DispatchPos T H)} {l : SoloLabel Unit (T × Option Errno) H}
    (hstep : (service T H).solo.step s l = some t)
    (hs : (channel T).run held h = some s.state.deque ∧ (ofSolo s).Backed) :
    (channel T).run held (h ++ elements s l) = some t.state.deque ∧ (ofSolo t).Backed := by
  have hlabels := run_queueLabels hstep hs.2
  exact ⟨System.run_append_eq_some _ |>.mpr ⟨s.state.deque, hs.1, run_channel hlabels⟩,
    backed_preserved.run hlabels hs.2⟩

theorem sent_shown_eq_nil {ls : List (QueueLabel T H)} (h : ∀ l ∈ ls, l.enqueues = false)
    (q : ThreadSafeQueue T H) : sent ((threadSafeQueue T H).shown emits q ls) = [] := by
  rw [sent, System.shown_filterMap]
  refine System.shown_eq_nil (fun q l hl => ?_) q
  have hsent := sent_emits q l
  rwa [enqueued_eq_nil (by simpa using h l hl)] at hsent

theorem received_shown_eq_nil {ls : List (QueueLabel T H)} (h : QueueLabel.step ∉ ls)
    (q : ThreadSafeQueue T H) : received ((threadSafeQueue T H).shown emits q ls) = [] := by
  rw [received, System.shown_filterMap]
  refine System.shown_eq_nil (fun q l hl => ?_) q
  cases l with
  | step => exact absurd hl h
  | _ => rfl

theorem sent_elements (s : Solo (Members T) (DispatchPos T H))
    (l : SoloLabel Unit (T × Option Errno) H) :
    sent (elements s l) = l.outside?.elim [] fun op => [op.1] := by
  cases l with
  | outside op => rfl
  | act choice =>
      refine sent_shown_eq_nil ?_ _
      simp only [queueLabels]
      split
      · split <;> simp [QueueLabel.enqueues]
      · simp [QueueLabel.enqueues]
      · simp [QueueLabel.enqueues]
  | throws exc =>
      refine sent_shown_eq_nil ?_ _
      cases exc <;> simp [queueLabels, QueueLabel.enqueues]
  | enter | returns => exact sent_shown_eq_nil (by simp [queueLabels, QueueLabel.enqueues]) _

theorem received_elements (s : Solo (Members T) (DispatchPos T H))
    (l : SoloLabel Unit (T × Option Errno) H) :
    received (elements s l) = match l, s.pos with
      | .act _, some (.loop _ (_ + 1)) => s.state.deque.take 1
      | _, _ => [] := by
  obtain ⟨⟨deque, counter⟩, pos⟩ := s
  cases l with
  | act choice =>
      cases pos with
      | none => rfl
      | some pos =>
          cases pos with
          | reading func =>
              by_cases hcounter : counter = 0
              · subst hcounter
                rfl
              · simp [elements, queueLabels, hcounter, System.shown, threadSafeQueue, step,
                  dispatchStep, ofSolo, Members.queue, EventFd.shot_of_ne_zero hcounter, received,
                  emits]
          | loop func i => cases i <;> cases deque <;> rfl
          | _ => rfl
  | outside | enter | returns => exact received_shown_eq_nil (by simp [queueLabels]) _
  | throws exc =>
      refine received_shown_eq_nil ?_ _
      cases exc <;> simp [queueLabels]

/-- A step that strands nothing is one whose write succeeds, and whose function does not throw with
elements of its batch left. -/
def Orderly (s : Solo (Members T) (DispatchPos T H)) : SoloLabel Unit (T × Option Errno) H → Prop
  | .outside op => op.2 = none
  | .throws _ => ∀ func ele i, s.pos = some (.handling func ele i) → i = 0
  | _ => True

theorem along_strands {s t : Solo (Members T) (DispatchPos T H)}
    {l : SoloLabel Unit (T × Option Errno) H} (hstep : (service T H).solo.step s l = some t)
    (horderly : Orderly s l) :
    (threadSafeQueue T H).Along (fun q l => q.strands l = 0) (ofSolo s) (queueLabels s l) := by
  have hone {q : ThreadSafeQueue T H} {l : QueueLabel T H} (h : q.strands l = 0) :
      (threadSafeQueue T H).Along (fun q l => q.strands l = 0) q [l] := ⟨h, fun _ _ => trivial⟩
  have htwo {q : ThreadSafeQueue T H} {l : QueueLabel T H} {func : Option H}
      (h : q.strands l = 0) :
      (threadSafeQueue T H).Along (fun q l => q.strands l = 0) q [l, .onElement func] :=
    ⟨h, fun _ _ => hone rfl⟩
  cases l with
  | outside op =>
      obtain ⟨ele, failure⟩ := op
      obtain rfl : failure = none := horderly
      exact hone rfl
  | enter func => exact ⟨rfl, fun _ _ => hone rfl⟩
  | act choice =>
      simp only [queueLabels]
      split
      · split
        · exact htwo rfl
        · exact hone rfl
      · exact htwo rfl
      · exact hone rfl
  | returns => exact hone rfl
  | throws exc =>
      obtain ⟨⟨deque, counter⟩, pos⟩ := s
      cases pos with
      | none => cases hstep
      | some pos =>
          cases pos with
          | handling func ele i =>
              obtain rfl : i = 0 := horderly func ele i rfl
              cases exc <;> exact htwo rfl
          | loop func i => cases i <;> cases hstep
          | _ => cases hstep

theorem announced_of_solo {s t : Solo (Members T) (DispatchPos T H)}
    {l : SoloLabel Unit (T × Option Errno) H} (hstep : (service T H).solo.step s l = some t)
    (horderly : Orderly s l) (hs : (ofSolo s).Announced) : (ofSolo t).Announced :=
  (along_strands hstep horderly).invariant (fun _ _ _ hstep hstrands hq => hq.step hstep hstrands)
    (run_queueLabels hstep hs.1) hs

/-- What a read of the counter leaves to announce has been enqueued since. -/
def Drained (h : List (ChannelLabel T)) (s : Solo (Members T) (DispatchPos T H)) : Prop :=
  (∃ func, s.pos = some (.reading func)) ∨ s.state.counter ≤ (sent h).length

theorem Drained.entered {h : List (ChannelLabel T)} {s t : Solo (Members T) (DispatchPos T H)}
    {func : H} (hstep : (service T H).solo.step s (.enter func) = some t) : Drained h t := by
  rw [(Service.eq_of_enter hstep).2]
  exact Or.inl ⟨func, rfl⟩

theorem Drained.step {h : List (ChannelLabel T)} {s t : Solo (Members T) (DispatchPos T H)}
    {l : SoloLabel Unit (T × Option Errno) H} (hstep : (service T H).solo.step s l = some t)
    (hs : Drained h s) : Drained (h ++ elements s l) t := by
  have hlength : (sent (h ++ elements s l)).length =
      (sent h).length + (l.outside?.elim [] fun op => [op.1]).length := by
    rw [← sent_elements, sent, sent, sent, List.filterMap_append, List.length_append]
  obtain ⟨⟨deque, counter⟩, pos⟩ := s
  rw [Drained, hlength]
  cases l with
  | outside op =>
      obtain ⟨ele, failure⟩ := op
      cases hstep
      refine hs.imp_right fun hle => ?_
      cases failure with
      | none => exact Nat.succ_le_succ hle
      | some errno => exact Nat.le_succ_of_le hle
  | enter func =>
      cases pos with
      | none =>
          cases hstep
          exact Or.inl ⟨func, rfl⟩
      | some pos => cases hstep
  | act choice =>
      cases pos with
      | none => cases hstep
      | some pos =>
          cases pos with
          | reading func =>
              -- whether or not there was anything to read
              refine Or.inr ?_
              by_cases hcounter : counter = 0
              · subst hcounter
                cases hstep
                exact Nat.zero_le _
              · simp only [Service.solo, Service.soloStep, service, Option.bind_some, Option.map_some,
                  EventFd.shot_of_ne_zero hcounter, Option.some.injEq] at hstep
                subst hstep
                exact Nat.zero_le _
          | loop func i =>
              have hle := hs.resolve_left (by simp)
              cases i with
              | zero =>
                  cases hstep
                  exact Or.inr hle
              | succ i =>
                  cases deque <;> cases hstep <;> exact Or.inr hle
          | idle | handling | crashed => cases hstep
  | returns =>
      cases pos with
      | none => cases hstep
      | some pos =>
          cases pos with
          | handling func ele i =>
              cases hstep
              exact Or.inr (hs.resolve_left (by simp))
          | loop func i => cases i <;> cases hstep
          | _ => cases hstep
  | throws exc =>
      cases pos with
      | none => cases hstep
      | some pos =>
          cases pos with
          | handling func ele i =>
              cases hstep
              exact Or.inr (hs.resolve_left (by simp))
          | loop func i => cases i <;> cases hstep
          | _ => cases hstep

end ThreadSafeQueue

/-! ### Many queues -/

namespace Sources

/-- What the members of a queue are, or were when it was destroyed. -/
def queueOf (s : Sources κ (ThreadSafeQueue.Members T) (DispatchPos T H) H G ι ε) (k : κ) :
    ThreadSafeQueue.Members T :=
  (s.source k).state ⟨[], 0⟩

end Sources

namespace ThreadSafeQueue

theorem announced_start (epfd evtfd : Cmn.Fd) (wake : G) (k : κ) :
    (ofSolo ((Sources.start epfd evtfd wake :
      Sources κ (Members T) (DispatchPos T H) H G ι ε).soloOf (service T H) k)).Announced := by
  rw [Sources.soloOf_start]
  exact ⟨backed_start, rfl⟩

theorem counter_eq_length {k : κ} {s : Sources κ (Members T) (DispatchPos T H) H G ι ε}
    (hpos : Sources.posOf s.frame k = none)
    (hannounced : (ofSolo (s.soloOf (service T H) k)).Announced) :
    (s.queueOf k).counter = (s.queueOf k).deque.length := by
  have heq := hannounced.2
  rw [left, ofSolo, Sources.soloOf, hpos] at heq
  exact heq

variable [DecidableEq κ]

/-- The elements that are enqueued at the queue, in the order in which the calls take its mutex. -/
def enqueuedAt (k : κ) (ls : List (SourcesLabel κ Unit (T × Option Errno) H G ι ε)) : List T :=
  (ls.filterMap (SourcesLabel.outside? k)).map Prod.fst

/-- The element that the lambda of the queue takes from it and hands to its function. -/
def handed (k : κ) (s : Sources κ (Members T) (DispatchPos T H) H G ι ε) :
    SourcesLabel κ Unit (T × Option Errno) H G ι ε → List T
  | .act e _ =>
      match s.frame e, s.source k with
      | some (k', .loop _ (_ + 1)), .alive _ m => if k' = k then m.deque.take 1 else []
      | _, _ => []
  | _ => []

theorem received_history (k : κ) {s : Sources κ (Members T) (DispatchPos T H) H G ι ε} (h : s.Inv)
    (l : SourcesLabel κ Unit (T × Option Errno) H G ι ε) :
    received (s.history (service T H) elements k l) = handed k s l := by
  have hreceived : received (s.history (service T H) elements k l) =
      (s.soloSteps (service T H) k l).flatMap fun a =>
        match a, Sources.posOf s.frame k with
        | .act _, some (.loop _ (_ + 1)) => (s.queueOf k).deque.take 1
        | _, _ => [] := by
    rw [received, Sources.history, List.filterMap_flatMap]
    congr 1
    funext a
    exact received_elements (s.soloOf (service T H) k) a
  rw [hreceived]
  cases l with
  | act e choice =>
      cases hframe : s.frame e with
      | none => simp [Sources.soloSteps, handed, hframe]
      | some r =>
          obtain ⟨k', pos⟩ := r
          by_cases heq : k' = k
          · subst heq
            have hpos := Sources.posOf_eq_some h hframe
            cases hsource : s.source k' <;> rcases pos with _ | _ | ⟨_, _ | i⟩ | _ | _ <;>
              simp [Sources.soloSteps, handed, hframe, hpos, hsource, service, Sources.queueOf,
                Source.state]
          · cases hsource : s.source k <;> rcases pos with _ | _ | ⟨_, _ | i⟩ | _ | _ <;>
              simp [Sources.soloSteps, handed, hframe, heq, hsource]
  | loop l =>
      refine List.flatMap_eq_nil_iff.mpr fun a ha => ?_
      cases a with
      | act choice => cases Sources.shows_of_mem ha
      | _ => rfl
  | outside k' op => by_cases heq : k' = k <;> simp [Sources.soloSteps, handed, heq]
  | _ => rfl

/-- The writes to the event descriptor of the queue succeed. -/
def WrittenAt (k : κ) : SourcesLabel κ Unit (T × Option Errno) H G ι ε → Prop
  | .outside k' op => k' = k → op.2 = none
  | _ => True

/-- The elements of its batch that a function of the queue leaves when it throws. -/
def abandonedAt (k : κ) (s : Sources κ (Members T) (DispatchPos T H) H G ι ε) :
    SourcesLabel κ Unit (T × Option Errno) H G ι ε → Nat
  | .loop (.exec e (.callback (.throws _))) =>
      match s.frame e with
      | some (k', .handling _ _ i) => if k' = k then i else 0
      | _ => 0
  | _ => 0

def KeepsBatchAt (k : κ) (s : Sources κ (Members T) (DispatchPos T H) H G ι ε)
    (l : SourcesLabel κ Unit (T × Option Errno) H G ι ε) : Prop :=
  abandonedAt k s l = 0

instance {k : κ} (s : Sources κ (Members T) (DispatchPos T H) H G ι ε)
    (l : SourcesLabel κ Unit (T × Option Errno) H G ι ε) : Decidable (KeepsBatchAt k s l) :=
  inferInstanceAs (Decidable (_ = 0))

theorem does_orderly {k : κ} {s : Sources κ (Members T) (DispatchPos T H) H G ι ε} (h : s.Inv)
    {l : SourcesLabel κ Unit (T × Option Errno) H G ι ε} (hwritten : WrittenAt k l)
    (hkeeps : KeepsBatchAt k s l) : s.Does (service T H) Orderly k l := by
  intro a ha
  cases Sources.shows_of_mem ha with
  | outside op => exact hwritten rfl
  | throws e pos exc hframe =>
      intro func ele i hpos
      rw [Sources.soloOf, Sources.posOf_eq_some h hframe] at hpos
      obtain rfl := Option.some.inj hpos
      simpa [KeepsBatchAt, abandonedAt, hframe] using hkeeps
  | _ => trivial

variable [DecidableEq ι] [DecidableEq ε]

def handedAt (k : κ) (s : Sources κ (Members T) (DispatchPos T H) H G ι ε)
    (ls : List (SourcesLabel κ Unit (T × Option Errno) H G ι ε)) : List T :=
  (sources κ G ι ε (service T H)).shown (handed k) s ls

section

variable {k : κ} {s t : Sources κ (Members T) (DispatchPos T H) H G ι ε}
  {ls : List (SourcesLabel κ Unit (T × Option Errno) H G ι ε)}
  (hrun : (sources κ G ι ε (service T H)).run s ls = some t) (hs : s.Inv)

include hrun hs

theorem run_elements (hbacked : (ofSolo (s.soloOf (service T H) k)).Backed) :
    (channel T).run (s.queueOf k).deque
        ((sources κ G ι ε (service T H)).shown (Sources.history (service T H) elements k) s ls) =
          some (t.queueOf k).deque ∧
      (ofSolo (t.soloOf (service T H) k)).Backed := by
  let J (h : List (ChannelLabel T)) (σ : Solo (Members T) (DispatchPos T H)) : Prop :=
    (channel T).run (s.queueOf k).deque h = some σ.state.deque ∧ (ofSolo σ).Backed
  have hend := Sources.history_preserved elements (J := J) (h := [])
    (fun _ _ _ _ hstep h => elements_step hstep h) hrun hs ⟨rfl, hbacked⟩
  rwa [List.nil_append] at hend

omit hs in
theorem sent_of_run : sent ((sources κ G ι ε (service T H)).shown
    (Sources.history (service T H) elements k) s ls) = enqueuedAt k ls :=
  (Sources.filterMap_shown_history sent_elements hrun).trans List.map_eq_flatMap.symm

theorem deque_append_enqueuedAt (hbacked : (ofSolo (s.soloOf (service T H) k)).Backed) :
    (s.queueOf k).deque ++ enqueuedAt k ls = handedAt k s ls ++ (t.queueOf k).deque := by
  have hreceived : received ((sources κ G ι ε (service T H)).shown
      (Sources.history (service T H) elements k) s ls) = handedAt k s ls := by
    rw [received, System.shown_filterMap]
    exact System.shown_congr (Sources.inv_preserved (service T H))
      (fun s l h => received_history k h l) hrun hs
  rw [← sent_of_run hrun, ← hreceived]
  exact append_sent_eq_received_append (run_elements hrun hs hbacked).1

theorem announced_of_run (hwritten : ∀ l ∈ ls, WrittenAt k l)
    (hkeeps : (sources κ G ι ε (service T H)).Along (KeepsBatchAt k) s ls)
    (hannounced : (ofSolo (s.soloOf (service T H) k)).Announced) :
    (ofSolo (t.soloOf (service T H) k)).Announced := by
  have horderly : (sources κ G ι ε (service T H)).Along
      (Sources.Does (service T H) Orderly k) s ls :=
    (((System.along_iff_forall_mem hrun).mpr hwritten).and hkeeps).of_invariant
      (fun _ _ _ hstep _ h => Sources.inv_preserved (service T H) hstep h)
      (fun _ _ _ _ hC h => does_orderly h hC.1 hC.2) hrun hs
  let J (_ : List (ChannelLabel T)) (σ : Solo (Members T) (DispatchPos T H)) : Prop :=
    (ofSolo σ).Announced
  exact Sources.history_invariant elements (J := J) (h := [])
    (fun _ _ _ _ hstep horderly h => announced_of_solo hstep horderly h) hrun hs horderly hannounced

end

/-- **Exactly once and in order, under the loop.** Among any number of sources on an event queue, with
functions that do whatever user code may: what a queue has handed to its functions, followed by its
deque, is what has been enqueued at it, and its lambda has not taken an element from an empty deque.
When its writes succeed and its functions keep their batches, each element is announced as long as its
lambda does not run. -/
theorem handedAt_append_deque {epfd evtfd : Cmn.Fd} {wake : G} (k : κ)
    {ls : List (SourcesLabel κ Unit (T × Option Errno) H G ι ε)}
    {s : Sources κ (Members T) (DispatchPos T H) H G ι ε}
    (hrun : (sources κ G ι ε (service T H)).run (.start epfd evtfd wake) ls = some s) :
    handedAt k (.start epfd evtfd wake) ls ++ (s.queueOf k).deque = enqueuedAt k ls ∧
      (∀ e, s.frame e ≠ some (k, .crashed)) ∧
      ((∀ l ∈ ls, WrittenAt k l) →
        (sources κ G ι ε (service T H)).Along (KeepsBatchAt k) (.start epfd evtfd wake) ls →
        (∀ e pos, s.frame e ≠ some (k, pos)) →
          (s.queueOf k).counter = (s.queueOf k).deque.length) := by
  have hstart := Sources.inv_start (κ := κ) (δ := Members T) (π := DispatchPos T H) (H := H)
    (ι := ι) (ε := ε) epfd evtfd wake
  have hannounced := announced_start (T := T) (H := H) (ι := ι) (ε := ε) epfd evtfd wake k
  refine ⟨(deque_append_enqueuedAt hrun hstart hannounced.1).symm, fun e hframe => ?_,
    fun hwritten hkeeps hnone => ?_⟩
  · have hbacked := (run_elements hrun hstart hannounced.1).2
    have hpos := Sources.posOf_eq_some ((Sources.inv_preserved _).run hrun hstart) hframe
    exact hbacked.not_crashed (by simp [ofSolo, Members.queue, Sources.soloOf, hpos])
  · exact counter_eq_length (Sources.posOf_eq_none hnone)
      (announced_of_run hrun hstart hwritten hkeeps hannounced)

/-- A function of one queue enqueues at another one; it throws at the last element of its batch. -/
theorem handedAt_append_deque_two :
    let exec : ExecAct (Callable (Nat × Nat) Nat) Nat →
        SourcesLabel Nat Unit (Nat × Option Errno) Nat Nat Nat Nat := fun act => .loop (.exec 0 act)
    let start : Sources Nat (Members Nat) (DispatchPos Nat Nat) Nat Nat Nat Nat := .start ⟨3⟩ ⟨4⟩ 0
    let labels : List (SourcesLabel Nat Unit (Nat × Option Errno) Nat Nat Nat Nat) :=
      [.construct none 0 5 none, .install none 0 (some 7) none, .construct none 1 6 none,
        .install none 1 (some 8) none, .outside 0 (1, none), .outside 0 (2, none), exec .call,
        exec .step, exec (.drained (some eagain)), exec .step, exec .epollWait,
        exec (.woken (.ok [⟨epollIn, 5⟩])), exec .step, exec .step, exec .step, exec .step,
        exec .step, exec .invoke, .act 0 (), .act 0 (), .outside 1 (10, none),
        exec (.callback .returns), .act 0 (), exec (.callback (.throws (.std (.user "handler"))))]
    ∃ s, (sources Nat Nat Nat Nat (service Nat Nat)).run start labels = some s ∧
      handedAt 0 start labels = [1, 2] ∧ (s.queueOf 1).deque = [10] ∧
      (s.queueOf 1).counter = (s.queueOf 1).deque.length := by
  intro exec start labels
  have hwritten : ∀ l ∈ labels, WrittenAt 1 l := by simp [labels, exec, WrittenAt]
  have hkeeps : (sources Nat Nat Nat Nat (service Nat Nat)).Along (KeepsBatchAt 1) start labels := by
    decide +kernel
  refine ⟨_, rfl, rfl, rfl, (handedAt_append_deque 1 rfl).2.2 hwritten hkeeps fun e pos hframe => ?_⟩
  cases e <;> cases hframe

/-- **Delivered in the round.** When a wait reports a queue whose elements are all announced, the elements
that it holds then are handed to its functions before the loop waits again: as long as its lambda stays
registered, its functions keep their batches, its writes succeed and nobody stops the loop. -/
theorem deque_prefix_handedAt {epfd evtfd : Cmn.Fd} {wake : G} {k : κ} {e : ε}
    (batch : List Report) {r : Report}
    (ls ls' : List (SourcesLabel κ Unit (T × Option Errno) H G ι ε))
    {s u t : Sources κ (Members T) (DispatchPos T H) H G ι ε}
    (hrun : (sources κ G ι ε (service T H)).run (.start epfd evtfd wake) ls = some s)
    (hwoken : (sources κ G ι ε (service T H)).step s (.loop (.exec e (.woken (.ok batch)))) = some u)
    (hrun' : (sources κ G ι ε (service T H)).run u ls' = some t)
    (hr : r ∈ batch) (hbit : r.events &&& epollIn ≠ 0#32)
    (hinstalled : (sources κ G ι ε (service T H)).Along (fun s _ => s.Installed k r.fd) u ls')
    (hwritten : ∀ l ∈ ls ++ ls', WrittenAt k l)
    (hkeeps : (sources κ G ι ε (service T H)).Along (KeepsBatchAt k) (.start epfd evtfd wake) ls)
    (hkeeps' : (sources κ G ι ε (service T H)).Along (KeepsBatchAt k) u ls')
    (hend : t.loop.execs e = .whileTest) (hrunning : t.loop.queue.state = .running) :
    (s.queueOf k).deque <+: handedAt k u ls' := by
  have hstart := Sources.inv_start (κ := κ) (δ := Members T) (π := DispatchPos T H) (H := H)
    (ι := ι) (ε := ε) epfd evtfd wake
  have hs := (Sources.inv_preserved (service T H)).run hrun hstart
  have hu := Sources.inv_preserved (service T H) hwoken hs
  have hannounced := announced_of_run hrun hstart
    (fun l hl => hwritten l (List.mem_append_left ls' hl)) hkeeps (announced_start epfd evtfd wake k)
  obtain ⟨hsource, hframe, -⟩ := Sources.of_woken hwoken
  have hsolo : u.soloOf (service T H) k = s.soloOf (service T H) k := by
    rw [Sources.soloOf, Sources.soloOf, hsource, hframe]
  have hqueue : u.queueOf k = s.queueOf k := by rw [Sources.queueOf, Sources.queueOf, hsource]
  rw [← hsolo] at hannounced
  have hend' := announced_of_run hrun' hu
    (fun l hl => hwritten l (List.mem_append_right ls hl)) hkeeps' hannounced
  have htotal := deque_append_enqueuedAt hrun' hu hannounced.1
  rw [hqueue] at htotal
  -- what is announced at the end has been enqueued in the round
  obtain ⟨hdrained, hpos⟩ := Sources.round_invariant elements (C := fun _ _ => True)
    (J := fun _ _ => True) (K := Drained) (fun _ _ _ _ _ _ => id)
    (fun _ _ func _ hstep _ => .entered hstep) (fun _ _ _ _ hstep _ => .step hstep) hs hwoken hrun'
    hr hbit hinstalled hend hrunning (System.along_of_forall _ (fun _ _ _ _ => trivial) u ls') trivial
  have hleft := counter_eq_length hpos hend'
  have hcounter : (t.queueOf k).counter ≤ (enqueuedAt k ls').length := by
    rw [← sent_of_run hrun']
    refine hdrained.resolve_left ?_
    rw [hpos]
    simp
  have hlength := congrArg List.length htotal
  rw [List.length_append, List.length_append, ← hleft] at hlength
  exact List.prefix_of_prefix_length_le ⟨_, htotal⟩ ⟨_, rfl⟩ (by omega)

/-- Both elements that are queued when the wait reports the queue; a third one comes too late. -/
theorem deque_prefix_handedAt_two :
    let exec : ExecAct (Callable (Nat × Nat) Nat) Nat →
        SourcesLabel Nat Unit (Nat × Option Errno) Nat Nat Nat Nat := fun act => .loop (.exec 0 act)
    let start : Sources Nat (Members Nat) (DispatchPos Nat Nat) Nat Nat Nat Nat := .start ⟨3⟩ ⟨4⟩ 0
    let waiting : List (SourcesLabel Nat Unit (Nat × Option Errno) Nat Nat Nat Nat) :=
      [.construct none 0 5 none, .install none 0 (some 7) none, .outside 0 (1, none),
        .outside 0 (2, none), exec .call, exec .step, exec (.drained (some eagain)), exec .step,
        exec .epollWait]
    let round : List (SourcesLabel Nat Unit (Nat × Option Errno) Nat Nat Nat Nat) :=
      [exec .step, exec .step, exec .step, exec .step, exec .step, exec .invoke, .act 0 (),
        .outside 0 (3, none), .act 0 (), exec (.callback .returns), .act 0 (),
        exec (.callback .returns), .act 0 (), exec .step, exec .step, exec .step, exec .step,
        exec .step, exec .step, exec .step]
    ∃ s u t, (sources Nat Nat Nat Nat (service Nat Nat)).run start waiting = some s ∧
      (sources Nat Nat Nat Nat (service Nat Nat)).step s (exec (.woken (.ok [⟨epollIn, 5⟩]))) =
        some u ∧
      (sources Nat Nat Nat Nat (service Nat Nat)).run u round = some t ∧
      t.loop.execs 0 = .whileTest ∧ (s.queueOf 0).deque = [1, 2] ∧ (t.queueOf 0).deque = [3] ∧
      (s.queueOf 0).deque <+: handedAt 0 u round := by
  intro exec start waiting round
  have hwritten : ∀ l ∈ waiting ++ round, WrittenAt 0 l := by
    simp [waiting, round, exec, WrittenAt]
  have hkeeps : (sources Nat Nat Nat Nat (service Nat Nat)).Along (KeepsBatchAt 0) start waiting := by
    decide +kernel
  refine ⟨_, _, _, rfl, rfl, rfl, ?_, ?_, ?_, ?_⟩
  · rfl
  · rfl
  · rfl
  · refine deque_prefix_handedAt [⟨epollIn, 5⟩] waiting round (r := ⟨epollIn, 5⟩) (e := 0) rfl rfl
      rfl ?_ ?_ ?_ hwritten hkeeps ?_ ?_ ?_
    · exact List.mem_singleton.mpr rfl
    · decide
    · decide +kernel
    · decide +kernel
    · rfl
    · rfl

end ThreadSafeQueue

end Suc.Epl
