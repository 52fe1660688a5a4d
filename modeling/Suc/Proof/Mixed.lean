import Suc.Epl.Mixed
import Suc.Proof.CounterSource
import Suc.Proof.QueueSource
import Suc.Proof.SignalSource
import Suc.Proof.SourceLifetime
import Suc.Proof.TimerSource

/-!
# Programs with sources of all kinds

What holds of the sources of each kind holds in a program that mixes them: what a step does to an
object is a step of one kind, and leaves what it holds of the others.
-/

namespace Suc.Epl

open Transition

variable {τ : Type} [DecidableEq τ]

section

variable {β : τ → Type}

@[simp]
theorem ofKind_self (i : τ) (b : β i) : ofKind i ⟨i, b⟩ = some b := dif_pos rfl

theorem ofKind_of_ne {i : τ} {x : Sigma β} (hne : x.1 ≠ i) : ofKind i x = none := dif_neg hne

end

/-! ### One kind of an object -/

section

variable {δ π α ο H : τ → Type} {μ : Type}

def Solo.ofKind (i : τ) (s : Solo (∀ i, δ i) (Sigma π)) : Solo (δ i) (π i) :=
  ⟨s.state i, s.pos.bind (Epl.ofKind i)⟩

/-- What a step of an object is to one of its kinds. -/
def SoloLabel.ofKind (i : τ) (s : Solo (∀ i, δ i) (Sigma π)) :
    SoloLabel (∀ i, α i) (Sigma ο) (Sigma H) → Option (SoloLabel (α i) (ο i) (H i))
  | .outside op => (Epl.ofKind i op).map .outside
  | .enter func => (Epl.ofKind i func).map .enter
  | .act choice => (s.ofKind i).pos.map fun _ => .act (choice i)
  | .returns => (s.ofKind i).pos.map fun _ => .returns
  | .throws exc => (s.ofKind i).pos.map fun _ => .throws exc

/-- What is shown of one kind of an object. -/
def emitOfKind (i : τ) (emit : Solo (δ i) (π i) → SoloLabel (α i) (ο i) (H i) → List μ)
    (s : Solo (∀ i, δ i) (Sigma π)) (l : SoloLabel (∀ i, α i) (Sigma ο) (Sigma H)) : List μ :=
  (l.ofKind i s).elim [] (emit (s.ofKind i))

variable {services : ∀ i, Service (δ i) (π i) (α i) (ο i) (H i)}

theorem Next.bind_mixed (i j : τ) (next : Next (π j)) :
    (next.mixed j).pos.bind (ofKind i) =
      if h : j = i then (h ▸ next.pos : Option (π i)) else none := by
  by_cases h : j = i
  · subst h
    cases next <;> simp [Next.mixed, Next.pos]
  · rw [dif_neg h]
    cases next <;> simp [Next.mixed, Next.pos, ofKind_of_ne, h]

theorem Work.user_of_mixed {i : τ} {work : Work (δ i) (π i) (α i)} {back : Sigma π}
    (h : work.mixed i = .user back) : ∃ pos, work = .user pos ∧ back = ⟨i, pos⟩ := by
  cases work with
  | user pos =>
      cases h
      exact ⟨pos, rfl, rfl⟩
  | frame | object => cases h

/-- **One kind of an object.** A step of an object is a step of one kind, and nothing to others. -/
theorem Service.ofKind_of_step (i : τ) {s t : Solo (∀ i, δ i) (Sigma π)}
    {l : SoloLabel (∀ i, α i) (Sigma ο) (Sigma H)}
    (hstep : (Service.mixed services).solo.step s l = some t) :
    (l.ofKind i s = none ∧ t.ofKind i = s.ofKind i) ∨
      ∃ a, l.ofKind i s = some a ∧ (services i).solo.step (s.ofKind i) a = some (t.ofKind i) := by
  obtain ⟨state, pos⟩ := s
  cases l with
  | outside op =>
      obtain ⟨j, op⟩ := op
      cases hstep
      by_cases h : j = i
      · subst h
        refine Or.inr ⟨.outside op, by simp [SoloLabel.ofKind], ?_⟩
        simp [solo, soloStep, Solo.ofKind, mixed]
      · refine Or.inl ⟨by simp [SoloLabel.ofKind, ofKind_of_ne, h], ?_⟩
        simp [Solo.ofKind, mixed, Ne.symm h]
  | enter func =>
      obtain ⟨j, func⟩ := func
      obtain ⟨rfl, rfl⟩ := eq_of_enter hstep
      by_cases h : j = i
      · subst h
        refine Or.inr ⟨.enter func, by simp [SoloLabel.ofKind], ?_⟩
        simp [solo, soloStep, Solo.ofKind, mixed]
      · refine Or.inl ⟨by simp [SoloLabel.ofKind, ofKind_of_ne, h], ?_⟩
        simp [Solo.ofKind, mixed, ofKind_of_ne, h]
  | act choice =>
      cases pos with
      | none => cases hstep
      | some pos =>
          obtain ⟨j, pos⟩ := pos
          simp only [solo, soloStep, mixed, Option.bind_some] at hstep
          cases hwork : (services j).work pos with
          | user back =>
              rw [hwork] at hstep
              cases hstep
          | frame next =>
              rw [hwork] at hstep
              obtain rfl := Option.some.inj hstep
              by_cases h : j = i
              · subst h
                refine Or.inr ⟨.act (choice j), by simp [SoloLabel.ofKind, Solo.ofKind], ?_⟩
                simp [solo, soloStep, Solo.ofKind, hwork, Next.bind_mixed]
              · refine Or.inl ⟨by simp [SoloLabel.ofKind, Solo.ofKind, ofKind_of_ne, h], ?_⟩
                simp [Solo.ofKind, ofKind_of_ne, h, Next.bind_mixed]
          | object use =>
              rw [hwork] at hstep
              simp only [Work.mixed, Option.map_map, Option.map_eq_some_iff] at hstep
              obtain ⟨r, huse, rfl⟩ := hstep
              by_cases h : j = i
              · subst h
                refine Or.inr ⟨.act (choice j), by simp [SoloLabel.ofKind, Solo.ofKind], ?_⟩
                simp [solo, soloStep, Solo.ofKind, hwork, huse, Next.bind_mixed]
              · refine Or.inl ⟨by simp [SoloLabel.ofKind, Solo.ofKind, ofKind_of_ne, h], ?_⟩
                simp [Solo.ofKind, ofKind_of_ne, h, Next.bind_mixed, Ne.symm h]
  | returns =>
      obtain ⟨⟨j, pos⟩, back, rfl, hwork, rfl⟩ := eq_of_returns hstep
      obtain ⟨back, hback, rfl⟩ := Work.user_of_mixed hwork
      by_cases h : j = i
      · subst h
        refine Or.inr ⟨.returns, by simp [SoloLabel.ofKind, Solo.ofKind], ?_⟩
        simp [solo, soloStep, Solo.ofKind, hback]
      · refine Or.inl ⟨by simp [SoloLabel.ofKind, Solo.ofKind, ofKind_of_ne, h], ?_⟩
        simp [Solo.ofKind, ofKind_of_ne, h]
  | throws exc =>
      obtain ⟨⟨j, pos⟩, back, rfl, hwork, rfl⟩ := eq_of_throws hstep
      obtain ⟨back, hback, -⟩ := Work.user_of_mixed hwork
      by_cases h : j = i
      · subst h
        refine Or.inr ⟨.throws exc, by simp [SoloLabel.ofKind, Solo.ofKind], ?_⟩
        simp [solo, soloStep, Solo.ofKind, hback]
      · refine Or.inl ⟨by simp [SoloLabel.ofKind, Solo.ofKind, ofKind_of_ne, h], ?_⟩
        simp [Solo.ofKind, ofKind_of_ne, h]

theorem Service.mixed_frees {free : ∀ i, π i → Prop} (hfrees : ∀ i, (services i).Frees (free i)) :
    (Service.mixed services).Frees fun pos => free pos.1 pos.2 where
  user := by
    rintro ⟨i, pos⟩ back hwork hfree
    obtain ⟨back, hback, rfl⟩ := Work.user_of_mixed hwork
    exact (hfrees i).user pos back hback hfree
  frame := by
    rintro ⟨i, pos⟩ pos' hwork hfree
    cases hi : (services i).work pos with
    | user | object =>
        simp only [mixed, hi, Work.mixed] at hwork
        cases hwork
    | frame next =>
        simp only [mixed, hi, Work.mixed] at hwork
        cases next with
        | goesOn pos'' =>
            cases hwork
            exact (hfrees i).frame pos pos'' hi hfree
        | returns | throws => cases hwork
  object := by
    rintro ⟨i, pos⟩ use hwork hfree
    cases hi : (services i).work pos with
    | object use' => exact (hfrees i).object pos use' hi hfree
    | user | frame =>
        simp only [mixed, hi, Work.mixed] at hwork
        cases hwork

namespace Sources

variable {κ G ι ε : Type} [DecidableEq κ] [DecidableEq ι] [DecidableEq ε]

/-- What the steps of one kind keep, of its part of an object and of what is shown of it, the steps
of a program keep. -/
theorem kind_preserved (i : τ)
    (emit : Solo (δ i) (π i) → SoloLabel (α i) (ο i) (H i) → List μ)
    (houtside : ∀ state pos op, emit ⟨state, pos⟩ (.outside op) = emit ⟨state, none⟩ (.outside op))
    {J : List μ → Solo (δ i) (π i) → Prop}
    (hstep : ∀ h s l t, (services i).solo.step s l = some t → J h s → J (h ++ emit s l) t)
    {k : κ} {s t : Sources κ (∀ i, δ i) (Sigma π) (Sigma H) G ι ε}
    {ls : List (SourcesLabel κ (∀ i, α i) (Sigma ο) (Sigma H) G ι ε)}
    (hrun : (sources κ G ι ε (Service.mixed services)).run s ls = some t) (hs : s.Inv)
    (hJ : J [] ((s.soloOf (Service.mixed services) k).ofKind i)) :
    J ((sources κ G ι ε (Service.mixed services)).shown
        (seen (Service.mixed services) (emitOfKind i emit) k) s ls)
      ((t.soloOf (Service.mixed services) k).ofKind i) := by
  have hseen : (sources κ G ι ε (Service.mixed services)).shown
      (history (Service.mixed services) (emitOfKind i emit) k) s ls =
        (sources κ G ι ε (Service.mixed services)).shown
          (seen (Service.mixed services) (emitOfKind i emit) k) s ls := by
    refine System.shown_congr (inv_preserved _) (fun s l h => history_eq_seen ?_ h l) hrun hs
    intro state pos op
    simp only [emitOfKind, SoloLabel.ofKind]
    cases Epl.ofKind i op with
    | none => rfl
    | some op => exact houtside (state i) (pos.bind (Epl.ofKind i)) op
  have hend := history_preserved (emitOfKind i emit) (J := fun h s => J h (s.ofKind i)) (h := [])
    ?_ hrun hs hJ
  · rwa [List.nil_append, hseen] at hend
  · intro h s l t hsolo hJ
    rcases Service.ofKind_of_step i hsolo with ⟨hnone, hsame⟩ | ⟨a, hone, hkind⟩
    · simpa [emitOfKind, hnone, hsame] using hJ
    · simpa [emitOfKind, hone] using hstep h _ a _ hkind hJ

end Sources

end

/-! ### Programs -/

namespace Kind

/-- What is shown of an object: what it is given, what its functions are given, and what is lost.
-/
def Entry (T : Type) : Kind → Type
  | .eventFd _ => ChannelLabel Nat
  | .timerFd => LossyLabel Nat
  | .threadSafeQueue => ChannelLabel T
  | .signalFd => LossyLabel SignalfdSiginfo
  | .gpioEvent => LossyLabel LineEvent

def emits (T H : Type) : (i : Kind) → Solo (i.Object T) (i.Pos T H) →
    SoloLabel i.Choice (i.Op T) H → List (i.Entry T)
  | .eventFd semaphore => EventFd.numbers semaphore
  | .timerFd => TimerFd.numbers
  | .threadSafeQueue => ThreadSafeQueue.elements
  | .signalFd => SignalFd.records
  | .gpioEvent => Reader.records inspectInput

theorem emits_outside {T H : Type} (i : Kind) (state : i.Object T) (pos : Option (i.Pos T H))
    (op : i.Op T) :
    emits T H i ⟨state, pos⟩ (.outside op) = emits T H i ⟨state, none⟩ (.outside op) := by
  cases i with
  | timerFd => rcases op with ⟨value, _ | errno⟩ | (_ | errno) | _ <;> rfl
  | signalFd | gpioEvent => cases op <;> rfl
  | eventFd | threadSafeQueue => rfl

end Kind

namespace Program

variable {T κ H G ι ε : Type}

def kept (k : κ) (s : Program T κ H G ι ε) : ∀ i : Kind, i.Object T :=
  (s.source k).state fun i => (Kind.service T H i).created

/-- What the counter of an event descriptor is, or was when it was closed; and the like of the
other kinds. -/
def counterOf (semaphore : Bool) (k : κ) (s : Program T κ H G ι ε) : Nat :=
  s.kept k (.eventFd semaphore)

def timerOf (k : κ) (s : Program T κ H G ι ε) : Timer := s.kept k .timerFd

def dequeOf (k : κ) (s : Program T κ H G ι ε) : List T :=
  ThreadSafeQueue.Members.deque (s.kept k .threadSafeQueue)

def signalsOf (k : κ) (s : Program T κ H G ι ε) : List SignalfdSiginfo := s.kept k .signalFd

def lineEventsOf (k : κ) (s : Program T κ H G ι ε) : List LineEvent := s.kept k .gpioEvent

theorem pos_ofKind_eq_none {k : κ} {s : Program T κ H G ι ε} (i : Kind)
    (hnone : ∀ e r, s.frame e ≠ some (k, r)) :
    ((s.soloOf (Service.mixed (Kind.service T H)) k).ofKind i).pos = none := by
  rw [Solo.ofKind, Sources.soloOf, Sources.posOf_eq_none hnone]
  rfl

variable [DecidableEq κ] [DecidableEq ι] [DecidableEq ε]

def ledgerAt (i : Kind) (k : κ) (s : Program T κ H G ι ε) (ls : List (ProgramLabel T κ H G ι ε)) :
    List (i.Entry T) :=
  (program T κ H G ι ε).shown
    (Sources.seen (Service.mixed (Kind.service T H)) (emitOfKind i (Kind.emits T H i)) k) s ls

/-- What the ledgers of an object say of it: what each kind was given is what it has handed over,
what it holds, and what a new setting of a timer discards, a reader loses, or happens to pending
signals. A lambda never takes an element of an empty deque. -/
structure Balances (k : κ) (ledger : ∀ i : Kind, List (i.Entry T)) (s : Program T κ H G ι ε) :
    Prop where
  counter : ∀ semaphore, let h := ledger (.eventFd semaphore)
    (sent h).sum = (received h).sum + counterOf semaphore k s ∧
      counterOf semaphore k s < 2 ^ 64 - 1 ∧
      ∀ value ∈ received h, 0 < value ∧ (semaphore → value = 1)
  timer : let h := ledger .timerFd
    (h.filterMap LossyLabel.sent?).sum = (h.filterMap LossyLabel.received?).sum +
        (h.filterMap LossyLabel.dropped?).sum + (timerOf k s).expirations ∧
      ∀ n ∈ h.filterMap LossyLabel.received?, 0 < n
  queue : received (ledger .threadSafeQueue) ++ dequeOf k s = sent (ledger .threadSafeQueue) ∧
    ∀ e, s.frame e ≠ some (k, ⟨.threadSafeQueue, DispatchPos.crashed⟩)
  signals : ∃ batch, Conserved (ledger .signalFd) (batch ++ signalsOf k s) ∧
    ((∀ e r, s.frame e ≠ some (k, r)) → batch = [])
  lineEvents : ∃ batch, Leaky (ledger .gpioEvent) (batch ++ lineEventsOf k s) ∧
    ((∀ e r, s.frame e ≠ some (k, r)) → batch = [])

section

variable {epfd evtfd : Cmn.Fd} {wake : G} {s : Program T κ H G ι ε}
  {ls : List (ProgramLabel T κ H G ι ε)}
  (hrun : (program T κ H G ι ε).run (.start epfd evtfd wake) ls = some s) (k : κ)

include hrun

/-- What the steps of one kind keep, from its first state on. -/
theorem kind_of_run (i : Kind) {J : List (i.Entry T) → Solo (i.Object T) (i.Pos T H) → Prop}
    (hstep : ∀ h s l t, (Kind.service T H i).solo.step s l = some t → J h s →
      J (h ++ Kind.emits T H i s l) t)
    (hstart : J [] (Kind.service T H i).soloStart) :
    J (ledgerAt i k (.start epfd evtfd wake) ls)
      ((s.soloOf (Service.mixed (Kind.service T H)) k).ofKind i) := by
  refine Sources.kind_preserved i (Kind.emits T H i) (Kind.emits_outside i) hstep hrun
    (Sources.inv_start epfd evtfd wake) ?_
  rw [Sources.soloOf_start]
  exact hstart

theorem pos_ofKind_of_frame {e : ε} {i : Kind} {pos : i.Pos T H}
    (hframe : s.frame e = some (k, ⟨i, pos⟩)) :
    ((s.soloOf (Service.mixed (Kind.service T H)) k).ofKind i).pos = some pos := by
  have hs := (Sources.inv_preserved _).run hrun (Sources.inv_start epfd evtfd wake)
  rw [Solo.ofKind, Sources.soloOf, Sources.posOf_eq_some hs hframe]
  exact ofKind_self i pos

/-- **Nothing is lost between the kinds.** In a program with sources of all kinds on an event
queue, and functions that do whatever user code may: each object has handed over what it was given,
up to what it still holds and what the rules of its kind lose. -/
theorem balances_of_run : Balances k (fun i => ledgerAt i k (.start epfd evtfd wake) ls) s where
  counter semaphore := by
    obtain ⟨hsum, hlt, hpos, hone⟩ := kind_of_run hrun k (.eventFd semaphore)
      (J := EventFd.Balanced semaphore) (fun _ _ _ _ hstep h => h.step hstep)
      ⟨rfl, Nat.sub_pos_of_lt (Nat.one_lt_two_pow (by decide)), List.forall_mem_nil _,
        fun _ => List.forall_mem_nil _⟩
    exact ⟨hsum, hlt, fun value hvalue => ⟨hpos value hvalue, fun hs => hone hs value hvalue⟩⟩
  timer := by
    obtain ⟨hsum, hpos⟩ := kind_of_run hrun k .timerFd (J := TimerFd.Balanced)
      (fun _ _ _ _ hstep h => h.step hstep) ⟨rfl, List.forall_mem_nil _⟩
    exact ⟨hsum, hpos⟩
  queue := by
    obtain ⟨hchannel, hbacked⟩ := kind_of_run hrun k .threadSafeQueue
      (J := fun h (s : Solo (ThreadSafeQueue.Members T) (DispatchPos T H)) =>
        (channel T).run [] h = some s.state.deque ∧ (ThreadSafeQueue.ofSolo s).Backed)
      (fun _ _ _ _ hstep h => ThreadSafeQueue.elements_step hstep h)
      ⟨rfl, ThreadSafeQueue.backed_start⟩
    refine ⟨(append_sent_eq_received_append hchannel).symm, fun e hframe => ?_⟩
    have hpos := pos_ofKind_of_frame hrun k hframe
    exact hbacked.not_crashed (congrArg (fun pos => Option.getD pos DispatchPos.idle) hpos)
  signals := by
    refine ⟨_, kind_of_run hrun k .signalFd (J := fun h s => Conserved h (Reader.held s))
      (fun _ _ _ _ hstep h => SignalFd.conserved_step hstep h) (.sends []), fun hnone => ?_⟩
    rw [pos_ofKind_eq_none .signalFd hnone]
    rfl
  lineEvents := by
    refine ⟨_, kind_of_run hrun k .gpioEvent (J := fun h s => Leaky h (Reader.held s))
      (fun _ _ _ _ hstep h => Reader.leaky_step hstep h) (Leaky.sends []), fun hnone => ?_⟩
    rw [pos_ofKind_eq_none .gpioEvent hnone]
    rfl

end

/-- A program with a queue and a timer. One batch reports both; the function of the timer destroys
the queue, whose elements have been handed over by then. -/
theorem balances_of_run_two :
    let exec : ExecAct (Callable (Nat × (Σ _ : Kind, Nat)) Nat) Nat →
        ProgramLabel Nat Nat Nat Nat Nat Nat := fun act => .loop (.exec 0 act)
    let start : Program Nat Nat Nat Nat Nat Nat := .start ⟨3⟩ ⟨4⟩ 0
    let labels : List (ProgramLabel Nat Nat Nat Nat Nat Nat) :=
      [.construct none 0 5 none, .install none 0 (some ⟨.threadSafeQueue, 7⟩) none,
        .construct none 1 6 none, .install none 1 (some ⟨.timerFd, 8⟩) none,
        .outside 0 ⟨.threadSafeQueue, ((1, none) : Nat × Option Errno)⟩,
        .outside 0 ⟨.threadSafeQueue, ((2, none) : Nat × Option Errno)⟩,
        .outside 1 ⟨.timerFd, TimerAct.setTime ⟨⟨1, 0⟩, ⟨1, 0⟩⟩ none⟩, exec .call, exec .step,
        exec (.drained (some eagain)), exec .step, exec .epollWait,
        .outside 1 ⟨.timerFd, TimerAct.expire⟩,
        exec (.woken (.ok [⟨epollIn, 5⟩, ⟨epollIn, 6⟩])), exec .step, exec .step, exec .step,
        exec .step, exec .step, exec .invoke, .act 0 Kind.readsSucceed, .act 0 Kind.readsSucceed,
        exec (.callback .returns), .act 0 Kind.readsSucceed, exec (.callback .returns),
        .act 0 Kind.readsSucceed, exec .step, exec .step, exec .step, exec .step, exec .step,
        exec .step, exec .step, exec .step, exec .step, exec .step, exec .invoke,
        .act 0 Kind.readsSucceed, .destroy (some 0) 0 none, exec (.callback .returns)]
    ∃ s, (program Nat Nat Nat Nat Nat Nat).run start labels = some s ∧
      received (ledgerAt .threadSafeQueue 0 start labels) = [1, 2] ∧
      (ledgerAt .timerFd 1 start labels).filterMap LossyLabel.received? = [1] ∧
      (∃ m, s.source 0 = .dead m) ∧
      Balances 0 (fun i => ledgerAt i 0 start labels) s ∧
      Balances 1 (fun i => ledgerAt i 1 start labels) s := by
  intro exec start labels
  have hrun : (program Nat Nat Nat Nat Nat Nat).run start labels = some _ := rfl
  refine ⟨_, hrun, ?_, ?_, ?_, balances_of_run hrun 0, balances_of_run hrun 1⟩
  · rfl
  · rfl
  · exact ⟨_, rfl⟩

/-! ### Lambdas and their objects -/

end Program

/-- From these positions on a lambda of the kind does not use its object. -/
def Kind.Free {T H : Type} : (i : Kind) → i.Pos T H → Prop
  | .eventFd _, pos => ∀ func : H, pos ≠ CountPos.reading func
  | .timerFd, pos => ∀ func : H, pos ≠ CountPos.reading func
  | .threadSafeQueue, pos => ThreadSafeQueue.Last pos
  | .signalFd, pos => ∀ func : H, pos ≠ Reader.Pos.reading func
  | .gpioEvent, pos => ∀ func : H, pos ≠ Reader.Pos.reading func

theorem Kind.frees {T H : Type} (i : Kind) : (Kind.service T H i).Frees i.Free := by
  cases i with
  | eventFd | timerFd => exact countWork_frees rfl
  | threadSafeQueue => exact ThreadSafeQueue.service_frees
  | signalFd | gpioEvent => exact Reader.work_frees rfl

/-- Where its function runs, the lambda of any kind but a queue can do without its object. -/
theorem Kind.free_of_user {T H : Type} {i : Kind} (hi : i ≠ .threadSafeQueue) {pos back : i.Pos T H}
    (hwork : (Kind.service T H i).work pos = .user back) : i.Free pos := by
  cases i with
  | threadSafeQueue => exact absurd rfl hi
  | eventFd | timerFd | signalFd | gpioEvent =>
      rintro func rfl
      cases hwork

namespace Program

variable {T κ H G ι ε : Type}

/-- The position of a lambda of a queue. -/
def queuePos : Sigma (Kind.Pos T H) → Option (DispatchPos T H)
  | ⟨.threadSafeQueue, pos⟩ => some pos
  | _ => none

/-- A function of a queue that destroys the queue leaves no element of its batch. -/
def DestroysLast (s : Program T κ H G ι ε) : ProgramLabel T κ H G ι ε → Prop
  | .destroy (some e) k _ =>
      ∀ r ∈ s.frame e, r.1 = k → ∀ pos ∈ queuePos r.2, ThreadSafeQueue.Last pos
  | _ => True

variable [DecidableEq κ] [DecidableEq ι] [DecidableEq ε]

instance (s : Program T κ H G ι ε) (l : ProgramLabel T κ H G ι ε) : Decidable (DestroysLast s l) :=
  match l with
  | .destroy (some e) k _ => inferInstanceAs (Decidable
      (∀ r ∈ s.frame e, r.1 = k → ∀ pos ∈ queuePos r.2, ThreadSafeQueue.Last pos))
  | .destroy none _ _ | .construct _ _ _ _ | .install _ _ _ _ | .register _ _ | .outside _ _
  | .act _ _ | .loop _ => isTrue trivial

/-- **Destruction from within, between the kinds.** No object of a program is used after its
destruction, and no lambda of a destroyed object can be called: as long as user code copies no
lambda, and no function of a queue destroys its own queue with elements of its batch left. -/
theorem sound_of_run {epfd evtfd : Cmn.Fd} {wake : G} {s : Program T κ H G ι ε}
    {ls : List (ProgramLabel T κ H G ι ε)}
    (hrun : (program T κ H G ι ε).run (.start epfd evtfd wake) ls = some s)
    (hkeeps : ∀ l ∈ ls, l.KeepsLambdas)
    (hlast : (program T κ H G ι ε).Along DestroysLast (.start epfd evtfd wake) ls) : s.Sound := by
  refine (Sources.safe_of_run (Service.mixed_frees Kind.frees) hrun hkeeps ?_).sound
  refine hlast.of_invariant (I := fun _ => True) (fun _ _ _ _ _ _ => trivial) ?_ hrun trivial
  intro s l t hstep hl _
  cases l with
  | destroy who k answer =>
      cases who with
      | none => trivial
      | some e =>
          rintro ⟨i, pos⟩ hframe
          cases Sources.move_of_step hstep with
          | destroyed who k answer fd state hturn halive =>
              obtain ⟨back, hwork⟩ := Sources.work_of_userTurn hturn hframe
              obtain ⟨back, huser, -⟩ := Work.user_of_mixed hwork
              by_cases hi : i = .threadSafeQueue
              · subst hi
                exact hl _ hframe rfl pos rfl
              · exact Kind.free_of_user hi huser
  | _ => trivial

/-- The function of a signal descriptor destroys it and stops the loop, which leaves the state
`Stopping` behind; the queue, whose descriptor has been reported as well, is destroyed when `exec`
has returned. -/
theorem sound_of_run_signal :
    let exec : ExecAct (Callable (Nat × (Σ _ : Kind, Nat)) Nat) Nat →
        ProgramLabel Nat Nat Nat Nat Nat Nat := fun act => .loop (.exec 0 act)
    let start : Program Nat Nat Nat Nat Nat Nat := .start ⟨3⟩ ⟨4⟩ 0
    let labels : List (ProgramLabel Nat Nat Nat Nat Nat Nat) :=
      [.construct none 0 5 none, .install none 0 (some ⟨.signalFd, 7⟩) none,
        .construct none 1 6 none, .install none 1 (some ⟨.threadSafeQueue, 8⟩) none,
        .outside 0 ⟨.signalFd, SignalAct.arrive ⟨15, []⟩ 0 false⟩,
        .outside 1 ⟨.threadSafeQueue, ((1, none) : Nat × Option Errno)⟩, exec .call, exec .step,
        exec (.drained (some eagain)), exec .step, exec .epollWait,
        exec (.woken (.ok [⟨epollIn, 5⟩, ⟨epollIn, 6⟩])), exec .step, exec .step, exec .step,
        exec .step, exec .step, exec .invoke, .act 0 Kind.readsSucceed, .act 0 Kind.readsSucceed,
        .destroy (some 0) 0 none, exec (.callback (.stop 0 7)), .loop (.stop 0 .step),
        .loop (.stop 0 .step), .loop (.stop 0 (.written none)), exec (.callback .resume),
        exec (.callback .returns), .act 0 Kind.readsSucceed, exec .step, exec .step, exec .step,
        exec .step, .destroy (some 0) 1 none]
    ∃ s, (program Nat Nat Nat Nat Nat Nat).run start labels = some s ∧
      s.loop.execs 0 = .returned 7 ∧ s.loop.queue.state = .stopping ∧ dequeOf 1 s = [1] ∧
      s.Sound := by
  intro exec start labels
  have hrun : (program Nat Nat Nat Nat Nat Nat).run start labels = some _ := rfl
  have hkeeps : ∀ l ∈ labels, l.KeepsLambdas := by
    simp [labels, exec, SourcesLabel.KeepsLambdas]
  have hlast : (program Nat Nat Nat Nat Nat Nat).Along DestroysLast start labels := by
    decide +kernel
  exact ⟨_, hrun, rfl, rfl, rfl, sound_of_run hrun hkeeps hlast⟩

end Program

end Suc.Epl
