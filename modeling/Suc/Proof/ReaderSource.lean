import Suc.Epl.Services
import Suc.Proof.Rounds
import Suc.Transition.Channel

/-!
# Batch readers on an event queue

The kernel queues records at the descriptor and discards the oldest one when it has no room. The lambda
takes a batch of them and calls its function with one after the other; when the function throws, or a
record is not what it should be, what is left of the batch is lost. Whatever is not lost is handed to the
functions, once and in the order in which it arrived.
-/

namespace Suc.Epl

open Transition

variable {κ ρ α H G ι ε : Type}

namespace Reader

/-! ### The reader by itself -/

/-- What a position holds of its batch. -/
def Pos.todo : Pos ρ α H → List ρ
  | .reading _ => []
  | .loop _ todo | .handling _ _ todo => todo

def held (s : Solo (List ρ) (Pos ρ α H)) : List ρ := s.pos.elim [] Pos.todo ++ s.state

variable {reader : Reader ρ α}

/-- The records that arrive, those that functions are called for, and those that are lost. -/
def records (reader : Reader ρ α) (s : Solo (List ρ) (Pos ρ α H)) :
    SoloLabel (Option Errno) (KernelAct ρ) H → List (LossyLabel ρ)
  | .outside (.queue r) => [.send r]
  | .outside (.overrun r) => (s.state.take 1).map .drop ++ [.send r]
  | .act _ =>
      match s.pos with
      | some (.loop _ (r :: todo)) =>
          match reader.record r with
          | .ok _ => [.receive r]
          | .error _ => (r :: todo).map .drop
      | _ => []
  | .throws _ => (s.pos.elim [] Pos.todo).map .drop
  | _ => []

theorem read_cases (reader : Reader ρ α) (pending : List ρ) (failure : Option Errno) :
    (failure = none ∧ reader.read pending failure =
        (.records (pending.take reader.capacity), pending.drop reader.capacity)) ∨
      (failure ≠ none ∨ pending = []) ∧
        ∃ errno, reader.read pending failure = (.failed errno, pending) := by
  cases failure with
  | none =>
      by_cases hpending : pending = []
      · exact Or.inr ⟨Or.inr hpending, eagain, by simp [read, hpending]⟩
      · exact Or.inl ⟨rfl, by simp [read, hpending]⟩
  | some errno => exact Or.inr ⟨Or.inl (Option.some_ne_none errno), errno, rfl⟩

/-- What the lambda does by itself: it takes a batch, leaves without one, hands out the next record,
stumbles over it, or is done with its batch. -/
theorem act_cases {s t : Solo (List ρ) (Pos ρ α H)} {failure : Option Errno}
    (hstep : (service H reader).solo.step s (.act failure) = some t) :
    (∃ func, s.pos = some (.reading func) ∧
        ((failure = none ∧ t = ⟨s.state.drop reader.capacity,
            some (.loop func (s.state.take reader.capacity))⟩) ∨
          (failure ≠ none ∨ s.state = []) ∧ t = ⟨s.state, none⟩) ∧
        records reader s (.act failure) = []) ∨
      (∃ func r todo item, s.pos = some (.loop func (r :: todo)) ∧ reader.record r = .ok item ∧
        t = ⟨s.state, some (.handling func item todo)⟩ ∧
        records reader s (.act failure) = [.receive r]) ∨
      (∃ func r todo, s.pos = some (.loop func (r :: todo)) ∧ t = ⟨s.state, none⟩ ∧
        records reader s (.act failure) = (r :: todo).map .drop) ∨
      ∃ func, s.pos = some (.loop func []) ∧ t = ⟨s.state, none⟩ ∧
        records reader s (.act failure) = [] := by
  obtain ⟨pending, pos⟩ := s
  cases pos with
  | none => cases hstep
  | some pos =>
      cases pos with
      | reading func =>
          refine Or.inl ⟨func, rfl, ?_, rfl⟩
          rcases read_cases reader pending failure with ⟨hnone, hread⟩ | ⟨hfails, errno, hread⟩
          · refine Or.inl ⟨hnone, ?_⟩
            simpa [Service.solo, Service.soloStep, service, work, hread, Next.pos] using hstep.symm
          · refine Or.inr ⟨hfails, ?_⟩
            cases hunread : reader.unread (.failed errno) <;>
              simpa [Service.solo, Service.soloStep, service, work, hread, hunread, Next.pos] using
                hstep.symm
      | loop func todo =>
          cases todo with
          | nil =>
              cases hstep
              exact Or.inr (Or.inr (Or.inr ⟨func, rfl, rfl, rfl⟩))
          | cons r todo =>
              cases hrecord : reader.record r with
              | ok item =>
                  refine Or.inr (Or.inl ⟨func, r, todo, item, rfl, hrecord, ?_, ?_⟩)
                  · simpa [Service.solo, Service.soloStep, service, work, hrecord, Next.pos] using
                      hstep.symm
                  · simp [records, hrecord]
              | error exc =>
                  refine Or.inr (Or.inr (Or.inl ⟨func, r, todo, rfl, ?_, ?_⟩))
                  · simpa [Service.solo, Service.soloStep, service, work, hrecord, Next.pos] using
                      hstep.symm
                  · simp [records, hrecord]
      | handling func item todo => cases hstep

theorem handling_of_user {pos back : Pos ρ α H} (h : (service H reader).work pos = .user back) :
    ∃ func item todo, pos = .handling func item todo ∧ back = .loop func todo := by
  cases pos with
  | reading func => cases h
  | loop func todo =>
      cases todo with
      | nil => cases h
      | cons r todo => cases hrecord : reader.record r <;> simp [service, work, hrecord] at h
  | handling func item todo =>
      cases h
      exact ⟨func, item, todo, rfl, rfl⟩

theorem sent_records (s : Solo (List ρ) (Pos ρ α H))
    (l : SoloLabel (Option Errno) (KernelAct ρ) H) :
    (records reader s l).filterMap LossyLabel.sent? =
      l.outside?.elim [] fun act => [act.record] := by
  cases l with
  | outside act =>
      cases act with
      | queue r => rfl
      | overrun r =>
          rw [records, List.filterMap_append, LossyLabel.sent?_drops]
          rfl
  | act failure =>
      simp only [records]
      split
      · split
        · rfl
        · exact LossyLabel.sent?_drops _
      · rfl
  | throws exc => exact LossyLabel.sent?_drops _
  | _ => rfl

/-- What the lambda does with what it holds. -/
theorem takesFirst_of_step {s t : Solo (List ρ) (Pos ρ α H)}
    {l : SoloLabel (Option Errno) (KernelAct ρ) H}
    (hstep : (service H reader).solo.step s l = some t) (hinside : l.outside? = none) :
    TakesFirst (records reader s l) (held s) (held t) := by
  cases l with
  | outside act => cases hinside
  | enter func =>
      obtain ⟨hnone, rfl⟩ := Service.eq_of_enter hstep
      refine Or.inr ⟨[], rfl, ?_⟩
      rw [held, hnone]
      rfl
  | act failure =>
      rcases act_cases hstep with ⟨func, hpos, hread, hrecords⟩ |
        ⟨func, r, todo, item, hpos, -, rfl, hrecords⟩ | ⟨func, r, todo, hpos, rfl, hrecords⟩ |
        ⟨func, hpos, rfl, hrecords⟩ <;> rw [hrecords, held, hpos]
      · refine Or.inr ⟨[], rfl, ?_⟩
        rcases hread with ⟨-, rfl⟩ | ⟨-, rfl⟩
        · simp [held, Pos.todo]
        · rfl
      · exact Or.inl ⟨r, rfl, rfl⟩
      · exact Or.inr ⟨r :: todo, rfl, rfl⟩
      · exact Or.inr ⟨[], rfl, rfl⟩
  | returns =>
      obtain ⟨pos, back, hpos, hwork, rfl⟩ := Service.eq_of_returns hstep
      obtain ⟨func, item, todo, rfl, rfl⟩ := handling_of_user hwork
      refine Or.inr ⟨[], rfl, ?_⟩
      rw [held, hpos]
      rfl
  | throws exc =>
      obtain ⟨pos, back, hpos, hwork, rfl⟩ := Service.eq_of_throws hstep
      obtain ⟨func, item, todo, rfl, rfl⟩ := handling_of_user hwork
      rw [records, held, hpos]
      exact Or.inr ⟨todo, rfl, rfl⟩

theorem leaky_step {h : List (LossyLabel ρ)} {s t : Solo (List ρ) (Pos ρ α H)}
    {l : SoloLabel (Option Errno) (KernelAct ρ) H}
    (hstep : (service H reader).solo.step s l = some t) (hs : Leaky h (held s)) :
    Leaky (h ++ records reader s l) (held t) := by
  cases l with
  | outside act =>
      cases hstep
      cases act with
      | queue r =>
          have hsent := hs.send r
          rwa [held, List.append_assoc] at hsent
      | overrun r =>
          have hsplit : held s = s.pos.elim [] Pos.todo ++ s.state.take 1 ++ s.state.tail := by
            rw [held, List.append_assoc, ← List.drop_one, List.take_append_drop]
          rw [hsplit] at hs
          have hsent := (hs.drops _).send r
          rwa [List.append_assoc, List.append_assoc] at hsent
  | _ => exact hs.takesFirst (takesFirst_of_step hstep rfl)

/-! ### A round of the reader -/

/-- Nothing is lost, and the read does not fail while there is something to read. -/
def Undisturbed (reader : Reader ρ α) (s : Solo (List ρ) (Pos ρ α H))
    (l : SoloLabel (Option Errno) (KernelAct ρ) H) : Prop :=
  (records reader s l).filterMap LossyLabel.dropped? = [] ∧
    ∀ errno, l = .act (some errno) → ∀ func, s.pos ≠ some (.reading func)

/-- What one read could have taken at first has been handed over or read, or can still be read. -/
def Pending (reader : Reader ρ α) (n : Nat) (h : List (LossyLabel ρ))
    (s : Solo (List ρ) (Pos ρ α H)) : Prop :=
  n ≤ (h.filterMap LossyLabel.received?).length + (s.pos.elim [] Pos.todo).length +
    min reader.capacity s.state.length

/-- It has been handed over or read, or the lambda is about to read. -/
def Served (reader : Reader ρ α) (n : Nat) (h : List (LossyLabel ρ))
    (s : Solo (List ρ) (Pos ρ α H)) : Prop :=
  Pending reader n h s ∧ ((∃ func, s.pos = some (.reading func)) ∨
    n ≤ (h.filterMap LossyLabel.received?).length + (s.pos.elim [] Pos.todo).length)

theorem Pending.step {n : Nat} {h : List (LossyLabel ρ)} {s t : Solo (List ρ) (Pos ρ α H)}
    {l : SoloLabel (Option Errno) (KernelAct ρ) H}
    (hstep : (service H reader).solo.step s l = some t) (hundisturbed : Undisturbed reader s l)
    (hs : Pending reader n h s) : Pending reader n (h ++ records reader s l) t := by
  rw [Pending] at hs ⊢
  rw [List.filterMap_append, List.length_append]
  cases l with
  | outside act =>
      cases hstep
      cases act <;> simp [service] <;> omega
  | enter func =>
      obtain ⟨hnone, rfl⟩ := Service.eq_of_enter hstep
      rw [hnone] at hs
      simpa [records, service, Pos.todo] using hs
  | act failure =>
      rcases act_cases hstep with ⟨func, hpos, hread, hrecords⟩ |
        ⟨func, r, todo, item, hpos, -, rfl, hrecords⟩ | ⟨func, r, todo, hpos, rfl, hrecords⟩ |
        ⟨func, hpos, rfl, hrecords⟩ <;> rw [hrecords] <;> rw [hpos] at hs
      · rcases hread with ⟨-, rfl⟩ | ⟨-, rfl⟩
        · simp [Pos.todo] at hs ⊢
          omega
        · simpa [Pos.todo] using hs
      · simp [Pos.todo] at hs ⊢
        omega
      · have hlost := hundisturbed.1
        rw [hrecords] at hlost
        simp at hlost
      · simpa [Pos.todo] using hs
  | returns =>
      obtain ⟨pos, back, hpos, hwork, rfl⟩ := Service.eq_of_returns hstep
      obtain ⟨func, item, todo, rfl, rfl⟩ := handling_of_user hwork
      rw [hpos] at hs
      simpa [records, Pos.todo] using hs
  | throws exc =>
      obtain ⟨pos, back, hpos, hwork, rfl⟩ := Service.eq_of_throws hstep
      obtain ⟨func, item, todo, rfl, rfl⟩ := handling_of_user hwork
      have hlost := hundisturbed.1
      rw [records, hpos] at hlost
      rw [hpos] at hs
      obtain rfl : todo = [] := by simpa [Pos.todo, List.filterMap_map, Function.comp_def] using hlost
      simpa [records, hpos, Pos.todo] using hs

theorem Pending.entered {n : Nat} {h : List (LossyLabel ρ)} {s t : Solo (List ρ) (Pos ρ α H)}
    {func : H} (hstep : (service H reader).solo.step s (.enter func) = some t)
    (hs : Pending reader n h s) : Served reader n (h ++ records reader s (.enter func)) t := by
  refine ⟨hs.step hstep ⟨rfl, by simp⟩, Or.inl ⟨func, ?_⟩⟩
  rw [(Service.eq_of_enter hstep).2]
  rfl

theorem Served.step {n : Nat} {h : List (LossyLabel ρ)} {s t : Solo (List ρ) (Pos ρ α H)}
    {l : SoloLabel (Option Errno) (KernelAct ρ) H}
    (hstep : (service H reader).solo.step s l = some t) (hundisturbed : Undisturbed reader s l)
    (hs : Served reader n h s) : Served reader n (h ++ records reader s l) t := by
  refine ⟨hs.1.step hstep hundisturbed, ?_⟩
  obtain ⟨hpending, hserved⟩ := hs
  rw [Pending] at hpending
  rw [List.filterMap_append, List.length_append]
  cases l with
  | outside act =>
      cases hstep
      refine hserved.imp_right fun hle => Nat.le_trans hle ?_
      rw [Nat.add_right_comm]
      exact Nat.le_add_right ..
  | enter func =>
      obtain ⟨-, rfl⟩ := Service.eq_of_enter hstep
      exact Or.inl ⟨func, rfl⟩
  | act failure =>
      refine Or.inr ?_
      rcases act_cases hstep with ⟨func, hpos, hread, hrecords⟩ |
        ⟨func, r, todo, item, hpos, -, rfl, hrecords⟩ | ⟨func, r, todo, hpos, rfl, hrecords⟩ |
        ⟨func, hpos, rfl, hrecords⟩ <;> rw [hrecords] <;> simp only [hpos] at hpending hserved
      · rcases hread with ⟨-, rfl⟩ | ⟨hfails, rfl⟩
        · simp [Pos.todo] at hpending ⊢
          omega
        · -- there was nothing to read
          have hempty : s.state = [] := hfails.resolve_left fun hfailed => by
            obtain ⟨errno, rfl⟩ := Option.ne_none_iff_exists'.mp hfailed
            exact hundisturbed.2 errno rfl func hpos
          simpa [Pos.todo, hempty] using hpending
      · have hle := hserved.resolve_left (by simp)
        simp [Pos.todo] at hle ⊢
        omega
      · have hlost := hundisturbed.1
        rw [hrecords] at hlost
        simp at hlost
      · simpa [Pos.todo] using hserved.resolve_left (by simp)
  | returns =>
      obtain ⟨pos, back, hpos, hwork, rfl⟩ := Service.eq_of_returns hstep
      obtain ⟨func, item, todo, rfl, rfl⟩ := handling_of_user hwork
      rw [hpos] at hserved
      simpa [records, Pos.todo] using hserved.resolve_left (by simp)
  | throws exc =>
      obtain ⟨pos, back, hpos, hwork, rfl⟩ := Service.eq_of_throws hstep
      obtain ⟨func, item, todo, rfl, rfl⟩ := handling_of_user hwork
      have hlost := hundisturbed.1
      rw [records, hpos] at hlost
      rw [hpos] at hserved
      obtain rfl : todo = [] := by simpa [Pos.todo, List.filterMap_map, Function.comp_def] using hlost
      simpa [records, hpos, Pos.todo] using hserved.resolve_left (by simp)

/-! ### Many readers -/

/-- What the kernel has queued at a descriptor, or had when it was closed. -/
def pendingOf (k : κ) (s : Sources κ (List ρ) (Pos ρ α H) H G ι ε) : List ρ := (s.source k).state []

variable [DecidableEq κ]

/-- The records that arrive at the descriptor. -/
def arrivedAt (k : κ) (ls : List (SourcesLabel κ (Option Errno) (KernelAct ρ) H G ι ε)) : List ρ :=
  (ls.filterMap (SourcesLabel.outside? k)).map KernelAct.record

/-- What the lambda of the source has read and has not come to, if this call of `exec` runs it. -/
def batchOf (e : ε) (k : κ) (s : Sources κ (List ρ) (Pos ρ α H) H G ι ε) : List ρ :=
  match s.frame e with
  | some (k', pos) => if k' = k then pos.todo else []
  | none => []

/-- The record that the lambda of the source calls its function for. -/
def handed (reader : Reader ρ α) (k : κ) (s : Sources κ (List ρ) (Pos ρ α H) H G ι ε) :
    SourcesLabel κ (Option Errno) (KernelAct ρ) H G ι ε → List ρ
  | .act e _ =>
      match s.frame e with
      | some (k', .loop _ (r :: _)) =>
          match reader.record r with
          | .ok _ => if k' = k then [r] else []
          | .error _ => []
      | _ => []
  | _ => []

/-- What it calls its function with. -/
def called (reader : Reader ρ α) (k : κ) (s : Sources κ (List ρ) (Pos ρ α H) H G ι ε) :
    SourcesLabel κ (Option Errno) (KernelAct ρ) H G ι ε → List α
  | .act e _ =>
      match s.frame e with
      | some (k', .loop _ (r :: _)) =>
          match reader.record r with
          | .ok item => if k' = k then [item] else []
          | .error _ => []
      | _ => []
  | _ => []

/-- What is lost: the oldest record to an overrun, a record that is not what it should be with the rest
of its batch, and the rest of a batch to an exception of the function. -/
def lost (reader : Reader ρ α) (k : κ) (s : Sources κ (List ρ) (Pos ρ α H) H G ι ε) :
    SourcesLabel κ (Option Errno) (KernelAct ρ) H G ι ε → List ρ
  | .outside k' (.overrun _) => if k' = k then (pendingOf k s).take 1 else []
  | .act e _ =>
      match s.frame e with
      | some (k', .loop _ (r :: todo)) =>
          match reader.record r with
          | .ok _ => []
          | .error _ => if k' = k then r :: todo else []
      | _ => []
  | .loop (.exec e (.callback (.throws _))) => batchOf e k s
  | _ => []

theorem records_history (k : κ) {s : Sources κ (List ρ) (Pos ρ α H) H G ι ε} (h : s.Inv)
    (l : SourcesLabel κ (Option Errno) (KernelAct ρ) H G ι ε) :
    s.history (service H reader) (records reader) k l =
      (lost reader k s l).map .drop ++ ((l.outside? k).elim [] fun act => [.send act.record]) ++
        (handed reader k s l).map .receive := by
  cases l with
  | outside k' act =>
      by_cases heq : k' = k
      · subst heq
        cases act <;>
          simp [Sources.history, Sources.soloSteps, Sources.soloOf, service, records, lost, handed,
            pendingOf, SourcesLabel.outside?, KernelAct.record]
      · cases act <;>
          simp [Sources.history, Sources.soloSteps, lost, handed, SourcesLabel.outside?, heq]
  | act e choice =>
      cases hframe : s.frame e with
      | none => simp [Sources.history, Sources.soloSteps, lost, handed, SourcesLabel.outside?, hframe]
      | some r =>
          obtain ⟨k', pos⟩ := r
          by_cases heq : k' = k
          · subst heq
            have hpos := Sources.posOf_eq_some h hframe
            cases pos with
            | reading func =>
                cases hsource : s.source k' <;>
                  simp [Sources.history, Sources.soloSteps, Sources.soloOf, service, work, records,
                    lost, handed, SourcesLabel.outside?, hframe, hpos, hsource]
            | loop func todo =>
                cases todo with
                | nil =>
                    simp [Sources.history, Sources.soloSteps, Sources.soloOf, service, work, records,
                      lost, handed, SourcesLabel.outside?, hframe, hpos]
                | cons r todo =>
                    cases hrecord : reader.record r <;>
                      simp [Sources.history, Sources.soloSteps, Sources.soloOf, service, work,
                        records, lost, handed, SourcesLabel.outside?, hframe, hpos, hrecord]
            | handling func item todo =>
                simp [Sources.history, Sources.soloSteps, Sources.soloOf, service, work, records,
                  lost, handed, SourcesLabel.outside?, hframe, hpos]
          · rcases pos with func | ⟨func, _ | ⟨r, todo⟩⟩ | ⟨func, item, todo⟩
            case loop.cons =>
              cases hrecord : reader.record r <;>
                simp [Sources.history, Sources.soloSteps, lost, handed, SourcesLabel.outside?, hframe,
                  heq, hrecord]
            all_goals
              simp [Sources.history, Sources.soloSteps, lost, handed, SourcesLabel.outside?, hframe,
                heq]
  | loop l =>
      cases l with
      | stop id act => rfl
      | exec e act =>
          cases act with
          | invoke =>
              refine List.flatMap_eq_nil_iff.mpr fun a ha => ?_
              cases Sources.shows_of_mem ha
              rfl
          | callback act =>
              cases act with
              | returns =>
                  refine List.flatMap_eq_nil_iff.mpr fun a ha => ?_
                  cases Sources.shows_of_mem ha
                  rfl
              | throws exc =>
                  cases hframe : s.frame e with
                  | none =>
                      simp [Sources.history, Sources.soloSteps, lost, handed, batchOf,
                        SourcesLabel.outside?, hframe]
                  | some r =>
                      obtain ⟨k', pos⟩ := r
                      by_cases heq : k' = k
                      · subst heq
                        have hpos := Sources.posOf_eq_some h hframe
                        simp [Sources.history, Sources.soloSteps, Sources.soloOf, records, lost,
                          handed, batchOf, SourcesLabel.outside?, hframe, hpos]
                      · simp [Sources.history, Sources.soloSteps, lost, handed, batchOf,
                          SourcesLabel.outside?, hframe, heq]
              | _ => rfl
          | _ => rfl
  | _ => rfl

theorem received?_history (k : κ) {s : Sources κ (List ρ) (Pos ρ α H) H G ι ε} (h : s.Inv)
    (l : SourcesLabel κ (Option Errno) (KernelAct ρ) H G ι ε) :
    (s.history (service H reader) (records reader) k l).filterMap LossyLabel.received? =
      handed reader k s l := by
  rw [records_history k h]
  cases l.outside? k <;>
    simp [List.filterMap_append, List.filterMap_cons, List.filterMap_map, Function.comp_def]

theorem dropped?_history (k : κ) {s : Sources κ (List ρ) (Pos ρ α H) H G ι ε} (h : s.Inv)
    (l : SourcesLabel κ (Option Errno) (KernelAct ρ) H G ι ε) :
    (s.history (service H reader) (records reader) k l).filterMap LossyLabel.dropped? =
      lost reader k s l := by
  rw [records_history k h]
  cases l.outside? k <;>
    simp [List.filterMap_append, List.filterMap_cons, List.filterMap_map, Function.comp_def]

theorem handed_eq_called (k : κ) (s : Sources κ (List ρ) (Pos ρ α H) H G ι ε)
    (l : SourcesLabel κ (Option Errno) (KernelAct ρ) H G ι ε) :
    (handed reader k s l).map reader.record = (called reader k s l).map .ok := by
  cases l with
  | act e choice =>
      simp only [handed, called]
      split
      · split <;> rename_i hrecord
        · split
          · exact congrArg (fun result => [result]) hrecord
          · rfl
        · rfl
      · rfl
  | _ => rfl

/-- What is held of a reader is what the kernel has queued and what its lambda has read. -/
theorem held_soloOf {k : κ} {s : Sources κ (List ρ) (Pos ρ α H) H G ι ε} (h : s.Inv) {e : ε}
    (honly : ∀ e' pos, s.frame e' = some (k, pos) → e' = e) :
    held (s.soloOf (service H reader) k) = batchOf e k s ++ pendingOf k s := by
  cases hframe : s.frame e with
  | none =>
      have hpos : Sources.posOf s.frame k = none := Sources.posOf_eq_none fun e' pos hframe' => by
        obtain rfl := honly e' pos hframe'
        rw [hframe] at hframe'
        cases hframe'
      simp [held, Sources.soloOf, hpos, batchOf, hframe, pendingOf, service]
  | some r =>
      obtain ⟨k', pos⟩ := r
      have hpos := Sources.posOf_of_frame (k := k) h hframe
      by_cases heq : k' = k
      · simp [held, Sources.soloOf, hpos, batchOf, hframe, pendingOf, service, heq]
      · simp [held, Sources.soloOf, hpos, batchOf, hframe, pendingOf, service, heq]

/-- Nothing of the source is lost in the step. -/
def LosesNothing (reader : Reader ρ α) (k : κ) (s : Sources κ (List ρ) (Pos ρ α H) H G ι ε)
    (l : SourcesLabel κ (Option Errno) (KernelAct ρ) H G ι ε) : Prop :=
  lost reader k s l = []

instance [DecidableEq ρ] {k : κ} (s : Sources κ (List ρ) (Pos ρ α H) H G ι ε)
    (l : SourcesLabel κ (Option Errno) (KernelAct ρ) H G ι ε) :
    Decidable (LosesNothing reader k s l) :=
  inferInstanceAs (Decidable (_ = _))

/-- The reads give what the kernel has queued. -/
def Reads : SourcesLabel κ (Option Errno) (KernelAct ρ) H G ι ε → Prop
  | .act _ failure => failure = none
  | _ => True

theorem does_undisturbed {k : κ} {s : Sources κ (List ρ) (Pos ρ α H) H G ι ε} (h : s.Inv)
    {l : SourcesLabel κ (Option Errno) (KernelAct ρ) H G ι ε} (hloses : LosesNothing reader k s l)
    (hreads : Reads l) : s.Does (service H reader) (Undisturbed reader) k l := by
  intro a ha
  constructor
  · rcases Sources.soloSteps_cases (service H reader) k s l with hnone | ⟨a', hone⟩
    · rw [hnone] at ha
      cases ha
    · rw [hone] at ha
      obtain rfl := List.mem_singleton.mp ha
      have hlost := (dropped?_history k h l).trans hloses
      rw [Sources.history, hone] at hlost
      simpa using hlost
  · rintro errno rfl func hpos
    cases Sources.shows_of_mem ha
    cases hreads

variable [DecidableEq ι] [DecidableEq ε]

def handedAt (reader : Reader ρ α) (k : κ) (s : Sources κ (List ρ) (Pos ρ α H) H G ι ε)
    (ls : List (SourcesLabel κ (Option Errno) (KernelAct ρ) H G ι ε)) : List ρ :=
  (sources κ G ι ε (service H reader)).shown (handed reader k) s ls

def calledAt (reader : Reader ρ α) (k : κ) (s : Sources κ (List ρ) (Pos ρ α H) H G ι ε)
    (ls : List (SourcesLabel κ (Option Errno) (KernelAct ρ) H G ι ε)) : List α :=
  (sources κ G ι ε (service H reader)).shown (called reader k) s ls

def lostAt (reader : Reader ρ α) (k : κ) (s : Sources κ (List ρ) (Pos ρ α H) H G ι ε)
    (ls : List (SourcesLabel κ (Option Errno) (KernelAct ρ) H G ι ε)) : List ρ :=
  (sources κ G ι ε (service H reader)).shown (lost reader k) s ls

section

variable {k : κ} {s t : Sources κ (List ρ) (Pos ρ α H) H G ι ε}
  {ls : List (SourcesLabel κ (Option Errno) (KernelAct ρ) H G ι ε)}
  (hrun : (sources κ G ι ε (service H reader)).run s ls = some t)

include hrun

theorem sent_of_run : ((sources κ G ι ε (service H reader)).shown
    (Sources.history (service H reader) (records reader) k) s ls).filterMap LossyLabel.sent? =
      arrivedAt k ls := by
  exact (Sources.filterMap_shown_history sent_records hrun).trans List.map_eq_flatMap.symm

variable (hs : s.Inv)

include hs

theorem received_of_run : ((sources κ G ι ε (service H reader)).shown
    (Sources.history (service H reader) (records reader) k) s ls).filterMap LossyLabel.received? =
      handedAt reader k s ls := by
  rw [System.shown_filterMap]
  exact System.shown_congr (Sources.inv_preserved (service H reader))
    (fun s l h => received?_history k h l) hrun hs

theorem dropped_of_run : ((sources κ G ι ε (service H reader)).shown
    (Sources.history (service H reader) (records reader) k) s ls).filterMap LossyLabel.dropped? =
      lostAt reader k s ls := by
  rw [System.shown_filterMap]
  exact System.shown_congr (Sources.inv_preserved (service H reader))
    (fun s l h => dropped?_history k h l) hrun hs

theorem leaky_of_run {h : List (LossyLabel ρ)} (hleaky : Leaky h (held (s.soloOf (service H reader) k))) :
    Leaky (h ++ (sources κ G ι ε (service H reader)).shown
        (Sources.history (service H reader) (records reader) k) s ls)
      (held (t.soloOf (service H reader) k)) :=
  Sources.history_preserved (records reader) (J := fun h s => Leaky h (held s))
    (fun _ _ _ _ hstep h => leaky_step hstep h) hrun hs hleaky

end

theorem map_record_handedAt (k : κ) (s : Sources κ (List ρ) (Pos ρ α H) H G ι ε)
    (ls : List (SourcesLabel κ (Option Errno) (KernelAct ρ) H G ι ε)) :
    (handedAt reader k s ls).map reader.record = (calledAt reader k s ls).map .ok := by
  rw [handedAt, calledAt, System.shown_map, System.shown_map]
  congr 1
  funext s l
  exact handed_eq_called k s l

theorem leaky_of_start {epfd evtfd : Cmn.Fd} {wake : G} {k : κ} {e : ε}
    {ls : List (SourcesLabel κ (Option Errno) (KernelAct ρ) H G ι ε)}
    {s : Sources κ (List ρ) (Pos ρ α H) H G ι ε}
    (hrun : (sources κ G ι ε (service H reader)).run (.start epfd evtfd wake) ls = some s)
    (honly : ∀ e' pos, s.frame e' = some (k, pos) → e' = e) :
    Leaky ((sources κ G ι ε (service H reader)).shown
        (Sources.history (service H reader) (records reader) k) (.start epfd evtfd wake) ls)
      (batchOf e k s ++ pendingOf k s) := by
  have hstart := Sources.inv_start (κ := κ) (δ := List ρ) (π := Pos ρ α H) (H := H) (ι := ι) (ε := ε)
    epfd evtfd wake
  have hempty : Leaky [] (held ((Sources.start epfd evtfd wake :
      Sources κ (List ρ) (Pos ρ α H) H G ι ε).soloOf (service H reader) k)) := by
    rw [Sources.soloOf_start]
    exact Leaky.sends []
  have hleaky := leaky_of_run hrun hstart hempty
  rwa [List.nil_append, held_soloOf ((Sources.inv_preserved _).run hrun hstart) honly] at hleaky

/-- **In order up to what is lost.** Among any number of readers on an event queue, with functions that do
whatever user code may: the records that the functions of a reader have been called for, what its lambda
has still to come to and what the kernel has queued stand in the order in which they arrived, each once,
and all that arrived is there but for what was lost. -/
theorem handedAt_sublist_arrivedAt {epfd evtfd : Cmn.Fd} {wake : G} (k : κ) (e : ε)
    {ls : List (SourcesLabel κ (Option Errno) (KernelAct ρ) H G ι ε)}
    {s : Sources κ (List ρ) (Pos ρ α H) H G ι ε}
    (hrun : (sources κ G ι ε (service H reader)).run (.start epfd evtfd wake) ls = some s)
    (honly : ∀ e' pos, s.frame e' = some (k, pos) → e' = e) :
    let handed := handedAt reader k (.start epfd evtfd wake) ls
    let lost := lostAt reader k (.start epfd evtfd wake) ls
    let held := batchOf e k s ++ pendingOf k s
    (handed ++ held).Sublist (arrivedAt k ls) ∧ (handed ++ held ++ lost).Perm (arrivedAt k ls) ∧
      (handed ++ held = arrivedAt k ls ↔ lost = []) ∧
      handed.map reader.record = (calledAt reader k (.start epfd evtfd wake) ls).map .ok := by
  intro handed lost held'
  have hstart := Sources.inv_start (κ := κ) (δ := List ρ) (π := Pos ρ α H) (H := H) (ι := ι) (ε := ε)
    epfd evtfd wake
  have hleaky := leaky_of_start hrun honly
  have hiff := hleaky.eq_sent_iff
  obtain ⟨horder, hall⟩ := hleaky
  rw [sent_of_run hrun, received_of_run hrun hstart] at horder
  rw [Conserved, sent_of_run hrun, received_of_run hrun hstart, dropped_of_run hrun hstart] at hall
  rw [sent_of_run hrun, received_of_run hrun hstart, dropped_of_run hrun hstart] at hiff
  exact ⟨horder, hall, hiff, map_record_handedAt k _ ls⟩

/-- The first of the line events goes to an overrun; after the second one, the function of the line is
not called for an unknown edge, and the rest of the batch is lost with it. -/
theorem handedAt_sublist_arrivedAt_inspectInput :
    let exec : ExecAct (Callable (Nat × Nat) Nat) Nat →
        SourcesLabel Nat (Option Errno) (KernelAct LineEvent) Nat Nat Nat Nat :=
      fun act => .loop (.exec 0 act)
    let start : Sources Nat (List LineEvent) (Pos LineEvent (Int × Edge) Nat) Nat Nat Nat Nat :=
      .start ⟨3⟩ ⟨4⟩ 0
    let labels : List (SourcesLabel Nat (Option Errno) (KernelAct LineEvent) Nat Nat Nat Nat) :=
      [.construct none 0 5 none, .install none 0 (some 7) none, .outside 0 (.queue ⟨10, 1⟩),
        .outside 0 (.queue ⟨11, 2⟩), .outside 0 (.queue ⟨12, 3⟩), .outside 0 (.overrun ⟨13, 1⟩),
        exec .call, exec .step, exec (.drained (some eagain)), exec .step, exec .epollWait,
        exec (.woken (.ok [⟨epollIn, 5⟩])), exec .step, exec .step, exec .step, exec .step,
        exec .step, exec .invoke, .act 0 none, .act 0 none, .outside 0 (.queue ⟨14, 1⟩),
        exec (.callback .returns), .act 0 none]
    ∃ s, (sources Nat Nat Nat Nat (service Nat inspectInput)).run start labels = some s ∧
      calledAt inspectInput 0 start labels = [(11, .falling)] ∧ pendingOf 0 s = [⟨14, 1⟩] ∧
      lostAt inspectInput 0 start labels = [⟨10, 1⟩, ⟨12, 3⟩, ⟨13, 1⟩] ∧
      (handedAt inspectInput 0 start labels ++ (batchOf 0 0 s ++ pendingOf 0 s) ++
        lostAt inspectInput 0 start labels).Perm (arrivedAt 0 labels) := by
  intro exec start labels
  have hrun : (sources Nat Nat Nat Nat (service Nat inspectInput)).run start labels = some _ := rfl
  refine ⟨_, hrun, rfl, rfl, rfl, (handedAt_sublist_arrivedAt 0 0 hrun ?_).2.1⟩
  intro e pos hframe
  cases e <;> cases hframe

section

variable {epfd evtfd : Cmn.Fd} {wake : G} {k : κ} {e : ε} {batch : List Report} {r : Report}
  {ls ls' : List (SourcesLabel κ (Option Errno) (KernelAct ρ) H G ι ε)}
  {s u t : Sources κ (List ρ) (Pos ρ α H) H G ι ε}
  (hs : s.Inv)
  (hwoken : (sources κ G ι ε (service H reader)).step s (.loop (.exec e (.woken (.ok batch)))) =
    some u)
  (hrun' : (sources κ G ι ε (service H reader)).run u ls' = some t)
  (hr : r ∈ batch) (hbit : r.events &&& epollIn ≠ 0#32)
  (hinstalled : (sources κ G ι ε (service H reader)).Along (fun s _ => s.Installed k r.fd) u ls')
  (hloses : (sources κ G ι ε (service H reader)).Along (LosesNothing reader k) u ls')
  (hreads : ∀ l ∈ ls', Reads l)
  (hend : t.loop.execs e = .whileTest) (hrunning : t.loop.queue.state = .running)

include hs hwoken hrun' hr hbit hinstalled hloses hreads hend hrunning

/-- What is handed over in a round is what was queued when the wait reported the reader, followed by what
has arrived since, up to what the kernel has queued at the end; and it is what one read takes at least. -/
theorem served_of_round :
    handedAt reader k u ls' ++ pendingOf k t = pendingOf k s ++ arrivedAt k ls' ∧
      min reader.capacity (pendingOf k s).length ≤ (handedAt reader k u ls').length := by
  have hu := Sources.inv_preserved (service H reader) hwoken hs
  obtain ⟨hsource, -, hpos⟩ := Sources.of_woken hwoken
  have hidle : Sources.posOf u.frame k = none := by
    refine Sources.posOf_of_not_callback hu (e := e) ?_ (by simp [hpos]) k
    simp [ExecPos.Entered, hpos, ExecPos.place]
  have hundisturbed : (sources κ G ι ε (service H reader)).Along
      (Sources.Does (service H reader) (Undisturbed reader) k) u ls' :=
    (hloses.and ((System.along_iff_forall_mem hrun').mpr hreads)).of_invariant
      (fun _ _ _ hstep _ h => Sources.inv_preserved (service H reader) hstep h)
      (fun _ _ _ _ hC h => does_undisturbed h hC.1 hC.2) hrun' hu
  have hnothing : lostAt reader k u ls' = [] := (System.shown_eq_nil_iff hrun').mpr hloses
  -- what is queued when the wait reports the reader comes first
  have hpending : held (u.soloOf (service H reader) k) = pendingOf k s := by
    rw [held, Sources.soloOf, hidle, hsource]
    rfl
  have hleaky := leaky_of_run (k := k) hrun' hu (Leaky.sends _)
  obtain ⟨⟨-, hserved⟩, hdone⟩ := Sources.round_invariant (records reader) (C := Undisturbed reader)
    (J := Pending reader (min reader.capacity (pendingOf k s).length))
    (K := Served reader (min reader.capacity (pendingOf k s).length))
    (fun _ _ _ _ => Pending.step) (fun _ _ _ _ => Pending.entered) (fun _ _ _ _ => Served.step) hs
    hwoken hrun' hr hbit hinstalled hend hrunning hundisturbed (Nat.le_add_left ..)
  rw [hdone, received_of_run hrun' hu] at hserved
  have heq := hleaky.eq_sent_iff.mpr (by
    rw [List.filterMap_append, dropped_of_run hrun' hu, hnothing, LossyLabel.dropped?_sends]
    rfl)
  rw [List.filterMap_append, List.filterMap_append, received_of_run hrun' hu, sent_of_run hrun',
    LossyLabel.received?_sends, LossyLabel.sent?_sends, List.nil_append, hpending, held, hdone] at heq
  exact ⟨heq, hserved.resolve_left (by simp)⟩

end

/-- **Read in the round.** When a wait reports a reader, its functions are called for what one read could
take at that time before the loop waits again: as long as its lambda stays registered, no record is lost,
the reads succeed and nobody stops the loop. -/
theorem take_prefix_handedAt {epfd evtfd : Cmn.Fd} {wake : G} {k : κ} {e : ε}
    (batch : List Report) {r : Report}
    (ls ls' : List (SourcesLabel κ (Option Errno) (KernelAct ρ) H G ι ε))
    {s u t : Sources κ (List ρ) (Pos ρ α H) H G ι ε}
    (hrun : (sources κ G ι ε (service H reader)).run (.start epfd evtfd wake) ls = some s)
    (hwoken : (sources κ G ι ε (service H reader)).step s (.loop (.exec e (.woken (.ok batch)))) =
      some u)
    (hrun' : (sources κ G ι ε (service H reader)).run u ls' = some t)
    (hr : r ∈ batch) (hbit : r.events &&& epollIn ≠ 0#32)
    (hinstalled : (sources κ G ι ε (service H reader)).Along (fun s _ => s.Installed k r.fd) u ls')
    (hloses : (sources κ G ι ε (service H reader)).Along (LosesNothing reader k) u ls')
    (hreads : ∀ l ∈ ls', Reads l)
    (hend : t.loop.execs e = .whileTest) (hrunning : t.loop.queue.state = .running) :
    (pendingOf k s).take reader.capacity <+: handedAt reader k u ls' := by
  have hs := (Sources.inv_preserved (service H reader)).run hrun (Sources.inv_start epfd evtfd wake)
  obtain ⟨heq, hserved⟩ := served_of_round hs hwoken hrun' hr hbit hinstalled hloses hreads hend
    hrunning
  refine List.prefix_of_prefix_length_le
    ((List.take_prefix ..).trans (List.prefix_append _ (arrivedAt k ls'))) ⟨_, heq⟩ ?_
  rwa [List.length_take]

/-- A batch of sixteen is read of what may be more; here it is two line events, and a third one comes
too late for the batch. -/
theorem take_prefix_handedAt_inspectInput :
    let exec : ExecAct (Callable (Nat × Nat) Nat) Nat →
        SourcesLabel Nat (Option Errno) (KernelAct LineEvent) Nat Nat Nat Nat :=
      fun act => .loop (.exec 0 act)
    let start : Sources Nat (List LineEvent) (Pos LineEvent (Int × Edge) Nat) Nat Nat Nat Nat :=
      .start ⟨3⟩ ⟨4⟩ 0
    let waiting : List (SourcesLabel Nat (Option Errno) (KernelAct LineEvent) Nat Nat Nat Nat) :=
      [.construct none 0 5 none, .install none 0 (some 7) none, .outside 0 (.queue ⟨10, 1⟩),
        .outside 0 (.queue ⟨11, 2⟩), exec .call, exec .step, exec (.drained (some eagain)),
        exec .step, exec .epollWait]
    let round : List (SourcesLabel Nat (Option Errno) (KernelAct LineEvent) Nat Nat Nat Nat) :=
      [exec .step, exec .step, exec .step, exec .step, exec .step, exec .invoke, .act 0 none,
        .act 0 none, .outside 0 (.queue ⟨12, 1⟩), exec (.callback .returns), .act 0 none,
        exec (.callback .returns), .act 0 none, exec .step, exec .step, exec .step, exec .step,
        exec .step, exec .step, exec .step]
    ∃ s u t, (sources Nat Nat Nat Nat (service Nat inspectInput)).run start waiting = some s ∧
      (sources Nat Nat Nat Nat (service Nat inspectInput)).step s
        (exec (.woken (.ok [⟨epollIn, 5⟩]))) = some u ∧
      (sources Nat Nat Nat Nat (service Nat inspectInput)).run u round = some t ∧
      t.loop.execs 0 = .whileTest ∧ pendingOf 0 t = [⟨12, 1⟩] ∧
      (pendingOf 0 s).take inspectInput.capacity <+: handedAt inspectInput 0 u round := by
  intro exec start waiting round
  have hrun : (sources Nat Nat Nat Nat (service Nat inspectInput)).run start waiting = some _ := rfl
  have hreads : ∀ l ∈ round, Reads l := by simp [round, exec, Reads]
  refine ⟨_, _, _, hrun, rfl, rfl, ?_, ?_, ?_⟩
  · rfl
  · rfl
  · refine take_prefix_handedAt [⟨epollIn, 5⟩] waiting round (r := ⟨epollIn, 5⟩) (e := 0) hrun
      rfl rfl ?_ ?_ ?_ ?_ hreads ?_ ?_
    · exact List.mem_singleton.mpr rfl
    · decide
    · decide +kernel
    · decide +kernel
    · rfl
    · rfl

end Reader

end Suc.Epl
