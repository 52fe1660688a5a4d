import Suc.Epl.BatchReader
import Suc.Transition.Channel

/-!
# What a batch reader hands over

The records of a batch are a lossy channel: a read sends all of them, the loop receives one at a time,
and whatever ends the loop early drops the rest. An exception of the function ends it behind the
record at hand, an unknown line event at the record itself.
-/

namespace Suc.Epl

open Transition

variable {ρ α H : Type}

namespace ReaderState

variable (reader : Reader ρ α) (s : ReaderState ρ α H)

/-- The records that a read takes from the kernel. -/
def removed : ReaderLabel ρ H → List ρ
  | .read (.records batch) => batch
  | _ => []

/-- What the function is handed. -/
def handed : ReaderLabel ρ H → List α
  | .step =>
      match s.pos with
      | .loop _ (r :: _) =>
          match reader.record r with
          | .ok item => [item]
          | .error _ => []
      | _ => []
  | _ => []

/-- The function does not throw while records of its batch are left, and the loop can hand over every
record it meets. -/
def Complete : ReaderLabel ρ H → Prop
  | .throws _ => ∀ func item todo, s.pos = .handling func item todo → todo = []
  | .step => ∀ func r todo, s.pos = .loop func (r :: todo) → ∃ item, reader.record r = .ok item
  | _ => True

/-! ### The batch as a lossy channel -/

def held : List (Except Exception α) :=
  match s.pos with
  | .loop _ todo | .handling _ _ todo => todo.map reader.record
  | _ => []

def emits : ReaderLabel ρ H → List (LossyLabel (Except Exception α))
  | .read (.records batch) => (batch.map reader.record).map .send
  | .step =>
      match s.pos with
      | .loop _ (r :: todo) =>
          match reader.record r with
          | .ok item => [.receive (.ok item)]
          | .error _ => ((r :: todo).map reader.record).map .drop
      | _ => []
  | .throws _ =>
      match s.pos with
      | .handling _ _ todo => (todo.map reader.record).map .drop
      | _ => []
  | _ => []

inductive Move : ReaderLabel ρ H → ReaderState ρ α H → Prop where
  | install (func : Option H) : Move (.install func) { s with func }
  | dispatch (func : H) (hpos : s.pos = .idle) : Move .dispatch { s with pos := .reading func }
  | read (func : H) (batch : List ρ) (hpos : s.pos = .reading func) :
      Move (.read (.records batch)) { s with pos := .loop func batch }
  | unread (func : H) (result : ReadResult ρ) (log : List Exception)
      (hpos : s.pos = .reading func) (hresult : ∀ batch, result ≠ .records batch) :
      Move (.read result) { s with pos := .idle, log }
  | loopEnd (func : H) (hpos : s.pos = .loop func []) : Move .step { s with pos := .idle }
  | hand (func : H) (r : ρ) (todo : List ρ) (item : α) (hpos : s.pos = .loop func (r :: todo))
      (hitem : reader.record r = .ok item) : Move .step { s with pos := .handling func item todo }
  | reject (func : H) (r : ρ) (todo : List ρ) (exc : Exception)
      (hpos : s.pos = .loop func (r :: todo)) (hexc : reader.record r = .error exc) :
      Move .step { s with pos := .idle, log := s.log ++ [exc] }
  | returns (func : H) (item : α) (todo : List ρ) (hpos : s.pos = .handling func item todo) :
      Move .returns { s with pos := .loop func todo }
  | throws (func : H) (item : α) (todo : List ρ) (exc : Exception)
      (hpos : s.pos = .handling func item todo) :
      Move (.throws exc) { s with pos := .idle, log := s.log ++ [exc] }

variable {reader} {s} {t : ReaderState ρ α H} {l : ReaderLabel ρ H}

theorem exists_leave_eq {β : Type} (s : ReaderState ρ α H) (result : Except Exception β) :
    ∃ log, s.leave result = { s with pos := .idle, log } := by
  cases result with
  | ok value => exact ⟨s.log, rfl⟩
  | error exc => exact ⟨_, rfl⟩

theorem move_of_step (h : (batchReader H reader).step s l = some t) : s.Move reader l t := by
  obtain ⟨func, pos, log⟩ := s
  cases l with
  | install func => cases pos <;> cases h <;> exact .install func
  | dispatch =>
      cases pos <;> cases func <;> cases h
      exact .dispatch _ rfl
  | read result =>
      cases pos with
      | reading func =>
          cases result with
          | records batch =>
              simp only [batchReader, step, Option.ite_none_right_eq_some, Option.some.injEq] at h
              obtain ⟨-, rfl⟩ := h
              exact .read func batch rfl
          | zero errno | failed errno =>
              cases h
              obtain ⟨log, hleave⟩ := exists_leave_eq ⟨_, .reading func, log⟩ (reader.unread _)
              rw [hleave]
              exact .unread func _ log rfl (by simp)
      | _ => cases h
  | step =>
      cases pos with
      | loop func todo =>
          cases todo with
          | nil => cases h; exact .loopEnd func rfl
          | cons r todo =>
              cases hr : reader.record r with
              | ok item =>
                  simp only [batchReader, step, hr, Option.some.injEq] at h
                  subst h
                  exact .hand func r todo item rfl hr
              | error exc =>
                  simp only [batchReader, step, hr, Option.some.injEq] at h
                  subst h
                  exact .reject func r todo exc rfl hr
      | _ => cases h
  | returns =>
      cases pos with
      | handling func item todo => cases h; exact .returns func item todo rfl
      | _ => cases h
  | throws exc =>
      cases pos with
      | handling func item todo => cases h; exact .throws func item todo exc rfl
      | _ => cases h

theorem Move.channel (h : s.Move reader l t) :
    (lossyChannel _).run (s.held reader) (s.emits reader l) = some (t.held reader) := by
  cases h with
  | install func => rfl
  | dispatch func hpos => simp [held, emits, hpos]
  | read func batch hpos =>
      simp only [held, emits, hpos]
      exact lossyChannel_run_send [] _
  | unread func result log hpos hresult =>
      cases result with
      | records batch => exact absurd rfl (hresult batch)
      | zero errno | failed errno => simp [held, emits, hpos]
  | loopEnd func hpos => simp [held, emits, hpos]
  | hand func r todo item hpos hitem =>
      simp [held, emits, hpos, hitem, System.run_cons, lossyChannel_receive]
  | reject func r todo exc hpos hexc =>
      have hemits : s.emits reader .step = (s.held reader).map .drop := by
        simp [held, emits, hpos, hexc]
      rw [hemits]
      exact lossyChannel_run_drop _
  | returns func item todo hpos => simp [held, emits, hpos]
  | throws func item todo exc hpos =>
      simp only [held, emits, hpos]
      exact lossyChannel_run_drop _

theorem sent_emits (s : ReaderState ρ α H) (l : ReaderLabel ρ H) :
    (s.emits reader l).filterMap LossyLabel.sent? = (removed l).map reader.record := by
  cases l with
  | read result => cases result <;> simp [emits, removed, Function.comp_def]
  | step =>
      simp only [emits, removed]
      split
      · split <;> simp [List.filterMap_cons, Function.comp_def]
      · rfl
  | throws exc =>
      simp only [emits, removed]
      split <;> simp [Function.comp_def]
  | _ => rfl

theorem received_emits (s : ReaderState ρ α H) (l : ReaderLabel ρ H) :
    (s.emits reader l).filterMap LossyLabel.received? = (s.handed reader l).map .ok := by
  cases l with
  | read result => cases result <;> simp [emits, handed, Function.comp_def]
  | step =>
      simp only [emits, handed]
      split
      · split <;> simp [List.filterMap_cons, Function.comp_def]
      · rfl
  | throws exc =>
      simp only [emits, handed]
      split <;> simp [Function.comp_def]
  | _ => rfl

theorem dropped_emits_eq_nil_iff (s : ReaderState ρ α H) (l : ReaderLabel ρ H) :
    (s.emits reader l).filterMap LossyLabel.dropped? = [] ↔ s.Complete reader l := by
  cases l with
  | read result => cases result <;> simp [emits, Complete, Function.comp_def]
  | step =>
      simp only [emits, Complete]
      cases s.pos with
      | loop func todo =>
          cases todo with
          | nil => simp
          | cons r todo => cases hr : reader.record r <;> simp [hr]
      | _ => simp
  | throws exc =>
      simp only [emits, Complete]
      cases s.pos <;> simp [Function.comp_def]
  | _ => exact iff_of_true rfl trivial

variable (reader) in
/-- Every record that a run has taken from the kernel has been handed over, once and in order. -/
def AllHanded (ls : List (ReaderLabel ρ H)) : Prop :=
  ((batchReader H reader).shown (handed reader) start ls).map .ok =
    ((batchReader H reader).shown (fun _ => removed) start ls).map reader.record

theorem allHanded_iff {ls : List (ReaderLabel ρ H)}
    (hrun : (batchReader H reader).run start ls = some s) (hidle : s.pos = .idle) :
    AllHanded reader ls ↔ (batchReader H reader).Along (Complete reader) start ls := by
  have hiff := received_eq_sent_iff (held reader) (emits reader)
    (fun _ _ _ hstep => (move_of_step hstep).channel) hrun rfl (by simp [held, hidle])
  rw [System.shown_filterMap, System.shown_filterMap] at hiff
  simp only [sent_emits, received_emits] at hiff
  rw [AllHanded, System.shown_map, System.shown_map, hiff]
  exact System.along_congr (fun s l _ => dropped_emits_eq_nil_iff s l) start

end ReaderState

open ReaderState

/-- **Batches.** Between dispatches every signal and every line event taken from the kernel has been
handed over exactly when no handler has thrown with records of its batch left and no line event with
an unknown id has been met. -/
theorem allHanded_iff_complete :
    (∀ (ls : List (ReaderLabel SignalfdSiginfo H))
        (s : ReaderState SignalfdSiginfo SignalfdSiginfo H),
        (batchReader H onSignal).run start ls = some s → s.pos = .idle →
        (AllHanded onSignal ls ↔ (batchReader H onSignal).Along (Complete onSignal) start ls)) ∧
      ∀ (ls : List (ReaderLabel LineEvent H)) (s : ReaderState LineEvent (Int × Edge) H),
        (batchReader H inspectInput).run start ls = some s → s.pos = .idle →
        (AllHanded inspectInput ls ↔
          (batchReader H inspectInput).Along (Complete inspectInput) start ls) :=
  ⟨fun _ _ hrun hidle => allHanded_iff hrun hidle, fun _ _ hrun hidle => allHanded_iff hrun hidle⟩

/-- Two records in one read each, and a handler that throws on the second signal. -/
theorem allHanded_iff_complete_two :
    let signals : List (ReaderLabel SignalfdSiginfo Nat) :=
      [.install (some 0), .dispatch, .read (.records [⟨15, []⟩, ⟨17, []⟩]), .step, .returns, .step,
        .throws (.user "handler")]
    let events : List (ReaderLabel LineEvent Nat) :=
      [.install (some 0), .dispatch, .read (.records [⟨1000, 1⟩, ⟨2000, 2⟩]), .step, .returns,
        .step, .returns, .step]
    (batchReader Nat onSignal).Along (Complete onSignal) start signals ∧
      (batchReader Nat inspectInput).Along (Complete inspectInput) start events := by
  intro signals events
  obtain ⟨hsignals, hevents⟩ := allHanded_iff_complete (H := Nat)
  exact ⟨(hsignals signals _ rfl rfl).mp rfl, (hevents events _ rfl rfl).mp rfl⟩

/-- The handler throws on the first of two signals, and the first of two line events has an unknown
id: nothing behind them is handed over. -/
theorem not_allHanded_of_dropped :
    let signals : List (ReaderLabel SignalfdSiginfo Nat) :=
      [.install (some 0), .dispatch, .read (.records [⟨15, []⟩, ⟨17, []⟩]), .step,
        .throws (.user "handler")]
    let events : List (ReaderLabel LineEvent Nat) :=
      [.install (some 0), .dispatch, .read (.records [⟨1000, 7⟩, ⟨2000, 1⟩]), .step]
    (∃ s, (batchReader Nat onSignal).run start signals = some s ∧ s.pos = .idle ∧
        (batchReader Nat onSignal).shown (handed onSignal) start signals = [⟨15, []⟩] ∧
        ¬AllHanded onSignal signals) ∧
      ∃ s, (batchReader Nat inspectInput).run start events = some s ∧ s.pos = .idle ∧
        (batchReader Nat inspectInput).shown (handed inspectInput) start events = [] ∧
        ¬AllHanded inspectInput events := by
  intro signals events
  refine ⟨⟨_, rfl, rfl, rfl, ?_⟩, ⟨_, rfl, rfl, rfl, ?_⟩⟩
  · intro h
    cases congrArg List.length h
  · intro h
    cases congrArg List.length h

end Suc.Epl
