import Suc.Gpio.Board
import Suc.Proof.LastRecord
import Suc.Proof.LineRequest

/-!
# From the levels of a line to the functions of its object

What the functions of a `GpioEvent` are called with are edges of its line, those that have been asked
for, in the order in which they occurred. When the buffer of the kernel is too small some of them are
lost, but never the last one: once everything has been handed over, the last edge tells the value at which
the line has settled, which is the value it has unless it is debounced.
-/

namespace Suc.Gpio

open Epl (Edge KernelAct LineEvent Reader Sources SourcesLabel inspectInput)
open Transition

variable {κ H G ι ε : Type} {program : List Layout.Byte} {ask : κ → EventAsk}

/-! ### What has been asked for -/

namespace EventAsk

variable (a : EventAsk)

def value (level : Bool) : Bool := level != a.lineArgs.activeLow

def edge (level : Bool) : Edge := if a.value level then .rising else .falling

def tells : Edge → Bool
  | .rising => decide (a.eventLineArgs.edge ≠ .falling)
  | .falling => decide (a.eventLineArgs.edge ≠ .rising)

def debounced : Bool := a.eventLineArgs.debouncePeriodUs.isSome

/-- What the functions are to be told when the line settles at a level. -/
def told (level : Bool) (now : BitVec 64) : List (Int × Edge) :=
  if a.tells (a.edge level) then [(Epl.timepoint now, a.edge level)] else []

variable {a}

theorem told_of_both (h : a.eventLineArgs.edge = .both) (level : Bool) (now : BitVec 64) :
    a.told level now = [(Epl.timepoint now, a.edge level)] := by
  cases hedge : a.edge level <;> simp [told, tells, h, hedge]

theorem edge_not_ne (level : Bool) : a.edge level ≠ a.edge (!level) := by
  cases level <;> cases hactiveLow : a.lineArgs.activeLow <;> simp [edge, value, hactiveLow]

variable (a)

/-- The line as the kernel configures it. -/
def configured (program : List Layout.Byte) : Line :=
  (Ask.event a.eventLineArgs).line program a.line a.lineArgs

end EventAsk

theorem Board.requested_eq (program : List Layout.Byte) (a : EventAsk) :
    Board.requested program a = some (a.configured program) := by
  obtain ⟨request, hrequest, -, hline⟩ :=
    Ask.exists_request program a.line a.lineArgs (.event a.eventLineArgs)
  rw [EventAsk.configured, ← hline]
  exact Option.map_eq_some_iff.mpr ⟨request, hrequest, rfl⟩

theorem Board.debounced_configured (program : List Layout.Byte) (a : EventAsk) :
    Board.debounced (a.configured program) = a.debounced := rfl

/-- What line events are decoded to. -/
def items (records : List LineEvent) : List (Int × Edge) :=
  records.filterMap fun r => (inspectInput.record r).toOption

theorem items_append (rs rs' : List LineEvent) : items (rs ++ rs') = items rs ++ items rs' :=
  List.filterMap_append

theorem items_eq (rs : List LineEvent) :
    items rs = (rs.map inspectInput.record).filterMap Except.toOption := by
  rw [List.filterMap_map]
  rfl

theorem record_queued (pending : List LineEvent) (line : Line) (r : LineEvent) :
    (Board.queued pending line r).record = r := by
  rw [Board.queued]
  split <;> rfl

theorem map_record_items {rs : List LineEvent}
    (h : ∀ r ∈ rs, ∃ item, inspectInput.record r = .ok item) :
    rs.map inspectInput.record = (items rs).map .ok := by
  induction rs with
  | nil => rfl
  | cons r rs ih =>
      obtain ⟨item, hitem⟩ := h r List.mem_cons_self
      have hrest := ih fun r' hr' => h r' (List.mem_cons_of_mem r hr')
      rw [items] at hrest ⊢
      rw [List.map_cons, List.filterMap_cons, hitem, hrest]
      rfl

/-- The kernel never queues more than it has room for. -/
theorem length_queued {pending : List LineEvent} {line : Line} (r : LineEvent)
    (h : pending.length ≤ line.bufferSize) (hroom : 0 < line.bufferSize) :
    ((Reader.service H inspectInput).outside pending (Board.queued pending line r)).length ≤
      line.bufferSize := by
  rw [Board.queued]
  split
  · rename_i hlt
    simpa [Reader.service] using hlt
  · simp only [Reader.service, List.length_append, List.length_tail, List.length_singleton]
    omega

/-- What the kernel queues is decoded to what the functions are to be told. -/
theorem map_record_event (program : List Layout.Byte) (a : EventAsk) (level : Bool) (now : BitVec 64) :
    ((a.configured program).event level now).toList.map inspectInput.record =
      (a.told level now).map .ok := by
  obtain ⟨line, ⟨consumer, activeLow⟩, ⟨debounce, edge⟩⟩ := a
  cases level <;> cases activeLow <;> cases edge <;> rfl

theorem items_event (program : List Layout.Byte) (a : EventAsk) (level : Bool) (now : BitVec 64) :
    items ((a.configured program).event level now).toList = a.told level now := by
  rw [items_eq, map_record_event, List.filterMap_map]
  exact List.filterMap_some

theorem record_of_event {a : EventAsk} {level : Bool} {now : BitVec 64} {r : LineEvent}
    (h : (a.configured program).event level now = some r) :
    ∃ item, inspectInput.record r = .ok item := by
  have hmap := map_record_event program a level now
  rw [h] at hmap
  have hmem : inspectInput.record r ∈ (a.told level now).map .ok :=
    hmap ▸ List.mem_map_of_mem List.mem_cons_self
  obtain ⟨item, -, hitem⟩ := List.mem_map.mp hmem
  exact ⟨item, hitem.symm⟩

namespace Board

/-! ### What a step does to the objects -/

/-- What arrives for the object whose line settles at a level. -/
def tellSteps (program : List Layout.Byte) (ask : κ → EventAsk) (s : Board κ H G ι ε) (k : κ)
    (level : Bool) (now : BitVec 64) :
    List (SourcesLabel κ (Option Errno) (KernelAct LineEvent) H G ι ε) :=
  match s.sources.source k with
  | .alive _ pending =>
      (((ask k).configured program).event level now).toList.map fun r =>
        .outside k (queued pending ((ask k).configured program) r)
  | _ => []

/-- The steps that the objects and their event queue take in a step of the board. -/
def sourceSteps (program : List Layout.Byte) (ask : κ → EventAsk) (s : Board κ H G ι ε) :
    BoardLabel κ H G ι ε → List (SourcesLabel κ (Option Errno) (KernelAct LineEvent) H G ι ε)
  | .construct who k answers answer =>
      match (getLine (ask k).line answers).1 with
      | .error _ => []
      | .ok fd => [.construct who k fd.fd answer]
  | .destroy who k answer => [.destroy who k answer]
  | .change line now =>
      match s.holder line with
      | none => []
      | some k => if (ask k).debounced then [] else tellSteps program ask s k (!s.level line) now
  | .settle line now =>
      match s.holder line with
      | none => []
      | some k => tellSteps program ask s k (s.level line) now
  | .source l => if inner l then [l] else []

/-- A step in which the kernel takes a level of a line for settled. -/
inductive Settles (ask : κ → EventAsk) (s : Board κ H G ι ε) (k : κ) (line : BitVec 32) :
    BoardLabel κ H G ι ε → Bool → BitVec 64 → Prop where
  | changed (now : BitVec 64) (hat : (ask k).debounced = false) :
      Settles ask s k line (.change line now) (!s.level line) now
  | lasted (now : BitVec 64) (hdebounced : (ask k).debounced)
      (hne : s.settled line ≠ s.level line) :
      Settles ask s k line (.settle line now) (s.level line) now

/-- Where a step of the objects comes from. -/
inductive Shows (program : List Layout.Byte) (ask : κ → EventAsk) (s : Board κ H G ι ε) :
    BoardLabel κ H G ι ε → SourcesLabel κ (Option Errno) (KernelAct LineEvent) H G ι ε → Prop where
  | constructed (who : Option ε) (k : κ) (answers : LineAnswers) (answer : Option Errno) (fd : Int) :
      Shows program ask s (.construct who k answers answer) (.construct who k fd answer)
  | destroyed (who : Option ε) (k : κ) (answer : Option Errno) :
      Shows program ask s (.destroy who k answer) (.destroy who k answer)
  | changed (line : BitVec 32) (now : BitVec 64) (k : κ) (hholder : s.holder line = some k)
      (pending : List LineEvent) (r : LineEvent)
      (hevent : ((ask k).configured program).event (!s.level line) now = some r) :
      Shows program ask s (.change line now)
        (.outside k (queued pending ((ask k).configured program) r))
  | settled (line : BitVec 32) (now : BitVec 64) (k : κ) (hholder : s.holder line = some k)
      (pending : List LineEvent) (r : LineEvent)
      (hevent : ((ask k).configured program).event (s.level line) now = some r) :
      Shows program ask s (.settle line now)
        (.outside k (queued pending ((ask k).configured program) r))
  | inner (l : SourcesLabel κ (Option Errno) (KernelAct LineEvent) H G ι ε)
      (hinner : Board.inner l) : Shows program ask s (.source l) l

/-- What arrives for an object is one event at most. -/
theorem tellSteps_cases (program : List Layout.Byte) (ask : κ → EventAsk) (s : Board κ H G ι ε)
    (k : κ) (level : Bool) (now : BitVec 64) :
    tellSteps program ask s k level now = [] ∨
      ∃ pending r, ((ask k).configured program).event level now = some r ∧
        tellSteps program ask s k level now =
          [.outside k (queued pending ((ask k).configured program) r)] := by
  simp only [tellSteps]
  split
  · rename_i n pending halive
    cases hevent : ((ask k).configured program).event level now with
    | none => exact Or.inl rfl
    | some r => exact Or.inr ⟨pending, r, rfl, rfl⟩
  · exact Or.inl rfl

/-- A step of the board is one step of the objects, or none. -/
theorem sourceSteps_cases (program : List Layout.Byte) (ask : κ → EventAsk) (s : Board κ H G ι ε)
    (l : BoardLabel κ H G ι ε) :
    sourceSteps program ask s l = [] ∨
      ∃ l', sourceSteps program ask s l = [l'] ∧ Shows program ask s l l' := by
  cases l with
  | construct who k answers answer =>
      simp only [sourceSteps]
      split
      · exact Or.inl rfl
      · exact Or.inr ⟨_, rfl, .constructed ..⟩
  | destroy who k answer => exact Or.inr ⟨_, rfl, .destroyed ..⟩
  | change line now =>
      simp only [sourceSteps]
      split
      · exact Or.inl rfl
      · rename_i k hholder
        split
        · exact Or.inl rfl
        · rcases tellSteps_cases program ask s k (!s.level line) now with
            hnone | ⟨pending, r, hevent, hone⟩
          · exact Or.inl hnone
          · exact Or.inr ⟨_, hone, .changed line now k hholder pending r hevent⟩
  | settle line now =>
      simp only [sourceSteps]
      split
      · exact Or.inl rfl
      · rename_i k hholder
        rcases tellSteps_cases program ask s k (s.level line) now with
          hnone | ⟨pending, r, hevent, hone⟩
        · exact Or.inl hnone
        · exact Or.inr ⟨_, hone, .settled line now k hholder pending r hevent⟩
  | source l =>
      simp only [sourceSteps]
      split
      · exact Or.inr ⟨l, rfl, .inner l ‹_›⟩
      · exact Or.inl rfl

theorem Settles.sourceSteps_eq {s : Board κ H G ι ε} {k : κ} {line : BitVec 32}
    {l : BoardLabel κ H G ι ε} {level : Bool} {now : BitVec 64}
    (hsettles : Settles ask s k line l level now) (hholder : s.holder line = some k) :
    sourceSteps program ask s l = tellSteps program ask s k level now := by
  cases hsettles with
  | changed now hat => simp [sourceSteps, hholder, hat]
  | lasted now hdebounced hne => simp [sourceSteps, hholder]

/-- A line is held by an object that is alive and has asked for it, and settles at once unless it is
debounced. What is queued for an object are events that it can read, and no more of them than the kernel
has room for. -/
structure Inv (ask : κ → EventAsk) (s : Board κ H G ι ε) : Prop where
  sources : s.sources.Inv
  held : ∀ line k, s.holder line = some k →
    (ask k).line = line ∧ ∃ n pending, s.sources.source k = .alive n pending
  settled : ∀ line k, s.holder line = some k → (ask k).debounced = false →
    s.settled line = s.level line
  known : ∀ k, Reader.Known inspectInput k s.sources
  bounded : ∀ k, (Reader.pendingOf k s.sources).length ≤ 16

theorem inv_start (epfd evtfd : Cmn.Fd) (wake : G) (level : BitVec 32 → Bool) :
    (start epfd evtfd wake level : Board κ H G ι ε).Inv ask where
  sources := Sources.inv_start epfd evtfd wake
  held line k h := by cases h
  settled line k h := by cases h
  known k r hr := by
    rw [start, Reader.held, Sources.soloOf_start] at hr
    cases hr
  bounded k := Nat.zero_le _

/-- The level for which the line has been taken to that point is the other one. -/
theorem Settles.settled_eq {s : Board κ H G ι ε} (h : s.Inv ask) {k : κ} {line : BitVec 32}
    {l : BoardLabel κ H G ι ε} {level : Bool} {now : BitVec 64}
    (hsettles : Settles ask s k line l level now) (hholder : s.holder line = some k) :
    s.settled line = !level := by
  cases hsettles with
  | changed now hat => rw [h.settled line k hholder hat, Bool.not_not]
  | lasted now hdebounced hne => exact Bool.eq_not_of_ne hne

theorem Inv.settled_update {s : Board κ H G ι ε} (h : s.Inv ask) (line : BitVec 32) (level : Bool)
    (line' : BitVec 32) (k : κ) (hholder : s.holder line' = some k)
    (hat : (ask k).debounced = false) :
    Function.update s.settled line level line' = Function.update s.level line level line' := by
  by_cases heq : line' = line
  · subst heq
    simp
  · rw [Function.update_of_ne heq, Function.update_of_ne heq]
    exact h.settled line' k hholder hat

/-- The level of a line that nobody holds, or that is debounced, changes. -/
theorem Inv.change {s : Board κ H G ι ε} (h : s.Inv ask) {line : BitVec 32} (level : Bool)
    (hnot : ∀ k, s.holder line = some k → (ask k).debounced) :
    Inv ask { s with level := Function.update s.level line level } :=
  { h with
    settled := fun line' k hholder hat => by
      have hne : line' ≠ line := by
        rintro rfl
        rw [hnot k hholder] at hat
        cases hat
      change s.settled line' = Function.update s.level line level line'
      rw [Function.update_of_ne hne]
      exact h.settled line' k hholder hat }

/-- Two objects do not hold one line. -/
theorem line_ne {s : Board κ H G ι ε} {k k' : κ} {line line' : BitVec 32}
    (hholder : s.holder line = some k) (hholder' : s.holder line' = some k') (hne : k ≠ k') :
    line' ≠ line := by
  rintro rfl
  exact hne (Option.some.inj (hholder.symm.trans hholder'))

variable [DecidableEq κ]

/-- The edges of the line while the object holds it, as far as they have been asked for. -/
def edges (ask : κ → EventAsk) (k : κ) (s : Board κ H G ι ε) :
    BoardLabel κ H G ι ε → List (Int × Edge)
  | .change line now =>
      if s.holder line = some k ∧ (ask k).debounced = false then
        (ask k).told (!s.level line) now
      else
        []
  | .settle line now => if s.holder line = some k then (ask k).told (s.level line) now else []
  | _ => []

theorem filterMap_tellSteps {s : Board κ H G ι ε} (h : s.Inv ask) {k k' : κ} {line : BitVec 32}
    (hholder : s.holder line = some k') (level : Bool) (now : BitVec 64) :
    (tellSteps program ask s k' level now).filterMap (fun l => (l.outside? k).bind fun act =>
      (inspectInput.record act.record).toOption) =
        if k' = k then (ask k').told level now else [] := by
  obtain ⟨-, n, pending, halive⟩ := h.held line k' hholder
  simp only [tellSteps, halive, List.filterMap_map]
  by_cases heq : k' = k
  · subst heq
    simpa [Function.comp_def, SourcesLabel.outside?, record_queued, items] using
      items_event program (ask k') level now
  · simp [Function.comp_def, SourcesLabel.outside?, heq]

/-- What arrives for an object in a step are the edges it has asked for. -/
theorem filterMap_sourceSteps {s : Board κ H G ι ε} (h : s.Inv ask) (k : κ)
    (l : BoardLabel κ H G ι ε) :
    (sourceSteps program ask s l).filterMap (fun l => (l.outside? k).bind fun act =>
      (inspectInput.record act.record).toOption) = edges ask k s l := by
  cases l with
  | construct who k' answers answer =>
      simp only [sourceSteps]
      split <;> rfl
  | destroy who k' answer => rfl
  | change line now =>
      cases hholder : s.holder line with
      | none => simp [sourceSteps, edges, hholder]
      | some k' =>
          simp only [sourceSteps, edges, hholder]
          cases hdebounced : (ask k').debounced with
          | true =>
              rw [if_pos rfl, if_neg]
              · rfl
              · rintro ⟨heq, hat⟩
                cases heq
                rw [hdebounced] at hat
                cases hat
          | false =>
              rw [if_neg Bool.false_ne_true, filterMap_tellSteps h hholder]
              by_cases heq : k' = k
              · subst heq
                simp [hdebounced]
              · simp [heq]
  | settle line now =>
      cases hholder : s.holder line with
      | none => simp [sourceSteps, edges, hholder]
      | some k' =>
          simp only [sourceSteps, edges, hholder]
          rw [filterMap_tellSteps h hholder]
          by_cases heq : k' = k
          · subst heq
            simp
          · simp [heq]
  | source l =>
      simp only [sourceSteps, edges]
      split
      · rename_i hinner
        cases l <;> simp_all [SourcesLabel.outside?, inner]
      · rfl

theorem Settles.edges_eq {s : Board κ H G ι ε} {k k' : κ} {line : BitVec 32}
    {l : BoardLabel κ H G ι ε} {level : Bool} {now : BitVec 64}
    (hsettles : Settles ask s k' line l level now) (hholder : s.holder line = some k') :
    edges ask k s l = if k' = k then (ask k').told level now else [] := by
  by_cases heq : k' = k
  · subst heq
    cases hsettles with
    | changed now hat => simp [edges, hholder, hat]
    | lasted now hdebounced hne => simp [edges, hholder]
  · cases hsettles with
    | changed now hat => simp [edges, hholder, heq]
    | lasted now hdebounced hne => simp [edges, hholder, heq]

theorem Shows.known {k : κ} {s : Board κ H G ι ε} {l : BoardLabel κ H G ι ε}
    {l' : SourcesLabel κ (Option Errno) (KernelAct LineEvent) H G ι ε}
    (h : Shows program ask s l l') {act : KernelAct LineEvent} (hact : l'.outside? k = some act) :
    ∃ item, inspectInput.record act.record = .ok item := by
  cases h with
  | constructed | destroyed => cases hact
  | changed line now k' hholder pending r hevent | settled line now k' hholder pending r hevent =>
      obtain ⟨rfl, rfl⟩ := by simpa [SourcesLabel.outside?] using hact
      rw [record_queued]
      exact record_of_event hevent
  | inner l hinner => cases l' <;> simp_all [SourcesLabel.outside?, Board.inner]

/-- No function of the object throws while records of the batch at hand are left. -/
def Finishes (k : κ) (s : Board κ H G ι ε) : BoardLabel κ H G ι ε → Prop
  | .source l => Reader.Finishes k s.sources l
  | _ => True

instance {k : κ} (s : Board κ H G ι ε) : (l : BoardLabel κ H G ι ε) → Decidable (Finishes k s l)
  | .source l => inferInstanceAs (Decidable (Reader.Finishes k s.sources l))
  | .construct .. | .destroy .. | .change .. | .settle .. => isTrue trivial

theorem Shows.finishes {k : κ} {s : Board κ H G ι ε} {l : BoardLabel κ H G ι ε}
    {l' : SourcesLabel κ (Option Errno) (KernelAct LineEvent) H G ι ε}
    (h : Shows program ask s l l') (hfinishes : Finishes k s l) :
    Reader.Finishes k s.sources l' := by
  cases h with
  | inner l hinner => exact hfinishes
  | _ => rfl

/-- The reads of the objects give what the kernel has queued, and the line does not change. -/
def Steady (line : BitVec 32) : BoardLabel κ H G ι ε → Prop
  | .source l => Reader.Reads l
  | .change line' _ | .settle line' _ => line' ≠ line
  | _ => True

theorem Shows.steady {k : κ} {s : Board κ H G ι ε} (hs : s.Inv ask) {l : BoardLabel κ H G ι ε}
    {l' : SourcesLabel κ (Option Errno) (KernelAct LineEvent) H G ι ε}
    (h : Shows program ask s l l') (hsteady : Steady (ask k).line l) :
    Reader.Reads l' ∧ l'.outside? k = none := by
  cases h with
  | constructed | destroyed => exact ⟨trivial, rfl⟩
  | changed line now k' hholder pending r hevent | settled line now k' hholder pending r hevent =>
      refine ⟨trivial, if_neg ?_⟩
      rintro rfl
      exact hsteady (hs.held line k' hholder).1.symm
  | inner l hinner =>
      refine ⟨hsteady, ?_⟩
      cases l' <;> simp_all [SourcesLabel.outside?, Board.inner]

end Board

section

variable [DecidableEq κ] [DecidableEq ι] [DecidableEq ε]

/-- The objects on their event queue. -/
abbrev gpioEvents (κ H G ι ε : Type) [DecidableEq κ] [DecidableEq ι] [DecidableEq ε] :
    System (Sources κ (List LineEvent) (Reader.Pos LineEvent (Int × Edge) H) H G ι ε)
      (SourcesLabel κ (Option Errno) (KernelAct LineEvent) H G ι ε) :=
  Epl.sources κ G ι ε (Reader.service H inspectInput)

namespace Board

/-! ### What a step of the board can do -/

inductive Move (program : List Layout.Byte) (ask : κ → EventAsk) (s : Board κ H G ι ε) :
    BoardLabel κ H G ι ε → Board κ H G ι ε → Prop where
  | refused (who : Option ε) (k : κ) (answers : LineAnswers) (answer : Option Errno)
      (exc : Exception) (hrefused : (getLine (ask k).line answers).1 = .error exc) :
      Move program ask s (.construct who k answers answer) s
  | constructed (who : Option ε) (k : κ) (answers : LineAnswers) (answer : Option Errno)
      (fd : Cmn.Fd) (hfd : (getLine (ask k).line answers).1 = .ok fd)
      (hfree : s.holder (ask k).line = none)
      (next : Sources κ (List LineEvent) (Reader.Pos LineEvent (Int × Edge) H) H G ι ε)
      (hstep : (gpioEvents κ H G ι ε).step s.sources
        (.construct who k fd.fd answer) = some next)
      (n : Int) (pending : List LineEvent) (halive : next.source k = .alive n pending) :
      Move program ask s (.construct who k answers answer)
        { s with
          sources := next
          settled := Function.update s.settled (ask k).line (s.level (ask k).line)
          holder := Function.update s.holder (ask k).line (some k) }
  | notConstructed (who : Option ε) (k : κ) (answers : LineAnswers) (answer : Option Errno)
      (fd : Cmn.Fd) (hfd : (getLine (ask k).line answers).1 = .ok fd)
      (next : Sources κ (List LineEvent) (Reader.Pos LineEvent (Int × Edge) H) H G ι ε)
      (hstep : (gpioEvents κ H G ι ε).step s.sources
        (.construct who k fd.fd answer) = some next)
      (hnot : ∀ n pending, next.source k ≠ .alive n pending) :
      Move program ask s (.construct who k answers answer) { s with sources := next }
  | destroyed (who : Option ε) (k : κ) (answer : Option Errno)
      (next : Sources κ (List LineEvent) (Reader.Pos LineEvent (Int × Edge) H) H G ι ε)
      (hstep : (gpioEvents κ H G ι ε).step s.sources
        (.destroy who k answer) = some next) :
      Move program ask s (.destroy who k answer)
        { s with
          sources := next
          holder := fun line => (s.holder line).filter (decide <| · ≠ k) }
  | unheld (line : BitVec 32) (now : BitVec 64) (hnone : s.holder line = none) :
      Move program ask s (.change line now)
        { s with level := Function.update s.level line (!s.level line) }
  | bouncing (line : BitVec 32) (now : BitVec 64) (k : κ) (hholder : s.holder line = some k)
      (hdebounced : (ask k).debounced) :
      Move program ask s (.change line now)
        { s with level := Function.update s.level line (!s.level line) }
  | silent (l : BoardLabel κ H G ι ε) (line : BitVec 32) (k : κ) (hholder : s.holder line = some k)
      (level : Bool) (now : BitVec 64) (hsettles : Settles ask s k line l level now)
      (n : Int) (pending : List LineEvent) (halive : s.sources.source k = .alive n pending)
      (hnone : ((ask k).configured program).event level now = none) :
      Move program ask s l
        { s with
          level := Function.update s.level line level
          settled := Function.update s.settled line level }
  | told (l : BoardLabel κ H G ι ε) (line : BitVec 32) (k : κ) (hholder : s.holder line = some k)
      (level : Bool) (now : BitVec 64) (hsettles : Settles ask s k line l level now)
      (n : Int) (pending : List LineEvent) (halive : s.sources.source k = .alive n pending)
      (r : LineEvent) (hevent : ((ask k).configured program).event level now = some r)
      (next : Sources κ (List LineEvent) (Reader.Pos LineEvent (Int × Edge) H) H G ι ε)
      (hstep : (gpioEvents κ H G ι ε).step s.sources
        (.outside k (queued pending ((ask k).configured program) r)) = some next) :
      Move program ask s l
        { s with
          sources := next
          level := Function.update s.level line level
          settled := Function.update s.settled line level }
  | inner (l : SourcesLabel κ (Option Errno) (KernelAct LineEvent) H G ι ε)
      (hinner : Board.inner l)
      (next : Sources κ (List LineEvent) (Reader.Pos LineEvent (Int × Edge) H) H G ι ε)
      (hstep : (gpioEvents κ H G ι ε).step s.sources l = some next) :
      Move program ask s (.source l) { s with sources := next }

theorem move_of_tell {s t : Board κ H G ι ε} {l : BoardLabel κ H G ι ε} {line : BitVec 32} {k : κ}
    {level : Bool} {now : BitVec 64} (hholder : s.holder line = some k)
    (hsettles : Settles ask s k line l level now)
    (h : s.tell k ((ask k).configured program) line level now = some t) : Move program ask s l t := by
  simp only [tell] at h
  split at h
  · rename_i n pending halive
    split at h
    · cases h
      exact .silent l line k hholder level now hsettles n pending halive ‹_›
    · rename_i r hevent
      obtain ⟨next, hstep, rfl⟩ := Option.map_eq_some_iff.mp h
      exact .told l line k hholder level now hsettles n pending halive r hevent next hstep
  · cases h

theorem move_of_step {s t : Board κ H G ι ε} {l : BoardLabel κ H G ι ε}
    (h : (board H G ι ε program ask).step s l = some t) : Move program ask s l t := by
  change s.step program ask l = some t at h
  cases l with
  | construct who k answers answer =>
      simp only [step, requested_eq] at h
      split at h
      · cases h
        exact .refused who k answers answer _ ‹_›
      · rename_i fd line hfd hline
        obtain rfl := Option.some.inj hline
        split at h
        · rename_i hfree
          obtain ⟨next, hstep, rfl⟩ := Option.map_eq_some_iff.mp h
          split
          · rename_i n pending halive
            exact .constructed who k answers answer fd hfd hfree next hstep n pending halive
          · rename_i hnot
            exact .notConstructed who k answers answer fd hfd next hstep hnot
        · cases h
      · cases h
  | destroy who k answer =>
      obtain ⟨next, hstep, rfl⟩ := Option.map_eq_some_iff.mp h
      exact .destroyed who k answer next hstep
  | change line now =>
      simp only [step, requested_eq] at h
      split at h
      · cases h
        exact .unheld line now ‹_›
      · rename_i k hholder
        rw [Option.bind_some, debounced_configured] at h
        split at h
        · cases h
          exact .bouncing line now k hholder ‹_›
        · rename_i hat
          exact move_of_tell hholder (.changed now (Bool.eq_false_of_not_eq_true hat)) h
  | settle line now =>
      simp only [step, requested_eq] at h
      split at h
      · cases h
      · rename_i k hholder
        rw [Option.bind_some, debounced_configured] at h
        split at h
        · rename_i hlasted
          exact move_of_tell hholder (.lasted now hlasted.1 hlasted.2) h
        · cases h
  | source l =>
      simp only [step] at h
      split at h
      · obtain ⟨next, hstep, rfl⟩ := Option.map_eq_some_iff.mp h
        exact .inner l ‹_› next hstep
      · cases h

theorem run_sourceSteps (s : Board κ H G ι ε) (l : BoardLabel κ H G ι ε) (t : Board κ H G ι ε)
    (h : (board H G ι ε program ask).step s l = some t) :
    (gpioEvents κ H G ι ε).run s.sources (sourceSteps program ask s l) = some t.sources := by
  cases move_of_step h with
  | refused who k answers answer exc hrefused => simp [sourceSteps, hrefused]
  | constructed who k answers answer fd hfd hfree next hstep =>
      simp [sourceSteps, hfd, System.run_cons, hstep]
  | notConstructed who k answers answer fd hfd next hstep =>
      simp [sourceSteps, hfd, System.run_cons, hstep]
  | destroyed who k answer next hstep => simp [sourceSteps, System.run_cons, hstep]
  | unheld line now hnone => simp [sourceSteps, hnone]
  | bouncing line now k hholder hdebounced => simp [sourceSteps, hholder, hdebounced]
  | silent l line k hholder level now hsettles n pending halive hnone =>
      rw [hsettles.sourceSteps_eq hholder]
      simp [tellSteps, halive, hnone]
  | told l line k hholder level now hsettles n pending halive r hevent next hstep =>
      rw [hsettles.sourceSteps_eq hholder]
      simp [tellSteps, halive, hevent, System.run_cons, hstep]
  | inner l hinner next hstep => simp [sourceSteps, hinner, System.run_cons, hstep]

/-! ### Invariants -/

/-- The objects take a step in which nothing arrives but what there is room for. -/
theorem Inv.step {s : Board κ H G ι ε} (h : s.Inv ask)
    {l : SourcesLabel κ (Option Errno) (KernelAct LineEvent) H G ι ε}
    {next : Sources κ (List LineEvent) (Reader.Pos LineEvent (Int × Edge) H) H G ι ε}
    (hstep : (gpioEvents κ H G ι ε).step s.sources l = some next)
    (harrives : ∀ k act, l.outside? k = some act →
      (∃ item, inspectInput.record act.record = .ok item) ∧
        (Reader.pendingOf k next).length ≤ 16)
    {level settled : BitVec 32 → Bool} {holder : BitVec 32 → Option κ}
    (hheld : ∀ line k, holder line = some k →
      (ask k).line = line ∧ ∃ n pending, next.source k = .alive n pending)
    (hsettled : ∀ line k, holder line = some k → (ask k).debounced = false →
      settled line = level line) :
    Inv ask { sources := next, level, settled, holder } where
  sources := Sources.inv_preserved _ hstep h.sources
  held := hheld
  settled := hsettled
  known k := (h.known k).step h.sources hstep fun act hact => (harrives k act hact).1
  bounded k := by
    cases hact : l.outside? k with
    | none => exact Nat.le_trans (Reader.length_pendingOf_le h.sources hstep hact) (h.bounded k)
    | some act => exact (harrives k act hact).2

/-- An object that is not destroyed stays alive. -/
theorem alive_of_step {s t : Sources κ (List LineEvent) (Reader.Pos LineEvent (Int × Edge) H) H G ι ε}
    {l : SourcesLabel κ (Option Errno) (KernelAct LineEvent) H G ι ε}
    (hstep : (gpioEvents κ H G ι ε).step s l = some t) {k : κ}
    (hnot : ∀ who answer, l ≠ .destroy who k answer)
    (halive : ∃ n pending, s.source k = .alive n pending) :
    ∃ n pending, t.source k = .alive n pending := by
  obtain ⟨n, pending, halive⟩ := halive
  rcases Sources.source_cases hstep k with hsame | ⟨fd, state, state', -, hnew⟩ |
    ⟨who, fd, answer, -, hunborn, -⟩ | ⟨who, answer, fd, state, hl, -⟩
  · exact ⟨n, pending, hsame.trans halive⟩
  · exact ⟨fd, state', hnew⟩
  · rw [halive] at hunborn
    cases hunborn
  · exact absurd hl (hnot who answer)

theorem pendingOf_of_outside
    {s t : Sources κ (List LineEvent) (Reader.Pos LineEvent (Int × Edge) H) H G ι ε} {k : κ}
    {act : KernelAct LineEvent} {n : Int} {pending : List LineEvent}
    (halive : s.source k = .alive n pending)
    (hstep : (gpioEvents κ H G ι ε).step s (.outside k act) = some t) :
    Reader.pendingOf k t = (Reader.service H inspectInput).outside pending act := by
  cases Sources.move_of_step hstep with
  | outside k act n' pending' halive' =>
      obtain ⟨-, rfl⟩ := Epl.Source.alive.inj (halive'.symm.trans halive)
      simp [Reader.pendingOf, Epl.Source.state]

theorem inv_preserved : (board H G ι ε program ask).Preserves (Inv ask) := by
  intro s l t hstep h
  cases move_of_step hstep with
  | refused => exact h
  | constructed who k answers answer fd hfd hfree next hnext n pending halive =>
      refine h.step hnext (by simp [SourcesLabel.outside?]) (fun line k' hholder => ?_)
        fun line k' hholder hat => ?_
      all_goals by_cases heq : line = (ask k).line
      · subst heq
        obtain rfl : k = k' := by simpa using hholder
        exact ⟨rfl, n, pending, halive⟩
      · have hbefore : s.holder line = some k' := by simpa [heq] using hholder
        obtain ⟨hline, hbefore⟩ := h.held line k' hbefore
        exact ⟨hline, alive_of_step hnext (by simp) hbefore⟩
      · subst heq
        exact Function.update_self ..
      · rw [Function.update_of_ne heq]
        exact h.settled line k' (by simpa [heq] using hholder) hat
  | notConstructed who k answers answer fd hfd next hnext hnot =>
      refine h.step hnext (by simp [SourcesLabel.outside?]) (fun line k' hholder => ?_) h.settled
      obtain ⟨hline, hbefore⟩ := h.held line k' hholder
      exact ⟨hline, alive_of_step hnext (by simp) hbefore⟩
  | destroyed who k answer next hnext =>
      refine h.step hnext (by simp [SourcesLabel.outside?]) (fun line k' hholder => ?_)
        fun line k' hholder => h.settled line k' (Option.filter_eq_some_iff.mp hholder).1
      obtain ⟨hbefore, hne⟩ := Option.filter_eq_some_iff.mp hholder
      obtain ⟨hline, hbefore⟩ := h.held line k' hbefore
      refine ⟨hline, alive_of_step hnext (fun who answer hl => ?_) hbefore⟩
      cases hl
      simp at hne
  | unheld line now hnone =>
      refine h.change _ fun k hholder => ?_
      rw [hnone] at hholder
      cases hholder
  | bouncing line now k hholder hdebounced =>
      refine h.change _ fun k' hholder' => ?_
      obtain rfl : k = k' := Option.some.inj (hholder.symm.trans hholder')
      exact hdebounced
  | silent l line k hholder level now hsettles n pending halive hnone =>
      exact { h with settled := h.settled_update line level }
  | told l line k hholder level now hsettles n pending halive r hevent next hnext =>
      refine h.step hnext (fun k' act hact => ?_) (fun line k' hholder => ?_)
        (h.settled_update line level)
      · obtain ⟨rfl, rfl⟩ : k = k' ∧ queued pending ((ask k).configured program) r = act := by
          simpa [SourcesLabel.outside?] using hact
        rw [record_queued]
        refine ⟨record_of_event hevent, ?_⟩
        have hpending := h.bounded k
        rw [Reader.pendingOf, halive] at hpending
        rw [pendingOf_of_outside halive hnext]
        exact length_queued r hpending (by decide : 0 < 16)
      · obtain ⟨hline, hbefore⟩ := h.held line k' hholder
        exact ⟨hline, alive_of_step hnext (by simp) hbefore⟩
  | inner l hinner next hnext =>
      refine h.step hnext (fun k act hact => ?_) (fun line k hholder => ?_) h.settled
      · cases l <;> simp_all [SourcesLabel.outside?, Board.inner]
      · obtain ⟨hline, hbefore⟩ := h.held line k hholder
        refine ⟨hline, alive_of_step hnext (fun who answer hl => ?_) hbefore⟩
        subst hl
        cases hinner

/-! ### Edges -/

def edgesAt (program : List Layout.Byte) (ask : κ → EventAsk) (k : κ) (s : Board κ H G ι ε)
    (ls : List (BoardLabel κ H G ι ε)) : List (Int × Edge) :=
  (board H G ι ε program ask).shown (edges ask k) s ls

/-- What a run does to the objects on their event queue. -/
def sourceRun (program : List Layout.Byte) (ask : κ → EventAsk) (s : Board κ H G ι ε)
    (ls : List (BoardLabel κ H G ι ε)) :
    List (SourcesLabel κ (Option Errno) (KernelAct LineEvent) H G ι ε) :=
  (board H G ι ε program ask).shown (sourceSteps program ask) s ls

theorem run_sourceRun {s t : Board κ H G ι ε} {ls : List (BoardLabel κ H G ι ε)}
    (hrun : (board H G ι ε program ask).run s ls = some t) :
    (gpioEvents κ H G ι ε).run s.sources (sourceRun program ask s ls) = some t.sources :=
  System.run_shown_of_step Board.sources (sourceSteps program ask) run_sourceSteps hrun

theorem items_arrivedAt {s t : Board κ H G ι ε} {ls : List (BoardLabel κ H G ι ε)}
    (hrun : (board H G ι ε program ask).run s ls = some t) (hs : s.Inv ask) (k : κ) :
    items (Reader.arrivedAt k (sourceRun program ask s ls)) = edgesAt program ask k s ls := by
  have hitems : items (Reader.arrivedAt k (sourceRun program ask s ls)) =
      (sourceRun program ask s ls).filterMap fun l => (l.outside? k).bind fun act =>
        (inspectInput.record act.record).toOption := by
    rw [items, Reader.arrivedAt, ← List.filterMap_eq_map, List.filterMap_filterMap,
      List.filterMap_filterMap]
    rfl
  rw [hitems, sourceRun, System.shown_filterMap]
  exact System.shown_congr inv_preserved (fun s l h => filterMap_sourceSteps h k l) hrun hs

theorem items_handedAt (k : κ)
    (s : Sources κ (List LineEvent) (Reader.Pos LineEvent (Int × Edge) H) H G ι ε)
    (ls : List (SourcesLabel κ (Option Errno) (KernelAct LineEvent) H G ι ε)) :
    items (Reader.handedAt inspectInput k s ls) = Reader.calledAt inspectInput k s ls := by
  rw [items_eq, Reader.map_record_handedAt, List.filterMap_map]
  exact List.filterMap_some

/-! ### The last edge -/

/-- The last edge tells the value at which the line has settled, while it is held. -/
structure Tracks (ask : κ → EventAsk) (k : κ) (told : List (Int × Edge)) (s : Board κ H G ι ε) :
    Prop where
  inv : s.Inv ask
  unborn : s.sources.source k = .unborn → told = []
  last : s.holder (ask k).line = some k →
    ∀ item ∈ told.getLast?, item.2 = (ask k).edge (s.settled (ask k).line)
  alternates : told.IsChain fun a b => a.2 ≠ b.2

theorem unborn_of_step {s t : Board κ H G ι ε} {l : BoardLabel κ H G ι ε}
    (hstep : (board H G ι ε program ask).step s l = some t) {k : κ}
    (hunborn : t.sources.source k = .unborn) : s.sources.source k = .unborn := by
  have hborn : (gpioEvents κ H G ι ε).Preserves fun s => s.source k ≠ .unborn := by
    intro s l t hstep hs
    rcases Sources.source_cases hstep k with hsame | ⟨fd, state, state', -, hnew⟩ |
      ⟨who, fd, answer, -, hunborn, -⟩ | ⟨who, answer, fd, state, -, -, hnew⟩
    · rwa [hsame]
    · simp [hnew]
    · exact absurd hunborn hs
    · simp [hnew]
  by_contra hs
  exact hborn.run (run_sourceSteps s l t hstep) hs hunborn

/-- A step without an edge, in which the line that is held does not settle anew. -/
theorem Tracks.quiet {told : List (Int × Edge)} {k : κ} {s t : Board κ H G ι ε}
    {l : BoardLabel κ H G ι ε} (h : Tracks ask k told s)
    (hstep : (board H G ι ε program ask).step s l = some t) (hnone : edges ask k s l = [])
    (hheld : t.holder (ask k).line = some k →
      told = [] ∨ s.holder (ask k).line = some k ∧
        t.settled (ask k).line = s.settled (ask k).line) :
    Tracks ask k (told ++ edges ask k s l) t := by
  rw [hnone, List.append_nil]
  refine ⟨inv_preserved hstep h.inv, fun hunborn => h.unborn (unborn_of_step hstep hunborn),
    fun hholder item hitem => ?_, h.alternates⟩
  rcases hheld hholder with rfl | ⟨hbefore, hsettled⟩
  · cases hitem
  · rw [hsettled]
    exact h.last hbefore item hitem

theorem Tracks.step {told : List (Int × Edge)} {k : κ} (hboth : (ask k).eventLineArgs.edge = .both)
    {s t : Board κ H G ι ε} {l : BoardLabel κ H G ι ε}
    (hstep : (board H G ι ε program ask).step s l = some t) (h : Tracks ask k told s) :
    Tracks ask k (told ++ edges ask k s l) t := by
  cases move_of_step hstep with
  | refused | notConstructed | inner => exact h.quiet hstep rfl fun hholder => Or.inr ⟨hholder, rfl⟩
  | constructed who k' answers answer fd hfd hfree next hnext n pending halive =>
      refine h.quiet hstep rfl fun hholder => ?_
      by_cases heq : k' = k
      · subst heq
        exact Or.inl (h.unborn (Sources.unborn_of_construct hnext))
      · by_cases hsame : (ask k).line = (ask k').line
        · simp [hsame, heq] at hholder
        · exact Or.inr ⟨by simpa [hsame] using hholder, Function.update_of_ne hsame ..⟩
  | destroyed who k' answer next hnext =>
      exact h.quiet hstep rfl fun hholder =>
        Or.inr ⟨(Option.filter_eq_some_iff.mp hholder).1, rfl⟩
  | unheld line now hnone =>
      exact h.quiet hstep (by simp [edges, hnone]) fun hholder => Or.inr ⟨hholder, rfl⟩
  | bouncing line now k' hholder hdebounced =>
      refine h.quiet hstep (if_neg ?_) fun hholder => Or.inr ⟨hholder, rfl⟩
      rintro ⟨hsame, hat⟩
      obtain rfl : k' = k := Option.some.inj (hholder.symm.trans hsame)
      rw [hdebounced] at hat
      cases hat
  | silent l line k' hholder level now hsettles n pending halive hnone =>
      have hne : k' ≠ k := by
        rintro rfl
        have hitems := items_event program (ask k') level now
        rw [hnone, EventAsk.told_of_both hboth] at hitems
        cases hitems
      exact h.quiet hstep (by rw [hsettles.edges_eq hholder, if_neg hne]) fun hheld =>
        Or.inr ⟨hheld, Function.update_of_ne (line_ne hholder hheld hne) ..⟩
  | told l line k' hholder level now hsettles n pending halive r hevent next hnext =>
      by_cases heq : k' = k
      · subst heq
        obtain rfl : line = (ask k').line := (h.inv.held line k' hholder).1.symm
        have hedges : edges ask k' s l = [(Epl.timepoint now, (ask k').edge level)] := by
          rw [hsettles.edges_eq hholder, if_pos rfl, EventAsk.told_of_both hboth]
        rw [hedges]
        refine ⟨inv_preserved hstep h.inv, fun hunborn => ?_, fun _ item hitem => ?_, ?_⟩
        · rw [unborn_of_step hstep hunborn] at halive
          cases halive
        · obtain rfl : (Epl.timepoint now, (ask k').edge level) = item := by simpa using hitem
          simp
        · refine h.alternates.append (.singleton _) fun item hitem item' hitem' => ?_
          obtain rfl : (Epl.timepoint now, (ask k').edge level) = item' := by simpa using hitem'
          rw [h.last hholder item hitem, hsettles.settled_eq h.inv hholder]
          exact (EventAsk.edge_not_ne level).symm
      · exact h.quiet hstep (by rw [hsettles.edges_eq hholder, if_neg heq]) fun hheld =>
          Or.inr ⟨hheld, Function.update_of_ne (line_ne hholder hheld heq) ..⟩

theorem tracks_of_run {epfd evtfd : Cmn.Fd} {wake : G} {level : BitVec 32 → Bool} {k : κ}
    (hboth : (ask k).eventLineArgs.edge = .both) {ls : List (BoardLabel κ H G ι ε)}
    {s : Board κ H G ι ε}
    (hrun : (board H G ι ε program ask).run (.start epfd evtfd wake level) ls = some s) :
    Tracks ask k (edgesAt program ask k (.start epfd evtfd wake level) ls) s := by
  have hstart : Tracks ask k [] (start epfd evtfd wake level : Board κ H G ι ε) :=
    { inv := inv_start epfd evtfd wake level
      unborn := fun _ => rfl
      last := fun _ item hitem => by cases hitem
      alternates := .nil }
  exact System.shown_invariant (J := Tracks ask k) (fun _ _ _ _ hstep h => h.step hboth hstep)
    hrun hstart

/-- **The edges of its line.** In every run of any number of objects on the lines of a chip: what the
functions of an object have been called with, and what waits to be read and decoded, are edges of the
line that the object holds, of the kind that it has been asked to tell of, in the order in which the line
has settled, and nothing waits that is not an edge. If nothing was lost, they are all of them, in turn a
rising and a falling one where the object tells both. -/
theorem calledAt_sublist_edgesAt {epfd evtfd : Cmn.Fd} {wake : G} {level : BitVec 32 → Bool} (k : κ)
    (e : ε) {ls : List (BoardLabel κ H G ι ε)} {s : Board κ H G ι ε}
    (hrun : (board H G ι ε program ask).run (.start epfd evtfd wake level) ls = some s)
    (honly : ∀ e' pos, s.sources.frame e' = some (k, pos) → e' = e) :
    let ran := sourceRun program ask (.start epfd evtfd wake level) ls
    let called := Reader.calledAt inspectInput k (.start epfd evtfd wake) ran
    let waiting := Reader.batchOf e k s.sources ++ Reader.pendingOf k s.sources
    let edges := edgesAt program ask k (.start epfd evtfd wake level) ls
    (called ++ items waiting).Sublist edges ∧ (items waiting).length = waiting.length ∧
      (Reader.lostAt inspectInput k (.start epfd evtfd wake) ran = [] →
        called ++ items waiting = edges) ∧
      ((ask k).eventLineArgs.edge = .both →
        Reader.lostAt inspectInput k (.start epfd evtfd wake) ran = [] →
          (called ++ items waiting).IsChain fun a b => a.2 ≠ b.2) := by
  intro ran called waiting edges
  have hinv : s.Inv ask := inv_preserved.run hrun (inv_start epfd evtfd wake level)
  have hran : (gpioEvents κ H G ι ε).run (.start epfd evtfd wake) ran = some s.sources :=
    run_sourceRun hrun
  have hstart := Sources.inv_start (κ := κ) (δ := List LineEvent)
    (π := Reader.Pos LineEvent (Int × Edge) H) (H := H) (ι := ι) (ε := ε) epfd evtfd wake
  have hleaky := Reader.leaky_of_start hran honly
  have hiff := hleaky.eq_sent_iff
  have horder := hleaky.order
  rw [Reader.sent_of_run hran, Reader.received_of_run hran hstart] at horder
  rw [Reader.sent_of_run hran, Reader.received_of_run hran hstart,
    Reader.dropped_of_run hran hstart] at hiff
  have hitems : items (Reader.handedAt inspectInput k (.start epfd evtfd wake) ran ++ waiting) =
      called ++ items waiting := by
    rw [items_append, items_handedAt]
  have harrived : items (Reader.arrivedAt k ran) = edges :=
    items_arrivedAt hrun (inv_start epfd evtfd wake level) k
  have hall (hlost : Reader.lostAt inspectInput k (.start epfd evtfd wake) ran = []) :
      called ++ items waiting = edges := by
    rw [← hitems, ← harrived]
    exact congrArg items (hiff.mpr hlost)
  refine ⟨?_, ?_, hall, fun hboth hlost => ?_⟩
  · rw [← hitems, ← harrived]
    exact horder.filterMap _
  · have hknown : ∀ r ∈ waiting, ∃ item, inspectInput.record r = .ok item := fun r hr =>
      hinv.known k r (by rwa [Reader.held_soloOf hinv.sources honly])
    have hlength := congrArg List.length (map_record_items hknown)
    rw [List.length_map, List.length_map] at hlength
    exact hlength.symm
  · rw [hall hlost]
    exact (tracks_of_run hboth hrun).alternates

/-- A line that is active when it is low. -/
def lowActive : Nat → EventAsk := fun _ => ⟨9, { activeLow := true }, {}⟩

/-- Both edges of a line that is active when it is low; the first of them has been told, the second one
waits, and what other lines do is not told. -/
theorem calledAt_sublist_edgesAt_two :
    let exec : Epl.ExecAct (Epl.Callable (Nat × Nat) Nat) Nat → BoardLabel Nat Nat Nat Nat Nat :=
      fun act => .source (.loop (.exec 0 act))
    let start : Board Nat Nat Nat Nat Nat := .start ⟨3⟩ ⟨4⟩ 0 fun _ => false
    let labels : List (BoardLabel Nat Nat Nat Nat Nat) :=
      [.construct none 0 ⟨.ok 5, some 0⟩ none, .source (.install none 0 (some 7) none),
        .change 9 10, .change 8 11, .change 9 12, exec .call, exec .step,
        exec (.drained (some eagain)), exec .step, exec .epollWait,
        exec (.woken (.ok [⟨Epl.epollIn, 5⟩])), exec .step, exec .step, exec .step, exec .step,
        exec .step, exec .invoke, .source (.act 0 none), .source (.act 0 none)]
    let called :=
      Reader.calledAt inspectInput 0 (.start ⟨3⟩ ⟨4⟩ 0) (sourceRun [] lowActive start labels)
    ∃ s, (board Nat Nat Nat Nat [] lowActive).run start labels = some s ∧ called = [(10, .falling)] ∧
      edgesAt [] lowActive 0 start labels = [(10, .falling), (12, .rising)] ∧
      (called ++ items (Reader.batchOf 0 0 s.sources ++ Reader.pendingOf 0 s.sources)).Sublist
        (edgesAt [] lowActive 0 start labels) ∧
      (called ++ items (Reader.batchOf 0 0 s.sources ++ Reader.pendingOf 0 s.sources)).IsChain
        fun a b => a.2 ≠ b.2 := by
  intro exec start labels called
  have hrun : (board Nat Nat Nat Nat [] lowActive).run start labels = some _ := rfl
  have hedges := calledAt_sublist_edgesAt 0 0 hrun ?_
  · exact ⟨_, hrun, rfl, rfl, hedges.1, hedges.2.2.2 rfl rfl⟩
  intro e pos hframe
  cases e with
  | zero => rfl
  | succ e => cases hframe

/-! ### Conditions on the steps of a run -/

/-- What the steps of the objects meet where the steps of the board meet a condition. -/
theorem along_sourceRun
    {C : Sources κ (List LineEvent) (Reader.Pos LineEvent (Int × Edge) H) H G ι ε →
      SourcesLabel κ (Option Errno) (KernelAct LineEvent) H G ι ε → Prop}
    {D : Board κ H G ι ε → BoardLabel κ H G ι ε → Prop}
    (hC : ∀ s l l', s.Inv ask → D s l → Shows program ask s l l' → C s.sources l')
    {s t : Board κ H G ι ε} {ls : List (BoardLabel κ H G ι ε)}
    (hrun : (board H G ι ε program ask).run s ls = some t) (hs : s.Inv ask)
    (hD : (board H G ι ε program ask).Along D s ls) :
    (gpioEvents κ H G ι ε).Along C s.sources (sourceRun program ask s ls) := by
  refine (System.along_shown run_sourceSteps hrun).mpr (hD.of_invariant (I := Inv ask)
    (fun _ _ _ hstep _ h => inv_preserved hstep h) (fun s l t _ hD h => ?_) hrun hs)
  rcases sourceSteps_cases program ask s l with hnone | ⟨l', hone, hshows⟩
  · rw [hnone]
    trivial
  · rw [hone]
    exact ⟨hC s l l' h hD hshows, fun _ _ => trivial⟩

theorem known_of_mem_sourceRun {s t : Board κ H G ι ε} {ls : List (BoardLabel κ H G ι ε)}
    (hrun : (board H G ι ε program ask).run s ls = some t) (hs : s.Inv ask) {k : κ}
    {l : SourcesLabel κ (Option Errno) (KernelAct LineEvent) H G ι ε}
    (hl : l ∈ sourceRun program ask s ls) {act : KernelAct LineEvent}
    (hact : l.outside? k = some act) : ∃ item, inspectInput.record act.record = .ok item :=
  (System.along_iff_forall_mem (run_sourceRun hrun)).mp (along_sourceRun
    (C := fun _ l => ∀ act, l.outside? k = some act →
      ∃ item, inspectInput.record act.record = .ok item) (D := fun _ _ => True)
    (fun _ _ _ _ _ hshows _ hact => hshows.known hact) hrun hs
    (System.along_of_forall _ (fun _ _ => trivial) _ ls)) l hl act hact

theorem getLast?_called_eq {epfd evtfd : Cmn.Fd} {wake : G} {level : BitVec 32 → Bool} {k : κ}
    {e : ε} {ls : List (BoardLabel κ H G ι ε)} {s : Board κ H G ι ε}
    (hrun : (board H G ι ε program ask).run (.start epfd evtfd wake level) ls = some s)
    (hfinishes : (board H G ι ε program ask).Along (Finishes k) (.start epfd evtfd wake level) ls)
    (honly : ∀ e' pos, s.sources.frame e' = some (k, pos) → e' = e)
    (hbatch : Reader.batchOf e k s.sources = [])
    (hpending : Reader.pendingOf k s.sources = []) :
    (Reader.calledAt inspectInput k (.start epfd evtfd wake)
        (sourceRun program ask (.start epfd evtfd wake level) ls)).getLast? =
      (edgesAt program ask k (.start epfd evtfd wake level) ls).getLast? := by
  have hstart : (start epfd evtfd wake level : Board κ H G ι ε).Inv ask :=
    inv_start epfd evtfd wake level
  have hran : (gpioEvents κ H G ι ε).run (.start epfd evtfd wake)
      (sourceRun program ask (.start epfd evtfd wake level) ls) = some s.sources :=
    run_sourceRun hrun
  have hlast := Reader.getLast?_arrivedAt hran
    (along_sourceRun (fun _ _ _ _ h hshows => hshows.finishes h) hrun hstart hfinishes)
    (fun l hl act => known_of_mem_sourceRun hrun hstart hl) honly
  rw [hbatch, hpending, List.append_nil, List.append_nil] at hlast
  have harrived : (Reader.arrivedAt k (sourceRun program ask (.start epfd evtfd wake level) ls)).map
      inspectInput.record =
        (edgesAt program ask k (.start epfd evtfd wake level) ls).map .ok := by
    rw [← items_arrivedAt hrun hstart]
    refine map_record_items fun r hr => ?_
    obtain ⟨act, hact, rfl⟩ := List.mem_map.mp hr
    obtain ⟨l, hl, hact⟩ := List.mem_filterMap.mp hact
    exact known_of_mem_sourceRun hrun hstart hl hact
  -- the last record is decoded to the last edge
  have hmap := congrArg (Option.map inspectInput.record) hlast
  rw [← List.getLast?_map, ← List.getLast?_map, harrived, Reader.map_record_handedAt,
    List.getLast?_map, List.getLast?_map] at hmap
  exact Option.map_injective (fun _ _ h => Except.ok.inj h) hmap

/-- **The last edge is the value of the line.** As long as the functions of an object that has asked for
both edges do not throw with records of the batch left, whatever overruns its buffer has had: once nothing
waits to be read or handed over, its functions have last been called with the last edge of its line, which
is the value at which the line has settled, and the value that it has unless it is debounced. -/
theorem last_calledAt {epfd evtfd : Cmn.Fd} {wake : G} {level : BitVec 32 → Bool} (k : κ)
    (e : ε) {ls : List (BoardLabel κ H G ι ε)} {s : Board κ H G ι ε}
    (hrun : (board H G ι ε program ask).run (.start epfd evtfd wake level) ls = some s)
    (hfinishes : (board H G ι ε program ask).Along (Finishes k) (.start epfd evtfd wake level) ls)
    (honly : ∀ e' pos, s.sources.frame e' = some (k, pos) → e' = e)
    (hbatch : Reader.batchOf e k s.sources = []) (hpending : Reader.pendingOf k s.sources = [])
    (hboth : (ask k).eventLineArgs.edge = .both) (hholder : s.holder (ask k).line = some k) :
    let ran := sourceRun program ask (.start epfd evtfd wake level) ls
    let called := Reader.calledAt inspectInput k (.start epfd evtfd wake) ran
    called.getLast? = (edgesAt program ask k (.start epfd evtfd wake level) ls).getLast? ∧
      (∀ item ∈ called.getLast?, item.2 = (ask k).edge (s.settled (ask k).line)) ∧
      ((ask k).debounced = false → s.settled (ask k).line = s.level (ask k).line) := by
  intro ran called
  have heq := getLast?_called_eq hrun hfinishes honly hbatch hpending
  have htracks := tracks_of_run hboth hrun
  refine ⟨heq, ?_, htracks.inv.settled (ask k).line k hholder⟩
  rw [heq]
  exact htracks.last hholder

/-- A line that is active when it is low, and whose levels have to last. -/
def debouncedLow : Nat → EventAsk := fun _ =>
  ⟨9, { activeLow := true }, { debouncePeriodUs := some 5000 }⟩

/-- The line bounces before it settles, once high and once low, and then it has changed again. The
function throws after the last record of its batch. -/
theorem last_calledAt_two :
    let exec : Epl.ExecAct (Epl.Callable (Nat × Nat) Nat) Nat → BoardLabel Nat Nat Nat Nat Nat :=
      fun act => .source (.loop (.exec 0 act))
    let start : Board Nat Nat Nat Nat Nat := .start ⟨3⟩ ⟨4⟩ 0 fun _ => false
    let labels : List (BoardLabel Nat Nat Nat Nat Nat) :=
      [.construct none 0 ⟨.ok 5, some 0⟩ none, .source (.install none 0 (some 7) none),
        .change 9 10, .change 9 11, .change 9 12, .settle 9 5012, .change 9 6000, .settle 9 11000,
        .change 9 12000, exec .call, exec .step, exec (.drained (some eagain)),
        exec .step, exec .epollWait, exec (.woken (.ok [⟨Epl.epollIn, 5⟩])), exec .step, exec .step,
        exec .step, exec .step, exec .step, exec .invoke, .source (.act 0 none),
        .source (.act 0 none), exec (.callback .returns), .source (.act 0 none),
        exec (.callback (.throws (.std (.user "done"))))]
    let called :=
      Reader.calledAt inspectInput 0 (.start ⟨3⟩ ⟨4⟩ 0) (sourceRun [] debouncedLow start labels)
    ∃ s, (board Nat Nat Nat Nat [] debouncedLow).run start labels = some s ∧
      called = [(5012, .falling), (11000, .rising)] ∧ s.level 9 = true ∧
      (∀ item ∈ called.getLast?, item.2 = (debouncedLow 0).edge (s.settled 9)) ∧
      s.settled 9 = false := by
  intro exec start labels called
  have hrun : (board Nat Nat Nat Nat [] debouncedLow).run start labels = some _ := rfl
  refine ⟨_, hrun, rfl, rfl, (last_calledAt 0 0 hrun ?_ ?_ rfl rfl rfl rfl).2.1, rfl⟩
  · decide +kernel
  · intro e pos hframe
    cases e <;> cases hframe

/-- **Up to date after a round.** When a wait reports an object that has asked for both edges of its line,
and the line does not change and does not settle in the round, then the value of the line is known at the
end of the round: its functions have last been called with the edge that led to the level at which it has
settled, which is the one it has unless it is debounced. One read is enough, as it takes all that the
kernel has room for. -/
theorem last_calledAt_of_round {epfd evtfd : Cmn.Fd} {wake : G} {level : BitVec 32 → Bool} {k : κ}
    {e : ε} (batch : List Epl.Report) {r : Epl.Report} (ls ls' : List (BoardLabel κ H G ι ε))
    {s u t : Board κ H G ι ε}
    (hrun : (board H G ι ε program ask).run (.start epfd evtfd wake level) ls = some s)
    (hwoken : (board H G ι ε program ask).step s (.source (.loop (.exec e (.woken (.ok batch))))) =
      some u)
    (hrun' : (board H G ι ε program ask).run u ls' = some t)
    (hr : r ∈ batch) (hbit : r.events &&& Epl.epollIn ≠ 0#32)
    (hinstalled : (board H G ι ε program ask).Along (fun s _ => s.sources.Installed k r.fd) u ls')
    (hfinishes : (board H G ι ε program ask).Along (Finishes k) (.start epfd evtfd wake level)
      (ls ++ .source (.loop (.exec e (.woken (.ok batch)))) :: ls'))
    (hsteady : ∀ l ∈ ls', Steady (ask k).line l)
    (hend : t.sources.loop.execs e = .whileTest) (hrunning : t.sources.loop.queue.state = .running)
    (hboth : (ask k).eventLineArgs.edge = .both) (hholder : t.holder (ask k).line = some k) :
    let whole := ls ++ .source (.loop (.exec e (.woken (.ok batch)))) :: ls'
    let ran := sourceRun program ask (.start epfd evtfd wake level) whole
    let called := Reader.calledAt inspectInput k (.start epfd evtfd wake) ran
    called.getLast? = (edgesAt program ask k (.start epfd evtfd wake level) whole).getLast? ∧
      (∀ item ∈ called.getLast?, item.2 = (ask k).edge (t.settled (ask k).line)) ∧
      ((ask k).debounced = false → t.settled (ask k).line = t.level (ask k).line) := by
  intro whole ran called
  have hs : s.Inv ask := inv_preserved.run hrun (inv_start epfd evtfd wake level)
  have hu := inv_preserved hwoken hs
  have ht := inv_preserved.run hrun' hu
  have hwhole : (board H G ι ε program ask).run (.start epfd evtfd wake level) whole = some t :=
    System.run_append_eq_some _ |>.mpr ⟨s, hrun, System.run_cons_eq_some _ |>.mpr ⟨u, hwoken, hrun'⟩⟩
  have hsourceWoken : (gpioEvents κ H G ι ε).step s.sources (.loop (.exec e (.woken (.ok batch)))) =
      some u.sources := by
    cases move_of_step hwoken with
    | silent _ _ _ _ _ _ hsettles | told _ _ _ _ _ _ hsettles => cases hsettles
    | inner l hinner next hstep => exact hstep
  have hfinishes' : (board H G ι ε program ask).Along (Finishes k) u ls' :=
    ((System.along_append hrun).mp hfinishes).2.2 u hwoken
  have hsteady' := (System.along_iff_forall_mem hrun').mpr hsteady
  -- the objects see a round in which nothing arrives for this one, and nothing of it is lost
  have hnone : ∀ l ∈ sourceRun program ask u ls', Reader.Reads l ∧ l.outside? k = none :=
    (System.along_iff_forall_mem (run_sourceRun hrun')).mp
      (along_sourceRun (fun s _ _ h hD hshows => hshows.steady h hD) hrun' hu hsteady')
  have hloses : (gpioEvents κ H G ι ε).Along (Reader.LosesNothing inspectInput k) u.sources
      (sourceRun program ask u ls') :=
    along_sourceRun (fun s _ _ h hD hshows => Reader.lost_of_finishes h.sources (h.known k)
      (hshows.finishes hD.1) (hshows.steady h hD.2).2) hrun' hu (hfinishes'.and hsteady')
  have harrived : Reader.arrivedAt k (sourceRun program ask u ls') = [] := by
    rw [Reader.arrivedAt, List.filterMap_eq_nil_iff.mpr fun l hl => (hnone l hl).2]
    rfl
  have hpending := Reader.pendingOf_of_round hs.sources hsourceWoken (run_sourceRun hrun') hr hbit
    (along_sourceRun (fun _ _ _ _ h _ => h) hrun' hu hinstalled) hloses
    (fun l hl => (hnone l hl).1) harrived (hs.bounded k) hend hrunning
  have hentered : (t.sources.loop.execs e).Entered := by
    simp [Epl.ExecPos.Entered, hend, Epl.ExecPos.place]
  have hbatch : Reader.batchOf e k t.sources = [] := by
    cases hframe : t.sources.frame e with
    | none => simp [Reader.batchOf, hframe]
    | some frame =>
        obtain ⟨c, func, stopping, hpos⟩ := ht.sources.framed e frame.1 frame.2 hframe
        rw [hend] at hpos
        cases hpos
  have heq := getLast?_called_eq hwhole hfinishes (fun e' pos hframe =>
    ht.sources.exec.unique e' e (ht.sources.entered hframe) hentered) hbatch hpending
  have htracks := tracks_of_run hboth hwhole
  refine ⟨heq, ?_, htracks.inv.settled (ask k).line k hholder⟩
  rw [heq]
  exact htracks.last hholder

/-- Two edges in one batch, while another line changes. -/
theorem last_calledAt_of_round_two :
    let exec : Epl.ExecAct (Epl.Callable (Nat × Nat) Nat) Nat → BoardLabel Nat Nat Nat Nat Nat :=
      fun act => .source (.loop (.exec 0 act))
    let start : Board Nat Nat Nat Nat Nat := .start ⟨3⟩ ⟨4⟩ 0 fun _ => false
    let waiting : List (BoardLabel Nat Nat Nat Nat Nat) :=
      [.construct none 0 ⟨.ok 5, some 0⟩ none, .source (.install none 0 (some 7) none),
        .change 9 10, .change 9 12, exec .call, exec .step, exec (.drained (some eagain)),
        exec .step, exec .epollWait]
    let round : List (BoardLabel Nat Nat Nat Nat Nat) :=
      [exec .step, exec .step, exec .step, exec .step, exec .step, exec .invoke,
        .source (.act 0 none), .source (.act 0 none), .change 8 13, exec (.callback .returns),
        .source (.act 0 none), exec (.callback .returns), .source (.act 0 none), exec .step,
        exec .step, exec .step, exec .step, exec .step, exec .step, exec .step]
    let whole := waiting ++ exec (.woken (.ok [⟨Epl.epollIn, 5⟩])) :: round
    let called :=
      Reader.calledAt inspectInput 0 (.start ⟨3⟩ ⟨4⟩ 0) (sourceRun [] lowActive start whole)
    ∃ t, (board Nat Nat Nat Nat [] lowActive).run start whole = some t ∧
      called = [(10, .falling), (12, .rising)] ∧
      (∀ item ∈ called.getLast?, item.2 = (lowActive 0).edge (t.settled 9)) ∧
      t.settled 9 = t.level 9 := by
  intro exec start waiting round whole called
  have hrun : (board Nat Nat Nat Nat [] lowActive).run start waiting = some _ := rfl
  have hround := last_calledAt_of_round [⟨Epl.epollIn, 5⟩] waiting round
    (r := ⟨Epl.epollIn, 5⟩) (e := 0) (k := 0) hrun rfl rfl ?_ ?_ ?_ ?_ ?_ rfl rfl rfl rfl
  · exact ⟨_, rfl, rfl, hround.2.1, hround.2.2 rfl⟩
  · exact List.mem_singleton.mpr rfl
  · decide
  · decide +kernel
  · decide +kernel
  · simp [round, exec, Steady, Reader.Reads, lowActive]

end Board

end

end Suc.Gpio
