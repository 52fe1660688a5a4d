import Suc.Proof.ReaderSource

/-!
# The last record survives

An overrun discards the oldest record for the sake of the newest. So whatever is lost to overruns, the
record that arrived last is handed over last, or is the last that is held.
-/

namespace Suc.Epl.Reader

open Transition

variable {κ ρ α H G ι ε : Type} {reader : Reader ρ α}

/-! ### The reader by itself -/

/-- Nothing is lost, unless by what other threads do. -/
def Spared (reader : Reader ρ α) (s : Solo (List ρ) (Pos ρ α H))
    (l : SoloLabel (Option Errno) (KernelAct ρ) H) : Prop :=
  l.outside? = none → (records reader s l).filterMap LossyLabel.dropped? = []

def Fresh (h : List (LossyLabel ρ)) (s : Solo (List ρ) (Pos ρ α H)) : Prop :=
  (h.filterMap LossyLabel.received? ++ held s).getLast? = (h.filterMap LossyLabel.sent?).getLast?

/-- What is held comes from what was held or arrives. -/
theorem leaky_of_step {s t : Solo (List ρ) (Pos ρ α H)}
    {l : SoloLabel (Option Errno) (KernelAct ρ) H}
    (hstep : (service H reader).solo.step s l = some t) :
    Leaky ((held s).map .send ++ records reader s l) (held t) :=
  leaky_step hstep (Leaky.sends (held s))

theorem mem_held_of_step {s t : Solo (List ρ) (Pos ρ α H)}
    {l : SoloLabel (Option Errno) (KernelAct ρ) H} {r : ρ}
    (hstep : (service H reader).solo.step s l = some t) (hr : r ∈ held t) :
    r ∈ held s ∨ ∃ act, l.outside? = some act ∧ r = act.record := by
  have hall := (leaky_of_step hstep).all
  have hmem := hall.mem_iff.mp (List.mem_append_left _ (List.mem_append_right _ hr))
  rw [List.filterMap_append, LossyLabel.sent?_sends, sent_records, List.mem_append] at hmem
  refine hmem.imp_right fun hsent => ?_
  cases houtside : l.outside? with
  | none => simp [houtside] at hsent
  | some act => exact ⟨act, rfl, by simpa [houtside] using hsent⟩

/-- A step that loses nothing hands over what comes first of what is held, or nothing. -/
theorem held_eq_of_spared {s t : Solo (List ρ) (Pos ρ α H)}
    {l : SoloLabel (Option Errno) (KernelAct ρ) H}
    (hstep : (service H reader).solo.step s l = some t) (hspared : Spared reader s l)
    (houtside : l.outside? = none) :
    held s = (records reader s l).filterMap LossyLabel.received? ++ held t := by
  have heq := (leaky_of_step hstep).eq_sent_iff.mpr (by
    rw [List.filterMap_append, hspared houtside, LossyLabel.dropped?_sends]
    rfl)
  rw [List.filterMap_append, List.filterMap_append, LossyLabel.received?_sends,
    LossyLabel.sent?_sends, sent_records, houtside] at heq
  simpa using heq.symm

theorem Fresh.step {h : List (LossyLabel ρ)} {s t : Solo (List ρ) (Pos ρ α H)}
    {l : SoloLabel (Option Errno) (KernelAct ρ) H}
    (hstep : (service H reader).solo.step s l = some t) (hspared : Spared reader s l)
    (hs : Fresh h s) : Fresh (h ++ records reader s l) t := by
  cases houtside : l.outside? with
  | none =>
      rw [Fresh, held_eq_of_spared hstep hspared houtside] at hs
      rw [Fresh, List.filterMap_append, List.filterMap_append, sent_records, houtside]
      simpa using hs
  | some act =>
      -- what arrives is the last that is held
      obtain rfl : l = .outside act := by cases l <;> simp_all [SoloLabel.outside?]
      obtain ⟨before, hbefore⟩ : ∃ before, held t = before ++ [act.record] := by
        cases hstep
        cases act with
        | queue r => exact ⟨s.pos.elim [] Pos.todo ++ s.state, (List.append_assoc ..).symm⟩
        | overrun r => exact ⟨s.pos.elim [] Pos.todo ++ s.state.tail, (List.append_assoc ..).symm⟩
      rw [Fresh, List.filterMap_append, List.filterMap_append, sent_records, hbefore]
      simp [SoloLabel.outside?, ← List.append_assoc]

/-- Only an arrival makes more of what the kernel has queued. -/
theorem length_state_le {s t : Solo (List ρ) (Pos ρ α H)}
    {l : SoloLabel (Option Errno) (KernelAct ρ) H}
    (hstep : (service H reader).solo.step s l = some t) (houtside : l.outside? = none) :
    t.state.length ≤ s.state.length := by
  cases l with
  | outside act => cases houtside
  | enter func =>
      obtain ⟨-, rfl⟩ := Service.eq_of_enter hstep
      exact Nat.le_refl _
  | act failure =>
      rcases act_cases hstep with ⟨func, -, ⟨-, rfl⟩ | ⟨-, rfl⟩, -⟩ |
        ⟨func, r, todo, item, -, -, rfl, -⟩ | ⟨func, r, todo, -, rfl, -⟩ | ⟨func, -, rfl, -⟩
      · simp
      all_goals exact Nat.le_refl _
  | returns =>
      obtain ⟨pos, back, -, -, rfl⟩ := Service.eq_of_returns hstep
      exact Nat.le_refl _
  | throws exc =>
      obtain ⟨pos, back, -, -, rfl⟩ := Service.eq_of_throws hstep
      exact Nat.le_refl _

/-! ### Many readers -/

variable [DecidableEq κ]

/-- What is left of the batch when a function throws. -/
def abandoned (k : κ) (s : Sources κ (List ρ) (Pos ρ α H) H G ι ε) :
    SourcesLabel κ (Option Errno) (KernelAct ρ) H G ι ε → List ρ
  | .loop (.exec e (.callback (.throws _))) => batchOf e k s
  | _ => []

/-- No function throws while records of the batch at hand are left. -/
def Finishes (k : κ) (s : Sources κ (List ρ) (Pos ρ α H) H G ι ε)
    (l : SourcesLabel κ (Option Errno) (KernelAct ρ) H G ι ε) : Prop :=
  abandoned k s l = []

instance [DecidableEq ρ] {k : κ} (s : Sources κ (List ρ) (Pos ρ α H) H G ι ε)
    (l : SourcesLabel κ (Option Errno) (KernelAct ρ) H G ι ε) : Decidable (Finishes k s l) :=
  inferInstanceAs (Decidable (_ = _))

/-- Every record that is held is what it should be. -/
def Known (reader : Reader ρ α) (k : κ) (s : Sources κ (List ρ) (Pos ρ α H) H G ι ε) : Prop :=
  ∀ r ∈ held (s.soloOf (service H reader) k), ∃ item, reader.record r = .ok item

theorem lost_of_finishes {k : κ} {s : Sources κ (List ρ) (Pos ρ α H) H G ι ε} (h : s.Inv)
    (hknown : Known reader k s) {l : SourcesLabel κ (Option Errno) (KernelAct ρ) H G ι ε}
    (hfinishes : Finishes k s l) (houtside : l.outside? k = none) : lost reader k s l = [] := by
  cases l with
  | outside k' act =>
      cases act with
      | queue r => rfl
      | overrun r =>
          refine if_neg ?_
          rintro rfl
          simp [SourcesLabel.outside?] at houtside
  | act e choice =>
      simp only [lost]
      split
      · rename_i k' func r todo hframe
        split
        · rfl
        · rename_i exc hrecord
          refine if_neg ?_
          rintro rfl
          have hr : r ∈ held (s.soloOf (service H reader) k') := by
            simp [held, Sources.soloOf, Sources.posOf_eq_some h hframe, Pos.todo]
          obtain ⟨item, hitem⟩ := hknown r hr
          rw [hrecord] at hitem
          cases hitem
      · rfl
  | loop l =>
      cases l with
      | stop id act => rfl
      | exec e act =>
          cases act with
          | callback act =>
              cases act with
              | throws exc => exact hfinishes
              | _ => rfl
          | _ => rfl
  | _ => rfl

theorem does_spared {k : κ} {s : Sources κ (List ρ) (Pos ρ α H) H G ι ε} (h : s.Inv)
    (hknown : Known reader k s) {l : SourcesLabel κ (Option Errno) (KernelAct ρ) H G ι ε}
    (hfinishes : Finishes k s l) : s.Does (service H reader) (Spared reader) k l := by
  intro a ha houtside
  have hlost := lost_of_finishes h hknown hfinishes
    ((Sources.outside?_of_shows (Sources.shows_of_mem ha)).trans houtside)
  rcases Sources.soloSteps_cases (service H reader) k s l with hnone | ⟨a', hone⟩
  · rw [hnone] at ha
    cases ha
  · obtain rfl := List.mem_singleton.mp (hone ▸ ha)
    have hdropped := (dropped?_history k h l).trans hlost
    rw [Sources.history, hone] at hdropped
    simpa using hdropped

variable [DecidableEq ι] [DecidableEq ε]

theorem Known.step {k : κ} {s t : Sources κ (List ρ) (Pos ρ α H) H G ι ε} (h : s.Inv)
    {l : SourcesLabel κ (Option Errno) (KernelAct ρ) H G ι ε}
    (hstep : (sources κ G ι ε (service H reader)).step s l = some t) (hknown : Known reader k s)
    (harrives : ∀ act, l.outside? k = some act → ∃ item, reader.record act.record = .ok item) :
    Known reader k t := by
  intro r hr
  rcases Sources.solo_cases (k := k) h hstep with ⟨-, hsame⟩ | ⟨a, hone, hsolo⟩
  · rw [hsame] at hr
    exact hknown r hr
  · rcases mem_held_of_step hsolo hr with hbefore | ⟨act, houtside, rfl⟩
    · exact hknown r hbefore
    · have hshows := Sources.shows_of_mem (hone ▸ List.mem_singleton_self a)
      exact harrives act ((Sources.outside?_of_shows hshows).trans houtside)

theorem length_pendingOf_le {k : κ} {s t : Sources κ (List ρ) (Pos ρ α H) H G ι ε} (h : s.Inv)
    {l : SourcesLabel κ (Option Errno) (KernelAct ρ) H G ι ε}
    (hstep : (sources κ G ι ε (service H reader)).step s l = some t)
    (houtside : l.outside? k = none) : (pendingOf k t).length ≤ (pendingOf k s).length := by
  rcases Sources.solo_cases (k := k) h hstep with ⟨-, hsame⟩ | ⟨a, hone, hsolo⟩
  · exact Nat.le_of_eq (congrArg (fun s => s.state.length) hsame)
  · have hshows := Sources.shows_of_mem (hone ▸ List.mem_singleton_self a)
    exact length_state_le hsolo ((Sources.outside?_of_shows hshows).symm.trans houtside)

/-- **The last record survives.** As long as the functions of a reader do not throw with records of the
batch left, and all that arrives is what it should be, the record that arrived last has been handed over
last, or is the last of what its lambda has still to come to and what the kernel has queued. -/
theorem getLast?_arrivedAt {epfd evtfd : Cmn.Fd} {wake : G} {k : κ} {e : ε}
    {ls : List (SourcesLabel κ (Option Errno) (KernelAct ρ) H G ι ε)}
    {s : Sources κ (List ρ) (Pos ρ α H) H G ι ε}
    (hrun : (sources κ G ι ε (service H reader)).run (.start epfd evtfd wake) ls = some s)
    (hfinishes : (sources κ G ι ε (service H reader)).Along (Finishes k) (.start epfd evtfd wake) ls)
    (harrives : ∀ l ∈ ls, ∀ act, l.outside? k = some act →
      ∃ item, reader.record act.record = .ok item)
    (honly : ∀ e' pos, s.frame e' = some (k, pos) → e' = e) :
    (handedAt reader k (.start epfd evtfd wake) ls ++ (batchOf e k s ++ pendingOf k s)).getLast? =
      (arrivedAt k ls).getLast? := by
  have hstart := Sources.inv_start (κ := κ) (δ := List ρ) (π := Pos ρ α H) (H := H) (ι := ι) (ε := ε)
    epfd evtfd wake
  have hempty : held ((Sources.start epfd evtfd wake :
      Sources κ (List ρ) (Pos ρ α H) H G ι ε).soloOf (service H reader) k) = [] := by
    rw [Sources.soloOf_start]
    rfl
  have hspared : (sources κ G ι ε (service H reader)).Along
      (Sources.Does (service H reader) (Spared reader) k) (.start epfd evtfd wake) ls := by
    refine (hfinishes.and ((System.along_iff_forall_mem hrun).mpr harrives)).of_invariant
      (I := fun s => s.Inv ∧ Known reader k s) ?_ ?_ hrun ⟨hstart, ?_⟩
    · exact fun s l t hstep hC h => ⟨Sources.inv_preserved _ hstep h.1, h.2.step h.1 hstep hC.2⟩
    · exact fun s l t _ hC h => does_spared h.1 h.2 hC.1
    · intro r hr
      rw [hempty] at hr
      cases hr
  have hfresh := Sources.history_invariant (records reader) (J := Fresh) (fun _ _ _ _ => Fresh.step)
    hrun hstart hspared (h := []) (by rw [Fresh, hempty]; rfl)
  rwa [Fresh, List.nil_append, received_of_run hrun hstart, sent_of_run hrun,
    held_soloOf ((Sources.inv_preserved _).run hrun hstart) honly] at hfresh

/-- **Nothing is left.** When no record arrives in a round and one read takes all that was queued, nothing
is queued at the end of the round. -/
theorem pendingOf_of_round {k : κ} {e : ε} {batch : List Report} {r : Report}
    {ls' : List (SourcesLabel κ (Option Errno) (KernelAct ρ) H G ι ε)}
    {s u t : Sources κ (List ρ) (Pos ρ α H) H G ι ε} (hs : s.Inv)
    (hwoken : (sources κ G ι ε (service H reader)).step s (.loop (.exec e (.woken (.ok batch)))) =
      some u)
    (hrun' : (sources κ G ι ε (service H reader)).run u ls' = some t)
    (hr : r ∈ batch) (hbit : r.events &&& epollIn ≠ 0#32)
    (hinstalled : (sources κ G ι ε (service H reader)).Along (fun s _ => s.Installed k r.fd) u ls')
    (hloses : (sources κ G ι ε (service H reader)).Along (LosesNothing reader k) u ls')
    (hreads : ∀ l ∈ ls', Reads l) (harrives : arrivedAt k ls' = [])
    (hcapacity : (pendingOf k s).length ≤ reader.capacity)
    (hend : t.loop.execs e = .whileTest) (hrunning : t.loop.queue.state = .running) :
    pendingOf k t = [] := by
  obtain ⟨heq, hserved⟩ := served_of_round hs hwoken hrun' hr hbit hinstalled hloses hreads hend
    hrunning
  rw [harrives, List.append_nil] at heq
  have hlength := congrArg List.length heq
  rw [List.length_append] at hlength
  exact List.length_eq_zero_iff.mp (by omega)

end Suc.Epl.Reader
