import Suc.Transition.Simulation

/-!
# Channels

A channel is a sequence of values that are received in the order in which they are sent, each once.
Whatever a run of it has sent is what it has received followed by what it still holds, so a system
that a channel simulates delivers exactly once and in order.

A lossy channel may also drop the value whose turn it is. A system that it simulates delivers all
that is sent exactly when it drops nothing.
-/

namespace Transition

variable {α σ ℓ : Type*}

inductive ChannelLabel (α : Type*) where
  | send (a : α)
  | receive (a : α)

open Classical in
noncomputable def channel (α : Type*) : System (List α) (ChannelLabel α) where
  step
    | held, .send a => some (held ++ [a])
    | [], .receive _ => none
    | b :: held, .receive a => if a = b then some held else none

def sent (ls : List (ChannelLabel α)) : List α :=
  ls.filterMap fun
    | .send a => some a
    | .receive _ => none

def received (ls : List (ChannelLabel α)) : List α :=
  ls.filterMap fun
    | .send _ => none
    | .receive a => some a

@[simp]
theorem sent_append (ls ls' : List (ChannelLabel α)) : sent (ls ++ ls') = sent ls ++ sent ls' :=
  List.filterMap_append

@[simp]
theorem received_append (ls ls' : List (ChannelLabel α)) :
    received (ls ++ ls') = received ls ++ received ls' :=
  List.filterMap_append

@[simp]
theorem sent_send (a : α) : sent [.send a] = [a] := rfl

@[simp]
theorem sent_receive (a : α) : sent [.receive a] = [] := rfl

@[simp]
theorem received_send (a : α) : received [.send a] = [] := rfl

@[simp]
theorem received_receive (a : α) : received [.receive a] = [a] := rfl

theorem channel_receive (a : α) (held : List α) :
    (channel α).step (a :: held) (.receive a) = some held := by
  simp [channel]

/-! ### Lossy channels -/

inductive LossyLabel (α : Type*) where
  | send (a : α)
  | receive (a : α)
  | drop (a : α)

namespace LossyLabel

def sent? : LossyLabel α → Option α
  | .send a => some a
  | _ => none

def received? : LossyLabel α → Option α
  | .receive a => some a
  | _ => none

def dropped? : LossyLabel α → Option α
  | .drop a => some a
  | _ => none

def taken? : LossyLabel α → Option α
  | .send _ => none
  | .receive a | .drop a => some a

attribute [simp] sent? received? dropped? taken?

theorem sent?_sends (as : List α) : (as.map send).filterMap sent? = as := by
  simp [List.filterMap_map, Function.comp_def]

theorem received?_sends (as : List α) : (as.map send).filterMap received? = [] := by
  simp [List.filterMap_map, Function.comp_def]

theorem dropped?_sends (as : List α) : (as.map send).filterMap dropped? = [] := by
  simp [List.filterMap_map, Function.comp_def]

theorem sent?_drops (as : List α) : (as.map drop).filterMap sent? = [] := by
  simp [List.filterMap_map, Function.comp_def]

theorem received?_drops (as : List α) : (as.map drop).filterMap received? = [] := by
  simp [List.filterMap_map, Function.comp_def]

theorem dropped?_drops (as : List α) : (as.map drop).filterMap dropped? = as := by
  simp [List.filterMap_map, Function.comp_def]

end LossyLabel

open Classical in
noncomputable def lossyChannel (α : Type*) : System (List α) (LossyLabel α) where
  step
    | held, .send a => some (held ++ [a])
    | [], _ => none
    | b :: held, .receive a | b :: held, .drop a => if a = b then some held else none

theorem lossyChannel_receive (a : α) (held : List α) :
    (lossyChannel α).step (a :: held) (.receive a) = some held := by
  simp [lossyChannel]

theorem lossyChannel_run_send (held as : List α) :
    (lossyChannel α).run held (as.map .send) = some (held ++ as) := by
  induction as generalizing held with
  | nil => simp
  | cons a as ih =>
      have hstep : (lossyChannel α).step held (.send a) = some (held ++ [a]) := rfl
      rw [List.map_cons, System.run_cons, hstep, Option.bind_some, ih, List.append_assoc]
      rfl

theorem lossyChannel_run_drop (held : List α) :
    (lossyChannel α).run held (held.map .drop) = some [] := by
  induction held with
  | nil => rfl
  | cons a held ih => simpa [System.run_cons, lossyChannel] using ih

/-- What is held at first and what is sent afterwards is taken in this order, up to what is held at
last. -/
theorem append_sent_eq_taken_append {held held' : List α} {ls : List (LossyLabel α)}
    (hrun : (lossyChannel α).run held ls = some held') :
    held ++ ls.filterMap LossyLabel.sent? = ls.filterMap LossyLabel.taken? ++ held' := by
  induction ls generalizing held with
  | nil =>
      obtain rfl : held = held' := by simpa using hrun
      simp
  | cons l ls ih =>
      obtain ⟨m, hstep, hrest⟩ := (System.run_cons_eq_some _).mp hrun
      have htail := ih hrest
      cases l with
      | send a =>
          obtain rfl : held ++ [a] = m := Option.some.inj hstep
          simpa [List.filterMap_cons] using htail
      | receive a | drop a =>
          cases held with
          | nil => cases hstep
          | cons b held =>
              simp only [lossyChannel, Option.ite_none_right_eq_some, Option.some.injEq] at hstep
              obtain ⟨rfl, rfl⟩ := hstep
              simpa [List.filterMap_cons] using htail

/-! ### Channels lose nothing -/

/-- A channel is a lossy channel on which nothing is dropped. -/
def ChannelLabel.lossy : ChannelLabel α → LossyLabel α
  | .send a => .send a
  | .receive a => .receive a

theorem channel_run_eq (held : List α) (ls : List (ChannelLabel α)) :
    (channel α).run held ls = (lossyChannel α).run held (ls.map ChannelLabel.lossy) := by
  induction ls generalizing held with
  | nil => rfl
  | cons l ls ih =>
      have hstep : (channel α).step held l = (lossyChannel α).step held l.lossy := by
        cases l <;> cases held <;> rfl
      rw [List.map_cons, System.run_cons, System.run_cons, hstep]
      congr 1
      funext m
      exact ih m

theorem sent_eq (ls : List (ChannelLabel α)) :
    sent ls = (ls.map ChannelLabel.lossy).filterMap LossyLabel.sent? := by
  rw [sent, List.filterMap_map]
  congr 1
  funext l
  cases l <;> rfl

theorem received_eq (ls : List (ChannelLabel α)) :
    received ls = (ls.map ChannelLabel.lossy).filterMap LossyLabel.taken? := by
  rw [received, List.filterMap_map]
  congr 1
  funext l
  cases l <;> rfl

/-- What is held at first and what is sent afterwards is received in this order, up to what is held
at last. -/
theorem append_sent_eq_received_append {held held' : List α} {ls : List (ChannelLabel α)}
    (hrun : (channel α).run held ls = some held') :
    held ++ sent ls = received ls ++ held' := by
  rw [channel_run_eq] at hrun
  rw [sent_eq, received_eq]
  exact append_sent_eq_taken_append hrun

/-! ### Exactly once -/

theorem length_taken (ls : List (LossyLabel α)) :
    (ls.filterMap LossyLabel.taken?).length =
      (ls.filterMap LossyLabel.received?).length + (ls.filterMap LossyLabel.dropped?).length := by
  induction ls with
  | nil => rfl
  | cons l ls ih =>
      cases l <;>
        simp only [List.filterMap_cons, LossyLabel.taken?, LossyLabel.received?,
          LossyLabel.dropped?, List.length_cons] <;> omega

theorem taken_of_no_drop {ls : List (LossyLabel α)} (h : ls.filterMap LossyLabel.dropped? = []) :
    ls.filterMap LossyLabel.taken? = ls.filterMap LossyLabel.received? := by
  rw [List.filterMap_eq_nil_iff] at h
  apply List.filterMap_congr
  intro l hl
  cases l with
  | drop a => exact absurd (h _ hl) (Option.some_ne_none a)
  | send a | receive a => rfl

/-- **Exactly once.** A system that a lossy channel simulates, which holds nothing at first and at
last, delivers what is sent if and only if no step drops anything. -/
theorem received_eq_sent_iff {sys : System σ ℓ} (abs : σ → List α)
    (emit : σ → ℓ → List (LossyLabel α))
    (hsim : ∀ s l t, sys.step s l = some t →
      (lossyChannel α).run (abs s) (emit s l) = some (abs t))
    {s t : σ} {ls : List ℓ} (hrun : sys.run s ls = some t) (hs : abs s = []) (ht : abs t = []) :
    (sys.shown emit s ls).filterMap LossyLabel.received? =
        (sys.shown emit s ls).filterMap LossyLabel.sent? ↔
      sys.Along (fun s l => (emit s l).filterMap LossyLabel.dropped? = []) s ls := by
  have hchannel := System.run_shown_of_step abs emit hsim hrun
  rw [hs, ht] at hchannel
  have hsent := append_sent_eq_taken_append hchannel
  rw [List.nil_append, List.append_nil] at hsent
  rw [← System.shown_eq_nil_iff hrun, ← System.shown_filterMap, hsent]
  constructor
  · intro heq
    have hlength := length_taken (sys.shown emit s ls)
    rw [← heq] at hlength
    exact List.length_eq_zero_iff.mp (by omega)
  · intro hnone
    rw [taken_of_no_drop hnone]

/-! ### Queues that leak

What is lost need not be what would have been received next, and what is sent need not be received
last. -/

/-- What was sent has been received, is held or was dropped, each of it once. -/
def Conserved (ls : List (LossyLabel α)) (held : List α) : Prop :=
  (ls.filterMap LossyLabel.received? ++ held ++ ls.filterMap LossyLabel.dropped?).Perm
    (ls.filterMap LossyLabel.sent?)

/-- What has been received and what is held stands in the order in which it was sent, and is all that
was sent but for what was dropped. -/
structure Leaky (ls : List (LossyLabel α)) (held : List α) : Prop where
  order : (ls.filterMap LossyLabel.received? ++ held).Sublist (ls.filterMap LossyLabel.sent?)
  all : Conserved ls held

/-- The first of what is held is received, or the first ones are dropped. -/
def TakesFirst (ls : List (LossyLabel α)) (held held' : List α) : Prop :=
  (∃ a, ls = [.receive a] ∧ held = a :: held') ∨
    ∃ dropped, ls = dropped.map .drop ∧ held = dropped ++ held'

variable {ls : List (LossyLabel α)} {held : List α}

namespace Conserved

theorem sends (as : List α) : Conserved (as.map LossyLabel.send) as := by
  rw [Conserved, LossyLabel.received?_sends, LossyLabel.sent?_sends, LossyLabel.dropped?_sends,
    List.nil_append, List.append_nil]

theorem send (before : List α) {after : List α} (h : Conserved ls (before ++ after)) (a : α) :
    Conserved (ls ++ [.send a]) (before ++ a :: after) := by
  refine List.Perm.trans ?_ (by simpa using List.Perm.append_right [a] h)
  simp only [List.filterMap_append, List.filterMap_cons, List.filterMap_nil, LossyLabel.received?,
    LossyLabel.dropped?, List.append_nil, List.append_assoc, List.cons_append]
  -- what is sent moves behind what was held and what was dropped
  have hlast : (a :: (after ++ ls.filterMap LossyLabel.dropped?)).Perm
      (after ++ (ls.filterMap LossyLabel.dropped? ++ [a])) := by
    rw [← List.append_assoc]
    exact (List.perm_append_singleton ..).symm
  exact (hlast.append_left before).append_left _

theorem receive {a : α} (h : Conserved ls (a :: held)) : Conserved (ls ++ [.receive a]) held := by
  simpa [Conserved, List.filterMap_cons] using h

theorem drops (before : List α) {dropped after : List α}
    (h : Conserved ls (before ++ dropped ++ after)) :
    Conserved (ls ++ dropped.map LossyLabel.drop) (before ++ after) := by
  rw [Conserved, List.filterMap_append, List.filterMap_append, List.filterMap_append,
    LossyLabel.sent?_drops, LossyLabel.received?_drops, LossyLabel.dropped?_drops, List.append_nil,
    List.append_nil]
  refine List.Perm.trans ?_ h
  -- what is dropped moves behind what is held
  have hmoved : (after ++ (ls.filterMap LossyLabel.dropped? ++ dropped)).Perm
      (dropped ++ (after ++ ls.filterMap LossyLabel.dropped?)) := by
    rw [← List.append_assoc]
    exact List.perm_append_comm
  simp only [List.append_assoc]
  exact (hmoved.append_left before).append_left _

/-- What is sent is dropped at once. -/
theorem merge (h : Conserved ls held) (a : α) : Conserved (ls ++ [.send a, .drop a]) held := by
  have hsent : Conserved (ls ++ [.send a]) ([] ++ [a] ++ held) := send [] h a
  have hdropped := drops [] hsent
  rwa [List.append_assoc] at hdropped

theorem takesFirst {ls' : List (LossyLabel α)} {held' : List α} (h : Conserved ls held)
    (htakes : TakesFirst ls' held held') : Conserved (ls ++ ls') held' := by
  rcases htakes with ⟨a, rfl, rfl⟩ | ⟨dropped, rfl, rfl⟩
  · exact h.receive
  · exact drops [] h

end Conserved

namespace Leaky

theorem sends (as : List α) : Leaky (as.map LossyLabel.send) as where
  order := by rw [LossyLabel.received?_sends, LossyLabel.sent?_sends, List.nil_append]
  all := .sends as

theorem send (h : Leaky ls held) (a : α) : Leaky (ls ++ [.send a]) (held ++ [a]) where
  order := by simpa [List.filterMap_cons] using h.order.append_right [a]
  all := Conserved.send held (by simpa using h.all) a

theorem receive {a : α} (h : Leaky ls (a :: held)) : Leaky (ls ++ [.receive a]) held where
  order := by simpa [List.filterMap_cons] using h.order
  all := h.all.receive

theorem drops (before : List α) {dropped after : List α}
    (h : Leaky ls (before ++ dropped ++ after)) :
    Leaky (ls ++ dropped.map LossyLabel.drop) (before ++ after) where
  order := by
    rw [List.filterMap_append, List.filterMap_append, LossyLabel.sent?_drops,
      LossyLabel.received?_drops, List.append_nil, List.append_nil]
    refine (List.Sublist.append_left ?_ _).trans h.order
    rw [List.append_assoc]
    exact (List.sublist_append_right ..).append_left before
  all := h.all.drops before

theorem takesFirst {ls' : List (LossyLabel α)} {held' : List α} (h : Leaky ls held)
    (htakes : TakesFirst ls' held held') : Leaky (ls ++ ls') held' := by
  rcases htakes with ⟨a, rfl, rfl⟩ | ⟨dropped, rfl, rfl⟩
  · exact h.receive
  · exact drops [] h

/-- **In order up to what is lost.** All that was sent has been received or is held, in its order, if
and only if nothing was dropped. -/
theorem eq_sent_iff (h : Leaky ls held) :
    ls.filterMap LossyLabel.received? ++ held = ls.filterMap LossyLabel.sent? ↔
      ls.filterMap LossyLabel.dropped? = [] := by
  have hlength := List.Perm.length_eq h.all
  rw [List.length_append] at hlength
  constructor
  · intro heq
    rw [heq] at hlength
    exact List.length_eq_zero_iff.mp (by omega)
  · intro hnone
    refine h.order.eq_of_length ?_
    rwa [hnone, List.length_nil, Nat.add_zero] at hlength

end Leaky

end Transition
