import Suc.Epl.Dispatch

/-!
# Dispatch is exact

The calls of a batch are strictly ordered by report and event type, so that the state at the turn of
a bit is the one that the last call before it left. Soundness speaks of the state before each call,
completeness of the state at each turn, and both are inductions over the two loops in which nothing
is assumed of the callbacks.
-/

namespace Suc.Epl

variable {F ω : Type}

def EventType.rank (t : EventType) : Nat := kEventTypes.idxOf t

/-- The call comes before the turn of event type `t` of report `i`. -/
def Invocation.Precedes (inv : Invocation F ω) (i : Nat) (t : EventType) : Prop :=
  inv.report < i ∨ inv.report = i ∧ inv.event.rank < t.rank

instance (inv : Invocation F ω) (i : Nat) (t : EventType) : Decidable (inv.Precedes i t) :=
  inferInstanceAs (Decidable (_ ∨ _))

/-- The state at the turn of event type `t` of report `i`: all calls that come before have been
made, and no other. -/
def turn (i : Nat) (t : EventType) : World F ω → List (Invocation F ω) → World F ω
  | w, [] => w
  | w, inv :: rest => if inv.Precedes i t then turn i t inv.after rest else w

/-- The calls follow one another: each starts in the state that the one before it left. -/
def Chain (body : Behaviour F ω) : World F ω → List (Invocation F ω) → World F ω → Prop
  | w, [], final => w = final
  | w, inv :: rest, final =>
      inv.before = w ∧ inv.after = (body inv.callback inv.before).2 ∧ Chain body inv.after rest final

/-- What a batch dispatched from `w` does: order, soundness, completeness, and that a call which is
followed by another has left the queue running and, within a report, the descriptor registered. -/
structure ExactDispatch (body : Behaviour F ω) (batch : List Report) (w : World F ω)
    (calls : List (Invocation F ω)) (final : World F ω) : Prop where
  chain : Chain body w calls final
  ordered : calls.Pairwise fun a b => a.Precedes b.report b.event
  sound : ∀ inv ∈ calls, ∃ r, batch[inv.report]? = some r ∧ r.events &&& inv.event.bit ≠ 0#32 ∧
    inv.before.queue.stored r.fd inv.event = some inv.callback
  complete : ∀ i r t, batch[i]? = some r → r.events &&& t.bit ≠ 0#32 →
    ((turn i t w calls).queue.stored r.fd t).isSome →
    (∃ inv ∈ calls, inv.report = i ∧ inv.event = t) ∨
      ∃ inv ∈ calls, inv.Precedes i t ∧ inv.after.queue.running = false
  followed : calls.Pairwise fun a b => a.after.queue.running ∧
    ∀ r, a.report = b.report → batch[a.report]? = some r → (a.after.queue.fds r.fd).isSome

/-! ### Turns -/

theorem turn_cons_of_precedes {i : Nat} {t : EventType} {w : World F ω} {inv : Invocation F ω}
    {rest : List (Invocation F ω)} (h : inv.Precedes i t) :
    turn i t w (inv :: rest) = turn i t inv.after rest := by
  simp [turn, h]

theorem turn_of_no_precedes {i : Nat} {t : EventType} {w : World F ω}
    {calls : List (Invocation F ω)} (h : ∀ inv ∈ calls, ¬inv.Precedes i t) :
    turn i t w calls = w := by
  cases calls with
  | nil => rfl
  | cons inv rest => simp [turn, h inv (by simp)]

theorem turn_append_of_precedes {body : Behaviour F ω} {i : Nat} {t : EventType} {w m : World F ω}
    {calls rest : List (Invocation F ω)} (hchain : Chain body w calls m)
    (h : ∀ inv ∈ calls, inv.Precedes i t) : turn i t w (calls ++ rest) = turn i t m rest := by
  induction calls generalizing w with
  | nil =>
      obtain rfl : w = m := hchain
      rfl
  | cons inv calls ih =>
      rw [List.cons_append, turn_cons_of_precedes (h inv (by simp))]
      exact ih hchain.2.2 fun inv' hinv' => h inv' (by simp [hinv'])

theorem turn_append_of_no_precedes {i : Nat} {t : EventType} {w : World F ω}
    {calls rest : List (Invocation F ω)} (h : ∀ inv ∈ rest, ¬inv.Precedes i t) :
    turn i t w (calls ++ rest) = turn i t w calls := by
  induction calls generalizing w with
  | nil => exact turn_of_no_precedes h
  | cons inv calls ih =>
      by_cases hinv : inv.Precedes i t
      · rw [List.cons_append, turn_cons_of_precedes hinv, turn_cons_of_precedes hinv, ih]
      · simp [turn, hinv]

/-! ### Chains -/

theorem Chain.append {body : Behaviour F ω} {w m final : World F ω}
    {calls rest : List (Invocation F ω)} (h : Chain body w calls m)
    (hrest : Chain body m rest final) : Chain body w (calls ++ rest) final := by
  induction calls generalizing w with
  | nil =>
      obtain rfl : w = m := h
      exact hrest
  | cons inv calls ih => exact ⟨h.1, h.2.1, ih h.2.2⟩

theorem Chain.exists_not_running {body : Behaviour F ω} {w final : World F ω}
    {calls : List (Invocation F ω)} (h : Chain body w calls final) (hw : w.queue.running)
    (hfinal : final.queue.running = false) : ∃ inv ∈ calls, inv.after.queue.running = false := by
  induction calls generalizing w with
  | nil =>
      obtain rfl : w = final := h
      simp [hw] at hfinal
  | cons inv calls ih =>
      cases hafter : inv.after.queue.running with
      | false => exact ⟨inv, by simp, hafter⟩
      | true =>
          obtain ⟨inv', hmem, hstopped⟩ := ih h.2.2 hafter
          exact ⟨inv', by simp [hmem], hstopped⟩

theorem Chain.all_running {body : Behaviour F ω} {w final : World F ω}
    {calls : List (Invocation F ω)} (h : Chain body w calls final)
    (hfollowed : calls.Pairwise fun a _ => a.after.queue.running) (hfinal : final.queue.running) :
    ∀ inv ∈ calls, inv.after.queue.running := by
  induction calls generalizing w with
  | nil => simp
  | cons inv calls ih =>
      obtain ⟨hhead, htail⟩ := List.pairwise_cons.mp hfollowed
      have hrest := ih h.2.2 htail
      intro inv' hinv'
      rcases List.mem_cons.mp hinv' with rfl | hinv'
      · cases calls with
        | nil =>
            obtain rfl : inv'.after = final := h.2.2
            exact hfinal
        | cons next calls => exact hhead next List.mem_cons_self
      · exact hrest inv' hinv'

/-! ### One report -/

/-- What the loop over the event types does from `w` on, for the types it has still to visit. -/
structure ExactReport (body : Behaviour F ω) (i : Nat) (events : BitVec 32) (fd : Int)
    (types : List EventType) (w : World F ω) (calls : List (Invocation F ω))
    (final : World F ω) : Prop where
  chain : Chain body w calls final
  ordered : calls.Pairwise fun a b => a.event.rank < b.event.rank
  sound : ∀ inv ∈ calls, inv.report = i ∧ inv.event ∈ types ∧ events &&& inv.event.bit ≠ 0#32 ∧
    inv.before.queue.stored fd inv.event = some inv.callback
  complete : ∀ t ∈ types, events &&& t.bit ≠ 0#32 →
    ((turn i t w calls).queue.stored fd t).isSome →
    (∃ inv ∈ calls, inv.event = t) ∨
      ∃ inv ∈ calls, inv.event.rank < t.rank ∧ inv.after.queue.running = false
  followed : calls.Pairwise fun a _ => a.after.queue.running ∧ (a.after.queue.fds fd).isSome

namespace ExactReport

variable {body : Behaviour F ω} {i : Nat} {events : BitVec 32} {fd : Int} {t : EventType}
  {types : List EventType} {w final : World F ω} {calls : List (Invocation F ω)}

theorem nil : ExactReport body i events fd [] w [] w where
  chain := rfl
  ordered := List.Pairwise.nil
  sound := by simp
  complete := by simp
  followed := List.Pairwise.nil

theorem skip (h : ExactReport body i events fd types w calls final)
    (hsorted : ∀ u ∈ types, t.rank < u.rank)
    (hskip : events &&& t.bit ≠ 0#32 → w.queue.stored fd t = none) :
    ExactReport body i events fd (t :: types) w calls final where
  chain := h.chain
  ordered := h.ordered
  sound inv hinv := by
    obtain ⟨hreport, hevent, hstored⟩ := h.sound inv hinv
    exact ⟨hreport, List.mem_cons_of_mem t hevent, hstored⟩
  complete u hu hbit hsome := by
    rcases List.mem_cons.mp hu with rfl | hu
    · -- every call is for a later type, so the turn is in the state the loop is in
      have hturn : turn i u w calls = w := by
        apply turn_of_no_precedes
        intro inv hinv hprecedes
        obtain ⟨hreport, hevent, -⟩ := h.sound inv hinv
        have hlater := hsorted inv.event hevent
        unfold Invocation.Precedes at hprecedes
        omega
      rw [hturn, hskip hbit] at hsome
      simp at hsome
    · exact h.complete u hu hbit hsome
  followed := h.followed

theorem call {func : F} (hbit : events &&& t.bit ≠ 0#32)
    (hstored : w.queue.stored fd t = some func)
    (hsorted : ∀ u ∈ types, t.rank < u.rank)
    (hrunning : (body func w).2.queue.running)
    (hpresent : ((body func w).2.queue.fds fd).isSome)
    (h : ExactReport body i events fd types (body func w).2 calls final) :
    ExactReport body i events fd (t :: types) w
      (⟨i, t, func, w, (body func w).2⟩ :: calls) final where
  chain := ⟨rfl, rfl, h.chain⟩
  ordered := List.pairwise_cons.mpr
    ⟨fun inv hinv => hsorted inv.event (h.sound inv hinv).2.1, h.ordered⟩
  sound inv hinv := by
    rcases List.mem_cons.mp hinv with rfl | hinv
    · exact ⟨rfl, by simp, hbit, hstored⟩
    · obtain ⟨hreport, hevent, hrest⟩ := h.sound inv hinv
      exact ⟨hreport, List.mem_cons_of_mem t hevent, hrest⟩
  complete u hu hubit hsome := by
    rcases List.mem_cons.mp hu with rfl | hu
    · exact Or.inl ⟨_, List.mem_cons_self, rfl⟩
    · have hprecedes : (⟨i, t, func, w, (body func w).2⟩ : Invocation F ω).Precedes i u :=
        Or.inr ⟨rfl, hsorted u hu⟩
      rw [turn_cons_of_precedes hprecedes] at hsome
      rcases h.complete u hu hubit hsome with ⟨inv, hinv, hevent⟩ | ⟨inv, hinv, hstopped⟩
      · exact Or.inl ⟨inv, List.mem_cons_of_mem _ hinv, hevent⟩
      · exact Or.inr ⟨inv, List.mem_cons_of_mem _ hinv, hstopped⟩
  followed := List.pairwise_cons.mpr ⟨fun _ _ => ⟨hrunning, hpresent⟩, h.followed⟩

theorem last {func : F} (hbit : events &&& t.bit ≠ 0#32)
    (hstored : w.queue.stored fd t = some func)
    (hsorted : ∀ u ∈ types, t.rank < u.rank)
    (hends : (body func w).2.queue.running = false ∨ (body func w).2.queue.fds fd = none) :
    ExactReport body i events fd (t :: types) w [⟨i, t, func, w, (body func w).2⟩]
      (body func w).2 where
  chain := ⟨rfl, rfl, rfl⟩
  ordered := List.pairwise_singleton _ _
  sound inv hinv := by
    obtain rfl := List.mem_singleton.mp hinv
    exact ⟨rfl, by simp, hbit, hstored⟩
  complete u hu hubit hsome := by
    rcases List.mem_cons.mp hu with rfl | hu
    · exact Or.inl ⟨_, List.mem_cons_self, rfl⟩
    · rcases hends with hstopped | hgone
      · exact Or.inr ⟨_, List.mem_cons_self, hsorted u hu, hstopped⟩
      · have hprecedes : (⟨i, t, func, w, (body func w).2⟩ : Invocation F ω).Precedes i u :=
          Or.inr ⟨rfl, hsorted u hu⟩
        rw [turn_cons_of_precedes hprecedes] at hsome
        simp [turn, EventQueue.stored, hgone] at hsome
  followed := List.pairwise_singleton _ _

theorem precedes (h : ExactReport body i events fd types w calls final) :
    calls.Pairwise fun a b => a.Precedes b.report b.event := by
  refine h.ordered.imp_of_mem ?_
  intro a b ha hb hrank
  exact Or.inr ⟨(h.sound a ha).1.trans (h.sound b hb).1.symm, hrank⟩

theorem followed_cons {r : Report} (h : ExactReport body i r.events r.fd types w calls final)
    (reports : List Report) :
    calls.Pairwise fun a b => a.after.queue.running ∧
      ∀ j r', a.report = i + j → b.report = i + j → (r :: reports)[j]? = some r' →
        (a.after.queue.fds r'.fd).isSome := by
  refine h.followed.imp_of_mem ?_
  intro a b ha _ hleft
  refine ⟨hleft.1, ?_⟩
  intro j r' hj _ hr'
  obtain rfl : j = 0 := by
    have hreport := (h.sound a ha).1
    omega
  obtain rfl : r = r' := by simpa using hr'
  exact hleft.2

end ExactReport

theorem handleEventTypes_exact (body : Behaviour F ω) (i : Nat) (events : BitVec 32) (fd : Int)
    {types : List EventType} (hsorted : types.Pairwise fun t u => t.rank < u.rank)
    {callbacks : Callbacks F} {w : World F ω} (hfd : w.queue.fds fd = some callbacks) :
    ExactReport body i events fd types w
      (handleEventTypes body i events fd types callbacks w).1
      (handleEventTypes body i events fd types callbacks w).2 := by
  induction types generalizing callbacks w with
  | nil => exact ExactReport.nil
  | cons t types ih =>
      obtain ⟨hhead, htail⟩ := List.pairwise_cons.mp hsorted
      have hlookup : w.queue.stored fd t = callbacks.callback t := by
        simp [EventQueue.stored, hfd]
      unfold handleEventTypes
      by_cases hbit : events &&& t.bit = 0#32
      · rw [if_pos hbit]
        exact (ih htail hfd).skip hhead fun hset => absurd hbit hset
      · rw [if_neg hbit]
        cases hcallback : callbacks.callback t with
        | none => exact (ih htail hfd).skip hhead fun _ => hlookup.trans hcallback
        | some func =>
            have hstored := hlookup.trans hcallback
            cases hrunning : (body func w).2.queue.running with
            | false =>
                simp only [hrunning, Bool.false_eq_true, ↓reduceIte]
                exact ExactReport.last hbit hstored hhead (Or.inl hrunning)
            | true =>
                simp only [hrunning, ↓reduceIte]
                cases hnext : (body func w).2.queue.fds fd with
                | none => exact ExactReport.last hbit hstored hhead (Or.inr hnext)
                | some callbacks' =>
                    exact ExactReport.call hbit hstored hhead hrunning (by simp [hnext])
                      (ih htail hnext)

theorem kEventTypes_sorted : kEventTypes.Pairwise fun t u => t.rank < u.rank := by
  decide

theorem handleEpollFilledEvent_exact (body : Behaviour F ω) (i : Nat) (r : Report)
    (w : World F ω) :
    ExactReport body i r.events r.fd kEventTypes w
      (handleEpollFilledEvent body i r.events r.fd w).1
      (handleEpollFilledEvent body i r.events r.fd w).2 := by
  unfold handleEpollFilledEvent
  cases hfd : w.queue.fds r.fd with
  | some callbacks => exact handleEventTypes_exact body i r.events r.fd kEventTypes_sorted hfd
  | none =>
      refine ⟨rfl, List.Pairwise.nil, by simp, ?_, List.Pairwise.nil⟩
      intro t _ _ hsome
      simp [turn, EventQueue.stored, hfd] at hsome

/-! ### The batch -/

/-- `ExactDispatch` for the reports from index `i` on. -/
structure ExactFrom (body : Behaviour F ω) (i : Nat) (reports : List Report) (w : World F ω)
    (calls : List (Invocation F ω)) (final : World F ω) : Prop where
  chain : Chain body w calls final
  ordered : calls.Pairwise fun a b => a.Precedes b.report b.event
  sound : ∀ inv ∈ calls, ∃ j r, inv.report = i + j ∧ reports[j]? = some r ∧
    r.events &&& inv.event.bit ≠ 0#32 ∧
    inv.before.queue.stored r.fd inv.event = some inv.callback
  complete : ∀ j r t, reports[j]? = some r → r.events &&& t.bit ≠ 0#32 →
    ((turn (i + j) t w calls).queue.stored r.fd t).isSome →
    (∃ inv ∈ calls, inv.report = i + j ∧ inv.event = t) ∨
      ∃ inv ∈ calls, inv.Precedes (i + j) t ∧ inv.after.queue.running = false
  followed : calls.Pairwise fun a b => a.after.queue.running ∧
    ∀ j r, a.report = i + j → b.report = i + j → reports[j]? = some r →
      (a.after.queue.fds r.fd).isSome

theorem ExactFrom.nil (body : Behaviour F ω) (i : Nat) (w : World F ω) :
    ExactFrom body i [] w [] w where
  chain := rfl
  ordered := List.Pairwise.nil
  sound := by simp
  complete := by simp
  followed := List.Pairwise.nil

theorem ExactFrom.stop {body : Behaviour F ω} {i : Nat} {r : Report} {w m : World F ω}
    {calls : List (Invocation F ω)} (reports : List Report) (hw : w.queue.running)
    (hm : m.queue.running = false)
    (hfirst : ExactReport body i r.events r.fd kEventTypes w calls m) :
    ExactFrom body i (r :: reports) w calls m where
  chain := hfirst.chain
  ordered := hfirst.precedes
  sound inv hinv := by
    obtain ⟨hreport, -, hrest⟩ := hfirst.sound inv hinv
    exact ⟨0, r, hreport, rfl, hrest⟩
  complete j r' t hr' hbit hsome := by
    cases j with
    | zero =>
        obtain rfl : r = r' := by simpa using hr'
        rcases hfirst.complete t (mem_kEventTypes t) hbit hsome with
          ⟨inv, hinv, hevent⟩ | ⟨inv, hinv, hrank, hstopped⟩
        · exact Or.inl ⟨inv, hinv, (hfirst.sound inv hinv).1, hevent⟩
        · exact Or.inr ⟨inv, hinv, Or.inr ⟨(hfirst.sound inv hinv).1, hrank⟩, hstopped⟩
    | succ j =>
        obtain ⟨inv, hinv, hstopped⟩ := hfirst.chain.exists_not_running hw hm
        have hreport := (hfirst.sound inv hinv).1
        exact Or.inr ⟨inv, hinv, Or.inl (by omega), hstopped⟩
  followed := hfirst.followed_cons reports

theorem ExactFrom.cons {body : Behaviour F ω} {i : Nat} {r : Report} {reports : List Report}
    {w m final : World F ω} {calls rest : List (Invocation F ω)} (hm : m.queue.running)
    (hfirst : ExactReport body i r.events r.fd kEventTypes w calls m)
    (hrest : ExactFrom body (i + 1) reports m rest final) :
    ExactFrom body i (r :: reports) w (calls ++ rest) final := by
  have hearly : ∀ inv ∈ calls, inv.report = i := fun inv hinv => (hfirst.sound inv hinv).1
  have hlate : ∀ inv ∈ rest, i < inv.report := by
    intro inv hinv
    obtain ⟨j, r', hreport, -⟩ := hrest.sound inv hinv
    omega
  have hall : ∀ inv ∈ calls, inv.after.queue.running :=
    hfirst.chain.all_running (hfirst.followed.imp fun h => h.1) hm
  refine ⟨hfirst.chain.append hrest.chain, ?_, ?_, ?_, ?_⟩
  · refine List.pairwise_append.mpr ⟨hfirst.precedes, hrest.ordered, ?_⟩
    intro a ha b hb
    have hareport := hearly a ha
    have hbreport := hlate b hb
    exact Or.inl (by omega)
  · intro inv hinv
    rcases List.mem_append.mp hinv with hinv | hinv
    · obtain ⟨hreport, -, hsound⟩ := hfirst.sound inv hinv
      exact ⟨0, r, hreport, rfl, hsound⟩
    · obtain ⟨j, r', hreport, hr', hsound⟩ := hrest.sound inv hinv
      exact ⟨j + 1, r', by omega, hr', hsound⟩
  · intro j r' t hr' hbit hsome
    cases j with
    | zero =>
        obtain rfl : r = r' := by simpa using hr'
        rw [turn_append_of_no_precedes] at hsome
        · rcases hfirst.complete t (mem_kEventTypes t) hbit hsome with
            ⟨inv, hinv, hevent⟩ | ⟨inv, hinv, hrank, hstopped⟩
          · exact Or.inl ⟨inv, List.mem_append_left _ hinv, hearly inv hinv, hevent⟩
          · exact absurd (hall inv hinv) (by simp [hstopped])
        · intro inv hinv hprecedes
          have := hlate inv hinv
          unfold Invocation.Precedes at hprecedes
          omega
    | succ j =>
        have hindex : i + 1 + j = i + (j + 1) := by omega
        rw [turn_append_of_precedes hfirst.chain] at hsome
        · rw [← hindex] at hsome ⊢
          rcases hrest.complete j r' t hr' hbit hsome with ⟨inv, hinv, hcall⟩ | ⟨inv, hinv, hcall⟩
          · exact Or.inl ⟨inv, List.mem_append_right _ hinv, hcall⟩
          · exact Or.inr ⟨inv, List.mem_append_right _ hinv, hcall⟩
        · intro inv hinv
          exact Or.inl (by have := hearly inv hinv; omega)
  · refine List.pairwise_append.mpr ⟨hfirst.followed_cons reports, ?_, ?_⟩
    · refine hrest.followed.imp_of_mem ?_
      intro a b ha _ hleft
      refine ⟨hleft.1, ?_⟩
      intro j r' hja hjb hr'
      have hlater := hlate a ha
      cases j with
      | zero => omega
      | succ j => exact hleft.2 j r' (by omega) (by omega) hr'
    · intro a ha b hb
      refine ⟨hall a ha, ?_⟩
      intro j r' hja hjb _
      have hareport := hearly a ha
      have hbreport := hlate b hb
      omega

theorem dispatchFrom_exact (body : Behaviour F ω) (reports : List Report) (i : Nat)
    (w : World F ω) (hw : w.queue.running) :
    ExactFrom body i reports w (dispatchFrom body i reports w).1
      (dispatchFrom body i reports w).2 := by
  induction reports generalizing i w with
  | nil => exact ExactFrom.nil body i w
  | cons r reports ih =>
      unfold dispatchFrom
      simp only [hw, ↓reduceIte]
      have hfirst := handleEpollFilledEvent_exact body i r w
      cases hm : (handleEpollFilledEvent body i r.events r.fd w).2.queue.running with
      | true => exact ExactFrom.cons hm hfirst (ih (i + 1) _ hm)
      | false =>
          have hrest : dispatchFrom body (i + 1) reports
              (handleEpollFilledEvent body i r.events r.fd w).2 =
              ([], (handleEpollFilledEvent body i r.events r.fd w).2) := by
            cases reports <;> simp [dispatchFrom, hm]
          simp only [hrest, List.append_nil]
          exact ExactFrom.stop reports hw hm hfirst

/-- **Dispatch is exact.** From a running queue, and whatever the callbacks do: the calls of a batch
follow its order and within a report the order of the event types, each type at most once; each call
is of the callback stored for its descriptor and type, at that moment, for a bit that is set; and a
set bit whose callback is stored at its turn is called, unless an earlier call of the batch left the
queue not running. -/
theorem dispatch_exact (body : Behaviour F ω) (batch : List Report) (w : World F ω)
    (hw : w.queue.running) :
    ExactDispatch body batch w (dispatch body batch w).1 (dispatch body batch w).2 := by
  have h := dispatchFrom_exact body batch 0 w hw
  refine ⟨h.chain, h.ordered, ?_, ?_, ?_⟩
  · intro inv hinv
    obtain ⟨j, r, hreport, hr, hsound⟩ := h.sound inv hinv
    exact ⟨r, by rw [hreport, Nat.zero_add]; exact hr, hsound⟩
  · intro i r t hr hbit hsome
    rw [← Nat.zero_add i] at hsome ⊢
    exact h.complete i r t hr hbit hsome
  · refine h.followed.imp ?_
    intro a b hleft
    refine ⟨hleft.1, ?_⟩
    intro r hsame hr
    exact hleft.2 a.report r (by omega) (by omega) hr

theorem dispatch_exact_del :
    let queue : EventQueue Nat := { EventQueue.created ⟨3⟩ ⟨4⟩ 0 with
      fds := fun fd => if fd = 5 then some { inputAvailable := some 1, outputPossible := some 2 }
        else none
      state := .running }
    let body : Behaviour Nat Unit := fun _ w => (none, ⟨(w.queue.del 5 none).2, w.user⟩)
    let batch : List Report := [⟨epollIn ||| epollOut, 5⟩]
    ExactDispatch body batch ⟨queue, ()⟩ (dispatch body batch ⟨queue, ()⟩).1
      (dispatch body batch ⟨queue, ()⟩).2 :=
  dispatch_exact _ _ _ rfl

end Suc.Epl
