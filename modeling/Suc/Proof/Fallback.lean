import Suc.Net.Fallback

/-!
# Fallback neither leaks nor skips

Every way out of the body of the loop closes the socket it has opened unless it returns it. So the
loop returns the first socket it can get, with the table of the open descriptors as it was but for
that socket.
-/

namespace Suc.Net.Fallback

open Transition

/-- The candidates of an answer of the resolver, which are none if it fails. -/
def resolved (answer : Except String (List Candidate)) : List Candidate :=
  match answer with
  | .error _ => []
  | .ok servinfo => servinfo

/-- The kernel gives a new socket a number that is not negative and not taken. -/
def Fresh (table : Handles Int) (candidates : List Candidate) : Prop :=
  ∀ c ∈ candidates, ∀ sockfd, c.answers.socket = .ok sockfd →
    0 ≤ sockfd ∧ table.serial sockfd = none

/-! ### What is asked for -/

/-- What has to succeed on the socket of a candidate. -/
inductive Step where
  | bind (p : Addrinfo)
  | connect (p : Addrinfo)
  | setsockopt (opt : SockOpt)
  | setNonblock
  deriving DecidableEq, Repr

def boundSteps (reuseAddr : Bool) (p : Addrinfo) : List Step :=
  .bind p :: if reuseAddr then [.setsockopt .reuseAddr] else []

def connectedSteps (nonBlocking : Bool) (p : Addrinfo) : List Step :=
  .connect p :: if nonBlocking then [.setNonblock] else []

/-- The calls by which a step is taken on a socket, and how it has failed if it has. The flag is set
beside those that have been read. -/
inductive Takes (sockfd : Int) : Step → List SysCall → Option Errno → Prop where
  | bind (p : Addrinfo) (failure : Option Errno) :
      Takes sockfd (.bind p) [.bind sockfd p failure] failure
  | connect (p : Addrinfo) (failure : Option Errno) :
      Takes sockfd (.connect p) [.connect sockfd p failure] failure
  | setsockopt (opt : SockOpt) (failure : Option Errno) :
      Takes sockfd (.setsockopt opt) [.setsockopt sockfd opt failure] failure
  | setNonblock (flags : BitVec 32) (failure : Option Errno) :
      Takes sockfd .setNonblock
        [.getfl sockfd flags, .setfl sockfd (flags ||| oNonblock) failure] failure

/-- All steps have been taken, in their order, and have succeeded. -/
inductive Passes (sockfd : Int) : List Step → List SysCall → Prop where
  | nil : Passes sockfd [] []
  | cons {step : Step} {steps : List Step} {calls later : List SysCall}
      (hstep : Takes sockfd step calls none) (hlater : Passes sockfd steps later) :
      Passes sockfd (step :: steps) (calls ++ later)

/-- The steps have been taken, in their order, up to one that has failed. -/
inductive Stumbles (sockfd : Int) : List Step → List SysCall → Prop where
  | here {step : Step} {steps : List Step} {calls : List SysCall} {errnum : Errno}
      (hstep : Takes sockfd step calls (some errnum)) : Stumbles sockfd (step :: steps) calls
  | later {step : Step} {steps : List Step} {calls later : List SysCall}
      (hstep : Takes sockfd step calls none) (hlater : Stumbles sockfd steps later) :
      Stumbles sockfd (step :: steps) (calls ++ later)

/-- A call has been answered as the candidate says. -/
def SysCall.AnsweredBy (a : Answers) : SysCall → Prop
  | .socket _ _ _ result => result = a.socket
  | .bind _ _ failure => failure = a.bind
  | .connect _ _ failure => failure = a.connect
  | .setsockopt _ _ failure => failure = a.setsockopt
  | .getfl _ flags => flags = a.getfl
  | .setfl _ _ failure => failure = a.setfl
  | .close _ => True

/-- A candidate that has been tried, with the calls that were made for it. -/
structure Trial where
  candidate : Candidate
  calls : List SysCall

namespace Trial

variable (steps : Addrinfo → List Step) (flags : Nat)

def opening (p : Addrinfo) (result : Except Errno Int) : SysCall :=
  .socket p.family (p.socktype ||| flags) p.protocol result

/-- A socket was opened, and every step has succeeded on it. -/
def Succeeds (sockfd : Int) (t : Trial) : Prop :=
  ∃ calls, t.calls = opening flags t.candidate.info (.ok sockfd) :: calls ∧
    Passes sockfd (steps t.candidate.info) calls

/-- No socket was opened, or one that was closed when a step had failed on it. -/
def Fails (t : Trial) : Prop :=
  (∃ errnum, t.calls = [opening flags t.candidate.info (.error errnum)]) ∨
    ∃ sockfd calls,
      t.calls = opening flags t.candidate.info (.ok sockfd) :: (calls ++ [.close sockfd]) ∧
        Stumbles sockfd (steps t.candidate.info) calls

end Trial

/-- All calls are made for candidates, from the first one on and in their order. Those before the last
one have failed; on the socket that is returned every step has succeeded, and if none is then all
candidates have failed. Every socket that was opened is closed once, but for the one returned. -/
structure FallsBack (steps : Addrinfo → List Step) (flags : Nat) (candidates : List Candidate)
    (trials : List Trial) (table : Handles Int) (r : Int × List SysCall) : Prop where
  calls : r.2 = trials.flatMap Trial.calls
  order : trials.map Trial.candidate <+: candidates
  answered : ∀ t ∈ trials, ∀ call ∈ t.calls, call.AnsweredBy t.candidate.answers
  result : (r.1 ≠ -1 ∧ ∃ failed t, trials = failed ++ [t] ∧
      (∀ t' ∈ failed, t'.Fails steps flags) ∧ t.Succeeds steps flags r.1) ∨
    (r.1 = -1 ∧ trials.map Trial.candidate = candidates ∧ ∀ t ∈ trials, t.Fails steps flags)
  descriptors : ∃ after, (handles Int).run table (r.2.filterMap SysCall.handle) = some after ∧
    (∀ d, table.next ≤ d → d < after.next →
      ((handles Int).shown Handles.releases table (r.2.filterMap SysCall.handle)).count d =
        if after.serial r.1 = some d then 0 else 1) ∧
    (r.1 ≠ -1 → ∃ d, table.next ≤ d ∧ after.serial r.1 = some d) ∧
    ∀ n, n ≠ r.1 → after.serial n = table.serial n

/-! ### One candidate -/

/-- What the loop needs of its body. -/
def Body (steps : Addrinfo → List Step) (flags : Nat)
    (body : Candidate → Option Int × List SysCall) : Prop :=
  ∀ c, (∀ call ∈ (body c).2, call.AnsweredBy c.answers) ∧
    match (body c).1 with
    | some sockfd => Trial.Succeeds steps flags sockfd ⟨c, (body c).2⟩
    | none => Trial.Fails steps flags ⟨c, (body c).2⟩

theorem body_tryBind (nonBlocking reuseAddr : Bool) :
    Body (boundSteps reuseAddr) (socketFlags nonBlocking) (tryBind nonBlocking reuseAddr) := by
  rintro ⟨p, socket, bind, connect, setsockopt, getfl, setfl⟩
  constructor
  · cases socket <;> cases bind <;> cases reuseAddr <;> cases setsockopt <;>
      simp [tryBind, SysCall.AnsweredBy]
  · cases socket with
    | error errnum => exact Or.inl ⟨errnum, rfl⟩
    | ok sockfd =>
        cases bind with
        | some errnum => exact Or.inr ⟨sockfd, _, rfl, .here (.bind p (some errnum))⟩
        | none =>
            cases reuseAddr with
            | false => exact ⟨_, rfl, .cons (.bind p none) .nil⟩
            | true =>
                cases setsockopt with
                | some errnum =>
                    exact Or.inr ⟨sockfd, _, rfl,
                      .later (.bind p none) (.here (.setsockopt .reuseAddr (some errnum)))⟩
                | none =>
                    exact ⟨_, rfl,
                      .cons (.bind p none) (.cons (.setsockopt .reuseAddr none) .nil)⟩

theorem body_tryConnect (nonBlocking : Bool) :
    Body (connectedSteps nonBlocking) (socketFlags false) (tryConnect nonBlocking) := by
  rintro ⟨p, socket, bind, connect, setsockopt, getfl, setfl⟩
  constructor
  · cases socket <;> cases connect <;> cases nonBlocking <;> cases setfl <;>
      simp [tryConnect, SysCall.AnsweredBy]
  · cases socket with
    | error errnum => exact Or.inl ⟨errnum, rfl⟩
    | ok sockfd =>
        cases connect with
        | some errnum => exact Or.inr ⟨sockfd, _, rfl, .here (.connect p (some errnum))⟩
        | none =>
            cases nonBlocking with
            | false => exact ⟨_, rfl, .cons (.connect p none) .nil⟩
            | true =>
                cases setfl with
                | some errnum =>
                    exact Or.inr ⟨sockfd, _, rfl,
                      .later (.connect p none) (.here (.setNonblock getfl (some errnum)))⟩
                | none =>
                    exact ⟨_, rfl,
                      .cons (.connect p none) (.cons (.setNonblock getfl none) .nil)⟩

/-! ### The descriptors of a candidate -/

theorem Trial.handle_opening (flags : Nat) (p : Addrinfo) (sockfd : Int) :
    (opening flags p (.ok sockfd)).handle = some (.acquire sockfd) := rfl

theorem Takes.handles {sockfd : Int} {step : Step} {calls : List SysCall} {failure : Option Errno}
    (h : Takes sockfd step calls failure) : calls.filterMap SysCall.handle = [] := by
  cases h <;> rfl

theorem Passes.handles {sockfd : Int} {steps : List Step} {calls : List SysCall}
    (h : Passes sockfd steps calls) : calls.filterMap SysCall.handle = [] := by
  induction h with
  | nil => rfl
  | cons hstep hlater ih => rw [List.filterMap_append, hstep.handles, ih, List.nil_append]

theorem Stumbles.handles {sockfd : Int} {steps : List Step} {calls : List SysCall}
    (h : Stumbles sockfd steps calls) : calls.filterMap SysCall.handle = [] := by
  induction h with
  | here hstep => exact hstep.handles
  | later hstep hlater ih => rw [List.filterMap_append, hstep.handles, ih, List.nil_append]

section Loop

variable {steps : Addrinfo → List Step} {flags : Nat}
  {body : Candidate → Option Int × List SysCall}

theorem Body.of_some (h : Body steps flags body) {c : Candidate} {sockfd : Int}
    (hsome : (body c).1 = some sockfd) :
    Trial.Succeeds steps flags sockfd ⟨c, (body c).2⟩ ∧ c.answers.socket = .ok sockfd ∧
      (body c).2.filterMap SysCall.handle = [.acquire sockfd] := by
  obtain ⟨hanswered, hsucceeds⟩ := h c
  rw [hsome] at hsucceeds
  refine ⟨hsucceeds, ?_⟩
  obtain ⟨calls, hcalls, hpasses⟩ := hsucceeds
  change (body c).2 = _ at hcalls
  rw [hcalls] at hanswered ⊢
  refine ⟨(hanswered _ List.mem_cons_self).symm, ?_⟩
  rw [List.filterMap_cons_some (Trial.handle_opening ..), hpasses.handles]

theorem Body.of_none (h : Body steps flags body) {c : Candidate} (hnone : (body c).1 = none) :
    Trial.Fails steps flags ⟨c, (body c).2⟩ ∧ ((body c).2.filterMap SysCall.handle = [] ∨
      ∃ sockfd, c.answers.socket = .ok sockfd ∧
        (body c).2.filterMap SysCall.handle = [.acquire sockfd, .release sockfd]) := by
  obtain ⟨hanswered, hfails⟩ := h c
  rw [hnone] at hfails
  refine ⟨hfails, ?_⟩
  rcases hfails with ⟨errnum, hcalls⟩ | ⟨sockfd, calls, hcalls, hstumbles⟩
  · change (body c).2 = _ at hcalls
    rw [hcalls]
    exact Or.inl rfl
  · change (body c).2 = _ at hcalls
    rw [hcalls] at hanswered ⊢
    refine Or.inr ⟨sockfd, (hanswered _ List.mem_cons_self).symm, ?_⟩
    rw [List.filterMap_cons_some (Trial.handle_opening ..), List.filterMap_append,
      hstumbles.handles]
    rfl

/-! ### The loop -/

theorem firstSocket_cons_of_some {c : Candidate} {sockfd : Int} (candidates : List Candidate)
    (hsome : (body c).1 = some sockfd) :
    firstSocket body (c :: candidates) = (sockfd, (body c).2) := by
  rw [firstSocket]
  split
  · next sockfd' calls heq =>
      obtain rfl : sockfd' = sockfd := by simpa [heq] using hsome
      rw [heq]
  · next calls heq => simp [heq] at hsome

theorem firstSocket_cons_of_none {c : Candidate} (candidates : List Candidate)
    (hnone : (body c).1 = none) :
    firstSocket body (c :: candidates) =
      ((firstSocket body candidates).1, (body c).2 ++ (firstSocket body candidates).2) := by
  rw [firstSocket]
  split
  · next sockfd calls heq => simp [heq] at hnone
  · next calls heq => rw [heq]

/-- The candidates that the loop tries. -/
def tried (body : Candidate → Option Int × List SysCall) : List Candidate → List Trial
  | [] => []
  | c :: candidates =>
      match (body c).1 with
      | some _ => [⟨c, (body c).2⟩]
      | none => ⟨c, (body c).2⟩ :: tried body candidates

theorem calls_tried (candidates : List Candidate) :
    (firstSocket body candidates).2 = (tried body candidates).flatMap Trial.calls := by
  induction candidates with
  | nil => rfl
  | cons c candidates ih =>
      cases hbody : (body c).1 with
      | some sockfd => simp [firstSocket_cons_of_some candidates hbody, tried, hbody]
      | none => simp [firstSocket_cons_of_none candidates hbody, tried, hbody, ih]

theorem order_tried (candidates : List Candidate) :
    (tried body candidates).map Trial.candidate <+: candidates := by
  induction candidates with
  | nil => exact List.prefix_rfl
  | cons c candidates ih =>
      cases hbody : (body c).1 with
      | some sockfd => simp [tried, hbody]
      | none => simpa [tried, hbody] using ih

theorem answered_tried (h : Body steps flags body) (candidates : List Candidate) :
    ∀ t ∈ tried body candidates, ∀ call ∈ t.calls, call.AnsweredBy t.candidate.answers := by
  induction candidates with
  | nil => exact List.forall_mem_nil _
  | cons c candidates ih =>
      cases hbody : (body c).1 with
      | some sockfd => simpa [tried, hbody] using (h c).1
      | none =>
          simp only [tried, hbody, List.forall_mem_cons]
          exact ⟨(h c).1, ih⟩

/-- How the loop ends, and what it has tried by then. -/
theorem firstSocket_cases (h : Body steps flags body) (candidates : List Candidate) :
    (∃ failed t, tried body candidates = failed ++ [t] ∧
        (∀ t' ∈ failed, t'.Fails steps flags) ∧
        t.Succeeds steps flags (firstSocket body candidates).1 ∧
        t.candidate ∈ candidates ∧
        t.candidate.answers.socket = .ok (firstSocket body candidates).1) ∨
      ((firstSocket body candidates).1 = -1 ∧
        (tried body candidates).map Trial.candidate = candidates ∧
        ∀ t ∈ tried body candidates, t.Fails steps flags) := by
  induction candidates with
  | nil => exact Or.inr ⟨rfl, rfl, List.forall_mem_nil _⟩
  | cons c candidates ih =>
      cases hbody : (body c).1 with
      | some sockfd =>
          obtain ⟨hsucceeds, hsocket, -⟩ := h.of_some hbody
          rw [firstSocket_cons_of_some candidates hbody]
          refine Or.inl ⟨[], ⟨c, (body c).2⟩, ?_, List.forall_mem_nil _, hsucceeds,
            List.mem_cons_self, hsocket⟩
          simp [tried, hbody]
      | none =>
          have hfails := (h.of_none hbody).1
          rw [firstSocket_cons_of_none candidates hbody]
          simp only [tried, hbody]
          rcases ih with ⟨failed, t, htried, hfailed, hsucceeds, hmem, hsocket⟩ |
            ⟨hnone, htried, hfailed⟩
          · refine Or.inl ⟨⟨c, (body c).2⟩ :: failed, t, ?_, ?_, hsucceeds,
              List.mem_cons_of_mem c hmem, hsocket⟩
            · rw [htried, List.cons_append]
            · exact List.forall_mem_cons.mpr ⟨hfails, hfailed⟩
          · refine Or.inr ⟨hnone, ?_, List.forall_mem_cons.mpr ⟨hfails, hfailed⟩⟩
            rw [List.map_cons, htried]

/-- The table after the loop: the one before it, but for the socket that is returned. -/
theorem firstSocket_run (h : Body steps flags body) {candidates : List Candidate}
    {table : Handles Int} (hfresh : Fresh table candidates) :
    ∃ after, (handles Int).run table
        ((firstSocket body candidates).2.filterMap SysCall.handle) = some after ∧
      ((∃ d, table.next ≤ d ∧
          after.serial = Function.update table.serial (firstSocket body candidates).1 (some d)) ∨
        (firstSocket body candidates).1 = -1 ∧ after.serial = table.serial) := by
  induction candidates generalizing table with
  | nil => exact ⟨table, rfl, Or.inr ⟨rfl, rfl⟩⟩
  | cons c candidates ih =>
      have hrest : Fresh table candidates := fun c' hc' => hfresh c' (List.mem_cons_of_mem c hc')
      cases hbody : (body c).1 with
      | some sockfd =>
          obtain ⟨-, hsocket, hhandles⟩ := h.of_some hbody
          obtain ⟨-, hfree⟩ := hfresh c List.mem_cons_self sockfd hsocket
          rw [firstSocket_cons_of_some candidates hbody, hhandles]
          refine ⟨table.acquired sockfd, ?_, Or.inl ⟨table.next, Nat.le_refl _, rfl⟩⟩
          rw [System.run_cons, Handles.step_acquire hfree]
          rfl
      | none =>
          obtain ⟨-, hcalls⟩ := h.of_none hbody
          rw [firstSocket_cons_of_none candidates hbody, List.filterMap_append]
          rcases hcalls with hcalls | ⟨sockfd, hsocket, hcalls⟩
          · rw [hcalls]
            exact ih hrest
          · obtain ⟨-, hfree⟩ := hfresh c List.mem_cons_self sockfd hsocket
            have hopened : (table.acquired sockfd).serial sockfd = some table.next :=
              Function.update_self ..
            -- the number is free again, and the serial number used up
            have hserial : ((table.acquired sockfd).released sockfd).serial = table.serial := by
              simp only [Handles.released, Handles.acquired, Function.update_idem]
              rw [← hfree, Function.update_eq_self]
            have hfresh' : Fresh ((table.acquired sockfd).released sockfd) candidates := by
              intro c' hc' sockfd' hsocket'
              rw [hserial]
              exact hrest c' hc' sockfd' hsocket'
            obtain ⟨after, hrun, hafter⟩ := ih hfresh'
            refine ⟨after, ?_, ?_⟩
            · rw [hcalls, List.cons_append, List.cons_append, List.nil_append, System.run_cons,
                Handles.step_acquire hfree, Option.bind_some, System.run_cons,
                Handles.step_release hopened, Option.bind_some]
              exact hrun
            · rw [hserial] at hafter
              refine hafter.imp_left ?_
              rintro ⟨d, hd, hupdate⟩
              exact ⟨d, Nat.le_of_succ_le hd, hupdate⟩

theorem fallsBack_firstSocket (h : Body steps flags body) {candidates : List Candidate}
    {table : Handles Int} (hfresh : Fresh table candidates) :
    FallsBack steps flags candidates (tried body candidates) table
      (firstSocket body candidates) := by
  obtain ⟨after, hrun, hafter⟩ := firstSocket_run h hfresh
  -- what is open and was not open before is the socket that is returned
  have hnew : ∀ n d, table.next ≤ d → after.serial n = some d →
      n = (firstSocket body candidates).1 := by
    intro n d hd hn
    by_contra hne
    have hold : after.serial n = table.serial n := by
      rcases hafter with ⟨d', -, hserial⟩ | ⟨-, hserial⟩
      · rw [hserial, Function.update_of_ne hne]
      · rw [hserial]
    rw [hold] at hn
    exact absurd (table.lt_next hn) (Nat.not_lt.mpr hd)
  refine ⟨calls_tried candidates, order_tried candidates, answered_tried h candidates, ?_, after,
    hrun, ?_, ?_, ?_⟩
  · refine (firstSocket_cases h candidates).imp_left ?_
    rintro ⟨failed, t, htried, hfailed, hsucceeds, hmem, hsocket⟩
    have hnonneg := (hfresh _ hmem _ hsocket).1
    exact ⟨by omega, failed, t, htried, hfailed, hsucceeds⟩
  · intro d hd hlt
    rcases Handles.count_releases_of_new hrun hd hlt with ⟨⟨n, hn⟩, hzero⟩ | ⟨hfree, hone⟩
    · rw [hnew n d hd hn] at hn
      rw [if_pos hn, hzero]
    · rw [if_neg (hfree _), hone]
  · intro hne
    rcases hafter with ⟨d, hd, hserial⟩ | ⟨hnone, -⟩
    · exact ⟨d, hd, by rw [hserial, Function.update_self]⟩
    · exact absurd hnone hne
  · intro n hn
    rcases hafter with ⟨d, -, hserial⟩ | ⟨-, hserial⟩
    · rw [hserial, Function.update_of_ne hn]
    · rw [hserial]

end Loop

theorem createBoundSocket_eq (getaddrinfo : Resolver) (socketType : SocketType) (port : BitVec 16)
    (nonBlocking reuseAddr : Bool) :
    createBoundSocket getaddrinfo socketType port nonBlocking reuseAddr =
      firstSocket (tryBind nonBlocking reuseAddr)
        (resolved (getaddrinfo none (toString port.toNat) (boundHints socketType))) := by
  unfold createBoundSocket resolved
  cases getaddrinfo none (toString port.toNat) (boundHints socketType) <;> rfl

theorem createConnectedSocket_eq (getaddrinfo : Resolver) (socketType : SocketType) (host : String)
    (port : BitVec 16) (nonBlocking : Bool) :
    createConnectedSocket getaddrinfo socketType host port nonBlocking =
      firstSocket (tryConnect nonBlocking)
        (resolved (getaddrinfo (some host) (toString port.toNat) (connectedHints socketType))) := by
  unfold createConnectedSocket resolved
  cases getaddrinfo (some host) (toString port.toNat) (connectedHints socketType) <;> rfl

/-- **Fallback.** Both functions try the candidates in their order, return the socket of the first one
on which every step that is asked for has succeeded, try none behind it, and leave no other socket
open. -/
theorem fallsBack {getaddrinfo : Resolver} {table : Handles Int}
    (hfresh : ∀ node service hints, Fresh table (resolved (getaddrinfo node service hints)))
    (socketType : SocketType) (port : BitVec 16) :
    (∀ nonBlocking reuseAddr, ∃ trials,
      FallsBack (boundSteps reuseAddr) (socketFlags nonBlocking)
        (resolved (getaddrinfo none (toString port.toNat) (boundHints socketType))) trials table
        (createBoundSocket getaddrinfo socketType port nonBlocking reuseAddr)) ∧
    ∀ host nonBlocking, ∃ trials,
      FallsBack (connectedSteps nonBlocking) (socketFlags false)
        (resolved (getaddrinfo (some host) (toString port.toNat) (connectedHints socketType))) trials
        table (createConnectedSocket getaddrinfo socketType host port nonBlocking) := by
  constructor
  · intro nonBlocking reuseAddr
    rw [createBoundSocket_eq]
    exact ⟨_, fallsBack_firstSocket (body_tryBind nonBlocking reuseAddr) (hfresh _ _ _)⟩
  · intro host nonBlocking
    rw [createConnectedSocket_eq]
    exact ⟨_, fallsBack_firstSocket (body_tryConnect nonBlocking) (hfresh _ _ _)⟩

/-- The first candidate is in use and the second of a family without support; the kernel gives the
third the number that the first had. -/
theorem fallsBack_third :
    let p : Addrinfo := ⟨afInet, sockStream, 6, .inet ⟨80, 0⟩⟩
    let candidates : List Candidate :=
      [⟨p, { socket := .ok 3, bind := some 98, connect := some 111 }⟩, ⟨p, { socket := .error 97 }⟩,
        ⟨p, { socket := .ok 3, setfl := some 9 }⟩]
    let getaddrinfo : Resolver := fun _ _ _ => .ok candidates
    let bound := createBoundSocket getaddrinfo .tcp 80 true true
    let connected := createConnectedSocket getaddrinfo .tcp "host" 80 true
    bound.1 = 3 ∧
      (∃ trials, FallsBack (boundSteps true) (socketFlags true) candidates trials .empty bound) ∧
      connected.1 = -1 ∧ ∃ trials,
        FallsBack (connectedSteps true) (socketFlags false) candidates trials .empty connected := by
  intro p candidates getaddrinfo bound connected
  have hfresh : ∀ node service hints, Fresh .empty (resolved (getaddrinfo node service hints)) := by
    intro node service hints c hc sockfd hsocket
    have hmem : c ∈ candidates := hc
    simp only [candidates, List.mem_cons, List.not_mem_nil, or_false] at hmem
    rcases hmem with rfl | rfl | rfl
    · obtain rfl := Except.ok.inj hsocket
      exact ⟨by decide, rfl⟩
    · cases hsocket
    · obtain rfl := Except.ok.inj hsocket
      exact ⟨by decide, rfl⟩
  obtain ⟨hbound, hconnected⟩ := fallsBack hfresh .tcp 80
  exact ⟨rfl, hbound true true, rfl, hconnected "host" true⟩

/-! ### A kernel that keeps a table of sockets -/

/-- What the kernel answers for one candidate is among what a candidate can come with. -/
theorem exists_tryBind_eq (k : Kernel) (nonBlocking reuseAddr : Bool) (p : Addrinfo)
    (servinfo : List Addrinfo) (sockets : Sockets) :
    ∃ answers,
      (∃ sockets', (tryBind nonBlocking reuseAddr ⟨p, answers⟩).1 = none ∧
        bindFirst k nonBlocking reuseAddr (p :: servinfo) sockets =
          bindFirst k nonBlocking reuseAddr servinfo sockets') ∨
      ∃ sockfd, (tryBind nonBlocking reuseAddr ⟨p, answers⟩).1 = some sockfd ∧
        (bindFirst k nonBlocking reuseAddr (p :: servinfo) sockets).1 = sockfd := by
  cases hsocket : k.socket sockets p.family (p.socktype ||| socketFlags nonBlocking)
      p.protocol with
  | error errnum =>
      refine ⟨{ socket := .error errnum }, Or.inl ⟨sockets, rfl, ?_⟩⟩
      simp only [bindFirst, Kernel.openSocket, hsocket]
  | ok sockfd =>
      let sock : Sock :=
        ⟨p.family, p.socktype ||| socketFlags nonBlocking, p.protocol, k.bindv6only, none, false,
          false, false⟩
      let opened := Function.update sockets sockfd (some sock)
      cases hbind : k.bind opened sock p with
      | some errnum =>
          refine ⟨{ socket := .ok sockfd, bind := some errnum },
            Or.inl ⟨close opened sockfd, rfl, ?_⟩⟩
          simp [bindFirst, Kernel.openSocket, hsocket, Kernel.bindSocket, opened, sock, hbind]
      | none =>
          let bound := Function.update sockets sockfd (some { sock with bound := some p })
          cases reuseAddr with
          | false =>
              refine ⟨{ socket := .ok sockfd }, Or.inr ⟨sockfd, rfl, ?_⟩⟩
              simp [bindFirst, Kernel.openSocket, hsocket, Kernel.bindSocket, opened, sock, hbind]
          | true =>
              cases hoption : k.setsockopt bound { sock with bound := some p } .reuseAddr with
              | some errnum =>
                  refine ⟨{ socket := .ok sockfd, setsockopt := some errnum },
                    Or.inl ⟨close bound sockfd, rfl, ?_⟩⟩
                  simp [bindFirst, Kernel.openSocket, hsocket, Kernel.bindSocket, opened, sock,
                    hbind, Kernel.enableOption, bound, hoption]
              | none =>
                  refine ⟨{ socket := .ok sockfd }, Or.inr ⟨sockfd, rfl, ?_⟩⟩
                  simp [bindFirst, Kernel.openSocket, hsocket, Kernel.bindSocket, opened, sock,
                    hbind, Kernel.enableOption, bound, hoption]

/-- What it answers in a search is among what the candidates can come with. -/
theorem exists_bindFirst_eq (k : Kernel) (nonBlocking reuseAddr : Bool) (servinfo : List Addrinfo)
    (sockets : Sockets) :
    ∃ candidates : List Candidate, candidates.map Candidate.info = servinfo ∧
      (bindFirst k nonBlocking reuseAddr servinfo sockets).1 =
        (firstSocket (tryBind nonBlocking reuseAddr) candidates).1 := by
  induction servinfo generalizing sockets with
  | nil => exact ⟨[], rfl, rfl⟩
  | cons p servinfo ih =>
      obtain ⟨answers, htry⟩ := exists_tryBind_eq k nonBlocking reuseAddr p servinfo sockets
      rcases htry with ⟨sockets', hnone, hstep⟩ | ⟨sockfd, hsome, hstep⟩
      · obtain ⟨candidates, hinfo, heq⟩ := ih sockets'
        refine ⟨⟨p, answers⟩ :: candidates, by rw [List.map_cons, hinfo], ?_⟩
        rw [hstep, firstSocket_cons_of_none candidates hnone, heq]
      · obtain ⟨candidates, hinfo, -⟩ := ih sockets
        refine ⟨⟨p, answers⟩ :: candidates, by rw [List.map_cons, hinfo], ?_⟩
        rw [hstep, firstSocket_cons_of_some candidates hsome]

end Suc.Net.Fallback
