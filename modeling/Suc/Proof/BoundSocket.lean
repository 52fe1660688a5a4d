import Suc.Net.Sock

/-!
# Binding with `SO_REUSEADDR`

The option only counts at the time of the bind, and `create_bound_socket` sets it afterwards. So the
search for a candidate is one without the option, and agrees with the search the caller asked for
only if the first candidate of that one needs no option.
-/

namespace Suc.Net

/-- A predicate that is narrower finds the same element if it holds of it. -/
theorem find?_eq_of_imp {α : Type*} {p q : α → Bool} (himp : ∀ a, p a → q a) {l : List α} {a : α}
    (hfind : l.find? q = some a) (ha : p a) : l.find? p = some a := by
  obtain ⟨-, as, bs, rfl, has⟩ := List.find?_eq_some_iff_append.mp hfind
  refine List.find?_eq_some_iff_append.mpr ⟨ha, as, bs, rfl, ?_⟩
  intro a' ha'
  have hq := has a' ha'
  cases hp : p a' with
  | false => rfl
  | true => simp [himp a' hp] at hq

/-- What is assumed of the kernel, while the sockets given are open and at most one other: `socket`
gives a new descriptor, a bind depends on the candidate and on `SO_REUSEADDR` alone, and the option
can be set and never stands in the way. -/
structure Kernel.Regular (k : Kernel) (sockets : Sockets)
    (answer : Addrinfo → Bool → Option Errno) : Prop where
  socket : ∀ domain type protocol,
    ∃ fd, k.socket sockets domain type protocol = .ok fd ∧ 0 ≤ fd ∧ sockets fd = none
  bind : ∀ sockets sock p, k.bind sockets sock p = answer p sock.reuseAddr
  setsockopt : ∀ sockets sock, k.setsockopt sockets sock .reuseAddr = none
  mono : ∀ p, answer p false = none → answer p true = none

/-- The socket is bound to the first candidate that can be bound with the option set, and there is
none only if no candidate can. -/
def HonoursReuse (answer : Addrinfo → Bool → Option Errno) (candidates : List Addrinfo)
    (r : Int × Sockets) : Prop :=
  match candidates.find? fun p => (answer p true).isNone with
  | some p => r.1 ≠ -1 ∧ ∃ sock, r.2 r.1 = some sock ∧ sock.bound = some p
  | none => r.1 = -1

/-! ### The search -/

/-- The socket of a candidate that could be bound. -/
def boundSock (k : Kernel) (nonBlocking reuseAddr : Bool) (p : Addrinfo) : Sock where
  domain := p.family
  type := p.socktype ||| socketFlags nonBlocking
  protocol := p.protocol
  v6only := k.bindv6only
  bound := some p
  reuseAddr := reuseAddr

section Search

variable {k : Kernel} {sockets : Sockets} {answer : Addrinfo → Bool → Option Errno}
  {p : Addrinfo}

/-- A socket that cannot be bound is closed again, and the table is as before it was opened. -/
theorem bindFirst_cons_of_fails (h : k.Regular sockets answer)
    (nonBlocking reuseAddr : Bool) (candidates : List Addrinfo) (hfails : answer p false ≠ none) :
    bindFirst k nonBlocking reuseAddr (p :: candidates) sockets =
      bindFirst k nonBlocking reuseAddr candidates sockets := by
  obtain ⟨errnum, herrnum⟩ := Option.ne_none_iff_exists'.mp hfails
  obtain ⟨fd, hfd, -, hnew⟩ := h.socket p.family (p.socktype ||| socketFlags nonBlocking)
    p.protocol
  have hclose : Function.update sockets fd none = sockets := by
    rw [← hnew, Function.update_eq_self]
  simp [bindFirst, Kernel.openSocket, hfd, Kernel.bindSocket, h.bind, herrnum, close, hclose]

theorem bindFirst_cons_of_binds (h : k.Regular sockets answer)
    (nonBlocking reuseAddr : Bool) (candidates : List Addrinfo) (hbinds : answer p false = none) :
    ∃ fd, 0 ≤ fd ∧ bindFirst k nonBlocking reuseAddr (p :: candidates) sockets =
      (fd, Function.update sockets fd (some (boundSock k nonBlocking reuseAddr p))) := by
  obtain ⟨fd, hfd, hnonneg, -⟩ := h.socket p.family (p.socktype ||| socketFlags nonBlocking)
    p.protocol
  refine ⟨fd, hnonneg, ?_⟩
  cases reuseAddr with
  | false =>
      simp [bindFirst, Kernel.openSocket, hfd, Kernel.bindSocket, h.bind, hbinds, boundSock]
  | true =>
      simp [bindFirst, Kernel.openSocket, hfd, Kernel.bindSocket, h.bind, hbinds, boundSock,
        Kernel.enableOption, h.setsockopt, Sock.enable]

/-- The search is for the first candidate that can be bound without the option. -/
theorem bindFirst_eq (h : k.Regular sockets answer)
    (nonBlocking reuseAddr : Bool) (candidates : List Addrinfo) :
    match candidates.find? fun p => (answer p false).isNone with
    | some p => ∃ fd, 0 ≤ fd ∧ bindFirst k nonBlocking reuseAddr candidates sockets =
        (fd, Function.update sockets fd (some (boundSock k nonBlocking reuseAddr p)))
    | none => bindFirst k nonBlocking reuseAddr candidates sockets = (-1, sockets) := by
  induction candidates with
  | nil => rfl
  | cons p candidates ih =>
      by_cases hp : answer p false = none
      · rw [List.find?_cons_of_pos (by simp [hp])]
        exact bindFirst_cons_of_binds h nonBlocking reuseAddr candidates hp
      · rw [List.find?_cons_of_neg (by simpa using hp),
          bindFirst_cons_of_fails h nonBlocking reuseAddr candidates hp]
        exact ih

end Search

/-- **Binding with the option.** The socket returned is bound to the first candidate that can be bound
with `SO_REUSEADDR` set, and there is none only if no candidate can, exactly when that candidate, if
there is one, can be bound without the option too. -/
theorem honoursReuse_iff {k : Kernel} {sockets : Sockets}
    {answer : Addrinfo → Bool → Option Errno} (h : k.Regular sockets answer)
    {socketType : SocketType} {port : BitVec 16} {candidates : List Addrinfo}
    (hresolved : k.getaddrinfo (toString port.toNat) (boundHints socketType) = .ok candidates)
    (nonBlocking : Bool) :
    HonoursReuse answer candidates
        (createBoundSocket k socketType port nonBlocking true sockets) ↔
      ∀ p, (candidates.find? fun p => (answer p true).isNone) = some p → answer p false = none := by
  have hsearch := bindFirst_eq h nonBlocking true candidates
  have hmono : ∀ p, (answer p false).isNone → (answer p true).isNone := by
    intro p hp
    simp only [Option.isNone_iff_eq_none] at hp ⊢
    exact h.mono p hp
  have hcreate : createBoundSocket k socketType port nonBlocking true sockets =
      bindFirst k nonBlocking true candidates sockets := by
    rw [createBoundSocket, hresolved]
  rw [hcreate, HonoursReuse]
  cases hreuse : candidates.find? fun p => (answer p true).isNone with
  | none =>
      have hfree : (candidates.find? fun p => (answer p false).isNone) = none := by
        rw [List.find?_eq_none] at hreuse ⊢
        exact fun p hp => mt (hmono p) (hreuse p hp)
      rw [hfree] at hsearch
      simp [hsearch]
  | some p =>
      constructor
      · rintro ⟨hfound, sock, hsock, hbound⟩ _ ⟨rfl⟩
        cases hfree : candidates.find? fun p => (answer p false).isNone with
        | none =>
            rw [hfree] at hsearch
            exact absurd (by rw [hsearch]) hfound
        | some p' =>
            rw [hfree] at hsearch
            obtain ⟨fd, -, hresult⟩ := hsearch
            obtain rfl : boundSock k nonBlocking true p' = sock := by simpa [hresult] using hsock
            obtain rfl : p' = p := Option.some.inj hbound
            simpa using List.find?_some hfree
      · intro hfree
        rw [find?_eq_of_imp hmono hreuse (by simp [hfree p rfl])] at hsearch
        obtain ⟨fd, hnonneg, hresult⟩ := hsearch
        rw [hresult]
        exact ⟨by omega, _, Function.update_self .., rfl⟩

/-! ### Two candidates -/

def anyInet : Addrinfo := ⟨afInet, sockDgram, 17, .inet ⟨13400, 0⟩⟩

def anyInet6 : Addrinfo := ⟨afInet6, sockDgram, 17, .inet6 ⟨13400, 0, 0, 0⟩⟩

/-- A kernel that resolves to the two candidates, where the port is still in use for those that `busy`
names. An `AF_INET` socket does not know the option of `AF_INET6` ones. -/
def smallKernel (busy : Addrinfo → Bool → Bool) : Kernel where
  getaddrinfo _ _ := .ok [anyInet, anyInet6]
  bindv6only := false
  socket _ _ _ _ := .ok 3
  bind _ sock p := if busy p sock.reuseAddr then some 98 else none
  setsockopt _ sock opt :=
    if sock.domain = afInet ∧ opt = .ipv6RecvPktinfo then some 92 else none

theorem smallKernel_regular (busy : Addrinfo → Bool → Bool)
    (hbusy : ∀ p, busy p false = false → busy p true = false) :
    (smallKernel busy).Regular (fun _ => none)
      fun p reuseAddr => if busy p reuseAddr then some 98 else none where
  socket _ _ _ := ⟨3, rfl, by decide, rfl⟩
  bind _ _ _ := rfl
  setsockopt _ _ := if_neg (by simp)
  mono p := by simpa using hbusy p

/-- The first candidate is in use, with and without the option. -/
theorem honoursReuse_iff_second :
    let busy : Addrinfo → Bool → Bool := fun p _ => decide (p = anyInet)
    HonoursReuse (fun p reuseAddr => if busy p reuseAddr then some 98 else none)
      [anyInet, anyInet6]
      (createBoundSocket (smallKernel busy) .udp 13400 false true fun _ => none) := by
  intro busy
  refine (honoursReuse_iff (smallKernel_regular busy fun _ h => h) rfl false).mpr ?_
  intro p hp
  have hfirst : anyInet6 = p := Option.some.inj hp
  rw [← hfirst]
  rfl

/-- The first candidate can be bound with the option set only: the socket is bound to the second. -/
theorem not_honoursReuse_of_late :
    let busy : Addrinfo → Bool → Bool := fun p reuseAddr => decide (p = anyInet) && !reuseAddr
    let answer : Addrinfo → Bool → Option Errno := fun p reuseAddr =>
      if busy p reuseAddr then some 98 else none
    let r := createBoundSocket (smallKernel busy) .udp 13400 false true fun _ => none
    (smallKernel busy).Regular (fun _ => none) answer ∧
      ([anyInet, anyInet6].find? fun p => (answer p true).isNone) = some anyInet ∧
      (r.2 r.1).map Sock.bound = some (some anyInet6) ∧
      ¬HonoursReuse answer [anyInet, anyInet6] r := by
  intro busy answer r
  refine ⟨smallKernel_regular busy (fun p _ => by simp [busy]), rfl, rfl, ?_⟩
  rintro ⟨-, sock, hsock, hbound⟩
  have hsecond : (r.2 r.1).map Sock.bound = some (some anyInet6) := rfl
  rw [hsock, Option.map_some, hbound] at hsecond
  cases hsecond

end Suc.Net
