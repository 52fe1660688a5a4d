import Suc.Proof.BoundSocket
import Suc.Proof.UdpReceive

/-!
# Which datagrams are received

`prepare_for_udp_receive` asks for the packet info of both families, and Linux gives both for an IPv4
datagram to a dual-stack socket. `udp_receive` takes the second record for a mismatch. All other
datagrams come with one packet-info record, of the family of their source.
-/

namespace Suc.Net

/-! ### The options of a bound socket -/

theorem Kernel.enableOption_of_open {k : Kernel} {sockets : Sockets} {fd : Int} {sock : Sock}
    (hsock : sockets fd = some sock) (opt : SockOpt) :
    (k.enableOption sockets fd opt).2 fd =
      some (if (k.enableOption sockets fd opt).1.isNone then sock.enable opt else sock) := by
  cases hanswer : k.setsockopt sockets sock opt <;> simp [Kernel.enableOption, hsock, hanswer]

/-- The socket is open, and neither option has been enabled on it. -/
def Sockets.NoPktinfo (sockets : Sockets) (fd : Int) : Prop :=
  ∃ sock, sockets fd = some sock ∧ sock.ipPktinfo = false ∧ sock.ipv6RecvPktinfo = false

section Bound

variable {k : Kernel} {sockets sockets' : Sockets} {fd : Int}

theorem Kernel.openSocket_noPktinfo {domain type protocol : Nat}
    (h : k.openSocket sockets domain type protocol = (.ok fd, sockets')) :
    sockets'.NoPktinfo fd := by
  unfold Kernel.openSocket at h
  split at h
  · cases h
  · cases h
    exact ⟨_, Function.update_self .., rfl, rfl⟩

theorem Kernel.bindSocket_noPktinfo {p : Addrinfo} (hfd : sockets.NoPktinfo fd)
    (h : k.bindSocket sockets fd p = (none, sockets')) : sockets'.NoPktinfo fd := by
  obtain ⟨sock, hsock, hoptions⟩ := hfd
  simp only [Kernel.bindSocket, hsock] at h
  split at h
  · cases h
  · cases h
    exact ⟨_, Function.update_self .., hoptions⟩

theorem Kernel.enableOption_noPktinfo (hfd : sockets.NoPktinfo fd)
    (h : k.enableOption sockets fd .reuseAddr = (none, sockets')) : sockets'.NoPktinfo fd := by
  obtain ⟨sock, hsock, hoptions⟩ := hfd
  have hopen := k.enableOption_of_open hsock .reuseAddr
  rw [h] at hopen
  exact ⟨_, hopen, hoptions⟩

theorem bindFirst_noPktinfo {nonBlocking reuseAddr : Bool} {candidates : List Addrinfo}
    (h : bindFirst k nonBlocking reuseAddr candidates sockets = (fd, sockets')) (hfd : fd ≠ -1) :
    sockets'.NoPktinfo fd := by
  induction candidates generalizing sockets with
  | nil =>
      cases h
      exact absurd rfl hfd
  | cons p candidates ih =>
      unfold bindFirst at h
      split at h
      · exact ih h
      · have hopen := Kernel.openSocket_noPktinfo ‹_›
        split at h
        · exact ih h
        · have hbound := Kernel.bindSocket_noPktinfo hopen ‹_›
          split at h
          · split at h
            · exact ih h
            · cases h
              exact Kernel.enableOption_noPktinfo hbound ‹_›
          · cases h
            exact hbound

theorem createBoundSocket_noPktinfo {socketType : SocketType} {port : BitVec 16}
    {nonBlocking reuseAddr : Bool}
    (h : createBoundSocket k socketType port nonBlocking reuseAddr sockets = (fd, sockets'))
    (hfd : fd ≠ -1) : sockets'.NoPktinfo fd := by
  unfold createBoundSocket at h
  split at h
  · cases h
    exact absurd rfl hfd
  · exact bindFirst_noPktinfo h hfd

theorem Sock.options_of_enabled {sock : Sock} (hipv4 : sock.ipPktinfo = false)
    (hipv6 : sock.ipv6RecvPktinfo = false) (ipv4 ipv6 : Bool) :
    let first := if ipv4 then sock.enable .ipPktinfo else sock
    let second := if ipv6 then first.enable .ipv6RecvPktinfo else first
    second.ipPktinfo = ipv4 ∧ second.ipv6RecvPktinfo = ipv6 := by
  cases ipv4 <;> cases ipv6 <;> simp [Sock.enable, hipv4, hipv6]

/-- Of a socket without the options, `prepare_for_udp_receive` reports those it has afterwards. -/
theorem prepareForUdpReceive_enabled {enabled : Bool × Bool} {sock : Sock}
    (hfd : sockets.NoPktinfo fd)
    (h : prepareForUdpReceive k fd sockets = (enabled, sockets')) (hsock : sockets' fd = some sock) :
    sock.ipPktinfo = enabled.1 ∧ sock.ipv6RecvPktinfo = enabled.2 := by
  obtain ⟨sock₀, hsock₀, hipv4, hipv6⟩ := hfd
  have hfirst := k.enableOption_of_open hsock₀ .ipPktinfo
  have hsecond := k.enableOption_of_open hfirst .ipv6RecvPktinfo
  obtain ⟨rfl, rfl⟩ := Prod.mk.inj h
  obtain rfl := Option.some.inj (hsecond.symm.trans hsock)
  exact Sock.options_of_enabled hipv4 hipv6 _ _

end Bound

/-! ### Delivery -/

/-- The IPv6 address stands for an IPv4 one. -/
def SockaddrStorage.IsV4Mapped : SockaddrStorage → Prop
  | .inet6 sockaddr => sockaddr.addr >>> 32 = 0xffff#128
  | _ => False

instance : DecidablePred SockaddrStorage.IsV4Mapped
  | .inet6 sockaddr => inferInstanceAs (Decidable (sockaddr.addr >>> 32 = 0xffff#128))
  | .inet _ => inferInstanceAs (Decidable False)
  | .other _ _ _ => inferInstanceAs (Decidable False)

def Cmsg.isPktinfo : Cmsg → Bool
  | .other _ _ _ => false
  | _ => true

/-- What Linux delivers to a socket on which the packet-info option of its family is enabled. Records
of other types are anywhere between those listed. -/
inductive Delivered (sock : Sock) (msg : RecvMsg) : Prop where
  | inet (sockaddr : SockaddrIn) (pktinfo : InPktinfo) (hrv : 0 ≤ msg.rv)
      (hdomain : sock.domain = afInet) (hopt : sock.ipPktinfo)
      (hname : msg.name = .inet sockaddr)
      (hcontrol : msg.control.filter Cmsg.isPktinfo = [.ipPktinfo pktinfo])
  | inet6 (sockaddr : SockaddrIn6) (pktinfo : In6Pktinfo) (hrv : 0 ≤ msg.rv)
      (hdomain : sock.domain = afInet6) (hopt : sock.ipv6RecvPktinfo)
      (hname : msg.name = .inet6 sockaddr)
      (hnative : ¬msg.name.IsV4Mapped ∨ sock.ipPktinfo = false)
      (hcontrol : msg.control.filter Cmsg.isPktinfo = [.ipv6Pktinfo pktinfo])
  | mapped (sockaddr : SockaddrIn6) (pktinfo : In6Pktinfo) (pktinfo4 : InPktinfo)
      (hrv : 0 ≤ msg.rv) (hdomain : sock.domain = afInet6) (hdual : sock.v6only = false)
      (hopt : sock.ipv6RecvPktinfo) (hopt4 : sock.ipPktinfo)
      (hname : msg.name = .inet6 sockaddr) (hmapped : msg.name.IsV4Mapped)
      (hcontrol : msg.control.filter Cmsg.isPktinfo = [.ipv6Pktinfo pktinfo, .ipPktinfo pktinfo4])

/-- The call returns the length and stores the source and the local address of the one record of its
family. -/
def Reports (msg : RecvMsg) (hostAddr : Option InaddrStorage) (peerAddr : Option SockaddrStorage)
    (r : Received) : Prop :=
  r.rv = msg.rv ∧ r.peerAddr = peerAddr.map (fun _ => msg.name) ∧
    ∃ addr, msg.control.filterMap (Cmsg.localAddr msg.name) = [addr] ∧
      r.hostAddr = hostAddr.map fun _ => addr

theorem any_mismatches_eq_filter (name : SockaddrStorage) (control : List Cmsg) :
    control.any (Cmsg.mismatches name) =
      (control.filter Cmsg.isPktinfo).any (Cmsg.mismatches name) := by
  rw [List.any_filter]
  congr 1
  funext c
  cases c <;> simp [Cmsg.isPktinfo, Cmsg.mismatches]

theorem filterMap_localAddr_eq_filter (name : SockaddrStorage) (control : List Cmsg) :
    control.filterMap (Cmsg.localAddr name) =
      (control.filter Cmsg.isPktinfo).filterMap (Cmsg.localAddr name) := by
  rw [List.filterMap_filter]
  congr 1
  funext c
  cases c <;> simp [Cmsg.isPktinfo, Cmsg.localAddr]

/-- A datagram with one packet-info record, which is of the family of the source. -/
theorem reports_of_single {msg : RecvMsg} {record : Cmsg} {addr : InaddrStorage}
    (hrv : 0 ≤ msg.rv) (hfamily : msg.name.family = afInet ∨ msg.name.family = afInet6)
    (hcontrol : msg.control.filter Cmsg.isPktinfo = [record])
    (hmatch : record.mismatches msg.name = false) (haddr : record.localAddr msg.name = some addr)
    (hostAddr : Option InaddrStorage) (peerAddr : Option SockaddrStorage) :
    Reports msg hostAddr peerAddr (udpReceive msg hostAddr peerAddr) := by
  have hmismatch : msg.control.any (Cmsg.mismatches msg.name) = false := by
    rw [any_mismatches_eq_filter, hcontrol]
    simp [hmatch]
  have haddrs : msg.control.filterMap (Cmsg.localAddr msg.name) = [addr] := by
    rw [filterMap_localAddr_eq_filter, hcontrol]
    simp [haddr]
  rw [udpReceive_of_no_mismatch (by omega) hmismatch hfamily hostAddr peerAddr]
  exact ⟨rfl, rfl, addr, haddrs, by rw [haddrs]; rfl⟩

/-- **Received datagrams.** On a socket that `create_bound_socket` bound and `prepare_for_udp_receive`
prepared, a datagram is received as it was delivered unless it is an IPv4 datagram to an IPv6 socket
on which both options were reported as enabled. -/
theorem reports_iff_not_mapped {k : Kernel} {port : BitVec 16} {nonBlocking reuseAddr : Bool}
    {sockets sockets₁ sockets₂ : Sockets} {sockfd : Int} {enabled : Bool × Bool} {sock : Sock}
    {msg : RecvMsg}
    (hbound : createBoundSocket k .udp port nonBlocking reuseAddr sockets = (sockfd, sockets₁))
    (hfd : sockfd ≠ -1)
    (hprepared : prepareForUdpReceive k sockfd sockets₁ = (enabled, sockets₂))
    (hsock : sockets₂ sockfd = some sock) (hdelivered : Delivered sock msg)
    (hostAddr : Option InaddrStorage) (peerAddr : Option SockaddrStorage) :
    Reports msg hostAddr peerAddr (udpReceive msg hostAddr peerAddr) ↔
      ¬(sock.domain = afInet6 ∧ enabled = (true, true) ∧ msg.name.IsV4Mapped) := by
  obtain ⟨hipv4, hipv6⟩ :=
    prepareForUdpReceive_enabled (createBoundSocket_noPktinfo hbound hfd) hprepared hsock
  cases hdelivered with
  | inet sockaddr pktinfo hrv hdomain hopt hname hcontrol =>
      have hfamily : msg.name.family = afInet := by rw [hname]; rfl
      refine iff_of_true
        (reports_of_single hrv (Or.inl hfamily) hcontrol ?_ (by rw [hname]; rfl) _ _) ?_
      · simp [Cmsg.mismatches, hfamily]
      · rintro ⟨hdomain6, -⟩
        exact absurd (hdomain.symm.trans hdomain6) (by decide)
  | inet6 sockaddr pktinfo hrv hdomain hopt hname hnative hcontrol =>
      have hfamily : msg.name.family = afInet6 := by rw [hname]; rfl
      refine iff_of_true
        (reports_of_single hrv (Or.inr hfamily) hcontrol ?_ (by rw [hname]; rfl) _ _) ?_
      · simp [Cmsg.mismatches, hfamily]
      · rintro ⟨-, henabled, hmapped⟩
        rcases hnative with hnative | hnative
        · exact hnative hmapped
        · rw [hipv4, henabled] at hnative
          cases hnative
  | mapped sockaddr pktinfo pktinfo4 hrv hdomain hdual hopt hopt4 hname hmapped hcontrol =>
      refine iff_of_false ?_ (not_not_intro ⟨hdomain, ?_, hmapped⟩)
      · have hmismatch : msg.control.any (Cmsg.mismatches msg.name) := by
          rw [any_mismatches_eq_filter, hcontrol, hname]
          rfl
        rintro ⟨hreturned, -⟩
        rw [udpReceive_of_mismatch (by omega) hmismatch] at hreturned
        have hlength : -1 = msg.rv := hreturned
        omega
      · rw [hipv4] at hopt4
        rw [hipv6] at hopt
        exact Prod.ext hopt4 hopt

/-- A datagram to an IPv4 socket, with a record of another type in front. -/
theorem reports_iff_not_mapped_inet :
    let k := smallKernel fun _ _ => false
    let bound := createBoundSocket k .udp 13400 false true fun _ => none
    let prepared := prepareForUdpReceive k bound.1 bound.2
    let msg : RecvMsg := ⟨12, .inet ⟨13400, 0xc0a80007⟩,
      [.other 1 29 (by decide), .ipPktinfo ⟨2, 0xc0a80001, 0xc0a80001⟩]⟩
    prepared.1 = (true, false) ∧ Reports msg (some .monostate) none
      (udpReceive msg (some .monostate) none) := by
  intro k bound prepared msg
  refine ⟨rfl, ?_⟩
  have hbound : createBoundSocket k .udp 13400 false true (fun _ => none) = (3, bound.2) := rfl
  have hprepared : prepareForUdpReceive k 3 bound.2 = ((true, false), prepared.2) := rfl
  have hsock : prepared.2 3 = some { boundSock k false true anyInet with ipPktinfo := true } := rfl
  refine (reports_iff_not_mapped hbound (by decide) hprepared hsock ?_ _ _).mpr ?_
  · exact .inet ⟨13400, 0xc0a80007⟩ ⟨2, 0xc0a80001, 0xc0a80001⟩ (by decide) rfl rfl rfl rfl
  · rintro ⟨-, -, hmapped⟩
    exact hmapped

/-- The socket is a dual-stack IPv6 socket with both options enabled, and the datagram an IPv4 one. -/
theorem not_reports_of_mapped :
    let k := smallKernel fun p _ => decide (p = anyInet)
    let bound := createBoundSocket k .udp 13400 false true fun _ => none
    let prepared := prepareForUdpReceive k bound.1 bound.2
    let msg : RecvMsg := ⟨12, .inet6 ⟨13400, 0, 0xffffc0a80007, 0⟩,
      [.ipv6Pktinfo ⟨0xffffc0a80001, 2⟩, .ipPktinfo ⟨2, 0xc0a80001, 0xc0a80001⟩]⟩
    ∃ sock, bound.1 = 3 ∧ prepared.1 = (true, true) ∧ prepared.2 3 = some sock ∧
      Delivered sock msg ∧ (udpReceive msg (some .monostate) none).rv = -1 ∧
      ¬Reports msg (some .monostate) none (udpReceive msg (some .monostate) none) := by
  intro k bound prepared msg
  refine ⟨_, rfl, rfl, rfl, ?_, rfl, ?_⟩
  · exact .mapped ⟨13400, 0, 0xffffc0a80007, 0⟩ ⟨0xffffc0a80001, 2⟩ ⟨2, 0xc0a80001, 0xc0a80001⟩
      (by decide) rfl rfl rfl rfl rfl (by decide) rfl
  · rintro ⟨hrv, -⟩
    cases hrv

end Suc.Net
