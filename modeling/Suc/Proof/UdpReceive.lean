import Mathlib.Data.List.TakeWhile
import Suc.Net.Sock

/-!
# What `udp_receive` stores

The loop over the control records is a fold: `*host_addr` takes the address of every record of the
source's family, and the first record of the other family ends the call with what has been stored so
far. The source address is only stored behind all checks.
-/

namespace Suc.Net

/-! ### The control records -/

/-- The record is a packet-info record of another family than the source. -/
def Cmsg.mismatches (name : SockaddrStorage) : Cmsg → Bool
  | .ipPktinfo _ => decide (name.family ≠ afInet)
  | .ipv6Pktinfo _ => decide (name.family ≠ afInet6)
  | .other _ _ _ => false

/-- The local address that a packet-info record of the source's family carries. -/
def Cmsg.localAddr (name : SockaddrStorage) : Cmsg → Option InaddrStorage
  | .ipPktinfo pktinfo => if name.family = afInet then some (.inAddr pktinfo.specDst) else none
  | .ipv6Pktinfo pktinfo => if name.family = afInet6 then some (.in6Addr pktinfo.addr) else none
  | .other _ _ _ => none

/-- The local addresses in front of the first record that mismatches. -/
def acceptedAddrs (name : SockaddrStorage) (control : List Cmsg) : List InaddrStorage :=
  (control.takeWhile fun c => !c.mismatches name).filterMap (Cmsg.localAddr name)

theorem handleControl_cons (name : SockaddrStorage) (c : Cmsg) (control : List Cmsg)
    (hostAddr : Option InaddrStorage) :
    handleControl name (c :: control) hostAddr =
      if c.mismatches name then (false, hostAddr)
      else handleControl name control (hostAddr.map fun host => (c.localAddr name).getD host) := by
  cases c with
  | ipPktinfo pktinfo =>
      by_cases hfamily : name.family = afInet <;>
        simp [handleControl, Cmsg.mismatches, Cmsg.localAddr, hfamily]
  | ipv6Pktinfo pktinfo =>
      by_cases hfamily : name.family = afInet6 <;>
        simp [handleControl, Cmsg.mismatches, Cmsg.localAddr, hfamily]
  | other level type hother => simp [handleControl, Cmsg.mismatches, Cmsg.localAddr]

theorem acceptedAddrs_cons_of_mismatches {name : SockaddrStorage} {c : Cmsg} (control : List Cmsg)
    (h : c.mismatches name) : acceptedAddrs name (c :: control) = [] := by
  simp [acceptedAddrs, h]

theorem acceptedAddrs_cons {name : SockaddrStorage} {c : Cmsg} (control : List Cmsg)
    (h : c.mismatches name = false) :
    acceptedAddrs name (c :: control) = (c.localAddr name).toList ++ acceptedAddrs name control := by
  cases haddr : c.localAddr name <;> simp [acceptedAddrs, h, haddr]

theorem acceptedAddrs_of_no_mismatch {name : SockaddrStorage} {control : List Cmsg}
    (h : control.any (Cmsg.mismatches name) = false) :
    acceptedAddrs name control = control.filterMap (Cmsg.localAddr name) := by
  rw [acceptedAddrs, List.takeWhile_eq_self_iff.mpr]
  intro c hc
  simpa using List.any_eq_false.mp h c hc

/-- A record of a family that is neither of the two does not exist. -/
theorem acceptedAddrs_of_other {name : SockaddrStorage}
    (h : ¬(name.family = afInet ∨ name.family = afInet6)) (control : List Cmsg) :
    acceptedAddrs name control = [] := by
  rw [not_or] at h
  rw [acceptedAddrs, List.filterMap_eq_nil_iff]
  intro c _
  cases c <;> simp [Cmsg.localAddr, h.1, h.2]

/-- **The loop over the records.** -/
theorem handleControl_eq (name : SockaddrStorage) (control : List Cmsg)
    (hostAddr : Option InaddrStorage) :
    handleControl name control hostAddr =
      (!control.any (Cmsg.mismatches name),
        hostAddr.map fun host => (acceptedAddrs name control).getLastD host) := by
  induction control generalizing hostAddr with
  | nil => simp [handleControl, acceptedAddrs]
  | cons c control ih =>
      rw [handleControl_cons]
      cases hmismatch : c.mismatches name with
      | true => simp [acceptedAddrs_cons_of_mismatches control hmismatch, hmismatch]
      | false =>
          rw [if_neg Bool.false_ne_true, ih, acceptedAddrs_cons control hmismatch, Option.map_map]
          cases c.localAddr name with
          | none => simp [hmismatch, Function.comp_def]
          | some addr =>
              have hlast : ∀ host, (addr :: acceptedAddrs name control).getLastD host =
                  (acceptedAddrs name control).getLastD addr := fun _ => List.getLastD_cons ..
              simp only [hmismatch, List.any_cons, Bool.false_or, Function.comp_def,
                Option.getD_some, Option.toList_some, List.singleton_append, hlast]

/-! ### The addresses after a call -/

/-- A call that returns `-1` stores nothing; any other stores the source address and the address of
the last packet-info record of its family. -/
def AllOrNothing (msg : RecvMsg) (hostAddr : Option InaddrStorage)
    (peerAddr : Option SockaddrStorage) (r : Received) : Prop :=
  (r.rv = -1 → r.hostAddr = hostAddr ∧ r.peerAddr = peerAddr) ∧
    (r.rv ≠ -1 → r.peerAddr = peerAddr.map (fun _ => msg.name) ∧
      ∀ addr, (msg.control.filterMap (Cmsg.localAddr msg.name)).getLast? = some addr →
        r.hostAddr = hostAddr.map fun _ => addr)

/-- No record mismatches, or what the records in front of it carry is what `*host_addr` holds. -/
def Undisturbed (msg : RecvMsg) (hostAddr : Option InaddrStorage) : Prop :=
  msg.rv = -1 ∨ msg.control.any (Cmsg.mismatches msg.name) = false ∨
    ∀ host ∈ hostAddr, (acceptedAddrs msg.name msg.control).getLastD host = host

theorem map_eq_self_iff {α : Type*} {f : α → α} {o : Option α} :
    o.map f = o ↔ ∀ a ∈ o, f a = a := by
  cases o <;> simp

theorem udpReceive_of_mismatch {msg : RecvMsg} (hrv : msg.rv ≠ -1)
    (h : msg.control.any (Cmsg.mismatches msg.name)) (hostAddr : Option InaddrStorage)
    (peerAddr : Option SockaddrStorage) :
    udpReceive msg hostAddr peerAddr =
      ⟨-1, hostAddr.map fun host => (acceptedAddrs msg.name msg.control).getLastD host,
        peerAddr⟩ := by
  simp [udpReceive, hrv, handleControl_eq, h]

theorem udpReceive_of_no_mismatch {msg : RecvMsg} (hrv : msg.rv ≠ -1)
    (h : msg.control.any (Cmsg.mismatches msg.name) = false)
    (hfamily : msg.name.family = afInet ∨ msg.name.family = afInet6)
    (hostAddr : Option InaddrStorage) (peerAddr : Option SockaddrStorage) :
    udpReceive msg hostAddr peerAddr =
      ⟨msg.rv,
        hostAddr.map fun host => (msg.control.filterMap (Cmsg.localAddr msg.name)).getLastD host,
        peerAddr.map fun _ => msg.name⟩ := by
  simp [udpReceive, hrv, handleControl_eq, h, hfamily, acceptedAddrs_of_no_mismatch h]

theorem udpReceive_of_other {msg : RecvMsg}
    (hfamily : ¬(msg.name.family = afInet ∨ msg.name.family = afInet6))
    (hostAddr : Option InaddrStorage) (peerAddr : Option SockaddrStorage) :
    udpReceive msg hostAddr peerAddr = ⟨-1, hostAddr, peerAddr⟩ := by
  by_cases hrv : msg.rv = -1
  · simp [udpReceive, hrv]
  · simp only [udpReceive, hrv, if_false, handleControl_eq, acceptedAddrs_of_other hfamily,
      List.getLastD_nil, Option.map_id', hfamily]
    cases msg.control.any (Cmsg.mismatches msg.name) <;> rfl

/-- **All or nothing.** The outputs of `udp_receive` are all or nothing exactly when no record of the
other family comes behind one that has changed `*host_addr`. -/
theorem allOrNothing_iff_undisturbed (msg : RecvMsg) (hostAddr : Option InaddrStorage)
    (peerAddr : Option SockaddrStorage) :
    AllOrNothing msg hostAddr peerAddr (udpReceive msg hostAddr peerAddr) ↔
      Undisturbed msg hostAddr := by
  by_cases hrv : msg.rv = -1
  · have hresult : udpReceive msg hostAddr peerAddr = ⟨-1, hostAddr, peerAddr⟩ := by
      simp [udpReceive, hrv]
    rw [hresult]
    exact iff_of_true ⟨fun _ => ⟨rfl, rfl⟩, fun h => absurd rfl h⟩ (Or.inl hrv)
  by_cases hfamily : msg.name.family = afInet ∨ msg.name.family = afInet6
  · cases hmismatch : msg.control.any (Cmsg.mismatches msg.name) with
    | true =>
        rw [udpReceive_of_mismatch hrv hmismatch]
        simp only [AllOrNothing, Undisturbed, hrv, hmismatch, map_eq_self_iff, true_imp_iff,
          not_true_eq_false, false_imp_iff, and_true, false_or, reduceCtorEq, ne_eq]
    | false =>
        rw [udpReceive_of_no_mismatch hrv hmismatch hfamily]
        refine iff_of_true ⟨fun h => absurd h hrv, fun _ => ⟨rfl, ?_⟩⟩ (Or.inr (Or.inl hmismatch))
        intro addr haddr
        simp only [List.getLastD_eq_getLast?, haddr, Option.getD_some]
  · rw [udpReceive_of_other hfamily]
    refine iff_of_true ⟨fun _ => ⟨rfl, rfl⟩, fun h => absurd rfl h⟩ (Or.inr (Or.inr ?_))
    intro host _
    rw [acceptedAddrs_of_other hfamily, List.getLastD_nil]

/-- What Linux reports of an IPv4 datagram to a dual-stack socket with both options: the second record
ends the call after the first has been stored. -/
theorem not_allOrNothing_of_mapped :
    let msg : RecvMsg := ⟨12, .inet6 ⟨13400, 0, 0xffffc0a80007, 0⟩,
      [.ipv6Pktinfo ⟨0xffffc0a80001, 2⟩, .ipPktinfo ⟨2, 0xc0a80001, 0xc0a80001⟩]⟩
    let r := udpReceive msg (some .monostate) none
    r = ⟨-1, some (.in6Addr 0xffffc0a80001), none⟩ ∧
      ¬AllOrNothing msg (some .monostate) none r := by
  intro msg r
  refine ⟨by decide, ?_⟩
  intro h
  have hhost := (h.1 rfl).1
  cases hhost

end Suc.Net
