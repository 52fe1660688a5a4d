import Suc.Net.Iface

/-!
# The interface of an address

No comparison reads behind the end of an address, and both loops find the first entry of the family
with the address. The one for a `sockaddr` does not look at the scope, so when interfaces share an
address it finds the first of them.
-/

namespace Suc.Net

open Layout

/-! ### Bytes -/

@[simp]
theorem length_networkOrder (n k : Nat) : (networkOrder n k).length = n := by
  rw [networkOrder, List.length_reverse, length_littleEndian]

@[simp]
theorem length_hostOrder (native : Cmn.Endian) (n k : Nat) : (hostOrder native n k).length = n := by
  cases native <;> simp [hostOrder]

theorem networkOrder_inj {n w : Nat} (hw : 2 ^ w = 256 ^ n) (a b : BitVec w) :
    networkOrder n a.toNat = networkOrder n b.toNat ↔ a = b := by
  refine ⟨fun h => ?_, fun h => by rw [h]⟩
  have hnumber := congrArg number (List.reverse_injective h)
  rw [number_littleEndian, number_littleEndian, ← hw, Nat.mod_eq_of_lt a.isLt,
    Nat.mod_eq_of_lt b.isLt] at hnumber
  exact BitVec.eq_of_toNat_eq hnumber

variable (native : Cmn.Endian)

theorem getAddress_inet (sa : SockaddrIn) :
    getAddress sinAddr ((SockaddrStorage.inet sa).bytes native) =
      some (networkOrder 4 sa.addr.toNat) :=
  load_eq_some_iff.mpr ⟨_, _, rfl, by simp [sinAddr], by simp [sinAddr]⟩

theorem getAddress_inet6 (sa : SockaddrIn6) :
    getAddress sin6Addr ((SockaddrStorage.inet6 sa).bytes native) =
      some (networkOrder 16 sa.addr.toNat) :=
  load_eq_some_iff.mpr ⟨_, _, rfl, by simp [sin6Addr], by simp [sin6Addr]⟩

/-! ### Tests -/

def SockaddrStorage.hasInAddr (addr : InAddr) : SockaddrStorage → Bool
  | .inet sa => decide (sa.addr = addr)
  | _ => false

def SockaddrStorage.hasIn6Addr (addr : In6Addr) : SockaddrStorage → Bool
  | .inet6 sa => decide (sa.addr = addr)
  | _ => false

theorem matchSaAddress_sinAddr (sa : SockaddrStorage) (addr : InAddr) :
    matchSaAddress native sinAddr sa (networkOrder 4 addr.toNat) = some (sa.hasInAddr addr) := by
  cases sa with
  | inet sa =>
      have hfamily : (SockaddrStorage.inet sa).family = sinAddr.family := rfl
      simp [matchSaAddress, hfamily, getAddress_inet, networkOrder_inj, SockaddrStorage.hasInAddr]
  | inet6 sa => rfl
  | other family data hfamily =>
      have hne : family ≠ sinAddr.family := hfamily.1
      simp [matchSaAddress, SockaddrStorage.family, hne, SockaddrStorage.hasInAddr]

theorem matchSaAddress_sin6Addr (sa : SockaddrStorage) (addr : In6Addr) :
    matchSaAddress native sin6Addr sa (networkOrder 16 addr.toNat) = some (sa.hasIn6Addr addr) := by
  cases sa with
  | inet sa => rfl
  | inet6 sa =>
      have hfamily : (SockaddrStorage.inet6 sa).family = sin6Addr.family := rfl
      simp [matchSaAddress, hfamily, getAddress_inet6, networkOrder_inj, SockaddrStorage.hasIn6Addr]
  | other family data hfamily =>
      have hne : family ≠ sin6Addr.family := hfamily.2
      simp [matchSaAddress, SockaddrStorage.family, hne, SockaddrStorage.hasIn6Addr]

/-- Once the families are the same, a comparison of two addresses is one with the bytes of the
second. -/
theorem matchSaSa_eq {t : AddressType} {sa : SockaddrStorage} {address : List Byte}
    (hfamily : sa.family = t.family) (haddress : getAddress t (sa.bytes native) = some address)
    (sa1 : SockaddrStorage) : matchSaSa native t sa1 sa = matchSaAddress native t sa1 address := by
  unfold matchSaSa matchSaAddress
  by_cases hne : sa1.family = t.family
  · cases getAddress t (sa1.bytes native) <;> simp [hne, hfamily, haddress]
  · simp [hne]

theorem matchSaSa_of_ne {t : AddressType} {sa : SockaddrStorage} (hne : sa.family ≠ t.family)
    (sa1 : SockaddrStorage) : matchSaSa native t sa1 sa = some false := by
  simp [matchSaSa, hne]

/-- The filter by family in front of the comparisons changes nothing: each has its own. -/
theorem testSockaddr_eq (sa ifaAddr : SockaddrStorage) :
    testSockaddr native sa ifaAddr =
      (matchSaSa native sinAddr ifaAddr sa).bind fun found =>
        if found then some true else matchSaSa native sin6Addr ifaAddr sa := by
  unfold testSockaddr
  by_cases hne : ifaAddr.family = sa.family
  · rw [if_neg (not_not.mpr hne)]
  · have hfilter (t : AddressType) : matchSaSa native t ifaAddr sa = some false := by
      have hfamilies : ifaAddr.family ≠ t.family ∨ sa.family ≠ t.family := by
        by_contra hboth
        simp only [not_or, not_not] at hboth
        exact hne (hboth.1.trans hboth.2.symm)
      rw [matchSaSa, if_pos hfamilies]
    rw [if_pos hne, hfilter, hfilter]
    rfl

theorem testSockaddr_inet (sa : SockaddrIn) (ifaAddr : SockaddrStorage) :
    testSockaddr native (.inet sa) ifaAddr = some (ifaAddr.hasInAddr sa.addr) := by
  have hfamily : (SockaddrStorage.inet sa).family ≠ sin6Addr.family := by
    simp [SockaddrStorage.family, sin6Addr, afInet, afInet6]
  rw [testSockaddr_eq, matchSaSa_eq native rfl (getAddress_inet native sa), matchSaAddress_sinAddr,
    matchSaSa_of_ne native hfamily]
  cases hhas : ifaAddr.hasInAddr sa.addr <;> rfl

theorem testSockaddr_inet6 (sa : SockaddrIn6) (ifaAddr : SockaddrStorage) :
    testSockaddr native (.inet6 sa) ifaAddr = some (ifaAddr.hasIn6Addr sa.addr) := by
  have hfamily : (SockaddrStorage.inet6 sa).family ≠ sinAddr.family := by
    simp [SockaddrStorage.family, sinAddr, afInet, afInet6]
  rw [testSockaddr_eq, matchSaSa_of_ne native hfamily,
    matchSaSa_eq native rfl (getAddress_inet6 native sa), matchSaAddress_sin6Addr]
  rfl

theorem testSockaddr_other (family : Nat) (data : List Byte)
    (hfamily : family ≠ afInet ∧ family ≠ afInet6) (ifaAddr : SockaddrStorage) :
    testSockaddr native (.other family data hfamily) ifaAddr = some false := by
  have hsin : (SockaddrStorage.other family data hfamily).family ≠ sinAddr.family := hfamily.1
  have hsin6 : (SockaddrStorage.other family data hfamily).family ≠ sin6Addr.family := hfamily.2
  rw [testSockaddr_eq, matchSaSa_of_ne native hsin, matchSaSa_of_ne native hsin6]
  rfl

/-! ### The loop -/

/-- The first entry with an address that meets the condition. -/
def nameOfFirst (p : SockaddrStorage → Bool) (ifaddrs : List Ifaddrs) : Option String :=
  (ifaddrs.find? fun ifa => ifa.addr.any p).map Ifaddrs.name

theorem firstName_eq {test : SockaddrStorage → Option Bool} {p : SockaddrStorage → Bool}
    (htest : ∀ sa, test sa = some (p sa)) (ifaddrs : List Ifaddrs) :
    firstName test ifaddrs = some (nameOfFirst p ifaddrs) := by
  induction ifaddrs with
  | nil => rfl
  | cons ifa ifaddrs ih =>
      obtain ⟨name, addr⟩ := ifa
      cases addr with
      | none => simpa [firstName, nameOfFirst] using ih
      | some sa =>
          cases hsa : p sa with
          | true => simp [firstName, nameOfFirst, htest, hsa]
          | false => simpa [firstName, nameOfFirst, htest, hsa] using ih

theorem nameOfFirst_false (ifaddrs : List Ifaddrs) : nameOfFirst (fun _ => false) ifaddrs = none := by
  simp [nameOfFirst]

/-- The list that `getifaddrs` gives, which is empty if it fails. -/
def listed (ifap : Except String (List Ifaddrs)) : List Ifaddrs :=
  match ifap with
  | .error _ => []
  | .ok ifaddrs => ifaddrs

theorem getIfaceName_eq {t : AddressType} {address : List Byte} {p : SockaddrStorage → Bool}
    (hmatch : ∀ sa, matchSaAddress native t sa address = some (p sa))
    (ifap : Except String (List Ifaddrs)) :
    getIfaceName native t ifap address = some (nameOfFirst p (listed ifap)) := by
  cases ifap with
  | error what => rfl
  | ok ifaddrs => exact firstName_eq hmatch ifaddrs

theorem getIfacenameSockaddr_eq {sa : SockaddrStorage} {p : SockaddrStorage → Bool}
    (htest : ∀ ifaAddr, testSockaddr native sa ifaAddr = some (p ifaAddr))
    (ifap : Except String (List Ifaddrs)) :
    getIfacenameSockaddr native ifap sa = some (nameOfFirst p (listed ifap)) := by
  cases ifap with
  | error what => rfl
  | ok ifaddrs => exact firstName_eq htest ifaddrs

theorem getIfacenameInAddr_eq (ifap : Except String (List Ifaddrs)) (addr : InAddr) :
    getIfacenameInAddr native ifap addr =
      some (nameOfFirst (SockaddrStorage.hasInAddr addr) (listed ifap)) :=
  getIfaceName_eq native (fun sa => matchSaAddress_sinAddr native sa addr) ifap

theorem getIfacenameIn6Addr_eq (ifap : Except String (List Ifaddrs)) (addr : In6Addr) :
    getIfacenameIn6Addr native ifap addr =
      some (nameOfFirst (SockaddrStorage.hasIn6Addr addr) (listed ifap)) :=
  getIfaceName_eq native (fun sa => matchSaAddress_sin6Addr native sa addr) ifap

/-- **One lookup.** The interface of a `sockaddr` is that of the address in it, however the address is
given: the first entry of the list with an address of the family and the same bytes. -/
theorem getIfacename_agree (ifap : Except String (List Ifaddrs)) :
    (∀ sa : SockaddrIn,
      getIfacenameSockaddr native ifap (.inet sa) =
          some (nameOfFirst (SockaddrStorage.hasInAddr sa.addr) (listed ifap)) ∧
        getIfacenameInAddr native ifap sa.addr = getIfacenameSockaddr native ifap (.inet sa) ∧
        getIfacenameInaddrStorage native ifap (.inAddr sa.addr) =
          getIfacenameSockaddr native ifap (.inet sa)) ∧
    (∀ sa : SockaddrIn6,
      getIfacenameSockaddr native ifap (.inet6 sa) =
          some (nameOfFirst (SockaddrStorage.hasIn6Addr sa.addr) (listed ifap)) ∧
        getIfacenameIn6Addr native ifap sa.addr = getIfacenameSockaddr native ifap (.inet6 sa) ∧
        getIfacenameInaddrStorage native ifap (.in6Addr sa.addr) =
          getIfacenameSockaddr native ifap (.inet6 sa)) ∧
    (∀ family data hfamily,
      getIfacenameSockaddr native ifap (.other family data hfamily) = some none) ∧
    getIfacenameInaddrStorage native ifap .monostate = some none := by
  refine ⟨fun sa => ?_, fun sa => ?_, fun family data hfamily => ?_, rfl⟩
  · have hsockaddr := getIfacenameSockaddr_eq native (testSockaddr_inet native sa) ifap
    have haddr := (getIfacenameInAddr_eq native ifap sa.addr).trans hsockaddr.symm
    exact ⟨hsockaddr, haddr, haddr⟩
  · have hsockaddr := getIfacenameSockaddr_eq native (testSockaddr_inet6 native sa) ifap
    have haddr := (getIfacenameIn6Addr_eq native ifap sa.addr).trans hsockaddr.symm
    exact ⟨hsockaddr, haddr, haddr⟩
  · rw [getIfacenameSockaddr_eq native (testSockaddr_other native family data hfamily) ifap,
      nameOfFirst_false]

/-! ### Scopes -/

/-- The entry has the address in the scope. -/
def Ifaddrs.Carries (ifa : Ifaddrs) (addr : In6Addr) (scopeId : BitVec 32) : Prop :=
  ∃ sa, ifa.addr = some (.inet6 sa) ∧ sa.addr = addr ∧ sa.scopeId = scopeId

/-- The name is that of an entry with the address and the scope, and there is one if there is such an
entry. -/
def NamesScope (ifaddrs : List Ifaddrs) (sa : SockaddrIn6) (name : Option String) : Prop :=
  (∀ n, name = some n → ∃ ifa ∈ ifaddrs, ifa.name = n ∧ ifa.Carries sa.addr sa.scopeId) ∧
    ((∃ ifa ∈ ifaddrs, ifa.Carries sa.addr sa.scopeId) → name.isSome)

/-- The first entry with an address. -/
def firstEntry (ifaddrs : List Ifaddrs) (addr : In6Addr) : Option Ifaddrs :=
  ifaddrs.find? fun ifa => ifa.addr.any (SockaddrStorage.hasIn6Addr addr)

/-- `fe80::/10`. -/
def isLinkLocal (addr : In6Addr) : Bool := decide (addr >>> 118 = 0x3fa#128)

/-- Link-local entries carry the scope id of their interface. -/
def ScopedBy (index : String → BitVec 32) (ifaddrs : List Ifaddrs) : Prop :=
  ∀ ifa ∈ ifaddrs, ∀ sa, ifa.addr = some (.inet6 sa) → isLinkLocal sa.addr →
    sa.scopeId = index ifa.name

theorem hasIn6Addr_iff {ifa : Ifaddrs} {addr : In6Addr} :
    ifa.addr.any (SockaddrStorage.hasIn6Addr addr) = true ↔
      ∃ sa, ifa.addr = some (.inet6 sa) ∧ sa.addr = addr := by
  obtain ⟨name, _ | sa⟩ := ifa
  · simp
  · cases sa <;> simp [SockaddrStorage.hasIn6Addr]

theorem of_firstEntry {ifaddrs : List Ifaddrs} {addr : In6Addr} {first : Ifaddrs}
    (hfirst : firstEntry ifaddrs addr = some first) :
    first ∈ ifaddrs ∧ ∃ sa, first.addr = some (.inet6 sa) ∧ sa.addr = addr := by
  have hfound := List.find?_some hfirst
  exact ⟨List.mem_of_find?_eq_some hfirst, hasIn6Addr_iff.mp hfound⟩

/-- **Scopes.** The name that is found is the one the scope asks for exactly when the first entry with
the address is of an interface with that scope. -/
theorem namesScope_iff (ifaddrs : List Ifaddrs) (sa : SockaddrIn6) :
    ∃ name, getIfacenameSockaddr native (.ok ifaddrs) (.inet6 sa) = some name ∧
      (NamesScope ifaddrs sa name ↔ ∀ first, firstEntry ifaddrs sa.addr = some first →
        ∃ ifa ∈ ifaddrs, ifa.name = first.name ∧ ifa.Carries sa.addr sa.scopeId) ∧
      ∀ index, ScopedBy index ifaddrs → isLinkLocal sa.addr →
        (NamesScope ifaddrs sa name ↔ ∀ first, firstEntry ifaddrs sa.addr = some first →
          first.Carries sa.addr sa.scopeId) := by
  have hname : getIfacenameSockaddr native (.ok ifaddrs) (.inet6 sa) =
      some ((firstEntry ifaddrs sa.addr).map Ifaddrs.name) :=
    getIfacenameSockaddr_eq native (testSockaddr_inet6 native sa) (.ok ifaddrs)
  have hgeneral : NamesScope ifaddrs sa ((firstEntry ifaddrs sa.addr).map Ifaddrs.name) ↔
      ∀ first, firstEntry ifaddrs sa.addr = some first →
        ∃ ifa ∈ ifaddrs, ifa.name = first.name ∧ ifa.Carries sa.addr sa.scopeId := by
    constructor
    · rintro ⟨hnamed, -⟩ first hfirst
      exact hnamed first.name (by rw [hfirst]; rfl)
    · intro hfirst
      refine ⟨fun n hn => ?_, ?_⟩
      · obtain ⟨first, hfind, rfl⟩ := Option.map_eq_some_iff.mp hn
        exact hfirst first hfind
      · -- an entry with the address in the scope is an entry with the address
        rintro ⟨ifa, hmem, sa', haddr, heq, -⟩
        rw [Option.isSome_map, firstEntry, List.find?_isSome]
        exact ⟨ifa, hmem, hasIn6Addr_iff.mpr ⟨sa', haddr, heq⟩⟩
  refine ⟨_, hname, hgeneral, fun index hscoped hlinkLocal => ?_⟩
  rw [hgeneral]
  refine forall₂_congr fun first hfirst => ?_
  obtain ⟨hmem, sa₁, haddr₁, heq₁⟩ := of_firstEntry hfirst
  constructor
  · rintro ⟨ifa, hifa, hsame, sa', haddr, heq, hscope⟩
    refine ⟨sa₁, haddr₁, heq₁, ?_⟩
    calc sa₁.scopeId = index first.name := hscoped first hmem sa₁ haddr₁ (by rwa [heq₁])
      _ = index ifa.name := by rw [hsame]
      _ = sa'.scopeId := (hscoped ifa hifa sa' haddr (by rwa [heq])).symm
      _ = sa.scopeId := hscope
  · exact fun hcarries => ⟨first, hmem, rfl, hcarries⟩

/-- `fe80::1` in a scope. -/
def linkLocal (scopeId : BitVec 32) : SockaddrIn6 :=
  ⟨0, 0, 0xfe800000000000000000000000000001, scopeId⟩

/-- An interface and a VLAN over it, with the same link-local address. -/
def vlanIfaddrs : List Ifaddrs :=
  [⟨"lo", some (.inet ⟨0, 0x7f000001⟩)⟩, ⟨"tun0", none⟩, ⟨"eth0", some (.inet6 (linkLocal 2))⟩,
    ⟨"eth0.5", some (.inet6 (linkLocal 3))⟩]

theorem scopedBy_vlanIfaddrs :
    ScopedBy (fun name => if name = "eth0" then 2 else 3) vlanIfaddrs := by
  intro ifa hmem sa haddr hlinkLocal
  simp only [vlanIfaddrs, List.mem_cons, List.not_mem_nil, or_false] at hmem
  rcases hmem with rfl | rfl | rfl | rfl
  · cases haddr
  · cases haddr
  · obtain rfl : linkLocal 2 = sa := by simpa using haddr
    rfl
  · obtain rfl : linkLocal 3 = sa := by simpa using haddr
    rfl

/-- The interface that comes first is found for its own scope. -/
theorem namesScope_iff_first :
    ∃ name, getIfacenameSockaddr .little (.ok vlanIfaddrs) (.inet6 (linkLocal 2)) = some name ∧
      NamesScope vlanIfaddrs (linkLocal 2) name := by
  obtain ⟨name, hname, -, hiff⟩ := namesScope_iff .little vlanIfaddrs (linkLocal 2)
  refine ⟨name, hname, (hiff _ scopedBy_vlanIfaddrs (by decide)).mpr ?_⟩
  intro first hfirst
  obtain rfl : ⟨"eth0", some (.inet6 (linkLocal 2))⟩ = first := Option.some.inj hfirst
  exact ⟨linkLocal 2, rfl, rfl, rfl⟩

/-- For the scope of the VLAN, the interface below it is found. -/
theorem not_namesScope_of_vlan :
    ScopedBy (fun name => if name = "eth0" then 2 else 3) vlanIfaddrs ∧
      (linkLocal 3).scopeId ≠ 0 ∧
      (∃ ifa ∈ vlanIfaddrs, ifa.name = "eth0.5" ∧
        ifa.Carries (linkLocal 3).addr (linkLocal 3).scopeId) ∧
      getIfacenameSockaddr .little (.ok vlanIfaddrs) (.inet6 (linkLocal 3)) = some (some "eth0") ∧
      ¬NamesScope vlanIfaddrs (linkLocal 3) (some "eth0") := by
  refine ⟨scopedBy_vlanIfaddrs, by decide, ⟨⟨"eth0.5", some (.inet6 (linkLocal 3))⟩, ?_⟩, ?_, ?_⟩
  · exact ⟨by simp [vlanIfaddrs], rfl, linkLocal 3, rfl, rfl, rfl⟩
  · exact getIfacenameSockaddr_eq .little (testSockaddr_inet6 .little (linkLocal 3)) (.ok vlanIfaddrs)
  · rintro ⟨hnamed, -⟩
    obtain ⟨ifa, hmem, hname, sa, haddr, heq, hscope⟩ := hnamed "eth0" rfl
    have hlinkLocal : isLinkLocal sa.addr := by
      rw [heq]
      decide
    have hindex := scopedBy_vlanIfaddrs ifa hmem sa haddr hlinkLocal
    rw [hscope, hname] at hindex
    exact absurd hindex (by decide)

end Suc.Net
