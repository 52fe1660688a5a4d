import Suc.Cmn.Endian
import Suc.Layout.Block
import Suc.Net.Sock

/-!
# Interfaces

`get_ifacename` looks for the first address in the list of `getifaddrs` that is the one it is given.
The bytes that are compared lie at an offset of a `sockaddr` that depends on the family. A result is
`none` where a comparison would read behind the end of an address.
-/

namespace Suc.Net

open Layout

/-! ### Addresses in memory -/

def networkOrder (n k : Nat) : List Byte := (littleEndian n k).reverse

def hostOrder (native : Cmn.Endian) (n k : Nat) : List Byte :=
  match native with
  | .little => littleEndian n k
  | .big => (littleEndian n k).reverse

/-- The bytes of a `sockaddr_in`, a `sockaddr_in6`, or an address that is neither. -/
def SockaddrStorage.bytes (native : Cmn.Endian) : SockaddrStorage → List Byte
  | .inet sa =>
      hostOrder native 2 afInet ++ networkOrder 2 sa.port.toNat ++
        networkOrder 4 sa.addr.toNat ++ List.replicate 8 0
  | .inet6 sa =>
      hostOrder native 2 afInet6 ++ networkOrder 2 sa.port.toNat ++
        networkOrder 4 sa.flowinfo.toNat ++ networkOrder 16 sa.addr.toNat ++
        hostOrder native 4 sa.scopeId.toNat
  | .other family data _ => hostOrder native 2 family ++ data

/-- An entry of the list of `getifaddrs`. -/
structure Ifaddrs where
  name : String
  addr : Option SockaddrStorage
  deriving DecidableEq

/-! ### Matching -/

/-- The template parameters: the family, and the size of the address and where it lies. -/
structure AddressType where
  family : Nat
  size : Nat
  offset : Nat

def sinAddr : AddressType := ⟨afInet, 4, 4⟩

def sin6Addr : AddressType := ⟨afInet6, 16, 8⟩

def getAddress (t : AddressType) (sa : List Byte) : Option (List Byte) :=
  load sa t.offset t.size

variable (native : Cmn.Endian)

def matchSaAddress (t : AddressType) (sa : SockaddrStorage) (address : List Byte) : Option Bool :=
  if sa.family ≠ t.family then
    some false
  else
    (getAddress t (sa.bytes native)).map fun ifaceAddress => decide (ifaceAddress = address)

def matchSaSa (t : AddressType) (sa1 sa2 : SockaddrStorage) : Option Bool :=
  if sa1.family ≠ t.family ∨ sa2.family ≠ t.family then
    some false
  else
    (getAddress t (sa1.bytes native)).bind fun ifaceAddress1 =>
      (getAddress t (sa2.bytes native)).map fun ifaceAddress2 =>
        decide (ifaceAddress1 = ifaceAddress2)

/-- The loop over the list, for either test of an address. -/
def firstName (test : SockaddrStorage → Option Bool) : List Ifaddrs → Option (Option String)
  | [] => some none
  | ifa :: ifaddrs =>
      match ifa.addr with
      | none => firstName test ifaddrs
      | some sa =>
          match test sa with
          | none => none
          | some true => some (some ifa.name)
          | some false => firstName test ifaddrs

/-! ### `get_ifacename` -/

def getIfaceName (t : AddressType) (ifap : Except String (List Ifaddrs)) (address : List Byte) :
    Option (Option String) :=
  match ifap with
  | .error _ => some none
  | .ok ifaddrs => firstName (fun sa => matchSaAddress native t sa address) ifaddrs

def getIfacenameInAddr (ifap : Except String (List Ifaddrs)) (address : InAddr) :
    Option (Option String) :=
  getIfaceName native sinAddr ifap (networkOrder 4 address.toNat)

def getIfacenameIn6Addr (ifap : Except String (List Ifaddrs)) (address : In6Addr) :
    Option (Option String) :=
  getIfaceName native sin6Addr ifap (networkOrder 16 address.toNat)

def getIfacenameInaddrStorage (ifap : Except String (List Ifaddrs)) :
    InaddrStorage → Option (Option String)
  | .inAddr arg => getIfacenameInAddr native ifap arg
  | .in6Addr arg => getIfacenameIn6Addr native ifap arg
  | .monostate => some none

/-- The tests of the overload for a `sockaddr`, of which the second is made if the first fails. -/
def testSockaddr (sa ifaAddr : SockaddrStorage) : Option Bool :=
  if ifaAddr.family ≠ sa.family then
    some false
  else
    (matchSaSa native sinAddr ifaAddr sa).bind fun found =>
      if found then some true else matchSaSa native sin6Addr ifaAddr sa

def getIfacenameSockaddr (ifap : Except String (List Ifaddrs)) (sa : SockaddrStorage) :
    Option (Option String) :=
  match ifap with
  | .error _ => some none
  | .ok ifaddrs => firstName (testSockaddr native sa) ifaddrs

end Suc.Net
