import Mathlib.Logic.Function.Basic
import Suc.Cmn.Error

/-!
# Sockets

`create_bound_socket`, `prepare_for_udp_receive` and `udp_receive` over a table of the open sockets.
What the kernel answers to a system call is a parameter; a call that succeeds changes the table as it
says. A pointer that may be null is an `Option` of what it points to.
-/

namespace Suc.Net

/-! ### Addresses -/

abbrev InAddr := BitVec 32

abbrev In6Addr := BitVec 128

/-- `std::variant<std::monostate, in_addr, in6_addr>`. -/
inductive InaddrStorage where
  | monostate
  | inAddr (addr : InAddr)
  | in6Addr (addr : In6Addr)
  deriving DecidableEq, Repr

def afUnspec : Nat := 0

def afInet : Nat := 2

def afInet6 : Nat := 10

structure SockaddrIn where
  port : BitVec 16
  addr : InAddr
  deriving DecidableEq, Repr

structure SockaddrIn6 where
  port : BitVec 16
  flowinfo : BitVec 32
  addr : In6Addr
  scopeId : BitVec 32
  deriving DecidableEq, Repr

/-- A `sockaddr_storage` by its family; `other` keeps the family and the bytes behind it. -/
inductive SockaddrStorage where
  | inet (sockaddr : SockaddrIn)
  | inet6 (sockaddr : SockaddrIn6)
  | other (family : Nat) (data : List (BitVec 8)) (hfamily : family ≠ afInet ∧ family ≠ afInet6)
  deriving DecidableEq, Repr

def SockaddrStorage.family : SockaddrStorage → Nat
  | .inet _ => afInet
  | .inet6 _ => afInet6
  | .other family _ _ => family

/-! ### The kernel -/

structure Hints where
  family : Nat
  socktype : Nat
  flags : Nat
  deriving DecidableEq, Repr

structure Addrinfo where
  family : Nat
  socktype : Nat
  protocol : Nat
  addr : SockaddrStorage
  deriving DecidableEq, Repr

inductive SockOpt where
  | reuseAddr
  | ipPktinfo
  | ipv6RecvPktinfo
  deriving DecidableEq, Repr

structure Sock where
  domain : Nat
  type : Nat
  protocol : Nat
  v6only : Bool
  bound : Option Addrinfo := none
  reuseAddr : Bool := false
  ipPktinfo : Bool := false
  ipv6RecvPktinfo : Bool := false
  deriving DecidableEq, Repr

def Sock.enable (sock : Sock) : SockOpt → Sock
  | .reuseAddr => { sock with reuseAddr := true }
  | .ipPktinfo => { sock with ipPktinfo := true }
  | .ipv6RecvPktinfo => { sock with ipv6RecvPktinfo := true }

abbrev Sockets := Int → Option Sock

/-- The answers of the resolver and of the kernel, for the sockets that are open and the one the call
is for: `none` is success. -/
structure Kernel where
  getaddrinfo : String → Hints → Except String (List Addrinfo)
  bindv6only : Bool
  socket : Sockets → Nat → Nat → Nat → Except Errno Int
  bind : Sockets → Sock → Addrinfo → Option Errno
  setsockopt : Sockets → Sock → SockOpt → Option Errno

namespace Kernel

variable (k : Kernel)

def openSocket (sockets : Sockets) (domain type protocol : Nat) : Except Errno Int × Sockets :=
  match k.socket sockets domain type protocol with
  | .error errnum => (.error errnum, sockets)
  | .ok fd =>
      let sock : Sock := { domain, type, protocol, v6only := k.bindv6only }
      (.ok fd, Function.update sockets fd (some sock))

def bindSocket (sockets : Sockets) (fd : Int) (p : Addrinfo) : Option Errno × Sockets :=
  match sockets fd with
  | none => (some ebadf, sockets)
  | some sock =>
      match k.bind sockets sock p with
      | some errnum => (some errnum, sockets)
      | none => (none, Function.update sockets fd (some { sock with bound := some p }))

def enableOption (sockets : Sockets) (fd : Int) (opt : SockOpt) : Option Errno × Sockets :=
  match sockets fd with
  | none => (some ebadf, sockets)
  | some sock =>
      match k.setsockopt sockets sock opt with
      | some errnum => (some errnum, sockets)
      | none => (none, Function.update sockets fd (some (sock.enable opt)))

end Kernel

def close (sockets : Sockets) (fd : Int) : Sockets := Function.update sockets fd none

/-! ### `create_bound_socket` -/

inductive SocketType where
  | tcp
  | udp
  deriving DecidableEq, Repr

def sockStream : Nat := 1

def sockDgram : Nat := 2

def sockNonblock : Nat := 0x800

def sockCloexec : Nat := 0x80000

def aiPassive : Nat := 0x001

def aiNumericserv : Nat := 0x400

def socketTypeToAiSockType : SocketType → Nat
  | .tcp => sockStream
  | .udp => sockDgram

def socketFlags (nonBlocking : Bool) : Nat :=
  sockCloexec ||| (if nonBlocking then sockNonblock else 0)

/-- The loop over the candidates. -/
def bindFirst (k : Kernel) (nonBlocking reuseAddr : Bool) :
    List Addrinfo → Sockets → Int × Sockets
  | [], sockets => (-1, sockets)
  | p :: candidates, sockets =>
      match k.openSocket sockets p.family (p.socktype ||| socketFlags nonBlocking) p.protocol with
      | (.error _, sockets) => bindFirst k nonBlocking reuseAddr candidates sockets
      | (.ok sockfd, sockets) =>
          match k.bindSocket sockets sockfd p with
          | (some _, sockets) =>
              bindFirst k nonBlocking reuseAddr candidates (close sockets sockfd)
          | (none, sockets) =>
              if reuseAddr then
                match k.enableOption sockets sockfd .reuseAddr with
                | (some _, sockets) =>
                    bindFirst k nonBlocking reuseAddr candidates (close sockets sockfd)
                | (none, sockets) => (sockfd, sockets)
              else
                (sockfd, sockets)

def boundHints (socketType : SocketType) : Hints where
  family := afUnspec
  socktype := socketTypeToAiSockType socketType
  flags := aiNumericserv ||| aiPassive

def createBoundSocket (k : Kernel) (socketType : SocketType) (port : BitVec 16)
    (nonBlocking reuseAddr : Bool) (sockets : Sockets) : Int × Sockets :=
  match k.getaddrinfo (toString port.toNat) (boundHints socketType) with
  | .error _ => (-1, sockets)
  | .ok servinfo => bindFirst k nonBlocking reuseAddr servinfo sockets

/-! ### `prepare_for_udp_receive` -/

/-- Which of the two options were enabled. Neither call depends on the outcome of the other. -/
def prepareForUdpReceive (k : Kernel) (sock : Int) (sockets : Sockets) :
    (Bool × Bool) × Sockets :=
  let (ipv4, sockets) := k.enableOption sockets sock .ipPktinfo
  let (ipv6, sockets) := k.enableOption sockets sock .ipv6RecvPktinfo
  ((ipv4.isNone, ipv6.isNone), sockets)

/-! ### `udp_receive` -/

structure InPktinfo where
  ifindex : Nat
  specDst : InAddr
  addr : InAddr
  deriving DecidableEq, Repr

structure In6Pktinfo where
  addr : In6Addr
  ifindex : Nat
  deriving DecidableEq, Repr

def ipprotoIp : Nat := 0

def ipPktinfo : Nat := 8

def ipprotoIpv6 : Nat := 41

def ipv6Pktinfo : Nat := 50

/-- A control record by its level and type. -/
inductive Cmsg where
  | ipPktinfo (pktinfo : InPktinfo)
  | ipv6Pktinfo (pktinfo : In6Pktinfo)
  | other (level type : Nat)
      (hother : (level, type) ≠ (ipprotoIp, ipPktinfo) ∧ (level, type) ≠ (ipprotoIpv6, ipv6Pktinfo))
  deriving DecidableEq, Repr

/-- What `recvmsg` returns and stores: its value, the source address and the control records. -/
structure RecvMsg where
  rv : Int
  name : SockaddrStorage
  control : List Cmsg
  deriving DecidableEq, Repr

/-- The loop over the control records: whether it runs to the end, and `*host_addr`. -/
def handleControl (name : SockaddrStorage) :
    List Cmsg → Option InaddrStorage → Bool × Option InaddrStorage
  | [], hostAddr => (true, hostAddr)
  | .ipPktinfo pktinfo :: control, hostAddr =>
      if name.family ≠ afInet then
        (false, hostAddr)
      else
        handleControl name control (hostAddr.map fun _ => .inAddr pktinfo.specDst)
  | .ipv6Pktinfo pktinfo :: control, hostAddr =>
      if name.family ≠ afInet6 then
        (false, hostAddr)
      else
        handleControl name control (hostAddr.map fun _ => .in6Addr pktinfo.addr)
  | .other _ _ _ :: control, hostAddr => handleControl name control hostAddr

structure Received where
  rv : Int
  hostAddr : Option InaddrStorage
  peerAddr : Option SockaddrStorage
  deriving DecidableEq, Repr

def udpReceive (msg : RecvMsg) (hostAddr : Option InaddrStorage)
    (peerAddr : Option SockaddrStorage) : Received :=
  if msg.rv = -1 then
    ⟨-1, hostAddr, peerAddr⟩
  else
    match handleControl msg.name msg.control hostAddr with
    | (false, hostAddr) => ⟨-1, hostAddr, peerAddr⟩
    | (true, hostAddr) =>
        if msg.name.family = afInet ∨ msg.name.family = afInet6 then
          ⟨msg.rv, hostAddr, peerAddr.map fun _ => msg.name⟩
        else
          ⟨-1, hostAddr, peerAddr⟩

end Suc.Net
