import Suc.Net.Sock
import Suc.Transition.Handles

/-!
# Sockets by fallback

`create_bound_socket` and `create_connected_socket` go through the candidates of the resolver until
one gives a socket. Here every candidate comes with what the kernel answers to the calls that are made
for it, whatever these answers are, and the functions return the system calls they have made beside
their result.
-/

namespace Suc.Net.Fallback

open Transition

def oNonblock : BitVec 32 := 0x800

/-- The answers to the calls made for a candidate. `none` is success, and `getfl` is the `int` that
`fcntl` returns, which is negative when it fails. -/
structure Answers where
  socket : Except Errno Int
  bind : Option Errno := none
  connect : Option Errno := none
  setsockopt : Option Errno := none
  getfl : BitVec 32 := 0
  setfl : Option Errno := none

structure Candidate where
  info : Addrinfo
  answers : Answers

inductive SysCall where
  | socket (domain type protocol : Nat) (result : Except Errno Int)
  | bind (sockfd : Int) (p : Addrinfo) (failure : Option Errno)
  | connect (sockfd : Int) (p : Addrinfo) (failure : Option Errno)
  | setsockopt (sockfd : Int) (opt : SockOpt) (failure : Option Errno)
  | getfl (sockfd : Int) (flags : BitVec 32)
  | setfl (sockfd : Int) (flags : BitVec 32) (failure : Option Errno)
  | close (sockfd : Int)

/-- What a call does to the table of the open descriptors. -/
def SysCall.handle : SysCall → Option (HandleLabel Int)
  | .socket _ _ _ (.ok sockfd) => some (.acquire sockfd)
  | .close sockfd => some (.release sockfd)
  | _ => none

/-- The body of the loop of `create_bound_socket`: the socket if it is returned, and the calls. -/
def tryBind (nonBlocking reuseAddr : Bool) (c : Candidate) : Option Int × List SysCall :=
  let p := c.info
  let opening := SysCall.socket p.family (p.socktype ||| socketFlags nonBlocking) p.protocol
    c.answers.socket
  match c.answers.socket with
  | .error _ => (none, [opening])
  | .ok sockfd =>
      match c.answers.bind with
      | some errnum => (none, [opening, .bind sockfd p (some errnum), .close sockfd])
      | none =>
          if reuseAddr then
            match c.answers.setsockopt with
            | some errnum =>
                (none, [opening, .bind sockfd p none,
                  .setsockopt sockfd .reuseAddr (some errnum), .close sockfd])
            | none =>
                (some sockfd, [opening, .bind sockfd p none, .setsockopt sockfd .reuseAddr none])
          else
            (some sockfd, [opening, .bind sockfd p none])

/-- The body of the loop of `create_connected_socket`. The socket is made non-blocking only when it
is connected. -/
def tryConnect (nonBlocking : Bool) (c : Candidate) : Option Int × List SysCall :=
  let p := c.info
  let opening := SysCall.socket p.family (p.socktype ||| socketFlags false) p.protocol
    c.answers.socket
  match c.answers.socket with
  | .error _ => (none, [opening])
  | .ok sockfd =>
      match c.answers.connect with
      | some errnum => (none, [opening, .connect sockfd p (some errnum), .close sockfd])
      | none =>
          if nonBlocking then
            let flags := c.answers.getfl
            match c.answers.setfl with
            | some errnum =>
                (none, [opening, .connect sockfd p none, .getfl sockfd flags,
                  .setfl sockfd (flags ||| oNonblock) (some errnum), .close sockfd])
            | none =>
                (some sockfd, [opening, .connect sockfd p none, .getfl sockfd flags,
                  .setfl sockfd (flags ||| oNonblock) none])
          else
            (some sockfd, [opening, .connect sockfd p none])

/-- The loop over the candidates, for either body. -/
def firstSocket (body : Candidate → Option Int × List SysCall) :
    List Candidate → Int × List SysCall
  | [] => (-1, [])
  | c :: candidates =>
      match body c with
      | (some sockfd, calls) => (sockfd, calls)
      | (none, calls) =>
          let (sockfd, later) := firstSocket body candidates
          (sockfd, calls ++ later)

/-- `getaddrinfo` by the node, the service and the hints, with what the kernel will answer for each
candidate. -/
abbrev Resolver := Option String → String → Hints → Except String (List Candidate)

def createBoundSocket (getaddrinfo : Resolver) (socketType : SocketType) (port : BitVec 16)
    (nonBlocking reuseAddr : Bool) : Int × List SysCall :=
  match getaddrinfo none (toString port.toNat) (boundHints socketType) with
  | .error _ => (-1, [])
  | .ok servinfo => firstSocket (tryBind nonBlocking reuseAddr) servinfo

def connectedHints (socketType : SocketType) : Hints where
  family := afUnspec
  socktype := socketTypeToAiSockType socketType
  flags := aiNumericserv

def createConnectedSocket (getaddrinfo : Resolver) (socketType : SocketType) (host : String)
    (port : BitVec 16) (nonBlocking : Bool) : Int × List SysCall :=
  match getaddrinfo (some host) (toString port.toNat) (connectedHints socketType) with
  | .error _ => (-1, [])
  | .ok servinfo => firstSocket (tryConnect nonBlocking) servinfo

end Suc.Net.Fallback
