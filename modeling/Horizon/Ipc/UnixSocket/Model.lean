import Horizon.Lib.Transition
import Horizon.Types
import Mathlib.Data.Fin.Basic
import Mathlib.Data.List.Basic

/-!
# Unix sockets

The sockets of `ipc/unix_socket.c`, one call at a time.  A socket is in
`unix_socket_list` from its creation until its memory is freed, so the list also
says which sockets exist.  A call that uses a freed socket, or that locks a mutex
which it already holds, has no result.  `MIN`, which the source does not define,
is taken for the smaller of two lengths.
-/

namespace Horizon
namespace Ipc
namespace UnixSocket

/-- The address of a socket: one of the 32-bit words of the memory. -/
abbrev Ptr := Fin (2 ^ 30)

inductive SocketType where
  | stream
  | dgram
  | seqpacket
deriving DecidableEq

def socketType (type : Int) : Option SocketType :=
  if type = 1 then some SocketType.stream
  else if type = 2 then some SocketType.dgram
  else if type = 3 then some SocketType.seqpacket
  else none

inductive SocketState where
  | unconnected
  | connecting
  | connected
  | disconnected
deriving DecidableEq

/-- `struct unix_socket`; a message is the list of its bytes. -/
structure Socket where
  type : SocketType
  state : SocketState
  address : Option (List UInt8)
  peer : Option Ptr
  messages : List (List UInt8)
  refcount : BitVec 32

structure Sockets where
  list : List Ptr
  sock : Ptr -> Socket

def Sockets.modify (s : Sockets) (p : Ptr) (f : Socket -> Socket) : Sockets :=
  { s with sock := Function.update s.sock p (f (s.sock p)) }

/-! ## Creation and lookup -/

def newSocket (type : SocketType) : Socket where
  type := type
  state := SocketState.unconnected
  address := none
  peer := none
  messages := []
  refcount := 1

def allocate (s : Sockets) (type : SocketType) (memory : Option Ptr) :
    Option Ptr × Sockets :=
  match memory with
  | none => (none, s)
  | some p => (some p, ⟨p :: s.list, Function.update s.sock p (newSocket type)⟩)

def unixSocketCreate (s : Sockets) (type : Int) (memory : Option Ptr) :
    Option Ptr × Sockets :=
  match socketType type with
  | none => (none, s)
  | some t => allocate s t memory

def dropRef (k : Socket) : Socket := { k with refcount := k.refcount - 1 }

def addRef (k : Socket) : Socket := { k with refcount := k.refcount + 1 }

def unixSocketDestroy (s : Sockets) (p : Ptr) : Sockets :=
  let s := s.modify p dropRef
  if (s.sock p).refcount = 0 then { s with list := s.list.erase p } else s

/-- The length of an address is checked wherever one is passed. -/
def validLength (addr : List UInt8) : Bool :=
  0 < addr.length ∧ addr.length <= 108

def Sockets.bound (s : Sockets) (addr : List UInt8) : Option Ptr :=
  if validLength addr then
    s.list.find? fun p => (s.sock p).address = some addr
  else none

def unixSocketFind (s : Sockets) (addr : List UInt8) : Option Ptr × Sockets :=
  match s.bound addr with
  | none => (none, s)
  | some p => (some p, s.modify p addRef)

/-! ## Connections -/

def setAddress (addr : List UInt8) (k : Socket) : Socket :=
  { k with address := some addr }

/-- `unix_socket_bind`, given whether there is memory for the address. -/
def unixSocketBind (s : Sockets) (p : Ptr) (addr : List UInt8)
    (memory : Bool) : Bool × Sockets :=
  if ¬ validLength addr then (false, s)
  else if (s.sock p).address ≠ none then (false, s)
  else
    match unixSocketFind s addr with
    | (some _, s) => (false, s)
    | (none, s) =>
        if memory then (true, s.modify p (setAddress addr)) else (false, s)

def refuses (k : Socket) : Bool :=
  k.type = SocketType.stream ∧ k.state ≠ SocketState.unconnected

def link (t : Ptr) (k : Socket) : Socket := { k with
  peer := some t
  state := SocketState.connected }

def unixSocketConnect (s : Sockets) (p : Ptr) (addr : List UInt8) :
    Bool × Sockets :=
  if ¬ validLength addr then (false, s)
  else if (s.sock p).state = SocketState.connected then (false, s)
  else
    match unixSocketFind s addr with
    | (none, s) => (false, s)
    | (some t, s) =>
        if refuses (s.sock t) then (false, unixSocketDestroy s t)
        else (true, s.modify p (link t))

def setState (state : SocketState) (k : Socket) : Socket :=
  { k with state := state }

def unixSocketListen (s : Sockets) (p : Ptr) : Bool × Sockets :=
  if (s.sock p).address = none then (false, s)
  else if (s.sock p).state ≠ SocketState.unconnected then (false, s)
  else (true, s.modify p (setState SocketState.connecting))

inductive Accepted where
  | failed
  | waits
  | socket (new : Ptr) (s : Sockets)

/-- `unix_socket_accept` from its loop on. -/
def acceptLoop (s : Sockets) (p : Ptr) (memory : Option Ptr) :
    Option Accepted :=
  match (s.sock p).peer with
  | none => some Accepted.waits
  | some c =>
      match allocate s (s.sock p).type memory with
      | (none, _) => some Accepted.failed
      | (some new, s) =>
          if c ∈ s.list then
            let s := (s.modify new (link c)).modify c (link new)
            some (Accepted.socket new
              (s.modify p fun k => { k with peer := none }))
          else none

def unixSocketAccept (s : Sockets) (p : Ptr) (memory : Option Ptr) :
    Option Accepted :=
  if (s.sock p).state ≠ SocketState.connecting then some Accepted.failed
  else acceptLoop s p memory

def unixSocketShutdown (s : Sockets) (p : Ptr) : Option (Bool × Sockets) :=
  if (s.sock p).state ≠ SocketState.connected then some (false, s)
  else
    let closed := s.modify p (setState SocketState.disconnected)
    match (s.sock p).peer with
    | none => some (true, closed)
    | some t =>
        if t ≠ p ∧ t ∈ s.list then
          some (true, closed.modify t (setState SocketState.disconnected))
        else none

/-- `unix_socket_pair`, given the memory for both sockets. -/
def unixSocketPair (s : Sockets) (type : Int) (memory1 memory2 : Option Ptr) :
    Option (Ptr × Ptr) × Sockets :=
  match unixSocketCreate s type memory1 with
  | (none, s) => (none, s)
  | (some s1, s) =>
      match unixSocketCreate s type memory2 with
      | (none, s) => (none, unixSocketDestroy s s1)
      | (some s2, s) =>
          (some (s1, s2), (s.modify s1 (link s2)).modify s2 (link s1))

/-! ## Messages -/

def addMessage (buf : List UInt8) (k : Socket) : Socket :=
  { k with messages := k.messages ++ [buf] }

/-- `unix_socket_send`, given whether there is memory for the message. -/
def unixSocketSend (s : Sockets) (p : Ptr) (buf : List UInt8)
    (memory : Bool) : Option (Int × Sockets) :=
  if buf.length = 0 then some (-1, s)
  else if (s.sock p).state ≠ SocketState.connected then some (-1, s)
  else
    match (s.sock p).peer with
    | none => some (-1, s)
    | some t =>
        if t ≠ p ∧ t ∈ s.list then
          if memory then
            some (asInt buf.length, s.modify t (addMessage buf))
          else some (-1, s)
        else none

def setMessages (messages : List (List UInt8)) (k : Socket) : Socket :=
  { k with messages := messages }

inductive Received where
  | failed
  | waits
  | bytes (buf : List UInt8) (s : Sockets)

def unixSocketRecv (s : Sockets) (p : Ptr) (len : Nat) (dontwait : Bool) :
    Received :=
  if len = 0 then Received.failed
  else if (s.sock p).state ≠ SocketState.connected then Received.failed
  else
    match (s.sock p).messages with
    | [] => if dontwait then Received.failed else Received.waits
    | msg :: rest =>
        Received.bytes (msg.take (min len msg.length))
          (s.modify p (setMessages rest))

def unixSocketSendto (s : Sockets) (p : Ptr) (buf addr : List UInt8)
    (memory : Bool) : Option (Int × Sockets) :=
  if buf.length = 0 then some (-1, s)
  else if (s.sock p).state = SocketState.connected then
    unixSocketSend s p buf memory
  else if (s.sock p).type ≠ SocketType.dgram then some (-1, s)
  else if ¬ validLength addr then some (-1, s)
  else
    match unixSocketFind s addr with
    | (none, s) => some (-1, s)
    | (some t, s) =>
        if memory then
          some (asInt buf.length,
            unixSocketDestroy (s.modify t (addMessage buf)) t)
        else some (-1, unixSocketDestroy s t)

end UnixSocket
end Ipc
end Horizon
