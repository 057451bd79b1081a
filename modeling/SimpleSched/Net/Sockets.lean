/-
# Net.Sockets -- the sockets the blocking calls work on

mio's sockets do not block: an attempt is done at once, with a result or an error, or it
would block and leaves the socket as it was.  `Sockets` is what `Net.Blocking` uses of
this.

`sockets` are those of the repository: the connections a `TcpListener` accepts, the bytes
a `TcpStream` receives and sends, and the datagrams a `UdpSocket` receives.  How many
bytes a `read` or `write` moves is the kernel's choice, and so is the descriptor of a
connection, which it is given when it is accepted.  A dropped socket is closed, and its
descriptor can be opened again; a stream and its clones are one socket.  Each of the four
queues is a `Channel`, so what the calls return is accounted for from one close to the next.
-/
import SimpleSched.Mio
import SimpleSched.Theory.Blocking

namespace SimpleSched.Net

set_option autoImplicit false

open Mio Theory

/-- What an attempt that is done, and the network, do to a socket, when an attempt would
block, and which conditions a socket signals. -/
structure Sockets (K Op R V : Type) extends Objects K Op R V where
  /-- a descriptor without a socket -/
  closed : K
  wouldBlock : K → Op → Bool
  interest : Op → EventSet
  ready : K → EventSet → Bool
  interests : ∀ op, interest op = EventSet.readable ∨ interest op = EventSet.writable
  closed_unready : ∀ e, ready closed e = false

inductive Socket (Conn Addr : Type)
  | closed
  /-- the connections that have come, and before them those that have their descriptor -/
  | listener (pending : Nat) (backlog : List Conn)
  | stream (inbox : List UInt8) (eof : Bool) (room : Nat) (outbox : List UInt8)
  | udp (inbox : List (Addr × List UInt8))
  deriving DecidableEq

/-- `TcpListener::accept`, `TcpStream::read` and `write`, `UdpSocket::recv_from`, and the drop
of a socket by the coroutine that owns it. -/
inductive SocketOp
  | accept
  | read (len : Nat)
  | write (buf : List UInt8)
  | recvFrom (len : Nat)
  | close
  deriving DecidableEq

inductive Answer (Conn Addr E : Type)
  | accepted (c : Conn)
  | read (bytes : List UInt8)
  | written (n : Nat)
  | received (addr : Addr) (datagram : List UInt8)
  | closed
  | error (e : E)
  deriving DecidableEq

/-- What the network does to a socket, how one comes to be, and that one is dropped by
others than the calls. -/
inductive Change (Conn Addr : Type)
  | listen
  | stream
  | udp
  | arrive
  | connection (c : Conn)
  | data (bytes : List UInt8)
  | eof
  | acknowledged (n : Nat)
  | datagram (addr : Addr) (bytes : List UInt8)
  | close
  deriving DecidableEq

variable {Conn Addr E : Type}

namespace Socket

/-- An error leaves the socket as it was; `close` has none. -/
def done [DecidableEq Conn] [DecidableEq Addr] :
    Socket Conn Addr → SocketOp → Answer Conn Addr E → Option (Socket Conn Addr)
  | _, .close, .closed => some .closed
  | _, .close, _ => none
  | k, _, .error _ => some k
  | .listener pending (c :: backlog), .accept, .accepted d =>
    if d = c then some (.listener pending backlog) else none
  | .stream inbox eof room outbox, .read len, .read bytes =>
    if bytes <+: inbox ∧ bytes.length ≤ len ∧ (bytes = [] → len = 0 ∨ inbox = [] ∧ eof) then
      some (.stream (inbox.drop bytes.length) eof room outbox)
    else none
  | .stream inbox eof room outbox, .write buf, .written n =>
    if n ≤ buf.length ∧ n ≤ room ∧ (n = 0 → buf = []) then
      some (.stream inbox eof (room - n) (outbox ++ buf.take n))
    else none
  -- what the buffer has no room for is lost
  | .udp ((from_, data) :: inbox), .recvFrom len, .received addr datagram =>
    if addr = from_ ∧ datagram = data.take len then some (.udp inbox) else none
  | _, _, _ => none

def wouldBlock : Socket Conn Addr → SocketOp → Bool
  | .listener pending backlog, .accept => pending = 0 && backlog.isEmpty
  | .stream inbox eof _ _, .read _ => inbox.isEmpty && !eof
  | .stream _ _ room _, .write _ => room = 0
  | .udp inbox, .recvFrom _ => inbox.isEmpty
  | _, _ => false

def ready (k : Socket Conn Addr) (e : EventSet) : Bool :=
  match k with
  | .closed => false
  | .listener pending backlog => e = EventSet.readable && (pending ≠ 0 || !backlog.isEmpty)
  | .stream inbox eof room _ =>
    e = EventSet.readable && (!inbox.isEmpty || eof) || e = EventSet.writable && room ≠ 0
  | .udp inbox => e = EventSet.readable && !inbox.isEmpty || e = EventSet.writable

def change : Socket Conn Addr → Change Conn Addr → Option (Socket Conn Addr)
  | .closed, .listen => some (.listener 0 [])
  | .closed, .stream => some (.stream [] false 0 [])
  | .closed, .udp => some (.udp [])
  | .listener pending backlog, .arrive => some (.listener (pending + 1) backlog)
  | .listener (pending + 1) backlog, .connection c => some (.listener pending (backlog ++ [c]))
  | .stream inbox false room outbox, .data bytes => some (.stream (inbox ++ bytes) false room outbox)
  | .stream inbox _ room outbox, .eof => some (.stream inbox true room outbox)
  | .stream inbox eof room outbox, .acknowledged n => some (.stream inbox eof (room + n) outbox)
  | .udp inbox, .datagram addr bytes => some (.udp (inbox ++ [(addr, bytes)]))
  | _, .close => some .closed
  | _, _ => none

end Socket

/-- What a call waits for when it would block, which a `close` never does. -/
def SocketOp.interest : SocketOp → EventSet
  | .write _ => EventSet.writable
  | _ => EventSet.readable

def sockets (Conn Addr E : Type) [DecidableEq Conn] [DecidableEq Addr] :
    Sockets (Socket Conn Addr) SocketOp (Answer Conn Addr E) (Change Conn Addr) where
  done := Socket.done
  change := Socket.change
  closed := .closed
  wouldBlock := Socket.wouldBlock
  interest := SocketOp.interest
  ready := Socket.ready
  interests op := by cases op <;> simp [SocketOp.interest]
  closed_unready _ := rfl

/-! ## The queues in a socket -/

variable [DecidableEq Conn] [DecidableEq Addr]

/-- An answer that is no error is the one its socket and operation call for. -/
inductive Socket.Done : Socket Conn Addr → SocketOp → Answer Conn Addr E → Socket Conn Addr → Prop
  | error {k op e} : op ≠ .close → Done k op (.error e) k
  | accept {pending c backlog} : Done (.listener pending (c :: backlog)) .accept (.accepted c)
      (.listener pending backlog)
  | read {bytes rest eof room outbox len} : bytes.length ≤ len →
      (bytes = [] → len = 0 ∨ rest = [] ∧ eof = true) →
      Done (.stream (bytes ++ rest) eof room outbox) (.read len) (.read bytes) (.stream rest eof room outbox)
  | write {inbox eof room outbox buf n} : n ≤ buf.length → n ≤ room → (n = 0 → buf = []) →
      Done (.stream inbox eof room outbox) (.write buf) (.written n)
        (.stream inbox eof (room - n) (outbox ++ buf.take n))
  | recvFrom {addr datagram inbox len} : Done (.udp ((addr, datagram) :: inbox)) (.recvFrom len)
      (.received addr (datagram.take len)) (.udp inbox)
  | close {k} : Done k .close .closed .closed

theorem Socket.done_some {k k' : Socket Conn Addr} {op : SocketOp} {r : Answer Conn Addr E}
    (done : k.done op r = some k') : Socket.Done k op r k' := by
  unfold Socket.done at done
  split at done
  · cases done
    exact .close
  · cases done
  · rename_i no_close
    cases done
    exact .error no_close
  · split at done
    · rename_i same
      subst same
      cases done
      exact .accept
    · cases done
  · split at done
    · rename_i moves
      obtain ⟨⟨rest, rfl⟩, fits, ends⟩ := moves
      cases done
      simp only [List.drop_left]
      refine .read fits fun none_read => ?_
      subst none_read
      simpa using ends rfl
    · cases done
  · split at done
    · rename_i moves
      cases done
      exact .write moves.1 moves.2.1 moves.2.2
    · cases done
  · split at done
    · rename_i same
      obtain ⟨rfl, rfl⟩ := same
      cases done
      exact .recvFrom
    · cases done
  · cases done

inductive Socket.Changed : Socket Conn Addr → Change Conn Addr → Socket Conn Addr → Prop
  | listen : Changed .closed .listen (.listener 0 [])
  | stream : Changed .closed .stream (.stream [] false 0 [])
  | udp : Changed .closed .udp (.udp [])
  | arrive {pending backlog} : Changed (.listener pending backlog) .arrive
      (.listener (pending + 1) backlog)
  | connection {pending backlog c} : Changed (.listener (pending + 1) backlog) (.connection c)
      (.listener pending (backlog ++ [c]))
  | data {inbox room outbox bytes} : Changed (.stream inbox false room outbox) (.data bytes)
      (.stream (inbox ++ bytes) false room outbox)
  | eof {inbox eof room outbox} : Changed (.stream inbox eof room outbox) .eof
      (.stream inbox true room outbox)
  | acknowledged {inbox eof room outbox n} : Changed (.stream inbox eof room outbox) (.acknowledged n)
      (.stream inbox eof (room + n) outbox)
  | datagram {inbox addr bytes} : Changed (.udp inbox) (.datagram addr bytes)
      (.udp (inbox ++ [(addr, bytes)]))
  | close {k} : Changed k .close .closed

omit [DecidableEq Conn] [DecidableEq Addr] in
theorem Socket.change_some {k k' : Socket Conn Addr} {v : Change Conn Addr}
    (changes : k.change v = some k') : Socket.Changed k v k' := by
  unfold Socket.change at changes
  split at changes <;> cases changes <;> constructor

def SocketOp.closes : SocketOp → Answer Conn Addr E → Bool
  | .close, .closed => true
  | _, _ => false

def Change.closes : Change Conn Addr → Bool
  | .close => true
  | _ => false

omit [DecidableEq Conn] [DecidableEq Addr] in
theorem Socket.closed_of_change {k k' : Socket Conn Addr} {v : Change Conn Addr}
    (changes : k.change v = some k') (closes : v.closes = true) : k' = .closed := by
  cases Socket.change_some changes with
  | close => rfl
  | _ => cases closes

theorem Socket.closed_of_done {k k' : Socket Conn Addr} {op : SocketOp} {r : Answer Conn Addr E}
    (done : k.done op r = some k') (closes : op.closes r = true) : k' = .closed := by
  cases Socket.done_some done with
  | close => rfl
  | _ => simp [SocketOp.closes] at closes

/-- The connections a listener has, and `accept` returns. -/
def accepts : Objects.Channel (sockets Conn Addr E).toObjects Conn Conn where
  content
    | .listener _ backlog => backlog
    | _ => []
  gives _ _ := []
  takes _
    | .accepted c => [c]
    | _ => []
  arrives
    | .connection c => [c]
    | _ => []
  cut := Eq
  closes := SocketOp.closes
  drops := Change.closes
  done moved goes := by
    cases Socket.done_some moved <;> simp_all [List.forall₂_eq_eq_eq, SocketOp.closes]
  done_closes moved ends := by rw [Socket.closed_of_done moved ends]
  change moved goes := by cases Socket.change_some moved <;> simp_all [Change.closes]
  change_drops moved ends := by rw [Socket.closed_of_change moved ends]

/-- The bytes a stream has received, and `read` returns. -/
def reads : Objects.Channel (sockets Conn Addr E).toObjects UInt8 UInt8 where
  content
    | .stream inbox _ _ _ => inbox
    | _ => []
  gives _ _ := []
  takes _
    | .read bytes => bytes
    | _ => []
  arrives
    | .data bytes => bytes
    | _ => []
  cut := Eq
  closes := SocketOp.closes
  drops := Change.closes
  done moved goes := by
    cases Socket.done_some moved <;> simp_all [List.forall₂_eq_eq_eq, SocketOp.closes]
  done_closes moved ends := by rw [Socket.closed_of_done moved ends]
  change moved goes := by cases Socket.change_some moved <;> simp_all [Change.closes]
  change_drops moved ends := by rw [Socket.closed_of_change moved ends]

/-- The bytes a stream has sent, and `write` says it has taken. -/
def writes : Objects.Channel (sockets Conn Addr E).toObjects UInt8 UInt8 where
  content
    | .stream _ _ _ outbox => outbox
    | _ => []
  gives
    | .write buf, .written n => buf.take n
    | _, _ => []
  takes _ _ := []
  arrives _ := []
  cut := Eq
  closes := SocketOp.closes
  drops := Change.closes
  done moved goes := by cases Socket.done_some moved <;> simp_all [SocketOp.closes]
  done_closes moved ends := by rw [Socket.closed_of_done moved ends]
  change moved goes := by cases Socket.change_some moved <;> simp_all [Change.closes]
  change_drops moved ends := by rw [Socket.closed_of_change moved ends]

/-- The datagrams a socket has received, and `recv_from` returns, cut to the length of its
buffer. -/
def receives : Objects.Channel (sockets Conn Addr E).toObjects (Addr × List UInt8)
    (Nat × Addr × List UInt8) where
  content
    | .udp inbox => inbox
    | _ => []
  gives _ _ := []
  takes
    | .recvFrom len, .received addr datagram => [(len, addr, datagram)]
    | _, _ => []
  arrives
    | .datagram addr bytes => [(addr, bytes)]
    | _ => []
  cut sent got := got.2 = (sent.1, sent.2.take got.1)
  closes := SocketOp.closes
  drops := Change.closes
  done {k op r k'} moved goes := by
    cases Socket.done_some moved with
    | @recvFrom addr datagram inbox len => exact ⟨[(addr, datagram)], by simp, by simp⟩
    | _ => exact ⟨[], by simp_all [SocketOp.closes], by simp⟩
  done_closes moved ends := by rw [Socket.closed_of_done moved ends]
  change moved goes := by cases Socket.change_some moved <;> simp_all [Change.closes]
  change_drops moved ends := by rw [Socket.closed_of_change moved ends]

end SimpleSched.Net
