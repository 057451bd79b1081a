/-
# Net.Tcp -- connecting to one of several addresses

`each_addr` of `net/mod.rs` and `TcpStream::connect` of `net/tcp.rs`.  `each_addr` goes
on to the next address after an error, but it only sees the errors that `connect`
reports at once.  A connection in progress ends its loop as a success; the final
outcome comes from `take_socket_error`, and there is no address left to try.

`connect_firstOrLast_iff` says when the stream, or the error, is the one that trying
every address would have given.
-/
import SimpleSched.Mio
import SimpleSched.Theory.Fallback

namespace SimpleSched.Net

set_option autoImplicit false

open Mio Theory

/-! ## net/mod.rs -/

/-- The kinds of `io::Error` these functions name. -/
inductive ErrorKind
  | invalidInput
  deriving DecidableEq, Repr

section EachAddr

variable {A E T : Type} (newError : ErrorKind → String → E)

/-- The `for` of `each_addr`. -/
def eachAddrFrom (f : A → Except E T) (lastErr : Option E) : List A → Except E T
  | [] => .error (lastErr.getD (newError .invalidInput "could not resolve to any addresses"))
  | addr :: rest =>
    match f addr with
    | .ok l => .ok l
    | .error e => eachAddrFrom f (some e) rest

/-- `addr` is what `to_socket_addrs` returns. -/
def eachAddr (addr : Except E (List A)) (f : A → Except E T) : Except E T :=
  match addr with
  | .ok addrs => eachAddrFrom newError f none addrs
  | .error e => .error e

end EachAddr

/-! ## tcp.rs -/

inductive SocketAddr (V4 V6 : Type)
  | v4 (addr : V4)
  | v6 (addr : V6)
  deriving DecidableEq, Repr

structure TcpStream (S : Type) where
  stream : S
  deriving DecidableEq, Repr

/-- What mio's sockets and `wait_event` answer.  `connect` says besides the stream
whether the connection is complete. -/
structure TcpIo (V4 V6 Socket S E : Type) where
  newError : ErrorKind → String → E
  v4 : Except E Socket
  v6 : Except E Socket
  connect : Socket → SocketAddr V4 V6 → Except E (S × Bool)
  waitEvent : S → EventSet → Except E Unit
  takeSocketError : S → Except E Unit

variable {V4 V6 Socket S E : Type} (io : TcpIo V4 V6 Socket S E)

/-- The closure `TcpSocket::connect` hands to `each_addr`. -/
def TcpSocket.connectOne (a : SocketAddr V4 V6) : Except E (S × Bool) :=
  match a with
  | .v4 _ => io.v4.bind fun socket => io.connect socket a
  | .v6 _ => io.v6.bind fun socket => io.connect socket a

def TcpSocket.connect (addr : Except E (List (SocketAddr V4 V6))) : Except E (TcpStream S × Bool) :=
  (eachAddr io.newError addr (TcpSocket.connectOne io)).map fun (stream, complete) =>
    (⟨stream⟩, complete)

def TcpStream.takeSocketError (stream : TcpStream S) : Except E Unit :=
  io.takeSocketError stream.stream

/-- The `match` of `TcpStream::connect`. -/
def TcpStream.complete (socket : Except E (TcpStream S × Bool)) : Except E (TcpStream S) :=
  match socket with
  | .ok (stream, completed) =>
    if !completed then
      (io.waitEvent stream.stream EventSet.writable).bind fun _ =>
        (stream.takeSocketError io).bind fun _ => .ok stream
    else .ok stream
  | .error err => .error err

def TcpStream.connect (addr : Except E (List (SocketAddr V4 V6))) : Except E (TcpStream S) :=
  TcpStream.complete io (TcpSocket.connect io addr)

/-! ## What becomes of each address -/

/-- One address: a connection that is refused at once leaves the next to be tried, one
that fails while in progress is returned. -/
def TcpIo.attempt (a : SocketAddr V4 V6) : Attempt E (TcpStream S) :=
  match TcpSocket.connectOne io a with
  | .error e => .next e
  | .ok (s, true) => .done ⟨s⟩
  | .ok (s, false) =>
    match io.takeSocketError s with
    | .ok _ => .done ⟨s⟩
    | .error e => .stop e

/-- The final outcome of an address, known at once or after waiting. -/
def TcpIo.final (a : SocketAddr V4 V6) : Except E (TcpStream S) := (io.attempt a).outcome

/-- The same outcomes, all of them known at once. -/
def TcpIo.immediate : TcpIo V4 V6 Socket S E :=
  { io with
    connect := fun socket a =>
      match io.connect socket a with
      | .ok (s, false) => (io.takeSocketError s).map fun _ => (s, true)
      | known => known }

variable {io} {addrs : List (SocketAddr V4 V6)}

/-- `TcpStream::connect` is a loop that returns the failures of connections in
progress. -/
theorem complete_eq_run (waits : ∀ s, io.waitEvent s EventSet.writable = .ok ()) (lastErr : Option E) :
    TcpStream.complete io
        ((eachAddrFrom io.newError (TcpSocket.connectOne io) lastErr addrs).map
          fun (stream, complete) => (⟨stream⟩, complete)) =
      Attempt.run (.error (lastErr.getD
        (io.newError .invalidInput "could not resolve to any addresses"))) (addrs.map io.attempt) := by
  induction addrs generalizing lastErr with
  | nil => rfl
  | cons a rest ih =>
      rw [List.map_cons, eachAddrFrom]
      cases opened : TcpSocket.connectOne io a with
      | error e => simpa [TcpIo.attempt, opened, Attempt.run] using ih (some e)
      | ok found =>
          obtain ⟨s, complete⟩ := found
          cases complete with
          | true => simp [TcpIo.attempt, opened, Attempt.run, Except.map, TcpStream.complete]
          | false =>
              cases ended : io.takeSocketError s <;>
                simp [TcpIo.attempt, opened, ended, Attempt.run, Except.map, waits, Except.bind,
                  TcpStream.complete, TcpStream.takeSocketError]

theorem connect_eq_run (waits : ∀ s, io.waitEvent s EventSet.writable = .ok ()) :
    TcpStream.connect io (.ok addrs) =
      Attempt.run (.error (io.newError .invalidInput "could not resolve to any addresses"))
        (addrs.map io.attempt) :=
  complete_eq_run waits none

/-- With every outcome known at once each failure leaves the next address to be
tried. -/
theorem immediate_attempt (a : SocketAddr V4 V6) : io.immediate.attempt a =
    match io.final a with
    | .ok s => .done s
    | .error e => .next e := by
  have opened : TcpSocket.connectOne io.immediate a =
      match TcpSocket.connectOne io a with
      | .ok (s, false) => (io.takeSocketError s).map fun _ => (s, true)
      | known => known := by
    cases a with
    | v4 addr =>
        cases socket : io.v4 <;> simp [TcpSocket.connectOne, TcpIo.immediate, socket, Except.bind]
    | v6 addr =>
        cases socket : io.v6 <;> simp [TcpSocket.connectOne, TcpIo.immediate, socket, Except.bind]
  unfold TcpIo.final TcpIo.attempt
  rw [opened]
  cases TcpSocket.connectOne io a with
  | error e => rfl
  | ok found =>
      obtain ⟨s, complete⟩ := found
      cases complete with
      | true => rfl
      | false =>
          cases ended : io.takeSocketError s <;> simp [ended, Except.map, Attempt.outcome]

/-- Where every outcome is known at once `TcpStream::connect` tries every address. -/
theorem immediate_connect (waits : ∀ s, io.waitEvent s EventSet.writable = .ok ()) :
    TcpStream.connect io.immediate (.ok addrs) =
      firstOk (.error (io.newError .invalidInput "could not resolve to any addresses"))
        (addrs.map io.final) := by
  have waits' : ∀ s, io.immediate.waitEvent s EventSet.writable = .ok () := waits
  rw [connect_eq_run waits']
  have outcomes : (addrs.map io.immediate.attempt).map Attempt.outcome = addrs.map io.final := by
    rw [List.map_map]
    apply List.map_congr_left
    intro a _
    rw [Function.comp_apply, immediate_attempt]
    cases io.final a <;> rfl
  rw [← outcomes]
  refine Attempt.run_eq_firstOk_iff.2 (Attempt.harmless_of_next ?_)
  intro attempt mem e stops
  obtain ⟨a, -, rfl⟩ := List.mem_map.1 mem
  rw [immediate_attempt] at stops
  cases final : io.final a <;> simp [final] at stops

/-- `TcpStream::connect` gives the stream to the first address whose final outcome is
success, or else the last address's error, whether outcomes are known at once or
later: exactly when the first address that does not fail at once does not fail in
the end, or all that come after it fail, the last with the same error. -/
theorem connect_firstOrLast_iff (waits : ∀ s, io.waitEvent s EventSet.writable = .ok ())
    (some : addrs ≠ []) :
    FirstOrLast (addrs.map io.final) (TcpStream.connect io (.ok addrs)) ∧
        TcpStream.connect io (.ok addrs) = TcpStream.connect io.immediate (.ok addrs) ↔
      Attempt.Harmless (addrs.map io.attempt) := by
  have outcomes : (addrs.map io.attempt).map Attempt.outcome = addrs.map io.final := by
    rw [List.map_map]
    rfl
  rw [immediate_connect waits, connect_eq_run waits, ← outcomes,
    Attempt.run_firstOrLast_iff _ (by simpa using some), Attempt.run_eq_firstOk_iff, and_self]

/-! ## Two addresses -/

/-- Port 0 refuses at once; connections to the others are in progress, and the one to
port 1 fails with error 111. -/
def refusing : TcpIo Nat Nat Unit Nat Nat where
  newError _ _ := 22
  v4 := .ok ()
  v6 := .ok ()
  connect _ a :=
    match a with
    | .v4 port | .v6 port => if port = 0 then .error 110 else .ok (port, false)
  waitEvent _ _ := .ok ()
  takeSocketError port := if port = 1 then .error 111 else .ok ()

/-- A refusal at once leaves the second address to be tried. -/
theorem refused_second_connects :
    FirstOrLast ([.v4 0, .v4 2].map refusing.final)
        (TcpStream.connect refusing (.ok [.v4 0, .v4 2])) ∧
      TcpStream.connect refusing (.ok [.v4 0, .v4 2]) =
        TcpStream.connect refusing.immediate (.ok [.v4 0, .v4 2]) :=
  (connect_firstOrLast_iff (fun _ => rfl) (by simp)).2 trivial

/-- A failure in progress does not. -/
theorem failed_second_untried :
    ¬ FirstOrLast ([.v4 1, .v4 2].map refusing.final)
      (TcpStream.connect refusing (.ok [.v4 1, .v4 2])) := by
  intro tried
  have returned : TcpStream.connect refusing (.ok [.v4 1, .v4 2]) = .error 111 := rfl
  rw [returned] at tried
  obtain ⟨e, failed⟩ := tried.1 (refusing.final (.v4 2)) (by simp)
  cases failed

end SimpleSched.Net
