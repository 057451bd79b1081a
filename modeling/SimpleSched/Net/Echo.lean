/-
# Net.Echo -- examples/tcp-echo-server.rs

One coroutine of the example accepts connections and spawns one for each; that reads, and
writes what it has read back with `write_all`, until a read returns no bytes, and drops
its stream.  `echo` is this program from `server.incoming()` on, without its log lines.  A
connection is named by its descriptor, which the next one may get when it is closed.

`serves_echo`: over every run on the runtime each connection has one coroutine from its
accept to its close, and what is sent on it are the bytes that have come, in their order;
none is lost or sent twice, and a coroutine that leaves its loop has sent them all.
`echo_idle`: where nothing is left to do every connection has its bytes back.
-/
import SimpleSched.Net.Idle

namespace SimpleSched.Net

set_option autoImplicit false

open Mio Theory
open SimpleSched.Runtime

inductive Echo
  /-- at the `server.incoming()` of the loop, and before the spawn in its body -/
  | incoming
  | accepted (stream : Fd)
  /-- in `stream.read`, and in the `write_all` of what is left of the buffer -/
  | reading (stream : Fd)
  | writing (stream : Fd) (buf : List UInt8)
  /-- dropping `stream`, after the `break`, and unwinding from the `unwrap` or the `panic!` -/
  | closing (stream : Fd)
  | unwinding (stream : Fd)
  /-- dropping `server`, unwinding from the `unwrap` -/
  | stopping
  | returned
  | panicked
  deriving DecidableEq

variable {P T Addr E Q : Type}

/-- The connection a task has. -/
def Echo.stream : Echo → Option Fd
  | .accepted c | .reading c | .writing c _ | .closing c | .unwinding c => some c
  | .incoming | .stopping | .returned | .panicked => none

/-- What it has read and not written. -/
def Echo.buf : Echo → List UInt8
  | .writing _ buf => buf
  | _ => []

/-- `write_all` after a write: `while buf.len() > 0`. -/
def Echo.rest (c : Fd) : List UInt8 → Echo
  | [] => .reading c
  | buf => .writing c buf

theorem Echo.rest_cases (c : Fd) (buf : List UInt8) :
    Echo.rest c buf = .reading c ∧ buf = [] ∨ Echo.rest c buf = .writing c buf := by
  cases buf with
  | nil => exact .inl ⟨rfl, rfl⟩
  | cons => exact .inr rfl

/-- The server.  `interrupted` are the errors `write_all` tries again after; that
`register_opt` is interrupted is left out. -/
def echo (server : Fd) (interrupted : E → Bool) : Program Echo Fd SocketOp (Answer Fd Addr E)
  | .incoming => .call server .accept fun
    | some (.accepted stream) => .accepted stream
    | _ => .stopping
  | .accepted stream => .spawn (.reading stream) .incoming
  | .reading stream => .call stream (.read 10240) fun
    | some (.read []) => .closing stream
    | some (.read bytes) => .writing stream bytes
    | _ => .unwinding stream
  | .writing stream buf => .call stream (.write buf) fun
    | some (.written 0) => .unwinding stream
    | some (.written n) => .rest stream (buf.drop n)
    | some (.error e) => if interrupted e then .writing stream buf else .unwinding stream
    | _ => .unwinding stream
  -- a drop has no result to look at
  | .closing stream => .call stream .close fun
    | some .closed => .returned
    | _ => .closing stream
  | .unwinding stream => .call stream .close fun
    | some .closed => .panicked
    | _ => .unwinding stream
  | .stopping => .call server .close fun
    | some .closed => .panicked
    | _ => .stopping
  | .returned => .ret
  | .panicked => .panic

/-! ## What is seen of a connection -/

def Socket.inbox : Socket Fd Addr → List UInt8
  | .stream inbox _ _ _ => inbox
  | _ => []

def Socket.outbox : Socket Fd Addr → List UInt8
  | .stream _ _ _ outbox => outbox
  | _ => []

def Socket.backlog : Socket Fd Addr → List Fd
  | .listener _ backlog => backlog
  | _ => []

def Socket.pending : Socket Fd Addr → Nat
  | .listener pending _ => pending
  | _ => 0

/-- Nothing more is to be read. -/
def Socket.Drained : Socket Fd Addr → Prop
  | .stream inbox eof _ _ => inbox = [] ∧ eof = true
  | _ => False

theorem Socket.Drained.inbox {k : Socket Fd Addr} (drained : k.Drained) : k.inbox = [] := by
  cases k <;> simp_all [Socket.Drained, Socket.inbox]

theorem Socket.unready {k : Socket Fd Addr} (unready : k.ready EventSet.readable = false) :
    k.pending = 0 ∧ k.backlog = [] ∧ k.inbox = [] := by
  cases k <;> simp_all [Socket.ready, Socket.pending, Socket.backlog, Socket.inbox]

variable [DecidableEq Addr]

theorem accepts_content (k : Socket Fd Addr) : (accepts (E := E)).content k = k.backlog := by
  cases k <;> rfl

/-- What is seen of a program over the sockets. -/
abbrev SocketLabel (T Addr E Q : Type) :=
  Machine.Label SocketOp (Answer Fd Addr E) (Change Fd Addr) Fd T Q

/-- The socket of `c` is closed. -/
abbrev ends (c : Fd) (l : SocketLabel T Addr E Q) : Bool := Machine.ends reads c l

/-- The bytes that have come on a connection. -/
def arrived (c : Fd) (tr : List (SocketLabel T Addr E Q)) : List UInt8 :=
  (since (ends c) tr).flatMap (Machine.put reads c)

/-- The connections the listener has given a descriptor, and those it has given away. -/
def connections (server : Fd) (tr : List (SocketLabel T Addr E Q)) : List Fd :=
  (since (ends server) tr).flatMap (Machine.put accepts server)

def acceptedBy (server : Fd) (tr : List (SocketLabel T Addr E Q)) : List Fd :=
  (since (ends server) tr).flatMap (Machine.take accepts server)

/-- How often a connection with this descriptor was accepted since the last was closed. -/
def given (server c : Fd) (tr : List (SocketLabel T Addr E Q)) : Nat :=
  ((since (ends c) tr).flatMap (Machine.take accepts server)).count c

/-- The descriptor a connection gets. -/
def hands : SocketLabel T Addr E Q → Option Fd
  | .change _ (.connection c) => some c
  | _ => none

def handed (c : Fd) (tr : List (SocketLabel T Addr E Q)) : Nat :=
  (since (ends c) tr).countP (hands · = some c)

/-- A full slab kills the coroutine, and closes the socket it would have waited for. -/
def kills : SocketLabel T Addr E Q → Bool
  | .killed _ | .change _ .close => true
  | _ => false

section Lives

variable {server c : Fd} {tr : List (SocketLabel T Addr E Q)} {l : SocketLabel T Addr E Q}

theorem arrived_goes (goes : ends c l = false) :
    arrived c (tr ++ [l]) = arrived c tr ++ Machine.put reads c l := by
  simp [arrived, since_goes goes]

theorem arrived_ends (ended : ends c l = true) : arrived c (tr ++ [l]) = [] := by
  simp [arrived, since_ends ended]

theorem given_goes (goes : ends c l = false) :
    given server c (tr ++ [l]) = given server c tr + (Machine.take accepts server l).count c := by
  simp [given, since_goes goes]

theorem given_ends (ended : ends c l = true) : given server c (tr ++ [l]) = 0 := by
  simp [given, since_ends ended]

theorem handed_goes (goes : ends c l = false) :
    handed c (tr ++ [l]) = handed c tr + if hands l = some c then 1 else 0 := by
  simp [handed, since_goes goes, List.countP_append, List.countP_singleton]

theorem handed_ends (ended : ends c l = true) : handed c (tr ++ [l]) = 0 := by
  simp [handed, since_ends ended]

/-- Only a connection that gets a descriptor comes to a listener. -/
theorem put_count : (Machine.put accepts server l).count c ≤ if hands l = some c then 1 else 0 := by
  cases l with
  | change i v =>
      by_cases same : i = server
      · cases v with
        | connection d =>
            by_cases mine : d = c <;> simp [Machine.put, accepts, hands, same, mine]
        | _ => simp [Machine.put, accepts, hands]
      · simp [Machine.put, same]
  | _ => simp [Machine.put, accepts]

end Lives

abbrev EchoServer (T Addr : Type) := Machine (Socket Fd Addr) Fd T Echo

abbrev EchoLabel (T Addr E : Type) := SocketLabel T Addr E Echo

def Serves (s : EchoServer T Addr) (t : T) (c : Fd) : Prop :=
  ∃ q, s.task t = some q ∧ q.stream = some c

/-- Only acceptors are started from outside; a connection gets a descriptor that is not the
listener's, and that none has had since it was last closed; no slab is ever full. -/
structure Orderly (server : Fd) (tr : List (EchoLabel T Addr E)) : Prop where
  boots : ∀ t q, .boot t q ∈ tr → q = .incoming
  fresh : InOrder (fun before l => ∀ c ∈ hands l, c ≠ server ∧ handed c before = 0) tr
  roomy : ∀ l ∈ tr, kills l = false

theorem Orderly.of_concat {server : Fd} {tr : List (EchoLabel T Addr E)} {l : EchoLabel T Addr E}
    (orderly : Orderly server (tr ++ [l])) : Orderly server tr where
  boots t q mem := orderly.boots t q (List.mem_append_left _ mem)
  fresh before l' after split := orderly.fresh before l' (after ++ [l]) (by simp [split])
  roomy l' mem := orderly.roomy l' (List.mem_append_left _ mem)

/-! ## Descriptors -/

/-- A connection that has the descriptor is in the backlog or was accepted, once, and none
has the listener's own. -/
def Handed (server : Fd) (s : EchoServer T Addr) (tr : List (EchoLabel T Addr E)) : Prop :=
  ∀ c, given server c tr + (s.object server).backlog.count c ≤ handed c tr ∧
    handed c tr ≤ if c = server then 0 else 1

section Step

variable {server c : Fd} {interrupted : E → Bool} {s s' : EchoServer T Addr}
  {tr : List (EchoLabel T Addr E)} {l : EchoLabel T Addr E}

omit [DecidableEq Addr] in
/-- A task goes from having another connection, or none, to the same. -/
theorem serves_update [DecidableEq T] {t : T} {q' : Option Echo}
    (before : ∀ q, s.task t = some q → q.stream ≠ some c) (after : ∀ q, q' = some q → q.stream ≠ some c) :
    ∀ u q, q.stream = some c → (Function.update s.task t q' u = some q ↔ s.task u = some q) := by
  intro u q mine
  by_cases same : u = t
  · subst same
    rw [Function.update_self]
    exact ⟨fun goes => absurd mine (after q goes), fun at_t => absurd mine (before q at_t)⟩
  · rw [Function.update_of_ne same]

theorem take_ends (ended : ends server l = true) : Machine.take accepts server l = [] := by
  cases l with
  | done t i op r => cases op <;> cases r <;> simp_all [Machine.ends, reads, SocketOp.closes,
      Machine.take, accepts]
  | _ => rfl

variable [DecidableEq T]

/-- A socket is closed by the task that has it, or the listener by an acceptor. -/
theorem ends_cases (roomy : kills l = false) (ended : ends c l = true)
    (effect : Machine.Effect (sockets Fd Addr E).toObjects (echo server interrupted) s l s') :
    ∃ t q, l = .done t c .close .closed ∧ s.task t = some q ∧
      (q = .closing c ∨ q = .unwinding c ∨ q = .stopping ∧ c = server) ∧
      s'.object = Function.update s.object c .closed := by
  cases effect with
  | @done t q i op k r x at_t next done =>
      simp only [ends, Machine.ends, Bool.and_eq_true, decide_eq_true_eq] at ended
      obtain ⟨rfl, closes⟩ := ended
      have now : op = .close ∧ r = .closed := by
        cases op <;> cases r <;> simp_all [reads, SocketOp.closes]
      obtain ⟨rfl, rfl⟩ := now
      have done : (s.object i).done .close (.closed : Answer Fd Addr E) = some x := done
      obtain rfl := Socket.closed_of_done done rfl
      refine ⟨t, q, rfl, at_t, ?_, rfl⟩
      cases q <;> cases next <;> simp
  | @change i v x changes =>
      simp only [ends, Machine.ends, Bool.and_eq_true, decide_eq_true_eq] at ended
      cases v <;> simp_all [reads, Change.closes, kills]
  | _ => cases ended

/-- How the backlog changes. -/
theorem backlog_step
    (effect : Machine.Effect (sockets Fd Addr E).toObjects (echo server interrupted) s l s') :
    Machine.take accepts server l = [] ∧ (s'.object server).backlog = [] ∨
      (s.object server).backlog ++ Machine.put accepts server l =
        Machine.take accepts server l ++ (s'.object server).backlog := by
  cases ended : ends server l with
  | true => exact .inl ⟨take_ends ended, by rw [← accepts_content (E := E)]; exact effect.emptied accepts ended⟩
  | false =>
      obtain ⟨as, balance, cut⟩ := effect.balance accepts ended
      have whole : as = Machine.take accepts server l := by
        have same : List.Forall₂ Eq as (Machine.take accepts server l) := cut
        rwa [List.forall₂_eq_eq_eq] at same
      rw [accepts_content, accepts_content, whole] at balance
      exact .inr balance

theorem Handed.step (sound : Handed server s tr) (orderly : Orderly server (tr ++ [l]))
    (effect : Machine.Effect (sockets Fd Addr E).toObjects (echo server interrupted) s l s')
    (closed : ∀ c, ends c l = true → (s'.object server).backlog.count c = 0) :
    Handed server s' (tr ++ [l]) := by
  intro c
  obtain ⟨within, once⟩ := sound c
  cases ended : ends c l with
  | true =>
      rw [given_ends ended, handed_ends ended, closed c ended]
      exact ⟨Nat.le_refl _, Nat.zero_le _⟩
  | false =>
      rw [given_goes ended, handed_goes ended]
      constructor
      · rcases backlog_step effect with ⟨none_taken, empty⟩ | balance
        · rw [none_taken, empty]
          simp only [List.count_nil]
          omega
        · have counts := congrArg (List.count c) balance
          rw [List.count_append, List.count_append] at counts
          have puts : (Machine.put accepts server l).count c ≤ if hands l = some c then 1 else 0 :=
            put_count
          omega
      · by_cases new : hands l = some c
        · obtain ⟨apart, unused⟩ := orderly.fresh tr l [] rfl c new
          rw [if_pos new, if_neg apart, unused]
        · rw [if_neg new]
          exact once

/-! ## How a connection fares -/

/-- Only the network has to do with the connection. -/
structure Untouched (s s' : EchoServer T Addr) (l : EchoLabel T Addr E) (c : Fd) : Prop where
  goes : ends c l = false
  inbox : (s'.object c).inbox = (s.object c).inbox ++ Machine.put reads c l
  outbox : (s'.object c).outbox = (s.object c).outbox
  drained : (s.object c).Drained → (s'.object c).Drained

omit [DecidableEq T] in
theorem Untouched.of_same (goes : ends c l = false) (same : s'.object c = s.object c)
    (nothing : Machine.put reads c l = []) : Untouched s s' l c where
  goes := goes
  inbox := by simp [same, nothing]
  outbox := by rw [same]
  drained drained := by rwa [same]

omit [DecidableEq T] in
/-- What the network does to a socket. -/
theorem Untouched.of_change {i : Fd} {v : Change Fd Addr} {x : Socket Fd Addr}
    (changes : Socket.change (s.object i) v = some x) (stays : v.closes = false) :
    Untouched s { s with object := Function.update s.object i x }
      (.change i v : EchoLabel T Addr E) c := by
  have goes : ends c (.change i v : EchoLabel T Addr E) = false := by
    show (i = c && v.closes) = false
    rw [stays, Bool.and_false]
  by_cases same : i = c
  · subst same
    generalize at_i : s.object i = k at changes
    cases Socket.change_some changes with
    | close => cases stays
    | _ =>
        refine ⟨goes, ?_, ?_, ?_⟩ <;>
          simp +contextual [at_i, Machine.put, Socket.inbox, Socket.outbox, Socket.Drained, reads]
  · refine .of_same goes (Function.update_of_ne (Ne.symm same) ..) ?_
    simp [Machine.put, same]

/-- What a task with the connection `c` has done with the bytes that have come on it. -/
structure Fares (k : Socket Fd Addr) (q : Echo) (c : Fd) (bytes : List UInt8) : Prop where
  sent : k.outbox <+: bytes
  all : q ≠ .unwinding c → k.outbox ++ q.buf ++ k.inbox = bytes
  drained : q = .closing c → k.Drained

inductive Status (server : Fd) (s : EchoServer T Addr) (tr : List (EchoLabel T Addr E)) (c : Fd) : Prop
  | waiting : given server c tr = 0 → (∀ t, ¬ Serves s t c) → (s.object c).outbox = [] →
      (s.object c).inbox = arrived c tr → Status server s tr c
  | served {t q} : given server c tr ≠ 0 → s.task t = some q → q.stream = some c →
      (∀ u, Serves s u c → u = t) → Fares (s.object c) q c (arrived c tr) → Status server s tr c

variable {t : T} {q : Echo}

omit [DecidableEq T] in
theorem Fares.frame (fares : Fares (s.object c) q c (arrived c tr)) (untouched : Untouched s s' l c) :
    Fares (s'.object c) q c (arrived c (tr ++ [l])) where
  sent := by
    rw [untouched.outbox, arrived_goes untouched.goes]
    exact fares.sent.trans (List.prefix_append _ _)
  all sound := by
    rw [untouched.outbox, untouched.inbox, arrived_goes untouched.goes, ← fares.all sound]
    simp only [List.append_assoc]
  drained ends := untouched.drained (fares.drained ends)

omit [DecidableEq Addr] [DecidableEq T] in
theorem Fares.unwind {k : Socket Fd Addr} {bytes : List UInt8} (fares : Fares k q c bytes) :
    Fares k (.unwinding c) c bytes :=
  ⟨fares.sent, by simp, by simp⟩

section Moves

variable {inbox outbox bytes : List UInt8} {eof : Bool} {room room' : Nat}

omit [DecidableEq Addr] [DecidableEq T] in
theorem Fares.read {b : UInt8} {new : List UInt8}
    (fares : Fares (.stream (b :: new ++ inbox) eof room outbox : Socket Fd Addr) (.reading c) c bytes) :
    Fares (.stream inbox eof room outbox : Socket Fd Addr) (.writing c (b :: new)) c bytes where
  sent := fares.sent
  all _ := by simpa [Socket.outbox, Socket.inbox, Echo.buf] using fares.all (by simp)
  drained ends := by cases ends

omit [DecidableEq Addr] [DecidableEq T] in
theorem Fares.drain (fares : Fares (.stream inbox eof room outbox : Socket Fd Addr) (.reading c) c bytes)
    (ended : inbox = [] ∧ eof = true) :
    Fares (.stream inbox eof room outbox : Socket Fd Addr) (.closing c) c bytes where
  sent := fares.sent
  all _ := fares.all (by simp)
  drained _ := ended

omit [DecidableEq Addr] [DecidableEq T] in
/-- The first bytes of the buffer are sent. -/
theorem Fares.write {buf : List UInt8} (n : Nat)
    (fares : Fares (.stream inbox eof room outbox : Socket Fd Addr) (.writing c buf) c bytes) :
    Fares (.stream inbox eof room' (outbox ++ buf.take n) : Socket Fd Addr) (.rest c (buf.drop n)) c
      bytes := by
  have all := fares.all (by simp)
  simp only [Socket.outbox, Socket.inbox, Echo.buf] at all
  refine ⟨?_, fun _ => ?_, fun ends => ?_⟩
  · have part : buf.take n <+: buf ++ inbox := (List.take_prefix n buf).trans (List.prefix_append _ _)
    simpa [Socket.outbox, ← all] using part
  · rw [← all]
    rcases Echo.rest_cases c (buf.drop n) with ⟨goes_on, empty⟩ | goes_on
    · rw [goes_on]
      have whole : buf.take n = buf := by
        conv => rhs; rw [← List.take_append_drop n buf, empty, List.append_nil]
      simp [Socket.outbox, Socket.inbox, Echo.buf, whole]
    · rw [goes_on]
      simp [Socket.outbox, Socket.inbox, Echo.buf]
  · rcases Echo.rest_cases c (buf.drop n) with ⟨goes_on, -⟩ | goes_on <;> rw [goes_on] at ends <;>
      cases ends

end Moves

omit [DecidableEq T] in
theorem Status.frame (status : Status server s tr c) (untouched : Untouched s s' l c)
    (takes : c ∉ Machine.take accepts server l)
    (same : ∀ u q, q.stream = some c → (s'.task u = some q ↔ s.task u = some q)) :
    Status server s' (tr ++ [l]) c := by
  have serves (u : T) : Serves s' u c ↔ Serves s u c :=
    exists_congr fun q => ⟨fun ⟨at_u, mine⟩ => ⟨(same u q mine).1 at_u, mine⟩,
      fun ⟨at_u, mine⟩ => ⟨(same u q mine).2 at_u, mine⟩⟩
  have accepted : given server c (tr ++ [l]) = given server c tr := by
    rw [given_goes untouched.goes, List.count_eq_zero_of_not_mem takes, Nat.add_zero]
  cases status with
  | waiting new alone sent come =>
      refine .waiting (accepted.trans new) (fun u => mt (serves u).1 (alone u)) ?_ ?_
      · rw [untouched.outbox, sent]
      · rw [untouched.inbox, arrived_goes untouched.goes, come]
  | served old at_t mine alone fares =>
      exact .served (accepted.trans_ne old) ((same _ _ mine).2 at_t) mine
        (fun u on => alone u ((serves u).1 on)) (fares.frame untouched)

omit [DecidableEq T] in
/-- Whose connection it is, where it has a task. -/
theorem Status.mine (status : Status server s tr c) (at_t : s.task t = some q)
    (on : q.stream = some c) : given server c tr ≠ 0 ∧ (∀ u, Serves s u c → u = t) ∧
      Fares (s.object c) q c (arrived c tr) := by
  cases status with
  | waiting _ alone => exact absurd ⟨q, at_t, on⟩ (alone t)
  | @served t' q' old at_t' _ alone fares =>
      obtain rfl := alone t ⟨q, at_t, on⟩
      obtain rfl := Option.some.inj (at_t.symm.trans at_t')
      exact ⟨old, alone, fares⟩

/-- A task goes on with its connection. -/
theorem Status.goes (statuses : ∀ c, Status server s tr c) (at_t : s.task t = some q)
    {c₀ : Fd} (on : q.stream = some c₀) {q' : Echo} (on' : q'.stream = some c₀)
    (task : s'.task = Function.update s.task t (some q')) (goes : ends c₀ l = false)
    (others : ∀ c, c ≠ c₀ → Untouched s s' l c) (takes : Machine.take accepts server l = [])
    (fares : Fares (s.object c₀) q c₀ (arrived c₀ tr) →
      Fares (s'.object c₀) q' c₀ (arrived c₀ tr ++ Machine.put reads c₀ l))
    (c : Fd) : Status server s' (tr ++ [l]) c := by
  by_cases same : c = c₀
  · subst same
    obtain ⟨old, alone, before⟩ := (statuses c).mine at_t on
    refine .served (t := t) (q := q') ?_ (by rw [task, Function.update_self]) on' ?_ ?_
    · rw [given_goes goes, takes]
      exact old
    · rintro u ⟨q'', at_u, mine⟩
      by_contra other
      rw [task, Function.update_of_ne other] at at_u
      exact other (alone u ⟨q'', at_u, mine⟩)
    · rw [arrived_goes goes]
      exact fares before
  · refine (statuses c).frame (others c same) (by simp [takes]) ?_
    rw [task]
    refine serves_update ?_ ?_
    · intro p at_p mine
      obtain rfl := Option.some.inj (at_t.symm.trans at_p)
      exact same (Option.some.inj (mine.symm.trans on))
    · rintro _ ⟨⟩ mine
      exact same (Option.some.inj (mine.symm.trans on'))

/-- A connection is accepted. -/
theorem Status.accept (statuses : ∀ c, Status server s tr c) {c₀ : Fd} {pending : Nat}
    {backlog : List Fd} (at_t : s.task t = some .incoming)
    (task : s'.task = Function.update s.task t (some (.accepted c₀)))
    (listens : s.object server = .listener pending (c₀ :: backlog))
    (object : s'.object = Function.update s.object server (.listener pending backlog))
    (new : given server c₀ tr = 0) (goes : ∀ c, ends c l = false)
    (puts : ∀ c, Machine.put reads c l = []) (takes : Machine.take accepts server l = [c₀])
    (c : Fd) : Status server s' (tr ++ [l]) c := by
  have untouched : Untouched s s' l c := by
    by_cases same : c = server
    · subst same
      refine ⟨goes c, ?_, ?_, ?_⟩ <;>
        simp [object, listens, puts, Socket.inbox, Socket.outbox, Socket.Drained]
    · exact .of_same (goes c) (by rw [object, Function.update_of_ne same]) (puts c)
  by_cases same : c = c₀
  · subst same
    cases statuses c with
    | served old => exact absurd new old
    | waiting _ alone sent come =>
        refine .served (t := t) (q := .accepted c) ?_ (by rw [task, Function.update_self]) rfl ?_ ?_
        · rw [given_goes (goes c), takes]
          simp
        · rintro u ⟨p, at_u, on⟩
          by_contra other
          rw [task, Function.update_of_ne other] at at_u
          exact alone u ⟨p, at_u, on⟩
        · rw [arrived_goes (goes c), puts, List.append_nil]
          refine ⟨?_, fun _ => ?_, by simp⟩
          · rw [untouched.outbox, sent]
            exact List.nil_prefix
          · rw [untouched.outbox, untouched.inbox, sent, come, puts]
            simp [Echo.buf]
  · refine (statuses c).frame untouched (by simpa [takes] using same) ?_
    rw [task]
    refine serves_update ?_ ?_
    · intro p at_p
      obtain rfl := Option.some.inj (at_t.symm.trans at_p)
      simp [Echo.stream]
    · rintro _ ⟨⟩ mine
      exact same (Option.some.inj mine).symm

omit [DecidableEq T] in
/-- A socket is closed that no task has after that. -/
theorem Status.close (statuses : ∀ c, Status server s tr c) {c₀ : Fd}
    (object : s'.object = Function.update s.object c₀ .closed) (ended : ends c₀ l = true)
    (others : ∀ c, c ≠ c₀ → ends c l = false) (puts : ∀ c, Machine.put reads c l = [])
    (takes : Machine.take accepts server l = []) (nobody : ∀ u, ¬ Serves s' u c₀)
    (same : ∀ c, c ≠ c₀ → ∀ u q, q.stream = some c → (s'.task u = some q ↔ s.task u = some q))
    (c : Fd) : Status server s' (tr ++ [l]) c := by
  by_cases mine : c = c₀
  · subst mine
    refine .waiting (given_ends ended) nobody ?_ ?_
    · simp [object, Socket.outbox]
    · simp [object, Socket.inbox, arrived_ends ended]
  · exact (statuses c).frame (.of_same (others c mine) (by rw [object, Function.update_of_ne mine])
      (puts c)) (by simp [takes]) (same c mine)

/-- A task that has no connection before nor after the step. -/
theorem Status.idle (statuses : ∀ c, Status server s tr c) {q' : Option Echo}
    (before : ∀ p, s.task t = some p → p.stream = none) (after : ∀ p, q' = some p → p.stream = none)
    (task : s'.task = Function.update s.task t q') (untouched : ∀ c, Untouched s s' l c)
    (takes : Machine.take accepts server l = [])
    (c : Fd) : Status server s' (tr ++ [l]) c := by
  refine (statuses c).frame (untouched c) (by simp [takes]) ?_
  rw [task]
  exact serves_update (fun p at_p => by simp [before p at_p]) fun p goes => by simp [after p goes]

section Done

variable {i : Fd} {op : SocketOp} {k : Option (Answer Fd Addr E) → Echo} {r : Answer Fd Addr E}
  {x : Socket Fd Addr} {q' : Echo}

omit [DecidableEq T] in
theorem ends_done (stays : op.closes r = false) : ends c (.done t i op r : EchoLabel T Addr E) = false := by
  show (i = c && op.closes r) = false
  rw [stays, Bool.and_false]

/-- A call on another socket has returned. -/
theorem Untouched.of_done (stays : op.closes r = false) (other : c ≠ i) : Untouched s
    ({ s with object := Function.update s.object i x }.setTask t (some q')) (.done t i op r) c := by
  refine .of_same (ends_done stays) (Function.update_of_ne other ..) ?_
  simp [Machine.put, Ne.symm other]

/-- A call has returned that has left the socket as it was. -/
theorem Untouched.of_done_same (stays : op.closes r = false) (same : x = s.object i) : Untouched s
    ({ s with object := Function.update s.object i x }.setTask t (some q')) (.done t i op r) c := by
  by_cases here : c = i
  · subst here
    refine .of_same (ends_done stays) (by simp [same]) ?_
    simp [Machine.put, reads]
  · exact .of_done stays here

omit [DecidableEq T] in
theorem take_error {e : E} :
    Machine.take accepts server (.done t i op (.error e) : EchoLabel T Addr E) = [] := by
  simp [Machine.take, accepts]

theorem Status.done_incoming (statuses : ∀ c, Status server s tr c)
    (new : ∀ pending c backlog, s.object server = .listener pending (c :: backlog) →
      given server c tr = 0) (at_t : s.task t = some .incoming)
    (next : echo server interrupted .incoming = .call i op k)
    (done : (s.object i).done op r = some x) (c : Fd) : Status server
      ({ s with object := Function.update s.object i x }.setTask t (some (k (some r))))
      (tr ++ [.done t i op r]) c := by
  cases next
  generalize at_i : s.object server = y at done
  cases Socket.done_some done with
  | error =>
      refine idle statuses ?_ ?_ rfl (fun c => .of_done_same rfl at_i.symm) take_error c
      · intro p at_p
        obtain rfl := Option.some.inj (at_t.symm.trans at_p)
        rfl
      · rintro _ ⟨⟩
        rfl
  | accept =>
      exact accept statuses at_t rfl at_i rfl (new _ _ _ at_i) (fun c => ends_done rfl)
        (fun c => by simp [Machine.put, reads]) (by simp [Machine.take, accepts]) c

theorem Status.done_reading (statuses : ∀ c, Status server s tr c) {c₀ : Fd}
    (at_t : s.task t = some (.reading c₀))
    (next : echo server interrupted (.reading c₀) = .call i op k)
    (done : (s.object i).done op r = some x) (c : Fd) : Status server
      ({ s with object := Function.update s.object i x }.setTask t (some (k (some r))))
      (tr ++ [.done t i op r]) c := by
  cases next
  generalize at_i : s.object i = y at done
  cases Socket.done_some done with
  | error =>
      refine goes statuses at_t rfl rfl rfl (ends_done rfl) (fun c other => .of_done rfl other)
        take_error ?_ c
      intro fares
      simpa [at_i, Machine.put, reads] using fares.unwind
  | @read bytes rest eof room outbox _ fits ends =>
      refine goes statuses at_t rfl ?_ rfl (ends_done rfl) (fun c other => .of_done rfl other)
        (by simp [Machine.take, accepts]) ?_ c
      · cases bytes <;> rfl
      · intro fares
        rw [at_i] at fares
        cases bytes with
        | nil => simpa [Machine.put, reads] using fares.drain (by simpa using ends)
        | cons b bytes => simpa [Machine.put, reads] using fares.read

theorem Status.done_writing (statuses : ∀ c, Status server s tr c) {c₀ : Fd} {buf : List UInt8}
    (at_t : s.task t = some (.writing c₀ buf))
    (next : echo server interrupted (.writing c₀ buf) = .call i op k)
    (done : (s.object i).done op r = some x) (c : Fd) : Status server
      ({ s with object := Function.update s.object i x }.setTask t (some (k (some r))))
      (tr ++ [.done t i op r]) c := by
  cases next
  generalize at_i : s.object i = y at done
  cases Socket.done_some done with
  | @error _ _ e =>
      refine goes statuses at_t rfl ?_ rfl (ends_done rfl) (fun c other => .of_done rfl other)
        take_error ?_ c
      · by_cases again : interrupted e = true <;> simp [again, Echo.stream]
      · intro fares
        by_cases again : interrupted e = true
        · simpa [again, at_i, Machine.put, reads] using fares
        · simpa [again, at_i, Machine.put, reads] using fares.unwind
  | @write inbox eof room outbox _ n fits room' moves =>
      cases n with
      | zero =>
          refine goes statuses at_t rfl rfl rfl (ends_done rfl) (fun c other => .of_done rfl other)
            (by simp [Machine.take, accepts]) ?_ c
          intro fares
          rw [at_i] at fares
          simpa [Machine.put, reads] using fares.unwind
      | succ n =>
          refine goes statuses at_t rfl ?_ rfl (ends_done rfl) (fun c other => .of_done rfl other)
            (by simp [Machine.take, accepts]) ?_ c
          · show (Echo.rest i (buf.drop (n + 1))).stream = some i
            rcases Echo.rest_cases i (buf.drop (n + 1)) with ⟨goes_on, -⟩ | goes_on <;>
              rw [goes_on] <;> rfl
          · intro fares
            rw [at_i] at fares
            simpa [Machine.put, reads] using fares.write (n + 1)

/-- A call returns to the task that made it, and the socket stays open. -/
theorem Status.done (statuses : ∀ c, Status server s tr c)
    (new : ∀ pending c backlog, s.object server = .listener pending (c :: backlog) →
      given server c tr = 0) (at_t : s.task t = some q)
    (next : echo server interrupted q = .call i op k) (done : (s.object i).done op r = some x)
    (stays : op.closes r = false) (c : Fd) : Status server
      ({ s with object := Function.update s.object i x }.setTask t (some (k (some r))))
      (tr ++ [.done t i op r]) c := by
  cases q with
  | incoming => exact done_incoming statuses new at_t next done c
  | reading => exact done_reading statuses at_t next done c
  | writing => exact done_writing statuses at_t next done c
  -- all that can come of a drop is the close
  | closing | unwinding =>
      cases next
      generalize s.object i = y at done
      cases Socket.done_some done with
      | error no_close => exact absurd rfl no_close
      | close => cases stays
  | stopping =>
      cases next
      generalize s.object server = y at done
      cases Socket.done_some done with
      | error no_close => exact absurd rfl no_close
      | close => cases stays
  | accepted | returned | panicked => cases next

end Done

/-- A call has failed in `wait_event`, having done nothing. -/
theorem Status.failed (statuses : ∀ c, Status server s tr c) {i : Fd} {op : SocketOp}
    {k : Option (Answer Fd Addr E) → Echo} (at_t : s.task t = some q)
    (next : echo server interrupted q = .call i op k) (c : Fd) :
    Status server (s.setTask t (some (k none))) (tr ++ [.failed t]) c := by
  have takes : Machine.take accepts server (.failed t : EchoLabel T Addr E) = [] := rfl
  have untouched (c : Fd) : Untouched s (s.setTask t (some (k none)))
      (.failed t : EchoLabel T Addr E) c := .of_same rfl rfl rfl
  cases q with
  | incoming | stopping =>
      cases next
      refine idle statuses ?_ ?_ rfl untouched takes c
      · intro p at_p
        obtain rfl := Option.some.inj (at_t.symm.trans at_p)
        rfl
      · rintro _ ⟨⟩
        rfl
  | reading | writing =>
      cases next
      exact goes statuses at_t rfl rfl rfl rfl (fun c _ => untouched c) takes
        (fun fares => by simpa [Machine.put] using fares.unwind) c
  | closing | unwinding =>
      cases next
      exact goes statuses at_t rfl rfl rfl rfl (fun c _ => untouched c) takes
        (fun fares => by simpa [Machine.put] using fares) c
  | accepted | returned | panicked => cases next

/-- The coroutine of a connection is spawned. -/
theorem Status.spawn (statuses : ∀ c, Status server s tr c) {c₀ : Fd} {u : T}
    (at_t : s.task t = some (.accepted c₀)) (nobody : s.task u = none)
    (task : s'.task = Function.update (Function.update s.task u (some (.reading c₀))) t (some .incoming))
    (untouched : ∀ c, Untouched s s' l c) (takes : Machine.take accepts server l = [])
    (c : Fd) : Status server s' (tr ++ [l]) c := by
  have apart : u ≠ t := by
    rintro rfl
    simp [nobody] at at_t
  have at_u : s'.task u = some (.reading c₀) := by
    rw [task, Function.update_of_ne apart, Function.update_self]
  have elsewhere {v : T} (other : v ≠ t) (older : v ≠ u) : s'.task v = s.task v := by
    rw [task, Function.update_of_ne other, Function.update_of_ne older]
  have gone : s'.task t = some .incoming := by rw [task, Function.update_self]
  by_cases same : c = c₀
  · subst same
    obtain ⟨old, alone, fares⟩ := (statuses c).mine at_t rfl
    have reading : Fares (s.object c) (.reading c) c (arrived c tr) :=
      ⟨fares.sent, fun _ => fares.all (by simp), by simp⟩
    refine .served (t := u) (q := .reading c) ?_ at_u rfl ?_ (reading.frame (untouched c))
    · rw [given_goes (untouched c).goes, takes]
      exact old
    · rintro v ⟨p, at_v, mine⟩
      by_contra older
      by_cases other : v = t
      · subst other
        obtain rfl := Option.some.inj (gone.symm.trans at_v)
        cases mine
      · exact other (alone v ⟨p, by rwa [← elsewhere other older], mine⟩)
  · refine (statuses c).frame (untouched c) (by simp [takes]) ?_
    intro v p mine
    by_cases other : v = t
    · subst other
      rw [gone, at_t]
      constructor
      · rintro ⟨⟩
        cases mine
      · rintro ⟨⟩
        exact absurd (Option.some.inj mine).symm same
    · by_cases older : v = u
      · subst older
        rw [at_u, nobody]
        refine ⟨?_, by simp⟩
        rintro ⟨⟩
        exact absurd (Option.some.inj mine).symm same
      · rw [elsewhere other older]

/-- A drop returns to the task that made it: nobody has the connection any more. -/
theorem Status.dropped (statuses : ∀ c, Status server s tr c) (sound : Handed server s tr)
    {c₀ : Fd} {q' : Echo} (at_t : s.task t = some q)
    (had : q.stream = some c₀ ∨ q = .stopping ∧ c₀ = server) (off : q'.stream = none) (c : Fd) :
    Status server ({ s with object := Function.update s.object c₀ .closed }.setTask t (some q'))
      (tr ++ [.done t c₀ .close .closed]) c := by
  have ended (d : Fd) : ends d (.done t c₀ .close .closed : EchoLabel T Addr E) = decide (c₀ = d) := by
    show (c₀ = d && true) = decide (c₀ = d)
    rw [Bool.and_true]
  have alone (u : T) (serves : Serves s u c₀) : u = t := by
    obtain ⟨p, at_u, mine⟩ := serves
    rcases had with on | ⟨rfl, rfl⟩
    · exact ((statuses c₀).mine at_t on).2.1 u ⟨p, at_u, mine⟩
    · have never := sound c₀
      rw [if_pos rfl] at never
      exact absurd ((statuses c₀).mine at_u mine).1 (by omega)
  refine close statuses rfl (by rw [ended]; simp) (fun d other => ?_)
    (fun d => by simp [Machine.put, reads]) (by simp [Machine.take, accepts]) ?_ ?_ c
  · rw [ended]
    simpa using Ne.symm other
  · rintro u ⟨p, at_u, mine⟩
    simp only [Machine.setTask_task] at at_u
    by_cases same : u = t
    · subst same
      obtain rfl : q' = p := by simpa using at_u
      rw [off] at mine
      cases mine
    · rw [Function.update_of_ne same] at at_u
      exact same (alone u ⟨p, at_u, mine⟩)
  · intro d other
    refine serves_update ?_ ?_
    · intro p at_p mine
      obtain rfl := Option.some.inj (at_t.symm.trans at_p)
      rcases had with on | ⟨rfl, -⟩
      · exact other (Option.some.inj (mine.symm.trans on))
      · cases mine
    · rintro _ ⟨⟩ mine
      rw [off] at mine
      cases mine

theorem Status.step (statuses : ∀ c, Status server s tr c) (sound : Handed server s tr)
    (orderly : Orderly server (tr ++ [l]))
    (effect : Machine.Effect (sockets Fd Addr E).toObjects (echo server interrupted) s l s') :
    ∀ c, Status server s' (tr ++ [l]) c := by
  have roomy : kills l = false := orderly.roomy l (by simp)
  have frame (t : T) (q' : Option Echo) (goes : ∀ c, ends c l = false)
      (nothing : ∀ c, Machine.put reads c l = []) (c : Fd) : Untouched s (s.setTask t q') l c :=
    .of_same (goes c) rfl (nothing c)
  cases effect with
  | @boot t q nobody =>
      obtain rfl := orderly.boots t q (by simp)
      refine idle statuses (by simp [nobody]) ?_ rfl (frame t _ (fun _ => rfl) fun _ => rfl) rfl
      rintro _ ⟨⟩
      rfl
  | @done t q i op k r x at_t next done =>
      cases closes : op.closes r with
      | false =>
          refine Status.done statuses ?_ at_t next done closes
          intro pending c backlog listens
          -- what is in the backlog has not been accepted
          have once := sound c
          have waits : 0 < (s.object server).backlog.count c := by
            rw [listens]
            simp [Socket.backlog]
          split at once <;> omega
      | true =>
          have now : op = .close ∧ r = .closed := by
            cases op <;> cases r <;> simp_all [SocketOp.closes]
          obtain ⟨rfl, rfl⟩ := now
          have done : (s.object i).done .close (.closed : Answer Fd Addr E) = some x := done
          obtain rfl := Socket.closed_of_done done rfl
          cases q <;> cases next
          · exact dropped statuses sound at_t (.inl rfl) rfl
          · exact dropped statuses sound at_t (.inl rfl) rfl
          · exact dropped statuses sound at_t (.inr ⟨rfl, rfl⟩) rfl
  | failed at_t next => exact Status.failed statuses at_t next
  | killed => cases roomy
  | @spawn t u q child rest at_t next nobody =>
      cases q <;> cases next
      exact spawn statuses at_t nobody rfl (fun c => .of_same rfl rfl rfl) rfl
  | @sched t q rest at_t next => cases q <;> cases next
  | @returned t q at_t next | @panicked t q at_t next =>
      cases q <;> cases next
      refine idle statuses ?_ (by simp) rfl (frame t none (fun _ => rfl) fun _ => rfl) rfl
      intro p at_p
      obtain rfl := Option.some.inj (at_t.symm.trans at_p)
      rfl
  | @change i v x changes =>
      have stays : v.closes = false := by
        cases v <;> first | rfl | cases roomy
      intro c
      exact (statuses c).frame (.of_change changes stays) (by simp [Machine.take]) (fun _ _ _ => Iff.rfl)

/-- A socket is closed with no other connection in the backlog under its descriptor. -/
theorem Handed.closed (statuses : ∀ c, Status server s tr c) (sound : Handed server s tr)
    (orderly : Orderly server (tr ++ [l]))
    (effect : Machine.Effect (sockets Fd Addr E).toObjects (echo server interrupted) s l s')
    (ended : ends c l = true) : (s'.object server).backlog.count c = 0 := by
  obtain ⟨t, q, -, at_t, had, object⟩ := ends_cases (orderly.roomy l (by simp)) ended effect
  rw [object]
  by_cases own : c = server
  · subst own
    simp [Socket.backlog]
  · rw [Function.update_of_ne (Ne.symm own)]
    have once := sound c
    rw [if_neg own] at once
    rcases had with rfl | rfl | ⟨-, same⟩
    · have old := ((statuses c).mine at_t rfl).1
      omega
    · have old := ((statuses c).mine at_t rfl).1
      omega
    · exact absurd same own

end Step

/-! ## Every run -/

section Runs

variable [DecidableEq T] {server : Fd} {interrupted : E → Bool} {s : EchoServer T Addr}
  {tr : List (EchoLabel T Addr E)}

/-- What the server has done, and does; of a connection it is said from its descriptor's last
close on. -/
structure EchoServed (server : Fd) (s : EchoServer T Addr) (tr : List (EchoLabel T Addr E)) : Prop where
  /-- the connections are accepted in the order they come -/
  accepted : acceptedBy server tr ++ (s.object server).backlog = connections server tr
  /-- what is sent has come, and is sent in that order -/
  sent : ∀ c, (s.object c).outbox <+: arrived c tr
  /-- a connection has one task, and what that has read it has sent or still has -/
  served : ∀ t q c, s.task t = some q → q.stream = some c → (∀ u, Serves s u c → u = t) ∧
    (q ≠ .unwinding c → (s.object c).outbox ++ q.buf ++ (s.object c).inbox = arrived c tr)
  /-- one that leaves the loop has sent everything -/
  closes : ∀ t c, s.task t = some (.closing c) →
    (s.object c).Drained ∧ (s.object c).outbox = arrived c tr
  /-- an accepted connection is given up only by its close -/
  kept : ∀ c, given server c tr ≠ 0 → ∃ t, Serves s t c

omit [DecidableEq T] in
theorem EchoServed.of_status
    (fifo : acceptedBy server tr ++ (s.object server).backlog = connections server tr)
    (statuses : ∀ c, Status server s tr c) : EchoServed server s tr where
  accepted := fifo
  sent c := by
    cases statuses c with
    | waiting _ _ sent =>
        rw [sent]
        exact List.nil_prefix
    | served _ _ _ _ fares => exact fares.sent
  served t q c at_t mine := by
    obtain ⟨-, alone, fares⟩ := (statuses c).mine at_t mine
    exact ⟨alone, fares.all⟩
  closes t c at_t := by
    obtain ⟨-, -, fares⟩ := (statuses c).mine at_t rfl
    have drained := fares.drained rfl
    refine ⟨drained, ?_⟩
    simpa [Echo.buf, drained.inbox] using fares.all (by simp)
  kept c old := by
    cases statuses c with
    | waiting new => exact absurd new old
    | @served t q _ at_t mine => exact ⟨t, q, at_t, mine⟩

/-- What has come is accepted, in order, or in the backlog. -/
theorem accepted_fifo {program : Program Q Fd SocketOp (Answer Fd Addr E)}
    {s : Machine (Socket Fd Addr) Fd T Q} {tr : List (SocketLabel T Addr E Q)}
    (ran : (machine (sockets Fd Addr E).toObjects program).exec (.start .closed) tr = some s) :
    acceptedBy server tr ++ (s.object server).backlog = connections server tr := by
  have drawn := (Machine.account accepts (fun _ => rfl) ran server).whole
  rw [accepts_content] at drawn
  exact drawn.symm

theorem EchoServed.of_exec
    (ran : (machine (sockets Fd Addr E).toObjects (echo server interrupted)).exec
      (.start .closed) tr = some s) (orderly : Orderly server tr) : EchoServed server s tr := by
  have start : Handed server (.start .closed : EchoServer T Addr) ([] : List (EchoLabel T Addr E)) ∧
      ∀ c, Status server (.start .closed : EchoServer T Addr) ([] : List (EchoLabel T Addr E)) c :=
    ⟨fun c => ⟨Nat.le_refl _, Nat.zero_le _⟩,
      fun c => .waiting rfl (fun t ⟨_, at_t, _⟩ => by cases at_t) rfl rfl⟩
  have holds : Handed server s tr ∧ ∀ c, Status server s tr c := by
    refine Lts.exec_induction
      (I := fun s tr => Orderly server tr → Handed server s tr ∧ ∀ c, Status server s tr c) ran
      (fun _ => start) ?_ orderly
    intro m tr l t _ ih taken orderly
    have effect := Machine.effect_iff_step.1 taken
    obtain ⟨sound, statuses⟩ := ih orderly.of_concat
    exact ⟨sound.step orderly effect fun c => Handed.closed statuses sound orderly effect,
      Status.step statuses sound orderly effect⟩
  exact .of_status (accepted_fifo ran) holds.2

theorem serves_echo [DecidableEq P]
    {s : Running P (Socket Fd Addr) SocketOp Echo × List (EchoLabel CoroutineRefMut Addr E)}
    (reached : ((running P (sockets Fd Addr E) (echo server interrupted)).traced fun s act =>
      act.event (echo server interrupted) s).Reach Lts.anyStep (.init (sockets Fd Addr E), []) s)
    (orderly : Orderly server s.2) : EchoServed server s.1.shows s.2 := by
  obtain ⟨_, ran, rfl, -⟩ := (refines_machine (sockets Fd Addr E) (echo server interrupted)).run
    ⟨rfl, .start, .init⟩ reached
  exact .of_exec ran orderly

/-- Where the runtime idles and the server is still in `accept`, every connection that has come
is accepted, and all that has come on an open one was sent back, but for one whose socket takes
no more. -/
theorem echo_idle [DecidableEq P]
    {s : Running P (Socket Fd Addr) SocketOp Echo × List (EchoLabel CoroutineRefMut Addr E)}
    (reached : ((running P (sockets Fd Addr E) (echo server interrupted)).traced fun s act =>
      act.event (echo server interrupted) s).Reach (fun s act => FindsVacant s.1 act)
        (.init (sockets Fd Addr E), []) s)
    (orderly : Orderly server s.2) (idle : Idle s.1.calling.sys)
    (listens : ∃ t, s.1.task t = some .incoming) :
    (s.1.calling.socket server).pending = 0 ∧ acceptedBy server s.2 = connections server s.2 ∧
      ∀ c, given server c s.2 ≠ 0 → (s.1.calling.socket c).outbox = arrived c s.2 ∨
        (s.1.calling.socket c).ready EventSet.writable = false := by
  have runs := reached.mono fun _ _ _ => trivial
  obtain ⟨_, ran, rfl, -⟩ := (refines_machine (sockets Fd Addr E) (echo server interrupted)).run
    ⟨rfl, .start, .init⟩ runs
  have served := EchoServed.of_exec ran orderly
  have stops {t : CoroutineRefMut} {i : Fd} {op : SocketOp} {q : Echo}
      {k : Option (Answer Fd Addr E) → Echo} (at_t : s.1.task t = some q)
      (next : echo server interrupted q = .call i op k) :
      (s.1.calling.socket i).ready op.interest = false ∧ op ≠ .close := by
    obtain ⟨x, k', -, next', unready, k'', blocks⟩ := stopped_in_call reached.untraced_meets idle at_t
    obtain ⟨rfl, rfl, -⟩ := Next.call.inj (next.symm.trans next')
    refine ⟨unready, ?_⟩
    intro drops
    rw [drops] at blocks
    have never : Socket.wouldBlock k'' .close = true := blocks
    cases k'' <;> cases never
  obtain ⟨t, at_t⟩ := listens
  obtain ⟨none_pending, none_left, -⟩ := Socket.unready (stops at_t rfl).1
  refine ⟨none_pending, ?_, fun c come => ?_⟩
  · have fifo := served.accepted
    have none_left : (s.1.shows.object server).backlog = [] := none_left
    rwa [none_left, List.append_nil] at fifo
  obtain ⟨u, q, at_u, mine⟩ := served.kept c come
  cases q with
  | incoming | stopping | returned | panicked => cases mine
  | accepted d =>
      obtain ⟨x, k', -, next, -⟩ := stopped_in_call reached.untraced_meets idle at_u
      cases next
  | reading d =>
      obtain rfl : d = c := Option.some.inj mine
      have whole := (served.served u _ d at_u rfl).2 (by simp)
      have none_left : (s.1.shows.object d).inbox = [] := (Socket.unready (stops at_u rfl).1).2.2
      rw [none_left] at whole
      exact .inl (show (s.1.shows.object d).outbox = _ by simpa [Echo.buf] using whole)
  | writing d buf =>
      obtain rfl : d = c := Option.some.inj mine
      exact .inr (stops at_u rfl).1
  | closing d | unwinding d => exact absurd rfl (stops at_u rfl).2

end Runs

/-- A connection sends two bytes, which are written one by one, and ends; another gets its
descriptor, and has its byte back. -/
def echoesTwo : List (RunAct Unit SocketOp (Answer Fd Nat Nat) (Change Fd Nat) Echo) :=
  .flatten [
    [.change 3 .listen, .thread (.spawn ()), .boot () .incoming, .thread (.enter ())], taus () 5,
    [.change 3 .arrive, .change 4 .stream, .change 4 (.acknowledged 9), .change 4 (.data [104, 105]),
      .change 3 (.connection 4), .next (), .attempt () (some (.accepted 4)), .next (), .spawned ()],
    taus () 4,
    [.next (), .attempt () (some (.read [104, 105])), .next (), .attempt () (some (.written 1)),
      .next (), .attempt () (some (.written 1)), .next (), .attempt () none, .waitEvent () 0,
      .register () true],
    taus () 5, [.next (), .attempt () none, .waitEvent () 1, .register () true], taus () 5,
    [.change 4 .eof, .thread (.poll () [4])], taus () 7,
    [.attempt () (some (.read [])), .next (), .attempt () (some .closed), .next ()], taus () 6,
    [.change 3 .arrive, .change 4 .stream, .change 4 (.acknowledged 9), .change 4 (.data [33]),
      .change 3 (.connection 4), .thread (.poll () [3])],
    taus () 7, [.attempt () (some (.accepted 4)), .next (), .spawned ()], taus () 4,
    [.next (), .attempt () (some (.read [33])), .next (), .attempt () (some (.written 1)), .next (),
      .attempt () none, .waitEvent () 0, .register () true],
    taus () 5, [.next (), .attempt () none, .waitEvent () 1, .register () true], taus () 5]

/-- At its end. -/
theorem echoes_two_ends : ∃ s,
    ((running Unit (sockets Fd Nat Nat) (echo 3 fun _ => false)).traced fun s act =>
      act.event (echo 3 fun _ => false) s).exec (.init (sockets Fd Nat Nat), []) echoesTwo = some s ∧
    (acceptedBy 3 s.2 = [4, 4] ∧ given 3 4 s.2 = 1 ∧ (s.1.calling.socket 4).outbox = [33] ∧
      s.1.task 0 = some .incoming) ∧ Orderly 3 s.2 ∧ Idle s.1.calling.sys := by
  have runs : (((running Unit (sockets Fd Nat Nat) (echo 3 fun _ => false)).traced fun s act =>
      act.event (echo 3 fun _ => false) s).exec (.init (sockets Fd Nat Nat), []) echoesTwo).any
        (fun s => (acceptedBy 3 s.2 = [4, 4] ∧ given 3 4 s.2 = 1 ∧
            (s.1.calling.socket 4).outbox = [33] ∧ s.1.task 0 = some .incoming) ∧
          (s.2.all (fun | .boot _ q => q = .incoming | _ => true) = true ∧
            InOrder (fun before l => ∀ c ∈ hands l, c ≠ 3 ∧ handed c before = 0) s.2 ∧
            ∀ l ∈ s.2, kills l = false) ∧
          s.1.calling.sys.globalQueue.items = [] ∧
          ∀ p, (s.1.calling.sys.threads p).pc.hand = none ∧
            (s.1.calling.sys.threads p).newSpawned = none ∧
            (s.1.calling.sys.threads p).pc.batch = [] ∧
            ∀ e ∈ (s.1.calling.sys.threads p).slabs.entries.entries,
              (s.1.calling.sys.threads p).eventLoop.isPending e.2.2 = false) = true := by
    decide +kernel
  obtain ⟨s, run, ends⟩ := (Option.any_eq_true _ _).1 runs
  obtain ⟨echoed, ⟨boots, fresh, roomy⟩, queue, threads⟩ := of_decide_eq_true ends
  have reached : InPrograms _ _ s.1 := .of_reach (Lts.Reach.of_exec_any run).untraced
  refine ⟨s, run, echoed, ⟨?_, fresh, roomy⟩, .of_entries (runtime_of_calls reached.reached) queue threads⟩
  intro t q mem
  simpa using List.all_eq_true.1 boots _ mem

theorem echoes_two_served : ∃ s,
    ((running Unit (sockets Fd Nat Nat) (echo 3 fun _ => false)).traced fun s act =>
      act.event (echo 3 fun _ => false) s).exec (.init (sockets Fd Nat Nat), []) echoesTwo = some s ∧
    (acceptedBy 3 s.2 = [4, 4] ∧ (s.1.calling.socket 4).outbox = [33]) ∧
    EchoServed 3 s.1.shows s.2 := by
  obtain ⟨s, run, ⟨accepted, -, sent, -⟩, orderly, -⟩ := echoes_two_ends
  exact ⟨s, run, ⟨accepted, sent⟩, serves_echo (.of_exec_any run) orderly⟩

theorem echoes_two_idle : ∃ s,
    ((running Unit (sockets Fd Nat Nat) (echo 3 fun _ => false)).traced fun s act =>
      act.event (echo 3 fun _ => false) s).exec (.init (sockets Fd Nat Nat), []) echoesTwo = some s ∧
    given 3 4 s.2 = 1 ∧ (s.1.calling.socket 3).pending = 0 ∧ acceptedBy 3 s.2 = connections 3 s.2 ∧
    ∀ c, given 3 c s.2 ≠ 0 → (s.1.calling.socket c).outbox = arrived c s.2 ∨
      (s.1.calling.socket c).ready EventSet.writable = false := by
  have meets : ((running Unit (sockets Fd Nat Nat) (echo 3 fun _ => false)).traced fun s act =>
      act.event (echo 3 fun _ => false) s).Meets (fun s act => FindsVacant s.1 act)
        (.init (sockets Fd Nat Nat), []) echoesTwo := by
    decide +kernel
  obtain ⟨s, run, ⟨-, once, -, listens⟩, orderly, idle⟩ := echoes_two_ends
  exact ⟨s, run, once, echo_idle (Lts.Reach.of_exec run meets) orderly idle ⟨0, listens⟩⟩

end SimpleSched.Net
