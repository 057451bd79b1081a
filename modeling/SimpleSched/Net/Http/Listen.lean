/-
# Net.Http.Listen -- the acceptor of a server

`Server::listen` of `net/http/server.rs` and the listeners of `net/http/conn.rs`.  The
acceptor is a coroutine like any other: a round of its loop unwraps an outcome of
`accept` and spawns a coroutine for the stream.  `unwrap` of an error panics;
`coroutine_initialize` catches that, `run_task` logs it and frees the coroutine, and
the connections that come after have nobody to accept them
(`served_iff_errors_last`).
-/
import SimpleSched.Runtime.History

namespace SimpleSched.Net.Http

set_option autoImplicit false

open Theory
open SimpleSched.Runtime (CoroutineRefMut Sys MAX_TOKEN_NUM)

/-! ## conn.rs -/

section Conn

variable {TcpStream IoError OpensslError HyperError SslStream : Type}

/-- The kinds of `io::Error` these functions name. -/
inductive ErrorKind
  | connectionAborted
  deriving DecidableEq, Repr

/-- `openssl::ssl::error::SslError`. -/
inductive SslError (IoError OpensslError : Type)
  | streamError (e : IoError)
  | other (e : OpensslError)
  deriving DecidableEq, Repr

/-- The conversions into `hyper::Error`, and `io::Error::new`. -/
structure Errors (IoError OpensslError HyperError : Type) where
  ofIo : IoError → HyperError
  ofSsl : SslError IoError OpensslError → HyperError
  newIo : ErrorKind → IoError → IoError

structure HttpStream (TcpStream : Type) where
  stream : TcpStream
  deriving DecidableEq, Repr

variable (errors : Errors IoError OpensslError HyperError)

/-- `HttpListener::accept`, of an outcome of `TcpListener::accept`. -/
def HttpListener.accept (tcp : Except IoError TcpStream) : Except HyperError (HttpStream TcpStream) :=
  match tcp with
  | .ok stream => .ok ⟨stream⟩
  | .error e => .error (errors.ofIo e)

/-- `Openssl::wrap_server`; `newServer` is the handshake, `SslStream::new_server`. -/
def Openssl.wrapServer
    (newServer : HttpStream TcpStream → Except (SslError IoError OpensslError) SslStream)
    (stream : HttpStream TcpStream) : Except HyperError SslStream :=
  match newServer stream with
  | .ok sslStream => .ok sslStream
  | .error (.streamError e) => .error (errors.ofIo (errors.newIo .connectionAborted e))
  | .error e => .error (errors.ofSsl e)

/-- `HttpsListener::accept`: the handshake is part of accepting. -/
def HttpsListener.accept (wrapServer : HttpStream TcpStream → Except HyperError SslStream)
    (tcp : Except IoError TcpStream) : Except HyperError SslStream :=
  (HttpListener.accept errors tcp).bind wrapServer

end Conn

/-! ## server.rs -/

variable {P E S : Type}

/-- A server on the scheduler: the coroutine of the accept loop, what `accept` is going
to return to it, call after call, the stream of the current round until a coroutine
has it, and the connection-handling coroutines with theirs. -/
structure Listening (P E S : Type) where
  sys : Sys P
  acceptor : Option CoroutineRefMut
  outcomes : List (Except E S)
  stream : Option S
  workers : List (CoroutineRefMut × S)

inductive ListenAct (P : Type)
  | runtime (a : Runtime.Act P)
  /-- the `Scheduler::spawn` of `listen` boxes the acceptor, that of the loop a worker -/
  | listen (p : P)
  | accept (p : P)
  | worker (p : P)
  deriving DecidableEq

namespace Listening

def new (outcomes : List (Except E S)) : Listening P E S := ⟨.init, none, outcomes, none, []⟩

/-- What the accept loop itself may call next: `accept` waits for events, and a
stream it has returned is spawned for. -/
def permits (s : Listening P E S) (a : Runtime.Act P) : Bool :=
  match a.actor with
  | none => true
  | some p =>
    match (s.sys.threads p).pc with
    | .exec c .user => s.acceptor ≠ some c ||
        match a with
        | .spawn _ => s.stream.isSome
        | .waitEvent _ _ _ _ => s.stream.isNone
        | _ => false
    | .exec c .spawnOpts => s.acceptor ≠ some c
    | _ => true

variable [DecidableEq P]

def step (s : Listening P E S) : ListenAct P → Option (Listening P E S)
  | .runtime a =>
    if s.permits a then (Runtime.step s.sys a).map fun sys => { s with sys := sys } else none
  | .listen p =>
    if s.acceptor = none then
      (Runtime.step s.sys (.spawnInner p)).map fun sys =>
        { s with sys := sys, acceptor := some s.sys.next }
    else none
  | .accept p =>
    match s.acceptor, s.stream, s.outcomes with
    | some c, none, outcome :: outcomes =>
      if (s.sys.threads p).pc = .exec c .user then
        match outcome with
        | .ok stream => some { s with outcomes := outcomes, stream := some stream }
        | .error _ => (Runtime.step s.sys (.panic p)).map fun sys =>
            { s with sys := sys, outcomes := outcomes }
      else none
    | _, _, _ => none
  | .worker p =>
    match s.acceptor, s.stream with
    | some c, some stream =>
      if (s.sys.threads p).pc = .exec c .spawnOpts then
        (Runtime.step s.sys (.spawnInner p)).map fun sys =>
          { s with sys := sys, stream := none, workers := s.workers ++ [(s.sys.next, stream)] }
      else none
    | _, _ => none

end Listening

def listening (P E S : Type) [DecidableEq P] : Lts (Listening P E S) (ListenAct P) :=
  ⟨Listening.step⟩

/-- Every call of `accept` returns: the `wait_event` in it does not find a full slab. -/
def AcceptReturns (s : Listening P E S) : ListenAct P → Prop
  | .runtime (.waitEvent p _ _ _) => ∀ c, s.acceptor = some c →
      (s.sys.threads p).pc = .exec c .user → (s.sys.threads p).slabs.count ≠ MAX_TOKEN_NUM
  | _ => True

/-- The streams accepted in a sequence of outcomes. -/
def accepted (outcomes : List (Except E S)) : List S := outcomes.filterMap Except.toOption

/-- No stream is accepted after an error. -/
def ErrorsLast : List (Except E S) → Prop
  | [] => True
  | .ok _ :: outcomes => ErrorsLast outcomes
  | .error _ :: outcomes => accepted outcomes = []

/-- The loop has nothing left to do: all outcomes are taken, or its closure has ended. -/
def Settled (s : Listening P E S) : Prop :=
  s.stream = none ∧ (s.outcomes = [] ∨ ∃ c, s.acceptor = some c ∧ 1 ≤ (s.sys.coros c).ended)

/-! ## The invariant -/

/-- The streams taken out of `accept`, in order. -/
def Listening.served (s : Listening P E S) : List S := s.workers.map Prod.snd ++ s.stream.toList

/-- The loop is under way, and has taken streams only; or it has taken an error, and
has ended. -/
inductive Taken (script : List (Except E S)) (s : Listening P E S) : Prop
  | accepting : script = s.served.map .ok ++ s.outcomes →
      (∀ c, s.acceptor = some c → (s.sys.coros c).ended = 0) → Taken script s
  | panicked {e : E} {c : CoroutineRefMut} : script = s.served.map .ok ++ .error e :: s.outcomes →
      s.stream = none → s.acceptor = some c → 1 ≤ (s.sys.coros c).ended → Taken script s

variable [DecidableEq P]

structure Serving (script : List (Except E S)) (s : Listening P E S) : Prop where
  reached : (Runtime.system P).Reach Lts.anyStep .init s.sys
  taken : Taken script s
  born : ∀ w ∈ s.workers, w.1 < s.sys.next
  apart : (s.workers.map Prod.fst).Nodup

theorem Serving.init (script : List (Except E S)) :
    Serving script (Listening.new script : Listening P E S) where
  reached := .start
  taken := .accepting rfl (by simp [Listening.new])
  born := by simp [Listening.new]
  apart := List.nodup_nil

variable {script : List (Except E S)} {s s' : Listening P E S} {a : Runtime.Act P} {p : P}
  {c : CoroutineRefMut} {sys : Sys P}

/-- A loop that has ended does not run. -/
theorem Serving.accepting (serving : Serving script s) (executes : s.acceptor = some c) {pt : Runtime.Point}
    (at_pc : (s.sys.threads p).pc = .exec c pt) : script = s.served.map .ok ++ s.outcomes := by
  have live := (Runtime.executing_life serving.reached at_pc).2
  cases serving.taken with
  | accepting split => exact split
  | panicked _ _ acceptor ended =>
      obtain rfl := Option.some.inj (executes.symm.trans acceptor)
      omega

/-- A step that does not end the closure of the loop leaves what was taken. -/
theorem Serving.taken_step (serving : Serving script s) (taken : Runtime.step s.sys a = some sys)
    (goes_on : ∀ c p, s.acceptor = some c → (s.sys.threads p).pc = .exec c .user → ¬ a.EndsOn s.sys p)
    (sys_eq : s'.sys = sys) (acceptor : s'.acceptor = s.acceptor) (outcomes : s'.outcomes = s.outcomes)
    (served : s'.served = s.served) (stream : s.stream = none → s'.stream = none) :
    Taken script s' := by
  cases serving.taken with
  | accepting split live =>
      refine .accepting (by rw [served, outcomes, split]) ?_
      intro c is_acceptor
      rw [acceptor] at is_acceptor
      rw [sys_eq]
      rcases Runtime.ended_of_step (c := c) serving.reached taken with same | ⟨-, p, at_pc, ends⟩
      · exact same.trans (live c is_acceptor)
      · exact absurd ends (goes_on c p is_acceptor at_pc)
  | @panicked e c split no_stream is_acceptor ended =>
      refine .panicked (e := e) (c := c) (by rw [served, outcomes, split]) (stream no_stream)
        (acceptor.trans is_acceptor) ?_
      rw [sys_eq]
      rcases Runtime.ended_of_step (c := c) serving.reached taken with same | ⟨more, -⟩ <;> omega

theorem Serving.reach_step (serving : Serving script s) (taken : Runtime.step s.sys a = some sys) :
    (Runtime.system P).Reach Lts.anyStep .init sys :=
  .step (a := a) serving.reached trivial taken

theorem next_le (serving : Serving script s) (taken : Runtime.step s.sys a = some sys) :
    s.sys.next ≤ sys.next := by
  rw [Runtime.next_of_step serving.reached taken]
  split <;> omega

theorem Serving.runtime (serving : Serving script s) (taken : Runtime.step s.sys a = some sys)
    (permitted : s.permits a) (returns : AcceptReturns s (.runtime a)) :
    Serving script { s with sys := sys } where
  reached := serving.reach_step taken
  taken := by
    refine serving.taken_step taken ?_ rfl rfl rfl rfl id
    intro c p acceptor at_pc ends
    cases a with
    | ret q | panic q =>
        obtain rfl : q = p := ends
        simp [Listening.permits, Runtime.Act.actor, at_pc, acceptor] at permitted
    | waitEvent q fd interest token =>
        obtain ⟨rfl, full⟩ := ends
        exact returns c acceptor at_pc full
    | _ => cases ends
  born w mem := Nat.lt_of_lt_of_le (serving.born w mem) (next_le serving taken)
  apart := serving.apart

theorem Serving.listen (serving : Serving script s) (vacant : s.acceptor = none)
    (taken : Runtime.step s.sys (.spawnInner p) = some sys) :
    Serving script { s with sys := sys, acceptor := some s.sys.next } where
  reached := serving.reach_step taken
  taken := by
    cases serving.taken with
    | accepting split =>
        refine .accepting split ?_
        intro c acceptor
        obtain rfl := Option.some.inj acceptor
        have unborn := Runtime.unborn_of_reach serving.reached (Nat.le_refl s.sys.next)
        rcases Runtime.ended_of_step (c := s.sys.next) serving.reached taken with same | ⟨-, p, -, ends⟩
        · exact same.trans (by rw [unborn]; rfl)
        · cases ends
    | panicked _ _ acceptor => simp [vacant] at acceptor
  born w mem := Nat.lt_of_lt_of_le (serving.born w mem) (next_le serving taken)
  apart := serving.apart

theorem Serving.accept_ok (serving : Serving script s) {stream : S} {outcomes : List (Except E S)}
    (acceptor : s.acceptor = some c) (at_pc : (s.sys.threads p).pc = .exec c .user)
    (no_stream : s.stream = none) (next : s.outcomes = .ok stream :: outcomes) :
    Serving script { s with outcomes := outcomes, stream := some stream } where
  reached := serving.reached
  taken := by
    refine .accepting ?_ ?_
    · have split := serving.accepting acceptor at_pc
      simpa [Listening.served, no_stream, next] using split
    · intro c' acceptor'
      obtain rfl := Option.some.inj (acceptor.symm.trans acceptor')
      exact (Runtime.executing_life serving.reached at_pc).2
  born := serving.born
  apart := serving.apart

theorem Serving.accept_error (serving : Serving script s) {e : E} {outcomes : List (Except E S)}
    (acceptor : s.acceptor = some c) (at_pc : (s.sys.threads p).pc = .exec c .user)
    (no_stream : s.stream = none) (next : s.outcomes = .error e :: outcomes)
    (taken : Runtime.step s.sys (.panic p) = some sys) :
    Serving script { s with sys := sys, outcomes := outcomes } where
  reached := serving.reach_step taken
  taken := by
    refine .panicked (e := e) (c := c) ?_ no_stream acceptor ?_
    · have split := serving.accepting acceptor at_pc
      simpa [Listening.served, next] using split
    · have ended := Runtime.ended_of_panic serving.reached at_pc taken
      show 1 ≤ (sys.coros c).ended
      omega
  born w mem := Nat.lt_of_lt_of_le (serving.born w mem) (next_le serving taken)
  apart := serving.apart

theorem Serving.worker (serving : Serving script s) {stream : S} (has_stream : s.stream = some stream)
    (taken : Runtime.step s.sys (.spawnInner p) = some sys) :
    Serving script
      { s with sys := sys, stream := none, workers := s.workers ++ [(s.sys.next, stream)] } where
  reached := serving.reach_step taken
  taken := by
    refine serving.taken_step taken (fun _ _ _ _ ends => ends) rfl rfl rfl ?_ fun _ => rfl
    simp [Listening.served, has_stream]
  born w mem := by
    rw [show sys.next = s.sys.next + 1 from Runtime.next_of_step serving.reached taken]
    rcases List.mem_append.1 mem with old | new
    · exact Nat.lt_succ_of_lt (serving.born w old)
    · obtain rfl := List.mem_singleton.1 new
      exact Nat.lt_succ_self _
  apart := by
    rw [List.map_append, List.nodup_append]
    refine ⟨serving.apart, by simp, ?_⟩
    intro w old w' new
    obtain ⟨worker, mem, rfl⟩ := List.mem_map.1 old
    obtain rfl := List.mem_singleton.1 new
    exact Nat.ne_of_lt (serving.born worker mem)

theorem Serving.step (serving : Serving script s) {a : ListenAct P} (returns : AcceptReturns s a)
    (taken : s.step a = some s') : Serving script s' := by
  cases a with
  | runtime a =>
      simp only [Listening.step, Option.ite_none_right_eq_some, Option.map_eq_some_iff] at taken
      obtain ⟨permitted, sys, taken, rfl⟩ := taken
      exact serving.runtime taken permitted returns
  | listen p =>
      simp only [Listening.step, Option.ite_none_right_eq_some, Option.map_eq_some_iff] at taken
      obtain ⟨vacant, sys, taken, rfl⟩ := taken
      exact serving.listen vacant taken
  | accept p =>
      simp only [Listening.step] at taken
      split at taken
      · rename_i c outcome outcomes acceptor no_stream next
        simp only [Option.ite_none_right_eq_some] at taken
        obtain ⟨at_pc, taken⟩ := taken
        split at taken
        · cases taken
          exact serving.accept_ok acceptor at_pc no_stream next
        · obtain ⟨sys, panics, rfl⟩ := Option.map_eq_some_iff.1 taken
          exact serving.accept_error acceptor at_pc no_stream next panics
      · cases taken
  | worker p =>
      simp only [Listening.step] at taken
      split at taken
      · rename_i c stream acceptor has_stream
        simp only [Option.ite_none_right_eq_some, Option.map_eq_some_iff] at taken
        obtain ⟨at_pc, sys, taken, rfl⟩ := taken
        exact serving.worker has_stream taken
      · cases taken

/-! ## What is served -/

theorem accepted_append (streams : List S) (outcomes : List (Except E S)) :
    accepted (streams.map .ok ++ outcomes) = streams ++ accepted outcomes := by
  simp [accepted, List.filterMap_map, Function.comp_def, Except.toOption]

theorem errorsLast_append (streams : List S) (outcomes : List (Except E S)) :
    ErrorsLast (streams.map .ok ++ outcomes) ↔ ErrorsLast outcomes := by
  induction streams with
  | nil => rfl
  | cons stream streams ih => exact ih

/-- Whatever `accept` returns, call after call, and however processors and other
coroutines interleave: the accept loop spawns one coroutine for each accepted
stream, in order, if and only if no stream is accepted after an error. -/
theorem served_iff_errors_last
    (reached : (listening P E S).Reach AcceptReturns (.new script) s) (settled : Settled s) :
    (s.workers.map Prod.fst).Nodup ∧
      (s.workers.map Prod.snd = accepted script ↔ ErrorsLast script) := by
  have serving : Serving script s :=
    reached.invariant (.init script) fun _ _ _ _ serving returns taken => serving.step returns taken
  refine ⟨serving.apart, ?_⟩
  have served : s.served = s.workers.map Prod.snd := by simp [Listening.served, settled.1]
  cases serving.taken with
  | accepting split live =>
      have taken : s.outcomes = [] := by
        apply settled.2.resolve_right
        rintro ⟨c, acceptor, ended⟩
        have := live c acceptor
        omega
      rw [split, taken, accepted_append, errorsLast_append, served]
      simp [accepted, ErrorsLast]
  | @panicked e c split =>
      rw [split, accepted_append, errorsLast_append, served]
      change _ = _ ++ accepted s.outcomes ↔ accepted s.outcomes = []
      simp

/-- A stream is accepted and spawned for, its coroutine returns, and the next call of
`accept` is the last. -/
def oneServed : List (ListenAct Unit) :=
  [.runtime (.spawn ()), .listen (), .runtime (.enter ()), .runtime (.tau ()), .runtime (.tau ()),
    .runtime (.tau ()), .runtime (.tau ()), .runtime (.tau ()), .accept (), .runtime (.spawn ()),
    .worker (), .runtime (.tau ()), .runtime (.tau ()), .runtime (.tau ()), .runtime (.tau ()),
    .runtime (.ret ()), .runtime (.tau ()), .runtime (.tau ()), .runtime (.tau ()),
    .runtime (.tau ()), .runtime (.tau ()), .runtime (.tau ()), .accept ()]

theorem one_served : ∃ s, (listening Unit String Nat).exec (.new [.ok 7, .error "closed"]) oneServed =
      some s ∧ (s.workers.map Prod.fst).Nodup ∧ s.workers.map Prod.snd = [7] := by
  have served : ((listening Unit String Nat).exec (.new [.ok 7, .error "closed"]) oneServed).any
      (fun s => s.stream.isNone ∧ s.outcomes.isEmpty) = true := by decide +kernel
  obtain ⟨s, run, at_end⟩ := (Option.any_eq_true _ _).1 served
  obtain ⟨no_stream, no_outcome⟩ := of_decide_eq_true at_end
  have settled : Settled s := ⟨Option.isNone_iff_eq_none.1 no_stream, .inl (List.isEmpty_iff.1 no_outcome)⟩
  obtain ⟨apart, streams⟩ := served_iff_errors_last
    (.of_exec run (Lts.meets_of_forall (by simp [oneServed, AcceptReturns]))) settled
  exact ⟨s, run, apart, streams.2 rfl⟩

/-- The first of two clients closes the connection in the middle of its handshake. -/
def oneMisbehaves : List (Except (ErrorKind ⊕ SslError ErrorKind Unit) Nat) :=
  let errors : Errors ErrorKind Unit (ErrorKind ⊕ SslError ErrorKind Unit) := ⟨.inl, .inr, fun kind _ => kind⟩
  let newServer (stream : HttpStream Nat) : Except (SslError ErrorKind Unit) Nat :=
    if stream.stream = 1 then .error (.streamError .connectionAborted) else .ok stream.stream
  [.ok 1, .ok 2].map (HttpsListener.accept errors (Openssl.wrapServer errors newServer))

/-- The loop panics on the first outcome, and the second is never taken. -/
def acceptPanics : List (ListenAct Unit) :=
  [.runtime (.spawn ()), .listen (), .runtime (.enter ()), .runtime (.tau ()), .runtime (.tau ()),
    .runtime (.tau ()), .runtime (.tau ()), .runtime (.tau ()), .accept ()]

theorem misbehaving_client_stops_server : ∃ s,
    (listening Unit _ Nat).Reach AcceptReturns (.new oneMisbehaves) s ∧ Settled s ∧
      s.workers.map Prod.snd = [] ∧ accepted oneMisbehaves = [2] := by
  have stops : ((listening Unit _ Nat).exec (.new oneMisbehaves) acceptPanics).any
      (fun s => s.stream.isNone ∧ s.acceptor = some 0 ∧ 1 ≤ (s.sys.coros 0).ended ∧ s.workers.isEmpty) =
      true := by decide +kernel
  obtain ⟨s, run, at_end⟩ := (Option.any_eq_true _ _).1 stops
  obtain ⟨no_stream, acceptor, ended, none_served⟩ := of_decide_eq_true at_end
  refine ⟨s, .of_exec run (Lts.meets_of_forall (by simp [acceptPanics, AcceptReturns])),
    ⟨Option.isNone_iff_eq_none.1 no_stream, .inr ⟨0, acceptor, ended⟩⟩, ?_, rfl⟩
  rw [List.isEmpty_iff.1 none_served]
  rfl

end SimpleSched.Net.Http
