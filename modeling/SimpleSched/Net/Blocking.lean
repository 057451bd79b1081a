/-
# Net.Blocking -- calls that look blocking, over sockets that do not block

`TcpListener::accept`, `TcpStream::read` and `write` and `UdpSocket::recv_from` have one
shape: an attempt on the non-blocking socket; if that would block, a loop of `wait_event`
and another attempt, until an attempt is done or `wait_event` fails.  `Calling` runs any
number of such calls in the coroutines of `Runtime`; what the sockets answer is a
parameter (`Sockets`).

`calls_watched`: a coroutine inside a call is never stranded, and one that is suspended
in it is registered for what its call needs; once the socket is ready for that the event
is there to be taken.  `calls_return`: when `Scheduler::run` returns no call is left.
`refines`: of all this nothing is to be seen at the sockets but that each call is done at
once, at its return (`Theory.Blocking`).
-/
import SimpleSched.Net.Sockets
import SimpleSched.Runtime.Interest
import SimpleSched.Runtime.Quiescence

namespace SimpleSched.Net

set_option autoImplicit false

open Mio Theory
open SimpleSched.Runtime

/-- Where a call has got to: at its first attempt, at the `wait_event` of its loop, or in
that and then at the attempt after it. -/
inductive Stage
  | first
  | wait
  | retry
  deriving DecidableEq, Repr

structure Call (Op : Type) where
  fd : Fd
  op : Op
  stage : Stage
  deriving DecidableEq

variable {P K Op R V : Type}

/-- The scheduler, the sockets, and the calls the coroutines are in. -/
structure Calling (P K Op : Type) where
  sys : Sys P
  socket : Fd → K
  calls : CoroutineRefMut → Option (Call Op)

inductive CallAct (P Op R V : Type)
  | runtime (a : Act P)
  | call (p : P) (fd : Fd) (op : Op)
  /-- `none` is a would-block -/
  | attempt (p : P) (answer : Option R)
  | waitEvent (p : P) (token : Token)
  | register (p : P) (answer : Bool)
  | change (fd : Fd) (v : V)

namespace Calling

def init (D : Sockets K Op R V) : Calling P K Op := ⟨.init, fun _ => D.closed, fun _ => none⟩

variable [DecidableEq P]

/-- The socket changes, and with it what it signals. -/
def put (s : Calling P K Op) (D : Sockets K Op R V) (fd : Fd) (k : K) : Calling P K Op :=
  { s with
    socket := Function.update s.socket fd k
    sys := (s.sys.setHolds fd EventSet.readable (D.ready k EventSet.readable)).setHolds fd
      EventSet.writable (D.ready k EventSet.writable) }

def setCall (s : Calling P K Op) (h : CoroutineRefMut) (c : Option (Call Op)) : Calling P K Op :=
  { s with calls := Function.update s.calls h c }

/-- A coroutine inside a call does nothing else; the conditions of the sockets change with
the sockets only. -/
def permits (s : Calling P K Op) (a : Act P) : Bool :=
  match a with
  | .setHolds _ _ _ => false
  | a =>
    match a.actor with
    | none => true
    | some p =>
      match (s.sys.threads p).pc with
      | .exec h _ => (s.calls h).isNone || a = .tau p
      | _ => true

/-- One `match` on what the socket answers. -/
def attempt (s : Calling P K Op) (D : Sockets K Op R V) (h : CoroutineRefMut) (fd : Fd) (op : Op) :
    Option R → Option (Calling P K Op)
  | none => if D.wouldBlock (s.socket fd) op then some (s.setCall h (some ⟨fd, op, .wait⟩)) else none
  | some r => (D.done (s.socket fd) op r).map fun k => (s.setCall h none).put D fd k

/-- The `try!(wait_event(..))` of the loop, up to its `slabs.insert`, which panics on a full
slab; that this closes the descriptor is left to a change of the socket. -/
def waitEvent (s : Calling P K Op) (D : Sockets K Op R V) (p : P) (h : CoroutineRefMut) (fd : Fd)
    (op : Op) (token : Token) : Option (Calling P K Op) :=
  (Runtime.step s.sys (.waitEvent p fd (D.interest op) token)).map fun sys =>
    { s with sys := sys }.setCall h
      (if (s.sys.threads p).slabs.count = MAX_TOKEN_NUM then none else some ⟨fd, op, .retry⟩)

/-- The `register_opt` of it, whose error ends the call. -/
def register (s : Calling P K Op) (p : P) (h : CoroutineRefMut) (answer : Bool) :
    Option (Calling P K Op) :=
  (Runtime.step s.sys (.register p answer)).map fun sys =>
    if answer then { s with sys := sys } else { s with sys := sys }.setCall h none

def step (D : Sockets K Op R V) (s : Calling P K Op) : CallAct P Op R V → Option (Calling P K Op)
  | .runtime a =>
    if s.permits a then (Runtime.step s.sys a).map fun sys => { s with sys := sys } else none
  | .call p fd op =>
    match (s.sys.threads p).pc with
    | .exec h .user =>
      match s.calls h with
      | none => some (s.setCall h (some ⟨fd, op, .first⟩))
      | some _ => none
    | _ => none
  | .attempt p answer =>
    match (s.sys.threads p).pc with
    | .exec h .user =>
      match s.calls h with
      | some ⟨fd, op, .first⟩ | some ⟨fd, op, .retry⟩ => s.attempt D h fd op answer
      | _ => none
    | _ => none
  | .waitEvent p token =>
    match (s.sys.threads p).pc with
    | .exec h .user =>
      match s.calls h with
      | some ⟨fd, op, .wait⟩ => s.waitEvent D p h fd op token
      | _ => none
    | _ => none
  | .register p answer =>
    match (s.sys.threads p).pc with
    | .exec h (.inserted _ _ _) =>
      match s.calls h with
      | some _ => s.register p h answer
      | none => none
    | _ => none
  | .change fd v => (D.change (s.socket fd) v).map fun k => s.put D fd k

end Calling

def calling (P : Type) [DecidableEq P] (D : Sockets K Op R V) :
    Lts (Calling P K Op) (CallAct P Op R V) := ⟨Calling.step D⟩

/-! ## What a step is -/

variable [DecidableEq P]

/-- Every step of the calls, with its guards. -/
inductive CallEffect (D : Sockets K Op R V) (s : Calling P K Op) :
    CallAct P Op R V → Calling P K Op → Prop
  | runtime {a sys} : s.permits a = true → Runtime.step s.sys a = some sys →
      CallEffect D s (.runtime a) { s with sys := sys }
  | call {p h fd op} : (s.sys.threads p).pc = .exec h .user → s.calls h = none →
      CallEffect D s (.call p fd op) (s.setCall h (some ⟨fd, op, .first⟩))
  | blocked {p h fd op stage} : (s.sys.threads p).pc = .exec h .user →
      s.calls h = some ⟨fd, op, stage⟩ → D.wouldBlock (s.socket fd) op = true →
      CallEffect D s (.attempt p none) (s.setCall h (some ⟨fd, op, .wait⟩))
  | done {p h fd op stage r k} : (s.sys.threads p).pc = .exec h .user →
      s.calls h = some ⟨fd, op, stage⟩ → D.done (s.socket fd) op r = some k →
      CallEffect D s (.attempt p (some r)) ((s.setCall h none).put D fd k)
  | waits {p h fd op token sys} : (s.sys.threads p).pc = .exec h .user →
      s.calls h = some ⟨fd, op, .wait⟩ → (s.sys.threads p).slabs.count ≠ MAX_TOKEN_NUM →
      Runtime.step s.sys (.waitEvent p fd (D.interest op) token) = some sys →
      CallEffect D s (.waitEvent p token) ({ s with sys := sys }.setCall h (some ⟨fd, op, .retry⟩))
  | full {p h fd op token sys} : (s.sys.threads p).pc = .exec h .user →
      s.calls h = some ⟨fd, op, .wait⟩ → (s.sys.threads p).slabs.count = MAX_TOKEN_NUM →
      Runtime.step s.sys (.waitEvent p fd (D.interest op) token) = some sys →
      CallEffect D s (.waitEvent p token) ({ s with sys := sys }.setCall h none)
  | registered {p h c token fd i sys} : (s.sys.threads p).pc = .exec h (.inserted token fd i) →
      s.calls h = some c → Runtime.step s.sys (.register p true) = some sys →
      CallEffect D s (.register p true) { s with sys := sys }
  | refused {p h c token fd i sys} : (s.sys.threads p).pc = .exec h (.inserted token fd i) →
      s.calls h = some c → Runtime.step s.sys (.register p false) = some sys →
      CallEffect D s (.register p false) ({ s with sys := sys }.setCall h none)
  | change {fd v k} : D.change (s.socket fd) v = some k →
      CallEffect D s (.change fd v) (s.put D fd k)

variable {D : Sockets K Op R V} {s s' : Calling P K Op} {act : CallAct P Op R V} {p : P}
  {h : CoroutineRefMut} {fd : Fd} {op : Op}

theorem effect_of_attempt (at_pc : (s.sys.threads p).pc = .exec h .user) {stage : Stage}
    (inside : s.calls h = some ⟨fd, op, stage⟩) {answer : Option R}
    (taken : s.attempt D h fd op answer = some s') : CallEffect D s (.attempt p answer) s' := by
  cases answer with
  | none =>
      simp only [Calling.attempt, Option.ite_none_right_eq_some, Option.some.injEq] at taken
      obtain ⟨blocks, rfl⟩ := taken
      exact .blocked at_pc inside blocks
  | some r =>
      obtain ⟨k, done, rfl⟩ := Option.map_eq_some_iff.mp taken
      exact .done at_pc inside done

theorem callEffect_of_step (taken : s.step D act = some s') : CallEffect D s act s' := by
  unfold Calling.step at taken
  split at taken
  · rename_i a
    split at taken
    · rename_i permitted
      obtain ⟨sys, stepped, rfl⟩ := Option.map_eq_some_iff.mp taken
      exact .runtime permitted stepped
    · cases taken
  · rename_i p fd op
    split at taken
    · rename_i h at_pc
      split at taken
      · rename_i outside
        cases taken
        exact .call at_pc outside
      · cases taken
    · cases taken
  · rename_i p answer
    split at taken
    · rename_i h at_pc
      split at taken
      · rename_i fd op inside
        exact effect_of_attempt at_pc inside taken
      · rename_i fd op inside
        exact effect_of_attempt at_pc inside taken
      · cases taken
    · cases taken
  · rename_i p token
    split at taken
    · rename_i h at_pc
      split at taken
      · rename_i fd op inside
        obtain ⟨sys, stepped, rfl⟩ := Option.map_eq_some_iff.mp taken
        by_cases full : (s.sys.threads p).slabs.count = MAX_TOKEN_NUM
        · rw [if_pos full]
          exact .full at_pc inside full stepped
        · rw [if_neg full]
          exact .waits at_pc inside full stepped
      · cases taken
    · cases taken
  · rename_i p answer
    split at taken
    · rename_i h token fd i at_pc
      split at taken
      · rename_i c inside
        obtain ⟨sys, stepped, rfl⟩ := Option.map_eq_some_iff.mp taken
        cases answer with
        | true => exact .registered at_pc inside stepped
        | false => exact .refused at_pc inside stepped
      · cases taken
    · cases taken
  · rename_i fd v
    obtain ⟨k, changes, rfl⟩ := Option.map_eq_some_iff.mp taken
    exact .change changes

/-! ## Calls in progress -/

/-- The registers, the places and the waits are in order, and every coroutine in a call
waits for what the call needs. -/
structure Attended (D : Sockets K Op R V) (s : Sys P) (calls : CoroutineRefMut → Option (Call Op))
    (place : Placing P) : Prop where
  regs : Registers s
  placed : Placed s place
  armed_false : ArmedFalse s
  aims : ∀ h c, calls h = some c → Aims s h c.fd (D.interest c.op)

/-- And what a socket signals is what it is ready for. -/
structure InCalls (D : Sockets K Op R V) (s : Calling P K Op) : Prop where
  attended : ∃ place, Attended D s.sys s.calls place
  holds : ∀ fd e, e = EventSet.readable ∨ e = EventSet.writable →
    s.sys.holds fd e = D.ready (s.socket fd) e

namespace Attended

variable {sys sys' : Sys P} {calls calls' : CoroutineRefMut → Option (Call Op)} {place : Placing P}
  {a : Act P}

theorem step (attended : Attended D sys calls place)
    (waits : ∀ h c, calls h = some c → WaitsFor sys h c.fd (D.interest c.op) a)
    (taken : Runtime.step sys a = some sys') : ∃ place', Attended D sys' calls place' := by
  obtain ⟨regs, placed, armed_false, aims⟩ := attended
  obtain ⟨place', effect⟩ := effect_of_step regs placed taken
  exact ⟨place', regs.step taken, effect.placed placed, armed_false.step effect,
    fun h c inside => (aims h c inside).step regs placed (waits h c inside) effect taken⟩

omit [DecidableEq P] in
/-- A call goes on, or has ended. -/
theorem go (attended : Attended D sys calls place)
    (goes : ∀ h c', calls' h = some c' → ∃ c, calls h = some c ∧ c.fd = c'.fd ∧ c.op = c'.op) :
    Attended D sys calls' place :=
  { attended with
    aims := fun h c' inside => by
      obtain ⟨c, before, same_fd, same_op⟩ := goes h c' inside
      rw [← same_fd, ← same_op]
      exact attended.aims h c before }

theorem setHolds (attended : Attended D sys calls place) (fd : Fd) (e : EventSet) (b : Bool) :
    ∃ place', Attended D (sys.setHolds fd e b) calls place' :=
  attended.step (a := .setHolds fd e b) (fun _ _ _ _ _ actor => by cases actor) rfl

end Attended

namespace InCalls

omit [DecidableEq P] in
theorem init : InCalls D (Calling.init D : Calling P K Op) where
  attended := ⟨_, Registers.init, .init, .init, fun _ _ inside => by simp [Calling.init] at inside⟩
  holds _ e _ := (D.closed_unready e).symm

/-- A step of the runtime that is not a change of the sockets. -/
theorem move (inv : InCalls D s) {a : Act P} {sys : Sys P}
    (waits : ∀ h c, s.calls h = some c → WaitsFor s.sys h c.fd (D.interest c.op) a)
    (kept : ∀ f i b, a ≠ .setHolds f i b) (taken : Runtime.step s.sys a = some sys) :
    InCalls D { s with sys := sys } := by
  obtain ⟨place, attended⟩ := inv.attended
  obtain ⟨place', effect⟩ := effect_of_step attended.regs attended.placed taken
  refine ⟨attended.step waits taken, fun fd e signals => ?_⟩
  rw [effect.holds kept]
  exact inv.holds fd e signals

theorem put (inv : InCalls D s) (fd : Fd) (k : K) : InCalls D (s.put D fd k) := by
  obtain ⟨place, attended⟩ := inv.attended
  obtain ⟨place₁, attended₁⟩ := attended.setHolds fd EventSet.readable (D.ready k EventSet.readable)
  refine ⟨attended₁.setHolds fd EventSet.writable (D.ready k EventSet.writable), fun f e signals => ?_⟩
  by_cases same : f = fd
  · subst same
    rcases signals with rfl | rfl <;>
      simp [Calling.put, Sys.setHolds, EventSet.readable, EventSet.writable]
  · simpa [Calling.put, Sys.setHolds, same, Function.update_of_ne] using inv.holds f e signals

omit [DecidableEq P] in
/-- A call goes on, or has ended. -/
theorem setCall (inv : InCalls D s) {c' : Option (Call Op)}
    (goes : ∀ c, c' = some c → ∃ before, s.calls h = some before ∧ before.fd = c.fd ∧ before.op = c.op) :
    InCalls D (s.setCall h c') := by
  obtain ⟨place, attended⟩ := inv.attended
  refine ⟨⟨place, attended.go fun g c inside => ?_⟩, inv.holds⟩
  by_cases same : g = h
  · subst same
    exact goes c (by simpa [Calling.setCall] using inside)
  · exact ⟨c, by simpa [Calling.setCall, Function.update_of_ne same] using inside, rfl, rfl⟩

omit [DecidableEq P] in
theorem hangUp (inv : InCalls D s) : InCalls D (s.setCall h none) := inv.setCall (by simp)

/-- What is permitted outside the calls is nothing those in a call do, except to be
suspended. -/
theorem permitted {a : Act P} (permitted : s.permits a = true) :
    (∀ f i b, a ≠ .setHolds f i b) ∧
      ∀ h c, s.calls h = some c → WaitsFor s.sys h c.fd (D.interest c.op) a := by
  refine ⟨?_, ?_⟩
  · rintro f i b rfl
    cases permitted
  · intro h c inside p pt actor at_pc
    refine .inl ?_
    cases a <;> simp_all [Calling.permits, Act.actor]

theorem step (inv : InCalls D s) (effect : CallEffect D s act s') : InCalls D s' := by
  cases effect with
  | runtime permits stepped =>
      obtain ⟨kept, waits⟩ := permitted (D := D) permits
      exact inv.move waits kept stepped
  | @call p h fd op at_pc outside =>
      obtain ⟨place, attended⟩ := inv.attended
      refine ⟨⟨place, { attended with aims := fun g c inside => ?_ }⟩, inv.holds⟩
      by_cases same : g = h
      · subst same
        exact .start attended.placed at_pc
      · exact attended.aims g c (by simpa [Calling.setCall, Function.update_of_ne same] using inside)
  | blocked at_pc inside => exact inv.setCall fun c same => ⟨_, inside, by cases same; exact ⟨rfl, rfl⟩⟩
  | done at_pc inside => exact inv.hangUp.put _ _
  | @waits p h fd op token sys at_pc inside room stepped =>
      refine (inv.move (fun g c within => ?_) (by simp) stepped).setCall fun c same =>
        ⟨_, inside, by cases same; exact ⟨rfl, rfl⟩⟩
      by_cases same : g = h
      · subst same
        obtain rfl := Option.some.inj (inside.symm.trans within)
        intro q pt actor _
        cases actor
        exact .inr (.inr ⟨token, rfl, room⟩)
      · exact .other rfl at_pc same
  | @full p h fd op token sys at_pc inside _ stepped =>
      refine (inv.hangUp (h := h)).move (fun g c within => ?_) (by simp) stepped
      refine .other rfl at_pc ?_
      rintro rfl
      simp [Calling.setCall] at within
  | @registered p h c token fd i sys at_pc inside stepped =>
      refine inv.move (fun g c within => ?_) (by simp) stepped
      intro q pt actor _
      cases actor
      exact .inr (.inl ⟨true, rfl⟩)
  | @refused p h c token fd i sys at_pc inside stepped =>
      refine (inv.hangUp (h := h)).move (fun g c within => ?_) (by simp) stepped
      intro q pt actor _
      cases actor
      exact .inr (.inl ⟨false, rfl⟩)
  | change => exact inv.put _ _

theorem of_reach {ok : Calling P K Op → CallAct P Op R V → Prop}
    (reached : (calling P D).Reach ok (.init D) s) : InCalls D s :=
  reached.invariant .init fun _ _ _ _ inv _ taken => inv.step (callEffect_of_step taken)

end InCalls

/-! ## Every call is watched -/

/-- The coroutine of a call is executed, queued, or suspended in its `wait_event`. -/
structure CallsWatched (D : Sockets K Op R V) (s : Calling P K Op) : Prop where
  somewhere : ∀ h c, s.calls h = some c → (∃ p, (s.sys.threads p).pc.hand = some h) ∨
    h ∈ s.sys.globalQueue.items ∨ ∃ p token, Blocked s.sys h p token
  /-- a suspended one has its entry and its registration, for what the call needs -/
  watched : ∀ h c p token, s.calls h = some c → Blocked s.sys h p token →
    Subscribed s.sys h p token c.fd (D.interest c.op) ∧
      s.sys.holds c.fd (D.interest c.op) = D.ready (s.socket c.fd) (D.interest c.op)
  /-- where its socket is ready, its thread queues it in four steps once it polls -/
  wakes : ∀ h c p token, s.calls h = some c → Blocked s.sys h p token →
    D.ready (s.socket c.fd) (D.interest c.op) = true → (s.sys.threads p).pc = .runOnce →
    s.sys.globalQueue.items.length < GLOBAL_QUEUE_SIZE →
    ∃ s', (calling P D).exec s [.runtime (.poll p [c.fd]), .runtime (.tau p), .runtime (.tau p),
        .runtime (.tau p)] = some s' ∧
      s'.sys.globalQueue.items = s.sys.globalQueue.items ++ [h] ∧ s'.calls h = some c
  /-- where nothing can happen without the network, no socket is ready that a call needs -/
  idle : (∀ p, (s.sys.threads p).pc.hand = none ∧ (s.sys.threads p).pc.batch = [] ∧
      ∀ fd, (s.sys.threads p).eventLoop.isPending fd = false) →
    s.sys.globalQueue.items = [] →
    ∀ h c, s.calls h = some c → D.ready (s.socket c.fd) (D.interest c.op) = false

theorem permits_tau : s.permits (.tau p) = true := by
  unfold Calling.permits
  cases at_pc : (s.sys.threads p).pc <;> simp [Act.actor, at_pc]

theorem step_runtime {a : Act P} {sys : Sys P} (permitted : s.permits a = true)
    (stepped : Runtime.step s.sys a = some sys) :
    s.step D (.runtime a) = some { s with sys := sys } := by
  simp [Calling.step, permitted, stepped]

namespace InCalls

omit [DecidableEq P] in
theorem subscribed (inv : InCalls D s) {c : Call Op} {token : Token} (inside : s.calls h = some c)
    (blocked : Blocked s.sys h p token) :
    Subscribed s.sys h p token c.fd (D.interest c.op) ∧
      s.sys.holds c.fd (D.interest c.op) = D.ready (s.socket c.fd) (D.interest c.op) := by
  obtain ⟨place, attended⟩ := inv.attended
  exact ⟨(attended.aims h c inside).subscribed attended.placed attended.armed_false
    (attended.placed.blocked_iff.1 blocked), inv.holds c.fd _ (D.interests c.op)⟩

omit [DecidableEq P] in
theorem somewhere (inv : InCalls D s) {c : Call Op} (inside : s.calls h = some c) :
    (∃ p, (s.sys.threads p).pc.hand = some h) ∨ h ∈ s.sys.globalQueue.items ∨
      ∃ p token, Blocked s.sys h p token := by
  obtain ⟨place, attended⟩ := inv.attended
  rcases (attended.aims h c inside).located attended.placed with ⟨p, held⟩ | queued | ⟨p, token, waits⟩
  · exact .inl ⟨p, (attended.placed.hand p h).2 held⟩
  · exact .inr (.inl ((attended.placed.queue.mem h).2 queued))
  · exact .inr (.inr ⟨p, token, attended.placed.blocked_iff.2 waits⟩)

theorem wakes (inv : InCalls D s) {c : Call Op} {token : Token} (inside : s.calls h = some c)
    (blocked : Blocked s.sys h p token)
    (ready : D.ready (s.socket c.fd) (D.interest c.op) = true)
    (at_pc : (s.sys.threads p).pc = .runOnce)
    (room : s.sys.globalQueue.items.length < GLOBAL_QUEUE_SIZE) :
    ∃ s', (calling P D).exec s [.runtime (.poll p [c.fd]), .runtime (.tau p), .runtime (.tau p),
        .runtime (.tau p)] = some s' ∧
      s'.sys.globalQueue.items = s.sys.globalQueue.items ++ [h] ∧ s'.calls h = some c := by
  obtain ⟨subscribed, signals⟩ := inv.subscribed inside blocked
  have pending : (s.sys.threads p).eventLoop.isPending c.fd = true := by
    simpa [at_pc, Pc.batch] using subscribed.event (signals.trans ready)
  obtain ⟨s₁, s₂, s₃, s₄, polled, handled, deregistered, pushed, queued⟩ :=
    subscribed.wakes pending at_pc room
  have permitted : s.permits (.poll p [c.fd]) = true := by
    simp [Calling.permits, Act.actor, at_pc]
  refine ⟨{ s with sys := s₄ }, ?_, queued, inside⟩
  show (s.step D (.runtime (.poll p [c.fd]))).bind _ = _
  rw [step_runtime permitted polled]
  show (Calling.step D { s with sys := s₁ } (.runtime (.tau p))).bind _ = _
  rw [step_runtime permits_tau handled]
  show (Calling.step D { s with sys := s₂ } (.runtime (.tau p))).bind _ = _
  rw [step_runtime permits_tau deregistered]
  show (Calling.step D { s with sys := s₃ } (.runtime (.tau p))).bind _ = _
  rw [step_runtime permits_tau pushed]
  rfl

omit [DecidableEq P] in
/-- What is neither executed nor queued is suspended, and has not missed its event. -/
theorem idle (inv : InCalls D s)
    (still : ∀ p, (s.sys.threads p).pc.hand = none ∧ (s.sys.threads p).pc.batch = [] ∧
      ∀ fd, (s.sys.threads p).eventLoop.isPending fd = false)
    (none_queued : s.sys.globalQueue.items = []) {c : Call Op} (inside : s.calls h = some c) :
    D.ready (s.socket c.fd) (D.interest c.op) = false := by
  rcases inv.somewhere inside with ⟨p, held⟩ | queued | ⟨p, token, blocked⟩
  · simp [(still p).1] at held
  · simp [none_queued] at queued
  · obtain ⟨subscribed, signals⟩ := inv.subscribed inside blocked
    by_contra ready
    rw [Bool.not_eq_false] at ready
    rcases subscribed.event (signals.trans ready) with pending | polled
    · simp [(still p).2.2] at pending
    · simp [(still p).2.1] at polled

end InCalls

theorem calls_watched (reached : (calling P D).Reach Lts.anyStep (.init D) s) : CallsWatched D s := by
  have inv := InCalls.of_reach reached
  exact ⟨fun h c inside => inv.somewhere inside, fun h c p token => inv.subscribed,
    fun h c p token => inv.wakes, fun still none_queued h c => inv.idle still none_queued⟩

/-- A coroutine reads from a stream, would block and is suspended; bytes arrive, and its
thread is about to poll. -/
def readBlocks : List (CallAct Unit SocketOp (Answer Nat Nat Nat) (Change Nat Nat)) :=
  [.change 5 .stream, .runtime (.spawn ()), .runtime (.spawnInner ()), .runtime (.enter ()),
    .runtime (.tau ()), .runtime (.tau ()), .runtime (.tau ()), .runtime (.tau ()), .runtime (.tau ()),
    .call () 5 (.read 16), .attempt () none, .waitEvent () 0, .register () true, .runtime (.tau ()),
    .runtime (.tau ()), .change 5 (.data [72, 105]), .runtime (.tau ()), .runtime (.tau ()),
    .runtime (.tau ())]

theorem read_blocks_watched : ∃ s,
    (calling Unit (sockets Nat Nat Nat)).exec (.init (sockets Nat Nat Nat)) readBlocks = some s ∧
    (s.calls 0 = some ⟨5, .read 16, .retry⟩ ∧ (s.sys.coros 0).cell = .saved (.waitEvent () 0) ∧
      (s.sys.threads ()).pc = .runOnce) ∧
    CallsWatched (sockets Nat Nat Nat) s := by
  have runs : ((calling Unit (sockets Nat Nat Nat)).exec (.init (sockets Nat Nat Nat))
      readBlocks).any (fun s =>
      s.calls 0 = some ⟨5, .read 16, .retry⟩ ∧ (s.sys.coros 0).cell = .saved (.waitEvent () 0) ∧
        (s.sys.threads ()).pc = .runOnce) = true := by
    decide +kernel
  obtain ⟨s, run, blocked⟩ := (Option.any_eq_true _ _).1 runs
  exact ⟨s, run, of_decide_eq_true blocked, calls_watched (.of_exec_any run)⟩

/-! ## When run returns -/

/-- The runtime's steps are of `Scheduler::run`. -/
def CallsInRun (main : P) (s : Calling P K Op) : CallAct P Op R V → Prop
  | .runtime a => InRun main s.sys a
  | _ => True

/-- What the calls do to the runtime is a run of it. -/
theorem runtime_reach {ok : Sys P → Act P → Prop} {okCall : Calling P K Op → CallAct P Op R V → Prop}
    (runtime : ∀ s a, okCall s (.runtime a) → ok s.sys a)
    (waits : ∀ s p fd e token, ok s (.waitEvent p fd e token))
    (registers : ∀ s p answer, ok s (.register p answer))
    (sets : ∀ s fd e b, ok s (.setHolds fd e b))
    (reached : (calling P D).Reach okCall (.init D) s) : (system P).Reach ok .init s.sys := by
  have put {s : Calling P K Op} (reached : (system P).Reach ok .init s.sys) (fd : Fd) (k : K) :
      (system P).Reach ok .init (s.put D fd k).sys :=
    .step (a := .setHolds fd EventSet.writable (D.ready k EventSet.writable))
      (.step (a := .setHolds fd EventSet.readable (D.ready k EventSet.readable)) reached
        (sets _ _ _ _) rfl) (sets _ _ _ _) rfl
  induction reached with
  | start => exact .start
  | step _ meets taken ih =>
      cases callEffect_of_step taken with
      | runtime _ stepped => exact .step ih (runtime _ _ meets) stepped
      | call | blocked => exact ih
      | done => exact put ih _ _
      | waits _ _ _ stepped | full _ _ _ stepped => exact .step ih (waits _ _ _ _ _) stepped
      | registered _ _ stepped | refused _ _ stepped => exact .step ih (registers _ _ _) stepped
      | change => exact put ih _ _

/-- When `Scheduler::run(n)` returns no coroutine is in a call. -/
theorem calls_return (n : Nat) (s : Calling (Threads n) K Op)
    (reached : (calling (Threads n) D).Reach (CallsInRun none) (.init D) s)
    (returned : Returned s.sys) : Quiescent s.sys ∧ ∀ h, s.calls h = none := by
  have runs : (system (Threads n)).Reach (InRun none) .init s.sys :=
    runtime_reach (fun _ _ => id) (fun _ _ _ _ _ => trivial) (fun _ _ _ => trivial)
      (fun _ _ _ _ => trivial) reached
  obtain ⟨place, placed, balanced, stopped⟩ := OfRun.stopped (runs.mono fun _ _ run => .inl run)
  refine ⟨stopped.quiescent (Registers.reach runs) placed balanced returned, fun h => ?_⟩
  cases inside : s.calls h with
  | none => rfl
  | some c =>
      exfalso
      obtain ⟨place, attended⟩ := (InCalls.of_reach reached).attended
      have nothing := (stopped.nothing none (returned none)).1
      have located := (attended.aims h c inside).located attended.placed
      rcases attended.placed.freed_of_live returned nothing h with gone | gone <;> simp [gone] at located

instance (main : P) [Fintype P] (s : Calling P K Op) :
    ∀ act : CallAct P Op R V, Decidable (CallsInRun main s act)
  | .runtime a => inferInstanceAs (Decidable (InRun main s.sys a))
  | .call _ _ _ | .attempt _ _ | .waitEvent _ _ | .register _ _ | .change _ _ => .isTrue trivial

/-- The read is woken, returns the bytes, and its coroutine ends. -/
def readReturns : List (CallAct (Threads 1) SocketOp (Answer Nat Nat Nat) (Change Nat Nat)) :=
  [.change 5 .stream, .runtime (.spawn none), .runtime (.spawnInner none), .runtime (.enter none),
    .runtime (.tau none), .runtime (.tau none), .runtime (.tau none), .runtime (.tau none),
    .runtime (.tau none), .call none 5 (.read 16), .attempt none none, .waitEvent none 0,
    .register none true, .runtime (.tau none), .runtime (.tau none), .change 5 (.data [72, 105]),
    .runtime (.tau none), .runtime (.tau none), .runtime (.tau none), .runtime (.poll none [5]),
    .runtime (.tau none), .runtime (.tau none), .runtime (.tau none), .runtime (.tau none),
    .runtime (.tau none), .runtime (.tau none), .runtime (.tau none),
    .attempt none (some (.read [72, 105])), .runtime (.ret none), .runtime (.tau none),
    .runtime (.tau none), .runtime (.tau none), .runtime (.tau none), .runtime (.tau none),
    .runtime (.tau none), .runtime (.tau none)]

theorem read_returns_quiescent : ∃ s,
    (calling (Threads 1) (sockets Nat Nat Nat)).exec (.init (sockets Nat Nat Nat)) readReturns = some s ∧
      s.socket 5 = .stream [] false 0 [] ∧ Quiescent s.sys ∧ ∀ h, s.calls h = none := by
  have meets : (calling (Threads 1) (sockets Nat Nat Nat)).Meets (CallsInRun none)
      (.init (sockets Nat Nat Nat)) readReturns := by
    decide +kernel
  have returns : ((calling (Threads 1) (sockets Nat Nat Nat)).exec (.init (sockets Nat Nat Nat))
      readReturns).any (fun s =>
        (s.sys.threads none).pc = .done ∧ s.socket 5 = .stream [] false 0 []) = true := by
    decide +kernel
  obtain ⟨s, run, ends⟩ := (Option.any_eq_true _ _).1 returns
  obtain ⟨at_pc, read⟩ := of_decide_eq_true ends
  refine ⟨s, run, read, calls_return 1 s (.of_exec run meets) ?_⟩
  intro p
  cases p with
  | none => exact at_pc
  | some i => exact i.elim0

end SimpleSched.Net
