/-
# Net.Delivery -- what the calls return, over whole runs

Would-blocks, waits, wake-ups and the threads a call moves between are not seen at the
sockets: `refines` shows the runs of `Net.Blocking` as runs of `Theory.Blocking`, where a
call is done at once, at its return, or is refused and does nothing.  The queues of the
sockets are then accounted for (`calls_delivered`): over all coroutines and threads, and
as long as the socket is not closed, every connection is accepted once, every byte is read
once, in the order they came in, a datagram is received once, as far as the buffer has
room for it, and what was sent is what the writes say they have written.
-/
import SimpleSched.Net.Blocking

namespace SimpleSched.Net

set_option autoImplicit false

open Mio Theory
open SimpleSched.Runtime

variable {P K Op R V : Type}

/-- The sockets, and what each coroutine has called. -/
def Calling.shows (s : Calling P K Op) : Objects.State K Op Fd CoroutineRefMut where
  object := s.socket
  pending h := (s.calls h).map fun c => (c.fd, c.op)

/-- What is seen of a step: a call, its return, its failure in `wait_event`, or a change of
a socket. -/
def CallAct.event (s : Calling P K Op) :
    CallAct P Op R V → Option (Objects.Label Op R V Fd CoroutineRefMut)
  | .call p fd op => (s.sys.threads p).pc.hand.map fun h => .call h fd op
  | .attempt p (some r) => (s.sys.threads p).pc.hand.bind fun h =>
      (s.calls h).map fun c => .done h c.fd c.op r
  | .waitEvent p _ =>
      if (s.sys.threads p).slabs.count = MAX_TOKEN_NUM then (s.sys.threads p).pc.hand.map .refused
      else none
  | .register p answer => if answer then none else (s.sys.threads p).pc.hand.map .refused
  | .change fd v => some (.change fd v)
  | _ => none

variable [DecidableEq P] [DecidableEq Op] {D : Sockets K Op R V} {s s' : Calling P K Op}
  {act : CallAct P Op R V}

omit [DecidableEq P] [DecidableEq Op] in
theorem shows_setCall (s : Calling P K Op) (h : CoroutineRefMut) (c : Option (Call Op)) :
    (s.setCall h c).shows = { s.shows with
      pending := Function.update s.shows.pending h (c.map fun c => (c.fd, c.op)) } := by
  refine Objects.State.ext rfl (funext fun g => ?_)
  by_cases same : g = h
  · subst same
    simp [Calling.shows, Calling.setCall]
  · simp [Calling.shows, Calling.setCall, Function.update_of_ne same]

omit [DecidableEq P] [DecidableEq Op] in
/-- A call that goes on shows as it did. -/
theorem shows_goes {h : CoroutineRefMut} {fd : Fd} {op : Op} {stage stage' : Stage}
    (inside : s.calls h = some ⟨fd, op, stage⟩) :
    (s.setCall h (some ⟨fd, op, stage'⟩)).shows = s.shows := by
  rw [shows_setCall]
  refine Objects.State.ext rfl ?_
  exact Function.update_eq_self_iff.2 (by simp [Calling.shows, inside])

omit [DecidableEq P] in
/-- A call that ends in `wait_event` has done nothing. -/
theorem shows_refused {h : CoroutineRefMut} {c : Call Op} {sys : Sys P} (inside : s.calls h = some c) :
    D.step s.shows (.refused h) = some ({ s with sys := sys }.setCall h none).shows := by
  have pending : s.shows.pending h ≠ none := by simp [Calling.shows, inside]
  rw [shows_setCall]
  simp only [Objects.step, if_pos pending]
  rfl

/-- Of a call all that is seen at the sockets is its return. -/
theorem CallEffect.seen (effect : CallEffect D s act s') :
    (D.blocking Fd CoroutineRefMut).exec s.shows (act.event s).toList = some s'.shows := by
  cases effect with
  | runtime | registered => rfl
  | @call p h fd op at_pc outside =>
      have emits : (CallAct.call p fd op : CallAct P Op R V).event s = some (.call h fd op) := by
        simp [CallAct.event, at_pc, Pc.hand]
      have idle : s.shows.pending h = none := by simp [Calling.shows, outside]
      rw [emits, Option.toList_some, Lts.exec_singleton, shows_setCall]
      simp [Objects.blocking, Objects.step, idle]
  | blocked at_pc inside =>
      rw [shows_goes inside]
      rfl
  | @done p h fd op stage r k at_pc inside done =>
      have emits : (CallAct.attempt p (some r) : CallAct P Op R V).event s = some (.done h fd op r) := by
        simp [CallAct.event, at_pc, Pc.hand, inside]
      have pending : s.shows.pending h = some (fd, op) := by simp [Calling.shows, inside]
      have object : D.done (s.shows.object fd) op r = some k := done
      have ends : ((s.setCall h none).put D fd k).shows =
          ⟨Function.update s.shows.object fd k, Function.update s.shows.pending h none⟩ :=
        Objects.State.ext rfl
          (show (s.setCall h none).shows.pending = _ by rw [shows_setCall]; rfl)
      rw [emits, Option.toList_some, Lts.exec_singleton, ends]
      simp [Objects.blocking, Objects.step, pending, object]
  | @waits p h fd op token sys at_pc inside room stepped =>
      have silent : (CallAct.waitEvent p token : CallAct P Op R V).event s = none := by
        simp [CallAct.event, room]
      rw [silent]
      exact congrArg some (shows_goes (s := { s with sys := sys }) inside).symm
  | @full p h fd op token sys at_pc inside full stepped =>
      have emits : (CallAct.waitEvent p token : CallAct P Op R V).event s = some (.refused h) := by
        simp [CallAct.event, full, at_pc, Pc.hand]
      rw [emits, Option.toList_some, Lts.exec_singleton]
      exact shows_refused (D := D) inside
  | @refused p h c token fd i sys at_pc inside stepped =>
      have emits : (CallAct.register p false : CallAct P Op R V).event s = some (.refused h) := by
        simp [CallAct.event, at_pc, Pc.hand]
      rw [emits, Option.toList_some, Lts.exec_singleton]
      exact shows_refused (D := D) inside
  | @change fd v k changes =>
      have object : D.change (s.shows.object fd) v = some k := changes
      show (D.blocking Fd CoroutineRefMut).exec s.shows [.change fd v] = _
      rw [Lts.exec_singleton]
      show D.step s.shows (.change fd v) = _
      rw [Objects.step, object]
      rfl

/-- The runs of the calls are runs of objects whose operations are done at once. -/
def refines (D : Sockets K Op R V) : Simulation (calling P D) (D.blocking Fd CoroutineRefMut)
    Lts.anyStep (fun s act => act.event s) where
  Rel s t := t = s.shows
  step related _ taken := by
    subst related
    exact ⟨_, (callEffect_of_step taken).seen, rfl⟩

/-! ## The account of every socket -/

/-- What came of the calls of a run. -/
structure Delivered {Conn Addr E : Type} [DecidableEq Conn] [DecidableEq Addr]
    (s : Calling P (Socket Conn Addr) SocketOp)
    (tr : List (Objects.Label SocketOp (Answer Conn Addr E) (Change Conn Addr) Fd CoroutineRefMut)) :
    Prop where
  /-- a call is done at once, at its return, or nothing is done -/
  atomic : ((sockets Conn Addr E).blocking Fd CoroutineRefMut).exec
    (Calling.init (sockets Conn Addr E) : Calling P _ _).shows tr = some s.shows
  /-- since a socket was last closed, what came is what was returned and what is left -/
  accepted : accepts.Accounts s.shows tr
  read : reads.Accounts s.shows tr
  written : writes.Accounts s.shows tr
  received : receives.Accounts s.shows tr

theorem calls_delivered {Conn Addr E : Type} [DecidableEq Conn] [DecidableEq Addr]
    {s : Calling P (Socket Conn Addr) SocketOp ×
      List (Objects.Label SocketOp (Answer Conn Addr E) (Change Conn Addr) Fd CoroutineRefMut)}
    (reached : ((calling P (sockets Conn Addr E)).traced fun s act => act.event s).Reach Lts.anyStep
      (.init (sockets Conn Addr E), []) s) : Delivered s.1 s.2 := by
  obtain ⟨_, atomic, rfl⟩ := (refines (sockets Conn Addr E)).run rfl reached
  exact ⟨atomic, accepts.account (fun _ => rfl) atomic, reads.account (fun _ => rfl) atomic,
    writes.account (fun _ => rfl) atomic, receives.account (fun _ => rfl) atomic⟩

/-- After the read of `readReturns` the coroutine drops the stream; the descriptor is opened
again, and a datagram of three bytes is received with room for two. -/
def receivesNext : List (CallAct (Threads 1) SocketOp (Answer Nat Nat Nat) (Change Nat Nat)) :=
  readReturns.take 28 ++ [.call none 5 .close, .attempt none (some .closed), .change 5 .udp,
    .change 5 (.datagram 9 [1, 2, 3]), .call none 5 (.recvFrom 2),
    .attempt none (some (.received 9 [1, 2]))]

theorem receives_next_delivered : ∃ t,
    ((calling (Threads 1) (sockets Nat Nat Nat)).traced fun s act => act.event s).exec
      (.init (sockets Nat Nat Nat), []) receivesNext = some t ∧
    (t.2.filterMap fun | .done h fd op r => some (h, fd, op, r) | _ => none) =
      [(0, 5, .read 16, .read [72, 105]), (0, 5, .close, .closed),
        (0, 5, .recvFrom 2, .received 9 [1, 2])] ∧
    Delivered t.1 t.2 := by
  have runs : (((calling (Threads 1) (sockets Nat Nat Nat)).traced fun s act => act.event s).exec
      (.init (sockets Nat Nat Nat), []) receivesNext).any (fun t =>
        (t.2.filterMap fun | .done h fd op r => some (h, fd, op, r) | _ => none) =
          [(0, 5, .read 16, .read [72, 105]), (0, 5, .close, .closed),
            (0, 5, .recvFrom 2, .received 9 [1, 2])]) = true := by
    decide +kernel
  obtain ⟨t, run, returns⟩ := (Option.any_eq_true _ _).1 runs
  exact ⟨t, run, of_decide_eq_true returns, calls_delivered (.of_exec_any run)⟩

end SimpleSched.Net
