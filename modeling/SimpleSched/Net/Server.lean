/-
# Net.Server -- Server::listen and the coroutines of its connections

The accept loop of `Server::listen` (`net/http/server.rs`) over a `TcpListener`: a round
accepts a connection, or unwraps an error, and spawns the coroutine that handles it.
What that does is a parameter: any program that works on the connection it is given, as
`Worker::handle_connection` does, and ends, panics or spawns for that connection.  Dropping
the stream and its clone is the program's own `close`, and the next connection may get the
descriptor.  Handshakes, which `HttpsListener::accept` does in the loop, are left out.

`connections_isolated`: over every run on the runtime what happens under a descriptor is as
if there were no other, and the handling begins once for each time a connection with it is
accepted.  `server_idle`: where nothing is left to do, nothing waits for the server.
-/
import SimpleSched.Net.Echo
import SimpleSched.Theory.Sessions

namespace SimpleSched.Net

set_option autoImplicit false

open Mio Theory
open SimpleSched.Runtime

variable {P T X Addr E : Type}

inductive Listen
  /-- at the `accept` of the loop, and before the spawn in its body -/
  | incoming
  | accepted (stream : Fd)
  /-- dropping the listener, unwinding from the `unwrap` -/
  | stopping
  | panicked
  deriving DecidableEq

/-- The loop of `Server::listen`; `handle` is the beginning of `handle_connection`. -/
def listen (server : Fd) (handle : X) : Listen → Front Listen X Fd SocketOp (Answer Fd Addr E)
  | .incoming => .call server .accept fun
    | some (.accepted stream) => .accepted stream
    | _ => .stopping
  | .accepted stream => .session stream handle .incoming
  | .stopping => .call server .close fun
    | some .closed => .panicked
    | _ => .stopping
  | .panicked => .panic

abbrev Server (T X Addr : Type) := Machine (Socket Fd Addr) Fd T (Serving Listen X Fd)

abbrev ServerLabel (T X Addr E : Type) := SocketLabel T Addr E (Serving Listen X Fd)

abbrev SessionLabel (T X Addr E : Type) :=
  Machine.Label SocketOp (Answer Fd Addr E) (Change Fd Addr) PUnit T X

variable [DecidableEq Addr]

/-- The connections the listener has given away. -/
def acceptedOn (server : Fd) (tr : List (ServerLabel T X Addr E)) : List Fd :=
  tr.flatMap (Machine.take accepts server)

/-- The connections that have come to it. -/
def cameTo (server : Fd) (tr : List (ServerLabel T X Addr E)) : List Fd :=
  tr.flatMap (Machine.put accepts server)

/-- A coroutine drops the listener. -/
def drops (server : Fd) : ServerLabel T X Addr E → Bool
  | .done _ i op r => i = server && op.closes r
  | _ => false

/-- Accepted, and its coroutine not spawned yet. -/
def Pending (s : Server T X Addr) (c : Fd) : Prop := ∃ t, s.task t = some (.front (.accepted c))

variable [DecidableEq T]

/-- What a step has to do with the acceptor. -/
inductive Moves (server : Fd) (handle : X) (s s' : Server T X Addr) (c : Fd) :
    ServerLabel T X Addr E → Prop
  | boot {t} : s.task t = none → s'.task = Function.update s.task t (some (.front .incoming)) →
      Moves server handle s s' c (.boot t (.front .incoming))
  | accept {t d} : s.task t = some (.front .incoming) →
      s'.task = Function.update s.task t (some (.front (.accepted d))) →
      Moves server handle s s' c (.done t server .accept (.accepted d))
  | spawn {t u d} : s.task t = some (.front (.accepted d)) → s.task u = none →
      s'.task = Function.update (Function.update s.task u (some (.session d handle))) t
        (some (.front .incoming)) →
      Moves server handle s s' c (.spawn t u)
  /-- it leaves the loop and drops the listener, or is no more -/
  | leaves {t f q l} : s.task t = some (.front f) → (∀ d, f ≠ .accepted d) →
      (∀ p, q = some p → p = .front .stopping ∨ p = .front .panicked) →
      (f = .panicked ∨ drops server l = true → ∀ p, q = some p → p = .front .panicked) →
      s'.task = Function.update s.task t q → l.isBoot = false → Machine.take accepts server l = [] →
      l.on c (listen server handle) s = none → Moves server handle s s' c l
  /-- the network, or a session -/
  | apart {l} : (∀ u f, s'.task u = some (.front f) ↔ s.task u = some (.front f)) →
      (∀ u i y, s'.task u = some (.session i y) → ∃ t y', s.task t = some (.session i y')) →
      l.isBoot = false → Machine.take accepts server l = [] → drops server l = false →
      ((l.on c (listen (E := E) server handle) s).all fun m => !m.isBoot) = true →
      Moves server handle s s' c l

section Step

variable {server c : Fd} {handle : X} {session : Program X PUnit SocketOp (Answer Fd Addr E)}
  {s s' : Server T X Addr} {l : ServerLabel T X Addr E} {tr : List (ServerLabel T X Addr E)}

/-- A session goes on, or is no more. -/
theorem Moves.within {t : T} {i : Fd} {y : X} {q : Option (Serving Listen X Fd)}
    (at_t : s.task t = some (.session i y)) (stays : ∀ p, q = some p → ∃ y', p = .session i y')
    (task : s'.task = Function.update s.task t q) (no_boot : l.isBoot = false)
    (takes : Machine.take accepts server l = []) (no_drop : drops server l = false)
    (seen : ((l.on c (listen (E := E) server handle) s).all fun m => !m.isBoot) = true) :
    Moves server handle s s' c l := by
  refine .apart ?_ ?_ no_boot takes no_drop seen
  · intro u f
    rw [task]
    by_cases same : u = t
    · subst same
      rw [Function.update_self, at_t]
      constructor
      · intro goes
        obtain ⟨y', front⟩ := stays _ goes
        cases front
      · rintro ⟨⟩
    · rw [Function.update_of_ne same]
  · intro u j y' at_u
    rw [task] at at_u
    by_cases same : u = t
    · subst same
      rw [Function.update_self] at at_u
      obtain ⟨z, eq⟩ := stays _ at_u
      cases eq
      exact ⟨u, y, at_t⟩
    · rw [Function.update_of_ne same] at at_u
      exact ⟨u, y', at_u⟩

/-- A session spawns. -/
theorem Moves.child {t u : T} {i : Fd} {y y' z : X} (at_t : s.task t = some (.session i y))
    (absent : s.task u = none)
    (task : s'.task = Function.update (Function.update s.task u (some (.session i y'))) t
      (some (.session i z))) (no_boot : l.isBoot = false) (takes : Machine.take accepts server l = [])
    (no_drop : drops server l = false)
    (seen : ((l.on c (listen (E := E) server handle) s).all fun m => !m.isBoot) = true) :
    Moves server handle s s' c l := by
  have elsewhere {v : T} (other : v ≠ t) (older : v ≠ u) : s'.task v = s.task v := by
    rw [task, Function.update_of_ne other, Function.update_of_ne older]
  have at_t' : s'.task t = some (.session i z) := by rw [task, Function.update_self]
  refine .apart ?_ ?_ no_boot takes no_drop seen
  · intro v f
    by_cases same : v = t
    · subst same
      simp [at_t, at_t']
    · by_cases new : v = u
      · subst new
        simp [absent, task, Function.update_of_ne same]
      · rw [elsewhere same new]
  · intro v j x at_v
    by_cases same : v = t
    · subst same
      obtain ⟨rfl, -⟩ := Serving.session.inj (Option.some.inj (at_t'.symm.trans at_v))
      exact ⟨v, y, at_t⟩
    · by_cases new : v = u
      · subst new
        rw [task, Function.update_of_ne same, Function.update_self] at at_v
        obtain ⟨rfl, -⟩ := Serving.session.inj (Option.some.inj at_v)
        exact ⟨t, y, at_t⟩
      · exact ⟨v, x, by rwa [elsewhere same new] at at_v⟩

/-- A call returns to the acceptor or to a session. -/
theorem moves_of_done {t : T} {q : Serving Listen X Fd} {i : Fd} {op : SocketOp}
    {k : Option (Answer Fd Addr E) → Serving Listen X Fd} {r : Answer Fd Addr E} {x : Socket Fd Addr}
    (at_t : s.task t = some q) (next : serving (listen server handle) session q = .call i op k)
    (done : (s.object i).done op r = some x)
    (elsewhere : ∀ t i y, s.task t = some (.session i y) → i ≠ server) (other : c ≠ server) :
    Moves server handle s
      ({ s with object := Function.update s.object i x }.setTask t (some (k (some r)))) c
      (.done t i op r) := by
  cases q with
  | front f =>
      cases f with
      | incoming =>
          cases next
          cases r with
          | accepted d => exact .accept at_t rfl
          | _ =>
              exact .leaves at_t (by simp) (by simp) (by simp [drops, SocketOp.closes]) rfl rfl
                (by simp [Machine.take, accepts]) (by simp [Machine.Label.on, Ne.symm other])
      | stopping =>
          cases next
          have done : (s.object server).done .close r = some x := done
          generalize s.object server = y at done
          cases Socket.done_some done with
          | error no_close => exact absurd rfl no_close
          | close =>
              exact .leaves at_t (by simp) (by simp) (by simp) rfl rfl
                (by simp [Machine.take, accepts]) (by simp [Machine.Label.on, Ne.symm other])
      | accepted | panicked => cases next
  | session j y =>
      obtain ⟨k', -, rfl, rfl⟩ := Next.within_call next
      refine .within at_t (fun p goes => ⟨_, (Option.some.inj goes).symm⟩) rfl rfl ?_ ?_
        (Machine.Label.on_no_boot c rfl (by simp))
      · simp [Machine.take, elsewhere t j y at_t]
      · simp [drops, elsewhere t j y at_t]

theorem moves_of_step
    (effect : Machine.Effect (sockets Fd Addr E).toObjects (serving (listen server handle) session)
      s l s')
    (boots : ∀ t q, l = .boot t q → q = .front .incoming)
    (elsewhere : ∀ t i y, s.task t = some (.session i y) → i ≠ server) (other : c ≠ server) :
    Moves server handle s s' c l := by
  cases effect with
  | @boot t q absent =>
      obtain rfl := boots t q rfl
      exact .boot absent rfl
  | done at_t next done => exact moves_of_done at_t next done elsewhere other
  | @failed t q i op k at_t next =>
      cases q with
      | front f =>
          cases f with
          | incoming | stopping =>
              cases next
              exact .leaves at_t (by simp) (by simp) (by simp [drops]) rfl rfl rfl
                (by simp [Machine.Label.on, Machine.on, at_t, Serving.on])
          | accepted | panicked => cases next
      | session j y =>
          obtain ⟨k', -, rfl, rfl⟩ := Next.within_call next
          exact .within at_t (fun p goes => ⟨_, (Option.some.inj goes).symm⟩) rfl rfl rfl rfl
            (Machine.Label.on_no_boot c rfl (by simp))
  | @killed t q i op k at_t next =>
      cases q with
      | front f =>
          cases f with
          | incoming | stopping =>
              exact .leaves (q := none) at_t (by simp) (by simp) (by simp) rfl rfl rfl
                (by simp [Machine.Label.on, Machine.on, at_t, Serving.on])
          | accepted | panicked => cases next
      | session j y =>
          exact .within at_t (fun p goes => by cases goes) rfl rfl rfl rfl
            (Machine.Label.on_no_boot c rfl (by simp))
  | @spawn t u q child rest at_t next absent =>
      cases q with
      | front f =>
          cases f with
          | accepted d =>
              cases next
              exact .spawn at_t absent rfl
          | incoming | stopping | panicked => cases next
      | session j y =>
          obtain ⟨y', z, -, rfl, rfl⟩ := Next.within_spawn next
          refine .child at_t absent rfl rfl rfl rfl (Machine.Label.on_no_boot c rfl ?_)
          rintro _ _ f ⟨⟩
          simp [at_t]
  | @sched t q rest at_t next =>
      cases q with
      | front f => cases f <;> cases next
      | session j y =>
          obtain ⟨y', -, rfl⟩ := Next.within_sched next
          exact .within at_t (fun p goes => ⟨_, (Option.some.inj goes).symm⟩) rfl rfl rfl rfl
            (Machine.Label.on_no_boot c rfl (by simp))
  | @returned t q at_t next =>
      cases q with
      | front f => cases f <;> cases next
      | session j y =>
          exact .within at_t (fun p goes => by cases goes) rfl rfl rfl rfl
            (Machine.Label.on_no_boot c rfl (by simp))
  | @panicked t q at_t next =>
      cases q with
      | front f =>
          cases f with
          | panicked =>
              exact .leaves (q := none) at_t (by simp) (by simp) (by simp) rfl rfl rfl
                (by simp [Machine.Label.on, Machine.on, at_t, Serving.on])
          | incoming | accepted | stopping => cases next
      | session j y =>
          exact .within at_t (fun p goes => by cases goes) rfl rfl rfl rfl
            (Machine.Label.on_no_boot c rfl (by simp))
  | @change i v x changes =>
      exact .apart (fun u f => Iff.rfl) (fun u i y at_u => ⟨u, y, at_u⟩) rfl rfl rfl
        (Machine.Label.on_no_boot c rfl (by simp))

/-- The acceptor is one task, and sessions are on connections it has accepted; it drops the
listener only when it leaves the loop. -/
structure Fronts (server : Fd) (s : Server T X Addr) (tr : List (ServerLabel T X Addr E)) : Prop where
  first : tr.countP (·.isBoot) = 0 → ∀ t, s.task t = none
  one : ∀ t u f g, s.task t = some (.front f) → s.task u = some (.front g) → t = u
  sessions : ∀ t i y, s.task t = some (.session i y) → i ∈ acceptedOn server tr
  pending : ∀ c, Pending s c → c ∈ acceptedOn server tr
  dropped : ∀ l ∈ tr, drops server l = true → tr.countP (·.isBoot) ≠ 0 ∧
    ∀ t f, s.task t = some (.front f) → f = .panicked

/-- The connection is pending or not, and was accepted once for each session that was
started on it, and once more if it is. -/
def Accounts (server : Fd) (s : Server T X Addr) (tr : List (ServerLabel T X Addr E)) (c : Fd)
    (started : Nat) : Prop :=
  Pending s c ∧ (acceptedOn server tr).count c = started + 1 ∨
    ¬ Pending s c ∧ (acceptedOn server tr).count c = started

omit [DecidableEq T] in
theorem acceptedOn_concat :
    acceptedOn server (tr ++ [l]) = acceptedOn server tr ++ Machine.take accepts server l := by
  simp [acceptedOn]

omit [DecidableEq Addr] in
theorem task_update {t u : T} {q : Option (Serving Listen X Fd)} {p : Serving Listen X Fd}
    (task : s'.task = Function.update s.task t q) (at_u : s'.task u = some p) :
    u = t ∧ q = some p ∨ u ≠ t ∧ s.task u = some p := by
  rw [task] at at_u
  by_cases same : u = t
  · subst same
    exact .inl ⟨rfl, by rwa [Function.update_self] at at_u⟩
  · exact .inr ⟨same, by rwa [Function.update_of_ne same] at at_u⟩

omit [DecidableEq T] in
/-- No acceptor is new, and what sessions are on and what is pending was so, or was just
accepted. -/
theorem Fronts.of (fronts : Fronts server s tr)
    (from_front : ∀ u g, s'.task u = some (.front g) → ∃ f, s.task u = some (.front f) ∧
      (f = .panicked ∨ drops server l = true → g = .panicked))
    (by_front : drops server l = true → ∃ t f, s.task t = some (.front f))
    (from_session : ∀ u i y, s'.task u = some (.session i y) →
      (∃ t y', s.task t = some (.session i y')) ∨ Pending s i)
    (from_pending : ∀ c, Pending s' c → Pending s c ∨ c ∈ Machine.take accepts server l) :
    Fronts server s' (tr ++ [l]) where
  first none_booted t := by
    have before := fronts.first (by simp_all)
    cases at_t : s'.task t with
    | none => rfl
    | some q =>
        cases q with
        | front f =>
            obtain ⟨g, at_t', -⟩ := from_front t f at_t
            simp [before] at at_t'
        | session i y =>
            rcases from_session t i y at_t with ⟨u, y', at_u⟩ | ⟨u, at_u⟩ <;> simp [before] at at_u
  one t u f g at_t at_u := by
    obtain ⟨f', at_t', -⟩ := from_front t f at_t
    obtain ⟨g', at_u', -⟩ := from_front u g at_u
    exact fronts.one t u f' g' at_t' at_u'
  sessions t i y at_t := by
    rw [acceptedOn_concat]
    refine List.mem_append_left _ ?_
    rcases from_session t i y at_t with ⟨u, y', at_u⟩ | pending
    · exact fronts.sessions u i y' at_u
    · exact fronts.pending i pending
  pending c pending := by
    rw [acceptedOn_concat]
    rcases from_pending c pending with before | now
    · exact List.mem_append_left _ (fronts.pending c before)
    · exact List.mem_append_right _ now
  dropped l' mem drop := by
    rcases List.mem_append.1 mem with before | now
    · obtain ⟨booted, stopped⟩ := fronts.dropped l' before drop
      refine ⟨by simp [booted], fun u g at_u => ?_⟩
      obtain ⟨f, at_u', goes⟩ := from_front u g at_u
      exact goes (.inl (stopped u f at_u'))
    · obtain rfl := List.mem_singleton.1 now
      obtain ⟨t, f, at_t⟩ := by_front drop
      refine ⟨fun none_booted => ?_, fun u g at_u => ?_⟩
      · rw [List.countP_append] at none_booted
        simp [fronts.first (by omega)] at at_t
      · obtain ⟨f', -, goes⟩ := from_front u g at_u
        exact goes (.inr drop)

theorem Fronts.step (fronts : Fronts server s tr) (moves : Moves server handle s s' c l)
    (once : (tr ++ [l]).countP (·.isBoot) ≤ 1) : Fronts server s' (tr ++ [l]) := by
  cases moves with
  | @boot t absent task =>
      have none_booted : tr.countP (·.isBoot) = 0 := by
        simpa [Machine.Label.isBoot, Machine.Label.booted] using once
      have nobody := fronts.first none_booted
      have only {u : T} {p : Serving Listen X Fd} (at_u : s'.task u = some p) :
          u = t ∧ p = .front .incoming := by
        rcases task_update task at_u with ⟨same, eq⟩ | ⟨-, before⟩
        · exact ⟨same, (Option.some.inj eq).symm⟩
        · simp [nobody] at before
      refine ⟨by simp [Machine.Label.isBoot, Machine.Label.booted], ?_, ?_, ?_, ?_⟩
      · intro v u f g at_v at_u
        exact (only at_v).1.trans (only at_u).1.symm
      · intro v i y at_v
        cases (only at_v).2
      · rintro d ⟨v, at_v⟩
        cases (only at_v).2
      · intro l mem drop
        rcases List.mem_append.1 mem with before | now
        · exact absurd none_booted (fronts.dropped l before drop).1
        · cases List.mem_singleton.1 now
          cases drop
  | @accept t d at_t task =>
      have no_drop : drops server (.done t server .accept (.accepted d) : ServerLabel T X Addr E) = false := by
        simp [drops, SocketOp.closes]
      refine fronts.of ?_ (by simp [no_drop]) ?_ ?_
      · intro u g at_u
        rcases task_update task at_u with ⟨rfl, -⟩ | ⟨-, before⟩
        · exact ⟨_, at_t, by simp [no_drop]⟩
        · exact ⟨g, before, by simp [no_drop]⟩
      · intro u i y at_u
        rcases task_update task at_u with ⟨-, eq⟩ | ⟨-, before⟩
        · cases eq
        · exact .inl ⟨u, y, before⟩
      · rintro e ⟨u, at_u⟩
        rcases task_update task at_u with ⟨-, eq⟩ | ⟨-, before⟩
        · cases eq
          exact .inr (by simp [Machine.take, accepts])
        · exact .inl ⟨u, before⟩
  | @spawn t u d at_t absent task =>
      refine fronts.of ?_ (by simp [drops]) ?_ ?_
      · intro v g at_v
        rcases task_update (s := s.setTask u _) task at_v with ⟨rfl, -⟩ | ⟨-, before⟩
        · exact ⟨_, at_t, by simp [drops]⟩
        · rcases task_update rfl before with ⟨-, eq⟩ | ⟨-, before⟩
          · cases eq
          · exact ⟨g, before, by simp [drops]⟩
      · intro v i y at_v
        rcases task_update (s := s.setTask u _) task at_v with ⟨-, eq⟩ | ⟨-, before⟩
        · cases eq
        · rcases task_update rfl before with ⟨-, eq⟩ | ⟨-, before⟩
          · cases eq
            exact .inr ⟨t, at_t⟩
          · exact .inl ⟨v, y, before⟩
      · rintro e ⟨v, at_v⟩
        rcases task_update (s := s.setTask u _) task at_v with ⟨-, eq⟩ | ⟨-, before⟩
        · cases eq
        · rcases task_update rfl before with ⟨-, eq⟩ | ⟨-, before⟩
          · cases eq
          · exact .inl ⟨v, before⟩
  | @leaves t f q _ at_t not_accepted goes drop task no_boot takes unseen =>
      refine fronts.of ?_ (fun _ => ⟨t, f, at_t⟩) ?_ ?_
      · intro u g at_u
        rcases task_update task at_u with ⟨rfl, eq⟩ | ⟨apart, before⟩
        · exact ⟨f, at_t, fun stops => by cases drop stops _ eq; rfl⟩
        · exact absurd (fronts.one u t g f before at_t) apart
      · intro u i y at_u
        rcases task_update task at_u with ⟨-, eq⟩ | ⟨-, before⟩
        · rcases goes _ eq with same | same <;> cases same
        · exact .inl ⟨u, y, before⟩
      · rintro e ⟨u, at_u⟩
        rcases task_update task at_u with ⟨-, eq⟩ | ⟨-, before⟩
        · rcases goes _ eq with same | same <;> cases same
        · exact .inl ⟨u, before⟩
  | apart same sessions no_boot takes no_drop seen =>
      refine fronts.of (fun u g at_u => ⟨g, (same u g).1 at_u, by simp [no_drop]⟩) (by simp [no_drop])
        (fun u i y at_u => .inl (sessions u i y at_u)) ?_
      rintro d ⟨u, at_u⟩
      exact .inl ⟨u, (same u _).1 at_u⟩

omit [DecidableEq T] in
/-- What is pending is what the acceptor has. -/
theorem Fronts.pending_iff (fronts : Fronts server s tr) {t : T} {f : Listen}
    (at_t : s.task t = some (.front f)) : Pending s c ↔ f = .accepted c := by
  constructor
  · rintro ⟨u, at_u⟩
    obtain rfl := fronts.one t u _ _ at_t at_u
    rw [at_t] at at_u
    cases at_u
    rfl
  · rintro rfl
    exact ⟨t, at_t⟩

omit [DecidableEq T] in
/-- A step that neither accepts the connection nor starts a session on it. -/
theorem Accounts.keep {n m : Nat} (accounts : Accounts server s tr c n)
    (pending : Pending s' c ↔ Pending s c) (takes : (Machine.take accepts server l).count c = 0)
    (no_boot : m = 0) : Accounts server s' (tr ++ [l]) c (n + m) := by
  subst no_boot
  unfold Accounts at accounts ⊢
  rw [pending, acceptedOn_concat, List.count_append, takes]
  exact accounts

theorem Accounts.step {n : Nat} (accounts : Accounts server s tr c n) (fronts : Fronts server s tr)
    (other : c ≠ server) (moves : Moves server handle s s' c l) :
    Accounts server s' (tr ++ [l]) c
      (n + (l.on c (listen server handle) s).toList.countP (·.isBoot)) := by
  cases moves with
  | @boot t absent task =>
      refine accounts.keep ?_ rfl rfl
      constructor
      · rintro ⟨u, at_u⟩
        rcases task_update task at_u with ⟨-, eq⟩ | ⟨-, before⟩
        · cases eq
        · exact ⟨u, before⟩
      · rintro ⟨u, at_u⟩
        have apart : u ≠ t := by
          rintro rfl
          simp [absent] at at_u
        exact ⟨u, by rw [task, Function.update_of_ne apart, at_u]⟩
  | @accept t d at_t task =>
      have not_before : ¬ Pending s c := by simp [fronts.pending_iff at_t]
      have unseen : (Machine.Label.done t server .accept (.accepted d) : ServerLabel T X Addr E).on c
          (listen server handle) s = none := by simp [Machine.Label.on, Ne.symm other]
      have takes : Machine.take accepts server (.done t server .accept (.accepted d) :
          ServerLabel T X Addr E) = [d] := by simp [Machine.take, accepts]
      rw [unseen]
      by_cases same : d = c
      · subst same
        have count := (accounts.resolve_left fun both => not_before both.1).2
        refine .inl ⟨⟨t, by rw [task, Function.update_self]⟩, ?_⟩
        rw [acceptedOn_concat, takes, List.count_append, count]
        simp
      · refine accounts.keep ?_ (by rw [takes]; simp [same]) rfl
        refine iff_of_false ?_ not_before
        rintro ⟨u, at_u⟩
        rcases task_update task at_u with ⟨-, eq⟩ | ⟨-, before⟩
        · cases eq
          exact same rfl
        · exact not_before ⟨u, before⟩
  | @spawn t u d at_t absent task =>
      have not_after : ¬ Pending s' c := by
        rintro ⟨v, at_v⟩
        rcases task_update (s := s.setTask u _) task at_v with ⟨-, eq⟩ | ⟨apart, before⟩
        · cases eq
        · rcases task_update rfl before with ⟨-, eq⟩ | ⟨-, before⟩
          · cases eq
          · exact apart (fronts.one v t _ _ before at_t)
      by_cases same : d = c
      · subst same
        have seen : (Machine.Label.spawn t u : ServerLabel T X Addr E).on d (listen server handle) s =
            some (.boot u handle) := by simp [Machine.Label.on, at_t, listen]
        have before : Pending s d := ⟨t, at_t⟩
        have count := (accounts.resolve_right fun both => both.1 before).2
        refine .inr ⟨not_after, ?_⟩
        rw [acceptedOn_concat, List.count_append, count, seen]
        simp [Machine.take, Machine.Label.isBoot, Machine.Label.booted]
      · have unseen : (Machine.Label.spawn t u : ServerLabel T X Addr E).on c (listen server handle) s =
            none := by simp [Machine.Label.on, at_t, listen, same]
        rw [unseen]
        refine accounts.keep (iff_of_false not_after ?_) (by simp [Machine.take]) rfl
        simp [fronts.pending_iff at_t, same]
  | @leaves t f q _ at_t not_accepted goes drop task no_boot takes unseen =>
      have not_before : ¬ Pending s c := by simp [fronts.pending_iff at_t, not_accepted]
      rw [unseen]
      refine accounts.keep (iff_of_false ?_ not_before) (by simp [takes]) rfl
      rintro ⟨u, at_u⟩
      rcases task_update task at_u with ⟨-, eq⟩ | ⟨-, before⟩
      · rcases goes _ eq with same | same <;> cases same
      · exact not_before ⟨u, before⟩
  | apart same sessions no_boot takes no_drop seen =>
      refine accounts.keep (exists_congr fun u => same u _) (by simp [takes]) ?_
      revert seen
      cases l.on c (listen (E := E) server handle) s <;> simp

/-- What is started on a connection is its handling. -/
theorem Moves.starts (moves : Moves server handle s s' c l) (other : c ≠ server) {t : T} {y : X}
    (seen : l.on c (listen server handle) s = some (.boot t y)) : y = handle := by
  cases moves with
  | boot => simp [Machine.Label.on, Serving.on] at seen
  | accept => simp [Machine.Label.on, Ne.symm other] at seen
  | spawn at_t =>
      simp only [Machine.Label.on, at_t, listen, Option.ite_none_right_eq_some, Option.some.injEq,
        Machine.Label.boot.injEq] at seen
      exact seen.2.2.symm
  | leaves _ _ _ _ _ _ _ unseen => simp [unseen] at seen
  | apart _ _ _ _ _ no_boot => simp [seen, Machine.Label.isBoot, Machine.Label.booted] at no_boot

end Step

/-! ## Whole runs -/

/-- What is started on a connection, by the events on it. -/
structure Begun (server : Fd) (handle : X) (s : Server T X Addr) (tr : List (ServerLabel T X Addr E))
    (c : Fd) (alone : List (SessionLabel T X Addr E)) : Prop where
  starts : ∀ t y, .boot t y ∈ alone → y = handle
  once : Accounts server s tr c (alone.countP (·.isBoot))

/-- How a connection fares: what is seen of it in the run is a run of the handling alone,
which begins once for each time a connection with the descriptor was accepted, but for the
spawn that may be next. -/
structure Alone (server : Fd) (handle : X) (session : Program X PUnit SocketOp (Answer Fd Addr E))
    (s : Server T X Addr) (tr : List (ServerLabel T X Addr E)) (c : Fd)
    (alone : List (SessionLabel T X Addr E)) : Prop extends Begun server handle s tr c alone where
  seen : ((machine (sockets Fd Addr E).toObjects (serving (listen server handle) session)).traced
    fun s l => l.on c (listen server handle) s).exec (.start .closed, []) tr = some (s, alone)
  runs : (machine (sockets Fd Addr E).toObjects session).exec (.start .closed) alone = some (s.on c)

section Runs

variable {server c : Fd} {handle : X} {session : Program X PUnit SocketOp (Answer Fd Addr E)}

section Exec

variable {s s' : Server T X Addr} {tr : List (ServerLabel T X Addr E)}
  {alone : List (SessionLabel T X Addr E)} {l : ServerLabel T X Addr E}

theorem Begun.step (so_far : Begun server handle s tr c alone) (fronts : Fronts server s tr)
    (other : c ≠ server) (moves : Moves server handle s s' c l) :
    Begun server handle s' (tr ++ [l]) c (alone ++ (l.on c (listen server handle) s).toList) where
  starts t y booted := by
    rcases List.mem_append.1 booted with before | now
    · exact so_far.starts t y before
    · exact moves.starts other (Option.mem_toList.1 now)
  once := by
    rw [List.countP_append]
    exact so_far.once.step fronts other moves

/-- Under every descriptor but the listener's a run is one of the handling alone. -/
theorem Alone.of_begun (other : c ≠ server) (begun : Begun server handle s tr c alone)
    (seen : ((machine (sockets Fd Addr E).toObjects (serving (listen server handle) session)).traced
      fun s l => l.on c (listen server handle) s).exec (.start .closed, []) tr = some (s, alone)) :
    Alone server handle session s tr c alone where
  toBegun := begun
  seen := seen
  runs := by
    have apart (f : Listen) (op : SocketOp) (k : Option (Answer Fd Addr E) → Listen) :
        (listen server handle f : Front Listen X Fd SocketOp (Answer Fd Addr E)) ≠ .call c op k := by
      cases f <;> simp [listen, Ne.symm other]
    obtain ⟨_, ran, rfl⟩ := (Machine.isolates (T := T) _ (listen server handle) session c apart).run
      rfl (.of_exec_any seen)
    exact ran

/-- How every connection of a server fares. -/
theorem Alone.of_exec
    (ran : (machine (sockets Fd Addr E).toObjects (serving (listen server handle) session)).exec
      (.start .closed) tr = some s)
    (boots : ∀ t q, .boot t q ∈ tr → q = .front .incoming) (one : tr.countP (·.isBoot) ≤ 1)
    (apart : server ∉ acceptedOn server tr) (other : c ≠ server) :
    Fronts server s tr ∧ ∃ alone, Alone server handle session s tr c alone := by
  suffices counted : Fronts server s tr ∧ ∃ alone,
      ((machine (sockets Fd Addr E).toObjects (serving (listen server handle) session)).traced
        fun s l => l.on c (listen server handle) s).exec (.start .closed, []) tr = some (s, alone) ∧
      Begun server handle s tr c alone by
    obtain ⟨fronts, alone, seen, begun⟩ := counted
    exact ⟨fronts, alone, .of_begun other begun seen⟩
  refine Lts.exec_induction
    (I := fun s tr => (∀ t q, .boot t q ∈ tr → q = .front .incoming) → tr.countP (·.isBoot) ≤ 1 →
      server ∉ acceptedOn server tr → Fronts server s tr ∧ ∃ alone,
        ((machine (sockets Fd Addr E).toObjects (serving (listen server handle) session)).traced
          fun s l => l.on c (listen server handle) s).exec (.start .closed, []) tr = some (s, alone) ∧
        Begun server handle s tr c alone)
    ran ?_ ?_ boots one apart
  · intro _ _ _
    have not_pending (d : Fd) : ¬ Pending (.start .closed : Server T X Addr) d := by
      rintro ⟨t, at_t⟩
      cases at_t
    refine ⟨⟨fun _ _ => rfl, ?_, ?_, fun d pending => absurd pending (not_pending d), by simp⟩, [], rfl,
      by simp, .inr ⟨not_pending c, rfl⟩⟩
    · intro t u f g at_t
      cases at_t
    · intro t i y at_t
      cases at_t
  · intro m tr l t before ih taken boots one apart
    rw [acceptedOn_concat] at apart
    have one_before : tr.countP (·.isBoot) ≤ 1 := by
      rw [List.countP_append] at one
      omega
    obtain ⟨fronts, alone, seen, begun⟩ := ih (fun t q mem => boots t q (List.mem_append_left _ mem))
      one_before fun old => apart (List.mem_append_left _ old)
    have moves : Moves server handle m t c l :=
      moves_of_step (Machine.effect_iff_step.1 taken) (fun t q boot => boots t q (by simp [boot]))
        (fun t i y at_t => by
          rintro rfl
          exact apart (List.mem_append_left _ (fronts.sessions t i y at_t))) other
    refine ⟨fronts.step moves one, _, ?_, begun.step fronts other moves⟩
    have stepped : m.step (sockets Fd Addr E).toObjects (serving (listen server handle) session) l =
        some t := taken
    rw [Lts.exec_append, seen, Option.bind_some, Lts.exec_singleton]
    simp [Lts.traced, machine, stepped]

/-- While the acceptor is in `accept` what has come is accepted, in order, or in the backlog. -/
theorem cameTo_fifo
    (ran : (machine (sockets Fd Addr E).toObjects (serving (listen server handle) session)).exec
      (.start .closed) tr = some s) (fronts : Fronts server s tr) {t : T}
    (listens : s.task t = some (.front .incoming)) (kept : .change server .close ∉ tr) :
    acceptedOn server tr ++ (s.object server).backlog = cameTo server tr := by
  have stays_open : ∀ l ∈ tr, ends server l = false := by
    intro l mem
    by_contra ended
    rw [Bool.not_eq_false] at ended
    cases l with
    | done u i op r =>
        have dropped := (fronts.dropped _ mem ended).2 t _ listens
        cases dropped
    | change i v =>
        simp only [ends, Machine.ends, Bool.and_eq_true, decide_eq_true_eq] at ended
        obtain ⟨rfl, drop⟩ := ended
        cases v with
        | close => exact kept mem
        | _ => cases drop
    | _ => cases ended
  have fifo : acceptedBy server tr ++ (s.object server).backlog = connections server tr :=
    accepted_fifo ran
  unfold acceptedBy connections at fifo
  rwa [since_whole stays_open] at fifo

end Exec

variable [DecidableEq P]
  {s : Running P (Socket Fd Addr) SocketOp (Serving Listen X Fd) ×
    List (ServerLabel CoroutineRefMut X Addr E)}

/-- Over every run on the runtime, on any number of threads and with whatever the other
connections and their coroutines do, a connection fares as if it were the only one. -/
theorem connections_isolated
    (reached : ((running P (sockets Fd Addr E) (serving (listen server handle) session)).traced
      fun s act => act.event (serving (listen server handle) session) s).Reach Lts.anyStep
        (.init (sockets Fd Addr E), []) s)
    (boots : ∀ t q, .boot t q ∈ s.2 → q = .front .incoming) (one : s.2.countP (·.isBoot) ≤ 1)
    (apart : server ∉ acceptedOn server s.2) (other : c ≠ server) :
    ∃ alone, Alone server handle session s.1.shows s.2 c alone := by
  obtain ⟨_, ran, rfl, -⟩ := (refines_machine (sockets Fd Addr E) _).run ⟨rfl, .start, .init⟩ reached
  exact (Alone.of_exec ran boots one apart other).2

/-- Where the runtime idles and the server is still in `accept`, no connection waits to be
accepted, every one that has come is being handled or has been, and what handles it waits for
that connection alone. -/
theorem server_idle
    (reached : ((running P (sockets Fd Addr E) (serving (listen server handle) session)).traced
      fun s act => act.event (serving (listen server handle) session) s).Reach
        (fun s act => FindsVacant s.1 act) (.init (sockets Fd Addr E), []) s)
    (boots : ∀ t q, .boot t q ∈ s.2 → q = .front .incoming) (one : s.2.countP (·.isBoot) ≤ 1)
    (apart : server ∉ acceptedOn server s.2) (kept : .change server .close ∉ s.2) (other : c ≠ server)
    (idle : Idle s.1.calling.sys) (listens : ∃ t, s.1.task t = some (.front .incoming)) :
    (s.1.calling.socket server).pending = 0 ∧
    ∃ alone, Alone server handle session s.1.shows s.2 c alone ∧
      alone.countP (·.isBoot) = (cameTo server s.2).count c ∧
      ∀ t y, (s.1.shows.on c).task t = some y → ∃ op k, session y = .call ⟨⟩ op k ∧
        (s.1.calling.socket c).ready op.interest = false := by
  have runs := reached.mono fun _ _ _ => trivial
  obtain ⟨_, ran, rfl, -⟩ := (refines_machine (sockets Fd Addr E) _).run ⟨rfl, .start, .init⟩ runs
  obtain ⟨fronts, alone, fares⟩ := Alone.of_exec ran boots one apart other
  have stops {t : CoroutineRefMut} {q : Serving Listen X Fd} (at_t : s.1.task t = some q) :=
    stopped_in_call reached.untraced_meets idle at_t
  obtain ⟨t, at_t⟩ := listens
  obtain ⟨none_pending, none_left, -⟩ : (s.1.calling.socket server).pending = 0 ∧
      (s.1.calling.socket server).backlog = [] ∧ (s.1.calling.socket server).inbox = [] := by
    obtain ⟨x, k, -, next, unready, -⟩ := stops at_t
    obtain ⟨same_fd, same_op, -⟩ := Next.call.inj next
    rw [← same_fd, ← same_op] at unready
    exact Socket.unready unready
  have all : acceptedOn server s.2 = cameTo server s.2 := by
    have fifo := cameTo_fifo ran fronts at_t kept
    have none_left : (s.1.shows.object server).backlog = [] := none_left
    rwa [none_left, List.append_nil] at fifo
  have not_pending : ¬ Pending s.1.shows c := by
    rw [fronts.pending_iff (show s.1.shows.task t = some (.front .incoming) from at_t)]
    simp
  refine ⟨none_pending, alone, fares, ?_, ?_⟩
  · rw [← all]
    exact (fares.once.resolve_left fun both => not_pending both.1).2.symm
  · intro u y at_c
    obtain ⟨q, at_u, mine⟩ := Option.bind_eq_some_iff.mp at_c
    obtain ⟨x, k, -, next, unready, -⟩ := stops at_u
    cases q with
    | front f => cases mine
    | session i z =>
        simp only [Serving.on, Option.ite_none_right_eq_some, Option.some.injEq] at mine
        obtain ⟨rfl, rfl⟩ := mine
        obtain ⟨k', at_z, same, -⟩ := Next.within_call next
        rw [← same] at unready
        exact ⟨x.op, k', at_z, unready⟩

end Runs

/-- A handling that reads once and drops the stream. -/
def readOnce : Program Nat PUnit SocketOp (Answer Fd Nat Nat)
  | 0 => .call ⟨⟩ (.read 16) fun _ => 1
  | 1 => .call ⟨⟩ .close fun r => if r.isSome then 2 else 1
  | _ => .ret

abbrev oneReader : Program (Serving Listen Nat Fd) Fd SocketOp (Answer Fd Nat Nat) :=
  serving (listen 3 0) readOnce

/-- A byte of the first connection is read; the second gets its descriptor, and its read and
the next `accept` would block. -/
def acceptsTwo :
    List (RunAct Unit SocketOp (Answer Fd Nat Nat) (Change Fd Nat) (Serving Listen Nat Fd)) :=
  .flatten [
    [.change 3 .listen, .thread (.spawn ()), .boot () (.front .incoming), .thread (.enter ())],
    taus () 5,
    [.change 3 .arrive, .change 4 .stream, .change 4 (.data [7]), .change 3 (.connection 4), .next (),
      .attempt () (some (.accepted 4)), .next (), .spawned ()],
    taus () 4, [.next (), .attempt () (some (.read [7])), .next (), .attempt () (some .closed), .next ()],
    taus () 6, [.next (), .attempt () none, .waitEvent () 0, .register () true], taus () 5,
    [.change 3 .arrive, .change 4 .stream, .change 3 (.connection 4), .thread (.poll () [3])],
    taus () 7, [.attempt () (some (.accepted 4)), .next (), .spawned ()], taus () 4,
    [.next (), .attempt () none, .waitEvent () 0, .register () true], taus () 5,
    [.next (), .attempt () none, .waitEvent () 1, .register () true], taus () 5]

/-- At its end. -/
theorem accepts_two_ends : ∃ s,
    ((running Unit (sockets Fd Nat Nat) oneReader).traced fun s act => act.event oneReader s).exec
      (.init (sockets Fd Nat Nat), []) acceptsTwo = some s ∧
    (acceptedOn 3 s.2 = [4, 4] ∧ s.1.task 0 = some (.front .incoming) ∧
      s.1.task 2 = some (.session 4 0)) ∧
    ((∀ t q, .boot t q ∈ s.2 → q = .front .incoming) ∧ s.2.countP (·.isBoot) ≤ 1 ∧
      .change 3 .close ∉ s.2) ∧ Idle s.1.calling.sys := by
  have runs : (((running Unit (sockets Fd Nat Nat) oneReader).traced fun s act =>
      act.event oneReader s).exec (.init (sockets Fd Nat Nat), []) acceptsTwo).any
        (fun s => (acceptedOn 3 s.2 = [4, 4] ∧ s.1.task 0 = some (.front .incoming) ∧
            s.1.task 2 = some (.session 4 0)) ∧
          (s.2.filterMap (·.booted) = [.front .incoming] ∧ s.2.countP (·.isBoot) ≤ 1 ∧
            ∀ l ∈ s.2, kills l = false) ∧
          s.1.calling.sys.globalQueue.items = [] ∧
          ∀ p, (s.1.calling.sys.threads p).pc.hand = none ∧
            (s.1.calling.sys.threads p).newSpawned = none ∧
            (s.1.calling.sys.threads p).pc.batch = [] ∧
            ∀ e ∈ (s.1.calling.sys.threads p).slabs.entries.entries,
              (s.1.calling.sys.threads p).eventLoop.isPending e.2.2 = false) = true := by
    decide +kernel
  obtain ⟨s, run, ends⟩ := (Option.any_eq_true _ _).1 runs
  obtain ⟨accepted, ⟨boots, one, roomy⟩, queue, threads⟩ := of_decide_eq_true ends
  have reached : InPrograms _ _ s.1 := .of_reach (Lts.Reach.of_exec_any run).untraced
  refine ⟨s, run, accepted, ⟨fun t q mem => ?_, one, fun mem => ?_⟩,
    .of_entries (runtime_of_calls reached.reached) queue threads⟩
  · have booted : q ∈ s.2.filterMap (·.booted) := List.mem_filterMap.2 ⟨_, mem, rfl⟩
    rw [boots] at booted
    exact List.mem_singleton.1 booted
  · cases roomy _ mem

theorem accepts_two_isolated : ∃ s alone,
    ((running Unit (sockets Fd Nat Nat) oneReader).traced fun s act => act.event oneReader s).exec
      (.init (sockets Fd Nat Nat), []) acceptsTwo = some s ∧
    acceptedOn 3 s.2 = [4, 4] ∧ Alone 3 0 readOnce s.1.shows s.2 4 alone := by
  obtain ⟨s, run, ⟨accepted, -⟩, ⟨boots, one, -⟩, -⟩ := accepts_two_ends
  obtain ⟨alone, fares⟩ := connections_isolated (c := 4) (.of_exec_any run) boots one
    (by simp [accepted]) (by decide)
  exact ⟨s, alone, run, accepted, fares⟩

theorem accepts_two_idle : ∃ s,
    ((running Unit (sockets Fd Nat Nat) oneReader).traced fun s act => act.event oneReader s).exec
      (.init (sockets Fd Nat Nat), []) acceptsTwo = some s ∧ s.1.task 2 = some (.session 4 0) ∧
    (s.1.calling.socket 3).pending = 0 ∧
    ∃ alone, Alone 3 0 readOnce s.1.shows s.2 4 alone ∧
      alone.countP (·.isBoot) = (cameTo 3 s.2).count 4 ∧
      ∀ t y, (s.1.shows.on 4).task t = some y → ∃ op k, readOnce y = .call ⟨⟩ op k ∧
        (s.1.calling.socket 4).ready op.interest = false := by
  have meets : ((running Unit (sockets Fd Nat Nat) oneReader).traced fun s act =>
      act.event oneReader s).Meets (fun s act => FindsVacant s.1 act)
        (.init (sockets Fd Nat Nat), []) acceptsTwo := by
    decide +kernel
  obtain ⟨s, run, ⟨accepted, listens, reads⟩, ⟨boots, one, kept⟩, idle⟩ := accepts_two_ends
  exact ⟨s, run, reads, server_idle (c := 4) (.of_exec run meets) boots one (by simp [accepted]) kept
    (by decide) idle ⟨0, listens⟩⟩

end SimpleSched.Net
