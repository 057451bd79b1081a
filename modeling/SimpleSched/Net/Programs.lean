/-
# Net.Programs -- coroutines that run programs

`Running` gives every coroutine a program (`Theory.Programs`): what its closure does
next is a blocking call, `Scheduler::spawn`, `Scheduler::sched`, a return or a panic.
The threads run `schedule`, the programs run in the coroutines of `Runtime`, their calls
go through `Net.Blocking`; a failed `wait_event` is the failure of the call, and the
panic of one on a full slab ends the coroutine.

`programs_refine`: whatever the threads do, a run is one of `Theory.machine`.  The
scheduler is not seen: coroutines mean what threads with blocking calls mean, so what
holds of the program in every run of the machine holds of it on this runtime.
`programs_return`: when `Scheduler::run` returns every program is over.
-/
import SimpleSched.Net.Blocking
import SimpleSched.Theory.Programs

namespace SimpleSched.Net

set_option autoImplicit false

open Mio Theory
open SimpleSched.Runtime

variable {P K Op R V Q : Type}

/-- The calls, and where the program of each coroutine has got to. -/
structure Running (P K Op Q : Type) where
  calling : Calling P K Op
  task : CoroutineRefMut → Option Q

inductive RunAct (P Op R V Q : Type)
  /-- a step of a thread that no program chooses -/
  | thread (a : Act P)
  /-- the second half of a `Scheduler::spawn` outside the coroutines -/
  | boot (p : P) (q : Q)
  /-- the coroutine starts what its program does next -/
  | next (p : P)
  /-- the second half of its `Scheduler::spawn` -/
  | spawned (p : P)
  | attempt (p : P) (answer : Option R)
  | waitEvent (p : P) (token : Token)
  | register (p : P) (answer : Bool)
  | change (fd : Fd) (v : V)

namespace Running

def init (D : Sockets K Op R V) : Running P K Op Q := ⟨.init D, fun _ => none⟩

/-- What the program of a coroutine does next. -/
def doing (program : Program Q Fd Op R) (s : Running P K Op Q) (h : CoroutineRefMut) :
    Option (Next Q Fd Op R) :=
  (s.task h).map program

def setTask (s : Running P K Op Q) (h : CoroutineRefMut) (q : Option Q) : Running P K Op Q :=
  { s with task := Function.update s.task h q }

/-- `schedule` and what it calls, and the spawns of a thread outside it. -/
def ofThread (s : Running P K Op Q) : Act P → Bool
  | .spawn p => (s.calling.sys.threads p).pc = .user
  | .enter _ | .leave _ | .poll _ _ | .pollErr _ | .tau _ => true
  | _ => false

variable [DecidableEq P] (D : Sockets K Op R V) (program : Program Q Fd Op R)

/-- The calls take a step. -/
def calls (s : Running P K Op Q) (act : CallAct P Op R V) : Option (Running P K Op Q) :=
  (s.calling.step D act).map fun calling => { s with calling := calling }

/-- A coroutine that is in no call starts what its program does next. -/
def starts (s : Running P K Op Q) (p : P) (h : CoroutineRefMut) :
    Next Q Fd Op R → Option (Running P K Op Q)
  | .call fd op _ => s.calls D (.call p fd op)
  | .spawn _ _ => s.calls D (.runtime (.spawn p))
  | .sched rest => (s.calls D (.runtime (.sched p))).map (·.setTask h (some rest))
  | .ret => (s.calls D (.runtime (.ret p))).map (·.setTask h none)
  | .panic => (s.calls D (.runtime (.panic p))).map (·.setTask h none)

def step (s : Running P K Op Q) : RunAct P Op R V Q → Option (Running P K Op Q)
  | .thread a => if s.ofThread a then s.calls D (.runtime a) else none
  | .boot p q =>
    if (s.calling.sys.threads p).pc = .userSpawn then
      (s.calls D (.runtime (.spawnInner p))).map (·.setTask s.calling.sys.next (some q))
    else none
  | .next p =>
    match (s.calling.sys.threads p).pc with
    | .exec h .user =>
      if (s.calling.calls h).isNone then (s.doing program h).bind (s.starts D p h) else none
    | _ => none
  | .spawned p =>
    match (s.calling.sys.threads p).pc with
    | .exec h .spawnOpts =>
      match s.doing program h with
      | some (.spawn child rest) => (s.calls D (.runtime (.spawnInner p))).map fun t =>
          (t.setTask s.calling.sys.next (some child)).setTask h (some rest)
      | _ => none
    | _ => none
  | .attempt p answer =>
    match (s.calling.sys.threads p).pc with
    | .exec h .user =>
      match s.doing program h, answer with
      | some (.call _ _ _), none => s.calls D (.attempt p none)
      | some (.call _ _ k), some r =>
          (s.calls D (.attempt p (some r))).map (·.setTask h (some (k (some r))))
      | _, _ => none
    | _ => none
  | .waitEvent p token =>
    match (s.calling.sys.threads p).pc with
    | .exec h .user =>
      if (s.calling.sys.threads p).slabs.count = MAX_TOKEN_NUM then
        (s.calls D (.waitEvent p token)).map (·.setTask h none)
      else s.calls D (.waitEvent p token)
    | _ => none
  | .register p answer =>
    match (s.calling.sys.threads p).pc with
    | .exec h (.inserted _ _ _) =>
      match s.doing program h, answer with
      | some (.call _ _ _), true => s.calls D (.register p true)
      | some (.call _ _ k), false =>
          (s.calls D (.register p false)).map (·.setTask h (some (k none)))
      | _, _ => none
    | _ => none
  | .change fd v => s.calls D (.change fd v)

end Running

def running (P : Type) [DecidableEq P] (D : Sockets K Op R V) (program : Program Q Fd Op R) :
    Lts (Running P K Op Q) (RunAct P Op R V Q) := ⟨Running.step D program⟩

/-! ## What a step is -/

section Effect

variable [DecidableEq P]

/-- Every step, with the step of the calls it makes. -/
inductive RunEffect (D : Sockets K Op R V) (program : Program Q Fd Op R) (s : Running P K Op Q) :
    RunAct P Op R V Q → Running P K Op Q → Prop
  | thread {a c} : s.ofThread a = true → s.calling.step D (.runtime a) = some c →
      RunEffect D program s (.thread a) ⟨c, s.task⟩
  | boot {p q c} : (s.calling.sys.threads p).pc = .userSpawn →
      s.calling.step D (.runtime (.spawnInner p)) = some c →
      RunEffect D program s (.boot p q) ⟨c, Function.update s.task s.calling.sys.next (some q)⟩
  | call {p h q fd op k c} : (s.calling.sys.threads p).pc = .exec h .user → s.calling.calls h = none →
      s.task h = some q → program q = .call fd op k → s.calling.step D (.call p fd op) = some c →
      RunEffect D program s (.next p) ⟨c, s.task⟩
  | spawns {p h q child rest c} : (s.calling.sys.threads p).pc = .exec h .user →
      s.calling.calls h = none → s.task h = some q → program q = .spawn child rest →
      s.calling.step D (.runtime (.spawn p)) = some c → RunEffect D program s (.next p) ⟨c, s.task⟩
  | sched {p h q rest c} : (s.calling.sys.threads p).pc = .exec h .user → s.calling.calls h = none →
      s.task h = some q → program q = .sched rest → s.calling.step D (.runtime (.sched p)) = some c →
      RunEffect D program s (.next p) ⟨c, Function.update s.task h (some rest)⟩
  | ended {p h q a c} : (s.calling.sys.threads p).pc = .exec h .user → s.calling.calls h = none →
      s.task h = some q → program q = .ret ∧ a = .ret p ∨ program q = .panic ∧ a = .panic p →
      s.calling.step D (.runtime a) = some c →
      RunEffect D program s (.next p) ⟨c, Function.update s.task h none⟩
  | spawned {p h q child rest c} : (s.calling.sys.threads p).pc = .exec h .spawnOpts →
      s.task h = some q → program q = .spawn child rest →
      s.calling.step D (.runtime (.spawnInner p)) = some c →
      RunEffect D program s (.spawned p)
        ⟨c, Function.update (Function.update s.task s.calling.sys.next (some child)) h (some rest)⟩
  | blocked {p h q fd op k c} : (s.calling.sys.threads p).pc = .exec h .user → s.task h = some q →
      program q = .call fd op k → s.calling.step D (.attempt p none) = some c →
      RunEffect D program s (.attempt p none) ⟨c, s.task⟩
  | done {p h q fd op k r c} : (s.calling.sys.threads p).pc = .exec h .user → s.task h = some q →
      program q = .call fd op k → s.calling.step D (.attempt p (some r)) = some c →
      RunEffect D program s (.attempt p (some r))
        ⟨c, Function.update s.task h (some (k (some r)))⟩
  | waits {p h token c} : (s.calling.sys.threads p).pc = .exec h .user →
      (s.calling.sys.threads p).slabs.count ≠ MAX_TOKEN_NUM →
      s.calling.step D (.waitEvent p token) = some c →
      RunEffect D program s (.waitEvent p token) ⟨c, s.task⟩
  | killed {p h token c} : (s.calling.sys.threads p).pc = .exec h .user →
      (s.calling.sys.threads p).slabs.count = MAX_TOKEN_NUM →
      s.calling.step D (.waitEvent p token) = some c →
      RunEffect D program s (.waitEvent p token) ⟨c, Function.update s.task h none⟩
  | registered {p h token f i c} : (s.calling.sys.threads p).pc = .exec h (.inserted token f i) →
      s.calling.step D (.register p true) = some c →
      RunEffect D program s (.register p true) ⟨c, s.task⟩
  | failed {p h token f i q fd op k c} :
      (s.calling.sys.threads p).pc = .exec h (.inserted token f i) → s.task h = some q →
      program q = .call fd op k → s.calling.step D (.register p false) = some c →
      RunEffect D program s (.register p false) ⟨c, Function.update s.task h (some (k none))⟩
  | change {fd v c} : s.calling.step D (.change fd v) = some c →
      RunEffect D program s (.change fd v) ⟨c, s.task⟩

variable {D : Sockets K Op R V} {program : Program Q Fd Op R} {s s' : Running P K Op Q}
  {act : RunAct P Op R V Q}

theorem calls_some {c : CallAct P Op R V} (taken : s.calls D c = some s') :
    ∃ calling, s.calling.step D c = some calling ∧ s' = ⟨calling, s.task⟩ := by
  obtain ⟨calling, stepped, rfl⟩ := Option.map_eq_some_iff.mp taken
  exact ⟨calling, stepped, rfl⟩

theorem calls_map_some {c : CallAct P Op R V} {f : Running P K Op Q → Running P K Op Q}
    (taken : (s.calls D c).map f = some s') :
    ∃ calling, s.calling.step D c = some calling ∧ s' = f ⟨calling, s.task⟩ := by
  obtain ⟨t, called, rfl⟩ := Option.map_eq_some_iff.mp taken
  obtain ⟨calling, stepped, rfl⟩ := calls_some called
  exact ⟨calling, stepped, rfl⟩

theorem effect_of_starts {p : P} {h : CoroutineRefMut} {q : Q}
    (at_pc : (s.calling.sys.threads p).pc = .exec h .user) (outside : s.calling.calls h = none)
    (at_h : s.task h = some q) (taken : s.starts D p h (program q) = some s') :
    RunEffect D program s (.next p) s' := by
  cases next : program q with
  | call fd op k =>
      rw [next] at taken
      obtain ⟨c, stepped, rfl⟩ := calls_some taken
      exact .call at_pc outside at_h next stepped
  | spawn child rest =>
      rw [next] at taken
      obtain ⟨c, stepped, rfl⟩ := calls_some taken
      exact .spawns at_pc outside at_h next stepped
  | sched rest =>
      rw [next] at taken
      obtain ⟨c, stepped, rfl⟩ := calls_map_some taken
      exact .sched at_pc outside at_h next stepped
  | ret =>
      rw [next] at taken
      obtain ⟨c, stepped, rfl⟩ := calls_map_some taken
      exact .ended at_pc outside at_h (.inl ⟨next, rfl⟩) stepped
  | panic =>
      rw [next] at taken
      obtain ⟨c, stepped, rfl⟩ := calls_map_some taken
      exact .ended at_pc outside at_h (.inr ⟨next, rfl⟩) stepped

theorem runEffect_of_step (taken : s.step D program act = some s') : RunEffect D program s act s' := by
  cases act with
  | thread a =>
      simp only [Running.step, Option.ite_none_right_eq_some] at taken
      obtain ⟨c, stepped, rfl⟩ := calls_some taken.2
      exact .thread taken.1 stepped
  | boot p q =>
      simp only [Running.step, Option.ite_none_right_eq_some] at taken
      obtain ⟨c, stepped, rfl⟩ := calls_map_some taken.2
      exact .boot taken.1 stepped
  | next p =>
      simp only [Running.step] at taken
      split at taken
      · rename_i h at_pc
        simp only [Option.ite_none_right_eq_some, Option.isNone_iff_eq_none] at taken
        obtain ⟨outside, bound⟩ := taken
        obtain ⟨n, doing, started⟩ := Option.bind_eq_some_iff.mp bound
        obtain ⟨q, at_h, rfl⟩ := Option.map_eq_some_iff.mp doing
        exact effect_of_starts at_pc outside at_h started
      · cases taken
  | spawned p =>
      simp only [Running.step] at taken
      split at taken
      · rename_i h at_pc
        split at taken
        · rename_i child rest doing
          obtain ⟨q, at_h, next⟩ := Option.map_eq_some_iff.mp doing
          obtain ⟨c, stepped, rfl⟩ := calls_map_some taken
          exact .spawned at_pc at_h next stepped
        · cases taken
      · cases taken
  | attempt p answer =>
      simp only [Running.step] at taken
      split at taken
      · rename_i h at_pc
        split at taken
        · rename_i doing
          obtain ⟨q, at_h, next⟩ := Option.map_eq_some_iff.mp doing
          obtain ⟨c, stepped, rfl⟩ := calls_some taken
          exact .blocked at_pc at_h next stepped
        · rename_i doing
          obtain ⟨q, at_h, next⟩ := Option.map_eq_some_iff.mp doing
          obtain ⟨c, stepped, rfl⟩ := calls_map_some taken
          exact .done at_pc at_h next stepped
        · cases taken
      · cases taken
  | waitEvent p token =>
      simp only [Running.step] at taken
      split at taken
      · rename_i h at_pc
        split at taken
        · rename_i full
          obtain ⟨c, stepped, rfl⟩ := calls_map_some taken
          exact .killed at_pc full stepped
        · rename_i room
          obtain ⟨c, stepped, rfl⟩ := calls_some taken
          exact .waits at_pc room stepped
      · cases taken
  | register p answer =>
      simp only [Running.step] at taken
      split at taken
      · rename_i h token f i at_pc
        split at taken
        · obtain ⟨c, stepped, rfl⟩ := calls_some taken
          exact .registered at_pc stepped
        · rename_i doing
          obtain ⟨q, at_h, next⟩ := Option.map_eq_some_iff.mp doing
          obtain ⟨c, stepped, rfl⟩ := calls_map_some taken
          exact .failed at_pc at_h next stepped
        · cases taken
      · cases taken
  | change fd v =>
      obtain ⟨c, stepped, rfl⟩ := calls_some taken
      exact .change stepped

end Effect

/-! ## A run is one of the machine -/

/-- The sockets, and where each program has got to. -/
def Running.shows (s : Running P K Op Q) : Machine K Fd CoroutineRefMut Q :=
  ⟨s.calling.socket, s.task⟩

/-- What is seen of a step. -/
def RunAct.event (program : Program Q Fd Op R) (s : Running P K Op Q) :
    RunAct P Op R V Q → Option (Machine.Label Op R V Fd CoroutineRefMut Q)
  | .boot _ q => some (.boot s.calling.sys.next q)
  | .next p => (s.calling.sys.threads p).pc.hand.bind fun h =>
      match s.doing program h with
      | some (.sched _) => some (.sched h)
      | some .ret => some (.returned h)
      | some .panic => some (.panicked h)
      | _ => none
  | .spawned p => (s.calling.sys.threads p).pc.hand.map fun h => .spawn h s.calling.sys.next
  | .attempt p (some r) => (s.calling.sys.threads p).pc.hand.bind fun h =>
      (s.calling.calls h).map fun c => .done h c.fd c.op r
  | .waitEvent p _ =>
      if (s.calling.sys.threads p).slabs.count = MAX_TOKEN_NUM then
        (s.calling.sys.threads p).pc.hand.map .killed
      else none
  | .register p answer => if answer then none else (s.calling.sys.threads p).pc.hand.map .failed
  | .change fd v => some (.change fd v)
  | _ => none

/-- A call in progress is what the program of its coroutine does next, and coroutines that
are not there yet have no program. -/
structure Linked (program : Program Q Fd Op R) (s : Running P K Op Q) : Prop where
  calls : ∀ h c, s.calling.calls h = some c →
    ∃ q k, s.task h = some q ∧ program q = .call c.fd c.op k
  fresh : ∀ h, s.calling.sys.next ≤ h → s.task h = none

section Refines

variable [DecidableEq P] {D : Sockets K Op R V} {program : Program Q Fd Op R}
  {s s' : Running P K Op Q} {act : RunAct P Op R V Q} {c c' : Calling P K Op} {h : CoroutineRefMut}

/-- The steps that box a coroutine. -/
def CallAct.boxes : CallAct P Op R V → Bool
  | .runtime a => a.boxes
  | _ => false

/-- What any run of the calls does to the runtime is a run of it. -/
theorem runtime_of_calls {ok : Calling P K Op → CallAct P Op R V → Prop}
    (reached : (calling P D).Reach ok (.init D) c) : (system P).Reach Lts.anyStep .init c.sys :=
  runtime_reach (fun _ _ _ => trivial) (fun _ _ _ _ _ => trivial) (fun _ _ _ => trivial)
    (fun _ _ _ _ => trivial) reached

theorem calling_next (reached : (calling P D).Reach Lts.anyStep (.init D) c) {a : CallAct P Op R V}
    (taken : c.step D a = some c') :
    c'.sys.next = if a.boxes then c.sys.next + 1 else c.sys.next := by
  have runs : (system P).Reach Lts.anyStep .init c.sys :=
    runtime_of_calls reached
  cases callEffect_of_step taken with
  | runtime _ stepped => exact next_of_step runs stepped
  | call | blocked | done | change => rfl
  | waits _ _ _ stepped | full _ _ _ stepped | registered _ _ stepped | refused _ _ stepped =>
      exact next_of_step runs stepped

/-- Only an attempt that is done, and the network, change a socket. -/
theorem socket_same {a : CallAct P Op R V} (taken : c.step D a = some c')
    (done : ∀ p r, a ≠ .attempt p (some r)) (changes : ∀ fd v, a ≠ .change fd v) :
    c'.socket = c.socket := by
  cases callEffect_of_step taken with
  | done => exact absurd rfl (done _ _)
  | change => exact absurd rfl (changes _ _)
  | _ => rfl

/-- The steps of the calls that can be in a step of the programs: a coroutine waits in its
calls only. -/
def RunAct.Allows (s : Running P K Op Q) (act : RunAct P Op R V Q) : CallAct P Op R V → Prop
  | .runtime (.spawn p) => act = .thread (.spawn p) ∨ ∃ h, (s.calling.sys.threads p).pc = .exec h .user
  | .runtime (.spawnInner p) => (∃ q, act = .boot p q) ∨ act = .spawned p
  | .runtime (.enter p) => act = .thread (.enter p)
  | .runtime (.leave p) => act = .thread (.leave p)
  | .runtime (.poll p fds) => act = .thread (.poll p fds)
  | .runtime (.pollErr p) => act = .thread (.pollErr p)
  | .runtime (.tau p) => act = .thread (.tau p)
  | .runtime (.processorSpawn _) | .runtime (.block _) | .runtime (.waitEvent _ _ _ _)
  | .runtime (.register _ _) | .runtime (.setHolds _ _ _) => False
  | _ => True

theorem RunEffect.calling_step (effect : RunEffect D program s act s') :
    ∃ a, s.calling.step D a = some s'.calling ∧ act.Allows s a := by
  cases effect with
  | @thread a _ permitted stepped =>
      refine ⟨_, stepped, ?_⟩
      cases a with
      | spawn => exact .inl rfl
      | enter | leave | poll | pollErr | tau => exact rfl
      | _ => cases permitted
  | boot _ stepped => exact ⟨_, stepped, .inl ⟨_, rfl⟩⟩
  | spawned _ _ _ stepped => exact ⟨_, stepped, .inr rfl⟩
  | spawns at_pc _ _ _ stepped => exact ⟨_, stepped, .inr ⟨_, at_pc⟩⟩
  | ended _ _ _ ends stepped =>
      refine ⟨_, stepped, ?_⟩
      rcases ends with ⟨-, rfl⟩ | ⟨-, rfl⟩ <;> trivial
  | call _ _ _ _ stepped | sched _ _ _ _ stepped
  | blocked _ _ _ stepped | done _ _ _ stepped | waits _ _ stepped | killed _ _ stepped
  | registered _ stepped | failed _ _ _ stepped | change stepped => exact ⟨_, stepped, trivial⟩

/-- A call in progress was so before the step, or the step makes it. -/
theorem calls_of_step {a : CallAct P Op R V} (taken : c.step D a = some c') {x' : Call Op}
    (inside : c'.calls h = some x') :
    (∃ x, c.calls h = some x ∧ x.fd = x'.fd ∧ x.op = x'.op) ∨
      ∃ p, a = .call p x'.fd x'.op ∧ (c.sys.threads p).pc = .exec h .user := by
  have goes (c₀ : Calling P K Op) {g : CoroutineRefMut} {x : Option (Call Op)}
      (same : c₀.calls = c.calls) (inside : (c₀.setCall g x).calls h = some x')
      (before : ∀ y, x = some y → ∃ z, c.calls g = some z ∧ z.fd = y.fd ∧ z.op = y.op) :
      ∃ x, c.calls h = some x ∧ x.fd = x'.fd ∧ x.op = x'.op := by
    by_cases mine : h = g
    · subst mine
      exact before x' (by simpa [Calling.setCall] using inside)
    · exact ⟨x', by simpa [Calling.setCall, Function.update_of_ne mine, same] using inside, rfl, rfl⟩
  cases callEffect_of_step taken with
  | runtime | registered | change => exact .inl ⟨x', inside, rfl, rfl⟩
  | @call p g fd op at_pc outside =>
      by_cases mine : h = g
      · subst mine
        obtain rfl : ⟨fd, op, .first⟩ = x' := by simpa [Calling.setCall] using inside
        exact .inr ⟨p, rfl, at_pc⟩
      · exact .inl ⟨x', by simpa [Calling.setCall, Function.update_of_ne mine] using inside, rfl, rfl⟩
  | blocked _ before =>
      exact .inl (goes _ rfl inside fun y same => ⟨_, before, by cases same; exact ⟨rfl, rfl⟩⟩)
  | waits _ before =>
      exact .inl (goes _ rfl inside fun y same => ⟨_, before, by cases same; exact ⟨rfl, rfl⟩⟩)
  | done => exact .inl (goes c rfl inside (by simp))
  | full | refused => exact .inl (goes _ rfl inside (by simp))

/-- What ends a call. -/
def CallAct.hangsUp (c : Calling P K Op) (p : P) : CallAct P Op R V → Prop
  | .attempt q (some _) => q = p
  | .waitEvent q _ => q = p ∧ (c.sys.threads p).slabs.count = MAX_TOKEN_NUM
  | .register q false => q = p
  | _ => False

theorem hung_up {p : P} {a : CallAct P Op R V} (taken : c.step D a = some c') {pt : Point}
    (at_pc : (c.sys.threads p).pc = .exec h pt) (hangs : a.hangsUp c p) : c'.calls h = none := by
  have mine {q : P} {g : CoroutineRefMut} {pt' : Point} (same : q = p)
      (at_q : (c.sys.threads q).pc = .exec g pt') : g = h := by
    subst same
    rw [at_pc, Pc.exec.injEq] at at_q
    exact at_q.1.symm
  cases callEffect_of_step taken with
  | runtime | call | blocked | registered | change => cases hangs
  | done at_q =>
      obtain rfl := mine hangs at_q
      exact Function.update_self ..
  | waits at_q _ room =>
      obtain ⟨rfl, full⟩ := hangs
      exact absurd full room
  | full at_q =>
      obtain rfl := mine hangs.1 at_q
      exact Function.update_self ..
  | refused at_q =>
      obtain rfl := mine hangs at_q
      exact Function.update_self ..

namespace Linked

omit [DecidableEq P] in
/-- A coroutine with a program has been boxed. -/
theorem born (linked : Linked program s) {q : Q} (at_h : s.task h = some q) :
    h < s.calling.sys.next := by
  by_contra young
  rw [linked.fresh h (Nat.le_of_not_lt young)] at at_h
  cases at_h

omit [DecidableEq P] in
/-- A coroutine that is yet to be boxed is in no call. -/
theorem uncalled (linked : Linked program s) : s.calling.calls s.calling.sys.next = none := by
  cases inside : s.calling.calls s.calling.sys.next with
  | none => rfl
  | some x =>
      obtain ⟨q, k, at_next, -⟩ := linked.calls _ x inside
      exact absurd (linked.born at_next) (Nat.lt_irrefl _)

/-- The program of one coroutine goes on where it is in no call. -/
theorem update (linked : Linked program s) {task : CoroutineRefMut → Option Q} {a : CallAct P Op R V}
    (stepped : s.calling.step D a = some c) (starts : ∀ p fd op, a ≠ .call p fd op)
    (same : ∀ g x, s.calling.calls g = some x → c.calls g ≠ none → task g = s.task g) :
    ∀ g x, c.calls g = some x → ∃ q k, task g = some q ∧ program q = .call x.fd x.op k := by
  intro g x inside
  rcases calls_of_step stepped inside with ⟨x', before, fd, op⟩ | ⟨p, call, -⟩
  · rw [same g x' before (by simp [inside]), ← fd, ← op]
    exact linked.calls g x' before
  · exact absurd call (starts _ _ _)

theorem fresh_step (linked : Linked program s)
    (reached : (calling P D).Reach Lts.anyStep (.init D) s.calling)
    (effect : RunEffect D program s act s') :
    ∀ g, s'.calling.sys.next ≤ g → s'.task g = none := by
  intro g young
  have grows : s.calling.sys.next ≤ s'.calling.sys.next := by
    obtain ⟨a, stepped, -⟩ := effect.calling_step
    rw [calling_next reached stepped]
    split
    · exact Nat.le_succ _
    · exact Nat.le_refl _
  have absent : s.task g = none := linked.fresh g (Nat.le_trans grows young)
  have older {h : CoroutineRefMut} {q : Q} (at_h : s.task h = some q) : g ≠ h := by
    rintro rfl
    rw [absent] at at_h
    cases at_h
  have boxed {p : P} {c : Calling P K Op}
      (stepped : s.calling.step D (.runtime (.spawnInner p)) = some c)
      (young : c.sys.next ≤ g) : g ≠ s.calling.sys.next := by
    rintro rfl
    rw [calling_next reached stepped] at young
    exact absurd young (Nat.not_succ_le_self _)
  cases effect with
  | thread | call | spawns | blocked | waits | registered | change => exact absent
  | boot _ stepped => exact (Function.update_of_ne (boxed stepped young) ..).trans absent
  | sched _ _ at_h | ended _ _ at_h | done _ at_h | failed _ at_h =>
      exact (Function.update_of_ne (older at_h) ..).trans absent
  | spawned _ at_h _ stepped =>
      exact (Function.update_of_ne (older at_h) ..).trans
        ((Function.update_of_ne (boxed stepped young) ..).trans absent)
  | @killed p h =>
      by_cases mine : g = h
      · subst mine
        exact Function.update_self ..
      · exact (Function.update_of_ne mine ..).trans absent

/-- The links are kept, whatever the threads do. -/
theorem step (linked : Linked program s)
    (reached : (calling P D).Reach Lts.anyStep (.init D) s.calling)
    (effect : RunEffect D program s act s') : Linked program s' := by
  refine ⟨?_, linked.fresh_step reached effect⟩
  have apart {h : CoroutineRefMut} {task : CoroutineRefMut → Option Q} {q : Option Q}
      (outside : s.calling.calls h = none ∨ s'.calling.calls h = none) :
      ∀ g x, s.calling.calls g = some x → s'.calling.calls g ≠ none →
        Function.update task h q g = task g := by
    intro g x inside still
    refine Function.update_of_ne ?_ ..
    rintro rfl
    rcases outside with outside | outside
    · simp [inside] at outside
    · exact still outside
  cases effect with
  | thread _ stepped => exact linked.update stepped (by simp) fun _ _ _ _ => rfl
  | boot _ stepped => exact linked.update stepped (by simp) (apart (.inl linked.uncalled))
  | @call p h q fd op k c at_pc outside at_h next stepped =>
      intro g x inside
      rcases calls_of_step stepped inside with ⟨x', before, same_fd, same_op⟩ | ⟨p', call, at_pc'⟩
      · rw [← same_fd, ← same_op]
        exact linked.calls g x' before
      · cases call
        rw [at_pc, Pc.exec.injEq] at at_pc'
        obtain ⟨rfl, -⟩ := at_pc'
        exact ⟨q, k, at_h, next⟩
  | spawns _ _ _ _ stepped => exact linked.update stepped (by simp) fun _ _ _ _ => rfl
  | sched _ outside _ _ stepped => exact linked.update stepped (by simp) (apart (.inl outside))
  | ended _ outside _ _ stepped => exact linked.update stepped (by simp) (apart (.inl outside))
  | @spawned p h q child rest c at_pc at_h next stepped =>
      have outside : s.calling.calls h = none := by
        cases inside : s.calling.calls h with
        | none => rfl
        | some x =>
            obtain ⟨q', k, at_h', call⟩ := linked.calls h x inside
            obtain rfl := Option.some.inj (at_h.symm.trans at_h')
            simp [next] at call
      refine linked.update stepped (by simp) fun g x inside still => ?_
      exact (apart (.inl outside) g x inside still).trans
        (apart (.inl linked.uncalled) g x inside still)
  | blocked _ _ _ stepped => exact linked.update stepped (by simp) fun _ _ _ _ => rfl
  | done at_pc _ _ stepped =>
      exact linked.update stepped (by simp) (apart (.inr (hung_up stepped at_pc rfl)))
  | waits _ _ stepped => exact linked.update stepped (by simp) fun _ _ _ _ => rfl
  | killed at_pc full stepped =>
      exact linked.update stepped (by simp) (apart (.inr (hung_up stepped at_pc ⟨rfl, full⟩)))
  | registered _ stepped => exact linked.update stepped (by simp) fun _ _ _ _ => rfl
  | failed at_pc _ _ stepped =>
      exact linked.update stepped (by simp) (apart (.inr (hung_up stepped at_pc rfl)))
  | change stepped => exact linked.update stepped (by simp) fun _ _ _ _ => rfl

end Linked

/-- The programs and the sockets see of a step what the machine does. -/
theorem RunEffect.seen [DecidableEq Op] (linked : Linked program s)
    (effect : RunEffect D program s act s') :
    (machine D.toObjects program).exec s.shows (act.event program s).toList = some s'.shows := by
  have silent {c : Calling P K Op} (emits : act.event program s = none)
      (same : c.socket = s.calling.socket) :
      (machine D.toObjects program).exec s.shows (act.event program s).toList =
        some (Running.shows ⟨c, s.task⟩) := by
    rw [emits]
    exact congrArg some (Machine.ext same.symm rfl)
  have does {l : Machine.Label Op R V Fd CoroutineRefMut Q} {c : Calling P K Op}
      {task : CoroutineRefMut → Option Q} (emits : act.event program s = some l)
      (same : c.socket = s.calling.socket)
      (effect : Machine.Effect D.toObjects program s.shows l ⟨s.calling.socket, task⟩) :
      (machine D.toObjects program).exec s.shows (act.event program s).toList =
        some (Running.shows ⟨c, task⟩) := by
    rw [emits, Option.toList_some, Lts.exec_singleton]
    refine (Machine.effect_iff_step.2 effect).trans ?_
    exact congrArg some (Machine.ext same.symm rfl)
  have absent : s.shows.task s.calling.sys.next = none := linked.fresh _ (Nat.le_refl _)
  cases effect with
  | thread _ stepped => exact silent rfl (socket_same stepped (by simp) (by simp))
  | boot _ stepped => exact does rfl (socket_same stepped (by simp) (by simp)) (.boot absent)
  | call at_pc _ at_h next stepped | spawns at_pc _ at_h next stepped =>
      exact silent (by simp [RunAct.event, at_pc, Pc.hand, Running.doing, at_h, next])
        (socket_same stepped (by simp) (by simp))
  | sched at_pc _ at_h next stepped =>
      exact does (by simp [RunAct.event, at_pc, Pc.hand, Running.doing, at_h, next])
        (socket_same stepped (by simp) (by simp)) (.sched at_h next)
  | ended at_pc _ at_h ends stepped =>
      rcases ends with ⟨next, rfl⟩ | ⟨next, rfl⟩
      · exact does (by simp [RunAct.event, at_pc, Pc.hand, Running.doing, at_h, next])
          (socket_same stepped (by simp) (by simp)) (.returned at_h next)
      · exact does (by simp [RunAct.event, at_pc, Pc.hand, Running.doing, at_h, next])
          (socket_same stepped (by simp) (by simp)) (.panicked at_h next)
  | spawned at_pc at_h next stepped =>
      exact does (by simp [RunAct.event, at_pc, Pc.hand])
        (socket_same stepped (by simp) (by simp)) (.spawn at_h next absent)
  | blocked _ _ _ stepped => exact silent rfl (socket_same stepped (by simp) (by simp))
  | @done p h q fd op k r c at_pc at_h next stepped =>
      cases callEffect_of_step stepped with
      | @done _ h' fd' op' stage _ x at_pc' inside done =>
          obtain ⟨rfl, -⟩ : h = h' ∧ _ := Pc.exec.inj (at_pc.symm.trans at_pc')
          -- the call in progress is the one the program is at
          obtain ⟨q', k', at_h', call⟩ := linked.calls h _ inside
          obtain rfl : q = q' := Option.some.inj (at_h.symm.trans at_h')
          obtain ⟨rfl, rfl, -⟩ : fd = fd' ∧ op = op' ∧ _ := Next.call.inj (next.symm.trans call)
          have emits : (RunAct.attempt p (some r) : RunAct P Op R V Q).event program s =
              some (.done h fd op r) := by
            simp [RunAct.event, at_pc, Pc.hand, inside]
          have object : D.done (s.shows.object fd) op r = some x := done
          rw [emits, Option.toList_some, Lts.exec_singleton]
          refine (Machine.effect_iff_step.2 (.done at_h next object)).trans ?_
          rfl
  | waits _ room stepped =>
      exact silent (by simp [RunAct.event, room]) (socket_same stepped (by simp) (by simp))
  | @killed p h token c at_pc full stepped =>
      have emits : (RunAct.waitEvent p token : RunAct P Op R V Q).event program s =
          some (.killed h) := by
        simp [RunAct.event, full, at_pc, Pc.hand]
      cases callEffect_of_step stepped with
      | waits _ _ room => exact absurd full room
      | full at_pc' inside =>
          obtain ⟨rfl, -⟩ : h = _ ∧ _ := Pc.exec.inj (at_pc.symm.trans at_pc')
          obtain ⟨q, k, at_h, next⟩ := linked.calls h _ inside
          exact does emits rfl (.killed at_h next)
  | registered _ stepped => exact silent rfl (socket_same stepped (by simp) (by simp))
  | failed at_pc at_h next stepped =>
      exact does (by simp [RunAct.event, at_pc, Pc.hand])
        (socket_same stepped (by simp) (by simp)) (.failed at_h next)
  | @change fd v c stepped =>
      cases callEffect_of_step stepped with
      | @change _ _ x changes =>
          have object : D.change (s.shows.object fd) v = some x := changes
          have effect : Machine.Effect D.toObjects program s.shows (.change fd v) _ := .change object
          show (machine D.toObjects program).exec s.shows [.change fd v] = _
          rw [Lts.exec_singleton]
          exact Machine.effect_iff_step.2 effect

/-- The runs of the programs on the runtime are runs of the machine. -/
def refines_machine [DecidableEq Op] (D : Sockets K Op R V) (program : Program Q Fd Op R) :
    Simulation (running P D program) (machine D.toObjects program) Lts.anyStep
      (fun s act => act.event program s) where
  Rel s t := t = s.shows ∧ (calling P D).Reach Lts.anyStep (.init D) s.calling ∧ Linked program s
  step related _ taken := by
    obtain ⟨rfl, reached, linked⟩ := related
    have effect := runEffect_of_step taken
    obtain ⟨a, stepped, -⟩ := effect.calling_step
    exact ⟨_, effect.seen linked, rfl, .step reached trivial stepped, linked.step reached effect⟩

/-! ## The tasks are the coroutines that have not ended -/

/-- The closure `p` executes ends in the step. -/
def CallAct.EndsOn (c : Calling P K Op) (p : P) : CallAct P Op R V → Prop
  | .runtime a => a.EndsOn c.sys p
  | .waitEvent q _ => q = p ∧ (c.sys.threads p).slabs.count = MAX_TOKEN_NUM
  | _ => False

theorem unended_of_call (reached : (calling P D).Reach Lts.anyStep (.init D) c)
    {a : CallAct P Op R V} (taken : c.step D a = some c') :
    Unended c'.sys h ↔ (Unended c.sys h ∨ a.boxes = true ∧ h = c.sys.next) ∧
      ¬ ∃ p, (c.sys.threads p).pc = .exec h .user ∧ a.EndsOn c p := by
  have runs : (system P).Reach Lts.anyStep .init c.sys :=
    runtime_of_calls reached
  cases callEffect_of_step taken with
  | runtime _ stepped => exact unended_of_step runs stepped
  | call | blocked | done | change =>
      show Unended c.sys h ↔ _
      simp [CallAct.boxes, CallAct.EndsOn]
  | waits _ _ _ stepped | full _ _ _ stepped | registered _ _ stepped | refused _ _ stepped =>
      exact unended_of_step runs stepped

/-- A coroutine has a program from the step that boxes it until its closure ends. -/
def Inhabited (s : Running P K Op Q) : Prop :=
  ∀ h, (s.task h).isSome = true ↔ Unended s.calling.sys h

omit [DecidableEq P] in
theorem isSome_update {task : CoroutineRefMut → Option Q} {g : CoroutineRefMut} {q : Option Q} :
    (Function.update task h q g).isSome = true ↔
      (task g).isSome = true ∧ g ≠ h ∨ g = h ∧ q.isSome = true := by
  by_cases mine : g = h
  · subst mine
    simp
  · simp [mine]

omit [DecidableEq P] in
/-- The steps of a thread that no program chooses box nothing and end nothing. -/
theorem ofThread_quiet {a : Act P} (permitted : s.ofThread a = true) :
    (CallAct.runtime a : CallAct P Op R V).boxes = false ∧
      ∀ p, ¬ (CallAct.runtime a : CallAct P Op R V).EndsOn s.calling p := by
  cases a <;> simp_all [Running.ofThread, CallAct.boxes, Act.boxes, CallAct.EndsOn, Act.EndsOn]

namespace Inhabited

/-- A step in which no closure ends. -/
theorem going (inhabited : Inhabited s) (reached : (calling P D).Reach Lts.anyStep (.init D) s.calling)
    {a : CallAct P Op R V} (stepped : s.calling.step D a = some c)
    (nobody : ∀ p, ¬ a.EndsOn s.calling p) (g : CoroutineRefMut) :
    Unended c.sys g ↔ (s.task g).isSome = true ∨ a.boxes = true ∧ g = s.calling.sys.next := by
  rw [unended_of_call reached stepped, inhabited g]
  exact and_iff_left fun ⟨p, _, ends⟩ => nobody p ends

/-- The step in which the closure of `h` ends. -/
theorem ending (inhabited : Inhabited s) (reached : (calling P D).Reach Lts.anyStep (.init D) s.calling)
    {a : CallAct P Op R V} (stepped : s.calling.step D a = some c) {p : P}
    (at_pc : (s.calling.sys.threads p).pc = .exec h .user) (boxes : a.boxes = false)
    (ends : ∀ q, a.EndsOn s.calling q ↔ q = p) (g : CoroutineRefMut) :
    Unended c.sys g ↔ (Function.update s.task h none g).isSome = true := by
  have mine : (∃ q, (s.calling.sys.threads q).pc = .exec g .user ∧ a.EndsOn s.calling q) ↔ g = h := by
    constructor
    · rintro ⟨q, at_q, hung⟩
      obtain rfl := (ends q).1 hung
      exact (Pc.exec.inj (at_q.symm.trans at_pc)).1
    · rintro rfl
      exact ⟨p, at_pc, (ends p).2 rfl⟩
  rw [unended_of_call reached stepped, isSome_update, inhabited g, mine]
  simp [boxes]

theorem step (inhabited : Inhabited s) (linked : Linked program s)
    (reached : (calling P D).Reach Lts.anyStep (.init D) s.calling)
    (effect : RunEffect D program s act s') : Inhabited s' := by
  intro g
  -- a program that goes on is still there
  have goes {task : CoroutineRefMut → Option Q} {h : CoroutineRefMut} {q q' : Q}
      (at_h : task h = some q) :
      (Function.update task h (some q') g).isSome = true ↔ (task g).isSome = true := by
    rw [isSome_update]
    by_cases mine : g = h
    · subst mine
      simp [at_h]
    · simp [mine]
  cases effect with
  | @thread a c permitted stepped =>
      have quiet : (CallAct.runtime a : CallAct P Op R V).boxes = false ∧ _ := ofThread_quiet permitted
      rw [inhabited.going reached stepped quiet.2]
      simp [quiet.1]
  | boot _ stepped =>
      rw [inhabited.going reached stepped (by simp [CallAct.EndsOn, Act.EndsOn]), isSome_update]
      by_cases mine : g = s.calling.sys.next <;> simp [mine, CallAct.boxes, Act.boxes]
  | call _ _ _ _ stepped | spawns _ _ _ _ stepped | blocked _ _ _ stepped | registered _ stepped
  | change stepped =>
      rw [inhabited.going reached stepped (by simp [CallAct.EndsOn, Act.EndsOn])]
      simp [CallAct.boxes, Act.boxes]
  | sched _ _ at_h _ stepped | done _ at_h _ stepped | failed _ at_h _ stepped =>
      rw [inhabited.going reached stepped (by simp [CallAct.EndsOn, Act.EndsOn]), goes at_h]
      simp [CallAct.boxes, Act.boxes]
  | @spawned p h q child rest c _ at_h _ stepped =>
      have older : Function.update s.task s.calling.sys.next (some child) h = some q :=
        (Function.update_of_ne (Nat.ne_of_lt (linked.born at_h)) ..).trans at_h
      rw [inhabited.going reached stepped (by simp [CallAct.EndsOn, Act.EndsOn]), goes older,
        isSome_update]
      by_cases mine : g = s.calling.sys.next <;> simp [mine, CallAct.boxes, Act.boxes]
  | waits _ room stepped =>
      rw [inhabited.going reached stepped (by rintro q ⟨rfl, full⟩; exact room full)]
      simp [CallAct.boxes]
  | ended at_pc _ _ ends stepped =>
      refine (inhabited.ending reached stepped at_pc ?_ ?_ g).symm
      · rcases ends with ⟨-, rfl⟩ | ⟨-, rfl⟩ <;> rfl
      · intro q
        rcases ends with ⟨-, rfl⟩ | ⟨-, rfl⟩ <;> exact eq_comm
  | killed at_pc full stepped =>
      refine (inhabited.ending reached stepped at_pc rfl (fun q => ?_) g).symm
      constructor
      · exact fun hung => hung.1.symm
      · rintro rfl
        exact ⟨rfl, full⟩

end Inhabited

omit [DecidableEq P] in
theorem Linked.init : Linked program (Running.init D : Running P K Op Q) where
  calls h x inside := by cases inside
  fresh _ _ := rfl

omit [DecidableEq P] in
theorem Inhabited.init : Inhabited (Running.init D : Running P K Op Q) := fun h => by
  simp [Running.init, Calling.init, Unended, Sys.init]

/-- What holds of the programs and the coroutines in every run. -/
structure InPrograms (D : Sockets K Op R V) (program : Program Q Fd Op R) (s : Running P K Op Q) :
    Prop where
  reached : (calling P D).Reach Lts.anyStep (.init D) s.calling
  linked : Linked program s
  inhabited : Inhabited s

namespace InPrograms

theorem of_reach {ok : Running P K Op Q → RunAct P Op R V Q → Prop}
    (reached : (running P D program).Reach ok (.init D) s) : InPrograms D program s := by
  refine reached.invariant ⟨.start, .init, .init⟩ ?_
  intro s act s' _ inv _ taken
  have effect := runEffect_of_step taken
  obtain ⟨a, stepped, -⟩ := effect.calling_step
  exact ⟨.step inv.reached trivial stepped, inv.linked.step inv.reached effect,
    inv.inhabited.step inv.linked inv.reached effect⟩

/-- What is executed has a program, and is not stuck in it. -/
theorem goes (inv : InPrograms D program s) {p : P}
    (at_pc : (s.calling.sys.threads p).pc = .exec h .user) (outside : s.calling.calls h = none) :
    ∃ t, s.step D program (.next p) = some t := by
  have runs : (system P).Reach Lts.anyStep .init s.calling.sys :=
    runtime_of_calls inv.reached
  have there : (s.task h).isSome = true := by
    obtain ⟨place, placed⟩ := placed_of_reach runs
    have at_h : place h = .hand p := placed.at_hand (by rw [at_pc]; rfl)
    exact (inv.inhabited h).2 ⟨placed.born (by simp [at_h]), (executing_life runs at_pc).2⟩
  obtain ⟨q, at_h⟩ := Option.isSome_iff_exists.1 there
  have permitted {a : Act P} (actor : a.actor = some p) : s.calling.permits a = true := by
    cases a <;> simp_all [Calling.permits, Act.actor]
  have acts {a : Act P} (actor : a.actor = some p) (enabled : (Runtime.step s.calling.sys a).isSome) :
      ∃ t, s.calls D (.runtime a) = some t := by
    obtain ⟨sys, stepped⟩ := Option.isSome_iff_exists.1 enabled
    exact ⟨_, by simp [Running.calls, step_runtime (permitted actor) stepped]; rfl⟩
  have begins : s.step D program (.next p) = s.starts D p h (program q) := by
    simp [Running.step, at_pc, outside, Running.doing, at_h]
  rw [begins]
  cases program q with
  | call fd op k => simp [Running.starts, Running.calls, Calling.step, at_pc, outside]
  | spawn child rest => exact acts rfl (by simp [Runtime.step, at_pc])
  | sched rest =>
      obtain ⟨t, called⟩ := acts (a := .sched p) rfl (by simp [Runtime.step, at_pc, Pc.caller])
      exact ⟨_, by rw [Running.starts, called]; rfl⟩
  | ret =>
      obtain ⟨t, called⟩ := acts (a := .ret p) rfl (by simp [Runtime.step, at_pc])
      exact ⟨_, by rw [Running.starts, called]; rfl⟩
  | panic =>
      obtain ⟨t, called⟩ := acts (a := .panic p) rfl (by simp [Runtime.step, at_pc])
      exact ⟨_, by rw [Running.starts, called]; rfl⟩

end InPrograms

theorem calling_reach {ok : Running P K Op Q → RunAct P Op R V Q → Prop}
    {okCall : Calling P K Op → CallAct P Op R V → Prop}
    (allowed : ∀ s act a, ok s act → act.Allows s a → okCall s.calling a)
    (reached : (running P D program).Reach ok (.init D) s) :
    (calling P D).Reach okCall (.init D) s.calling := by
  induction reached with
  | start => exact .start
  | step _ meets taken ih =>
      obtain ⟨a, stepped, allows⟩ := (runEffect_of_step taken).calling_step
      exact .step ih (allowed _ _ a meets allows) stepped

end Refines

/-! ## What the programs mean -/

section Meaning

variable [DecidableEq P] [DecidableEq Op] {D : Sockets K Op R V} {program : Program Q Fd Op R}

/-- A run of the programs that has come to `s`, with what is seen of it. -/
structure Meant (D : Sockets K Op R V) (program : Program Q Fd Op R) (s : Running P K Op Q)
    (tr : List (Machine.Label Op R V Fd CoroutineRefMut Q)) : Prop where
  /-- a run of the machine, which has come to where the programs have got to -/
  machine : (machine D.toObjects program).exec (.start D.closed) tr = some s.shows
  /-- a coroutine has a program until its closure ends -/
  tasks : ∀ h, (s.task h).isSome = true ↔ Unended s.calling.sys h
  /-- one that is executed is not stuck in it -/
  goes : ∀ p h, (s.calling.sys.threads p).pc = .exec h .user → s.calling.calls h = none →
    ∃ t, s.step D program (.next p) = some t

theorem programs_refine
    {s : Running P K Op Q × List (Machine.Label Op R V Fd CoroutineRefMut Q)}
    (reached : ((running P D program).traced fun s act => act.event program s).Reach Lts.anyStep
      (.init D, []) s) : Meant D program s.1 s.2 := by
  obtain ⟨_, ran, rfl, -⟩ := (refines_machine D program).run ⟨rfl, .start, .init⟩ reached
  have inv := InPrograms.of_reach reached.untraced
  exact ⟨ran, inv.inhabited, fun p h at_pc outside => inv.goes at_pc outside⟩

end Meaning

/-- A task spawns another and ends; that one reads. -/
def readApart : Program Nat Fd SocketOp (Answer Nat Nat Nat)
  | 0 => .spawn 1 2
  | 1 => .call 5 (.read 16) fun r => if r.isSome then 2 else 3
  | 2 => .ret
  | _ => .panic

/-- A thread goes on by itself. -/
def taus (p : P) (n : Nat) : List (RunAct P Op R V Q) := List.replicate n (.thread (.tau p))

/-- Both on one thread, from the first spawn to the return of `run`: the read would block, and
bytes arrive when the thread is about to poll. -/
def readsApart : List (RunAct (Threads 1) SocketOp (Answer Nat Nat Nat) (Change Nat Nat) Nat) :=
  .flatten [
    [.change 5 .stream, .thread (.spawn none), .boot none 0, .thread (.enter none)], taus none 5,
    [.next none, .spawned none], taus none 4,
    [.next none, .attempt none none, .waitEvent none 0, .register none true], taus none 5,
    [.next none], taus none 6,
    [.change 5 (.data [72, 105]), .thread (.poll none [5])], taus none 7,
    [.attempt none (some (.read [72, 105])), .next none], taus none 7]

theorem read_apart_refines : ∃ s,
    ((running (Threads 1) (sockets Nat Nat Nat) readApart).traced fun s act =>
      act.event readApart s).exec (.init (sockets Nat Nat Nat), []) readsApart = some s ∧
    s.2.length = 7 ∧ Meant (sockets Nat Nat Nat) readApart s.1 s.2 := by
  have runs : (((running (Threads 1) (sockets Nat Nat Nat) readApart).traced fun s act =>
      act.event readApart s).exec (.init (sockets Nat Nat Nat), []) readsApart).any
        (fun s => s.2.length = 7) = true := by
    decide +kernel
  obtain ⟨s, run, seen⟩ := (Option.any_eq_true _ _).1 runs
  exact ⟨s, run, of_decide_eq_true seen, programs_refine (.of_exec_any run)⟩

/-- The runtime's steps are of `Scheduler::run`. -/
def RunsInRun (main : P) (s : Running P K Op Q) : RunAct P Op R V Q → Prop
  | .thread a => InRun main s.calling.sys a
  | _ => True

theorem RunsInRun.calls {main : P} {s : Running P K Op Q} {act : RunAct P Op R V Q}
    {a : CallAct P Op R V} (run : RunsInRun main s act) (allows : act.Allows s a) :
    CallsInRun main s.calling a := by
  cases a with
  | runtime a =>
      cases a with
      | spawn p =>
          rcases allows with rfl | ⟨h, at_pc⟩
          · exact run
          · intro outside
            simp [at_pc] at outside
      | enter | leave | poll | pollErr | tau =>
          obtain rfl := allows
          exact run
      | processorSpawn | block | waitEvent | register | setHolds => cases allows
      | spawnInner | sched | ret | panic => trivial
  | _ => trivial

/-- When `Scheduler::run(n)` returns, every program is over. -/
theorem programs_return [DecidableEq Op] {D : Sockets K Op R V} {program : Program Q Fd Op R} (n : Nat)
    {s : Running (Threads n) K Op Q × List (Machine.Label Op R V Fd CoroutineRefMut Q)}
    (reached : ((running (Threads n) D program).traced fun s act => act.event program s).Reach
      (fun s act => RunsInRun none s.1 act) (.init D, []) s)
    (returned : Returned s.1.calling.sys) : Quiescent s.1.calling.sys ∧
      (machine D.toObjects program).exec (.start D.closed) s.2 =
        some ⟨s.1.calling.socket, fun _ => none⟩ := by
  have anyhow := reached.mono fun _ _ _ => trivial
  obtain ⟨_, ran, rfl, -⟩ := (refines_machine D program).run ⟨rfl, .start, .init⟩ anyhow
  have runs : (system (Threads n)).Reach (InRun none) .init s.1.calling.sys :=
    runtime_reach (fun _ _ => id) (fun _ _ _ _ _ => trivial) (fun _ _ _ => trivial)
      (fun _ _ _ _ => trivial) (calling_reach (fun _ _ _ run => run.calls) reached.untraced_meets)
  obtain ⟨place, placed, balanced, stopped⟩ := OfRun.stopped (runs.mono fun _ _ run => .inl run)
  have quiescent := stopped.quiescent (Registers.reach runs) placed balanced returned
  refine ⟨quiescent, ran.trans (congrArg some (Machine.ext rfl (funext fun h => ?_)))⟩
  -- whatever was boxed has ended
  show s.1.task h = none
  rw [← Option.not_isSome_iff_eq_none]
  intro there
  obtain ⟨born, unended⟩ := ((InPrograms.of_reach anyhow.untraced).inhabited h).1 there
  have ended := (quiescent.coroutine h born).2.1
  omega

instance (main : P) [Fintype P] [DecidableEq P] (s : Running P K Op Q) :
    ∀ act : RunAct P Op R V Q, Decidable (RunsInRun main s act)
  | .thread a => inferInstanceAs (Decidable (InRun main s.calling.sys a))
  | .boot _ _ | .next _ | .spawned _ | .attempt _ _ | .waitEvent _ _ | .register _ _
  | .change _ _ => .isTrue trivial

theorem read_apart_returns : ∃ s,
    ((running (Threads 1) (sockets Nat Nat Nat) readApart).traced fun s act =>
      act.event readApart s).exec (.init (sockets Nat Nat Nat), []) readsApart = some s ∧
    s.1.calling.sys.next = 2 ∧ Quiescent s.1.calling.sys ∧
    (machine (sockets Nat Nat Nat).toObjects readApart).exec (.start .closed) s.2 =
      some ⟨s.1.calling.socket, fun _ => none⟩ := by
  have meets : ((running (Threads 1) (sockets Nat Nat Nat) readApart).traced fun s act =>
      act.event readApart s).Meets (fun s act => RunsInRun none s.1 act)
        (.init (sockets Nat Nat Nat), []) readsApart := by
    decide +kernel
  have returns : (((running (Threads 1) (sockets Nat Nat Nat) readApart).traced fun s act =>
      act.event readApart s).exec (.init (sockets Nat Nat Nat), []) readsApart).any
        (fun s => (s.1.calling.sys.threads none).pc = .done ∧ s.1.calling.sys.next = 2) = true := by
    decide +kernel
  obtain ⟨s, run, ends⟩ := (Option.any_eq_true _ _).1 returns
  obtain ⟨at_pc, both⟩ := of_decide_eq_true ends
  refine ⟨s, run, both, programs_return 1 (.of_exec run meets) ?_⟩
  intro p
  cases p with
  | none => exact at_pc
  | some i => exact i.elim0

end SimpleSched.Net
