/-
# Runtime.References -- a processor reference outlives its processor's turn

`Processor::current` hands a coroutine `&'static mut` to the processor it runs on, and
the coroutine may call `sched`, `block` and `yield_with` on it at any later time.  After
a yield it may run on another processor.  The call then takes the `cur_running` of the
processor it names: with `None` there it returns at once, with another coroutine there
it saves the caller's context in that one and goes on on that processor's stack, where
its own thread runs too; such a thread is `crashed`.

`calls_right_iff`: the calls do what `Scheduler::sched` and `block` do exactly as long as
each is made on the processor that executes the caller.
-/
import SimpleSched.Runtime.Quiescence

namespace SimpleSched.Runtime

set_option autoImplicit false

open Mio Theory

variable {P : Type}

/-- The runtime, and the references each coroutine has from `Processor::current`. -/
structure Refs (P : Type) where
  sys : Sys P
  refs : CoroutineRefMut → List P

inductive RefAct (P : Type)
  | runtime (a : Act P)
  /-- `Processor::current()`, called by the coroutine `p` executes -/
  | current (p : P)
  /-- the coroutine `p` executes calls a method of the processor `q` -/
  | sched (p q : P)
  | block (p q : P)
  | yieldWith (p q : P) (r : Result)
  deriving DecidableEq

variable [DecidableEq P]

/-- `q.yield_with(r)`, called by the coroutine `h` on `p`: the registers are those of `q`,
and the context that is saved is the caller's. -/
def Sys.yieldOn (s : Sys P) (p q : P) (h : CoroutineRefMut) (r : Result) (k : Context P) : Sys P :=
  match (s.threads q).curRunning with
  | none => s.setPc p (.exec h .user)
  | some c =>
    ((s.setThread q { s.threads q with curRunning := none, lastResult := some r }).setPc p
      (if p = q then .back h else .crashed)).setCoro c { s.coros c with cell := .saved k }

/-- `q.sched()`. -/
def Sys.schedOn (s : Sys P) (p q : P) (h : CoroutineRefMut) : Sys P :=
  s.yieldOn p q h (.ok .suspended) .sched

/-- `q.block()`. -/
def Sys.blockOn (s : Sys P) (p q : P) (h : CoroutineRefMut) : Sys P :=
  s.yieldOn p q h (.ok .blocked) .block

namespace Refs

def init : Refs P := ⟨.init, fun _ => []⟩

/-- The coroutine that `p` executes makes a call on `q`, to which it must have a
reference. -/
def call (s : Refs P) (p q : P) (go : CoroutineRefMut → Sys P) : Option (Refs P) :=
  match (s.sys.threads p).pc with
  | .exec h .user => if q ∈ s.refs h then some { s with sys := go h } else none
  | _ => none

def step (s : Refs P) : RefAct P → Option (Refs P)
  | .runtime a => (Runtime.step s.sys a).map fun sys => { s with sys := sys }
  | .current p =>
    match (s.sys.threads p).pc with
    | .exec h .user => some { s with refs := Function.update s.refs h (p :: s.refs h) }
    | _ => none
  | .sched p q => s.call p q (s.sys.schedOn p q)
  | .block p q => s.call p q (s.sys.blockOn p q)
  -- the closure goes on after it as after `sched`
  | .yieldWith p q r => s.call p q fun h => s.sys.yieldOn p q h r .sched

end Refs

def referring (P : Type) [DecidableEq P] : Lts (Refs P) (RefAct P) := ⟨Refs.step⟩

/-! ## What a call should do -/

/-- Exactly the caller `h` is suspended: its thread is back in `resume(h)`, with the
result there to be taken and the context in the caller's own memory; no other
coroutine and no other processor has changed. -/
structure Suspends (s s' : Sys P) (p : P) (h : CoroutineRefMut) (r : Result) : Prop where
  back : (s'.threads p).pc = .back h
  result : (s'.threads p).curRunning = none ∧ (s'.threads p).lastResult = some r
  saved : ∃ k, (s'.coros h).cell = .saved k ∧ k.point = .user
  coros : ∀ c, c ≠ h → s'.coros c = s.coros c
  threads : ∀ q, q ≠ p → s'.threads q = s.threads q

/-- The call suspends its caller, and is equivalent to `a`, the call through
`Scheduler`. -/
def Equivalent (s : Refs P) (call : RefAct P) (p : P) (a : Act P) (r : Result) : Prop :=
  ∀ s' h, s.step call = some s' → (s.sys.threads p).pc = .exec h .user →
    Suspends s.sys s'.sys p h r ∧ Runtime.step s.sys a = some s'.sys

/-- `sched` and `block`, on any reference the caller has, do what they are documented to
do; `yield_with`, which `Scheduler` does not have, suspends its caller with the result
it is given. -/
def CallsRight (s : Refs P) : RefAct P → Prop
  | .sched p q => Equivalent s (.sched p q) p (.sched p) (.ok .suspended)
  | .block p q => Equivalent s (.block p q) p (.block p) (.ok .blocked)
  | .yieldWith p q r => ∀ s' h, s.step (.yieldWith p q r) = some s' →
      (s.sys.threads p).pc = .exec h .user → Suspends s.sys s'.sys p h r
  | _ => True

/-- Calls are made on the processor that executes the caller. -/
def AtHome (_ : Refs P) : RefAct P → Prop
  | .sched p q | .block p q | .yieldWith p q _ => q = p
  | _ => True

variable {s s' : Refs P} {p q : P} {h : CoroutineRefMut} {r : Result} {k : Context P}

theorem yieldOn_self (s : Sys P) (p : P) (h : CoroutineRefMut) (r : Result) (k : Context P) :
    s.yieldOn p p h r k = s.yieldWith p h r k .user := by
  cases current : (s.threads p).curRunning with
  | none => simp [Sys.yieldOn, Sys.yieldWith, current]
  | some c => simp [Sys.yieldOn, Sys.yieldWith, current, Sys.setPc, Sys.setThread, Sys.setCoro]

theorem call_some {go : CoroutineRefMut → Sys P} (called : s.call p q go = some s') :
    ∃ h, (s.sys.threads p).pc = .exec h .user ∧ s'.sys = go h := by
  unfold Refs.call at called
  split at called
  · rename_i h at_pc
    split at called
    · cases called
      exact ⟨h, at_pc, rfl⟩
    · cases called
  · cases called

/-! ## One call -/

section Call

variable {s s' : Sys P}

theorem suspends_at_home (regs : Registers s) (at_pc : (s.threads p).pc = .exec h .user)
    (user : k.point = .user) : Suspends s (s.yieldOn p p h r k) p h r := by
  have here := regs.executing at_pc
  simp only [yieldOn_self, Sys.yieldWith, here.1]
  constructor
  case back => simp
  case result => simp
  case saved => exact ⟨k, by simp, user⟩
  case coros =>
    intro c other
    simp [Function.update_of_ne other]
  case threads =>
    intro q other
    simp [Function.update_of_ne other]

/-- With no coroutine on `q` the call returns; with one, both threads are on its stack. -/
theorem not_suspends_elsewhere (away : q ≠ p) : ¬ Suspends s (s.yieldOn p q h r k) p h r := by
  intro suspends
  have back := suspends.back
  cases current : (s.threads q).curRunning with
  | none => simp [Sys.yieldOn, current] at back
  | some c => simp [Sys.yieldOn, current, Ne.symm away] at back

theorem suspends_iff (regs : Registers s) (at_pc : (s.threads p).pc = .exec h .user)
    (user : k.point = .user) : Suspends s (s.yieldOn p q h r k) p h r ↔ q = p := by
  constructor
  · intro suspends
    exact Classical.byContradiction fun away => not_suspends_elsewhere away suspends
  · rintro rfl
    exact suspends_at_home regs at_pc user

theorem sched_eq (at_pc : (s.threads p).pc = .exec h .user) :
    step s (.sched p) = some (s.schedOn p p h) := by
  simp [step, at_pc, Pc.caller, Sys.yieldFrom, Sys.schedOn, yieldOn_self]

theorem block_eq (at_pc : (s.threads p).pc = .exec h .user) :
    step s (.block p) = some (s.blockOn p p h) := by
  simp [step, at_pc, Pc.caller, Sys.yieldFrom, Sys.blockOn, yieldOn_self]

omit [DecidableEq P] in
theorem Suspends.registers (suspends : Suspends s s' p h r) (regs : Registers s) :
    Registers s' := by
  intro q
  by_cases same : q = p
  · subst same
    simp [Thread.Registers, suspends.back, suspends.result]
  · rw [suspends.threads q same]
    exact regs q

end Call

/-! ## Every call of a run -/

/-- Whether a call that is made is right is a matter of the one state it leads to. -/
theorem right_iff (Right : Sys P → CoroutineRefMut → Prop) {a : RefAct P} (taken : s.step a = some s')
    (at_pc : (s.sys.threads p).pc = .exec h .user) :
    (∀ s'' h', s.step a = some s'' → (s.sys.threads p).pc = .exec h' .user → Right s''.sys h') ↔
      Right s'.sys h := by
  constructor
  · intro right
    exact right s' h taken at_pc
  · intro right s'' h' taken' at_pc'
    obtain rfl : s' = s'' := Option.some.inj (taken.symm.trans taken')
    obtain rfl : h = h' := by simpa [at_pc] using at_pc'
    exact right

theorem calls_right_step (regs : Registers s.sys) {a : RefAct P} (taken : s.step a = some s') :
    CallsRight s a ↔ AtHome s a := by
  cases a with
  | runtime | current => exact Iff.rfl
  | sched p q =>
      obtain ⟨h, at_pc, goes⟩ := call_some taken
      have suspends := suspends_iff (q := q) (r := .ok .suspended) (k := .sched) regs at_pc rfl
      refine (right_iff (fun sys h => Suspends s.sys sys p h (.ok .suspended) ∧
        Runtime.step s.sys (.sched p) = some sys) taken at_pc).trans ?_
      rw [goes]
      constructor
      · intro right
        exact suspends.1 right.1
      · rintro rfl
        exact ⟨suspends.2 rfl, sched_eq at_pc⟩
  | block p q =>
      obtain ⟨h, at_pc, goes⟩ := call_some taken
      have suspends := suspends_iff (q := q) (r := .ok .blocked) (k := .block) regs at_pc rfl
      refine (right_iff (fun sys h => Suspends s.sys sys p h (.ok .blocked) ∧
        Runtime.step s.sys (.block p) = some sys) taken at_pc).trans ?_
      rw [goes]
      constructor
      · intro right
        exact suspends.1 right.1
      · rintro rfl
        exact ⟨suspends.2 rfl, block_eq at_pc⟩
  | yieldWith p q r =>
      obtain ⟨h, at_pc, goes⟩ := call_some taken
      refine (right_iff (fun sys h => Suspends s.sys sys p h r) taken at_pc).trans ?_
      rw [goes]
      exact suspends_iff regs at_pc rfl

theorem CallsRight.suspends {a : RefAct P} (right : CallsRight s a) (taken : s.step a = some s') :
    (∃ b, Runtime.step s.sys b = some s'.sys) ∨ s'.sys = s.sys ∨
      ∃ p h r, Suspends s.sys s'.sys p h r := by
  cases a with
  | runtime b =>
      obtain ⟨sys, stepped, rfl⟩ := Option.map_eq_some_iff.mp taken
      exact .inl ⟨b, stepped⟩
  | current p =>
      simp only [Refs.step] at taken
      split at taken <;> cases taken
      exact .inr (.inl rfl)
  | sched p q | block p q =>
      obtain ⟨h, at_pc, -⟩ := call_some taken
      exact .inr (.inr ⟨p, h, _, (right s' h taken at_pc).1⟩)
  | yieldWith p q r =>
      obtain ⟨h, at_pc, -⟩ := call_some taken
      exact .inr (.inr ⟨p, h, r, right s' h taken at_pc⟩)

theorem CallsRight.registers {a : RefAct P} (right : CallsRight s a) (taken : s.step a = some s')
    (regs : Registers s.sys) : Registers s'.sys := by
  rcases right.suspends taken with ⟨b, stepped⟩ | same | ⟨p, h, r, suspends⟩
  · exact regs.step stepped
  · rw [same]
    exact regs
  · exact suspends.registers regs

theorem CallsRight.reach (reached : (referring P).Reach CallsRight .init s) : Registers s.sys :=
  reached.invariant .init fun _ _ _ _ regs right taken => right.registers taken regs

/-- In a run every call does what it is documented to do, exactly when every call is made
on the processor that executes its caller. -/
theorem calls_right_iff {as : List (RefAct P)} (run : (referring P).exec .init as = some s) :
    (referring P).Meets CallsRight .init as ↔ (referring P).Meets AtHome .init as :=
  Lts.meets_iff_meets
    (fun _ _ _ reached taken => calls_right_step (CallsRight.reach reached) taken) .start run

/-! ## A reference kept over a yield -/

/-- A coroutine takes a reference to the calling thread's processor, yields, and is
resumed by another thread. -/
def carriedAway : List (RefAct (Threads 2)) :=
  [.runtime (.spawn none), .runtime (.spawnInner none), .runtime (.enter none),
    .runtime (.tau none), .runtime (.tau none), .runtime (.tau none), .runtime (.tau none),
    .runtime (.tau none), .current none, .sched none none, .runtime (.tau none),
    .runtime (.tau none), .runtime (.enter .spawned), .runtime (.tau .spawned),
    .runtime (.tau .spawned)]

theorem carried_away_at_home : (referring (Threads 2)).Meets CallsRight .init carriedAway := by
  have runs : ((referring (Threads 2)).exec .init carriedAway).isSome = true := by decide +kernel
  obtain ⟨s, run⟩ := Option.isSome_iff_exists.1 runs
  refine (calls_right_iff run).2 ?_
  have home : ∀ a ∈ carriedAway, ∀ s, AtHome s a := by simp [carriedAway, AtHome]
  exact Lts.meets_of_forall home

/-- The calling thread has none running, so the call returns at once. -/
theorem carried_away_ignored : ¬ ∀ (n : Nat) (s : Refs (Threads n)),
    (referring (Threads n)).Reach Lts.anyStep .init s → ∀ a, CallsRight s a := by
  intro right
  have ends : ((referring (Threads 2)).exec .init carriedAway).any (fun s =>
      (s.sys.threads .spawned).pc = .exec 0 .user ∧
        (s.step (.sched .spawned none)).any fun s' =>
          (s'.sys.threads .spawned).pc = .exec 0 .user) = true := by
    decide +kernel
  obtain ⟨s, run, ignores⟩ := (Option.any_eq_true _ _).1 ends
  obtain ⟨at_pc, stays⟩ := of_decide_eq_true ignores
  obtain ⟨s', taken, still⟩ := (Option.any_eq_true _ _).1 stays
  have back := (right 2 s (.of_exec_any run) (.sched .spawned none) s' 0 taken at_pc).1.back
  rw [of_decide_eq_true still] at back
  cases back

end SimpleSched.Runtime
