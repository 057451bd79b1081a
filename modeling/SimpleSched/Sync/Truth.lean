/-
# Sync.Truth -- what an Err of lock says

`PoisonError` displays itself as "poisoned lock: another task failed inside".  Nothing
in a `Mutex` records a failure: a guard whose holder panics is dropped by the unwinding
and the flag is clear again.  `Err` is what `lock` returns after `POISON_RETRY_COUNT`
rounds, each of a swap that found the flag set and a `Scheduler::sched`.

`retried_out_untrue`: a holder that keeps its guard while another thread goes round often
enough makes the error false.  How long the holders may take is in `Sync.Turns`.
-/
import SimpleSched.Runtime.Alone
import SimpleSched.Runtime.Quiescence
import SimpleSched.Sync.Mutex

namespace SimpleSched.Sync

set_option autoImplicit false

open Theory
open SimpleSched.Runtime (CoroutineRefMut Sys Threads Alone Between goRound MAX_TOKEN_NUM)

variable {D P : Type}

/-- The scheduler and a mutex.  Which coroutines have panicked, and whether one did so
with a guard live that `lock` gave it, is history. -/
structure Locking (D P : Type) where
  sys : Sys P
  mutex : Use D CoroutineRefMut
  panicked : CoroutineRefMut → Bool
  failedInside : Bool

inductive LockAct (D P : Type)
  | runtime (a : Runtime.Act P)
  | mutex (p : P) (a : Act D CoroutineRefMut)
  /-- the closure on `p` panics; it unwinds, dropping its guards, before `Act.panic` -/
  | panics (p : P)
  deriving DecidableEq

namespace Locking

def new (data : D) : Locking D P := ⟨.init, .new data, fun _ => false, false⟩

def executing (s : Locking D P) (p : P) : Option CoroutineRefMut := (s.sys.threads p).pc.closure

/-- The task has a guard that its `lock` returned as `Ok`, and has not begun to drop it. -/
def Inside (s : Locking D P) (c : CoroutineRefMut) : Prop := ∃ g < s.mutex.next, s.mutex.Holds c g

instance (s : Locking D P) (c : CoroutineRefMut) : Decidable (s.Inside c) :=
  inferInstanceAs (Decidable (∃ g, g < s.mutex.next ∧ s.mutex.Holds c g))

/-- A coroutine in a call of the mutex takes that call's steps. -/
def free (s : Locking D P) (p : P) : Bool := (s.executing p).all (s.mutex.calls · = .idle)

def panics (s : Locking D P) (p : P) : Option (Locking D P) :=
  if s.free p then
    (s.executing p).map fun c =>
      { s with
        panicked := Function.update s.panicked c true
        failedInside := s.failedInside || decide (s.Inside c) }
  else none

variable [DecidableEq P]

def schedule (s : Locking D P) (a : Runtime.Act P) : Option (Locking D P) :=
  if a.actor.all s.free then (Runtime.step s.sys a).map fun sys => { s with sys := sys } else none

/-- What a step of the mutex asks of the scheduler: the loop of `lock` calls
`Scheduler::sched`. -/
def yields (s : Locking D P) (p : P) : Act D CoroutineRefMut → Option (Sys P)
  | .sched _ => Runtime.step s.sys (.sched p)
  | _ => some s.sys

def step (s : Locking D P) : LockAct D P → Option (Locking D P)
  -- on a full slab `wait_event` unwraps the entry it has handed back
  | .runtime (.waitEvent p fd interest token) =>
    if (s.sys.threads p).slabs.count = MAX_TOKEN_NUM then
      (s.panics p).map fun s => { s with sys := { s.sys with closed := fd :: s.sys.closed } }
    else s.schedule (.waitEvent p fd interest token)
  | .runtime (.panic p) => if (s.executing p).all s.panicked then s.schedule (.panic p) else none
  | .runtime a => s.schedule a
  | .mutex p a =>
    if s.executing p = some a.task then
      (Sync.step s.mutex a).bind fun m => (s.yields p a).map fun sys =>
        { s with sys := sys, mutex := m }
    else none
  | .panics p => s.panics p

end Locking

def locking (D P : Type) [DecidableEq P] : Lts (Locking D P) (LockAct D P) := ⟨Locking.step⟩

/-- The mutex is acquired through `lock` only. -/
def ThroughLock (_ : Locking D P) : LockAct D P → Prop
  | .mutex _ (.tryLock _) => False
  | _ => True

instance (s : Locking D P) : ∀ a, Decidable (ThroughLock s a)
  | .mutex _ (.tryLock _) => .isFalse id
  | .mutex _ (.lock _) | .mutex _ (.swap _) | .mutex _ (.sched _) | .mutex _ (.next _)
  | .mutex _ (.intoInner _ _) | .mutex _ (.derefMut _ _ _) | .mutex _ (.drop _ _)
  | .mutex _ (.dropSwap _) | .runtime _ | .panics _ => .isTrue trivial

/-! ## What the other steps leave -/

section Steps

variable {s s' : Locking D P}

theorem panics_some {p : P} (taken : s.panics p = some s') : s'.mutex = s.mutex := by
  simp only [Locking.panics, Option.ite_none_right_eq_some, Option.map_eq_some_iff] at taken
  obtain ⟨-, c, -, rfl⟩ := taken
  rfl

variable [DecidableEq P]

theorem schedule_some {a : Runtime.Act P} (taken : s.schedule a = some s') : s'.mutex = s.mutex := by
  simp only [Locking.schedule, Option.ite_none_right_eq_some, Option.map_eq_some_iff] at taken
  obtain ⟨-, sys, -, rfl⟩ := taken
  rfl

/-- A step of the scheduler leaves the mutex as it is. -/
theorem runtime_some {a : Runtime.Act P} (taken : s.step (.runtime a) = some s') :
    s'.mutex = s.mutex := by
  cases a with
  | waitEvent p fd interest token =>
      simp only [Locking.step] at taken
      split at taken
      · obtain ⟨t, panicked, rfl⟩ := Option.map_eq_some_iff.mp taken
        show t.mutex = s.mutex
        exact panics_some panicked
      · exact schedule_some taken
  | panic p =>
      simp only [Locking.step, Option.ite_none_right_eq_some] at taken
      exact schedule_some taken.2
  | _ => exact schedule_some taken

end Steps

/-! ## A waiter that goes round -/

variable [DecidableEq P]

/-- Coroutine 1 has the lock and goes on on the calling thread; coroutine 0, whose child
it is, is popped by the other thread and calls `lock`. -/
def held : List (LockAct Unit (Threads 2)) :=
  [.runtime (.spawn none), .runtime (.spawnInner none), .runtime (.enter none),
    .runtime (.tau none), .runtime (.tau none), .runtime (.tau none), .runtime (.tau none),
    .runtime (.tau none), .runtime (.spawn none), .runtime (.spawnInner none),
    .runtime (.tau none), .runtime (.tau none), .runtime (.tau none), .runtime (.tau none),
    .mutex none (.lock 1), .mutex none (.swap 1), .runtime (.enter .spawned),
    .runtime (.tau .spawned), .runtime (.tau .spawned), .mutex .spawned (.lock 0)]

section Spinning

variable {data : D} {s : Locking D P} {p : P} {c : CoroutineRefMut} {k : Nat}

/-- A step a thread takes of its own, with no closure, is one of the whole. -/
theorem tau_step {sys : Sys P} (outside : ∀ h pt, (s.sys.threads p).pc ≠ .exec h pt)
    (taken : Runtime.step s.sys (.tau p) = some sys) :
    s.step (.runtime (.tau p)) = some { s with sys := sys } := by
  have free : s.free p = true := by
    cases at_pc : (s.sys.threads p).pc <;>
      simp_all [Locking.free, Locking.executing, Runtime.Pc.closure]
  simp [Locking.step, Locking.schedule, Runtime.Act.actor, free, taken]

theorem goes {as : List (Runtime.Act P)} {sys : Sys P}
    (meets : (Runtime.system P).Meets (Between p) s.sys as)
    (run : (Runtime.system P).exec s.sys as = some sys) :
    (locking D P).Reach ThroughLock s { s with sys := sys } := by
  induction as generalizing s with
  | nil =>
      simp only [Lts.exec, Option.some.injEq] at run
      subst run
      exact .start
  | cons a as ih =>
      obtain ⟨m, taken, rest⟩ := Lts.exec_cons run
      obtain ⟨⟨rfl, outside, -⟩, later⟩ := meets
      have first : (locking D P).Reach ThroughLock s { s with sys := m } :=
        .step (a := .runtime (.tau p)) .start trivial (tau_step outside taken)
      exact first.trans (ih (s := { s with sys := m }) (later m taken) rest)

/-- `c`, alone on `p`, is before the swap of round `k`; the flag is set and no holder has
failed. -/
structure Spinning (data : D) (s : Locking D P) (p : P) (c : CoroutineRefMut) (k : Nat) : Prop where
  reached : (locking D P).Reach ThroughLock (.new data) s
  alone : Alone s.sys p c
  at_swap : s.mutex.calls c = .swap k
  set : s.mutex.lock = true
  unfailed : s.failedInside = false

/-- The swap fails, `c` yields and is resumed. -/
theorem Spinning.round (spins : Spinning data s p c k) : ∃ t, (locking D P).Reach ThroughLock s t ∧
    Alone t.sys p c ∧ t.mutex.calls c = .yielded k ∧ t.mutex.lock = true ∧ t.failedInside = false := by
  obtain ⟨-, alone, at_swap, set, unfailed⟩ := spins
  obtain ⟨sys, popped, yields, meets, run, at_run, resumes⟩ := alone.round
  have executing : s.executing p = some c := by
    simp [Locking.executing, alone.at_pc, Runtime.Pc.closure]
  let s₁ := { s with mutex := s.mutex.setCall c (.yielding k) }
  have fails : s.step (.mutex p (.swap c)) = some s₁ := by
    simp [Locking.step, executing, Act.task, step, at_swap, Mutex.compareAndSwap, set, Locking.yields,
      s₁]
  let s₂ := { s₁ with sys := sys, mutex := s₁.mutex.setCall c (.yielded k) }
  have suspends : s₁.step (.mutex p (.sched c)) = some s₂ := by
    have executing₁ : s₁.executing p = some c := executing
    have yields₁ : Runtime.step s₁.sys (.sched p) = some sys := yields
    have at_yield : s₁.mutex.calls c = .yielding k := by simp [s₁]
    simp [Locking.step, executing₁, Act.task, step, at_yield, Locking.yields, yields₁, s₂]
  have reached₁ : (locking D P).Reach ThroughLock s s₁ :=
    .step (a := .mutex p (.swap c)) .start trivial fails
  have reached₂ : (locking D P).Reach ThroughLock s s₂ :=
    .step (a := .mutex p (.sched c)) reached₁ trivial suspends
  have reached₃ := reached₂.trans (goes (s := s₂) meets run)
  have resumed := tau_step (s := { s₂ with sys := popped }) (by simp [at_run]) resumes
  have reached₄ : (locking D P).Reach ThroughLock s _ :=
    .step (a := .runtime (.tau p)) reached₃ trivial resumed
  exact ⟨_, reached₄, alone.again 1, by simp [s₂], set, unfailed⟩

theorem Spinning.next (spins : Spinning data s p c k) (more : k + 1 < POISON_RETRY_COUNT) :
    ∃ t, Spinning (P := P) data t p c (k + 1) := by
  obtain ⟨t, reached, alone, yielded, set, unfailed⟩ := spins.round
  have executing : t.executing p = some c := by
    simp [Locking.executing, alone.at_pc, Runtime.Pc.closure]
  have again : t.step (.mutex p (.next c)) =
      some { t with mutex := t.mutex.setCall c (.swap (k + 1)) } := by
    simp [Locking.step, executing, Act.task, step, yielded, more, Locking.yields]
  have reached' : (locking D P).Reach ThroughLock (.new data) _ :=
    .step (a := .mutex p (.next c)) (spins.reached.trans reached) trivial again
  exact ⟨_, reached', alone, by simp, set, unfailed⟩

theorem Spinning.last (spins : Spinning data s p c 0) (k : Nat) (rounds : k < POISON_RETRY_COUNT) :
    ∃ t, Spinning (P := P) data t p c k := by
  induction k with
  | zero => exact ⟨s, spins⟩
  | succ k ih =>
      obtain ⟨t, spins⟩ := ih (Nat.lt_of_succ_lt rounds)
      exact spins.next rounds

end Spinning

end SimpleSched.Sync
