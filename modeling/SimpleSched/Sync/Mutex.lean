/-
# Sync.Mutex -- the flag, its guards, and the calls in progress

`sync/mutex.rs`.  A task is whatever calls: a coroutine, or a thread outside one.
`lock` is a loop of `compare_and_swap` and `Scheduler::sched`, `Guard::drop` a loop of
`compare_and_swap`; each swap is one step, so the interleavings of steps are those of
the processors.  What a task may do with a guard it was given, or with the
`PoisonError` around one, is a step too: write through it, take it out, drop it.
Dropping a `PoisonError` drops the guard in it, and that is the same loop.

Guards are numbered as they are returned.  `acquired` and `releases` record history
and are never read by the code: which guard's call last set the flag, and which
acquisitions the drop of a guard has cleared.
-/
import SimpleSched.Theory.Lts
import Mathlib.Logic.Function.Basic

namespace SimpleSched.Sync

set_option autoImplicit false

open Theory

def POISON_RETRY_COUNT : Nat := 102400

structure Mutex (D : Type) where
  data : D
  lock : Bool
  deriving DecidableEq, Repr

namespace Mutex

variable {D : Type}

def new (data : D) : Mutex D := ⟨data, false⟩

/-- `self.lock.compare_and_swap(current, new)`: the value it found, and the mutex
after it. -/
def compareAndSwap (m : Mutex D) (current new : Bool) : Bool × Mutex D :=
  (m.lock, if m.lock = current then { m with lock := new } else m)

end Mutex

/-! ## Calls and guards -/

abbrev GuardRef := Nat

/-- Where a task has got to: outside the mutex, in round `k` of the loop of `lock`
(before the swap, before `Scheduler::sched` and after it), or in the loop of
`Guard::drop`. -/
inductive Call
  | idle
  | swap (k : Nat)
  | yielding (k : Nat)
  | yielded (k : Nat)
  | drop (g : GuardRef)
  deriving DecidableEq, Repr

/-- How a guard is held: it came as `Ok`, it is in a `PoisonError`, or
`into_inner` has taken it out of one. -/
inductive Returned
  | ok
  | poisonError
  | intoInner
  deriving DecidableEq, Repr

/-- A guard is live from its return until its drop begins. -/
inductive Status
  | live
  | dropping
  | dropped
  deriving DecidableEq, Repr

structure Guard (T : Type) where
  caller : T
  returned : Returned
  status : Status
  releases : List GuardRef
  deriving DecidableEq, Repr

/-- A mutex in use by the tasks `T`. -/
structure Use (D T : Type) extends Mutex D where
  calls : T → Call
  guards : GuardRef → Option (Guard T)
  next : GuardRef
  acquired : GuardRef

inductive Act (D T : Type)
  | lock (t : T)
  | swap (t : T)
  | sched (t : T)
  | next (t : T)
  | tryLock (t : T)
  /-- `PoisonError::into_inner`; `get_ref` and `get_mut` lend the guard where it is -/
  | intoInner (t : T) (g : GuardRef)
  /-- a write through `Guard::deref_mut` -/
  | derefMut (t : T) (g : GuardRef) (data : D)
  | drop (t : T) (g : GuardRef)
  | dropSwap (t : T)
  deriving DecidableEq, Repr

variable {D T : Type}

/-- The task that takes the step. -/
def Act.task : Act D T → T
  | .lock t | .swap t | .sched t | .next t | .tryLock t | .intoInner t _ | .derefMut t _ _
  | .drop t _ | .dropSwap t => t

namespace Use

def new (data : D) : Use D T where
  toMutex := .new data
  calls := fun _ => .idle
  guards := fun _ => none
  next := 0
  acquired := 0

/-- An `Ok` guard that is live, or in another status. -/
def Ok (s : Use D T) (g : GuardRef) (status : Status) : Prop :=
  ∃ x, s.guards g = some x ∧ x.returned = .ok ∧ x.status = status

/-- `t` has a live guard that its own call returned as `Ok`. -/
def Holds (s : Use D T) (t : T) (g : GuardRef) : Prop :=
  ∃ x, s.guards g = some x ∧ x.caller = t ∧ x.returned = .ok ∧ x.status = .live

instance [DecidableEq T] (s : Use D T) (t : T) (g : GuardRef) : Decidable (s.Holds t g) :=
  match found : s.guards g with
  | none => isFalse fun ⟨_, at_g, _⟩ => by simp [found] at at_g
  | some x => decidable_of_iff (x.caller = t ∧ x.returned = .ok ∧ x.status = .live)
      (by simp [Holds, found])

def setGuard (s : Use D T) (g : GuardRef) (x : Guard T) : Use D T :=
  { s with guards := Function.update s.guards g (some x) }

variable [DecidableEq T]

def setCall (s : Use D T) (t : T) (call : Call) : Use D T :=
  { s with calls := Function.update s.calls t call }

/-- `Guard::new`, and the return of the call with the guard as `Ok` or as `Err`. -/
def giveGuard (s : Use D T) (t : T) (returned : Returned) : Use D T :=
  { s.setGuard s.next ⟨t, returned, .live, []⟩ with next := s.next + 1 }.setCall t .idle

/-- A swap of `lock` or `try_lock` has set the flag. -/
def acquire (s : Use D T) (t : T) (m : Mutex D) : Use D T :=
  { s with toMutex := m, acquired := s.next }.giveGuard t .ok

section Fields

variable (s : Use D T) (t : T) (call : Call) (g : GuardRef) (x : Guard T) (m : Mutex D)

@[simp] theorem setCall_toMutex : (s.setCall t call).toMutex = s.toMutex := rfl
@[simp] theorem setCall_guards : (s.setCall t call).guards = s.guards := rfl
@[simp] theorem setCall_next : (s.setCall t call).next = s.next := rfl
@[simp] theorem setCall_acquired : (s.setCall t call).acquired = s.acquired := rfl
@[simp] theorem setCall_calls : (s.setCall t call).calls = Function.update s.calls t call := rfl

omit [DecidableEq T] in
@[simp] theorem setGuard_toMutex : (s.setGuard g x).toMutex = s.toMutex := rfl
omit [DecidableEq T] in
@[simp] theorem setGuard_calls : (s.setGuard g x).calls = s.calls := rfl
omit [DecidableEq T] in
@[simp] theorem setGuard_next : (s.setGuard g x).next = s.next := rfl
omit [DecidableEq T] in
@[simp] theorem setGuard_acquired : (s.setGuard g x).acquired = s.acquired := rfl
omit [DecidableEq T] in
@[simp] theorem setGuard_guards : (s.setGuard g x).guards = Function.update s.guards g (some x) := rfl

@[simp] theorem acquire_toMutex : (s.acquire t m).toMutex = m := rfl
@[simp] theorem acquire_next : (s.acquire t m).next = s.next + 1 := rfl
@[simp] theorem acquire_acquired : (s.acquire t m).acquired = s.next := rfl
@[simp] theorem acquire_calls : (s.acquire t m).calls = Function.update s.calls t .idle := rfl
@[simp] theorem acquire_guards : (s.acquire t m).guards =
    Function.update s.guards s.next (some ⟨t, .ok, .live, []⟩) := rfl

end Fields

omit [DecidableEq T] in
/-- One guard is given or changed. -/
theorem guard_update {s s' : Use D T} {g g' : GuardRef} {x x' : Guard T}
    (guards : s'.guards = Function.update s.guards g (some x)) (found : s'.guards g' = some x') :
    g' = g ∧ x' = x ∨ g' ≠ g ∧ s.guards g' = some x' := by
  rw [guards] at found
  by_cases same : g' = g
  · subst same
    simp only [Function.update_self, Option.some.injEq] at found
    exact .inl ⟨rfl, found.symm⟩
  · exact .inr ⟨same, by rwa [Function.update_of_ne same] at found⟩

end Use

variable [DecidableEq T]

def step (s : Use D T) : Act D T → Option (Use D T)
  | .lock t => if s.calls t = .idle then some (s.setCall t (.swap 0)) else none
  | .swap t =>
    match s.calls t with
    | .swap k =>
      match s.compareAndSwap false true with
      | (false, m) => some (s.acquire t m)
      | (true, m) => some ({ s with toMutex := m }.setCall t (.yielding k))
    | _ => none
  | .sched t =>
    match s.calls t with
    | .yielding k => some (s.setCall t (.yielded k))
    | _ => none
  | .next t =>
    match s.calls t with
    | .yielded k =>
      if k + 1 < POISON_RETRY_COUNT then some (s.setCall t (.swap (k + 1)))
      else some (s.giveGuard t .poisonError)
    | _ => none
  | .tryLock t =>
    if s.calls t = .idle then
      match s.compareAndSwap false true with
      | (false, m) => some (s.acquire t m)
      | (true, m) => some ({ s with toMutex := m }.giveGuard t .poisonError)
    else none
  | .intoInner t g =>
    if s.calls t = .idle then
      match s.guards g with
      | some ⟨caller, .poisonError, .live, releases⟩ =>
          some (s.setGuard g ⟨caller, .intoInner, .live, releases⟩)
      | _ => none
    else none
  | .derefMut t g data =>
    if s.calls t = .idle then
      match s.guards g with
      | some ⟨_, _, .live, _⟩ => some { s with data := data }
      | _ => none
    else none
  | .drop t g =>
    if s.calls t = .idle then
      match s.guards g with
      | some ⟨caller, returned, .live, releases⟩ =>
          some ((s.setGuard g ⟨caller, returned, .dropping, releases⟩).setCall t (.drop g))
      | _ => none
    else none
  | .dropSwap t =>
    match s.calls t with
    | .drop g =>
      (s.guards g).map fun x =>
        match s.compareAndSwap true false with
        | (true, m) => { s with toMutex := m }.setGuard g { x with releases := x.releases ++ [s.acquired] }
        | (false, m) => ({ s with toMutex := m }.setGuard g { x with status := .dropped }).setCall t .idle
    | _ => none

def system (D T : Type) [DecidableEq T] : Lts (Use D T) (Act D T) := ⟨step⟩

/-- A swap of a drop that finds the flag set. -/
theorem step_released {s : Use D T} {t : T} {g : GuardRef} {x : Guard T} (drops : s.calls t = .drop g)
    (found : s.guards g = some x) (set : s.lock = true) :
    step s (.dropSwap t) = some
      ({ s with lock := false }.setGuard g { x with releases := x.releases ++ [s.acquired] }) := by
  simp [step, drops, found, Mutex.compareAndSwap, set]

/-! ## What one step does -/

inductive Effect (s : Use D T) : Act D T → Use D T → Prop
  | lock {t} : s.calls t = .idle → Effect s (.lock t) (s.setCall t (.swap 0))
  | acquired {a t} : a = .tryLock t ∧ s.calls t = .idle ∨ (∃ k, a = .swap t ∧ s.calls t = .swap k) →
      s.lock = false → Effect s a (s.acquire t { s.toMutex with lock := true })
  | failed {t k} : s.calls t = .swap k → s.lock = true →
      Effect s (.swap t) (s.setCall t (.yielding k))
  | sched {t k} : s.calls t = .yielding k → Effect s (.sched t) (s.setCall t (.yielded k))
  | next {t k} : s.calls t = .yielded k → k + 1 < POISON_RETRY_COUNT →
      Effect s (.next t) (s.setCall t (.swap (k + 1)))
  | poisoned {a t} : a = .tryLock t ∧ s.calls t = .idle ∧ s.lock = true ∨
        (∃ k, a = .next t ∧ s.calls t = .yielded k ∧ ¬ k + 1 < POISON_RETRY_COUNT) →
      Effect s a (s.giveGuard t .poisonError)
  | intoInner {t g x} : s.calls t = .idle → s.guards g = some x → x.status = .live →
      x.returned = .poisonError →
      Effect s (.intoInner t g) (s.setGuard g { x with returned := .intoInner })
  | derefMut {t g x data} : s.calls t = .idle → s.guards g = some x → x.status = .live →
      Effect s (.derefMut t g data) { s with data := data }
  | drop {t g x} : s.calls t = .idle → s.guards g = some x → x.status = .live →
      Effect s (.drop t g) ((s.setGuard g { x with status := .dropping }).setCall t (.drop g))
  | released {t g x} : s.calls t = .drop g → s.guards g = some x → s.lock = true →
      Effect s (.dropSwap t)
        ({ s with lock := false }.setGuard g { x with releases := x.releases ++ [s.acquired] })
  | dropped {t g x} : s.calls t = .drop g → s.guards g = some x → s.lock = false →
      Effect s (.dropSwap t) ((s.setGuard g { x with status := .dropped }).setCall t .idle)

theorem effect_of_step {s s' : Use D T} {a : Act D T} (taken : step s a = some s') :
    Effect s a s' := by
  cases a with
  | lock t =>
      simp only [step, Option.ite_none_right_eq_some, Option.some.injEq] at taken
      obtain ⟨idle, rfl⟩ := taken
      exact .lock idle
  | swap t =>
      cases call : s.calls t with
      | swap k =>
          cases flag : s.lock with
          | false =>
              simp only [step, call, Mutex.compareAndSwap, flag, Option.some.injEq] at taken
              subst taken
              exact .acquired (.inr ⟨k, rfl, call⟩) flag
          | true =>
              simp only [step, call, Mutex.compareAndSwap, flag, Option.some.injEq] at taken
              subst taken
              exact .failed call flag
      | _ => simp [step, call] at taken
  | sched t =>
      cases call : s.calls t with
      | yielding k =>
          simp only [step, call, Option.some.injEq] at taken
          subst taken
          exact .sched call
      | _ => simp [step, call] at taken
  | next t =>
      cases call : s.calls t with
      | yielded k =>
          simp only [step, call] at taken
          split at taken
          · cases taken
            exact .next call ‹_›
          · cases taken
            exact .poisoned (.inr ⟨k, rfl, call, ‹_›⟩)
      | _ => simp [step, call] at taken
  | tryLock t =>
      simp only [step, Option.ite_none_right_eq_some] at taken
      obtain ⟨idle, taken⟩ := taken
      cases flag : s.lock with
      | false =>
          simp only [Mutex.compareAndSwap, flag, Option.some.injEq] at taken
          subst taken
          exact .acquired (.inl ⟨rfl, idle⟩) flag
      | true =>
          simp only [Mutex.compareAndSwap, flag, Option.some.injEq] at taken
          subst taken
          exact .poisoned (.inl ⟨rfl, idle, flag⟩)
  | intoInner t g =>
      simp only [step, Option.ite_none_right_eq_some] at taken
      obtain ⟨idle, taken⟩ := taken
      split at taken
      · next found =>
          cases taken
          exact .intoInner idle found rfl rfl
      · cases taken
  | derefMut t g data =>
      simp only [step, Option.ite_none_right_eq_some] at taken
      obtain ⟨idle, taken⟩ := taken
      split at taken
      · next found =>
          cases taken
          exact .derefMut idle found rfl
      · cases taken
  | drop t g =>
      simp only [step, Option.ite_none_right_eq_some] at taken
      obtain ⟨idle, taken⟩ := taken
      split at taken
      · next found =>
          cases taken
          exact .drop idle found rfl
      · cases taken
  | dropSwap t =>
      cases call : s.calls t with
      | drop g =>
          simp only [step, call, Option.map_eq_some_iff] at taken
          obtain ⟨x, found, rfl⟩ := taken
          cases flag : s.lock with
          | false =>
              simp only [Mutex.compareAndSwap, flag]
              exact .dropped call found flag
          | true =>
              simp only [Mutex.compareAndSwap, flag]
              exact .released call found flag
      | _ => simp [step, call] at taken

variable {s s' : Use D T} {a : Act D T} {t : T}

theorem Effect.calls_others (effect : Effect s a s') (other : t ≠ a.task) :
    s'.calls t = s.calls t := by
  cases effect with
  | acquired from_call =>
      rcases from_call with ⟨rfl, -⟩ | ⟨k, rfl, -⟩ <;> exact Function.update_of_ne other ..
  | poisoned from_call =>
      rcases from_call with ⟨rfl, -⟩ | ⟨k, rfl, -⟩ <;> exact Function.update_of_ne other ..
  | intoInner | derefMut | released => rfl
  | lock | failed | sched | next | drop | dropped => exact Function.update_of_ne other ..

theorem Effect.data_same (effect : Effect s a s') (unwritten : ∀ t g data, a ≠ .derefMut t g data) :
    s'.data = s.data := by
  cases effect with
  | derefMut => exact absurd rfl (unwritten _ _ _)
  | _ => rfl

end SimpleSched.Sync
