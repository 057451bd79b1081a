/-
# Sync.Counter -- a counter under a mutex, on the scheduler

The program of `test_mutex`, at any size: coroutines lock a mutex around a number,
read it, write it back one larger, and drop the guard; at any point between, also in
the critical section, they call into the scheduler.  `Scheduler::sched` in `lock` is
the one of `Runtime`.  A coroutine takes the steps of its calls itself, so on one
processor nothing runs between two steps of a release loop, and `Held` stands
(`Runtime.Quiescence` does the rest: what holds a guard has not ended).
-/
import SimpleSched.Runtime.History
import SimpleSched.Runtime.Quiescence
import SimpleSched.Sync.Exclusion

namespace SimpleSched.Sync

set_option autoImplicit false

open Theory
open SimpleSched.Runtime (CoroutineRefMut Sys Threads MAX_TOKEN_NUM OfRun)

variable {P : Type}

/-- The scheduler, the mutex, the increments written so far, and what each coroutine
has read under its guard and not yet written back. -/
structure Counting (P : Type) where
  sys : Sys P
  mutex : Use Nat CoroutineRefMut
  performed : Nat
  reads : CoroutineRefMut → Option Nat

inductive CountAct (P : Type)
  | runtime (a : Runtime.Act P)
  | mutex (p : P) (a : Act Nat CoroutineRefMut)
  /-- `*guard` is read, and assigned the value read plus one -/
  | read (p : P) (g : GuardRef)
  | write (p : P) (g : GuardRef)
  deriving DecidableEq

namespace Counting

def new (data : Nat) : Counting P := ⟨.init, .new data, 0, fun _ => none⟩

/-- The coroutine whose closure `p` executes. -/
def executing (s : Counting P) (p : P) : Option CoroutineRefMut :=
  match (s.sys.threads p).pc with
  | .exec c .user => some c
  | _ => none

/-- In a critical section. -/
def Critical (s : Counting P) (c : CoroutineRefMut) : Prop :=
  ∃ g < s.mutex.next, s.mutex.Holds c g

variable [DecidableEq P]

/-- What a step of the mutex asks of the scheduler: the loop of `lock` calls
`Scheduler::sched`. -/
def schedules (s : Counting P) (p : P) : Act Nat CoroutineRefMut → Option (Sys P)
  | .sched _ => Runtime.step s.sys (.sched p)
  | _ => some s.sys

def step (s : Counting P) : CountAct P → Option (Counting P)
  | .runtime a =>
    if (a.actor.bind s.executing).all (s.mutex.calls · = .idle) then
      (Runtime.step s.sys a).map fun sys => { s with sys := sys }
    else none
  | .mutex p a =>
    if s.executing p = some a.task then
      (Sync.step s.mutex a).bind fun m => (s.schedules p a).map fun sys =>
        { s with
          sys := sys, mutex := m
          reads := match a with
            | .drop c _ => Function.update s.reads c none
            | _ => s.reads }
    else none
  | .read p g =>
    (s.executing p).bind fun c =>
      match s.mutex.calls c, s.mutex.guards g with
      | .idle, some ⟨_, _, .live, _⟩ =>
          some { s with reads := Function.update s.reads c (some s.mutex.data) }
      | _, _ => none
  | .write p g =>
    (s.executing p).bind fun c => (s.reads c).bind fun v =>
      (Sync.step s.mutex (.derefMut c g (v + 1))).map fun m =>
        { s with
          mutex := m, performed := s.performed + 1, reads := Function.update s.reads c none }

end Counting

def counting (P : Type) [DecidableEq P] : Lts (Counting P) (CountAct P) := ⟨Counting.step⟩

/-! ## The programs -/

/-- A closure returns, or panics, outside its critical sections; `wait_event` panics
on a full slab. -/
def EndsOutside (s : Counting P) : Runtime.Act P → Prop
  | .ret p | .panic p => ∀ c ∈ s.executing p, ¬ s.Critical c
  | .waitEvent p _ _ _ => (s.sys.threads p).slabs.count = MAX_TOKEN_NUM →
      ∀ c ∈ s.executing p, ¬ s.Critical c
  | _ => True

/-- A run of `Scheduler::run` whose coroutines use the number only under their own
guards, and the mutex only through `lock` and the drop of these. -/
def Increments (main : P) (s : Counting P) : CountAct P → Prop
  | .runtime a => OfRun main s.sys a ∧ EndsOutside s a
  | .mutex _ (.derefMut _ _ _) => False
  | .mutex _ (.drop c g) => s.mutex.Holds c g
  | .mutex _ a => LocksOnly s.mutex a
  | .read p g | .write p g => ∀ c ∈ s.executing p, s.mutex.Holds c g

instance (s : Counting P) (c : CoroutineRefMut) : Decidable (s.Critical c) :=
  inferInstanceAs (Decidable (∃ g, g < s.mutex.next ∧ s.mutex.Holds c g))

instance (s : Counting P) : ∀ a, Decidable (EndsOutside s a)
  | .ret p | .panic p => inferInstanceAs (Decidable (∀ c ∈ s.executing p, ¬ s.Critical c))
  | .waitEvent p _ _ _ => inferInstanceAs (Decidable
      ((s.sys.threads p).slabs.count = MAX_TOKEN_NUM → ∀ c ∈ s.executing p, ¬ s.Critical c))
  | .spawn _ | .spawnInner _ | .processorSpawn _ | .sched _ | .block _ | .register _ _ | .enter _
  | .leave _ | .poll _ _ | .pollErr _ | .setHolds _ _ _ | .tau _ => .isTrue trivial

instance [Fintype P] [DecidableEq P] (main : P) (s : Counting P) :
    ∀ a, Decidable (Increments main s a)
  | .runtime a => inferInstanceAs (Decidable (OfRun main s.sys a ∧ EndsOutside s a))
  | .mutex _ (.derefMut _ _ _) | .mutex _ (.tryLock _) => .isFalse id
  | .mutex _ (.drop c g) => inferInstanceAs (Decidable (s.mutex.Holds c g))
  | .mutex _ (.next t) => inferInstanceAs (Decidable (LocksOnly s.mutex (.next t)))
  | .mutex _ (.lock _) | .mutex _ (.swap _) | .mutex _ (.sched _) | .mutex _ (.intoInner _ _)
  | .mutex _ (.dropSwap _) => .isTrue trivial
  | .read p g | .write p g => inferInstanceAs (Decidable (∀ c ∈ s.executing p, s.mutex.Holds c g))

/-! ## What a step does to the guards of the tasks -/

section Holds

variable {D T : Type} [DecidableEq T] {s s' : Use D T} {a : Act D T} {t : T} {g : GuardRef}

/-- A guard that is held is held until its drop begins. -/
theorem Use.Holds.kept (holds : s.Holds t g) (held : Held s) (effect : Effect s a s') :
    s'.Holds t g ∨ ∃ u, a = .drop u g := by
  obtain ⟨x, found, caller, ok, live⟩ := holds
  have old : g ≠ s.next := Nat.ne_of_lt (held.below found)
  cases effect with
  | lock | failed | sched | next | derefMut => exact .inl ⟨x, found, caller, ok, live⟩
  | acquired | poisoned => exact .inl ⟨x, (Function.update_of_ne old ..).trans found, caller, ok, live⟩
  | intoInner _ other _ poisoned => simp [held.returned _ _ other] at poisoned
  | @drop u g' =>
      by_cases same : g = g'
      · exact .inr ⟨u, same ▸ rfl⟩
      · exact .inl ⟨x, (Function.update_of_ne same ..).trans found, caller, ok, live⟩
  | released drops | dropped drops => exact absurd drops (held.not_drop found live)

/-- A guard that is held was held, or the task has just acquired it. -/
theorem Use.Holds.before (holds : s'.Holds t g) (within : LocksOnly s a) (effect : Effect s a s') :
    s.Holds t g ∨ a = .swap t := by
  obtain ⟨x, found, caller, ok, live⟩ := holds
  cases effect with
  | lock | failed | sched | next | derefMut => exact .inl ⟨x, found, caller, ok, live⟩
  | acquired from_call =>
      rcases Use.guard_update (s := s) rfl found with ⟨rfl, rfl⟩ | ⟨-, before⟩
      · rcases from_call with ⟨rfl, -⟩ | ⟨k, rfl, -⟩
        · cases within
        · exact .inr (caller ▸ rfl)
      · exact .inl ⟨x, before, caller, ok, live⟩
  | poisoned | intoInner | drop | dropped =>
      rcases Use.guard_update (s := s) rfl found with ⟨rfl, rfl⟩ | ⟨-, before⟩
      · first | cases ok | cases live
      · exact .inl ⟨x, before, caller, ok, live⟩
  | released _ before =>
      rcases Use.guard_update (s := s) rfl found with ⟨rfl, rfl⟩ | ⟨-, before⟩
      · exact .inl ⟨_, before, caller, ok, live⟩
      · exact .inl ⟨x, before, caller, ok, live⟩

omit [DecidableEq T] in
/-- One task holds, and one guard. -/
theorem Held.one_holder {u : T} {g' : GuardRef} (held : Held s) (holds : s.Holds t g)
    (holds' : s.Holds u g') : t = u := by
  obtain ⟨x, found, rfl, ok, live⟩ := holds
  obtain ⟨x', found', rfl, ok', live'⟩ := holds'
  obtain rfl := held.exclusion.one g g' ⟨x, found, ok, live⟩ ⟨x', found', ok', live'⟩
  obtain rfl := Option.some.inj (found.symm.trans found')
  rfl

end Holds

/-! ## The invariant -/

/-- It has run, and its closure has not ended. -/
def Unfinished (s : Sys P) (c : CoroutineRefMut) : Prop :=
  1 ≤ (s.coros c).resumed ∧ (s.coros c).ended = 0

structure Sound (data : Nat) (s : Counting (Threads 1)) : Prop where
  reached : (Runtime.system (Threads 1)).Reach (OfRun none) .init s.sys
  held : Held s.mutex
  alone : ∀ c g, s.mutex.calls c = .drop g → s.executing none = some c
  grown : s.mutex.data = data + s.performed
  reads : ∀ c v, s.reads c = some v → v = s.mutex.data ∧ ∃ g, s.mutex.Holds c g
  unfinished : ∀ c g, s.mutex.Holds c g → Unfinished s.sys c

theorem Sound.init (data : Nat) : Sound data (.new data) where
  reached := .start
  held := .init data
  alone _ _ drops := by cases drops
  grown := rfl
  reads _ _ read := by cases read
  unfinished := by
    rintro c g ⟨x, found, -⟩
    cases found

section Steps

open SimpleSched.Runtime (Registers)

variable {data : Nat} {s : Counting (Threads 1)} {sys : Sys (Threads 1)} {c : CoroutineRefMut}

theorem executing_pc (executes : s.executing none = some c) :
    (s.sys.threads none).pc = .exec c .user := by
  unfold Counting.executing at executes
  split at executes
  · rename_i at_pc
    rw [at_pc, Option.some.inj executes]
  · cases executes

/-- What holds a guard has not ended after a step of the scheduler either. -/
theorem Sound.unfinished_step (sound : Sound data s) {a : Runtime.Act (Threads 1)}
    (taken : Runtime.step s.sys a = some sys) (outside : EndsOutside s a) {g : GuardRef}
    (holds : s.mutex.Holds c g) : Unfinished sys c := by
  have unfinished := sound.unfinished c g holds
  refine ⟨unfinished.1.trans (Runtime.resumed_of_step sound.reached taken), ?_⟩
  rcases Runtime.ended_of_step (c := c) sound.reached taken with same | ⟨-, p, at_pc, ends⟩
  · exact same.trans unfinished.2
  · have executes : c ∈ s.executing p := by simp [Counting.executing, at_pc]
    have critical : s.Critical c := by
      obtain ⟨x, found, -⟩ := id holds
      exact ⟨g, sound.held.below found, holds⟩
    cases a with
    | ret q | panic q =>
        obtain rfl : q = p := ends
        exact absurd critical (outside c executes)
    | waitEvent q =>
        obtain ⟨rfl, full⟩ := ends
        exact absurd critical (outside full c executes)
    | _ => cases ends

theorem Sound.runtime (sound : Sound data s) {a : Runtime.Act (Threads 1)}
    (taken : Runtime.step s.sys a = some sys)
    (idle : (a.actor.bind s.executing).all (s.mutex.calls · = .idle))
    (run : OfRun none s.sys a) (outside : EndsOutside s a) : Sound data { s with sys := sys } where
  reached := .step sound.reached run taken
  held := sound.held
  alone c g drops := by
    have executes := sound.alone c g drops
    obtain ⟨place, inv, -⟩ := OfRun.stopped sound.reached
    obtain ⟨place', effect⟩ := Runtime.effect_of_step (Registers.reach sound.reached) inv taken
    have other : a.actor ≠ some none := fun actor => by
      simp only [actor, Option.bind_some, executes, Option.all_some, decide_eq_true_eq] at idle
      exact Call.noConfusion (idle.symm.trans drops)
    obtain ⟨l, same⟩ := effect.others other
    simp only [Counting.executing, same] at executes ⊢
    exact executes
  grown := sound.grown
  reads := sound.reads
  unfinished _ _ holds := sound.unfinished_step taken outside holds

theorem schedules_cases {P : Type} [DecidableEq P] {s : Counting P} {p : P} {sys : Sys P}
    {a : Act Nat CoroutineRefMut} (scheduled : s.schedules p a = some sys) :
    sys = s.sys ∨ a = .sched a.task ∧ Runtime.step s.sys (.sched p) = some sys := by
  cases a with
  | sched t => exact .inr ⟨rfl, scheduled⟩
  | _ => exact .inl (Option.some.inj scheduled).symm

theorem Sound.mutex (sound : Sound data s) {a : Act Nat CoroutineRefMut}
    {m : Use Nat CoroutineRefMut} {reads : CoroutineRefMut → Option Nat}
    (executes : s.executing none = some a.task) (taken : Sync.step s.mutex a = some m)
    (scheduled : s.schedules none a = some sys) (meets : Increments none s (.mutex none a))
    (forgets : ∀ c v, reads c = some v → s.reads c = some v ∧ ∀ g, a ≠ .drop c g) :
    Sound data { s with sys := sys, mutex := m, reads := reads } := by
  have effect := effect_of_step taken
  have within : LocksOnly s.mutex a := by
    cases a with
    | derefMut => cases meets
    | drop => trivial
    | _ => exact meets
  have drops_alone : DropsAlone s.mutex a := by
    cases a with
    | swap t =>
        intro _ u g drops
        obtain rfl : u = t := Option.some.inj ((sound.alone u g drops).symm.trans executes)
        simp [Sync.step, drops] at taken
    | _ => trivial
  have held := sound.held.step within drops_alone effect
  refine ⟨?_, held, ?_, ?_, ?_, ?_⟩
  · rcases schedules_cases scheduled with rfl | ⟨-, yielded⟩
    · exact sound.reached
    · have run : OfRun none s.sys (.sched none) := .inl trivial
      exact .step sound.reached run yielded
  · intro u g drops
    -- what is in a drop now is what took the step: the others are not executing
    have mine : u = a.task := by
      refine Classical.byContradiction fun other => other ?_
      have before := sound.alone u g ((effect.calls_others other).symm.trans drops)
      exact Option.some.inj (before.symm.trans executes)
    rcases schedules_cases scheduled with rfl | ⟨yields, -⟩
    · exact mine ▸ executes
    · rw [yields] at effect
      cases effect with
      | sched => simp [mine] at drops
      | acquired from_call => rcases from_call with ⟨eq, -⟩ | ⟨k, eq, -⟩ <;> cases eq
      | poisoned from_call => rcases from_call with ⟨eq, -⟩ | ⟨k, eq, -⟩ <;> cases eq
  · refine (effect.data_same ?_).trans sound.grown
    intro t g data written
    rw [written] at meets
    cases meets
  · intro c v read
    obtain ⟨before, kept⟩ := forgets c v read
    obtain ⟨value, g, holds⟩ := sound.reads c v before
    have same : m.data = s.mutex.data := effect.data_same fun t g data written => by
      rw [written] at meets
      cases meets
    refine ⟨value.trans same.symm, g, (holds.kept sound.held effect).resolve_right ?_⟩
    rintro ⟨u, rfl⟩
    obtain rfl := sound.held.one_holder holds meets
    exact kept g rfl
  · intro c g holds
    rcases holds.before within effect with before | rfl
    · rcases schedules_cases scheduled with rfl | ⟨-, yielded⟩
      · exact sound.unfinished c g before
      · exact sound.unfinished_step yielded trivial before
    · obtain rfl := Option.some.inj scheduled
      exact Runtime.executing_life sound.reached (executing_pc executes)

theorem Sound.read (sound : Sound data s) {g : GuardRef} (holds : s.mutex.Holds c g) :
    Sound data { s with reads := Function.update s.reads c (some s.mutex.data) } where
  __ := sound
  reads d v read := by
    by_cases mine : d = c
    · subst mine
      simp only [Function.update_self, Option.some.injEq] at read
      exact ⟨read.symm, g, holds⟩
    · simp only [Function.update_of_ne mine] at read
      exact sound.reads d v read

/-- The value written is one more than the value in the mutex: only the holder has
written since it was read. -/
theorem Sound.write (sound : Sound data s) {g : GuardRef} {v : Nat} {m : Use Nat CoroutineRefMut}
    (holds : s.mutex.Holds c g) (read : s.reads c = some v)
    (taken : Sync.step s.mutex (.derefMut c g (v + 1)) = some m) :
    Sound data { s with
      mutex := m, performed := s.performed + 1, reads := Function.update s.reads c none } := by
  have effect := effect_of_step taken
  have held := sound.held.step (a := .derefMut c g (v + 1)) trivial trivial effect
  cases effect with
  | acquired from_call => rcases from_call with ⟨eq, -⟩ | ⟨k, eq, -⟩ <;> cases eq
  | poisoned from_call => rcases from_call with ⟨eq, -⟩ | ⟨k, eq, -⟩ <;> cases eq
  | derefMut =>
      refine ⟨sound.reached, held, sound.alone, ?_, ?_, sound.unfinished⟩
      · have value := (sound.reads c v read).1
        have grown := sound.grown
        simp only
        omega
      · intro d v' read'
        by_cases mine : d = c
        · simp [mine] at read'
        · simp only [Function.update_of_ne mine] at read'
          obtain ⟨-, g', holds'⟩ := sound.reads d v' read'
          exact absurd (sound.held.one_holder holds' holds) mine

theorem Sound.step (sound : Sound data s) {a : CountAct (Threads 1)} {s' : Counting (Threads 1)}
    (meets : Increments none s a) (taken : s.step a = some s') : Sound data s' := by
  have only (p : Threads 1) : p = none := by
    cases p with
    | none => rfl
    | some i => exact i.elim0
  cases a with
  | runtime a =>
      simp only [Counting.step, Option.ite_none_right_eq_some, Option.map_eq_some_iff] at taken
      obtain ⟨idle, sys, taken, rfl⟩ := taken
      exact sound.runtime taken idle meets.1 meets.2
  | mutex p a =>
      obtain rfl := only p
      simp only [Counting.step, Option.ite_none_right_eq_some, Option.bind_eq_some_iff,
        Option.map_eq_some_iff] at taken
      obtain ⟨executes, m, taken, sys, scheduled, rfl⟩ := taken
      refine sound.mutex executes taken scheduled meets ?_
      intro c v read
      cases a with
      | drop t g =>
          by_cases mine : c = t
          · simp [mine] at read
          · simp only [Function.update_of_ne mine] at read
            exact ⟨read, fun g' same => mine (by cases same; rfl)⟩
      | _ => exact ⟨read, by simp⟩
  | read p g =>
      obtain rfl := only p
      simp only [Counting.step, Option.bind_eq_some_iff] at taken
      obtain ⟨c, executes, taken⟩ := taken
      split at taken
      · cases taken
        exact sound.read (meets c executes)
      · cases taken
  | write p g =>
      obtain rfl := only p
      simp only [Counting.step, Option.bind_eq_some_iff, Option.map_eq_some_iff] at taken
      obtain ⟨c, executes, v, read, m, taken, rfl⟩ := taken
      exact sound.write (meets c executes) read taken

theorem Sound.reach (reached : (counting (Threads 1)).Reach (Increments none) (.new data) s) :
    Sound data s :=
  reached.invariant (.init data) fun _ _ _ _ sound meets taken => sound.step meets taken

/-- Once `schedule` has returned no drop is under way, so what has the flag set is a
live guard. -/
theorem Sound.flag (sound : Sound data s)
    (returned : (s.sys.threads none).pc = .done ∨ (s.sys.threads none).pc = .failed) :
    s.mutex.lock = true ↔ ∃ c, s.Critical c := by
  refine ⟨?_, fun ⟨c, g, _, x, found, _, _, live⟩ => (sound.held.live found live).1⟩
  intro set
  obtain ⟨x, found, undropped⟩ := sound.held.set set
  cases status : x.status with
  | live =>
      exact ⟨x.caller, _, sound.held.below found, x, found, rfl, sound.held.returned _ x found, status⟩
  | dropping =>
      obtain ⟨t, drops⟩ := (sound.held.drops _).2 ⟨x, found, status⟩
      have at_pc := executing_pc (sound.alone t _ drops)
      rcases returned with left | left <;> simp [left] at at_pc
  | dropped => exact absurd status undropped

/-- Where `schedule` left through its `break` every coroutine has ended, and none is
in a critical section. -/
theorem Sound.not_critical (sound : Sound data s) (left : (s.sys.threads none).pc = .done) :
    ¬ s.Critical c := by
  rintro ⟨g, -, holds⟩
  have unfinished := sound.unfinished c g holds
  obtain ⟨place, inv, balanced, stopped⟩ := OfRun.stopped sound.reached
  have quiescent := stopped.quiescent (Registers.reach sound.reached) inv balanced fun p => by
    cases p with
    | none => exact left
    | some i => exact i.elim0
  by_cases born : c < s.sys.next
  · have ended := (quiescent.coroutine c born).2.1
    simp [unfinished.2] at ended
  · have ran := unfinished.1
    rw [Runtime.unborn_of_reach sound.reached (Nat.le_of_not_lt born)] at ran
    exact absurd ran (by simp [Runtime.Coroutine.unborn])

/-- When `Scheduler::run(1)` returns, the number has grown by the increments performed.
The flag is set only if a coroutine is left in its critical section, which takes an
error of `run_once`. -/
theorem locked_updates_kept
    (reached : (counting (Threads 1)).Reach (Increments none) (.new data) s)
    (returned : (s.sys.threads none).pc = .done ∨ (s.sys.threads none).pc = .failed) :
    s.mutex.data = data + s.performed ∧ (s.mutex.lock = true ↔ ∃ c, s.Critical c) ∧
      ((s.sys.threads none).pc = .done → s.mutex.lock = false) := by
  have sound := Sound.reach reached
  refine ⟨sound.grown, sound.flag returned, ?_⟩
  intro left
  apply Bool.eq_false_iff.2
  intro set
  obtain ⟨c, critical⟩ := (sound.flag returned).1 set
  exact sound.not_critical left critical

end Steps

/-- The thread goes on by itself. -/
def goesOn (n : Nat) : List (CountAct (Threads 1)) := List.replicate n (.runtime (.tau none))

/-- A coroutine yields in its critical section to one that it spawns, which finds the mutex
locked and tries again. -/
def yieldedInside : List (CountAct (Threads 1)) :=
  .flatten [
    [.runtime (.spawn none), .runtime (.spawnInner none), .runtime (.enter none)], goesOn 5,
    [.mutex none (.lock 0), .mutex none (.swap 0), .read none 0, .runtime (.spawn none),
      .runtime (.spawnInner none)],
    goesOn 4, [.mutex none (.lock 1), .mutex none (.swap 1), .mutex none (.sched 1)], goesOn 5,
    [.write none 0, .mutex none (.drop 0 0), .mutex none (.dropSwap 0), .mutex none (.dropSwap 0),
      .runtime (.ret none)],
    goesOn 6,
    [.mutex none (.next 1), .mutex none (.swap 1), .read none 1, .write none 1,
      .mutex none (.drop 1 1), .mutex none (.dropSwap 1), .mutex none (.dropSwap 1),
      .runtime (.ret none)],
    goesOn 7]

theorem yielded_inside_kept : ∃ s, (counting (Threads 1)).exec (.new 41) yieldedInside = some s ∧
    s.mutex.data = 43 ∧ s.mutex.lock = false := by
  have meets : (counting (Threads 1)).Meets (Increments none) (.new 41) yieldedInside := by
    decide +kernel
  have returns : ((counting (Threads 1)).exec (.new 41) yieldedInside).any
      (fun s => (s.sys.threads none).pc = .done ∧ s.performed = 2) = true := by decide +kernel
  obtain ⟨s, run, at_end⟩ := (Option.any_eq_true _ _).1 returns
  obtain ⟨left, performed⟩ := of_decide_eq_true at_end
  obtain ⟨grown, -, cleared⟩ := locked_updates_kept (.of_exec run meets) (.inl left)
  exact ⟨s, run, by rw [grown, performed], cleared left⟩

/-- `run_once` fails while the one coroutine waits for descriptor 5 in its critical
section. -/
def failedInside : List (CountAct (Threads 1)) :=
  [.runtime (.spawn none), .runtime (.spawnInner none), .runtime (.enter none), .runtime (.tau none),
    .runtime (.tau none), .runtime (.tau none), .runtime (.tau none), .runtime (.tau none),
    .mutex none (.lock 0), .mutex none (.swap 0), .read none 0,
    .runtime (.waitEvent none 5 Mio.EventSet.readable 0), .runtime (.register none true),
    .runtime (.tau none), .runtime (.tau none), .runtime (.tau none), .runtime (.tau none),
    .runtime (.tau none), .runtime (.pollErr none)]

/-- `run` then returns with the flag set. -/
theorem failed_inside_locked : ¬ ∀ s : Counting (Threads 1),
    (counting (Threads 1)).Reach (Increments none) (.new 0) s →
      (s.sys.threads none).pc = .done ∨ (s.sys.threads none).pc = .failed →
      s.mutex.data = 0 + s.performed ∧ s.mutex.lock = false := by
  intro always
  have meets : (counting (Threads 1)).Meets (Increments none) (.new 0) failedInside := by
    decide +kernel
  have returns : ((counting (Threads 1)).exec (.new 0) failedInside).any
      (fun s => (s.sys.threads none).pc = .failed ∧ s.mutex.lock = true) = true := by decide +kernel
  obtain ⟨s, run, at_end⟩ := (Option.any_eq_true _ _).1 returns
  obtain ⟨failed, set⟩ := of_decide_eq_true at_end
  exact Bool.false_ne_true ((always s (.of_exec run meets) (.inr failed)).2.symm.trans set)

end SimpleSched.Sync
