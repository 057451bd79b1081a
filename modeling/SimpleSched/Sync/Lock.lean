/-
# Sync.Lock -- the mutex as a lock

`seen` is what a step of the mutex does to the lock behind it: the swap that sets the
flag takes it for the guard that is returned, a write through a guard writes, and the
swap of a drop that clears the flag gives it back.  The other swaps, the rounds of
`lock` and the end of a drop are not seen.

Where acquisitions wait for drops the mutex refines a lock (`mutex_refines_lock`); the
rest of its runs are those of `Sync.Exclusion`, in which a drop clears the flag under
another guard.  On one processor nothing runs between the swaps of a drop, so there
the condition is met by every run (`sections_serial`): whatever the coroutines do in
their critical sections, yields and waits too, the sections are serial.
-/
import SimpleSched.Runtime.Polling
import SimpleSched.Sync.Exclusion
import SimpleSched.Sync.Truth
import SimpleSched.Theory.Lock

namespace SimpleSched.Sync

set_option autoImplicit false

open Theory
open SimpleSched.Runtime (CoroutineRefMut Sys Threads one_thread)

variable {D T : Type}

/-- The lock behind the mutex: the flag and the acquisition in force. -/
def Use.behind (s : Use D T) : Lock D GuardRef :=
  ⟨s.data, if s.lock = true then some s.acquired else none⟩

/-- What a step does to it. -/
def Use.seen (s : Use D T) : Act D T → Option (Lock.Label D GuardRef)
  | .swap _ | .tryLock _ => if s.lock = false then some (.acquired s.next s.data) else none
  | .derefMut _ g data => some (.wrote g data)
  | .dropSwap _ => if s.lock = true then some (.released s.acquired) else none
  | _ => none

/-- In the loop of a drop. -/
def Call.InDrop : Call → Bool
  | .drop _ => true
  | _ => false

theorem Call.inDrop_false {call : Call} : call.InDrop = false ↔ ∀ g, call ≠ .drop g := by
  cases call <;> simp [InDrop]

instance (s : Use D T) : ∀ a, Decidable (LocksOnly s a)
  | .next t => inferInstanceAs (Decidable (LocksOnly s (.next t)))
  | .tryLock _ => .isFalse id
  | .lock _ | .swap _ | .sched _ | .intoInner _ _ | .derefMut _ _ _ | .drop _ _ | .dropSwap _ =>
    .isTrue trivial

instance [Fintype T] (s : Use D T) : ∀ a, Decidable (DropsAlone s a)
  | .swap _ => decidable_of_iff (s.lock = false → ∀ u, (s.calls u).InDrop = false)
      (by simp only [DropsAlone, Call.inDrop_false])
  | .lock _ | .sched _ | .next _ | .tryLock _ | .intoInner _ _ | .derefMut _ _ _ | .drop _ _
  | .dropSwap _ => .isTrue trivial

instance [Fintype T] (s : Use D T) (a : Act D T) : Decidable (Orderly s a) :=
  inferInstanceAs (Decidable (_ ∧ _))

section Refines

variable [DecidableEq T] [DecidableEq D] {s s' : Use D T} {a : Act D T}

omit [DecidableEq T] in
/-- A step that is not seen leaves the lock. -/
theorem Use.behind_unseen (unseen : s.seen a = none) (same : s'.behind = s.behind) :
    (lock D GuardRef).exec s.behind (s.seen a).toList = some s'.behind := by
  rw [unseen, same]
  rfl

/-- One step of the mutex is one of the lock, or none. -/
theorem Held.behind (held : Held s) (effect : Effect s a s') :
    (lock D GuardRef).exec s.behind (s.seen a).toList = some s'.behind := by
  cases effect with
  | acquired from_call clear =>
      have sees : s.seen a = some (.acquired s.next s.data) := by
        rcases from_call with ⟨rfl, -⟩ | ⟨k, rfl, -⟩ <;> exact if_pos clear
      rw [sees, Option.toList_some, Lts.exec_singleton]
      simp [lock, Lock.step, Use.behind, clear, Use.acquire, Use.giveGuard, Use.setCall, Use.setGuard]
  | failed _ set => exact Use.behind_unseen (if_neg (by simp [set])) rfl
  | poisoned from_call =>
      have unseen : s.seen a = none := by
        rcases from_call with ⟨rfl, -, set⟩ | ⟨k, rfl, -⟩
        · exact if_neg (by simp [set])
        · rfl
      exact Use.behind_unseen unseen rfl
  | derefMut _ found live =>
      obtain ⟨set, mine, -⟩ := held.live found live
      rw [show s.seen (.derefMut _ _ _) = some (.wrote _ _) from rfl, Option.toList_some,
        Lts.exec_singleton]
      simp [lock, Lock.step, Use.behind, set, mine]
  | released _ _ set =>
      rw [show s.seen (.dropSwap _) = some (.released s.acquired) from if_pos set,
        Option.toList_some, Lts.exec_singleton]
      simp [lock, Lock.step, Use.behind, set, Use.setGuard]
  | dropped _ _ clear => exact Use.behind_unseen (if_neg (by simp [clear])) rfl
  | lock | sched | next | intoInner | drop => exact Use.behind_unseen rfl rfl

/-- Where acquisitions wait for drops, the mutex does what a lock does. -/
def behaves (D T : Type) [DecidableEq T] [DecidableEq D] :
    Simulation (system D T) (lock D GuardRef) Orderly Use.seen where
  Rel s t := Held s ∧ t = s.behind
  step := by
    rintro s s' a t ⟨held, rfl⟩ meets taken
    have effect := effect_of_step taken
    exact ⟨s'.behind, held.behind effect, held.step meets.1 meets.2 effect, rfl⟩

/-- What is seen of a run is a run of the lock, and serial. -/
theorem mutex_refines_lock {data : D} {s : Use D T × List (Lock.Label D GuardRef)}
    (reached : ((system D T).traced Use.seen).Reach (fun s a => Orderly s.1 a) (.new data, []) s) :
    (lock D GuardRef).exec (.free data) s.2 = some s.1.behind ∧ Serial data s.1.behind s.2 := by
  have start : (behaves D T).Rel (.new data) (.free data) := ⟨.init data, rfl⟩
  obtain ⟨t, ran, -, rfl⟩ := (behaves D T).run start reached
  exact ⟨ran, serial_of_exec ran⟩

end Refines

/-- One task has its section while the other goes a round, and then that one. -/
def oneAfterOther : List (Act Nat Bool) :=
  [.lock false, .swap false, .lock true, .swap true, .derefMut false 0 5, .sched true, .drop false 0,
    .dropSwap false, .dropSwap false, .next true, .swap true, .derefMut true 1 6, .derefMut true 1 7]

theorem one_after_other_refines :
    ∃ s, ((system Nat Bool).traced Use.seen).Reach (fun s a => Orderly s.1 a) (.new 4, []) s ∧
      s.2 = [.acquired 0 4, .wrote 0 5, .released 0, .acquired 1 5, .wrote 1 6, .wrote 1 7] ∧
      (lock Nat GuardRef).exec (.free 4) s.2 = some s.1.behind ∧ Serial 4 s.1.behind s.2 := by
  have meets : ((system Nat Bool).traced Use.seen).Meets (fun s a => Orderly s.1 a) (.new 4, [])
      oneAfterOther := by
    decide +kernel
  have sees : (((system Nat Bool).traced Use.seen).exec (.new 4, []) oneAfterOther).any
      (fun s => s.2 =
        [.acquired 0 4, .wrote 0 5, .released 0, .acquired 1 5, .wrote 1 6, .wrote 1 7]) = true := by
    decide +kernel
  obtain ⟨s, run, seen⟩ := (Option.any_eq_true _ _).1 sees
  have reached := Lts.Reach.of_exec run meets
  exact ⟨s, reached, of_decide_eq_true seen, mutex_refines_lock reached⟩

/-! ## On one processor -/

/-- The mutex is used through `lock` and the drop of its guards, and no `lock` runs out
of rounds. -/
def LocksInTime {P : Type} (s : Locking D P) : LockAct D P → Prop
  | .mutex _ a => LocksOnly s.mutex a
  | _ => True

/-- What a step does to the lock behind the mutex. -/
def Locking.seen {P : Type} (s : Locking D P) : LockAct D P → Option (Lock.Label D GuardRef)
  | .mutex _ a => s.mutex.seen a
  | _ => none

/-- A coroutine in a drop is the one that is executed. -/
structure Steady (s : Locking D (Threads 1)) : Prop where
  held : Held s.mutex
  drops : ∀ c g, s.mutex.calls c = .drop g → s.executing none = some c

section OneProcessor

variable {s s' : Locking D (Threads 1)} {m : Use D CoroutineRefMut} {a : Act D CoroutineRefMut}
  {data : D}

theorem Steady.new (data : D) : Steady (.new data) where
  held := .init data
  drops _ _ drops := by cases drops

/-- Where the executed coroutine is in no call, none is in a drop. -/
theorem Steady.no_drop (steady : Steady s) (free : s.free none = true) (c : CoroutineRefMut)
    (g : GuardRef) : s.mutex.calls c ≠ .drop g := by
  intro drops
  have executes := steady.drops c g drops
  simp [Locking.free, executes, drops] at free

/-- Only the executed coroutine swaps, and no drop but its own could be under way. -/
theorem Steady.alone (steady : Steady s) (executes : s.executing none = some a.task)
    (taken : Sync.step s.mutex a = some m) : DropsAlone s.mutex a := by
  cases a with
  | swap t =>
      intro _ u g drops
      obtain rfl : u = t := Option.some.inj ((steady.drops u g drops).symm.trans executes)
      simp [Sync.step, drops] at taken
  | _ => trivial

theorem Steady.schedule (steady : Steady s) {a : Runtime.Act (Threads 1)}
    (taken : s.schedule a = some s') : Steady s' := by
  have mutex := schedule_some taken
  refine ⟨mutex ▸ steady.held, ?_⟩
  intro c g drops
  rw [mutex] at drops
  simp only [Locking.schedule, Option.ite_none_right_eq_some, Option.map_eq_some_iff] at taken
  obtain ⟨free, sys, stepped, rfl⟩ := taken
  cases actor : a.actor with
  | some p =>
      obtain rfl := one_thread p
      rw [actor, Option.all_some] at free
      exact absurd drops (steady.no_drop free c g)
  | none =>
      cases a with
      | setHolds fd interest b =>
          cases stepped
          exact steady.drops c g drops
      | _ => cases actor

theorem Steady.panics (steady : Steady s) {p : Threads 1} (taken : s.panics p = some s') :
    Steady s' := by
  simp only [Locking.panics, Option.ite_none_right_eq_some, Option.map_eq_some_iff] at taken
  obtain ⟨-, c, -, rfl⟩ := taken
  exact ⟨steady.held, steady.drops⟩

theorem Steady.runtime (steady : Steady s) {a : Runtime.Act (Threads 1)}
    (taken : s.step (.runtime a) = some s') : Steady s' := by
  cases a with
  | waitEvent p fd interest token =>
      simp only [Locking.step] at taken
      split at taken
      · obtain ⟨t, panicked, rfl⟩ := Option.map_eq_some_iff.mp taken
        have after := steady.panics panicked
        exact ⟨after.held, after.drops⟩
      · exact steady.schedule taken
  | panic p =>
      simp only [Locking.step, Option.ite_none_right_eq_some] at taken
      exact steady.schedule taken.2
  | _ => exact steady.schedule taken

theorem Steady.mutex (steady : Steady s) {sys : Sys (Threads 1)}
    (executes : s.executing none = some a.task) (within : LocksOnly s.mutex a)
    (taken : Sync.step s.mutex a = some m) (yields : s.yields none a = some sys) :
    Steady { s with sys := sys, mutex := m } := by
  have effect := effect_of_step taken
  refine ⟨steady.held.step within (steady.alone executes taken) effect, ?_⟩
  intro c g drops
  have mine : c = a.task := by
    by_cases other : c = a.task
    · exact other
    · have before := (effect.calls_others other).symm.trans drops
      exact Option.some.inj ((steady.drops c g before).symm.trans executes)
  cases a with
  | sched t =>
      obtain rfl : c = t := mine
      cases effect with
      | sched => simp at drops
      | acquired from_call => rcases from_call with ⟨eq, -⟩ | ⟨k, eq, -⟩ <;> cases eq
      | poisoned from_call => rcases from_call with ⟨eq, -⟩ | ⟨k, eq, -⟩ <;> cases eq
  | _ =>
      cases yields
      rw [mine]
      exact executes

variable [DecidableEq D]

/-- On one processor the mutex does what a lock does. -/
def behavesAlone (D : Type) [DecidableEq D] :
    Simulation (locking D (Threads 1)) (lock D GuardRef) LocksInTime Locking.seen where
  Rel s t := Steady s ∧ t = s.mutex.behind
  step := by
    rintro s s' a t ⟨steady, rfl⟩ meets taken
    cases a with
    | runtime a =>
        refine ⟨_, rfl, steady.runtime taken, ?_⟩
        rw [runtime_some taken]
    | panics p =>
        refine ⟨_, rfl, steady.panics taken, ?_⟩
        rw [panics_some taken]
    | mutex p a =>
        obtain rfl := one_thread p
        simp only [locking, Locking.step, Option.ite_none_right_eq_some, Option.bind_eq_some_iff,
          Option.map_eq_some_iff] at taken
        obtain ⟨executes, m, stepped, sys, yields, rfl⟩ := taken
        exact ⟨m.behind, steady.held.behind (effect_of_step stepped),
          steady.mutex executes meets stepped yields, rfl⟩

/-- Whatever the coroutines do and wherever they yield, their critical sections are
serial. -/
theorem sections_serial {s : Locking D (Threads 1) × List (Lock.Label D GuardRef)}
    (reached : ((locking D (Threads 1)).traced Locking.seen).Reach (fun s a => LocksInTime s.1 a)
      (.new data, []) s) : Serial data s.1.mutex.behind s.2 := by
  have start : (behavesAlone D).Rel (.new data) (.free data) := ⟨.new data, rfl⟩
  obtain ⟨t, ran, -, rfl⟩ := (behavesAlone D).run start reached
  exact serial_of_exec ran

end OneProcessor

/-- Coroutine 0 spawns in its critical section; its child finds the flag set and yields,
and has its own section when 0 has left. -/
def childWaits : List (LockAct Nat (Threads 1)) :=
  .flatten [[.runtime (.spawn none), .runtime (.spawnInner none), .runtime (.enter none)],
    .replicate 5 (.runtime (.tau none)),
    [.mutex none (.lock 0), .mutex none (.swap 0), .mutex none (.derefMut 0 0 5),
      .runtime (.spawn none), .runtime (.spawnInner none)],
    .replicate 4 (.runtime (.tau none)),
    [.mutex none (.lock 1), .mutex none (.swap 1), .mutex none (.sched 1)],
    .replicate 5 (.runtime (.tau none)),
    [.mutex none (.derefMut 0 0 6), .mutex none (.drop 0 0), .mutex none (.dropSwap 0),
      .mutex none (.dropSwap 0), .runtime (.sched none)],
    .replicate 5 (.runtime (.tau none)),
    [.mutex none (.next 1), .mutex none (.swap 1), .mutex none (.derefMut 1 1 7)]]

instance {P : Type} (s : Locking D P) : ∀ a, Decidable (LocksInTime s a)
  | .mutex _ a => inferInstanceAs (Decidable (LocksOnly s.mutex a))
  | .runtime _ | .panics _ => .isTrue trivial

theorem child_waits_serial :
    ∃ s, ((locking Nat (Threads 1)).traced Locking.seen).Reach (fun s a => LocksInTime s.1 a)
        (.new 4, []) s ∧
      s.2 = [.acquired 0 4, .wrote 0 5, .wrote 0 6, .released 0, .acquired 1 6, .wrote 1 7] ∧
      Serial 4 s.1.mutex.behind s.2 := by
  have meets : ((locking Nat (Threads 1)).traced Locking.seen).Meets (fun s a => LocksInTime s.1 a)
      (.new 4, []) childWaits := by
    decide +kernel
  have sees : (((locking Nat (Threads 1)).traced Locking.seen).exec (.new 4, []) childWaits).any
      (fun s => s.2 =
        [.acquired 0 4, .wrote 0 5, .wrote 0 6, .released 0, .acquired 1 6, .wrote 1 7]) = true := by
    decide +kernel
  obtain ⟨s, run, seen⟩ := (Option.any_eq_true _ _).1 sees
  have reached := Lts.Reach.of_exec run meets
  exact ⟨s, reached, of_decide_eq_true seen, sections_serial reached⟩

end SimpleSched.Sync
