/-
# Sync.Turns -- what the holders of a guard take from those who wait

A turn that finds the flag set is lost to the guard that has set it.  A call of `lock`
has `POISON_RETRY_COUNT` turns to lose, whoever takes them: one holder that sits on its
guard, or many that are let in before the caller.  `Turns` records what each coroutine
has lost to the last guard; it is history, which no step of the code reads.

`truthful_of_turns`: where what the guards given during a call take from its caller comes
to less than that, `lock` returns no error, so none is untrue.  The retry counter is not
in the condition: that it is below the sum of the turns taken is the invariant
(`Waits.spent`).
-/
import SimpleSched.Sync.Truth
import SimpleSched.Theory.Trace
import Mathlib.Algebra.BigOperators.Intervals
import Mathlib.Algebra.Order.BigOperators.Group.Finset

namespace SimpleSched.Sync

set_option autoImplicit false

open Theory
open SimpleSched.Runtime (CoroutineRefMut Threads)

variable {D P : Type}

structure Turns where
  /-- the turns the coroutine has lost to the last guard -/
  lost : CoroutineRefMut → Nat
  /-- the first guard its call of `lock` can lose turns to -/
  since : CoroutineRefMut → GuardRef

namespace Turns

def start : Turns := ⟨fun _ => 0, fun _ => 0⟩

/-- A call of `lock` begins, a swap of one finds the flag set, or a guard is given. -/
def ofMutex (s : Use D CoroutineRefMut) : Act D CoroutineRefMut → Turns → Turns
  | .lock c, w =>
    { lost := Function.update w.lost c 0
      since := Function.update w.since c (if s.lock then s.acquired else s.next) }
  | .swap c, w =>
    if s.lock then { w with lost := Function.update w.lost c (w.lost c + 1) }
    else { w with lost := fun _ => 0 }
  | .tryLock _, w => if s.lock then w else { w with lost := fun _ => 0 }
  | _, w => w

def write (s : Locking D P) : LockAct D P → Turns → Turns
  | .mutex _ a, w => ofMutex s.mutex a w
  | _, w => w

end Turns

abbrev Waiting (D P : Type) := Locking D P × Turns

def waiting (D P : Type) [DecidableEq P] : Lts (Waiting D P) (LockAct D P) :=
  (locking D P).recorded Turns.write

/-- A guard `g` takes at most `takes g c` turns from `c`, and those given while a call of `c`
is in progress take fewer from it than the call has. -/
def Spares (takes : GuardRef → CoroutineRefMut → Nat) (s : Waiting D P) : LockAct D P → Prop
  | .mutex _ (.swap c) => s.1.mutex.lock = true →
      s.2.lost c < takes s.1.mutex.acquired c ∧
        ∑ g ∈ Finset.Ico (s.2.since c) (s.1.mutex.acquired + 1), takes g c < POISON_RETRY_COUNT
  | _ => True

instance (takes : GuardRef → CoroutineRefMut → Nat) (s : Waiting D P) :
    ∀ a, Decidable (Spares takes s a)
  | .mutex _ (.swap c) => inferInstanceAs (Decidable (s.1.mutex.lock = true →
      s.2.lost c < takes s.1.mutex.acquired c ∧
        ∑ g ∈ Finset.Ico (s.2.since c) (s.1.mutex.acquired + 1), takes g c < POISON_RETRY_COUNT))
  | .mutex _ (.lock _) | .mutex _ (.tryLock _) | .mutex _ (.sched _) | .mutex _ (.next _)
  | .mutex _ (.intoInner _ _) | .mutex _ (.derefMut _ _ _) | .mutex _ (.drop _ _)
  | .mutex _ (.dropSwap _) | .runtime _ | .panics _ => .isTrue trivial

/-! ## The account of a call -/

/-- How many swaps of a call of `lock` have failed. -/
def Call.failed : Call → Option Nat
  | .swap k => some k
  | .yielding k | .yielded k => some (k + 1)
  | .idle | .drop _ => none

/-- A call of `c` whose swaps have failed `k` times. -/
structure Waits (takes : GuardRef → CoroutineRefMut → Nat) (s : Use D CoroutineRefMut) (w : Turns)
    (c : CoroutineRefMut) (k : Nat) : Prop where
  begun : w.since c ≤ s.next
  under : s.lock = true → w.since c ≤ s.acquired
  /-- each failure was a turn taken by a guard given since the call began -/
  kept : k ≠ 0 → w.since c ≤ s.acquired ∧ s.acquired < s.next
  spent : k ≤ ∑ g ∈ Finset.Ico (w.since c) s.acquired, takes g c + w.lost c

structure Spared (takes : GuardRef → CoroutineRefMut → Nat) (s : Use D CoroutineRefMut) (w : Turns) :
    Prop where
  given : s.acquired ≤ s.next
  set : s.lock = true → s.acquired < s.next
  lost : ∀ c, w.lost c ≤ takes s.acquired c
  waits : ∀ c k, (s.calls c).failed = some k → Waits takes s w c k
  short : ∀ c k, s.calls c = .yielding k ∨ s.calls c = .yielded k → k + 1 < POISON_RETRY_COUNT
  ok : ∀ g x, s.guards g = some x → x.returned = .ok

variable {takes : GuardRef → CoroutineRefMut → Nat} {s s' : Use D CoroutineRefMut} {w w' : Turns}
  {c : CoroutineRefMut} {k : Nat}

theorem sum_acquired (since : w.since c ≤ s.acquired) :
    ∑ g ∈ Finset.Ico (w.since c) (s.acquired + 1), takes g c =
      ∑ g ∈ Finset.Ico (w.since c) s.acquired, takes g c + takes s.acquired c :=
  Finset.sum_Ico_succ_top since _

/-- One more turn is lost to the guard that has set the flag. -/
theorem Waits.lose (waits : Waits takes s w c k) (set : s.lock = true) (given : s.acquired < s.next)
    (less : w.lost c < takes s.acquired c)
    (few : ∑ g ∈ Finset.Ico (w.since c) (s.acquired + 1), takes g c < POISON_RETRY_COUNT) :
    Waits takes s { w with lost := Function.update w.lost c (w.lost c + 1) } c (k + 1) ∧
      k + 1 < POISON_RETRY_COUNT := by
  have spent := waits.spent
  rw [sum_acquired (waits.under set)] at few
  constructor
  · refine ⟨waits.begun, waits.under, fun _ => ⟨waits.under set, given⟩, ?_⟩
    show k + 1 ≤ ∑ g ∈ Finset.Ico (w.since c) s.acquired, takes g c +
      Function.update w.lost c (w.lost c + 1) c
    rw [Function.update_self]
    omega
  · omega

/-- A guard is given. -/
theorem Waits.give (waits : Waits takes s w c k) (lost : w.lost c ≤ takes s.acquired c)
    (acquired : s'.acquired = s.next) (next : s'.next = s.next + 1) :
    Waits takes s' { w with lost := fun _ => 0 } c k := by
  have since : w.since c ≤ s'.acquired := acquired ▸ waits.begun
  have given : s'.acquired < s'.next := by
    rw [acquired, next]
    exact Nat.lt_succ_self _
  refine ⟨since.trans given.le, fun _ => since, fun _ => ⟨since, given⟩, ?_⟩
  show k ≤ ∑ g ∈ Finset.Ico (w.since c) s'.acquired, takes g c + 0
  rcases Nat.eq_zero_or_pos k with rfl | failed
  · exact Nat.zero_le _
  · obtain ⟨before, older⟩ := waits.kept failed.ne'
    calc k ≤ ∑ g ∈ Finset.Ico (w.since c) s.acquired, takes g c + w.lost c := waits.spent
      _ ≤ ∑ g ∈ Finset.Ico (w.since c) s.acquired, takes g c + takes s.acquired c :=
          Nat.add_le_add_left lost _
      _ = ∑ g ∈ Finset.Ico (w.since c) (s.acquired + 1), takes g c :=
          (sum_acquired before).symm
      _ ≤ ∑ g ∈ Finset.Ico (w.since c) s'.acquired, takes g c :=
          Finset.sum_le_sum_of_subset (Finset.Ico_subset_Ico_right (by rw [acquired]; exact older))

theorem Waits.same (waits : Waits takes s w c k) (next : s'.next = s.next)
    (acquired : s'.acquired = s.acquired) (lock : s'.lock = true → s.lock = true)
    (since : w'.since c = w.since c) (lost : w'.lost c = w.lost c) : Waits takes s' w' c k where
  begun := by rw [since, next]; exact waits.begun
  under set := by rw [since, acquired]; exact waits.under (lock set)
  kept failed := by rw [since, acquired, next]; exact waits.kept failed
  spent := by rw [since, acquired, lost]; exact waits.spent

/-- A call goes on, or another begins or ends, and nothing is taken from anybody. -/
theorem Spared.go (spared : Spared takes s w) {call : Call} (next : s'.next = s.next)
    (acquired : s'.acquired = s.acquired) (lock : s'.lock = true → s.lock = true)
    (calls : s'.calls = Function.update s.calls c call)
    (failed : ∀ k, call.failed = some k → (s.calls c).failed = some k)
    (short : ∀ k, call = .yielding k ∨ call = .yielded k → k + 1 < POISON_RETRY_COUNT)
    (ok : ∀ g x, s'.guards g = some x → x.returned = .ok) : Spared takes s' w where
  given := by rw [acquired, next]; exact spared.given
  set set := by rw [acquired, next]; exact spared.set (lock set)
  lost d := by rw [acquired]; exact spared.lost d
  waits d k fails := by
    have before : (s.calls d).failed = some k := by
      rw [calls] at fails
      by_cases mine : d = c
      · subst mine
        exact failed k (by simpa using fails)
      · rwa [Function.update_of_ne mine] at fails
    exact (spared.waits d k before).same next acquired lock rfl rfl
  short d k at_yield := by
    rw [calls] at at_yield
    by_cases mine : d = c
    · subst mine
      exact short k (by simpa using at_yield)
    · exact spared.short d k (by rwa [Function.update_of_ne mine] at at_yield)
  ok := ok

/-- A guard is given or changed, and is not one of an error. -/
theorem Spared.guards (spared : Spared takes s w) {g : GuardRef} {x : Guard CoroutineRefMut}
    (updated : s'.guards = Function.update s.guards g (some x)) (ok : x.returned = .ok) :
    ∀ g' x', s'.guards g' = some x' → x'.returned = .ok := by
  intro g' x' found
  rcases Use.guard_update updated found with ⟨-, rfl⟩ | ⟨-, before⟩
  · exact ok
  · exact spared.ok g' x' before

theorem Spared.begin_lock (spared : Spared takes s w) :
    Spared takes (s.setCall c (.swap 0)) (Turns.ofMutex s (.lock c : Act D CoroutineRefMut) w) where
  given := spared.given
  set := spared.set
  lost d := by
    show Function.update w.lost c 0 d ≤ _
    by_cases mine : d = c
    · subst mine
      simp
    · rw [Function.update_of_ne mine]
      exact spared.lost d
  waits d k fails := by
    by_cases mine : d = c
    · subst mine
      obtain rfl : 0 = k := by simpa [Call.failed] using fails
      refine ⟨?_, fun set => ?_, fun failed => absurd rfl failed, Nat.zero_le _⟩
      · by_cases set : s.lock = true
        · simpa [Turns.ofMutex, set] using spared.given
        · simp [Turns.ofMutex, set]
      · have set : s.lock = true := set
        simp [Turns.ofMutex, set]
    · refine (spared.waits d k ?_).same rfl rfl id ?_ ?_
      · simpa [Function.update_of_ne mine] using fails
      · exact Function.update_of_ne mine ..
      · exact Function.update_of_ne mine ..
  short d k at_yield := by
    by_cases mine : d = c
    · subst mine
      simp at at_yield
    · exact spared.short d k (by simpa [Function.update_of_ne mine] using at_yield)
  ok := spared.ok

theorem Spared.lose (spared : Spared takes s w) (at_swap : s.calls c = .swap k) (set : s.lock = true)
    (less : w.lost c < takes s.acquired c)
    (few : ∑ g ∈ Finset.Ico (w.since c) (s.acquired + 1), takes g c < POISON_RETRY_COUNT) :
    Spared takes (s.setCall c (.yielding k)) (Turns.ofMutex s (.swap c : Act D CoroutineRefMut) w) := by
  have loses := (spared.waits c k (by rw [at_swap]; rfl)).lose set (spared.set set) less few
  have records : Turns.ofMutex s (.swap c : Act D CoroutineRefMut) w =
      { w with lost := Function.update w.lost c (w.lost c + 1) } := by
    simp [Turns.ofMutex, set]
  rw [records]
  refine ⟨spared.given, spared.set, fun d => ?_, fun d n fails => ?_, fun d n at_yield => ?_, spared.ok⟩
  · show Function.update w.lost c (w.lost c + 1) d ≤ _
    by_cases mine : d = c
    · subst mine
      rw [Function.update_self]
      exact less
    · rw [Function.update_of_ne mine]
      exact spared.lost d
  · by_cases mine : d = c
    · subst mine
      obtain rfl : k + 1 = n := by simpa [Call.failed] using fails
      exact loses.1.same rfl rfl id rfl rfl
    · refine (spared.waits d n ?_).same rfl rfl id rfl (Function.update_of_ne mine ..)
      simpa [Function.update_of_ne mine] using fails
  · by_cases mine : d = c
    · subst mine
      obtain rfl : k = n := by simpa using at_yield
      exact loses.2
    · exact spared.short d n (by simpa [Function.update_of_ne mine] using at_yield)

theorem Spared.give (spared : Spared takes s w) (clear : s.lock = false) :
    Spared takes (s.acquire c { s.toMutex with lock := true })
      (Turns.ofMutex s (.swap c : Act D CoroutineRefMut) w) := by
  have records : Turns.ofMutex s (.swap c : Act D CoroutineRefMut) w =
      { w with lost := fun _ => 0 } := by
    simp [Turns.ofMutex, clear]
  rw [records]
  refine ⟨by simp, by simp, fun _ => Nat.zero_le _, fun d k fails => ?_, fun d k at_yield => ?_,
    spared.guards rfl rfl⟩
  · by_cases mine : d = c
    · subst mine
      simp [Call.failed] at fails
    · have before : (s.calls d).failed = some k := by simpa [Function.update_of_ne mine] using fails
      exact (spared.waits d k before).give (spared.lost d) rfl rfl
  · by_cases mine : d = c
    · subst mine
      simp at at_yield
    · exact spared.short d k (by simpa [Function.update_of_ne mine] using at_yield)

/-- A step of the mutex; that no call runs out is what `short` is for. -/
theorem Spared.mutex (spared : Spared takes s w) {a : Act D CoroutineRefMut}
    (through : ∀ c, a ≠ .tryLock c)
    (spares : ∀ c, a = .swap c → s.lock = true → w.lost c < takes s.acquired c ∧
      ∑ g ∈ Finset.Ico (w.since c) (s.acquired + 1), takes g c < POISON_RETRY_COUNT)
    (effect : Effect s a s') : Spared takes s' (Turns.ofMutex s a w) := by
  cases effect with
  | @lock c idle => exact spared.begin_lock
  | @acquired _ c from_call clear =>
      rcases from_call with ⟨rfl, -⟩ | ⟨k, rfl, -⟩
      · exact absurd rfl (through c)
      · exact spared.give clear
  | @failed c k at_swap set =>
      obtain ⟨less, few⟩ := spares c rfl set
      exact spared.lose at_swap set less few
  | @sched c k at_yield =>
      refine spared.go (c := c) rfl rfl id rfl (by simp [Call.failed, at_yield]) ?_ spared.ok
      rintro n (yielded | yielded) <;> cases yielded
      exact spared.short c k (.inl at_yield)
  | @next c k yielded more =>
      exact spared.go (c := c) rfl rfl id rfl (by simp [Call.failed, yielded]) (by simp) spared.ok
  | @poisoned _ c from_call =>
      rcases from_call with ⟨rfl, -⟩ | ⟨k, rfl, yielded, last⟩
      · exact absurd rfl (through c)
      · exact absurd (spared.short c k (.inr yielded)) last
  | intoInner _ found _ poisoned =>
      rw [spared.ok _ _ found] at poisoned
      cases poisoned
  | @derefMut c =>
      exact spared.go (c := c) rfl rfl id (Function.update_eq_self c _).symm (fun _ => id)
        (spared.short c) spared.ok
  | @drop c g x _ found =>
      exact spared.go (c := c) rfl rfl id rfl (by simp [Call.failed]) (by simp)
        (spared.guards rfl (spared.ok g x found))
  | @released c g x drops found =>
      exact spared.go (c := c) rfl rfl (by simp) (Function.update_eq_self c _).symm (fun _ => id)
        (spared.short c) (spared.guards rfl (spared.ok g x found))
  | @dropped c g x _ found =>
      exact spared.go (c := c) rfl rfl id rfl (by simp [Call.failed]) (by simp)
        (spared.guards rfl (spared.ok g x found))

/-! ## Runs that spare the waiters -/

variable [DecidableEq P]

theorem Spared.start (data : D) : Spared takes (Use.new data) Turns.start where
  given := Nat.le_refl _
  set set := by cases set
  lost _ := Nat.zero_le _
  waits c k fails := by cases fails
  short c k at_yield := by rcases at_yield with at_yield | at_yield <;> cases at_yield
  ok g x found := by cases found

theorem Spared.step {r r' : Waiting D P} (spared : Spared takes r.1.mutex r.2) {a : LockAct D P}
    (through : ThroughLock r.1 a) (spares : Spares takes r a)
    (taken : (waiting D P).step r a = some r') : Spared takes r'.1.mutex r'.2 := by
  obtain ⟨stepped, written⟩ := Lts.recorded_some taken
  rw [written]
  cases a with
  | runtime a =>
      rw [runtime_some stepped]
      exact spared
  | panics p =>
      rw [panics_some stepped]
      exact spared
  | mutex p a =>
      simp only [locking, Locking.step, Option.ite_none_right_eq_some, Option.bind_eq_some_iff,
        Option.map_eq_some_iff] at stepped
      obtain ⟨-, m, effect, sys, -, same⟩ := stepped
      rw [← same]
      refine spared.mutex ?_ ?_ (effect_of_step effect)
      · rintro c rfl
        exact through
      · rintro c rfl
        exact spares

/-- Coroutine 0 loses a turn to the holder, which then drops its guard, and takes the lock at
its second. -/
def waitsOnce : List (LockAct Unit (Threads 2)) :=
  held ++ [.mutex .spawned (.swap 0), .mutex .spawned (.sched 0), .mutex none (.drop 1 0),
    .mutex none (.dropSwap 1), .mutex none (.dropSwap 1), .runtime (.tau .spawned),
    .runtime (.tau .spawned), .runtime (.tau .spawned), .runtime (.tau .spawned),
    .runtime (.tau .spawned), .mutex .spawned (.next 0), .mutex .spawned (.swap 0)]

end SimpleSched.Sync
