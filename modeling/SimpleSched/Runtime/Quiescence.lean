/-
# Runtime.Quiescence -- what holds when Scheduler::run returns

A processor leaves `schedule` after it saw the queue empty, its own slab empty and
`work_counts` zero, each at its own time.  The last of the three settles it: by the
balance of `Runtime.Account` a zero means that no coroutine is unfinished and no
spawn is under way, and from then on nothing can start (`Stopped`).
-/
import SimpleSched.Runtime.Account
import Mathlib.Data.Fintype.Option

namespace SimpleSched.Runtime

set_option autoImplicit false

open Mio Theory

/-- The threads of `Scheduler::run(n)`: the calling one is `none`. -/
abbrev Threads (n : Nat) := Option (Fin (n - 1))

/-- The thread that `Scheduler::run(2)` spawns. -/
def Threads.spawned : Threads 2 := some 0

variable {P : Type}

/-- A step of `Scheduler::run`: the calling thread `main` spawns before any thread has
entered `schedule`, and after that only coroutines do; `run_once` does not fail. -/
def InRun (main : P) (s : Sys P) : Act P → Prop
  | .spawn p => (s.threads p).pc = .user → p = main ∧ ∀ q, (s.threads q).pc = .user
  | .enter _ => (s.threads main).pc ≠ .userSpawn
  | .processorSpawn _ | .leave _ | .pollErr _ => False
  | _ => True

/-- The same, where `run_once` may fail. -/
def OfRun (main : P) (s : Sys P) (a : Act P) : Prop := InRun main s a ∨ ∃ p, a = .pollErr p

instance [Fintype P] [DecidableEq P] (main : P) (s : Sys P) :
    ∀ a, Decidable (InRun main s a)
  | .spawn p => inferInstanceAs
      (Decidable ((s.threads p).pc = .user → p = main ∧ ∀ q, (s.threads q).pc = .user))
  | .enter _ => inferInstanceAs (Decidable ((s.threads main).pc ≠ .userSpawn))
  | .processorSpawn _ | .leave _ | .pollErr _ => .isFalse id
  | .spawnInner _ | .sched _ | .block _ | .waitEvent _ _ _ _ | .register _ _ | .ret _ | .panic _
  | .poll _ _ | .setHolds _ _ _ | .tau _ => .isTrue trivial

instance [Fintype P] [DecidableEq P] (main : P) (s : Sys P) (a : Act P) :
    Decidable (OfRun main s a) :=
  inferInstanceAs (Decidable (_ ∨ _))

/-- Every thread of the run has left `schedule` through its `break`. -/
def Returned (s : Sys P) : Prop := ∀ p, (s.threads p).pc = .done

/-- Every coroutine was run to its end once and freed once, and the scheduler and
the processors are as they were before the first spawn. -/
structure Quiescent (s : Sys P) : Prop where
  coroutine : ∀ c, c < s.next → 1 ≤ (s.coros c).resumed ∧ (s.coros c).ended = 1 ∧
    (s.coros c).finished = 1 ∧ (s.coros c).dropped = 1
  workCounts : s.workCounts = 0
  queue : s.globalQueue = .empty
  registers : ∀ p, (s.threads p).curRunning = none ∧ (s.threads p).lastResult = none
  newSpawned : ∀ p, (s.threads p).newSpawned = none
  slabs : ∀ p, (s.threads p).slabs.count = 0
  eventLoop : ∀ p, (s.threads p).eventLoop = .new

variable [DecidableEq P] {s s' : Sys P} {place place' : Placing P} {a : Act P} {q main : P}

/-- Where a thread goes on after it has looked at its slab, or at the counter. -/
def Pc.Decided : Pc → Prop
  | .runOnce | .workCount | .done => True
  | _ => False

/-- It comes there through the `None` arm of `schedule` only. -/
theorem Effect.decided (effect : Effect s place a s' place') (after : (s'.threads q).pc.Decided) :
    (s'.threads q).slabs = (s.threads q).slabs ∧
      ((s'.threads q).pc = (s.threads q).pc ∨
        (s'.threads q).pc = .runOnce ∧ (s.threads q).slabs.count ≠ 0 ∨
        (s'.threads q).pc = .workCount ∧ (s.threads q).slabs.count = 0 ∨
        (s'.threads q).pc = .done ∧ (s.threads q).pc = .workCount ∧ s.workCounts = 0) := by
  by_cases mine : a.actor = some q
  · cases effect with
    | full | setHolds => exact ⟨rfl, .inl rfl⟩
    | quiet quiet =>
        cases quiet with
        | poll at_pc some_entry =>
            obtain rfl := Option.some.inj mine
            exact ⟨by simp, .inr (.inl ⟨by simp, some_entry⟩)⟩
        | count at_pc empty =>
            obtain rfl := Option.some.inj mine
            exact ⟨by simp, .inr (.inr (.inl ⟨by simp, empty⟩))⟩
        | stop at_pc zero =>
            obtain rfl := Option.some.inj mine
            exact ⟨by simp, .inr (.inr (.inr ⟨by simp, at_pc, zero⟩))⟩
        | _ =>
            obtain rfl := Option.some.inj mine
            simp [Pc.Decided] at after
    | fetchAdd from_pc =>
        obtain rfl := Option.some.inj mine
        rcases from_pc with ⟨-, rfl⟩ | ⟨h, -, rfl⟩ <;> simp [Sys.fetchAdd, Pc.Decided] at after
    | spawnOut from_pc | spawnIn from_pc =>
        rcases from_pc with ⟨rfl, -⟩ | ⟨rfl, -⟩ <;> obtain rfl := Option.some.inj mine <;>
          simp [Sys.switchBack, Pc.Decided] at after
    | yield _ yields =>
        cases yields <;> obtain rfl := Option.some.inj mine <;>
          simp [Sys.switchBack, Pc.Decided] at after
    | ended _ ends =>
        cases ends <;> obtain rfl := Option.some.inj mine <;>
          simp [Sys.switchBack, Pc.Decided] at after
    | pushed pushing =>
        obtain rfl := Option.some.inj mine
        cases at_pc : (s.threads _).pc <;> simp_all [Pc.pushing, Pc.pushed, Pc.Decided]
    | @took p c k =>
        obtain rfl := Option.some.inj mine
        rcases Sys.runTaskArm_cases c k.result with arm | arm | arm <;> simp [arm, Pc.Decided] at after
    | inserted | registered | polled | handled | deregistered | popped | drained | resumed | left
    | finished | freed =>
        obtain rfl := Option.some.inj mine
        simp [Sys.finished, Pc.Decided] at after
  · obtain ⟨l, same⟩ := effect.others mine
    rw [same]
    exact ⟨rfl, .inl rfl⟩

/-- Where a thread goes on after it has observed something at the end of a turn. -/
def Pc.Observed : Pc → Prop
  | .workCount | .done => True
  | _ => False

/-- The two observations: `schedule` reads the counter after it has seen its slab
empty, and breaks after it has read zero. -/
theorem Effect.observed (effect : Effect s place a s' place') (after : (s'.threads q).pc.Observed) :
    (s'.threads q).slabs = (s.threads q).slabs ∧
      ((s'.threads q).pc = (s.threads q).pc ∨
        (s'.threads q).pc = .workCount ∧ (s.threads q).slabs.count = 0 ∨
        (s'.threads q).pc = .done ∧ (s.threads q).pc = .workCount ∧ s.workCounts = 0) := by
  have decided : (s'.threads q).pc.Decided := by
    cases at_pc : (s'.threads q).pc <;> simp_all [Pc.Observed, Pc.Decided]
  obtain ⟨slabs, same | ⟨polls, -⟩ | observed⟩ := effect.decided decided
  · exact ⟨slabs, .inl same⟩
  · simp [polls, Pc.Observed] at after
  · exact ⟨slabs, .inr observed⟩

/-! ## What a thread that has left makes certain -/

variable [Fintype P]

/-- The observations of the threads, and what one that has left makes certain. -/
structure Stopped (s : Sys P) : Prop where
  slab : ∀ p, (s.threads p).pc.Observed → (s.threads p).slabs.count = 0
  nothing : ∀ p, (s.threads p).pc = .done → s.live = ∅ ∧ s.spawning = ∅

theorem Stopped.nothing_step (inv : Placed s place) (balanced : Balanced s) (stopped : Stopped s)
    (run : OfRun main s a) (effect : Effect s place a s' place')
    (left : (s'.threads q).pc = .done) : s'.live = ∅ ∧ s'.spawning = ∅ := by
  -- already when this step began nothing was left
  have nothing : s.live = ∅ ∧ s.spawning = ∅ := by
    rcases (effect.observed (q := q) (by simp [left, Pc.Observed])).2 with same | ⟨at_pc, -⟩ | zero
    · exact stopped.nothing q (same ▸ left)
    · simp [left] at at_pc
    · unfold Balanced at balanced
      rw [zero.2.2] at balanced
      exact ⟨Finset.card_eq_zero.1 (by omega), Finset.card_eq_zero.1 (by omega)⟩
  cases effect.tally inv with
  | same _ _ live spawning => exact ⟨live.trans nothing.1, spawning.trans nothing.2⟩
  | @counted p _ live spawning =>
      refine absurd left ?_
      cases effect with
      | fetchAdd from_pc =>
          rcases from_pc with ⟨at_pc, rfl⟩ | ⟨h, at_pc, -⟩
          · have inside : InRun main s (.spawn p) := run.resolve_right (by simp)
            by_cases mine : q = p
            · subst mine
              simp [Sys.fetchAdd]
            · simp [Sys.fetchAdd, Function.update_of_ne mine, (inside at_pc).2 q]
          · have live : h ∈ s.live := inv.live_of_hand (by rw [at_pc]; rfl) (by simp [at_pc])
            rw [nothing.1] at live
            cases live
      | quiet quiet => cases quiet
      | spawnOut from_pc | spawnIn from_pc => rcases from_pc with ⟨same, -⟩ | ⟨same, -⟩ <;> cases same
      | yield _ yields => cases yields
      | ended _ ends => cases ends
  | boxed _ _ spawning =>
      rw [nothing.2] at spawning
      cases spawning
  | uncounted => rcases run with inside | ⟨p, fails⟩ <;> contradiction
  | finished _ live =>
      rw [nothing.1] at live
      cases live

theorem Stopped.step (inv : Placed s place) (balanced : Balanced s) (stopped : Stopped s)
    (run : OfRun main s a) (effect : Effect s place a s' place') : Stopped s' where
  slab p observed := by
    obtain ⟨slabs, goes⟩ := effect.observed observed
    rw [slabs]
    rcases goes with same | ⟨-, empty⟩ | ⟨-, at_pc, -⟩
    · exact stopped.slab p (same ▸ observed)
    · exact empty
    · exact stopped.slab p (by simp [at_pc, Pc.Observed])
  nothing _ left := stopped.nothing_step inv balanced run effect left

omit [DecidableEq P] in
theorem Stopped.init : Stopped (Sys.init : Sys P) where
  slab _ observed := by simp [Sys.init, Pc.Observed] at observed
  nothing _ left := by simp [Sys.init] at left

theorem OfRun.stopped (reached : (system P).Reach (OfRun main) .init s) :
    ∃ place, Placed s place ∧ Balanced s ∧ Stopped s := by
  refine reach_placed (I := fun s _ => Balanced s ∧ Stopped s) reached ⟨.init, .init⟩ ?_
  rintro s place a s' place' - inv ⟨balanced, stopped⟩ run effect
  refine ⟨balanced.step inv ?_ effect, stopped.step inv balanced run effect⟩
  rintro p rfl
  rcases run with inside | ⟨p, fails⟩ <;> contradiction

/-! ## When run returns -/

omit [DecidableEq P] [Fintype P] in
/-- Where no coroutine is unfinished every one of them has been freed. -/
theorem Placed.freed_of_live (inv : Placed s place) (returned : Returned s) (nothing : s.live = ∅)
    (c : CoroutineRefMut) : place c = .unborn ∨ place c = .freed := by
  rcases inv.live_or_gone c with live | unborn | freed | ⟨p, -, frees⟩
  · rw [nothing] at live
    cases live
  · exact .inl unborn
  · exact .inr freed
  · simp [returned p] at frees

omit [DecidableEq P] in
theorem Stopped.quiescent [Nonempty P] (regs : Registers s) (inv : Placed s place)
    (balanced : Balanced s) (stopped : Stopped s) (returned : Returned s) : Quiescent s := by
  obtain ⟨p₀⟩ := ‹Nonempty P›
  have nothing := stopped.nothing p₀ (returned p₀)
  have gone := inv.freed_of_live returned nothing.1
  have lookup (p : P) (token : Token) : (s.threads p).slabs.lookup token = none :=
    Slab.count_eq_zero.1 (stopped.slab p (by simp [returned p, Pc.Observed])) token
  refine ⟨?_, ?_, ?_, ?_, ?_, ?_, ?_⟩
  · intro c born
    have life := inv.life c
    rcases gone c with unborn | freed
    · exact absurd ((inv.unborn c).1 unborn) (Nat.not_le_of_lt born)
    · rw [freed] at life
      exact ⟨life.2.1, life.2.2.ended, life.2.2.finished, life.2.2.dropped⟩
  · unfold Balanced at balanced
    rw [balanced, nothing.1, nothing.2]
    rfl
  · have none_queued : s.globalQueue.items = [] :=
      List.eq_nil_iff_forall_not_mem.2 fun c queued => by
        have at_queue := (inv.queue.mem c).1 queued
        rcases gone c with at_c | at_c <;> simp [at_queue] at at_c
    exact BoundedQueue.ext none_queued
  · intro p
    have here := regs p
    simpa [Thread.Registers, returned p] using here
  · intro p
    cases filled : (s.threads p).newSpawned with
    | none => rfl
    | some c =>
        have at_slot := (inv.slot p c).1 filled
        rcases gone c with at_c | at_c <;> simp [at_slot] at at_c
  · intro p
    exact Slab.count_eq_zero.2 (lookup p)
  · intro p
    have regs_none (fd : Fd) : (s.threads p).eventLoop.regs fd = none := by
      cases found : (s.threads p).eventLoop.regs fd with
      | none => rfl
      | some r =>
          rcases (inv.io p).reg fd r found with ⟨c, -, entry⟩ | ⟨c, rest, at_pc⟩
          · simp [lookup p] at entry
          · simp [returned p] at at_pc
    exact EventLoop.ext (funext regs_none)

/-- `Scheduler::run(n)` returns only at quiescence. -/
theorem run_returns_quiescent (n : Nat) (s : Sys (Threads n))
    (reached : (system (Threads n)).Reach (InRun none) .init s) (returned : Returned s) :
    Quiescent s := by
  obtain ⟨place, inv, balanced, stopped⟩ :=
    OfRun.stopped (reached.mono fun _ _ run => .inl run)
  exact stopped.quiescent (Registers.reach reached) inv balanced returned

/-- One coroutine on one thread, from its spawn to the return of `run`. -/
def oneCoroutine : List (Act (Threads 1)) :=
  [.spawn none, .spawnInner none, .enter none, .tau none, .tau none, .tau none, .tau none,
    .tau none, .ret none, .tau none, .tau none, .tau none, .tau none, .tau none, .tau none, .tau none]

theorem one_coroutine_quiescent :
    ∃ s, (system (Threads 1)).exec .init oneCoroutine = some s ∧ Quiescent s := by
  have meets : (system (Threads 1)).Meets (InRun none) .init oneCoroutine := by decide +kernel
  have returns : ((system (Threads 1)).exec .init oneCoroutine).any
      (fun s => (s.threads none).pc = .done) = true := by decide +kernel
  obtain ⟨s, run, returned⟩ := (Option.any_eq_true _ _).1 returns
  refine ⟨s, run, run_returns_quiescent 1 s (.of_exec run meets) ?_⟩
  intro p
  cases p with
  | none => exact of_decide_eq_true returned
  | some i => exact i.elim0

end SimpleSched.Runtime
