/-
# Runtime.NoneLost -- when every spawned coroutine is still held

`Processor::spawn_opts` overwrites `new_spawned` without looking.  A coroutine
that spawns is suspended at once and the slot drained before the queue is popped
again, so there the slot is empty.  Outside `schedule` nothing drains it: a second
call before the first coroutine has started overwrites it, and so does a coroutine
that is popped in front of a waiting slot and spawns.

`InTurn` is the condition that neither happens.  Runs that meet it keep every
coroutine (`NoneLost`), and after a step that breaks it a coroutine can be lost.
-/
import SimpleSched.Runtime.Waits

namespace SimpleSched.Runtime

set_option autoImplicit false

open Mio Theory

variable {P : Type}

/-- The queue, a slot, a hand or a slab has the coroutine. -/
def Sys.Held (s : Sys P) (c : CoroutineRefMut) : Prop :=
  c ∈ s.globalQueue.items ∨ (∃ p, (s.threads p).newSpawned = some c) ∨
    (∃ p, (s.threads p).pc.hand = some c) ∨
    ∃ p token fd, (s.threads p).slabs.lookup token = some (c, fd)

/-- Every coroutine that was spawned and not passed to `Scheduler::finished` is
held. -/
def Sys.AllHeld (s : Sys P) : Prop := ∀ c, c < s.next → (s.coros c).finished = 0 → s.Held c

/-- No coroutine is lost, and the slot is empty whenever `Processor::spawn_opts`
assigns it. -/
structure NoneLost (s : Sys P) : Prop where
  held : s.AllHeld
  slot : ∀ p, (s.threads p).pc.spawning = true → (s.threads p).newSpawned = none

/-- Programs that spawn through the `Scheduler` and block in I/O only, on
descriptors whose registration succeeds. -/
def Act.ioOnly : Act P → Bool
  | .processorSpawn _ | .block _ | .register _ false => false
  | _ => true

/-- A thread outside `schedule` spawns only while its slot is empty, and while a
coroutine waits in its slot it pops nothing from the queue. -/
def InTurn (s : Sys P) : Act P → Prop
  | .spawn p => (s.threads p).pc = .user → (s.threads p).newSpawned = none
  | .tau p => (s.threads p).pc = .pop → (s.threads p).newSpawned = none ∨ s.globalQueue.items = []
  | _ => True

/-- Where a thread has a coroutine to run, or is about to box one. -/
def Pc.Spawner : Pc → Prop
  | .userSpawn | .runTask _ | .exec _ _ => True
  | _ => False

/-- No coroutine is overwritten in a slot, or blocked where nothing wakes it. -/
structure Retained (s : Sys P) (place : Placing P) : Prop where
  lost : ∀ c, place c ≠ .lost
  parked : ∀ c, place c ≠ .parked
  block : ∀ c, (s.coros c).cell ≠ .saved .block

structure Kept (s : Sys P) (place : Placing P) : Prop extends Retained s place where
  slot : ∀ p, (s.threads p).pc.Spawner → (s.threads p).newSpawned = none

variable [DecidableEq P] {s s' : Sys P} {place place' : Placing P} {a : Act P}

omit [DecidableEq P] in
theorem Kept.none_lost (inv : Placed s place) (kept : Kept s place) : NoneLost s where
  held c born unfinished := by
    have life := inv.life c
    cases at_c : place c with
    | unborn => exact absurd ((inv.unborn c).1 at_c) (Nat.not_le_of_lt born)
    | slot p => exact .inr (.inl ⟨p, (inv.slot p c).2 at_c⟩)
    | queue => exact .inl ((inv.queue.mem c).2 at_c)
    | hand p => exact .inr (.inr (.inl ⟨p, (inv.hand p c).2 at_c⟩))
    | wait p token =>
        obtain ⟨fd, r, entry, -⟩ := (inv.io p).entry c token (.inl at_c)
        exact .inr (.inr (.inr ⟨p, token, fd, entry⟩))
    | parked => exact absurd at_c (kept.parked c)
    | lost => exact absurd at_c (kept.lost c)
    | freed =>
        rw [at_c] at life
        have := life.2.2.finished
        omega
  slot p spawning := by
    refine kept.slot p ?_
    cases at_pc : (s.threads p).pc <;> simp_all [Pc.spawning, Pc.Spawner]

omit [DecidableEq P] in
theorem Retained.init : Retained (Sys.init : Sys P) fun _ => .unborn where
  lost _ := by simp
  parked _ := by simp
  block _ := by simp [Sys.init, Coroutine.unborn]

omit [DecidableEq P] in
theorem Kept.init : Kept (Sys.init : Sys P) fun _ => .unborn := ⟨.init, fun _ _ => rfl⟩

theorem Kept.slot_step (kept : Kept s place) (effect : Effect s place a s' place')
    (turn : InTurn s a) (q : P) (spawner : (s'.threads q).pc.Spawner) :
    (s'.threads q).newSpawned = none := by
  have slot := kept.slot q
  by_cases mine : a.actor = some q
  · cases effect with
    | quiet quiet =>
        cases quiet with
        | refused at_pc =>
            obtain rfl := Option.some.inj mine
            simpa using slot (by simp [at_pc, Pc.Spawner])
        | _ =>
            obtain rfl := Option.some.inj mine
            simp [Pc.Spawner] at spawner
    | full => exact slot spawner
    | fetchAdd from_pc =>
        obtain rfl := Option.some.inj mine
        rcases from_pc with ⟨at_pc, rfl⟩ | ⟨h, at_pc, rfl⟩
        · simpa [Sys.fetchAdd] using turn at_pc
        · simpa [Sys.fetchAdd] using slot (by simp [at_pc, Pc.Spawner])
    | spawnOut from_pc | spawnIn from_pc =>
        rcases from_pc with ⟨rfl, -⟩ | ⟨rfl, -⟩ <;> obtain rfl := Option.some.inj mine <;>
          simp [Sys.switchBack, Pc.Spawner] at spawner
    | yield _ yields =>
        cases yields <;> obtain rfl := Option.some.inj mine <;>
          simp [Sys.switchBack, Pc.Spawner] at spawner
    | ended _ ends =>
        cases ends <;> obtain rfl := Option.some.inj mine <;>
          simp [Sys.switchBack, Pc.Spawner] at spawner
    | inserted at_pc | registered at_pc | resumed at_pc =>
        obtain rfl := Option.some.inj mine
        simpa using slot (by simp [at_pc, Pc.Spawner])
    | setHolds => exact slot spawner
    | pushed pushing =>
        obtain rfl := Option.some.inj mine
        cases at_pc : (s.threads _).pc <;> simp_all [Pc.pushing, Pc.pushed, Pc.Spawner]
    | popped at_pc taken =>
        obtain rfl := Option.some.inj mine
        rcases turn at_pc with vacant | empty
        · simpa using vacant
        · simp [BoundedQueue.pop_some taken] at empty
    | drained =>
        obtain rfl := Option.some.inj mine
        simp
    | @took p c k =>
        obtain rfl := Option.some.inj mine
        rcases Sys.runTaskArm_cases c k.result with arm | arm | arm <;>
          simp [arm, Pc.Spawner] at spawner
    | polled | handled | deregistered | left | finished | freed =>
        obtain rfl := Option.some.inj mine
        simp [Sys.finished, Pc.Spawner] at spawner
  · obtain ⟨l, same⟩ := effect.others mine
    rw [same] at spawner ⊢
    exact slot spawner

/-- A step that does not overwrite a filled slot puts nothing at `lost`. -/
theorem Effect.not_lost (effect : Effect s place a s' place') (retained : Retained s place)
    (vacant : ∀ p, a = .spawnInner p ∨ a = .processorSpawn p → (s.threads p).newSpawned = none)
    (c : CoroutineRefMut) : place' c ≠ .lost ∧ place' c ≠ .parked := by
  have update {d : CoroutineRefMut} {l : Place P} (near : l ≠ .lost) (far : l ≠ .parked) :
      Function.update place d l c ≠ .lost ∧ Function.update place d l c ≠ .parked := by
    by_cases same : c = d
    · subst same
      simpa using ⟨near, far⟩
    · rw [Function.update_of_ne same]
      exact ⟨retained.lost c, retained.parked c⟩
  cases effect with
  | quiet | full | fetchAdd | yield | ended | inserted | registered | setHolds | polled
  | deregistered | resumed | took | finished => exact ⟨retained.lost c, retained.parked c⟩
  | @spawnOut p _ from_pc | @spawnIn p _ _ from_pc =>
      have free := vacant p (from_pc.imp And.left And.left)
      simpa only [Placing.spawn, free] using update (by simp) (by simp)
  | handled | pushed | popped | drained | freed => exact update (by simp) (by simp)
  | left at_pc saved goes =>
      rcases goes with ⟨rfl, -⟩ | ⟨token, -, rfl⟩
      · exact absurd saved (retained.block _)
      · exact update (by simp) (by simp)

/-- Only `Scheduler::block` saves a context that nothing wakes. -/
theorem Effect.not_block (inv : Placed s place) (effect : Effect s place a s' place')
    (block : ∀ c, (s.coros c).cell ≠ .saved .block) (free : ∀ p, a ≠ .block p)
    (c : CoroutineRefMut) : (s'.coros c).cell ≠ .saved .block := by
  have turn := effect.turn inv c
  generalize s'.coros c = x at turn
  cases turn with
  | same | finished => exact block c
  | spawned => simp [Coroutine.spawned]
  | yield actor at_pc yields =>
      rcases yields with yields | rfl
      · cases yields with
        | block => exact absurd rfl (free _)
        | sched | waitEvent => simp
      · simp
  | ended _ _ ends => cases ends <;> simp
  | resumed | freed => simp

theorem Retained.step (inv : Placed s place) (retained : Retained s place)
    (effect : Effect s place a s' place') (wakes : ∀ p, a ≠ .block p)
    (vacant : ∀ p, a = .spawnInner p ∨ a = .processorSpawn p → (s.threads p).newSpawned = none) :
    Retained s' place' where
  lost c := (effect.not_lost retained vacant c).1
  parked c := (effect.not_lost retained vacant c).2
  block := effect.not_block inv retained.block wakes

/-- The registrations have nothing to do with it. -/
theorem Kept.step_of (inv : Placed s place) (kept : Kept s place) (effect : Effect s place a s' place')
    (counted : ∀ p, a ≠ .processorSpawn p) (wakes : ∀ p, a ≠ .block p) (turn : InTurn s a) :
    Kept s' place' := by
  have vacant (p : P) (spawns : a = .spawnInner p ∨ a = .processorSpawn p) :
      (s.threads p).newSpawned = none := by
    rcases spawns with rfl | rfl
    · refine kept.slot p ?_
      cases effect with
      | quiet quiet => cases quiet
      | yield _ yields => cases yields
      | ended _ ends => cases ends
      | spawnOut from_pc | spawnIn from_pc =>
          rcases from_pc with ⟨same, at_pc⟩ | ⟨same, -⟩ <;> cases same
          simp [at_pc, Pc.Spawner]
    · exact absurd rfl (counted p)
  exact ⟨kept.toRetained.step inv effect wakes vacant, kept.slot_step effect turn⟩

theorem Kept.step (inv : Placed s place) (kept : Kept s place) (effect : Effect s place a s' place')
    (direct : a.ioOnly = true) (turn : InTurn s a) : Kept s' place' := by
  refine kept.step_of inv effect ?_ ?_ turn
  · rintro p rfl
    cases direct
  · rintro p rfl
    cases direct

/-- Runs of such programs that spawn in turn. -/
def SpawnsInTurn (s : Sys P) (a : Act P) : Prop := a.ioOnly = true ∧ InTurn s a

theorem SpawnsInTurn.kept (reached : (system P).Reach SpawnsInTurn .init s) :
    ∃ place, Placed s place ∧ Kept s place ∧ NoLeak s place := by
  refine reach_placed (I := fun s place => Kept s place ∧ NoLeak s place) reached
    ⟨.init, .init⟩ ?_
  rintro s place a s' place' - inv ⟨kept, none_left⟩ ⟨direct, turn⟩ effect
  refine ⟨kept.step inv effect direct turn, none_left.step inv ?_ effect⟩
  rintro p rfl
  cases direct

/-! ## A step out of turn loses a coroutine -/

omit [DecidableEq P] in
theorem Placed.not_held (inv : Placed s place) (none_left : NoLeak s place) {c : CoroutineRefMut}
    (lost : place c = .lost) : ¬ s.Held c := by
  have free {p : P} (held : (s.threads p).pc.hand = some c) : False := by
    simpa [lost] using inv.at_hand held
  rintro (queued | ⟨p, filled⟩ | ⟨p, held⟩ | ⟨p, token, fd, entry⟩)
  · simpa [lost] using (inv.queue.mem c).1 queued
  · simpa [lost] using (inv.slot p c).1 filled
  · exact free held
  · rcases none_left p token c fd entry with (waits | at_pc | ⟨at_pc, -⟩) | ⟨_, at_pc⟩
    · simp [lost] at waits
    all_goals exact free (p := p) (by rw [at_pc]; rfl)

/-- The second half of a spawn with a filled slot. -/
theorem Placed.overwritten (regs : Registers s) (inv : Placed s place) (none_left : NoLeak s place)
    {p : P} (old : CoroutineRefMut) (filled : (s.threads p).newSpawned = some old)
    (at_pc : (s.threads p).pc = .userSpawn ∨ ∃ h, (s.threads p).pc = .exec h .spawnOpts) :
    ∃ u, step s (.spawnInner p) = some u ∧ ¬ u.AllHeld := by
  have at_slot := (inv.slot p old).1 filled
  have older : old < s.next := inv.born (by simp [at_slot])
  have lost : place.spawn s p old = .lost := by
    simp [Placing.spawn, filled, Function.update_of_ne (Nat.ne_of_lt older)]
  have loses {u : Sys P} (effect : Effect s place (.spawnInner p) u (place.spawn s p))
      (next : u.next = s.next + 1) : ¬ u.AllHeld := by
    have inv' := effect.placed inv
    have life := inv'.life old
    rw [lost] at life
    have spawned : u.coros old = .spawned := life
    intro all
    exact inv'.not_held (none_left.step inv (by simp) effect) lost
      (all old (next ▸ Nat.lt_succ_of_lt older) (by rw [spawned]; rfl))
  rcases at_pc with at_pc | ⟨h, at_pc⟩
  · refine ⟨(s.boxSpawned p).setPc p .user, ?_, loses (.spawnOut (.inl ⟨rfl, at_pc⟩)) rfl⟩
    simp only [step, at_pc, spawnOpts_out (idle_of_pc regs (.inr at_pc))]
  · refine ⟨(s.boxSpawned p).switchBack p h .spawnOpts, ?_,
      loses (.spawnIn (.inl ⟨rfl, at_pc⟩)) rfl⟩
    simp only [step, at_pc, spawnOpts_in regs at_pc]

/-- A step of a program that registers successfully keeps all three invariants. -/
theorem Placed.next (regs : Registers s) (inv : Placed s place) (none_left : NoLeak s place)
    (direct : a.ioOnly = true) (taken : step s a = some s') :
    Registers s' ∧ ∃ place', Placed s' place' ∧ NoLeak s' place' := by
  obtain ⟨place', effect⟩ := effect_of_step regs inv taken
  refine ⟨regs.step taken, place', effect.placed inv, none_left.step inv ?_ effect⟩
  rintro p rfl
  cases direct

/-- A coroutine popped in front of a filled slot overwrites it when it spawns. -/
theorem Placed.popped_in_front (regs : Registers s) (inv : Placed s place)
    (none_left : NoLeak s place) {p : P} {c : CoroutineRefMut} (old : CoroutineRefMut)
    (filled : (s.threads p).newSpawned = some old) (at_pc : (s.threads p).pc = .runTask c) :
    ∃ u, (system P).exec s [.tau p, .spawn p, .spawnInner p] = some u ∧ ¬ u.AllHeld := by
  have life := inv.hand_life (p := p) (c := c) (by rw [at_pc]; rfl)
  simp only [Thread.HandLife, at_pc] at life
  obtain ⟨k, saved, live, -⟩ := life
  have point : k.point = .user := Context.live_point live
  have resumed : step s (.tau p) = some (s.resume p c) := by simp [step, Sys.tau, at_pc]
  have runs : ((s.resume p c).threads p).pc = .exec c .user ∧
      ((s.resume p c).threads p).newSpawned = some old := by
    simp [Sys.resume, saved, point, filled]
  have counted : step (s.resume p c) (.spawn p) =
      some ((s.resume p c).fetchAdd p (.exec c .spawnOpts)) := by simp [step, runs.1]
  obtain ⟨regs, place, inv, none_left⟩ := inv.next regs none_left rfl resumed
  obtain ⟨regs, place, inv, none_left⟩ := inv.next regs none_left rfl counted
  obtain ⟨u, boxed, loses⟩ := inv.overwritten regs none_left (p := p) old
    (by simp [Sys.fetchAdd, runs.2]) (.inr ⟨c, by simp [Sys.fetchAdd]⟩)
  exact ⟨u, by simp [Lts.exec, system, resumed, counted, boxed], loses⟩

theorem SpawnsInTurn.loses (reached : (system P).Reach SpawnsInTurn .init s)
    (direct : a.ioOnly = true) (taken : step s a = some s') (breaks : ¬ InTurn s a) :
    ∃ as u, (∀ b ∈ as, b.ioOnly = true) ∧ (system P).exec s' as = some u ∧ ¬ u.AllHeld := by
  obtain ⟨place, inv, -, none_left⟩ := SpawnsInTurn.kept reached
  obtain ⟨regs', place', inv', none_left'⟩ :=
    inv.next (Registers.reach reached) none_left direct taken
  cases a with
  | spawn p =>
      simp only [InTurn, Classical.not_imp] at breaks
      obtain ⟨at_pc, waits⟩ := breaks
      obtain ⟨old, filled⟩ := Option.ne_none_iff_exists'.mp waits
      simp only [step, at_pc, Option.some.injEq] at taken
      subst taken
      obtain ⟨u, boxed, loses⟩ := inv'.overwritten regs' none_left' (p := p) old
        (by simp [Sys.fetchAdd, filled]) (.inl (by simp [Sys.fetchAdd]))
      exact ⟨[.spawnInner p], u, by simp [Act.ioOnly], by simp [Lts.exec, system, boxed], loses⟩
  | tau p =>
      simp only [InTurn, Classical.not_imp, not_or] at breaks
      obtain ⟨at_pc, waits, queued⟩ := breaks
      obtain ⟨old, filled⟩ := Option.ne_none_iff_exists'.mp waits
      simp only [step, Sys.tau, at_pc, Option.some.injEq, Sys.popQueue] at taken
      cases popped : s.globalQueue.pop with
      | none => exact absurd (BoundedQueue.pop_none.1 popped) queued
      | some head =>
          obtain ⟨c, q⟩ := head
          simp only [popped] at taken
          subst taken
          obtain ⟨u, run, loses⟩ := inv'.popped_in_front regs' none_left' (p := p) (c := c)
            old (by simp [filled]) (by simp)
          exact ⟨_, u, by simp [Act.ioOnly], run, loses⟩
  | _ => simp [InTurn] at breaks

/-- When the code keeps every spawned coroutine. -/
theorem none_lost_in_turn :
    (∀ s : Sys P, (system P).Reach SpawnsInTurn .init s → NoneLost s) ∧
    ∀ (s s' : Sys P) (a : Act P), (system P).Reach SpawnsInTurn .init s → a.ioOnly = true →
      step s a = some s' → ¬ InTurn s a →
        ∃ as u, (∀ b ∈ as, b.ioOnly = true) ∧ (system P).exec s' as = some u ∧ ¬ u.AllHeld := by
  refine ⟨?_, fun s s' a reached direct taken breaks =>
    SpawnsInTurn.loses reached direct taken breaks⟩
  intro s reached
  obtain ⟨place, inv, kept, -⟩ := SpawnsInTurn.kept reached
  exact kept.none_lost inv

/-- One call before `run` keeps its coroutine; a second can lose it. -/
theorem first_kept_second_loses : ∃ s s' : Sys Unit,
    (system Unit).exec .init [.spawn (), .spawnInner ()] = some s ∧ NoneLost s ∧
    step s (.spawn ()) = some s' ∧ ∃ as u, (system Unit).exec s' as = some u ∧ ¬ u.AllHeld := by
  have reached : (system Unit).Reach SpawnsInTurn .init _ :=
    .step (.step .start ⟨rfl, fun _ => rfl⟩ (a := .spawn ()) rfl) ⟨rfl, trivial⟩
      (a := .spawnInner ()) rfl
  obtain ⟨as, u, -, run, loses⟩ := none_lost_in_turn.2 _ _ (.spawn ()) reached rfl rfl
    fun turn => by cases turn rfl
  exact ⟨_, _, rfl, none_lost_in_turn.1 _ reached, rfl, as, u, run, loses⟩

/-- Two calls of `Scheduler::spawn` before `run` lose the first coroutine. -/
theorem two_spawns_lose : ¬ ∀ s : Sys Unit,
    (system Unit).Reach (fun _ a => a.ioOnly = true) .init s → NoneLost s := by
  intro all
  have run : (system Unit).exec .init [.spawn (), .spawnInner (), .spawn (), .spawnInner ()] =
    some _ := rfl
  have held := (all _ (.of_exec run (Lts.meets_of_forall (by simp [Act.ioOnly])))).held
  rcases held 0 (by decide) rfl with queued | ⟨p, filled⟩ | ⟨p, hand⟩ | ⟨p, token, fd, entry⟩
  · cases queued
  · cases filled
  · cases hand
  · cases entry

end SimpleSched.Runtime
