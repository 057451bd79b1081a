/-
# Runtime.Account -- work_counts and the coroutines it counts

`Scheduler::spawn_opts` adds one before it boxes, `Scheduler::finished` takes one
before it frees, so along every run that spawns through the `Scheduler`
`work_counts` is the number of coroutines not yet finished plus the number of
threads between the halves of a spawn (`Balanced`).  `Processor::spawn_opts` is
public and boxes without adding; one call of it breaks the balance for good.
-/
import SimpleSched.Runtime.PlaceStep
import SimpleSched.Theory.Counting

namespace SimpleSched.Runtime

set_option autoImplicit false

open Mio Theory

variable {P : Type}

/-- The coroutines that were created and not yet passed to `Scheduler::finished`. -/
def Sys.live (s : Sys P) : Finset CoroutineRefMut :=
  (Finset.range s.next).filter fun c => (s.coros c).finished = 0

theorem Sys.mem_live {s : Sys P} {c : CoroutineRefMut} :
    c ∈ s.live ↔ c < s.next ∧ (s.coros c).finished = 0 := by
  simp [Sys.live]

variable [Fintype P]

/-- The threads between the halves of `Scheduler::spawn_opts`. -/
def Sys.spawning (s : Sys P) : Finset P :=
  Finset.univ.filter fun p => (s.threads p).pc.spawning = true

theorem Sys.mem_spawning {s : Sys P} {p : P} :
    p ∈ s.spawning ↔ (s.threads p).pc.spawning = true := by
  simp [Sys.spawning]

def Balanced (s : Sys P) : Prop := s.workCounts = s.live.card + s.spawning.card

/-! ## What a step does to the three counts -/

variable {s s' : Sys P} {place place' : Placing P} {a : Act P} {p : P}

omit [Fintype P] in
theorem live_same (next : s'.next = s.next)
    (finished : ∀ c, (s'.coros c).finished = (s.coros c).finished) : s'.live = s.live := by
  simp [Sys.live, next, finished]

theorem spawning_same
    (same : ∀ q, (s'.threads q).pc.spawning = (s.threads q).pc.spawning) :
    s'.spawning = s.spawning := by
  simp [Sys.spawning, same]

inductive Tally (s s' : Sys P) : Act P → Prop
  | same {b : Act P} : (∀ q, b ≠ .processorSpawn q) → s'.workCounts = s.workCounts →
      s'.live = s.live → s'.spawning = s.spawning → Tally s s' b
  | counted {q : P} : s'.workCounts = s.workCounts + 1 → s'.live = s.live →
      s'.spawning.card = s.spawning.card + 1 → Tally s s' (.spawn q)
  | boxed {q : P} : s'.workCounts = s.workCounts → s'.live.card = s.live.card + 1 →
      s.spawning.card = s'.spawning.card + 1 → Tally s s' (.spawnInner q)
  | uncounted {q : P} : s'.workCounts = s.workCounts → s'.live.card = s.live.card + 1 →
      s'.spawning = s.spawning → Tally s s' (.processorSpawn q)
  | finished {q : P} : s'.workCounts = s.workCounts - 1 → s.live.card = s'.live.card + 1 →
      s'.spawning = s.spawning → Tally s s' (.tau q)

variable [DecidableEq P]

omit [Fintype P] in
/-- Only `Scheduler::finished` counts a coroutine as finished. -/
theorem Effect.finished_same (inv : Placed s place) (effect : Effect s place a s' place')
    (other : ∀ p c, a.actor = some p → (s.threads p).pc ≠ .finish c) (c : CoroutineRefMut) :
    (s'.coros c).finished = (s.coros c).finished := by
  have turn := effect.turn inv c
  generalize s'.coros c = x at turn
  cases turn with
  | same | yield | ended | resumed | freed => rfl
  | spawned fresh =>
      have life := inv.life c
      rw [(inv.unborn c).2 (by rw [fresh])] at life
      have unborn : s.coros c = .unborn := life
      simp [unborn, Coroutine.spawned, Coroutine.unborn]
  | finished actor at_pc => exact absurd at_pc (other _ c actor)

theorem spawning_update {t : Thread} (threads : s'.threads = Function.update s.threads p t)
    (same : t.pc.spawning = (s.threads p).pc.spawning) : s'.spawning = s.spawning := by
  apply spawning_same
  intro q
  rw [threads]
  by_cases h : q = p
  · subst h; simpa using same
  · rw [Function.update_of_ne h]

theorem spawning_gain {t : Thread} (threads : s'.threads = Function.update s.threads p t)
    (before : (s.threads p).pc.spawning = false) (after : t.pc.spawning = true) :
    s'.spawning.card = s.spawning.card + 1 := by
  refine card_filter_gain (Finset.mem_univ p) ?_ (by simp [before]) ?_
  · intro q other
    rw [threads, Function.update_of_ne other]
  · simpa [threads] using after

theorem spawning_lose {t : Thread} (threads : s'.threads = Function.update s.threads p t)
    (before : (s.threads p).pc.spawning = true) (after : t.pc.spawning = false) :
    s.spawning.card = s'.spawning.card + 1 := by
  refine card_filter_lose (Finset.mem_univ p) ?_ before ?_
  · intro q other
    rw [threads, Function.update_of_ne other]
  · simp [threads, after]

omit [Fintype P] [DecidableEq P] in
/-- The coroutine that is boxed is one more. -/
theorem live_boxed (next : s'.next = s.next + 1)
    (finished : ∀ c, c ≠ s.next → (s'.coros c).finished = (s.coros c).finished)
    (fresh : (s'.coros s.next).finished = 0) : s'.live.card = s.live.card + 1 := by
  rw [Sys.live, next]
  exact card_filter_range_succ (fun c other => by rw [finished c other]) fresh

theorem Effect.tally (inv : Placed s place) (effect : Effect s place a s' place') : Tally s s' a := by
  -- the steps that neither box nor finish
  have quiet {p : P} {t : Thread} (threads : s'.threads = Function.update s.threads p t)
      (actor : a.actor = some p) (counted : ∀ q, a ≠ .processorSpawn q)
      (counts : s'.workCounts = s.workCounts) (next : s'.next = s.next)
      (other : ∀ c, (s.threads p).pc ≠ .finish c)
      (spawning : t.pc.spawning = (s.threads p).pc.spawning) : Tally s s' a := by
    refine .same counted counts (live_same next (effect.finished_same inv ?_))
      (spawning_update threads spawning)
    intro q c acts
    obtain rfl : p = q := Option.some.inj (actor.symm.trans acts)
    exact other c
  cases effect with
  | @quiet p _ pc step =>
      cases step with
      | leave at_pc =>
          rcases at_pc with at_pc | at_pc <;>
            exact quiet rfl rfl (by simp) rfl rfl (by simp [at_pc]) (by simp [at_pc, Pc.spawning])
      | enter at_pc | sched at_pc | block at_pc | empty at_pc | poll at_pc | count at_pc
      | stop at_pc | sleep at_pc | polled at_pc | drained at_pc | pollErr at_pc | refused at_pc =>
          exact quiet rfl rfl (by simp) rfl rfl (by simp [at_pc]) (by simp [at_pc, Pc.spawning])
  | full => exact .same (by simp) rfl rfl rfl
  | fetchAdd from_pc =>
      refine .counted rfl rfl (spawning_gain rfl ?_ ?_)
      · rcases from_pc with ⟨at_pc, -⟩ | ⟨h, at_pc, -⟩ <;> simp [at_pc, Pc.spawning]
      · rcases from_pc with ⟨-, rfl⟩ | ⟨h, -, rfl⟩ <;> simp [Pc.spawning]
  | @spawnOut p _ from_pc =>
      have threads : ((s.boxSpawned p).setPc p .user).threads = Function.update s.threads p
          { s.threads p with newSpawned := some s.next, pc := .user } := by simp [Sys.boxSpawned]
      have live : ((s.boxSpawned p).setPc p .user).live.card = s.live.card + 1 :=
        live_boxed rfl (fun c other => by simp [Sys.boxSpawned, Function.update_of_ne other])
          (by simp [Sys.boxSpawned, Coroutine.spawned])
      rcases from_pc with ⟨rfl, at_pc⟩ | ⟨rfl, at_pc⟩
      · exact .boxed rfl live (spawning_lose threads (by simp [at_pc, Pc.spawning]) rfl)
      · exact .uncounted rfl live (spawning_update threads (by simp [at_pc, Pc.spawning]))
  | @spawnIn p _ h from_pc =>
      have threads : ((s.boxSpawned p).switchBack p h .spawnOpts).threads =
          Function.update s.threads p { s.threads p with
            newSpawned := some s.next, curRunning := none,
            lastResult := some (.ok .suspended), pc := .back h } := by
        simp [Sys.boxSpawned, Sys.switchBack, Context.result]
      have held : place h = .hand p :=
        inv.at_hand (by rcases from_pc with ⟨-, at_pc⟩ | ⟨-, at_pc⟩ <;> rw [at_pc] <;> rfl)
      have older : h < s.next := inv.born (by simp [held])
      have live : ((s.boxSpawned p).switchBack p h .spawnOpts).live.card = s.live.card + 1 := by
        refine live_boxed rfl ?_ ?_
        · intro c other
          by_cases same : c = h
          · subst same
            simp [Sys.boxSpawned, Sys.switchBack, Function.update_of_ne other]
          · simp [Sys.boxSpawned, Sys.switchBack, Function.update_of_ne other,
              Function.update_of_ne same]
        · simp [Sys.boxSpawned, Sys.switchBack, Function.update_of_ne (Nat.ne_of_gt older),
            Coroutine.spawned]
      rcases from_pc with ⟨rfl, at_pc⟩ | ⟨rfl, at_pc⟩
      · exact .boxed rfl live (spawning_lose threads (by simp [at_pc, Pc.spawning]) rfl)
      · exact .uncounted rfl live (spawning_update threads (by simp [at_pc, Pc.spawning]))
  | yield at_exec yields =>
      cases yields <;> exact quiet rfl rfl (by simp) rfl rfl (by simp [at_exec]) (by simp [at_exec, Pc.spawning])
  | ended at_exec ends =>
      cases ends <;> exact quiet rfl rfl (by simp) rfl rfl (by simp [at_exec]) (by simp [at_exec, Pc.spawning])
  | inserted at_pc | registered at_pc | polled at_pc | handled at_pc | deregistered at_pc
  | popped at_pc | drained at_pc | left at_pc | resumed at_pc | freed at_pc =>
      exact quiet rfl rfl (by simp) rfl rfl (by simp [at_pc]) (by simp [at_pc, Pc.spawning])
  | setHolds => exact .same (by simp) rfl rfl rfl
  | @pushed p c q pushing =>
      refine quiet rfl rfl (by simp) rfl rfl ?_ ?_
      · intro d at_pc
        simp [at_pc, Pc.pushing] at pushing
      · cases at_pc : (s.threads p).pc <;> simp_all [Pc.pushing, Pc.pushed, Pc.spawning]
  | @took p c k at_pc =>
      refine quiet rfl rfl (by simp) rfl rfl (by simp [at_pc]) ?_
      rcases Sys.runTaskArm_cases c k.result with arm | arm | arm <;> simp [at_pc, arm, Pc.spawning]
  | @finished p c at_pc =>
      have held : (s.threads p).pc.hand = some c := by rw [at_pc]; rfl
      have life := inv.hand_life held
      simp only [Thread.HandLife, at_pc] at life
      have born : c < s.next := inv.born (by simp [inv.at_hand held])
      refine .finished rfl ?_ (spawning_update rfl (by simp [at_pc, Pc.spawning]))
      refine card_filter_lose (Finset.mem_range.2 born) ?_ life.2.2.finished ?_
      · intro d other
        simp [Sys.finished, Function.update_of_ne other]
      · simp [Sys.finished]

section Live

omit [Fintype P] [DecidableEq P]

variable {c : CoroutineRefMut}

/-- A coroutine is live, or does not exist, or it is being freed, or it has been. -/
theorem Placed.live_or_gone (inv : Placed s place) (c : CoroutineRefMut) : c ∈ s.live ∨
    place c = .unborn ∨ place c = .freed ∨ ∃ p, place c = .hand p ∧ (s.threads p).pc = .free c := by
  by_cases unborn : place c = .unborn
  · exact .inr (.inl unborn)
  · rcases inv.past c with ⟨e, past⟩ | ⟨p, at_pc, -⟩ | ⟨freed, -⟩
    · exact .inl (Sys.mem_live.2 ⟨inv.born unborn, past.finished⟩)
    · exact .inr (.inr (.inr ⟨p, inv.at_hand (by rw [at_pc]; rfl), at_pc⟩))
    · exact .inr (.inr (.inl freed))

/-- A coroutine in the queue, in a slot or waiting is live. -/
theorem Placed.live_of_place (inv : Placed s place)
    (there : place c = .queue ∨ (∃ p, place c = .slot p) ∨ ∃ p token, place c = .wait p token) :
    c ∈ s.live := by
  refine (inv.live_or_gone c).resolve_right ?_
  rintro (at_c | at_c | ⟨q, at_c, -⟩) <;> simp [at_c] at there

/-- So is the one that a thread works on, unless it is to be freed. -/
theorem Placed.live_of_hand (inv : Placed s place) (held : (s.threads p).pc.hand = some c)
    (kept : (s.threads p).pc ≠ .free c) : c ∈ s.live := by
  have at_hand := inv.at_hand held
  rcases inv.live_or_gone c with live | at_c | at_c | ⟨q, at_c, frees⟩
  · exact live
  · simp [at_hand] at at_c
  · simp [at_hand] at at_c
  · obtain rfl : p = q := by simpa [at_hand] using at_c
    exact absurd frees kept

end Live

/-! ## Runs that spawn through the Scheduler -/

/-- Every spawn goes through `Scheduler::spawn_opts`. -/
def CountsSpawns (_ : Sys P) (a : Act P) : Prop := ∀ p, a ≠ .processorSpawn p

theorem Balanced.step (balanced : Balanced s) (inv : Placed s place) (counts : CountsSpawns s a)
    (effect : Effect s place a s' place') : Balanced s' := by
  unfold Balanced at *
  cases effect.tally inv with
  | same _ work live spawning => rw [work, live, spawning, balanced]
  | counted work live spawning =>
      rw [work, live, spawning, balanced]
      omega
  | boxed work live spawning => omega
  | uncounted => exact absurd rfl (counts _)
  | finished work live spawning =>
      rw [work, spawning]
      omega

omit [DecidableEq P] in
theorem Balanced.init : Balanced (Sys.init : Sys P) := by
  have live : (Sys.init : Sys P).live = ∅ := rfl
  have spawning : (Sys.init : Sys P).spawning = ∅ := by simp [Sys.spawning, Sys.init, Pc.spawning]
  rw [Balanced, live, spawning]
  rfl

theorem CountsSpawns.balanced (reached : (system P).Reach CountsSpawns .init s) :
    ∃ place, Placed s place ∧ Balanced s :=
  reach_placed (I := fun s _ => Balanced s) reached .init
    fun _ _ _ _ _ _ inv balanced counts effect => balanced.step inv counts effect

/-- What `work_counts` promises. -/
structure Accounted (s : Sys P) : Prop where
  exact : (∀ p, (s.threads p).pc.spawning = false) → s.workCounts = s.live.card
  no_wrap : ∀ p c, (s.threads p).pc = .finish c → s.workCounts ≠ 0
  no_early_stop : ∀ p t, (s.threads p).pc = .workCount → step s (.tau p) = some t →
    (t.threads p).pc = .done → s.live = ∅

theorem Balanced.accounted (inv : Placed s place) (balanced : Balanced s) : Accounted s where
  exact none_spawning := by
    have empty : s.spawning = ∅ := by simp [Sys.spawning, none_spawning]
    rw [balanced, empty]
    rfl
  no_wrap p c at_pc := by
    have live : c ∈ s.live := inv.live_of_hand (by rw [at_pc]; rfl) (by simp [at_pc])
    have := Finset.card_pos.2 ⟨c, live⟩
    unfold Balanced at balanced
    omega
  no_early_stop p t at_pc taken stopped := by
    simp only [Runtime.step, Sys.tau, at_pc, Option.some.injEq] at taken
    subst taken
    simp only [Sys.setPc_threads, Function.update_self] at stopped
    split at stopped
    · rename_i zero
      unfold Balanced at balanced
      exact Finset.card_eq_zero.1 (by omega)
    · cases stopped

/-- Exactly the calls of `Processor::spawn_opts` upset the account. -/
theorem accounted_when_counted :
    (∀ s : Sys P, (system P).Reach CountsSpawns .init s → Accounted s) ∧
    ∀ (s s' : Sys P) (p : P), (system P).Reach CountsSpawns .init s →
      (∀ q, (s.threads q).pc.spawning = false) → step s (.processorSpawn p) = some s' →
        ¬ Accounted s' := by
  refine ⟨?_, ?_⟩
  · intro s reached
    obtain ⟨place, inv, balanced⟩ := CountsSpawns.balanced reached
    exact balanced.accounted inv
  · intro s s' p reached none_spawning taken accounted
    obtain ⟨place, inv, balanced⟩ := CountsSpawns.balanced reached
    obtain ⟨place', effect⟩ := effect_of_step (Registers.reach reached) inv taken
    have before := (balanced.accounted inv).exact none_spawning
    cases effect.tally inv with
    | uncounted work live spawning =>
        have after := accounted.exact fun q => by
          have absent : q ∉ s'.spawning := by
            rw [spawning, Sys.mem_spawning, none_spawning q]
            simp
          simpa [Sys.mem_spawning] using absent
        omega
    | same other => exact absurd rfl (other p)

/-- A coroutine spawned through the scheduler is counted, and one spawned on the
processor itself is not. -/
theorem spawned_counted_and_uncounted : ∃ s s' : Sys Unit,
    (system Unit).exec .init [.spawn (), .spawnInner ()] = some s ∧ Accounted s ∧
    step s (.processorSpawn ()) = some s' ∧ ¬ Accounted s' := by
  have reached : (system Unit).Reach CountsSpawns .init _ :=
    .step (.step .start (a := .spawn ()) (by simp [CountsSpawns]) rfl)
      (a := .spawnInner ()) (by simp [CountsSpawns]) rfl
  exact ⟨_, _, rfl, accounted_when_counted.1 _ reached, rfl,
    accounted_when_counted.2 _ _ () reached (fun _ => rfl) rfl⟩

/-- `Processor::current().spawn_opts` boxes a coroutine that no unit counts. -/
theorem processor_spawn_uncounted : ¬ ∀ s : Sys Unit,
    (system Unit).Reach Lts.anyStep .init s → Accounted s := by
  intro all
  have run : (system Unit).exec .init [.processorSpawn ()] = some _ := rfl
  have counted := (all _ (.of_exec_any run)).exact fun _ => rfl
  exact absurd counted (by decide)

end SimpleSched.Runtime
