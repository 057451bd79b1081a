/-
# Runtime.Stranded -- a coroutine nothing has keeps the scheduler running for ever

A coroutine can be left with no way back: its slot is overwritten before it has run, or
it calls `Scheduler::block`, which keeps no handle for anyone to pass to
`Scheduler::ready`.  It is then never resumed (`Stranded.step`).  It stays counted in
`work_counts`, which is all that `schedule` looks at before it breaks, so from then on
no thread of any run returns from `schedule` (`unheld_forever`, `block_forever`).
-/
import SimpleSched.Runtime.Tasks
import SimpleSched.Runtime.NoneLost
import SimpleSched.Runtime.Quiescence

namespace SimpleSched.Runtime

set_option autoImplicit false

open Mio Theory

variable {P : Type}

/-- Its slot was overwritten, or it has blocked itself. -/
def Stranded (s : Sys P) (place : Placing P) (c : CoroutineRefMut) : Prop :=
  place c = .lost ∨ s.shows place c = .parked

variable {s s' t : Sys P} {place place' : Placing P} {a : Act P} {p : P} {c : CoroutineRefMut}

/-- It has not been finished. -/
theorem Stranded.live (inv : Placed s place) (stranded : Stranded s place c) : c ∈ s.live := by
  rcases inv.live_or_gone c with live | gone | gone | ⟨p, at_c, frees⟩
  · exact live
  all_goals
    exfalso
    rcases stranded with lost | shows
  · simp [lost] at gone
  · simp [Sys.shows, gone] at shows
  · simp [lost] at gone
  · simp [Sys.shows, gone] at shows
  · simp [lost] at at_c
  · simp [Sys.shows, at_c, Thread.shows, frees] at shows

/-- No thread is about to resume it. -/
theorem Stranded.not_next (inv : Placed s place) (stranded : Stranded s place c) :
    (s.threads p).pc ≠ .runTask c := by
  intro at_pc
  have at_c : place c = .hand p := inv.at_hand (by rw [at_pc]; rfl)
  rcases stranded with lost | shows
  · simp [lost] at at_c
  · simp [Sys.shows, at_c, Thread.shows, at_pc] at shows

/-- What nothing holds, and is not finished, was lost or is parked. -/
theorem Placed.stranded (inv : Placed s place) (born : c < s.next)
    (unfinished : (s.coros c).finished = 0) (unheld : ¬ s.Held c) : Stranded s place c := by
  have life := inv.life c
  cases at_c : place c with
  | lost => exact .inl at_c
  | parked => exact .inr (by simp [Sys.shows, at_c])
  | unborn => exact absurd ((inv.unborn c).1 at_c) (Nat.not_le_of_lt born)
  | slot p => exact absurd (.inr (.inl ⟨p, (inv.slot p c).2 at_c⟩)) unheld
  | queue => exact absurd (.inl ((inv.queue.mem c).2 at_c)) unheld
  | hand p => exact absurd (.inr (.inr (.inl ⟨p, (inv.hand p c).2 at_c⟩))) unheld
  | wait p token =>
      obtain ⟨fd, r, entry, -⟩ := (inv.io p).entry c token (.inl at_c)
      exact absurd (.inr (.inr (.inr ⟨p, token, fd, entry⟩))) unheld
  | freed =>
      rw [at_c] at life
      have := life.2.2.finished
      omega

variable [DecidableEq P]

/-- A coroutine no container has stays where it is. -/
theorem Effect.lost_place (inv : Placed s place) (effect : Effect s place a s' place')
    (lost : place c = .lost) : place' c = .lost := by
  have update {d : CoroutineRefMut} {l l' : Place P} (at_d : place d = l') (apart : l' ≠ .lost) :
      Function.update place d l c = .lost := by
    have other : c ≠ d := by
      rintro rfl
      exact apart (at_d.symm.trans lost)
    rwa [Function.update_of_ne other]
  have spawn (p : P) : place.spawn s p c = .lost := by
    have born : c ≠ s.next := Nat.ne_of_lt (inv.born (by simp [lost]))
    cases filled : (s.threads p).newSpawned with
    | none => simpa [Placing.spawn, filled, Function.update_of_ne born] using lost
    | some old =>
        have other : c ≠ old := by
          rintro rfl
          rw [(inv.slot p c).1 filled] at lost
          cases lost
        simpa [Placing.spawn, filled, Function.update_of_ne born, Function.update_of_ne other]
          using lost
  cases effect with
  | quiet | full | fetchAdd | yield | ended | inserted | registered | setHolds | polled
  | deregistered | resumed | took | finished => exact lost
  | spawnOut | spawnIn => exact spawn _
  | handled _ _ waits => exact update waits (by simp)
  | pushed pushing => exact update (inv.at_hand (Pc.hand_of_pushing pushing)) (by simp)
  | popped _ taken =>
      exact update ((inv.queue.mem _).1 (by simp [BoundedQueue.pop_some taken])) (by simp)
  | drained _ filled => exact update ((inv.slot _ _).1 filled) (by simp)
  | left at_pc | freed at_pc => exact update (inv.at_hand (by rw [at_pc]; rfl)) (by simp)

/-- Nothing is seen to happen to a task that has parked. -/
theorem Effect.parked_shows (inv : Placed s place) (effect : Effect s place a s' place')
    (taken : Runtime.step s a = some s') {t : Tasks CoroutineRefMut P Token}
    (status : t.status = s.shows place) (shows : s.shows place c = .parked) :
    s'.shows place' c = .parked := by
  obtain ⟨t', goes, status'⟩ := effect.seen inv taken status
  have parked : t.status c = .parked := by rw [status, shows]
  rw [← status']
  cases seen : label s a with
  | none =>
      rw [seen] at goes
      cases goes
      exact parked
  | some l =>
      rw [seen, Option.toList_some, Lts.exec_singleton] at goes
      have next := Tasks.step_status goes c
      rw [parked] at next
      cases own : l.own c with
      | none =>
          rw [own] at next
          exact (Option.some.inj next).symm
      | some o =>
          rw [own] at next
          simp [Lts.exec, life, Status.next] at next

/-- It stays so, and is not resumed. -/
theorem Stranded.step (inv : Placed s place) (effect : Effect s place a s' place')
    (taken : Runtime.step s a = some s') {t : Tasks CoroutineRefMut P Token}
    (status : t.status = s.shows place) (stranded : Stranded s place c) :
    Stranded s' place' c ∧ (s'.coros c).resumed = (s.coros c).resumed := by
  refine ⟨stranded.imp (effect.lost_place inv) (effect.parked_shows inv taken status), ?_⟩
  have turn := effect.turn inv c
  generalize s'.coros c = x at turn
  cases turn with
  | same | yield | ended | finished | freed => rfl
  | spawned new =>
      have born := (Sys.mem_live.1 (stranded.live inv)).1
      exact absurd new (Nat.ne_of_lt born)
  | resumed _ at_pc => exact absurd at_pc (stranded.not_next inv)

/-! ## Whole runs -/

variable [Fintype P]

/-- What `t` is, in a run from `s` in which `c` is stranded: `c` is unfinished and has not been
resumed, it is counted, and no thread has left `schedule` through its `break`. -/
structure Forever (s t : Sys P) (c : CoroutineRefMut) : Prop where
  live : c ∈ t.live
  resumed : (t.coros c).resumed = (s.coros c).resumed
  counted : t.workCounts ≠ 0
  inside : ∀ p, (t.threads p).pc = .done → (s.threads p).pc = .done

omit [DecidableEq P] in
theorem Balanced.counted (balanced : Balanced s) (live : c ∈ s.live) : s.workCounts ≠ 0 := by
  have := Finset.card_pos.2 ⟨c, live⟩
  unfold Balanced at balanced
  omega

theorem Stranded.forever {t₀ : Tasks CoroutineRefMut P Token} (regs : Registers s)
    (inv : Placed s place) (balanced : Balanced s) (status : t₀.status = s.shows place)
    (stranded : Stranded s place c) (later : (system P).Reach CountsSpawns s t) : Forever s t c := by
  have holds : Registers t ∧ ∃ place, Placed t place ∧ Balanced t ∧
      (∃ tasks : Tasks CoroutineRefMut P Token, tasks.status = t.shows place) ∧
      Stranded t place c ∧ (t.coros c).resumed = (s.coros c).resumed ∧
      ∀ p, (t.threads p).pc = .done → (s.threads p).pc = .done := by
    refine later.invariant (I := fun t => Registers t ∧ ∃ place, Placed t place ∧ Balanced t ∧
      (∃ tasks : Tasks CoroutineRefMut P Token, tasks.status = t.shows place) ∧
      Stranded t place c ∧ (t.coros c).resumed = (s.coros c).resumed ∧
      ∀ p, (t.threads p).pc = .done → (s.threads p).pc = .done)
      ⟨regs, place, inv, balanced, ⟨t₀, status⟩, stranded, rfl, fun _ done => done⟩ ?_
    rintro u a u' - ⟨regs, place, inv, balanced, ⟨tasks, status⟩, stranded, resumed, inside⟩ counts taken
    obtain ⟨place', effect⟩ := effect_of_step regs inv taken
    obtain ⟨tasks', -, status'⟩ := effect.seen inv taken status
    obtain ⟨stranded', same⟩ := stranded.step inv effect taken status
    refine ⟨regs.step taken, place', effect.placed inv, balanced.step inv counts effect,
      ⟨tasks', status'⟩, stranded', same.trans resumed, ?_⟩
    intro p done
    -- a thread breaks after it has read zero
    rcases (effect.observed (q := p) (by simp [done, Pc.Observed])).2 with at_pc | ⟨at_pc, -⟩ | zero
    · exact inside p (at_pc ▸ done)
    · simp [done] at at_pc
    · exact absurd zero.2.2 (balanced.counted (stranded.live inv))
  obtain ⟨-, place, inv, balanced, -, stranded, resumed, inside⟩ := holds
  exact ⟨stranded.live inv, resumed, balanced.counted (stranded.live inv), inside⟩

/-- A coroutine that was spawned and not finished, and that nothing has. -/
def Sys.Unheld (s : Sys P) (c : CoroutineRefMut) : Prop :=
  c < s.next ∧ (s.coros c).finished = 0 ∧ ¬ s.Held c

theorem CountsSpawns.shown (reached : (system P).Reach CountsSpawns .init s) :
    Registers s ∧ Balanced s ∧ ∃ place, Placed s place ∧
      ∃ tasks : Tasks CoroutineRefMut P Token, tasks.status = s.shows place := by
  obtain ⟨-, -, balanced⟩ := CountsSpawns.balanced reached
  obtain ⟨tasks, regs, place, inv, status⟩ :=
    refinement.related refinement_start (reached.mono fun _ _ _ => trivial)
  exact ⟨regs, balanced, place, inv, tasks, status⟩

/-- Where every spawn goes through the `Scheduler` an unheld coroutine is never resumed
again, and from then on no thread returns from `schedule`. -/
theorem unheld_forever (reached : (system P).Reach CountsSpawns .init s) (unheld : s.Unheld c)
    (later : (system P).Reach CountsSpawns s t) : Forever s t c := by
  obtain ⟨regs, balanced, place, inv, tasks, status⟩ := CountsSpawns.shown reached
  exact (inv.stranded unheld.1 unheld.2.1 unheld.2.2).forever regs inv balanced status later

/-- Two spawns outside `schedule`, one after the other. -/
def spawnedTwice : List (Act Unit) := [.spawn (), .spawnInner (), .spawn (), .spawnInner ()]

theorem spawned_twice_forever : ∃ s t, (system Unit).exec .init spawnedTwice = some s ∧ s.Unheld 0 ∧
    (system Unit).exec s [.enter (), .tau (), .tau (), .tau ()] = some t ∧
    (t.threads ()).pc = .drain ∧ Forever s t 0 := by
  have runs : ((system Unit).exec .init spawnedTwice).any (fun s =>
      (s.next = 2 ∧ (s.coros 0).finished = 0 ∧ s.globalQueue.items = [] ∧
        (s.threads ()).newSpawned = some 1 ∧ (s.threads ()).pc = .user ∧
        (s.threads ()).slabs.count = 0) ∧
      ((system Unit).exec s [.enter (), .tau (), .tau (), .tau ()]).any fun t =>
        (t.threads ()).pc = .drain) = true := by
    decide +kernel
  obtain ⟨s, run, rest⟩ := (Option.any_eq_true _ _).1 runs
  obtain ⟨⟨next, unfinished, queue, slot, at_pc, slabs⟩, goes⟩ := of_decide_eq_true rest
  obtain ⟨t, goes, at_drain⟩ := (Option.any_eq_true _ _).1 goes
  have unheld : s.Unheld 0 := by
    refine ⟨by simp [next], unfinished, ?_⟩
    rintro (queued | ⟨p, filled⟩ | ⟨p, held⟩ | ⟨p, token, fd, entry⟩)
    · simp [queue] at queued
    · simp [slot] at filled
    · simp [at_pc, Pc.hand] at held
    · simp [Slab.count_eq_zero.1 slabs token] at entry
  exact ⟨s, t, run, unheld, goes, of_decide_eq_true at_drain,
    unheld_forever (.of_exec run (Lts.meets_of_forall (by simp [CountsSpawns, spawnedTwice]))) unheld
      (.of_exec goes (Lts.meets_of_forall (by simp [CountsSpawns])))⟩

/-- The same holds from the step on in which a coroutine calls `Scheduler::block`: the
call does not return. -/
theorem block_forever (reached : (system P).Reach CountsSpawns .init s)
    (at_pc : (s.threads p).pc = .exec c .user) (blocks : step s (.block p) = some s')
    (later : (system P).Reach CountsSpawns s' t) : Forever s' t c := by
  have reached' : (system P).Reach CountsSpawns .init s' :=
    .step (a := .block p) reached (by simp [CountsSpawns]) blocks
  obtain ⟨regs, balanced, place, inv, tasks, status⟩ := CountsSpawns.shown reached'
  have saved : (s'.threads p).pc = .back c ∧ (s'.coros c).cell = .saved .block := by
    have here := (Registers.reach reached).executing at_pc
    simp only [Runtime.step, at_pc, Pc.caller, Option.map_some, Option.some.injEq] at blocks
    subst blocks
    simp [Sys.yieldFrom, Sys.yieldWith, here.1]
  have at_c : place c = .hand p := inv.at_hand (by rw [saved.1]; rfl)
  have shows : s'.shows place c = .parked := by
    simp [Sys.shows, at_c, Thread.shows, saved.1, saved.2, Context.shows]
  exact Stranded.forever regs inv balanced status (.inr shows) later

theorem blocks_forever : ∃ s s' t, (system Unit).exec .init [.spawn (), .spawnInner (), .enter (),
      .tau (), .tau (), .tau (), .tau (), .tau ()] = some s ∧
    step s (.block ()) = some s' ∧
    (system Unit).exec s' [.tau (), .tau (), .tau (), .tau (), .tau ()] = some t ∧
    (t.threads ()).pc = .drain ∧ Forever s' t 0 := by
  have runs : ((system Unit).exec .init [.spawn (), .spawnInner (), .enter (),
      .tau (), .tau (), .tau (), .tau (), .tau ()]).any (fun s => (s.threads ()).pc = .exec 0 .user ∧
        (step s (.block ())).any fun s' =>
          ((system Unit).exec s' [.tau (), .tau (), .tau (), .tau (), .tau ()]).any fun t =>
            (t.threads ()).pc = .drain) = true := by
    decide +kernel
  obtain ⟨s, run, rest⟩ := (Option.any_eq_true _ _).1 runs
  obtain ⟨at_pc, blocked⟩ := of_decide_eq_true rest
  obtain ⟨s', blocks, goes⟩ := (Option.any_eq_true _ _).1 blocked
  obtain ⟨t, goes, at_drain⟩ := (Option.any_eq_true _ _).1 goes
  exact ⟨s, s', t, run, blocks, goes, of_decide_eq_true at_drain,
    block_forever (.of_exec run (Lts.meets_of_forall (by simp [CountsSpawns]))) at_pc blocks
      (.of_exec goes (Lts.meets_of_forall (by simp [CountsSpawns])))⟩

end SimpleSched.Runtime
