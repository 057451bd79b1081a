/-
# Runtime.Capacity -- how many coroutines the global queue bears

`Scheduler::ready` spins until its push succeeds and is called by the threads that
pop.  A wedge holds a full queue and one more coroutine in every thread's hand, all
different and unfinished, so it needs `GLOBAL_QUEUE_SIZE` and one coroutine a
thread.  That many are enough: each spawn queues the spawner and runs the child
without a pop, so nested spawns fill the queue (`nest`).
-/
import SimpleSched.Runtime.Quiescence

namespace SimpleSched.Runtime

set_option autoImplicit false

open Mio Theory

variable {P : Type}

/-- The queue is full and every thread is in the retry loop of `Scheduler::ready`. -/
def Wedged (s : Sys P) : Prop :=
  s.globalQueue.items.length = GLOBAL_QUEUE_SIZE ∧ ∀ p, (s.threads p).pc.pushing.isSome = true

/-- There are never more than `bound` coroutines that are not finished. -/
def LiveWithin (bound : Nat) (s : Sys P) (a : Act P) : Prop :=
  ∀ p, a = .spawnInner p ∨ a = .processorSpawn p → s.live.card < bound

variable {s s' : Sys P} {place : Placing P} {bound : Nat}

/-! ## Below the bound -/

section Below

variable [Fintype P] [DecidableEq P]

theorem LiveWithin.live (reached : (system P).Reach (LiveWithin bound) .init s) :
    ∃ place, Placed s place ∧ s.live.card ≤ bound := by
  refine reach_placed (I := fun s _ => s.live.card ≤ bound) reached (Nat.zero_le _) ?_
  rintro s place a s' place' - inv below within effect
  cases effect.tally inv with
  | same _ _ live | counted _ live => rwa [live]
  | boxed _ live | uncounted _ live =>
      have := within _ (by first | exact .inl rfl | exact .inr rfl)
      omega
  | finished _ live => omega

omit [DecidableEq P] in
/-- What a wedge holds: the queue, and a coroutine a thread. -/
theorem Wedged.live (inv : Placed s place) (wedged : Wedged s) :
    GLOBAL_QUEUE_SIZE + Fintype.card P ≤ s.live.card := by
  choose hand pushing using fun p => Option.isSome_iff_exists.1 (wedged.2 p)
  have at_hand (p : P) : place (hand p) = .hand p := inv.at_hand (Pc.hand_of_pushing (pushing p))
  have hand_inj : Function.Injective hand := fun p q same => by
    have := at_hand p
    rw [same, at_hand q] at this
    exact (Place.hand.inj this).symm
  have ready (p : P) : hand p ∈ s.live := by
    refine inv.live_of_hand (Pc.hand_of_pushing (pushing p)) ?_
    intro frees
    simpa [frees, Pc.pushing] using pushing p
  have queued : s.globalQueue.items.toFinset ⊆ s.live := fun c mem =>
    inv.live_of_place (.inl ((inv.queue.mem c).1 (List.mem_toFinset.1 mem)))
  have apart : Disjoint s.globalQueue.items.toFinset (Finset.univ.image hand) := by
    apply Finset.disjoint_left.2
    intro c mem held
    obtain ⟨p, -, rfl⟩ := Finset.mem_image.1 held
    have := (inv.queue.mem _).1 (List.mem_toFinset.1 mem)
    simp [at_hand p] at this
  calc GLOBAL_QUEUE_SIZE + Fintype.card P
      = s.globalQueue.items.toFinset.card + (Finset.univ.image hand).card := by
        rw [List.toFinset_card_of_nodup inv.queue.nodup, wedged.1,
          Finset.card_image_of_injective _ hand_inj, Finset.card_univ]
    _ = (s.globalQueue.items.toFinset ∪ Finset.univ.image hand).card :=
        (Finset.card_union_of_disjoint apart).symm
    _ ≤ s.live.card := by
        refine Finset.card_le_card (Finset.union_subset queued ?_)
        intro c held
        obtain ⟨p, -, rfl⟩ := Finset.mem_image.1 held
        exact ready p

end Below

/-! ## Above it -/

section Above

/-- A run of `Scheduler::run` under the bound. -/
def RunWithin (bound : Nat) (main : P) (s : Sys P) (a : Act P) : Prop :=
  LiveWithin bound s a ∧ InRun main s a

variable [DecidableEq P] {main p q : P} {c : CoroutineRefMut}

/-- What the construction of a wedge asks of a state and tells of the one it leads to. -/
structure Running (bound : Nat) (main : P) (s : Sys P) (p : P) (c : CoroutineRefMut) : Prop where
  reached : (system P).Reach (RunWithin bound main) .init s
  at_pc : (s.threads p).pc = .exec c .user
  vacant : (s.threads p).newSpawned = none

/-- Steps that box no coroutine are under no bound. -/
theorem RunWithin.free {a : Act P} (reached : (system P).Reach (RunWithin bound main) .init s)
    (taken : step s a = some s') (free : ∀ p, a ≠ .spawnInner p ∧ a ≠ .processorSpawn p)
    (run : InRun main s a) : (system P).Reach (RunWithin bound main) .init s' :=
  .step reached ⟨fun p boxes => absurd boxes (not_or.2 (free p)), run⟩ taken

omit [DecidableEq P] in
theorem Sys.live_card_le (s : Sys P) : s.live.card ≤ s.next := by
  have le := Finset.card_filter_le (Finset.range s.next) fun c => (s.coros c).finished = 0
  simpa [Sys.live] using le

/-- One spawn of the running coroutine: it is queued and its child runs. -/
theorem Running.nest (runs : Running bound main s p c) (room : s.globalQueue.items.length < GLOBAL_QUEUE_SIZE)
    (few : s.next < bound) : ∃ t, Running bound main t p s.next ∧ t.next = s.next + 1 ∧
      t.globalQueue.items = s.globalQueue.items ++ [c] ∧ ∀ q, q ≠ p → t.threads q = s.threads q := by
  obtain ⟨reached, at_pc, vacant⟩ := runs
  have regs := Registers.reach reached
  obtain ⟨place, inv⟩ := placed_of_reach reached
  have held : place c = .hand p := inv.at_hand (by rw [at_pc]; rfl)
  have older : c ≠ s.next := Nat.ne_of_lt (inv.born (by simp [held]))
  let s₁ := s.fetchAdd p (.exec c .spawnOpts)
  have counted : step s (.spawn p) = some s₁ := by simp [step, at_pc, s₁]
  have at₁ : (s₁.threads p).pc = .exec c .spawnOpts := by simp [s₁, Sys.fetchAdd]
  let s₂ := (s₁.boxSpawned p).switchBack p c .spawnOpts
  have boxed : step s₁ (.spawnInner p) = some s₂ := by
    simp only [step, at₁, spawnOpts_in (regs.step counted) at₁, s₂]
  let s₃ := s₂.setThread p { s₂.threads p with lastResult := none, pc := .requeue c }
  have taken : step s₂ (.tau p) = some s₃ := by
    simp [step, Sys.tau, Sys.resumed, s₂, s₃, Sys.switchBack, Context.result, Sys.runTaskArm]
  obtain ⟨queue, pushed⟩ : ∃ queue, s.globalQueue.push c = some queue := by
    apply Option.ne_none_iff_exists'.1
    intro full
    exact absurd (BoundedQueue.push_none.1 full) (Nat.ne_of_lt room)
  let s₄ := { s₃ with globalQueue := queue }.setPc p .drain
  have queued : step s₃ (.tau p) = some s₄ := by
    have at₃ : (s₃.threads p).pc = .requeue c := by simp [s₃]
    have same : s₃.globalQueue.push c = some queue := pushed
    simp only [step, Sys.tau, at₃, Sys.ready, same, s₄]
  let s₅ := s₄.setThread p { s₄.threads p with newSpawned := none, pc := .runTask s.next }
  have drained : step s₄ (.tau p) = some s₅ := by
    simp [step, Sys.tau, Sys.drain, s₁, s₂, s₃, s₄, s₅, Sys.switchBack, Sys.boxSpawned,
      Sys.fetchAdd]
  have fresh : s₅.coros s.next = .spawned := by
    simp [s₁, s₂, s₃, s₄, s₅, Sys.switchBack, Sys.boxSpawned, Sys.fetchAdd,
      Function.update_of_ne (Ne.symm older)]
  let s₆ := (s₅.setThread p { s₅.threads p with
    curRunning := some s.next, pc := .exec s.next .user }).setCoro s.next
      { s₅.coros s.next with cell := .running, resumed := (s₅.coros s.next).resumed + 1 }
  have started : step s₅ (.tau p) = some s₆ := by
    have at₅ : (s₅.threads p).pc = .runTask s.next := by simp [s₅]
    simp only [step, Sys.tau, at₅, Sys.resume, fresh, Coroutine.spawned, Context.point, s₆]
  have within : LiveWithin bound s₁ (.spawnInner p) := fun _ _ =>
    Nat.lt_of_le_of_lt (Sys.live_card_le s₁) few
  have inside : InRun main s (.spawn p) := fun at_user => by simp [at_pc] at at_user
  have reached₂ : (system P).Reach (RunWithin bound main) .init s₂ :=
    .step (RunWithin.free reached counted (by simp) inside) ⟨within, trivial⟩ boxed
  have reached₃ := RunWithin.free reached₂ taken (by simp) trivial
  have reached₄ := RunWithin.free reached₃ queued (by simp) trivial
  have reached₅ := RunWithin.free reached₄ drained (by simp) trivial
  have reached₆ := RunWithin.free reached₅ started (by simp) trivial
  refine ⟨s₆, ⟨reached₆, ?_, ?_⟩, ?_, ?_, ?_⟩
  · simp [s₆]
  · simp [s₅, s₆]
  · rfl
  · simpa [s₄, s₅, s₆] using BoundedQueue.push_some pushed
  · intro q apart
    simp [s₁, s₂, s₃, s₄, s₅, s₆, Sys.switchBack, Sys.boxSpawned, Sys.fetchAdd,
      Function.update_of_ne apart]

/-- Nested spawns of one thread fill the queue as far as there is room. -/
theorem Running.nest_many (runs : Running bound main s p c) (k : Nat)
    (room : s.globalQueue.items.length + k ≤ GLOBAL_QUEUE_SIZE) (few : s.next + k ≤ bound) :
    ∃ t d, Running bound main t p d ∧ t.next = s.next + k ∧
      t.globalQueue.items.length = s.globalQueue.items.length + k ∧
      ∀ q, q ≠ p → t.threads q = s.threads q := by
  induction k with
  | zero => exact ⟨s, c, runs, rfl, rfl, fun _ _ => rfl⟩
  | succ k ih =>
      obtain ⟨t, d, runs, next, items, others⟩ := ih (by omega) (by omega)
      obtain ⟨u, runs', next', items', others'⟩ := runs.nest (by omega) (by omega)
      refine ⟨u, _, runs', by omega, ?_, fun q apart => (others' q apart).trans (others q apart)⟩
      rw [items', List.length_append, items]
      rfl

/-- A thread whose own slot is empty takes the one coroutine in the queue and runs it. -/
theorem engage (reached : (system P).Reach (RunWithin bound main) .init s)
    (called : (s.threads main).pc ≠ .userSpawn) (at_pc : (s.threads q).pc = .user)
    (one : s.globalQueue.items = [c]) :
    ∃ t, (system P).Reach (RunWithin bound main) .init t ∧ t.globalQueue.items = [] ∧
      t.next = s.next ∧ (t.threads q).pc = .exec c .user ∧ ∀ r, r ≠ q → t.threads r = s.threads r := by
  obtain ⟨place, inv⟩ := placed_of_reach reached
  have life := inv.life c
  rw [(inv.queue.mem c).1 (by simp [one])] at life
  obtain ⟨k, saved, live, -⟩ := life
  have point : k.point = .user := Context.live_point live
  have entered : step s (.enter q) = some (s.setPc q .pop) := by simp [step, at_pc]
  obtain ⟨⟨d, rest⟩, popped⟩ : ∃ head, s.globalQueue.pop = some head := by
    apply Option.ne_none_iff_exists'.1
    intro none
    simp [BoundedQueue.pop_none.1 none] at one
  have items := BoundedQueue.pop_some popped
  rw [one, List.cons.injEq] at items
  obtain ⟨rfl, empty⟩ := items
  let s₂ := { s.setPc q .pop with globalQueue := rest }.setPc q (.runTask c)
  have taken : step (s.setPc q .pop) (.tau q) = some s₂ := by
    have at_pop : ((s.setPc q .pop).threads q).pc = .pop := by simp
    have same : (s.setPc q .pop).globalQueue.pop = some (c, rest) := popped
    simp only [step, Sys.tau, at_pop, Sys.popQueue, same, s₂]
  have saved₂ : (s₂.coros c).cell = .saved k := by simpa [s₂] using saved
  let s₃ := (s₂.setThread q { s₂.threads q with curRunning := some c, pc := .exec c .user }).setCoro c
    { s₂.coros c with cell := .running, resumed := (s₂.coros c).resumed + 1 }
  have started : step s₂ (.tau q) = some s₃ := by
    have at₂ : (s₂.threads q).pc = .runTask c := by simp [s₂]
    simp only [step, Sys.tau, at₂, Sys.resume, saved₂, point, s₃]
  have reached₁ := RunWithin.free reached entered (by simp) called
  have reached₂ := RunWithin.free reached₁ taken (by simp) trivial
  have reached₃ := RunWithin.free reached₂ started (by simp) trivial
  refine ⟨s₃, reached₃, ?_, rfl, ?_, ?_⟩
  · simpa [s₃, s₂] using empty.symm
  · simp [s₃]
  · intro r apart
    simp [s₃, s₂, Function.update_of_ne apart]

/-- A running coroutine yields, and its thread goes to put it back. -/
theorem giveBack (reached : (system P).Reach (RunWithin bound main) .init s)
    (at_pc : (s.threads q).pc = .exec c .user) :
    ∃ t, (system P).Reach (RunWithin bound main) .init t ∧ t.globalQueue = s.globalQueue ∧
      (t.threads q).pc = .requeue c ∧ ∀ r, r ≠ q → t.threads r = s.threads r := by
  have regs := Registers.reach reached
  let s₁ := s.switchBack q c .sched
  have yielded : step s (.sched q) = some s₁ := by
    simp only [step, at_pc, Pc.caller, Option.map_some, Sys.yieldFrom, s₁]
    exact congrArg some (yieldWith_eq regs at_pc .sched .user)
  let s₂ := s₁.setThread q { s₁.threads q with lastResult := none, pc := .requeue c }
  have taken : step s₁ (.tau q) = some s₂ := by
    simp [step, Sys.tau, Sys.resumed, s₁, s₂, Sys.switchBack, Context.result, Sys.runTaskArm]
  have reached₁ := RunWithin.free reached yielded (by simp) trivial
  refine ⟨s₂, RunWithin.free reached₁ taken (by simp) trivial, rfl, ?_, ?_⟩
  · simp [s₂]
  · intro r apart
    simp [s₁, s₂, Sys.switchBack, Function.update_of_ne apart]

end Above

section Threads

variable {n : Nat}

/-- The coroutine that was spawned before `run` runs on the calling thread. -/
theorem first_runs (n : Nat) (room : 0 < bound) : ∃ t : Sys (Threads n),
    Running bound none t none 0 ∧ t.next = 1 ∧ t.globalQueue.items = [] ∧
      ∀ q, q ≠ none → (t.threads q).pc = .user := by
  have counted : (system (Threads n)).Reach (RunWithin bound none) .init _ :=
    RunWithin.free .start (a := .spawn none) rfl (by simp) fun _ => ⟨rfl, fun _ => rfl⟩
  have spawned : (system (Threads n)).Reach (RunWithin bound none) .init _ :=
    .step counted (a := .spawnInner none)
      ⟨fun _ _ => Nat.lt_of_le_of_lt (Sys.live_card_le _) room, trivial⟩ rfl
  have entered := RunWithin.free spawned (a := .enter none) rfl (by simp)
    (fun at_spawn => by cases at_spawn)
  have reached := entered.trans (.of_exec
    (show (system (Threads n)).exec _ (List.replicate 5 (.tau none)) = some _ from rfl)
    (Lts.meets_of_forall (by simp [RunWithin, LiveWithin, InRun])))
  refine ⟨_, ⟨reached, rfl, rfl⟩, rfl, rfl, ?_⟩
  intro q other
  cases q with
  | none => exact absurd rfl other
  | some i => rfl

/-- The calling thread runs a coroutine and so do those of `D`; the queue is empty. -/
structure Engaged (bound : Nat) (s : Sys (Threads n)) (D : Finset (Threads n)) : Prop where
  main : ∃ c, Running bound none s none c
  next : s.next = 1 + D.card
  items : s.globalQueue.items = []
  engaged : ∀ q ∈ D, ∃ c, (s.threads q).pc = .exec c .user
  waiting : ∀ q, q ∉ D → q ≠ none → (s.threads q).pc = .user

theorem Engaged.insert {s : Sys (Threads n)} {D : Finset (Threads n)} {q : Threads n}
    (engaged : Engaged bound s D) (new : q ∉ D) (other : q ≠ none) (few : s.next < bound) :
    ∃ t, Engaged (n := n) bound t (insert q D) := by
  obtain ⟨c, runs⟩ := engaged.main
  obtain ⟨t, runs', next, items, others⟩ := runs.nest (by simp [engaged.items, GLOBAL_QUEUE_SIZE]) few
  have at_pc : (t.threads q).pc = .user := by rw [others q other]; exact engaged.waiting q new other
  obtain ⟨u, reached, empty, next', taken, others'⟩ :=
    engage runs'.reached (by simp [runs'.at_pc]) at_pc (by simpa [engaged.items] using items)
  have main : u.threads none = t.threads none := others' none (Ne.symm other)
  refine ⟨u, ⟨_, reached, by rw [main]; exact runs'.at_pc, by rw [main]; exact runs'.vacant⟩, ?_,
    empty, ?_, ?_⟩
  · rw [next', next, engaged.next, Finset.card_insert_of_notMem new]
    omega
  · intro r mem
    rcases Finset.mem_insert.1 mem with rfl | mem
    · exact ⟨_, taken⟩
    · by_cases here : r = q
      · subst here; exact ⟨_, taken⟩
      · by_cases is_main : r = none
        · subst is_main
          exact ⟨_, by rw [main]; exact runs'.at_pc⟩
        · rw [others' r here, others r is_main]
          exact engaged.engaged r mem
  · intro r away not_main
    have apart := Finset.mem_insert.not.1 away
    rw [not_or] at apart
    rw [others' r apart.1, others r not_main]
    exact engaged.waiting r apart.2 not_main

/-- The threads other than the calling one. -/
def others (n : Nat) : Finset (Threads n) := Finset.univ.erase none

theorem card_others : (others n).card + 1 = Fintype.card (Threads n) := by
  rw [others, Finset.card_erase_of_mem (Finset.mem_univ _), Finset.card_univ]
  have : 0 < Fintype.card (Threads n) := Fintype.card_pos
  omega

theorem all_engaged (room : Fintype.card (Threads n) ≤ bound) :
    ∃ s : Sys (Threads n), Engaged bound s (others n) := by
  have within (D : Finset (Threads n)) (sub : D ⊆ others n) :
      ∃ s : Sys (Threads n), Engaged bound s D := by
    induction D using Finset.induction_on with
    | empty =>
        obtain ⟨t, runs, next, items, idle⟩ := first_runs n
          (Nat.lt_of_lt_of_le Fintype.card_pos room)
        exact ⟨t, ⟨0, runs⟩, by simpa using next, items, by simp, fun q _ => idle q⟩
    | insert q D new ih =>
        obtain ⟨s, engaged⟩ := ih fun r mem => sub (Finset.mem_insert_of_mem mem)
        have at_q := sub (Finset.mem_insert_self q D)
        refine engaged.insert new (by simpa [others] using at_q) ?_
        have fits := Finset.card_le_card sub
        rw [Finset.card_insert_of_notMem new] at fits
        have := card_others (n := n)
        have := engaged.next
        omega
  exact within _ (Finset.Subset.refl _)

/-- Every thread runs a coroutine and the queue is full. -/
theorem all_running (room : GLOBAL_QUEUE_SIZE + Fintype.card (Threads n) ≤ bound) :
    ∃ s : Sys (Threads n), (system (Threads n)).Reach (RunWithin bound none) .init s ∧
      s.globalQueue.items.length = GLOBAL_QUEUE_SIZE ∧
      ∀ q, ∃ c, (s.threads q).pc = .exec c .user := by
  obtain ⟨s, engaged⟩ := all_engaged (n := n) (Nat.le_trans (Nat.le_add_left ..) room)
  obtain ⟨c, runs⟩ := engaged.main
  have count := card_others (n := n)
  have next := engaged.next
  obtain ⟨t, d, runs', -, items, same⟩ := runs.nest_many GLOBAL_QUEUE_SIZE
    (by simp [engaged.items]) (by omega)
  refine ⟨t, runs'.reached, by simpa [engaged.items] using items, ?_⟩
  intro q
  by_cases is_main : q = none
  · subst is_main
    exact ⟨d, runs'.at_pc⟩
  · rw [same q is_main]
    exact engaged.engaged q (by simp [others, is_main])

/-- One after the other the threads yield, and none finds room. -/
theorem wedge_reached (room : GLOBAL_QUEUE_SIZE + Fintype.card (Threads n) ≤ bound) :
    ∃ s : Sys (Threads n), (system (Threads n)).Reach (RunWithin bound none) .init s ∧ Wedged s := by
  have yield_all (D : Finset (Threads n)) : ∃ s : Sys (Threads n),
      (system (Threads n)).Reach (RunWithin bound none) .init s ∧
      s.globalQueue.items.length = GLOBAL_QUEUE_SIZE ∧
      (∀ q ∈ D, (s.threads q).pc.pushing.isSome = true) ∧
      ∀ q, q ∉ D → ∃ c, (s.threads q).pc = .exec c .user := by
    induction D using Finset.induction_on with
    | empty =>
        obtain ⟨s, reached, full, running⟩ := all_running room
        exact ⟨s, reached, full, by simp, fun q _ => running q⟩
    | insert q D new ih =>
        obtain ⟨s, reached, full, pushing, running⟩ := ih
        obtain ⟨c, at_pc⟩ := running q new
        obtain ⟨t, reached', queue, at_push, others⟩ := giveBack reached at_pc
        refine ⟨t, reached', by rw [queue]; exact full, ?_, ?_⟩
        · intro r mem
          by_cases here : r = q
          · subst here
            simp [at_push, Pc.pushing]
          · rw [others r here]
            exact pushing r ((Finset.mem_insert.1 mem).resolve_left here)
        · intro r away
          rw [Finset.mem_insert, not_or] at away
          rw [others r away.1]
          exact running r away.2
  obtain ⟨s, reached, full, pushing, -⟩ := yield_all Finset.univ
  exact ⟨s, reached, full, fun q => pushing q (Finset.mem_univ q)⟩

/-- Runs with at most `bound` unfinished coroutines at a time never wedge the
threads of `run(n)`, exactly when the bound is below what a wedge holds. -/
theorem never_wedged_iff (n bound : Nat) :
    (∀ s : Sys (Threads n), (system (Threads n)).Reach (LiveWithin bound) .init s → ¬ Wedged s) ↔
      bound < GLOBAL_QUEUE_SIZE + Fintype.card (Threads n) := by
  constructor
  · intro never
    apply Nat.lt_of_not_le
    intro room
    obtain ⟨s, reached, wedged⟩ := wedge_reached room
    exact never s (reached.mono fun _ _ meets => meets.1) wedged
  · intro few s reached wedged
    obtain ⟨place, inv, within⟩ := LiveWithin.live reached
    have holds := wedged.live inv
    omega

/-- One thread, one coroutine too many. -/
theorem one_thread_wedges : ¬ ∀ s : Sys (Threads 1),
    (system (Threads 1)).Reach (InRun none) .init s → ¬ Wedged s := by
  intro never
  obtain ⟨s, reached, wedged⟩ := wedge_reached (n := 1) (Nat.le_refl _)
  exact never s (reached.mono fun _ _ meets => meets.2) wedged

end Threads

end SimpleSched.Runtime
