/-
# Runtime.Polling -- how long runnable coroutines keep the event loop waiting

`schedule` comes to `run_once` only when its queue is empty, and always does then if a
coroutine waits (`empty_polls`).  `Watched` counts the resumes since the last `run_once`,
or since the slab was last empty, and beside them what could be resumed then and what has
become resumable since.

On one processor every resume takes from that account: a coroutine that was live at
that point, one spawned since, or one that has been suspended since, by `sched` or by
the spawn of another (`resumed_bounded`; `Thread.due` is what is still to be resumed).
There is no bound by the live coroutines alone: a coroutine that yields for ever is
resumed for ever (`yielder_unbounded`).
-/
import SimpleSched.Runtime.Alone
import SimpleSched.Runtime.History
import SimpleSched.Runtime.Quiescence
import SimpleSched.Runtime.Results

namespace SimpleSched.Runtime

set_option autoImplicit false

open Mio Theory

variable {P : Type}

/-- The runtime, with what has been since the last `run_once`, or since the slab last
became non-empty: the resumes, the yields with `Suspended`, the spawns, and how many
coroutines were live then. -/
structure Watched (P : Type) where
  sys : Sys P
  resumed : Nat
  suspended : Nat
  spawned : Nat
  live : Nat

/-- A coroutine is suspended, to be resumed again without an event. -/
def Act.suspends (s : Sys P) (a : Act P) : Bool :=
  match a.passes s with
  | some (_, .ok .suspended) => true
  | _ => false

/-- `run_once` is called, or the slab becomes non-empty. -/
def Act.restarts (s s' : Sys P) : Act P → Bool
  | .poll _ _ => true
  | .waitEvent p _ _ _ => (s.threads p).slabs.count = 0 ∧ (s'.threads p).slabs.count ≠ 0
  | _ => false

variable [DecidableEq P]

namespace Watched

def init : Watched P := ⟨.init, 0, 0, 0, 0⟩

/-- The counts after the step that has led to `sys`. -/
def next (s : Watched P) (a : Act P) (sys : Sys P) : Watched P :=
  if a.restarts s.sys sys then ⟨sys, 0, 0, 0, sys.live.card⟩
  else
    { s with
      sys := sys
      resumed := s.resumed + (a.resumes s.sys).toNat
      suspended := s.suspended + (a.suspends s.sys).toNat
      spawned := s.spawned + a.boxes.toNat }

def step (s : Watched P) (a : Act P) : Option (Watched P) :=
  (Runtime.step s.sys a).map (s.next a)

end Watched

def watching (P : Type) [DecidableEq P] : Lts (Watched P) (Act P) := ⟨Watched.step⟩

/-! ## What is still to be resumed -/

/-- The thread has a coroutine that it will resume, or give back to the queue. -/
def Pc.due (last : Option Result) : Pc → Nat
  | .runTask _ | .requeue _ | .deregister _ _ _ | .wake _ _ => 1
  | .back _ => if last = some (.ok .suspended) then 1 else 0
  | _ => 0

/-- The same with the coroutine in its slot and those it is about to wake. -/
def Thread.due (t : Thread) : Nat :=
  t.newSpawned.toList.length + t.pc.due t.lastResult + t.pc.batch.length

def Sys.due (s : Sys P) (p : P) : Nat := s.globalQueue.items.length + (s.threads p).due

/-- The queue, the slot, and who waits for the events that were taken. -/
def Sys.toResume (s : Sys P) (p : P) (waiter : Token → CoroutineRefMut) : List CoroutineRefMut :=
  s.globalQueue.items ++ ((s.threads p).newSpawned.toList ++ (s.threads p).pc.batch.map waiter)

section ToResume

omit [DecidableEq P]

variable {s : Sys P} {place : Placing P} {p : P} {waiter : Token → CoroutineRefMut}

theorem place_of_woken (waits : ∀ token ∈ (s.threads p).pc.batch, place (waiter token) = .wait p token)
    {c : CoroutineRefMut} (mem : c ∈ (s.threads p).pc.batch.map waiter) :
    ∃ token, place c = .wait p token := by
  obtain ⟨token, polled, rfl⟩ := List.mem_map.1 mem
  exact ⟨token, waits token polled⟩

theorem Placed.toResume_live (inv : Placed s place)
    (waits : ∀ token ∈ (s.threads p).pc.batch, place (waiter token) = .wait p token) :
    (s.toResume p waiter).toFinset ⊆ s.live := by
  intro c mem
  apply inv.live_of_place
  rcases List.mem_append.1 (List.mem_toFinset.1 mem) with queued | mem
  · exact .inl ((inv.queue.mem c).1 queued)
  · rcases List.mem_append.1 mem with filled | mem
    · exact .inr (.inl ⟨p, (inv.slot p c).1 (by simpa using filled)⟩)
    · obtain ⟨token, at_c⟩ := place_of_woken waits mem
      exact .inr (.inr ⟨p, token, at_c⟩)

theorem Placed.toResume_nodup (inv : Placed s place)
    (waits : ∀ token ∈ (s.threads p).pc.batch, place (waiter token) = .wait p token) :
    (s.toResume p waiter).Nodup := by
  have slot {c : CoroutineRefMut} (filled : c ∈ (s.threads p).newSpawned.toList) :
      place c = .slot p := (inv.slot p c).1 (by simpa using filled)
  have woken : ((s.threads p).pc.batch.map waiter).Nodup := by
    refine (List.nodup_map_iff_inj_on (inv.io p).nodup).2 ?_
    intro t polled t' polled' same
    have there := waits t polled
    rw [same, waits t' polled'] at there
    simpa using there.symm
  refine List.nodup_append.2 ⟨inv.queue.nodup, List.nodup_append.2 ⟨?_, woken, ?_⟩, ?_⟩
  · cases (s.threads p).newSpawned <;> simp
  · rintro c filled d mem rfl
    obtain ⟨token, at_c⟩ := place_of_woken waits mem
    simp [slot filled] at at_c
  · rintro c queued d mem rfl
    have at_queue := (inv.queue.mem c).1 queued
    rcases List.mem_append.1 mem with filled | mem
    · simp [slot filled] at at_queue
    · obtain ⟨token, at_c⟩ := place_of_woken waits mem
      simp [at_queue] at at_c

/-- With no coroutine in its hand, what is due is live, each one once. -/
theorem Placed.due_live (inv : Placed s place)
    (none_held : (s.threads p).pc.due (s.threads p).lastResult = 0) : s.due p ≤ s.live.card := by
  choose! waiter waits using (inv.io p).batch
  calc s.due p = (s.toResume p waiter).length := by
        simp [Sys.due, Thread.due, Sys.toResume, none_held]
    _ = (s.toResume p waiter).toFinset.card :=
        (List.toFinset_card_of_nodup (inv.toResume_nodup waits)).symm
    _ ≤ s.live.card := Finset.card_le_card (inv.toResume_live waits)

end ToResume

section One

variable {s s' : Sys (Threads 1)} {place place' : Placing (Threads 1)} {a : Act (Threads 1)}

theorem one_thread (p : Threads 1) : p = none := by
  cases p with
  | none => rfl
  | some i => exact i.elim0

/-- Where the thread goes on after it has taken a result that is not `Blocked`. -/
theorem due_took (c : CoroutineRefMut) {k : Context (Threads 1)} (runs : k.result ≠ .ok .blocked) :
    (Sys.runTaskArm c k.result).due none ≤ (Pc.back c).due (some k.result) ∧
      (Sys.runTaskArm c k.result).batch = [] := by
  cases k with
  | exited st => cases st <;> simp [Context.result, Sys.runTaskArm, Pc.due, Pc.batch]
  | _ => simp_all [Context.result, Sys.runTaskArm, Pc.due, Pc.batch]

/-- A step resumes only what was due, and makes due only what it suspends or spawns. -/
theorem Effect.due (inv : Placed s place) (effect : Effect s place a s' place')
    (more : a.restarts s s' = false) :
    s'.due none + (a.resumes s).toNat ≤ s.due none + (a.suspends s).toNat + a.boxes.toNat := by
  -- the steps that make nothing due
  have free {n m : Nat} (le : n ≤ m) : n ≤ m + (a.suspends s).toNat + a.boxes.toNat := by omega
  cases effect with
  | @quiet p a pc quiet =>
      obtain rfl := one_thread p
      apply free
      cases quiet with
      | leave at_pc =>
          rcases at_pc with at_pc | at_pc <;>
            simp [Sys.due, Thread.due, at_pc, Pc.due, Pc.batch, Act.resumes]
      | _ => simp_all [Sys.due, Thread.due, Pc.due, Pc.batch, Act.resumes]
  | @full p c pushing none_left =>
      obtain rfl := one_thread p
      apply free
      cases at_pc : (s.threads none).pc <;> simp_all [Pc.pushing, Act.resumes]
  | @fetchAdd p pc from_pc =>
      obtain rfl := one_thread p
      apply free
      rcases from_pc with ⟨at_pc, rfl⟩ | ⟨h, at_pc, rfl⟩ <;>
        simp [Sys.due, Thread.due, at_pc, Pc.due, Pc.batch, Act.resumes, Sys.fetchAdd]
  | @spawnOut p a from_pc =>
      obtain rfl := one_thread p
      rcases from_pc with ⟨rfl, at_pc⟩ | ⟨rfl, at_pc⟩ <;>
        simp [Sys.due, Thread.due, at_pc, Pc.due, Pc.batch, Act.resumes, Act.boxes, Sys.boxSpawned] <;>
        omega
  | @spawnIn p a h from_pc =>
      obtain rfl := one_thread p
      rcases from_pc with ⟨rfl, at_pc⟩ | ⟨rfl, at_pc⟩ <;>
        simp [Sys.due, Thread.due, at_pc, Pc.due, Pc.batch, Act.resumes, Act.boxes, Sys.boxSpawned,
          Sys.switchBack, Context.result, Act.suspends, Act.passes, Pc.closure]
  | @yield p h pt a k at_pc yields =>
      obtain rfl := one_thread p
      cases yields with
      | sched =>
          simp [Sys.due, Thread.due, at_pc, Pc.due, Pc.batch, Act.resumes, Act.suspends, Act.passes,
            Pc.closure, Act.boxes, Sys.switchBack, Context.result]
          omega
      | block | waitEvent =>
          apply free
          simp [Sys.due, Thread.due, at_pc, Pc.due, Pc.batch, Act.resumes, Sys.switchBack,
            Context.result]
  | @ended p h a k closed at_pc ends =>
      obtain rfl := one_thread p
      apply free
      cases ends <;>
        simp [Sys.due, Thread.due, at_pc, Pc.due, Pc.batch, Act.resumes, Sys.endClosure,
          Sys.switchBack, Context.result]
  | @inserted p h fd interest token slabs at_pc =>
      obtain rfl := one_thread p
      exact free (by simp [Sys.due, Thread.due, at_pc, Pc.due, Pc.batch, Act.resumes])
  | @registered p h token fd interest l at_pc =>
      obtain rfl := one_thread p
      exact free (by simp [Sys.due, Thread.due, at_pc, Pc.due, Pc.batch, Act.resumes])
  | setHolds => exact free (by simp [Sys.due, Thread.due, Sys.setHolds, Act.resumes])
  | polled => simp [Act.restarts] at more
  | @pushed p c q pushing pushed =>
      obtain rfl := one_thread p
      apply free
      have items := BoundedQueue.push_some pushed
      cases at_pc : (s.threads none).pc <;> simp [at_pc, Pc.pushing] at pushing
      all_goals
        simp [Sys.due, Thread.due, at_pc, Pc.due, Pc.batch, Pc.pushed, Act.resumes, items]
        omega
  | @popped p c q at_pc popped =>
      obtain rfl := one_thread p
      apply free
      simp [Sys.due, Thread.due, at_pc, Pc.due, Pc.batch, Act.resumes, BoundedQueue.pop_some popped]
      omega
  | @drained p c at_pc filled =>
      obtain rfl := one_thread p
      exact free (by simp [Sys.due, Thread.due, at_pc, filled, Pc.due, Pc.batch, Act.resumes])
  | @took p c k at_pc saved runs =>
      obtain rfl := one_thread p
      apply free
      have life := inv.hand_life (c := c) (p := none) (by rw [at_pc]; rfl)
      simp only [Thread.HandLife, at_pc] at life
      obtain ⟨k', saved', -, -, last⟩ := life
      obtain rfl : k = k' := by simpa [saved] using saved'
      obtain ⟨less, batch⟩ := due_took c runs
      simp [Sys.due, Thread.due, at_pc, last, batch, Act.resumes] at less ⊢
      simpa [Pc.batch] using less
  | @handled p _ _ _ _ _ at_pc | @deregistered p _ _ _ _ at_pc | @resumed p _ _ at_pc
  | @left p _ _ _ at_pc | @finished p _ at_pc | @freed p _ _ at_pc =>
      obtain rfl := one_thread p
      apply free
      simp [Sys.due, Thread.due, at_pc, Pc.due, Pc.batch, Act.resumes, Sys.finished] <;> omega

/-- After a restart the thread has no coroutine in its hand to be resumed. -/
theorem Effect.restarted (effect : Effect s place a s' place') (restarts : a.restarts s s' = true) :
    (s'.threads none).pc.due (s'.threads none).lastResult = 0 := by
  cases effect with
  | @polled p fds l tokens =>
      obtain rfl := one_thread p
      simp [Pc.due]
  | @inserted p h fd interest token slabs =>
      obtain rfl := one_thread p
      simp [Pc.due]
  | ended _ ends => cases ends <;> simp [Act.restarts, Sys.switchBack, Sys.endClosure] at restarts
  | quiet quiet => cases quiet <;> cases restarts
  | spawnOut from_pc | spawnIn from_pc => rcases from_pc with ⟨rfl, -⟩ | ⟨rfl, -⟩ <;> cases restarts
  | yield _ yields => cases yields <;> cases restarts
  | _ => cases restarts

end One

/-! ## The account -/

/-- Every resume since then is of a coroutine that was live, was spawned since, or has
been suspended since. -/
theorem resumed_bounded {s : Watched (Threads 1)}
    (reached : (watching (Threads 1)).Reach Lts.anyStep .init s) :
    s.resumed ≤ s.live + s.spawned + s.suspended := by
  have account : (∃ place, Registers s.sys ∧ Placed s.sys place) ∧
      s.resumed + s.sys.due none ≤ s.live + s.spawned + s.suspended := by
    refine reached.invariant (I := fun s => (∃ place, Registers s.sys ∧ Placed s.sys place) ∧
      s.resumed + s.sys.due none ≤ s.live + s.spawned + s.suspended) ?_ ?_
    · exact ⟨⟨_, .init, .init⟩, Nat.le_refl _⟩
    · rintro s a s' - ⟨⟨place, regs, inv⟩, account⟩ - taken
      obtain ⟨sys, stepped, rfl⟩ := Option.map_eq_some_iff.mp taken
      obtain ⟨place', effect⟩ := effect_of_step regs inv stepped
      have inv' := effect.placed inv
      unfold Watched.next
      split
      · rename_i restarts
        exact ⟨⟨place', regs.step stepped, inv'⟩, by
          simpa using inv'.due_live (effect.restarted restarts)⟩
      · rename_i more
        have due := effect.due inv (by simpa using more)
        exact ⟨⟨place', regs.step stepped, inv'⟩, by dsimp only; omega⟩
  omega

/-- A pop that finds the queue empty, with a coroutine in the slab, leads to `run_once`. -/
theorem empty_polls {s : Sys P} {p : P} (at_pc : (s.threads p).pc = .pop)
    (empty : s.globalQueue.pop = none) (waits : (s.threads p).slabs.count ≠ 0) :
    ∃ t, (system P).exec s [.tau p, .tau p] = some t ∧ (t.threads p).pc = .runOnce ∧
      ∀ c, (t.coros c).resumed = (s.coros c).resumed := by
  have first : step s (.tau p) = some (s.setPc p .empty) := by
    simp [step, Sys.tau, at_pc, Sys.popQueue, empty]
  have second : step (s.setPc p .empty) (.tau p) = some ((s.setPc p .empty).setPc p .runOnce) := by
    simp [step, Sys.tau, waits]
  refine ⟨(s.setPc p .empty).setPc p .runOnce, ?_, by simp, fun c => rfl⟩
  simp [Lts.exec, system, first, second]

/-! ## A coroutine that yields for ever -/

section Yielder

variable {s : Watched (Threads 1)} {n : Nat}

/-- One coroutine waits on the event loop, and the other, alone, has been resumed at least
`n` times since. -/
structure Yielder (s : Watched (Threads 1)) (n : Nat) : Prop where
  reached : (watching (Threads 1)).Reach (fun s a => InRun none s.sys a) .init s
  alone : Alone s.sys none 0
  waits : (s.sys.threads none).slabs.count ≠ 0
  two : s.sys.live.card = 2
  resumed : n ≤ s.resumed

/-- What the thread does between two coroutines is not counted. -/
theorem idles {as : List (Act (Threads 1))} {sys : Sys (Threads 1)}
    (meets : (system (Threads 1)).Meets (Between none) s.sys as)
    (run : (system (Threads 1)).exec s.sys as = some sys) :
    (watching (Threads 1)).Reach (fun s a => InRun none s.sys a) s { s with sys := sys } := by
  induction as generalizing s with
  | nil =>
      simp only [Lts.exec, Option.some.injEq] at run
      subst run
      exact .start
  | cons a as ih =>
      obtain ⟨m, taken, rest⟩ := Lts.exec_cons run
      obtain ⟨⟨rfl, outside, unresumed⟩, later⟩ := meets
      have taken' : step s.sys (.tau none) = some m := taken
      have silent : (Act.tau none).resumes s.sys = false ∧ (Act.tau none).suspends s.sys = false := by
        cases at_pc : (s.sys.threads none).pc <;>
          simp_all [Act.resumes, Act.suspends, Act.passes]
      have stepped : s.step (.tau none) = some { s with sys := m } := by
        simp [Watched.step, taken', Watched.next, Act.restarts, silent, Act.boxes]
      have first : (watching (Threads 1)).Reach (fun s a => InRun none s.sys a) s { s with sys := m } :=
        .step (a := .tau none) .start trivial stepped
      exact first.trans (ih (s := { s with sys := m }) (later m taken) rest)

theorem Yielder.round (yields : Yielder s n) : ∃ t, Yielder t (n + 1) := by
  obtain ⟨reached, alone, waits, two, resumed⟩ := yields
  obtain ⟨t, u, suspends, meets, run, at_run, resumes⟩ := alone.round
  let s₁ : Watched (Threads 1) := { s with sys := t, suspended := s.suspended + 1 }
  have first : s.step (.sched none) = some s₁ := by
    simp [Watched.step, suspends, Watched.next, Act.restarts, Act.resumes, Act.suspends, Act.passes,
      alone.at_pc, Pc.closure, Act.boxes, s₁]
  have reached₁ : (watching (Threads 1)).Reach (fun s a => InRun none s.sys a) .init s₁ :=
    .step (a := .sched none) reached trivial first
  have reached₂ := reached₁.trans (idles (s := s₁) meets run)
  let s₂ : Watched (Threads 1) :=
    { s₁ with sys := s.sys.resumedAgain 0 1, resumed := s.resumed + 1 }
  have last : { s₁ with sys := u }.step (.tau none) = some s₂ := by
    simp [Watched.step, resumes, Watched.next, Act.restarts, Act.resumes, Act.suspends, Act.passes,
      at_run, Act.boxes, s₁, s₂]
  have finished (c : CoroutineRefMut) :
      ((s.sys.resumedAgain 0 1).coros c).finished = (s.sys.coros c).finished := by
    by_cases same : c = 0
    · subst same
      simp [Sys.resumedAgain]
    · simp [Sys.resumedAgain, Function.update_of_ne same]
  have live : (s.sys.resumedAgain 0 1).live = s.sys.live := live_same rfl finished
  have two' : (s.sys.resumedAgain 0 1).live.card = 2 := by rw [live, two]
  exact ⟨s₂, .step (a := .tau none) reached₂ trivial last, alone.again 1, waits, two',
    Nat.succ_le_succ resumed⟩

/-- Coroutine 1 waits for descriptor 5; its parent runs again. -/
def oneWaits : List (Act (Threads 1)) :=
  oneCoroutine.take 8 ++ [.spawn none, .spawnInner none, .tau none, .tau none, .tau none, .tau none,
    .waitEvent none 5 EventSet.readable 0, .register none true, .tau none, .tau none, .tau none,
    .tau none, .tau none]

theorem one_waits_yielder : ∃ s, Yielder s 0 := by
  have meets : (watching (Threads 1)).Meets (fun s a => InRun none s.sys a) .init oneWaits := by
    decide +kernel
  have ends : ((watching (Threads 1)).exec .init oneWaits).any (fun s =>
      (s.sys.threads none).pc = .exec 0 .user ∧ (s.sys.threads none).curRunning = some 0 ∧
        (s.sys.threads none).lastResult = none ∧ (s.sys.threads none).newSpawned = none ∧
        s.sys.globalQueue.items = [] ∧ (s.sys.coros 0).cell = .running ∧
        (s.sys.threads none).slabs.count ≠ 0 ∧ s.sys.live.card = 2) = true := by
    decide +kernel
  obtain ⟨s, run, yields⟩ := (Option.any_eq_true _ _).1 ends
  obtain ⟨at_pc, current, taken, slot, queue, running, waits, two⟩ := of_decide_eq_true yields
  exact ⟨s, .of_exec run meets, ⟨at_pc, current, taken, slot, queue, running⟩, waits, two, Nat.zero_le _⟩

/-- Two coroutines, and no bound on the resumes while one of them waits. -/
theorem yielder_unbounded : ¬ ∃ bound : Nat → Nat, ∀ s : Watched (Threads 1),
    (watching (Threads 1)).Reach (fun s a => InRun none s.sys a) .init s →
      (s.sys.threads none).slabs.count ≠ 0 → s.resumed ≤ bound s.sys.live.card := by
  rintro ⟨bound, bounded⟩
  have any (n : Nat) : ∃ s, Yielder s n := by
    induction n with
    | zero => exact one_waits_yielder
    | succ n ih =>
        obtain ⟨s, yields⟩ := ih
        exact yields.round
  obtain ⟨s, yields⟩ := any (bound 2 + 1)
  have within := bounded s yields.reached yields.waits
  have many := yields.resumed
  rw [yields.two] at within
  omega

end Yielder

/-- The account of the run to the second resume of the parent. -/
theorem one_waits_bounded : ∃ s, (watching (Threads 1)).exec .init oneWaits = some s ∧
    s.resumed ≤ s.live + s.spawned + s.suspended ∧ s.resumed = 1 ∧ s.live = 2 := by
  have ends : ((watching (Threads 1)).exec .init oneWaits).any (fun s =>
      s.resumed = 1 ∧ s.live = 2) = true := by
    decide +kernel
  obtain ⟨s, run, counts⟩ := (Option.any_eq_true _ _).1 ends
  exact ⟨s, run, resumed_bounded (.of_exec_any run), of_decide_eq_true counts⟩

end SimpleSched.Runtime
