/-
# Runtime.Alone -- a coroutine that yields with nothing else to run

A thread executes `c`, its slot is empty and so is the queue.  When `c` calls
`Scheduler::sched` the thread puts it in the queue, finds no spawned coroutine, pops
`c` and resumes it: after these steps (`round`) nothing has changed but the count of
`c`'s resumes, and `schedule` has not come to its `None` arm.  So it can go on for any
number of rounds, whatever the other threads' coroutines and the event loop wait for.
-/
import SimpleSched.Runtime.Step

namespace SimpleSched.Runtime

set_option autoImplicit false

open Mio Theory

variable {P : Type}

attribute [ext] Sys

structure Alone (s : Sys P) (p : P) (c : CoroutineRefMut) : Prop where
  at_pc : (s.threads p).pc = .exec c .user
  current : (s.threads p).curRunning = some c
  taken : (s.threads p).lastResult = none
  slot : (s.threads p).newSpawned = none
  queue : s.globalQueue.items = []
  running : (s.coros c).cell = .running

/-- `c` has been resumed `k` times more. -/
def Sys.resumedAgain (s : Sys P) (c : CoroutineRefMut) (k : Nat) : Sys P :=
  s.setCoro c { s.coros c with resumed := (s.coros c).resumed + k }

theorem Alone.again {s : Sys P} {p : P} {c : CoroutineRefMut} (alone : Alone s p c) (k : Nat) :
    Alone (s.resumedAgain c k) p c where
  at_pc := alone.at_pc
  current := alone.current
  taken := alone.taken
  slot := alone.slot
  queue := alone.queue
  running := by simpa [Sys.resumedAgain] using alone.running

variable [DecidableEq P]

/-- What the thread does of its own from `c`'s yield to its next resume. -/
def goRound (p : P) : List (Act P) := List.replicate 4 (.tau p)

/-- A step of the thread's own that neither executes nor resumes a coroutine. -/
def Between (p : P) (s : Sys P) (a : Act P) : Prop :=
  a = .tau p ∧ (∀ h pt, (s.threads p).pc ≠ .exec h pt) ∧ ∀ h, (s.threads p).pc ≠ .runTask h

/-- One round: `sched`, the thread's steps until it has popped `c`, and the resume. -/
theorem Alone.round {s : Sys P} {p : P} {c : CoroutineRefMut} (alone : Alone s p c) :
    ∃ t u, step s (.sched p) = some t ∧ (system P).Meets (Between p) t (goRound p) ∧
      (system P).exec t (goRound p) = some u ∧ (u.threads p).pc = .runTask c ∧
      step u (.tau p) = some (s.resumedAgain c 1) := by
  obtain ⟨at_pc, current, taken, slot, queue, running⟩ := alone
  let s₁ := (s.setThread p { s.threads p with
    curRunning := none, lastResult := some (.ok .suspended), pc := .back c }).setCoro c
      { s.coros c with cell := .saved .sched }
  have yields : step s (.sched p) = some s₁ := by
    simp [step, at_pc, Pc.caller, Sys.yieldFrom, Sys.yieldWith, current, s₁]
  let s₂ := s₁.setThread p { s₁.threads p with lastResult := none, pc := .requeue c }
  have returns : step s₁ (.tau p) = some s₂ := by
    simp [step, Sys.tau, Sys.resumed, s₁, s₂, Sys.runTaskArm]
  obtain ⟨one, pushed⟩ : ∃ one, s.globalQueue.push c = some one := by
    apply Option.ne_none_iff_exists'.1
    intro full
    have length := BoundedQueue.push_none.1 full
    simp [queue, GLOBAL_QUEUE_SIZE] at length
  have items : one.items = [c] := by
    rw [BoundedQueue.push_some pushed, queue]
    rfl
  let s₃ := { s₂ with globalQueue := one }.setPc p .drain
  have requeues : step s₂ (.tau p) = some s₃ := by
    have at₂ : (s₂.threads p).pc = .requeue c := by simp [s₂]
    have same : s₂.globalQueue.push c = some one := pushed
    simp only [step, Sys.tau, at₂, Sys.ready, same, s₃]
  let s₄ := s₃.setPc p .pop
  have drains : step s₃ (.tau p) = some s₄ := by
    simp [step, Sys.tau, Sys.drain, s₁, s₂, s₃, s₄, slot]
  obtain ⟨⟨d, rest⟩, popped⟩ : ∃ head, one.pop = some head := by
    apply Option.ne_none_iff_exists'.1
    intro none
    simp [BoundedQueue.pop_none.1 none] at items
  have head := BoundedQueue.pop_some popped
  rw [items, List.cons.injEq] at head
  obtain ⟨rfl, empty⟩ := head
  let s₅ := { s₄ with globalQueue := rest }.setPc p (.runTask c)
  have pops : step s₄ (.tau p) = some s₅ := by
    have at₄ : (s₄.threads p).pc = .pop := by simp [s₄]
    have same : s₄.globalQueue.pop = some (c, rest) := popped
    simp only [step, Sys.tau, at₄, Sys.popQueue, same, s₅]
  have at₅ : (s₅.threads p).pc = .runTask c := by simp [s₅]
  have resumes : step s₅ (.tau p) = some (s.resumedAgain c 1) := by
    have saved : (s₅.coros c).cell = .saved .sched := by simp [s₁, s₂, s₃, s₄, s₅]
    simp only [step, Sys.tau, at₅, Sys.resume, saved, Option.some.injEq]
    apply Sys.ext
    case globalQueue => exact BoundedQueue.ext (empty.symm.trans queue.symm)
    case threads =>
      have thread : s.threads p = { s.threads p with
          curRunning := some c, lastResult := none, pc := .exec c .user } := by
        rw [← at_pc, ← current, ← taken]
      simp only [s₁, s₂, s₃, s₄, s₅, Sys.resumedAgain, Sys.setCoro_threads, Sys.setThread_threads,
        Sys.setPc_threads, Function.update_self, Function.update_idem]
      exact (Function.update_eq_self_iff).2 thread.symm
    case coros =>
      simp [s₁, s₂, s₃, s₄, s₅, Sys.resumedAgain, running]
    all_goals rfl
  refine ⟨s₁, s₅, yields, ?_, ?_, at₅, resumes⟩
  · refine Lts.meets_cons ⟨rfl, by simp [s₁]⟩ returns ?_
    refine Lts.meets_cons ⟨rfl, by simp [s₂]⟩ requeues ?_
    refine Lts.meets_cons ⟨rfl, by simp [s₃]⟩ drains ?_
    exact Lts.meets_cons ⟨rfl, by simp [s₄]⟩ pops trivial
  · simp only [goRound, List.replicate, Lts.exec, system, returns, requeues, drains, pops,
      Option.bind_some]

end SimpleSched.Runtime
