/-
# Runtime.Registers -- cur_running and last_result along every run

The two optional fields of a processor are set on one side of a context switch and
taken on the other.  `Thread.Registers` says what they hold at each place a thread
can be: both are `None` in the processor's own code, `cur_running` is `Some(c)`
exactly while the thread executes `c`, and between the switch back and the end of
`Processor::resume` the result is there to be taken.
-/
import SimpleSched.Runtime.Step

namespace SimpleSched.Runtime

set_option autoImplicit false

open Mio Theory

def Thread.Registers (t : Thread) : Prop :=
  match t.pc with
  | .exec c _ => t.curRunning = some c ∧ t.lastResult = none
  | .back _ => t.curRunning = none ∧ t.lastResult.isSome
  | .crashed => True
  | _ => t.curRunning = none ∧ t.lastResult = none

variable {P : Type} [DecidableEq P] {s s' : Sys P} {p : P}

/-- Every thread has its two registers as its place requires. -/
def Registers (s : Sys P) : Prop := ∀ p, (s.threads p).Registers

namespace Registers

omit [DecidableEq P] in
/-- While a coroutine runs it is the one in `cur_running`, and no result is there. -/
theorem executing (regs : Registers s) {c : CoroutineRefMut} {pt : Point}
    (at_pc : (s.threads p).pc = .exec c pt) :
    (s.threads p).curRunning = some c ∧ (s.threads p).lastResult = none := by
  have here := regs p
  simp only [Thread.Registers, at_pc] at here
  exact here

theorem setThread (regs : Registers s) {t : Thread} (ok : t.Registers) :
    Registers (s.setThread p t) := by
  intro q
  by_cases same : q = p
  · subst same; simpa using ok
  · simpa [Function.update_of_ne same] using regs q

omit [DecidableEq P] in
theorem setCoro (regs : Registers s) {c : CoroutineRefMut} {x : Coroutine P} :
    Registers (s.setCoro c x) := regs

theorem ready (regs : Registers s) {c : CoroutineRefMut} {pc : Pc}
    (ok : Thread.Registers { s.threads p with pc := pc }) : Registers (s.ready p c pc) := by
  unfold Sys.ready
  split
  · exact setThread (s := { s with globalQueue := _ }) regs ok
  · exact regs

theorem yieldWith (regs : Registers s) {h : CoroutineRefMut} {pt : Point}
    (at_exec : (s.threads p).pc = .exec h pt) (r : Result) (k : Context P) (stay : Point) :
    Registers (s.yieldWith p h r k stay) := by
  have here := regs p
  simp only [Thread.Registers, at_exec] at here
  simp only [Sys.yieldWith, here.1]
  exact (regs.setThread (by simp [Thread.Registers])).setCoro

theorem yieldFrom (regs : Registers s) {caller : Option CoroutineRefMut}
    (who : caller = none ∧ (s.threads p).curRunning = none ∧ (s.threads p).lastResult = none ∨
      ∃ h pt, caller = some h ∧ (s.threads p).pc = .exec h pt) (r : Result) (k : Context P) :
    Registers (s.yieldFrom p caller r k) := by
  rcases who with ⟨rfl, idle, taken⟩ | ⟨h, pt, rfl, at_exec⟩
  · simp only [Sys.yieldFrom, idle]
    exact regs.setThread (by simp [Thread.Registers, idle, taken])
  · exact regs.yieldWith at_exec r k .user

theorem spawnOpts (regs : Registers s) {caller : Option CoroutineRefMut}
    (who : caller = none ∧ (s.threads p).curRunning = none ∧ (s.threads p).lastResult = none ∨
      ∃ h pt, caller = some h ∧ (s.threads p).pc = .exec h pt) :
    Registers (s.spawnOpts p caller) := by
  have filled : Registers (s.boxSpawned p) := by
    unfold Sys.boxSpawned
    exact setThread (s := { s with next := s.next + 1 }.setCoro s.next .spawned) regs
      (show Thread.Registers { s.threads p with newSpawned := some s.next } from regs p)
  refine filled.yieldFrom ?_ _ _
  rcases who with ⟨rfl, idle, taken⟩ | ⟨h, pt, rfl, at_exec⟩
  · exact .inl ⟨rfl, by simpa [Sys.boxSpawned] using idle, by simpa [Sys.boxSpawned] using taken⟩
  · exact .inr ⟨h, pt, rfl, by simpa [Sys.boxSpawned] using at_exec⟩

theorem panic (regs : Registers s) {h : CoroutineRefMut} {pt : Point}
    (at_exec : (s.threads p).pc = .exec h pt) : Registers (s.panic p h) :=
  yieldWith (s := s.endClosure h) regs at_exec _ _ _

theorem insertWaiter (regs : Registers s) {h : CoroutineRefMut} {pt : Point}
    (at_exec : (s.threads p).pc = .exec h pt) {fd : Fd} {interest : EventSet} {token : Token}
    (taken : s.insertWaiter p h fd interest token = some s') : Registers s' := by
  have here := regs p
  simp only [Thread.Registers, at_exec] at here
  simp only [Sys.insertWaiter, here.1] at taken
  split at taken
  · simp only [Option.some.injEq] at taken
    subst taken
    exact panic (s := { s with closed := fd :: s.closed }) regs at_exec
  · obtain ⟨slabs, -, rfl⟩ := Option.map_eq_some_iff.mp taken
    exact regs.setThread ⟨rfl, here.2⟩

theorem register (regs : Registers s) {h : CoroutineRefMut} {pt : Point}
    (at_exec : (s.threads p).pc = .exec h pt) {fd : Fd} {interest : EventSet} {token : Token}
    {ok : Bool} (taken : s.register p h token fd interest ok = some s') : Registers s' := by
  have here := regs p
  simp only [Thread.Registers, at_exec] at here
  unfold Sys.register at taken
  split at taken
  · obtain ⟨l, -, rfl⟩ := Option.map_eq_some_iff.mp taken
    exact regs.setThread (by simpa [Thread.Registers] using here)
  · simp only [Option.some.injEq] at taken
    subst taken
    exact regs.setThread (by simpa [Thread.Registers] using here)

theorem runTaskArm_registers (t : Thread) (idle : t.curRunning = none) (c : CoroutineRefMut)
    (r : Result) : Thread.Registers { t with lastResult := none, pc := Sys.runTaskArm c r } := by
  rcases Sys.runTaskArm_cases c r with arm | arm | arm <;> simp [arm, Thread.Registers, idle]

theorem tau (regs : Registers s) (taken : s.tau p = some s') : Registers s' := by
  have here := regs p
  cases at_pc : (s.threads p).pc with
  | user | userSpawn | runOnce | done | failed | crashed => simp [Sys.tau, at_pc] at taken
  | pop =>
      simp only [Thread.Registers, at_pc] at here
      simp only [Sys.tau, at_pc, Option.some.injEq] at taken
      subst taken
      unfold Sys.popQueue
      split
      · exact setThread (s := { s with globalQueue := _ }) regs (by simpa [Thread.Registers] using here)
      · exact regs.setThread (by simpa [Thread.Registers] using here)
  | empty | workCount =>
      simp only [Thread.Registers, at_pc] at here
      simp only [Sys.tau, at_pc, Option.some.injEq] at taken
      subst taken
      apply regs.setThread
      split <;> simpa [Thread.Registers] using here
  | handle tokens =>
      simp only [Thread.Registers, at_pc] at here
      cases tokens with
      | nil =>
          simp only [Sys.tau, at_pc, Option.some.injEq] at taken
          subst taken
          exact regs.setThread (by simpa [Thread.Registers] using here)
      | cons token rest =>
          simp only [Sys.tau, at_pc, Option.some.injEq] at taken
          subst taken
          unfold Sys.handleEvent
          split <;> exact regs.setThread (by simpa [Thread.Registers] using here)
  | deregister c fd rest =>
      simp only [Thread.Registers, at_pc] at here
      simp only [Sys.tau, at_pc, Option.some.injEq] at taken
      subst taken
      unfold Sys.deregister
      split
      · exact regs.setThread (by simpa [Thread.Registers] using here)
      · exact regs.setThread trivial
  | wake c rest =>
      simp only [Thread.Registers, at_pc] at here
      simp only [Sys.tau, at_pc, Option.some.injEq] at taken
      subst taken
      exact regs.ready (by simpa [Thread.Registers] using here)
  | requeue c =>
      simp only [Thread.Registers, at_pc] at here
      simp only [Sys.tau, at_pc, Option.some.injEq] at taken
      subst taken
      exact regs.ready (by simpa [Thread.Registers] using here)
  | drain =>
      simp only [Thread.Registers, at_pc] at here
      simp only [Sys.tau, at_pc, Option.some.injEq] at taken
      subst taken
      unfold Sys.drain
      split <;> exact regs.setThread (by simpa [Thread.Registers] using here)
  | runTask c =>
      simp only [Thread.Registers, at_pc] at here
      simp only [Sys.tau, at_pc, Option.some.injEq] at taken
      subst taken
      unfold Sys.resume
      split
      · exact (regs.setThread (by simp [Thread.Registers, here])).setCoro
      · exact regs.setThread trivial
  | exec h pt =>
      cases pt with
      | user | spawnOpts | inserted => simp [Sys.tau, at_pc] at taken
      | registered token | exiting st =>
          simp only [Sys.tau, at_pc, Option.some.injEq] at taken
          subst taken
          exact regs.yieldWith at_pc _ _ _
  | back c =>
      simp only [Thread.Registers, at_pc] at here
      simp only [Sys.tau, at_pc, Option.some.injEq] at taken
      subst taken
      exact regs.setThread (runTaskArm_registers _ here.1 c _)
  | finish c =>
      simp only [Thread.Registers, at_pc] at here
      simp only [Sys.tau, at_pc, Option.some.injEq] at taken
      subst taken
      exact setThread (s := { s with workCounts := _ }) regs (by simpa [Thread.Registers] using here)
  | free c =>
      simp only [Thread.Registers, at_pc] at here
      simp only [Sys.tau, at_pc, Option.some.injEq] at taken
      subst taken
      unfold Sys.dropBox
      split
      · exact (regs.setThread (by simpa [Thread.Registers] using here)).setCoro
      · exact regs.setThread trivial

omit [DecidableEq P] in
theorem of_caller {caller : Option CoroutineRefMut} (regs : Registers s)
    (called : (s.threads p).pc.caller = some caller) :
    caller = none ∧ (s.threads p).curRunning = none ∧ (s.threads p).lastResult = none ∨
      ∃ h pt, caller = some h ∧ (s.threads p).pc = .exec h pt := by
  have here := regs p
  unfold Pc.caller at called
  split at called
  · rename_i at_user
    simp only [Thread.Registers, at_user] at here
    exact .inl ⟨by simpa using called.symm, here⟩
  · rename_i h at_exec
    exact .inr ⟨h, .user, by simpa using called.symm, at_exec⟩
  · cases called

theorem step (regs : Registers s) {a : Act P} (taken : step s a = some s') : Registers s' := by
  cases a with
  | spawn p =>
      have here := regs p
      simp only [Runtime.step] at taken
      split at taken <;> try contradiction
      all_goals
        rename_i at_pc
        simp only [Thread.Registers, at_pc] at here
        simp only [Option.some.injEq] at taken
        subst taken
        exact setThread (s := { s with workCounts := _ }) regs (by simpa [Thread.Registers] using here)
  | spawnInner p =>
      have here := regs p
      simp only [Runtime.step] at taken
      split at taken <;> try contradiction
      · rename_i at_pc
        simp only [Thread.Registers, at_pc] at here
        simp only [Option.some.injEq] at taken
        subst taken
        exact regs.spawnOpts (.inl ⟨rfl, here⟩)
      · rename_i h at_pc
        simp only [Option.some.injEq] at taken
        subst taken
        exact regs.spawnOpts (.inr ⟨h, _, rfl, at_pc⟩)
  | processorSpawn p =>
      obtain ⟨caller, called, rfl⟩ := Option.map_eq_some_iff.mp taken
      exact regs.spawnOpts (regs.of_caller called)
  | sched p | block p =>
      obtain ⟨caller, called, rfl⟩ := Option.map_eq_some_iff.mp taken
      exact regs.yieldFrom (regs.of_caller called) _ _
  | waitEvent p fd interest token =>
      simp only [Runtime.step] at taken
      split at taken <;> try contradiction
      rename_i at_pc
      exact regs.insertWaiter at_pc taken
  | register p ok =>
      simp only [Runtime.step] at taken
      split at taken <;> try contradiction
      rename_i at_pc
      exact regs.register at_pc taken
  | ret p | panic p =>
      simp only [Runtime.step] at taken
      split at taken <;> try contradiction
      rename_i at_pc
      simp only [Option.some.injEq] at taken
      subst taken
      exact yieldWith (s := s.endClosure _) regs at_pc _ _ _
  | enter p =>
      have here := regs p
      simp only [Runtime.step, Option.ite_none_right_eq_some, Option.some.injEq] at taken
      obtain ⟨at_pc, rfl⟩ := taken
      simp only [Thread.Registers, at_pc] at here
      exact regs.setThread (by simpa [Thread.Registers] using here)
  | leave p =>
      have here := regs p
      simp only [Runtime.step, Option.ite_none_right_eq_some, Option.some.injEq] at taken
      obtain ⟨at_pc, rfl⟩ := taken
      apply regs.setThread
      rcases at_pc with at_pc | at_pc <;>
        simp only [Thread.Registers, at_pc] at here <;> simpa [Thread.Registers] using here
  | poll p fds =>
      have here := regs p
      simp only [Runtime.step, Option.ite_none_right_eq_some] at taken
      obtain ⟨at_pc, polled⟩ := taken
      obtain ⟨⟨l, tokens⟩, -, rfl⟩ := Option.map_eq_some_iff.mp polled
      simp only [Thread.Registers, at_pc] at here
      exact regs.setThread (by simpa [Thread.Registers] using here)
  | pollErr p =>
      have here := regs p
      simp only [Runtime.step, Option.ite_none_right_eq_some, Option.some.injEq] at taken
      obtain ⟨at_pc, rfl⟩ := taken
      simp only [Thread.Registers, at_pc] at here
      exact regs.setThread (by simpa [Thread.Registers] using here)
  | setHolds fd interest b =>
      simp only [Runtime.step, Option.some.injEq] at taken
      subst taken
      exact regs
  | tau p => exact regs.tau taken

omit [DecidableEq P] in
theorem init : Registers (Sys.init : Sys P) := fun _ => ⟨rfl, rfl⟩

/-- In every state of every run the two registers are as the thread's place
requires. -/
theorem reach {ok : Sys P → Act P → Prop} (reached : (system P).Reach ok .init s) : Registers s :=
  reached.invariant init fun _ _ _ _ regs _ taken => regs.step taken

end Registers

end SimpleSched.Runtime
