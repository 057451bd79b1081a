/-
# Runtime.Results -- a result belongs to the coroutine that passed it

`cur_running` and `last_result` are set on one side of a context switch and taken on
the other.  `Recorded` runs the threads with a record the code does not keep: what was
passed on each thread, and by which coroutine, since that thread last switched to one.

`attributed` says, of runs in which every call is made on the processor that executes
the caller, what the two fields hold in the processor's own code and in a coroutine,
that `resume(c)` finds the result `c` passed at the yield that ended it, and that no
yield of a coroutine is ignored.
-/
import SimpleSched.Runtime.References

namespace SimpleSched.Runtime

set_option autoImplicit false

open Mio Theory

variable {P : Type}

/-! ## What is passed -/

/-- Which coroutine yields in this step, and with what result: `Processor::spawn_opts`
ends with `sched`, `wait_event` with `block`, and `coroutine_initialize` passes how the
closure has ended (`wait_event` panics in a closure when it unwraps). -/
def Act.passes (s : Sys P) : Act P → Option (CoroutineRefMut × Result)
  | .sched p | .processorSpawn p => (s.threads p).pc.closure.map (·, .ok .suspended)
  | .block p => (s.threads p).pc.closure.map (·, .ok .blocked)
  | .ret p => (s.threads p).pc.closure.map (·, .ok .finished)
  | .panic p => (s.threads p).pc.closure.map (·, .error .panicking)
  | .waitEvent p _ _ _ =>
    if (s.threads p).curRunning = none ∨ (s.threads p).slabs.count = MAX_TOKEN_NUM then
      (s.threads p).pc.closure.map (·, .error .panicking)
    else none
  | .spawnInner p =>
    match (s.threads p).pc with
    | .exec h .spawnOpts => some (h, .ok .suspended)
    | _ => none
  | .tau p =>
    match (s.threads p).pc with
    | .exec h (.registered _) => some (h, .ok .blocked)
    | .exec h (.exiting st) => some (h, .ok st)
    | _ => none
  | _ => none

/-- `Processor::resume` switches to a coroutine in this step. -/
def Act.resumes (s : Sys P) : Act P → Bool
  | .tau p =>
    match (s.threads p).pc with
    | .runTask _ => true
    | _ => false
  | _ => false

def RefAct.actor : RefAct P → Option P
  | .runtime a => a.actor
  | .current p | .sched p _ | .block p _ | .yieldWith p _ _ => some p

def RefAct.passes (s : Sys P) : RefAct P → Option (CoroutineRefMut × Result)
  | .runtime a => a.passes s
  | .current _ => none
  | .sched p _ => (s.threads p).pc.closure.map (·, .ok .suspended)
  | .block p _ => (s.threads p).pc.closure.map (·, .ok .blocked)
  | .yieldWith p _ r => (s.threads p).pc.closure.map (·, r)

def RefAct.resumes (s : Sys P) : RefAct P → Bool
  | .runtime a => a.resumes s
  | _ => false

structure Recorded (P : Type) extends Refs P where
  passed : P → Option (CoroutineRefMut × Result)

variable [DecidableEq P]

namespace Recorded

def init : Recorded P := { Refs.init with passed := fun _ => none }

/-- The record after a step: a yield is entered, a switch to a coroutine clears what was
passed before it. -/
def record (s : Recorded P) (a : RefAct P) : P → Option (CoroutineRefMut × Result) :=
  match a.actor with
  | none => s.passed
  | some p => Function.update s.passed p
      ((a.passes s.sys).or (if a.resumes s.sys then none else s.passed p))

def step (s : Recorded P) (a : RefAct P) : Option (Recorded P) :=
  (s.toRefs.step a).map fun refs => { refs with passed := s.record a }

end Recorded

def recording (P : Type) [DecidableEq P] : Lts (Recorded P) (RefAct P) := ⟨Recorded.step⟩

/-- Calls are made on the processor that executes the caller. -/
def Recorded.AtHome (s : Recorded P) (a : RefAct P) : Prop := Runtime.AtHome s.toRefs a

/-- The thread is in code of its own: not in `resume`, and it has not left the code. -/
def Pc.scheduling : Pc → Bool
  | .exec _ _ | .back _ | .crashed => false
  | _ => true

structure Attributed (s : Recorded P) : Prop where
  /-- outside `resume` both fields are `None` -/
  scheduling : ∀ p, (s.sys.threads p).pc.scheduling = true →
    (s.sys.threads p).curRunning = none ∧ (s.sys.threads p).lastResult = none
  /-- while `c` runs, `cur_running` is `c` and nothing has been passed -/
  executing : ∀ p c pt, (s.sys.threads p).pc = .exec c pt →
    (s.sys.threads p).curRunning = some c ∧ (s.sys.threads p).lastResult = none ∧ s.passed p = none
  /-- `resume(c)` finds a result, the one `c` has passed -/
  returned : ∀ p c, (s.sys.threads p).pc = .back c →
    ∃ r, s.passed p = some (c, r) ∧ (s.sys.threads p).lastResult = some r
  /-- and returns it to `run_task` -/
  returns : ∀ p c s', (s.sys.threads p).pc = .back c → s.step (.runtime (.tau p)) = some s' →
    ∃ r, s.passed p = some (c, r) ∧ (s'.sys.threads p).pc = Sys.runTaskArm c r
  /-- a coroutine that yields is suspended -/
  heard : ∀ a s' p c r, s.AtHome a → s.step a = some s' → a.actor = some p →
    a.passes s.sys = some (c, r) →
    (s'.sys.threads p).pc = .back c ∧ (s'.sys.threads p).lastResult = some r

/-! ## What one step of a thread does -/

section Step

variable {s s' : Sys P} {a : Act P} {p q : P}

theorem threads_update {t : Thread} (other : q ≠ p) : Function.update s.threads p t q = s.threads q :=
  Function.update_of_ne other _ _

theorem ready_others (other : q ≠ p) (c : CoroutineRefMut) (pc : Pc) :
    (s.ready p c pc).threads q = s.threads q := by
  unfold Sys.ready
  split
  · exact threads_update other
  · rfl

theorem yieldWith_others (other : q ≠ p) (h : CoroutineRefMut) (r : Result) (k : Context P)
    (stay : Point) : (s.yieldWith p h r k stay).threads q = s.threads q := by
  unfold Sys.yieldWith
  split <;> exact threads_update other

theorem yieldFrom_others (other : q ≠ p) (caller : Option CoroutineRefMut) (r : Result)
    (k : Context P) : (s.yieldFrom p caller r k).threads q = s.threads q := by
  unfold Sys.yieldFrom
  split
  · exact yieldWith_others other _ _ _ _
  · split <;> exact threads_update other

theorem spawnOpts_others (other : q ≠ p) (caller : Option CoroutineRefMut) :
    (s.spawnOpts p caller).threads q = s.threads q := by
  unfold Sys.spawnOpts
  rw [yieldFrom_others other]
  exact threads_update other

theorem tau_others (other : q ≠ p) (taken : s.tau p = some s') : s'.threads q = s.threads q := by
  cases at_pc : (s.threads p).pc with
  | user | userSpawn | runOnce | done | failed | crashed => simp [Sys.tau, at_pc] at taken
  | exec h pt =>
      cases pt with
      | user | spawnOpts | inserted => simp [Sys.tau, at_pc] at taken
      | registered token | exiting st =>
          simp only [Sys.tau, at_pc, Option.some.injEq] at taken
          subst taken
          exact yieldWith_others other _ _ _ _
  | handle tokens =>
      cases tokens with
      | nil =>
          simp only [Sys.tau, at_pc, Option.some.injEq] at taken
          subst taken
          exact threads_update other
      | cons token rest =>
          simp only [Sys.tau, at_pc, Option.some.injEq, Sys.handleEvent] at taken
          subst taken
          split <;> exact threads_update other
  | wake c rest | requeue c =>
      simp only [Sys.tau, at_pc, Option.some.injEq] at taken
      subst taken
      exact ready_others other _ _
  | _ =>
      simp only [Sys.tau, at_pc, Option.some.injEq, Sys.popQueue, Sys.deregister, Sys.drain,
        Sys.resume, Sys.dropBox] at taken
      subst taken
      first
      | exact threads_update other
      | split <;> exact threads_update other

theorem step_others (other : a.actor ≠ some q) (taken : step s a = some s') :
    ∃ l, s'.threads q = { s.threads q with eventLoop := l } := by
  have same {p : P} (actor : a.actor = some p)
      (threads : q ≠ p → s'.threads q = s.threads q) :
      ∃ l, s'.threads q = { s.threads q with eventLoop := l } := by
    refine ⟨(s.threads q).eventLoop, threads ?_⟩
    rintro rfl
    exact other actor
  cases a with
  | setHolds fd interest b =>
      simp only [step, Option.some.injEq] at taken
      subst taken
      exact ⟨_, rfl⟩
  | tau p => exact same rfl fun apart => tau_others apart taken
  | spawn p =>
      refine same rfl fun apart => ?_
      simp only [step] at taken
      split at taken <;> cases taken <;> exact threads_update apart
  | spawnInner p =>
      refine same rfl fun apart => ?_
      simp only [step] at taken
      split at taken <;> cases taken <;> exact spawnOpts_others apart _
  | processorSpawn p =>
      refine same rfl fun apart => ?_
      obtain ⟨caller, -, rfl⟩ := Option.map_eq_some_iff.mp taken
      exact spawnOpts_others apart _
  | sched p | block p =>
      refine same rfl fun apart => ?_
      obtain ⟨caller, -, rfl⟩ := Option.map_eq_some_iff.mp taken
      exact yieldFrom_others apart _ _ _
  | waitEvent p fd interest token =>
      refine same rfl fun apart => ?_
      simp only [step] at taken
      split at taken <;> try contradiction
      unfold Sys.insertWaiter at taken
      split at taken
      · cases taken
        exact yieldWith_others apart _ _ _ _
      · split at taken
        · cases taken
          exact yieldWith_others apart _ _ _ _
        · obtain ⟨slabs, -, rfl⟩ := Option.map_eq_some_iff.mp taken
          exact threads_update apart
  | register p ok =>
      refine same rfl fun apart => ?_
      simp only [step] at taken
      split at taken <;> try contradiction
      unfold Sys.register at taken
      split at taken
      · obtain ⟨l, -, rfl⟩ := Option.map_eq_some_iff.mp taken
        exact threads_update apart
      · cases taken
        exact threads_update apart
  | ret p | panic p =>
      refine same rfl fun apart => ?_
      simp only [step] at taken
      split at taken <;> cases taken
      exact yieldWith_others apart _ _ _ _
  | enter p | leave p | pollErr p =>
      refine same rfl fun apart => ?_
      simp only [step, Option.ite_none_right_eq_some, Option.some.injEq] at taken
      obtain ⟨-, rfl⟩ := taken
      exact threads_update apart
  | poll p fds =>
      refine same rfl fun apart => ?_
      simp only [step, Option.ite_none_right_eq_some] at taken
      obtain ⟨-, polled⟩ := taken
      obtain ⟨⟨l, tokens⟩, -, rfl⟩ := Option.map_eq_some_iff.mp polled
      exact threads_update apart

/-- What a thread's own step does with the two fields: a coroutine passes a result
and the thread is back in `resume`; or nothing is passed, and if a coroutine is
executed then because it was, or because it is resumed. -/
inductive Moves (t t' : Thread) (passes : Option (CoroutineRefMut × Result)) (resumes : Bool) : Prop
  | yields {c r} : passes = some (c, r) → t'.pc = .back c → t'.lastResult = some r →
      Moves t t' passes resumes
  | goes : passes = none → (∀ c, t'.pc ≠ .back c) →
      (∀ c pt, t'.pc = .exec c pt → resumes = true ∨ ∃ pt', t.pc = .exec c pt') →
      Moves t t' passes resumes

theorem yieldWith_moves (regs : Registers s) {h : CoroutineRefMut} {pt : Point}
    (at_pc : (s.threads p).pc = .exec h pt) {r : Result} (k : Context P) (stay : Point)
    {passes : Option (CoroutineRefMut × Result)} (passed : passes = some (h, r)) (resumes : Bool) :
    Moves (s.threads p) ((s.yieldWith p h r k stay).threads p) passes resumes := by
  have here := regs.executing at_pc
  exact .yields passed (by simp [Sys.yieldWith, here.1]) (by simp [Sys.yieldWith, here.1])

/-- A step that leaves the thread in code of its own. -/
theorem Moves.away {t t' : Thread} {passes : Option (CoroutineRefMut × Result)} {resumes : Bool}
    (none : passes = none) (away : (∀ c, t'.pc ≠ .back c) ∧ ∀ c pt, t'.pc ≠ .exec c pt) :
    Moves t t' passes resumes :=
  .goes none away.1 fun c pt at_pc => absurd at_pc (away.2 c pt)

theorem spawnOpts_moves (regs : Registers s) {h : CoroutineRefMut} {pt : Point}
    (at_pc : (s.threads p).pc = .exec h pt) {passes : Option (CoroutineRefMut × Result)}
    (passed : passes = some (h, .ok .suspended)) (resumes : Bool) :
    Moves (s.threads p) ((s.spawnOpts p (some h)).threads p) passes resumes := by
  rw [spawnOpts_in regs at_pc]
  exact .yields passed (by simp [Sys.switchBack]) (by simp [Sys.switchBack, Context.result])

theorem ready_moves {c : CoroutineRefMut} {pc : Pc} (pushing : (s.threads p).pc.pushing = some c)
    (away : (∀ c, pc ≠ .back c) ∧ ∀ c pt, pc ≠ .exec c pt)
    {passes : Option (CoroutineRefMut × Result)} (none : passes = none) (resumes : Bool) :
    Moves (s.threads p) ((s.ready p c pc).threads p) passes resumes := by
  apply Moves.away none
  unfold Sys.ready
  split
  · simpa using away
  · cases at_pc : (s.threads p).pc <;> simp_all [Pc.pushing]

theorem tau_moves (regs : Registers s) (taken : s.tau p = some s') :
    Moves (s.threads p) (s'.threads p) ((Act.tau p).passes s) ((Act.tau p).resumes s) := by
  cases at_pc : (s.threads p).pc with
  | user | userSpawn | runOnce | done | failed | crashed => simp [Sys.tau, at_pc] at taken
  | exec h pt =>
      cases pt with
      | user | spawnOpts | inserted => simp [Sys.tau, at_pc] at taken
      | registered token | exiting st =>
          simp only [Sys.tau, at_pc, Option.some.injEq] at taken
          subst taken
          exact yieldWith_moves regs at_pc _ _ (by simp [Act.passes, at_pc]) _
  | runTask c =>
      simp only [Sys.tau, at_pc, Option.some.injEq] at taken
      subst taken
      refine .goes (by simp [Act.passes, at_pc]) ?_ ?_
      · unfold Sys.resume
        split <;> simp
      · intro _ _ _
        exact .inl (by simp [Act.resumes, at_pc])
  | handle tokens =>
      refine .away (by simp [Act.passes, at_pc]) ?_
      cases tokens with
      | nil =>
          simp only [Sys.tau, at_pc, Option.some.injEq] at taken
          subst taken
          simp
      | cons token rest =>
          simp only [Sys.tau, at_pc, Option.some.injEq, Sys.handleEvent] at taken
          subst taken
          split <;> simp
  | wake c rest =>
      simp only [Sys.tau, at_pc, Option.some.injEq] at taken
      subst taken
      exact ready_moves (by rw [at_pc]; rfl) (by simp) (by simp [Act.passes, at_pc]) _
  | requeue c =>
      simp only [Sys.tau, at_pc, Option.some.injEq] at taken
      subst taken
      exact ready_moves (by rw [at_pc]; rfl) (by simp) (by simp [Act.passes, at_pc]) _
  | back c =>
      simp only [Sys.tau, at_pc, Option.some.injEq] at taken
      subst taken
      refine .away (by simp [Act.passes, at_pc]) ?_
      simp only [Sys.resumed, Sys.setThread_threads, Function.update_self]
      rcases Sys.runTaskArm_cases c ((s.threads p).lastResult.getD (.ok .suspended)) with
        arm | arm | arm <;> simp [arm]
  | _ =>
      simp only [Sys.tau, at_pc, Option.some.injEq, Sys.popQueue, Sys.deregister, Sys.drain,
        Sys.dropBox, Sys.finished] at taken
      subst taken
      refine .away (by simp [Act.passes, at_pc]) ?_
      first
      | simp; done
      | split <;> simp

theorem Moves.stays {t t' : Thread} {passes : Option (CoroutineRefMut × Result)} {resumes : Bool}
    {h : CoroutineRefMut} {pt : Point} (none : passes = none) (before : t.pc = .exec h pt)
    (pt' : Point) (after : t'.pc = .exec h pt') : Moves t t' passes resumes := by
  refine .goes none (by simp [after]) ?_
  intro c pt'' at_pc
  obtain ⟨rfl, -⟩ : h = c ∧ pt' = pt'' := by simpa [after] using at_pc
  exact .inr ⟨pt, before⟩

/-- A call from a thread that executes no coroutine passes nothing. -/
theorem yieldFrom_moves (regs : Registers s) {caller : Option CoroutineRefMut}
    (called : (s.threads p).pc.caller = some caller) (r : Result) (k : Context P) (resumes : Bool) :
    Moves (s.threads p) ((s.yieldFrom p caller r k).threads p)
      ((s.threads p).pc.closure.map (·, r)) resumes := by
  rcases caller_cases called with ⟨at_pc, rfl⟩ | ⟨h, at_pc, rfl⟩
  · refine .away (by simp [at_pc, Pc.closure]) ?_
    simp [Sys.yieldFrom, idle_of_pc regs (.inl at_pc)]
  · exact yieldWith_moves regs at_pc k .user (by simp [at_pc, Pc.closure]) resumes

theorem step_moves (regs : Registers s) (taken : step s a = some s') (actor : a.actor = some p) :
    Moves (s.threads p) (s'.threads p) (a.passes s) (a.resumes s) := by
  cases a with
  | setHolds => cases actor
  | tau q =>
      cases actor
      exact tau_moves regs taken
  | spawn q =>
      cases actor
      simp only [step] at taken
      split at taken <;> cases taken
      · exact .away rfl (by simp [Sys.fetchAdd])
      · exact .stays rfl ‹_› .spawnOpts (by simp [Sys.fetchAdd])
  | spawnInner q =>
      cases actor
      simp only [step] at taken
      split at taken <;> try contradiction
      · rename_i at_pc
        cases taken
        rw [spawnOpts_out (idle_of_pc regs (.inr at_pc))]
        exact .away (by simp [Act.passes, at_pc]) (by simp)
      · rename_i h at_pc
        cases taken
        exact spawnOpts_moves regs at_pc (by simp [Act.passes, at_pc]) _
  | processorSpawn q =>
      cases actor
      obtain ⟨caller, called, rfl⟩ := Option.map_eq_some_iff.mp taken
      rcases caller_cases called with ⟨at_pc, rfl⟩ | ⟨h, at_pc, rfl⟩
      · rw [spawnOpts_out (idle_of_pc regs (.inl at_pc))]
        exact .away (by simp [Act.passes, at_pc, Pc.closure]) (by simp)
      · exact spawnOpts_moves regs at_pc (by simp [Act.passes, at_pc, Pc.closure]) _
  | sched q | block q =>
      cases actor
      obtain ⟨caller, called, rfl⟩ := Option.map_eq_some_iff.mp taken
      exact yieldFrom_moves regs called _ _ _
  | waitEvent q fd interest token =>
      cases actor
      simp only [step] at taken
      split at taken <;> try contradiction
      rename_i h at_pc
      have here := regs.executing at_pc
      simp only [Sys.insertWaiter, here.1] at taken
      split at taken
      · rename_i full
        cases taken
        have passes : (Act.waitEvent p fd interest token).passes s = some (h, .error .panicking) := by
          simp [Act.passes, full, at_pc, Pc.closure]
        exact yieldWith_moves (s := { s with closed := fd :: s.closed }.endClosure h) regs at_pc _ _
          passes _
      · rename_i room
        obtain ⟨slabs, -, rfl⟩ := Option.map_eq_some_iff.mp taken
        exact .stays (by simp [Act.passes, room, here.1]) at_pc (.inserted token fd interest) (by simp)
  | register q ok =>
      cases actor
      simp only [step] at taken
      split at taken <;> try contradiction
      rename_i h token fd interest at_pc
      unfold Sys.register at taken
      split at taken
      · obtain ⟨l, -, rfl⟩ := Option.map_eq_some_iff.mp taken
        exact .stays rfl at_pc (.registered token) (by simp)
      · cases taken
        exact .stays rfl at_pc .user (by simp)
  | ret q | panic q =>
      cases actor
      simp only [step] at taken
      split at taken <;> try contradiction
      rename_i h at_pc
      cases taken
      exact yieldWith_moves (s := s.endClosure h) regs at_pc _ _
        (by simp [Act.passes, at_pc, Pc.closure]) _
  | enter q | leave q | pollErr q =>
      cases actor
      simp only [step, Option.ite_none_right_eq_some, Option.some.injEq] at taken
      obtain ⟨-, rfl⟩ := taken
      exact .away rfl (by simp)
  | poll q fds =>
      cases actor
      simp only [step, Option.ite_none_right_eq_some] at taken
      obtain ⟨-, polled⟩ := taken
      obtain ⟨⟨l, tokens⟩, -, rfl⟩ := Option.map_eq_some_iff.mp polled
      exact .away rfl (by simp)

end Step

/-! ## What one step of a run does -/

section Run

variable {s s' : Refs P} {a : RefAct P} {p q : P}

/-- Calls at home are steps of the runtime, `yield_with` aside, which does what its
caller's own processor does. -/
theorem refs_others (home : AtHome s a) (other : a.actor ≠ some q) (taken : s.step a = some s') :
    ∃ l, s'.sys.threads q = { s.sys.threads q with eventLoop := l } := by
  cases a with
  | runtime a =>
      obtain ⟨sys, stepped, rfl⟩ := Option.map_eq_some_iff.mp taken
      exact step_others other stepped
  | current p =>
      simp only [Refs.step] at taken
      split at taken <;> cases taken
      exact ⟨_, rfl⟩
  | sched p q' | block p q' | yieldWith p q' r =>
      obtain ⟨h, -, goes⟩ := call_some taken
      obtain rfl : q' = p := home
      have apart : q ≠ q' := by
        rintro rfl
        exact other rfl
      refine ⟨(s.sys.threads q).eventLoop, ?_⟩
      rw [goes]
      simpa only [Sys.schedOn, Sys.blockOn, yieldOn_self] using yieldWith_others apart _ _ _ _

theorem refs_moves (regs : Registers s.sys) (home : AtHome s a) (taken : s.step a = some s')
    (actor : a.actor = some p) :
    Moves (s.sys.threads p) (s'.sys.threads p) (a.passes s.sys) (a.resumes s.sys) := by
  cases a with
  | runtime a =>
      obtain ⟨sys, stepped, rfl⟩ := Option.map_eq_some_iff.mp taken
      exact step_moves regs stepped actor
  | current q =>
      cases actor
      simp only [Refs.step] at taken
      split at taken <;> cases taken
      exact .stays rfl ‹_› .user ‹_›
  | sched q q' | block q q' | yieldWith q q' r =>
      cases actor
      obtain ⟨h, at_pc, goes⟩ := call_some taken
      obtain rfl : q' = p := home
      rw [goes]
      simp only [Sys.schedOn, Sys.blockOn, yieldOn_self]
      exact yieldWith_moves regs at_pc _ _ (by simp [RefAct.passes, at_pc, Pc.closure]) _

end Run

namespace Recorded

variable {s s' : Recorded P} {a : RefAct P} {p q : P}

theorem step_some (taken : s.step a = some s') :
    s.toRefs.step a = some s'.toRefs ∧ s'.passed = s.record a := by
  obtain ⟨refs, stepped, rfl⟩ := Option.map_eq_some_iff.mp taken
  exact ⟨stepped, rfl⟩

theorem record_others (other : a.actor ≠ some q) : s.record a q = s.passed q := by
  cases actor : a.actor with
  | none => simp [record, actor]
  | some p =>
      have apart : q ≠ p := by
        rintro rfl
        exact other actor
      simp [record, actor, Function.update_of_ne apart]

/-- The record agrees with the field: nothing has been passed while a coroutine runs, and
after its yield the field holds what it passed. -/
structure Told (s : Recorded P) (p : P) : Prop where
  executing : ∀ c pt, (s.sys.threads p).pc = .exec c pt → s.passed p = none
  returned : ∀ c, (s.sys.threads p).pc = .back c →
    ∃ r, s.passed p = some (c, r) ∧ (s.sys.threads p).lastResult = some r

theorem Told.step_self (regs : Registers s.sys) (told : s.Told p) (home : s.AtHome a)
    (actor : a.actor = some p) (taken : s.step a = some s') : s'.Told p := by
  obtain ⟨stepped, passed⟩ := step_some taken
  have recorded : s'.passed p =
      (a.passes s.sys).or (if a.resumes s.sys then none else s.passed p) := by
    simp [passed, record, actor]
  rcases refs_moves regs home stepped actor with ⟨passes, back, last⟩ | ⟨none, away, executes⟩
  · constructor
    case executing =>
      intro c pt at_pc
      rw [back] at at_pc
      cases at_pc
    case returned =>
      intro c at_pc
      rw [back, Pc.back.injEq] at at_pc
      subst at_pc
      rw [passes] at recorded
      exact ⟨_, recorded, last⟩
  · rw [none] at recorded
    constructor
    case executing =>
      intro c pt at_pc
      rw [recorded]
      rcases executes c pt at_pc with resumes | ⟨pt', before⟩
      · simp [resumes]
      · simp [told.executing c pt' before]
    case returned =>
      intro c at_pc
      exact absurd at_pc (away c)

theorem Told.step_other (told : s.Told q) (home : s.AtHome a) (other : a.actor ≠ some q)
    (taken : s.step a = some s') : s'.Told q := by
  obtain ⟨stepped, passed⟩ := step_some taken
  obtain ⟨l, same⟩ := refs_others home other stepped
  have recorded : s'.passed q = s.passed q := by
    rw [passed]
    exact record_others other
  constructor
  case executing =>
    intro c pt at_pc
    rw [recorded]
    exact told.executing c pt (by simpa [same] using at_pc)
  case returned =>
    intro c at_pc
    rw [recorded, same]
    exact told.returned c (by simpa [same] using at_pc)

theorem home_registers (regs : Registers s.sys) (home : s.AtHome a) (taken : s.step a = some s') :
    Registers s'.sys := by
  have stepped := (step_some taken).1
  exact ((calls_right_step regs stepped).2 home).registers stepped regs

theorem told_reach (reached : (recording P).Reach AtHome .init s) :
    Registers s.sys ∧ ∀ p, s.Told p := by
  apply reached.invariant (I := fun s => Registers s.sys ∧ ∀ p, s.Told p)
  case start => exact ⟨.init, fun p => ⟨fun _ _ _ => rfl, fun c at_pc => by cases at_pc⟩⟩
  case kept =>
    intro s a s' _ holds home taken
    refine ⟨home_registers holds.1 home taken, ?_⟩
    intro p
    by_cases actor : a.actor = some p
    · exact (holds.2 p).step_self holds.1 home actor taken
    · exact (holds.2 p).step_other home actor taken

end Recorded

/-- In runs whose calls are made on the processor that executes the caller, a result is
attributed to the coroutine that passed it. -/
theorem attributed {s : Recorded P} (reached : (recording P).Reach Recorded.AtHome .init s) :
    Attributed s := by
  obtain ⟨regs, told⟩ := Recorded.told_reach reached
  constructor
  case scheduling =>
    intro p away
    have here := regs p
    cases at_pc : (s.sys.threads p).pc <;> simp_all [Thread.Registers, Pc.scheduling]
  case executing =>
    intro p c pt at_pc
    have here := regs.executing at_pc
    exact ⟨here.1, here.2, (told p).executing c pt at_pc⟩
  case returned =>
    intro p c at_pc
    exact (told p).returned c at_pc
  case returns =>
    intro p c s' at_pc taken
    obtain ⟨r, passed, last⟩ := (told p).returned c at_pc
    refine ⟨r, passed, ?_⟩
    obtain ⟨sys, stepped, goes⟩ := Option.map_eq_some_iff.mp (Recorded.step_some taken).1
    simp only [step, Sys.tau, at_pc, Option.some.injEq] at stepped
    subst stepped
    rw [← goes]
    simp [Sys.resumed, last]
  case heard =>
    intro a s' p c r home taken actor passes
    rcases refs_moves regs home (Recorded.step_some taken).1 actor with ⟨passes', back, last⟩ | ⟨none, -⟩
    · rw [passes, Option.some.injEq, Prod.mk.injEq] at passes'
      obtain ⟨rfl, rfl⟩ := passes'
      exact ⟨back, last⟩
    · rw [passes] at none
      cases none

/-- A coroutine that gives its own processor an error to return. -/
def yieldsError : List (RefAct Unit) :=
  [.runtime (.spawn ()), .runtime (.spawnInner ()), .runtime (.enter ()), .runtime (.tau ()),
    .runtime (.tau ()), .runtime (.tau ()), .runtime (.tau ()), .runtime (.tau ()), .current (),
    .yieldWith () () (.error .panicking)]

theorem error_attributed : ∃ s, (recording Unit).exec .init yieldsError = some s ∧ Attributed s ∧
    (s.sys.threads ()).pc = .back 0 ∧ s.passed () = some (0, .error .panicking) := by
  have ends : ((recording Unit).exec .init yieldsError).any (fun s =>
      (s.sys.threads ()).pc = .back 0 ∧ s.passed () = some (0, .error .panicking)) = true := by
    decide +kernel
  obtain ⟨s, run, passes⟩ := (Option.any_eq_true _ _).1 ends
  have home : ∀ a ∈ yieldsError, ∀ s, Recorded.AtHome s a := by
    simp [yieldsError, Recorded.AtHome, AtHome]
  exact ⟨s, run, attributed (.of_exec run (Lts.meets_of_forall home)), of_decide_eq_true passes⟩

end SimpleSched.Runtime
