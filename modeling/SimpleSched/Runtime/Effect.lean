/-
# Runtime.Effect -- what one step does, said once

From a state whose registers are in order and whose coroutines are placed, a step
is one of the constructors of `Effect`, with its guards and with the placement it
leads to (`effect_of_step`).  In particular no thread crashes, `None` is never
found where a coroutine yields, and an event's token is always in the slab.
Invariants of the system are proved by cases on `Effect`.
-/
import SimpleSched.Runtime.Place

namespace SimpleSched.Runtime

set_option autoImplicit false

open Mio Theory

variable {P : Type} [DecidableEq P]

/-- What `yield_with` does when `cur_running` is the caller `h`. -/
def Sys.switchBack (s : Sys P) (p : P) (h : CoroutineRefMut) (k : Context P) : Sys P :=
  (s.setThread p { s.threads p with
    curRunning := none, lastResult := some k.result, pc := .back h }).setCoro h
      { s.coros h with cell := .saved k }

/-- A coroutine that waited in the slot is lost, the new one takes its place. -/
def Placing.spawn (place : Placing P) (s : Sys P) (p : P) : Placing P :=
  match (s.threads p).newSpawned with
  | some old => Function.update (Function.update place old .lost) s.next (.slot p)
  | none => Function.update place s.next (.slot p)

/-- Where the retry loop of `Scheduler::ready` goes on. -/
def Pc.pushed : Pc → Pc
  | .wake _ rest => .handle rest
  | _ => .drain

/-- Steps of `p` that change nothing but its place in the code. -/
inductive Quiet (s : Sys P) (p : P) : Act P → Pc → Prop
  | enter : (s.threads p).pc = .user → Quiet s p (.enter p) .pop
  | leave : (s.threads p).pc = .done ∨ (s.threads p).pc = .failed → Quiet s p (.leave p) .user
  | sched : (s.threads p).pc = .user → Quiet s p (.sched p) .user
  | block : (s.threads p).pc = .user → Quiet s p (.block p) .user
  | empty : (s.threads p).pc = .pop → s.globalQueue.items = [] → Quiet s p (.tau p) .empty
  | poll : (s.threads p).pc = .empty → (s.threads p).slabs.count ≠ 0 → Quiet s p (.tau p) .runOnce
  | count : (s.threads p).pc = .empty → (s.threads p).slabs.count = 0 →
      Quiet s p (.tau p) .workCount
  | stop : (s.threads p).pc = .workCount → s.workCounts = 0 → Quiet s p (.tau p) .done
  | sleep : (s.threads p).pc = .workCount → s.workCounts ≠ 0 → Quiet s p (.tau p) .drain
  | polled : (s.threads p).pc = .handle [] → Quiet s p (.tau p) .drain
  | drained : (s.threads p).pc = .drain → (s.threads p).newSpawned = none → Quiet s p (.tau p) .pop
  | pollErr : (s.threads p).pc = .runOnce → Quiet s p (.pollErr p) .failed
  | refused {h token fd interest} : (s.threads p).pc = .exec h (.inserted token fd interest) →
      Quiet s p (.register p false) (.exec h .user)

/-- The calls by which a running coroutine suspends. -/
inductive Yields (p : P) : Point → Act P → Context P → Prop
  | sched : Yields p .user (.sched p) .sched
  | block : Yields p .user (.block p) .block
  | waitEvent {token} : Yields p (.registered token) (.tau p) (.waitEvent p token)

/-- The ways a closure ends; a full slab panics in `wait_event`. -/
inductive Ends (p : P) : Act P → Context P → Prop
  | ret : Ends p (.ret p) (.exited .finished)
  | panic : Ends p (.panic p) (.exited .panicked)
  | slabFull {fd interest token} : Ends p (.waitEvent p fd interest token) (.exited .panicked)

inductive Effect (s : Sys P) (place : Placing P) : Act P → Sys P → Placing P → Prop
  | quiet {p a pc} : Quiet s p a pc → Effect s place a (s.setPc p pc) place
  | full {p c} : (s.threads p).pc.pushing = some c → s.globalQueue.push c = none →
      Effect s place (.tau p) s place
  | fetchAdd {p pc} : (s.threads p).pc = .user ∧ pc = .userSpawn ∨
        (∃ h, (s.threads p).pc = .exec h .user ∧ pc = .exec h .spawnOpts) →
      Effect s place (.spawn p) (s.fetchAdd p pc) place
  | spawnOut {p a} : a = .spawnInner p ∧ (s.threads p).pc = .userSpawn ∨
        a = .processorSpawn p ∧ (s.threads p).pc = .user →
      Effect s place a ((s.boxSpawned p).setPc p .user) (place.spawn s p)
  | spawnIn {p a h} : a = .spawnInner p ∧ (s.threads p).pc = .exec h .spawnOpts ∨
        a = .processorSpawn p ∧ (s.threads p).pc = .exec h .user →
      Effect s place a ((s.boxSpawned p).switchBack p h .spawnOpts) (place.spawn s p)
  | yield {p h pt a k} : (s.threads p).pc = .exec h pt → Yields p pt a k →
      Effect s place a (s.switchBack p h k) place
  | ended {p h a k closed} : (s.threads p).pc = .exec h .user → Ends p a k →
      Effect s place a (({ s with closed := closed }.endClosure h).switchBack p h k) place
  | inserted {p h fd interest token slabs} : (s.threads p).pc = .exec h .user →
      (s.threads p).slabs.insert token (h, fd) = some slabs →
      Effect s place (.waitEvent p fd interest token)
        (s.setThread p { s.threads p with
          slabs := slabs, pc := .exec h (.inserted token fd interest) }) place
  | registered {p h token fd interest l} :
      (s.threads p).pc = .exec h (.inserted token fd interest) →
      (s.threads p).eventLoop.registerOpt fd token interest (s.holds fd interest) = some l →
      Effect s place (.register p true)
        (s.setThread p { s.threads p with eventLoop := l, pc := .exec h (.registered token) }) place
  | setHolds {fd interest b} :
      Effect s place (.setHolds fd interest b) (s.setHolds fd interest b) place
  | polled {p fds l tokens} : (s.threads p).pc = .runOnce →
      (s.threads p).eventLoop.poll fds = some (l, tokens) →
      Effect s place (.poll p fds)
        (s.setThread p { s.threads p with eventLoop := l, pc := .handle tokens }) place
  | handled {p token rest c fd slabs} : (s.threads p).pc = .handle (token :: rest) →
      (s.threads p).slabs.remove token = some ((c, fd), slabs) → place c = .wait p token →
      Effect s place (.tau p)
        (s.setThread p { s.threads p with slabs := slabs, pc := .deregister c fd rest })
        (Function.update place c (.hand p))
  | deregistered {p c fd rest l} : (s.threads p).pc = .deregister c fd rest →
      (s.threads p).eventLoop.deregister fd = some l →
      Effect s place (.tau p)
        (s.setThread p { s.threads p with eventLoop := l, pc := .wake c rest }) place
  | pushed {p c q} : (s.threads p).pc.pushing = some c → s.globalQueue.push c = some q →
      Effect s place (.tau p) ({ s with globalQueue := q }.setPc p (s.threads p).pc.pushed)
        (Function.update place c .queue)
  | popped {p c q} : (s.threads p).pc = .pop → s.globalQueue.pop = some (c, q) →
      Effect s place (.tau p) ({ s with globalQueue := q }.setPc p (.runTask c))
        (Function.update place c (.hand p))
  | drained {p c} : (s.threads p).pc = .drain → (s.threads p).newSpawned = some c →
      Effect s place (.tau p)
        (s.setThread p { s.threads p with newSpawned := none, pc := .runTask c })
        (Function.update place c (.hand p))
  | resumed {p c k} : (s.threads p).pc = .runTask c → (s.coros c).cell = .saved k →
      k.live = true →
      Effect s place (.tau p)
        ((s.setThread p { s.threads p with curRunning := some c, pc := .exec c .user }).setCoro c
          { s.coros c with cell := .running, resumed := (s.coros c).resumed + 1 }) place
  | took {p c k} : (s.threads p).pc = .back c → (s.coros c).cell = .saved k →
      k.result ≠ .ok .blocked →
      Effect s place (.tau p)
        (s.setThread p { s.threads p with lastResult := none, pc := Sys.runTaskArm c k.result }) place
  | left {p c k l} : (s.threads p).pc = .back c → (s.coros c).cell = .saved k →
      k = .block ∧ l = .parked ∨ (∃ token, k = .waitEvent p token ∧ l = .wait p token) →
      Effect s place (.tau p)
        (s.setThread p { s.threads p with lastResult := none, pc := .drain })
        (Function.update place c l)
  | finished {p c} : (s.threads p).pc = .finish c → Effect s place (.tau p) (s.finished p c) place
  | freed {p c st} : (s.threads p).pc = .free c → (s.coros c).cell = .saved (.exited st) →
      Effect s place (.tau p) ((s.setPc p .drain).setCoro c
        { s.coros c with cell := .freed, dropped := (s.coros c).dropped + 1 })
        (Function.update place c .freed)

/-! ## What a step does to one coroutine and to the other threads -/

/-- The thread that takes the step. -/
def Act.actor : Act P → Option P
  | .spawn p | .spawnInner p | .processorSpawn p | .sched p | .block p | .waitEvent p _ _ _
  | .register p _ | .ret p | .panic p | .enter p | .leave p | .poll p _ | .pollErr p | .tau p => some p
  | .setHolds _ _ _ => none

/-- What becomes of `c` in a step. -/
inductive Turn (s : Sys P) (a : Act P) (c : CoroutineRefMut) : Coroutine P → Prop
  | same : Turn s a c (s.coros c)
  | spawned : c = s.next → Turn s a c .spawned
  | yield {p pt k} : a.actor = some p → (s.threads p).pc = .exec c pt →
      Yields p pt a k ∨ k = .spawnOpts → Turn s a c { s.coros c with cell := .saved k }
  | ended {p k} : a.actor = some p → (s.threads p).pc = .exec c .user → Ends p a k →
      Turn s a c { s.coros c with ended := (s.coros c).ended + 1, cell := .saved k }
  | resumed {p} : a.actor = some p → (s.threads p).pc = .runTask c →
      Turn s a c { s.coros c with cell := .running, resumed := (s.coros c).resumed + 1 }
  | finished {p} : a.actor = some p → (s.threads p).pc = .finish c →
      Turn s a c { s.coros c with finished := (s.coros c).finished + 1 }
  | freed {p} : a.actor = some p → (s.threads p).pc = .free c →
      Turn s a c { s.coros c with cell := .freed, dropped := (s.coros c).dropped + 1 }

theorem Effect.turn {s s' : Sys P} {place place' : Placing P} {a : Act P} (inv : Placed s place)
    (effect : Effect s place a s' place') (c : CoroutineRefMut) : Turn s a c (s'.coros c) := by
  have update {d : CoroutineRefMut} {x : Coroutine P} (there : c = d → Turn s a c x) :
      Turn s a c (Function.update s.coros d x c) := by
    by_cases same : c = d
    · subst same
      rw [Function.update_self]
      exact there rfl
    · rw [Function.update_of_ne same]
      exact .same
  cases effect with
  | quiet | full | fetchAdd | inserted | registered | setHolds | polled | handled | deregistered
  | pushed | popped | drained | took | left => exact .same
  | spawnOut => exact update .spawned
  | @spawnIn p _ h at_pc =>
      have from_exec : a.actor = some p ∧ ∃ pt, (s.threads p).pc = .exec h pt := by
        rcases at_pc with ⟨rfl, at_pc⟩ | ⟨rfl, at_pc⟩ <;> exact ⟨rfl, _, at_pc⟩
      obtain ⟨actor, pt, at_exec⟩ := from_exec
      -- the spawner was born before the coroutine it spawns
      have held : place h = .hand p := inv.at_hand (by rw [at_exec]; rfl)
      have other : h ≠ s.next := Nat.ne_of_lt (inv.born (by simp [held]))
      by_cases same : c = h
      · subst same
        simpa [Sys.switchBack, Sys.boxSpawned, Function.update_of_ne other] using
          Turn.yield actor at_exec (.inr rfl)
      · simpa [Sys.switchBack, Sys.boxSpawned, Function.update_of_ne same] using update .spawned
  | yield at_pc yields =>
      apply update
      rintro rfl
      exact .yield (by cases yields <;> rfl) at_pc (.inl yields)
  | @ended _ h _ _ _ at_pc ends =>
      by_cases same : c = h
      · subst same
        simpa [Sys.switchBack, Sys.endClosure] using
          Turn.ended (by cases ends <;> rfl) at_pc ends
      · simpa [Sys.switchBack, Sys.endClosure, Function.update_of_ne same] using Turn.same
  | resumed at_pc =>
      apply update
      rintro rfl
      exact .resumed rfl at_pc
  | finished at_pc =>
      apply update
      rintro rfl
      exact .finished rfl at_pc
  | freed at_pc =>
      apply update
      rintro rfl
      exact .freed rfl at_pc

/-- A step of another thread leaves everything of this one but the phases of its
registrations. -/
theorem Effect.others {s s' : Sys P} {place place' : Placing P} {a : Act P}
    (effect : Effect s place a s' place') {q : P} (other : a.actor ≠ some q) :
    ∃ l, s'.threads q = { s.threads q with eventLoop := l } := by
  have update {p : P} {t : Thread} (actor : a.actor = some p) :
      ∃ l, Function.update s.threads p t q = { s.threads q with eventLoop := l } := by
    have apart : q ≠ p := by
      rintro rfl
      exact other actor
    exact ⟨_, by rw [Function.update_of_ne apart]⟩
  cases effect with
  | full => exact ⟨_, rfl⟩
  | setHolds => exact ⟨_, rfl⟩
  | quiet quiet => cases quiet <;> exact update rfl
  | spawnOut at_pc =>
      rcases at_pc with ⟨rfl, -⟩ | ⟨rfl, -⟩ <;>
        simpa [Sys.boxSpawned] using update rfl
  | spawnIn at_pc =>
      rcases at_pc with ⟨rfl, -⟩ | ⟨rfl, -⟩ <;>
        simpa [Sys.boxSpawned, Sys.switchBack] using update rfl
  | yield _ yields => cases yields <;> exact update rfl
  | ended _ ends => cases ends <;> exact update rfl
  | fetchAdd | inserted | registered | polled | handled | deregistered | pushed | popped | drained
  | resumed | took | left | finished | freed => exact update rfl

/-! ## Every step is one of these -/

section OfStep

variable {s s' : Sys P} {place : Placing P} {p : P}

theorem yieldWith_eq (regs : Registers s) {h : CoroutineRefMut} {pt : Point}
    (at_exec : (s.threads p).pc = .exec h pt) (k : Context P) (stay : Point) :
    s.yieldWith p h k.result k stay = s.switchBack p h k := by
  have here := regs.executing at_exec
  simp [Sys.yieldWith, here.1, Sys.switchBack]

theorem spawnOpts_out (idle : (s.threads p).curRunning = none) :
    s.spawnOpts p none = (s.boxSpawned p).setPc p .user := by
  have idle' : ((s.boxSpawned p).threads p).curRunning = none := by
    simpa [Sys.boxSpawned] using idle
  simp [Sys.spawnOpts, Sys.yieldFrom, idle']

theorem spawnOpts_in (regs : Registers s) {h : CoroutineRefMut} {pt : Point}
    (at_exec : (s.threads p).pc = .exec h pt) :
    s.spawnOpts p (some h) = (s.boxSpawned p).switchBack p h .spawnOpts := by
  have here := regs.executing at_exec
  have here' : ((s.boxSpawned p).threads p).curRunning = some h := by
    simpa [Sys.boxSpawned] using here.1
  simp [Sys.spawnOpts, Sys.yieldFrom, Sys.yieldWith, here', Sys.switchBack, Context.result]

omit [DecidableEq P] in
theorem idle_of_pc (regs : Registers s)
    (at_pc : (s.threads p).pc = .user ∨ (s.threads p).pc = .userSpawn) :
    (s.threads p).curRunning = none := by
  have here := regs p
  rcases at_pc with at_pc | at_pc <;> simp only [Thread.Registers, at_pc] at here <;> exact here.1

theorem effect_ended (regs : Registers s) {h : CoroutineRefMut} (place : Placing P) {a : Act P}
    {k : Context P} (at_exec : (s.threads p).pc = .exec h .user) (ends : Ends p a k)
    (closed : List Fd) (stay : Point) :
    Effect s place a (({ s with closed := closed }.endClosure h).yieldWith p h k.result k stay)
      place := by
  have same : ({ s with closed := closed }.endClosure h).yieldWith p h k.result k stay =
      ({ s with closed := closed }.endClosure h).switchBack p h k :=
    yieldWith_eq (s := { s with closed := closed }.endClosure h) regs at_exec k stay
  rw [same]
  exact .ended at_exec ends

theorem effect_tau (regs : Registers s) (inv : Placed s place) (taken : s.tau p = some s') :
    ∃ place', Effect s place (.tau p) s' place' := by
  cases at_pc : (s.threads p).pc with
  | user | userSpawn | runOnce | done | failed | crashed => simp [Sys.tau, at_pc] at taken
  | pop =>
      simp only [Sys.tau, at_pc, Option.some.injEq] at taken
      subst taken
      unfold Sys.popQueue
      split
      · rename_i c q popped
        exact ⟨_, .popped at_pc popped⟩
      · rename_i none
        exact ⟨_, .quiet (.empty at_pc (BoundedQueue.pop_none.1 none))⟩
  | empty =>
      simp only [Sys.tau, at_pc, Option.some.injEq] at taken
      subst taken
      split
      · rename_i some_entry
        exact ⟨_, .quiet (.poll at_pc some_entry)⟩
      · rename_i no_entry
        exact ⟨_, .quiet (.count at_pc (by simpa using no_entry))⟩
  | workCount =>
      simp only [Sys.tau, at_pc, Option.some.injEq] at taken
      subst taken
      split
      · rename_i zero
        exact ⟨_, .quiet (.stop at_pc zero)⟩
      · rename_i nonzero
        exact ⟨_, .quiet (.sleep at_pc nonzero)⟩
  | handle tokens =>
      cases tokens with
      | nil =>
          simp only [Sys.tau, at_pc, Option.some.injEq] at taken
          subst taken
          exact ⟨_, .quiet (.polled at_pc)⟩
      | cons token rest =>
          simp only [Sys.tau, at_pc, Option.some.injEq] at taken
          subst taken
          -- the batch holds only tokens of coroutines that wait, so the entry is there
          obtain ⟨c, waits⟩ := (inv.io p).batch token (by simp [at_pc, Pc.batch])
          obtain ⟨fd, r, entry, -⟩ := (inv.io p).entry c token (.inl waits)
          cases removed : (s.threads p).slabs.remove token with
          | none =>
              rw [Slab.remove_none, entry] at removed
              cases removed
          | some found =>
              obtain ⟨⟨c', fd'⟩, slabs⟩ := found
              have same := (Slab.remove_some removed).1
              rw [entry, Option.some.injEq, Prod.mk.injEq] at same
              obtain ⟨rfl, rfl⟩ := same
              refine ⟨Function.update place c (.hand p), ?_⟩
              simp only [Sys.handleEvent, removed]
              exact .handled at_pc removed waits
  | deregister c fd rest =>
      simp only [Sys.tau, at_pc, Option.some.injEq] at taken
      subst taken
      obtain ⟨r, found, -⟩ := (inv.io p).removing c fd rest at_pc
      cases removed : (s.threads p).eventLoop.deregister fd with
      | none => simp [EventLoop.deregister, found] at removed
      | some l =>
          refine ⟨place, ?_⟩
          simp only [Sys.deregister, removed]
          exact .deregistered at_pc removed
  | wake c rest =>
      simp only [Sys.tau, at_pc, Option.some.injEq] at taken
      subst taken
      have pushing : (s.threads p).pc.pushing = some c := by rw [at_pc]; rfl
      have goes : Pc.handle rest = (s.threads p).pc.pushed := by rw [at_pc]; rfl
      unfold Sys.ready
      split
      · rename_i q pushed
        rw [goes]
        exact ⟨_, .pushed pushing pushed⟩
      · rename_i full
        exact ⟨_, .full pushing full⟩
  | requeue c =>
      simp only [Sys.tau, at_pc, Option.some.injEq] at taken
      subst taken
      have pushing : (s.threads p).pc.pushing = some c := by rw [at_pc]; rfl
      have goes : Pc.drain = (s.threads p).pc.pushed := by rw [at_pc]; rfl
      unfold Sys.ready
      split
      · rename_i q pushed
        rw [goes]
        exact ⟨_, .pushed pushing pushed⟩
      · rename_i full
        exact ⟨_, .full pushing full⟩
  | drain =>
      simp only [Sys.tau, at_pc, Option.some.injEq] at taken
      subst taken
      unfold Sys.drain
      split
      · rename_i c filled
        exact ⟨_, .drained at_pc filled⟩
      · rename_i vacant
        exact ⟨_, .quiet (.drained at_pc vacant)⟩
  | runTask c =>
      simp only [Sys.tau, at_pc, Option.some.injEq] at taken
      subst taken
      have life := inv.hand_life (c := c) (p := p) (by rw [at_pc]; rfl)
      simp only [Thread.HandLife, at_pc] at life
      obtain ⟨k, saved, live, -⟩ := life
      have user : k.point = .user := Context.live_point live
      refine ⟨place, ?_⟩
      simp only [Sys.resume, saved, user]
      exact .resumed at_pc saved live
  | exec h pt =>
      cases pt with
      | user | spawnOpts | inserted => simp [Sys.tau, at_pc] at taken
      | registered token =>
          simp only [Sys.tau, at_pc, Option.some.injEq] at taken
          subst taken
          refine ⟨place, ?_⟩
          rw [show (Except.ok State.blocked : Result) = (Context.waitEvent p token).result from rfl,
            yieldWith_eq regs at_pc]
          exact .yield at_pc .waitEvent
      | exiting st =>
          have life := inv.hand_life (c := h) (p := p) (by rw [at_pc]; rfl)
          simp only [Thread.HandLife, at_pc] at life
          exact absurd rfl (life.2.2.2 st)
  | back c =>
      simp only [Sys.tau, at_pc, Option.some.injEq] at taken
      subst taken
      have life := inv.hand_life (c := c) (p := p) (by rw [at_pc]; rfl)
      simp only [Thread.HandLife, at_pc] at life
      obtain ⟨k, saved, -, -, result⟩ := life
      simp only [Sys.resumed, result, Option.getD_some]
      cases k with
      | block => exact ⟨_, .left at_pc saved (.inl ⟨rfl, rfl⟩)⟩
      | waitEvent q token =>
          obtain rfl := (inv.io p).here c q token at_pc saved
          exact ⟨_, .left at_pc saved (.inr ⟨token, rfl, rfl⟩)⟩
      | coroutineInitialize | spawnOpts | sched =>
          exact ⟨_, .took at_pc saved (by simp [Context.result])⟩
      | exited st => exact ⟨_, .took at_pc saved (by cases st <;> simp [Context.result])⟩
  | finish c =>
      simp only [Sys.tau, at_pc, Option.some.injEq] at taken
      subst taken
      exact ⟨_, .finished at_pc⟩
  | free c =>
      simp only [Sys.tau, at_pc, Option.some.injEq] at taken
      subst taken
      have life := inv.hand_life (c := c) (p := p) (by rw [at_pc]; rfl)
      simp only [Thread.HandLife, at_pc] at life
      obtain ⟨⟨st, saved⟩, -⟩ := life
      refine ⟨Function.update place c .freed, ?_⟩
      simp only [Sys.dropBox, saved]
      exact .freed at_pc saved

theorem caller_cases {caller : Option CoroutineRefMut} {pc : Pc} (called : pc.caller = some caller) :
    pc = .user ∧ caller = none ∨ ∃ h, pc = .exec h .user ∧ caller = some h := by
  unfold Pc.caller at called
  split at called
  · exact .inl ⟨rfl, by simpa using called.symm⟩
  · rename_i h
    exact .inr ⟨h, rfl, by simpa using called.symm⟩
  · cases called

/-- A yield of a closure, or of a thread outside `schedule`, where it does
nothing. -/
theorem effect_yield (regs : Registers s) (place : Placing P) {a : Act P} {k : Context P}
    {caller : Option CoroutineRefMut} (called : (s.threads p).pc.caller = some caller)
    (inside : Yields p .user a k) (outside : (s.threads p).pc = .user → Quiet s p a .user) :
    Effect s place a (s.yieldFrom p caller k.result k) place := by
  rcases caller_cases called with ⟨at_pc, rfl⟩ | ⟨h, at_pc, rfl⟩
  · simp only [Sys.yieldFrom, idle_of_pc regs (.inl at_pc)]
    exact .quiet (outside at_pc)
  · simp only [Sys.yieldFrom]
    rw [yieldWith_eq regs at_pc]
    exact .yield at_pc inside

theorem effect_of_step (regs : Registers s) (inv : Placed s place) {a : Act P}
    (taken : step s a = some s') : ∃ place', Effect s place a s' place' := by
  cases a with
  | spawn p =>
      simp only [step] at taken
      split at taken <;> try contradiction
      · rename_i at_pc
        simp only [Option.some.injEq] at taken
        subst taken
        exact ⟨_, .fetchAdd (.inl ⟨at_pc, rfl⟩)⟩
      · rename_i h at_pc
        simp only [Option.some.injEq] at taken
        subst taken
        exact ⟨_, .fetchAdd (.inr ⟨h, at_pc, rfl⟩)⟩
  | spawnInner p =>
      simp only [step] at taken
      split at taken <;> try contradiction
      · rename_i at_pc
        simp only [Option.some.injEq] at taken
        subst taken
        rw [spawnOpts_out (idle_of_pc regs (.inr at_pc))]
        exact ⟨_, .spawnOut (.inl ⟨rfl, at_pc⟩)⟩
      · rename_i h at_pc
        simp only [Option.some.injEq] at taken
        subst taken
        rw [spawnOpts_in regs at_pc]
        exact ⟨_, .spawnIn (.inl ⟨rfl, at_pc⟩)⟩
  | processorSpawn p =>
      obtain ⟨caller, called, rfl⟩ := Option.map_eq_some_iff.mp taken
      rcases caller_cases called with ⟨at_pc, rfl⟩ | ⟨h, at_pc, rfl⟩
      · rw [spawnOpts_out (idle_of_pc regs (.inl at_pc))]
        exact ⟨_, .spawnOut (.inr ⟨rfl, at_pc⟩)⟩
      · rw [spawnOpts_in regs at_pc]
        exact ⟨_, .spawnIn (.inr ⟨rfl, at_pc⟩)⟩
  | sched p =>
      obtain ⟨caller, called, rfl⟩ := Option.map_eq_some_iff.mp taken
      exact ⟨_, effect_yield regs place called .sched .sched⟩
  | block p =>
      obtain ⟨caller, called, rfl⟩ := Option.map_eq_some_iff.mp taken
      exact ⟨_, effect_yield regs place called .block .block⟩
  | waitEvent p fd interest token =>
      simp only [step] at taken
      split at taken <;> try contradiction
      rename_i h at_pc
      have here := regs.executing at_pc
      simp only [Sys.insertWaiter, here.1] at taken
      split at taken
      · simp only [Option.some.injEq] at taken
        subst taken
        exact ⟨_, effect_ended regs place at_pc .slabFull _ _⟩
      · obtain ⟨slabs, inserted, rfl⟩ := Option.map_eq_some_iff.mp taken
        rw [← here.1]
        exact ⟨_, .inserted at_pc inserted⟩
  | register p ok =>
      simp only [step] at taken
      split at taken <;> try contradiction
      rename_i h token fd interest at_pc
      unfold Sys.register at taken
      split at taken
      · rename_i accepted
        obtain ⟨l, registered, rfl⟩ := Option.map_eq_some_iff.mp taken
        rw [accepted]
        exact ⟨_, .registered at_pc registered⟩
      · rename_i refused
        simp only [Option.some.injEq] at taken
        subst taken
        rw [Bool.not_eq_true] at refused
        rw [refused]
        exact ⟨_, .quiet (.refused at_pc)⟩
  | ret p =>
      simp only [step] at taken
      split at taken <;> try contradiction
      rename_i h at_pc
      simp only [Option.some.injEq] at taken
      subst taken
      exact ⟨_, effect_ended regs place at_pc .ret s.closed _⟩
  | panic p =>
      simp only [step] at taken
      split at taken <;> try contradiction
      rename_i h at_pc
      simp only [Option.some.injEq] at taken
      subst taken
      exact ⟨_, effect_ended regs place at_pc .panic s.closed _⟩
  | enter p =>
      simp only [step, Option.ite_none_right_eq_some, Option.some.injEq] at taken
      obtain ⟨at_pc, rfl⟩ := taken
      exact ⟨_, .quiet (.enter at_pc)⟩
  | leave p =>
      simp only [step, Option.ite_none_right_eq_some, Option.some.injEq] at taken
      obtain ⟨at_pc, rfl⟩ := taken
      exact ⟨_, .quiet (.leave at_pc)⟩
  | poll p fds =>
      simp only [step, Option.ite_none_right_eq_some] at taken
      obtain ⟨at_pc, mapped⟩ := taken
      obtain ⟨⟨l, tokens⟩, polled, rfl⟩ := Option.map_eq_some_iff.mp mapped
      exact ⟨_, .polled at_pc polled⟩
  | pollErr p =>
      simp only [step, Option.ite_none_right_eq_some, Option.some.injEq] at taken
      obtain ⟨at_pc, rfl⟩ := taken
      exact ⟨_, .quiet (.pollErr at_pc)⟩
  | setHolds fd interest b =>
      simp only [step, Option.some.injEq] at taken
      subst taken
      exact ⟨_, .setHolds⟩
  | tau p => exact effect_tau regs inv taken

end OfStep

end SimpleSched.Runtime
