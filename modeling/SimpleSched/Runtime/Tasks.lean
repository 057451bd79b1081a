/-
# Runtime.Tasks -- the runtime is a scheduler of tasks

Seen from outside, `Theory.Tasks` is what the repository is for: coroutines are its
tasks, threads its processors, slab tokens its keys.  `label` says which steps of the
runtime are steps of that scheduler; the others (queueing, polling, counting, freeing)
are not seen.  In every run, of any programs on any threads, the labels are a run of it
(`runtime_refines_tasks`).  Coroutines that cannot be resumed any more because their slot
was overwritten are runnable there as well: it does not promise that what is runnable
runs.
-/
import SimpleSched.Theory.Tasks
import SimpleSched.Runtime.Wakeup

namespace SimpleSched.Runtime

set_option autoImplicit false

open Mio Theory

variable {P : Type}

/-! ## What is seen of a state and of a step -/

def Context.shows : Context P → Status P Token
  | .coroutineInitialize | .spawnOpts | .sched => .runnable
  | .block => .parked
  | .waitEvent p token => .waiting p token
  | .exited _ => .ended

/-- A coroutine that `p` has a handle to is running, or has given that up. -/
def Thread.shows (t : Thread) (p : P) (x : Coroutine P) : Status P Token :=
  match t.pc with
  | .exec _ _ => .running p
  | .back _ =>
    match x.cell with
    | .saved k => k.shows
    | _ => .runnable
  | .finish _ | .free _ => .ended
  | _ => .runnable

def Sys.shows (s : Sys P) (place : Placing P) (c : CoroutineRefMut) : Status P Token :=
  match place c with
  | .unborn => .unborn
  | .slot _ | .queue | .lost => .runnable
  | .hand p => (s.threads p).shows p (s.coros c)
  | .wait p token => .waiting p token
  | .parked => .parked
  | .freed => .ended

def label (s : Sys P) : Act P → Option (Label CoroutineRefMut P Token)
  | .spawnInner p | .processorSpawn p => some (.spawn p (s.threads p).pc.hand s.next)
  | .sched p => (s.threads p).pc.hand.map (.yield p)
  | .block p => (s.threads p).pc.hand.map (.park p)
  | .waitEvent p _ _ _ =>
    if (s.threads p).slabs.count = MAX_TOKEN_NUM then (s.threads p).pc.hand.map (.finish p) else none
  | .ret p | .panic p => (s.threads p).pc.hand.map (.finish p)
  | .tau p =>
    match (s.threads p).pc with
    | .exec h (.registered token) => some (.wait p h token)
    | .runTask c => some (.run p c)
    | .handle (token :: _) => ((s.threads p).slabs.lookup token).map fun entry => .wake p token entry.1
    | _ => none
  | _ => none

variable [DecidableEq P] {s s' : Sys P} {place place' : Placing P} {a : Act P} {p : P}
  {c : CoroutineRefMut}

/-! ## What a step leaves -/

/-- What moves no coroutine and is not done to it by the thread that has it. -/
theorem Effect.shows_same (inv : Placed s place) (effect : Effect s place a s' place')
    (stays : place' c = place c) (other : ∀ q, a.actor = some q → place c ≠ .hand q) :
    s'.shows place' c = s.shows place c := by
  unfold Sys.shows
  rw [stays]
  cases at_c : place c with
  | hand q =>
      have apart : a.actor ≠ some q := fun mine => other q mine at_c
      obtain ⟨l, same⟩ := effect.others apart
      have kept := effect.held_elsewhere inv ((inv.hand q c).2 at_c) apart
      simp only [same, kept]
      rfl
  | _ => rfl

omit [DecidableEq P] in
theorem Placed.no_hand (inv : Placed s place) (empty : (s.threads p).pc.hand = none)
    (c : CoroutineRefMut) : place c ≠ .hand p := by
  intro at_c
  have := (inv.hand p c).2 at_c
  simp [empty] at this

omit [DecidableEq P] in
theorem Placed.only_hand (inv : Placed s place) {d : CoroutineRefMut}
    (held : (s.threads p).pc.hand = some d) (other : c ≠ d) : place c ≠ .hand p := by
  intro at_c
  have := (inv.hand p c).2 at_c
  rw [held, Option.some.injEq] at this
  exact other this.symm

/-- A step of `p` that concerns the coroutine `d` only. -/
theorem Effect.shows_update (inv : Placed s place) (effect : Effect s place a s' place')
    (actor : a.actor = some p) {d : CoroutineRefMut}
    (hand : (s.threads p).pc.hand = none ∨ (s.threads p).pc.hand = some d)
    (stays : ∀ c, c ≠ d → place' c = place c) :
    s'.shows place' = Function.update (s.shows place) d (s'.shows place' d) := by
  funext c
  by_cases same : c = d
  · subst same; simp
  · rw [Function.update_of_ne same]
    refine effect.shows_same inv (stays c same) ?_
    intro q mine
    obtain rfl : p = q := Option.some.inj (actor.symm.trans mine)
    rcases hand with empty | held
    · exact inv.no_hand empty c
    · exact inv.only_hand held same

/-- A step of `p` that concerns the coroutine `d`, and of which nothing is seen. -/
theorem Effect.shows_silent (inv : Placed s place) (effect : Effect s place a s' place')
    (actor : a.actor = some p) {d : CoroutineRefMut}
    (hand : (s.threads p).pc.hand = none ∨ (s.threads p).pc.hand = some d)
    (stays : ∀ c, c ≠ d → place' c = place c) (same : s'.shows place' d = s.shows place d) :
    s'.shows place' = s.shows place := by
  rw [effect.shows_update inv actor hand stays, same, Function.update_eq_self]

/-- A step of a thread that has no coroutine and takes none. -/
theorem Effect.shows_idle (inv : Placed s place) (effect : Effect s place a s' place)
    (empty : ∀ q, a.actor = some q → (s.threads q).pc.hand = none) :
    s'.shows place = s.shows place := by
  funext c
  exact effect.shows_same inv rfl fun q mine => inv.no_hand (empty q mine) c

/-! ## Spawning -/

/-- A coroutine whose slot is overwritten stays as it was for the others. -/
theorem Placed.shows_spawn (inv : Placed s place) (effect : Effect s place a s' (place.spawn s p))
    (actor : a.actor = some p) {c : CoroutineRefMut} (old : c ≠ s.next) (away : place c ≠ .hand p) :
    s'.shows (place.spawn s p) c = s.shows place c := by
  have stays (kept : place.spawn s p c = place c) :
      s'.shows (place.spawn s p) c = s.shows place c := by
    refine effect.shows_same inv kept fun q mine => ?_
    obtain rfl : p = q := Option.some.inj (actor.symm.trans mine)
    exact away
  cases filled : (s.threads p).newSpawned with
  | none => exact stays (by simp [Placing.spawn, filled, Function.update_of_ne old])
  | some d =>
      by_cases same : c = d
      · subst same
        have at_slot := (inv.slot p c).1 filled
        simp [Sys.shows, Placing.spawn, filled, Function.update_of_ne old, at_slot]
      · exact stays (by simp [Placing.spawn, filled, Function.update_of_ne old,
          Function.update_of_ne same])

omit [DecidableEq P] in
theorem Placing.spawn_next : place.spawn s p s.next = .slot p := by
  cases filled : (s.threads p).newSpawned <;> simp [Placing.spawn, filled]

omit [DecidableEq P] in
theorem Placing.spawn_hand (inv : Placed s place) (held : place c = .hand p) :
    place.spawn s p c = .hand p := by
  have born : c ≠ s.next := Nat.ne_of_lt (inv.born (by simp [held]))
  cases filled : (s.threads p).newSpawned with
  | none => simp [Placing.spawn, filled, Function.update_of_ne born, held]
  | some d =>
      have other : c ≠ d := by
        rintro rfl
        rw [(inv.slot p c).1 filled] at held
        cases held
      simp [Placing.spawn, filled, Function.update_of_ne born, Function.update_of_ne other, held]

/-! ## What the statuses say -/

omit [DecidableEq P] in
theorem shows_running (inv : Placed s place) :
    s.shows place c = .running p ↔ ∃ pt, (s.threads p).pc = .exec c pt := by
  constructor
  · intro shows
    unfold Sys.shows at shows
    split at shows <;> try contradiction
    rename_i q at_q
    have held := (inv.hand q c).2 at_q
    unfold Thread.shows at shows
    split at shows <;> try contradiction
    · rename_i d pt at_exec
      obtain rfl : q = p := by simpa using shows
      obtain rfl : d = c := by simpa [at_exec, Pc.hand] using held
      exact ⟨pt, at_exec⟩
    · split at shows <;> try contradiction
      rename_i k saved
      cases k <;> cases shows
  · rintro ⟨pt, at_exec⟩
    have at_c : place c = .hand p := inv.at_hand (by rw [at_exec]; rfl)
    simp [Sys.shows, at_c, Thread.shows, at_exec]

omit [DecidableEq P] in
theorem shows_waiting (inv : Placed s place) {token : Token}
    (shows : s.shows place c = .waiting p token) : place c = .wait p token ∨
      (s.threads p).pc = .back c ∧ (s.coros c).cell = .saved (.waitEvent p token) := by
  unfold Sys.shows at shows
  split at shows <;> try contradiction
  · rename_i q at_q
    have held := (inv.hand q c).2 at_q
    unfold Thread.shows at shows
    split at shows <;> try contradiction
    rename_i d at_back
    obtain rfl : d = c := by simpa [at_back, Pc.hand] using held
    split at shows <;> try contradiction
    rename_i k saved
    cases k <;> simp only [Context.shows, reduceCtorEq, Status.waiting.injEq] at shows
    obtain ⟨rfl, rfl⟩ := shows
    -- a wait is on the thread that is back from it
    obtain rfl := (inv.io q).here _ _ _ at_back saved
    exact .inr ⟨at_back, saved⟩
  · rename_i q token' at_c
    simp only [Status.waiting.injEq] at shows
    obtain ⟨rfl, rfl⟩ := shows
    exact .inl at_c

omit [DecidableEq P] in
theorem shows_parked (inv : Placed s place) (shows : s.shows place c = .parked) :
    place c = .parked ∨ ∃ p, (s.threads p).pc = .back c ∧ (s.coros c).cell = .saved .block := by
  unfold Sys.shows at shows
  split at shows <;> try contradiction
  · rename_i q at_q
    have held := (inv.hand q c).2 at_q
    unfold Thread.shows at shows
    split at shows <;> try contradiction
    rename_i d at_back
    obtain rfl : d = c := by simpa [at_back, Pc.hand] using held
    split at shows <;> try contradiction
    rename_i k saved
    cases k <;> cases shows
    exact .inr ⟨q, at_back, saved⟩
  · rename_i at_c
    exact .inl at_c

omit [DecidableEq P] in
theorem shows_unborn (inv : Placed s place) : s.shows place c = .unborn ↔ s.next ≤ c := by
  rw [← inv.unborn c]
  constructor
  · intro shows
    unfold Sys.shows at shows
    split at shows <;> try contradiction
    · assumption
    · unfold Thread.shows at shows
      split at shows <;> try contradiction
      split at shows <;> try contradiction
      rename_i k saved
      cases k <;> cases shows
  · intro at_c
    simp [Sys.shows, at_c]

omit [DecidableEq P] in
theorem shows_ended (inv : Placed s place) : s.shows place c = .ended ↔ (s.coros c).ended = 1 := by
  have life := inv.life c
  cases at_c : place c with
  | unborn | slot q | lost =>
      rw [at_c] at life
      have fresh : s.coros c = _ := life
      simp [Sys.shows, at_c, fresh, Coroutine.unborn, Coroutine.spawned]
  | queue =>
      rw [at_c] at life
      obtain ⟨k, -, -, -, past⟩ := life
      simp [Sys.shows, at_c, past.ended]
  | wait q token | parked | freed =>
      rw [at_c] at life
      simp [Sys.shows, at_c, life.2.2.ended]
  | hand q =>
      have held := (inv.hand q c).2 at_c
      rw [at_c] at life
      simp only [Life] at life
      cases at_pc : (s.threads q).pc <;>
        simp only [at_pc, Pc.hand, Option.some.injEq, reduceCtorEq] at held
      all_goals
        subst held
        simp only [Thread.HandLife, at_pc] at life
      case finish | free => simp [Sys.shows, at_c, Thread.shows, at_pc, life.2.2.ended]
      case exec => simp [Sys.shows, at_c, Thread.shows, at_pc, life.2.2.1.ended]
      case runTask =>
        obtain ⟨k, -, -, past⟩ := life
        simp [Sys.shows, at_c, Thread.shows, at_pc, past.ended]
      case back =>
        obtain ⟨k, saved, -, past, -⟩ := life
        simp only [Sys.shows, at_c, Thread.shows, at_pc, saved, past.ended]
        cases k <;> simp [Context.shows, Context.live]
      all_goals
        obtain ⟨k, -, -, -, past⟩ := life
        simp [Sys.shows, at_c, Thread.shows, at_pc, past.ended]

/-! ## Every step -/

section Seen

variable {t : Tasks CoroutineRefMut P Token}

/-- What is seen of the step leads the task scheduler from `t` to what is seen after it. -/
def Seen (t : Tasks CoroutineRefMut P Token) (s : Sys P) (a : Act P) (s' : Sys P)
    (place' : Placing P) : Prop :=
  ∃ t', (Tasks.system CoroutineRefMut P Token).exec t (label s a).toList = some t' ∧
    t'.status = s'.shows place'

/-- Nothing is seen of the step. -/
theorem seen_silent (status : t.status = s.shows place) (silent : label s a = none)
    (same : s'.shows place' = s.shows place) : Seen t s a s' place' :=
  ⟨t, by rw [silent]; rfl, by rw [status, same]⟩

/-- The step is one of the task scheduler. -/
theorem seen_step {l : Label CoroutineRefMut P Token} {next : CoroutineRefMut → Status P Token}
    (visible : label s a = some l) (goes : ∃ t', t.step l = some t' ∧ t'.status = next)
    (same : s'.shows place' = next) : Seen t s a s' place' := by
  obtain ⟨t', taken, status⟩ := goes
  refine ⟨t', ?_, status.trans same.symm⟩
  rw [visible, Option.toList_some, Lts.exec_singleton]
  exact taken

omit [DecidableEq P] in
theorem waits_nobody (inv : Placed s place) (status : t.status = s.shows place) {token : Token}
    (at_exec : (s.threads p).pc = .exec c (.registered token)) : t.waiter p token = none := by
  rw [Option.eq_none_iff_forall_ne_some]
  intro d waits
  have at_d := (t.waits p token d).1 waits
  rw [status] at at_d
  -- both would have the slab entry of the token
  obtain ⟨fd, r, mine, -⟩ := (inv.io p).entry c token (.inr (.inl at_exec))
  rcases shows_waiting inv at_d with at_place | ⟨at_back, -⟩
  · obtain ⟨fd', r', entry, -⟩ := (inv.io p).entry d token (.inl at_place)
    rw [mine, Option.some.injEq, Prod.mk.injEq] at entry
    obtain ⟨rfl, -⟩ := entry
    have held := inv.at_hand (p := p) (c := c) (by rw [at_exec]; rfl)
    simp [at_place] at held
  · simp [at_exec] at at_back

/-- A closure ends: on a full slab only, if it calls `wait_event`. -/
theorem label_ended {k : Context P} (at_exec : (s.threads p).pc = .exec c .user) (ends : Ends p a k)
    (taken : step s a = some s') (back : (s'.threads p).pc = .back c) :
    label s a = some (.finish p c) := by
  cases ends with
  | ret | panic => simp [label, at_exec, Pc.hand]
  | slabFull =>
      have full : (s.threads p).slabs.count = MAX_TOKEN_NUM := by
        by_contra room
        simp only [Runtime.step, at_exec, Sys.insertWaiter] at taken
        split at taken
        · cases taken
          simp_all [Sys.panic, Sys.yieldWith, Sys.endClosure]
        · rw [if_neg room] at taken
          obtain ⟨slabs, -, rfl⟩ := Option.map_eq_some_iff.mp taken
          simp at back
      simp [label, full, at_exec, Pc.hand]

omit [DecidableEq P] in
/-- What a thread is pushing is runnable, and that it pushes is not seen. -/
theorem shows_pushing (pushing : (s.threads p).pc.pushing = some c) (x : Coroutine P) :
    label s (.tau p) = none ∧ (s.threads p).shows p x = .runnable := by
  cases at_pc : (s.threads p).pc with
  | wake d tokens | requeue d => simp [label, Thread.shows, at_pc]
  | _ => simp [at_pc, Pc.pushing] at pushing

omit [DecidableEq P] in
/-- A thread that changes nothing but its place in the code shows nothing, and has no
coroutine, or one that goes on after a registration was refused. -/
theorem Quiet.label {pc : Pc} (quiet : Quiet s p a pc) : Runtime.label s a = none ∧
    a.actor = some p ∧ ((s.threads p).pc.hand = none ∨
      ∃ h token fd interest, (s.threads p).pc = .exec h (.inserted token fd interest) ∧
        pc = .exec h .user) := by
  cases quiet with
  | refused at_pc => exact ⟨rfl, rfl, .inr ⟨_, _, _, _, at_pc, rfl⟩⟩
  | leave at_pc => rcases at_pc with at_pc | at_pc <;> simp [Runtime.label, Act.actor, at_pc, Pc.hand]
  | enter at_pc | sched at_pc | block at_pc | empty at_pc | poll at_pc | count at_pc | stop at_pc
  | sleep at_pc | polled at_pc | drained at_pc | pollErr at_pc =>
      simp [Runtime.label, Act.actor, at_pc, Pc.hand]

omit [DecidableEq P] in
theorem status_executing (inv : Placed s place) (status : t.status = s.shows place) {pt : Point}
    (at_exec : (s.threads p).pc = .exec c pt) : t.status c = .running p := by
  rw [status]
  exact (shows_running inv).2 ⟨pt, at_exec⟩

omit [DecidableEq P] in
theorem current_none (inv : Placed s place) (status : t.status = s.shows place)
    (no_exec : ∀ c pt, (s.threads p).pc ≠ .exec c pt) : t.current p = none := by
  rw [Option.eq_none_iff_forall_ne_some]
  intro c runs
  obtain ⟨pt, at_exec⟩ := (shows_running inv).1 (status ▸ (t.runs p c).1 runs)
  exact no_exec c pt at_exec

omit [DecidableEq P] in
theorem status_next (inv : Placed s place) (status : t.status = s.shows place) :
    t.status s.next = .unborn := by
  rw [status]
  exact (shows_unborn inv).2 (Nat.le_refl _)

/-- A step of the thread that has a coroutine, of which nothing is seen. -/
theorem Effect.seen_held (inv : Placed s place) (effect : Effect s place a s' place')
    (status : t.status = s.shows place) (actor : a.actor = some p)
    (held : (s.threads p).pc.hand = some c) (silent : label s a = none)
    (stays : ∀ d, d ≠ c → place' d = place d)
    (same : s'.shows place' c = (s.threads p).shows p (s.coros c)) : Seen t s a s' place' := by
  refine seen_silent status silent (effect.shows_silent inv actor (.inr held) stays ?_)
  rw [same]
  simp [Sys.shows, inv.at_hand held]

/-- A thread that has no coroutine takes a runnable one. -/
theorem Effect.seen_taken (inv : Placed s place) (effect : Effect s place a s' place')
    (status : t.status = s.shows place) (actor : a.actor = some p)
    (empty : (s.threads p).pc.hand = none) (silent : label s a = none)
    (stays : ∀ d, d ≠ c → place' d = place d) (ready : s.shows place c = .runnable)
    (same : s'.shows place' c = .runnable) : Seen t s a s' place' :=
  seen_silent status silent
    (effect.shows_silent inv actor (.inl empty) stays (same.trans ready.symm))

/-- A coroutine is boxed outside any other. -/
theorem Effect.seen_spawnOut (inv : Placed s place)
    (effect : Effect s place a ((s.boxSpawned p).setPc p .user) (place.spawn s p))
    (status : t.status = s.shows place)
    (from_pc : a = .spawnInner p ∧ (s.threads p).pc = .userSpawn ∨
      a = .processorSpawn p ∧ (s.threads p).pc = .user) :
    Seen t s a ((s.boxSpawned p).setPc p .user) (place.spawn s p) := by
  obtain ⟨actor, empty, visible, no_exec⟩ : a.actor = some p ∧ (s.threads p).pc.hand = none ∧
      label s a = some (.spawn p none s.next) ∧ ∀ c pt, (s.threads p).pc ≠ .exec c pt := by
    rcases from_pc with ⟨rfl, at_pc⟩ | ⟨rfl, at_pc⟩ <;> simp [Act.actor, at_pc, Pc.hand, label]
  refine seen_step visible
    (Tasks.step_born (current_none inv status no_exec) (status_next inv status)) ?_
  funext c
  by_cases same : c = s.next
  · subst same
    simp [Sys.shows, Placing.spawn_next]
  · rw [Function.update_of_ne same, status]
    exact inv.shows_spawn effect actor same (inv.no_hand empty c)

/-- A coroutine is boxed by another, which yields to it. -/
theorem Effect.seen_spawnIn (inv : Placed s place) {h : CoroutineRefMut}
    (effect : Effect s place a ((s.boxSpawned p).switchBack p h .spawnOpts) (place.spawn s p))
    (status : t.status = s.shows place)
    (from_pc : a = .spawnInner p ∧ (s.threads p).pc = .exec h .spawnOpts ∨
      a = .processorSpawn p ∧ (s.threads p).pc = .exec h .user) :
    Seen t s a ((s.boxSpawned p).switchBack p h .spawnOpts) (place.spawn s p) := by
  obtain ⟨actor, ⟨pt, at_pc⟩, visible⟩ : a.actor = some p ∧ (∃ pt, (s.threads p).pc = .exec h pt) ∧
      label s a = some (.spawn p (some h) s.next) := by
    rcases from_pc with ⟨rfl, at_pc⟩ | ⟨rfl, at_pc⟩ <;> simp [Act.actor, at_pc, Pc.hand, label]
  have held : (s.threads p).pc.hand = some h := by rw [at_pc]; rfl
  have at_h := inv.at_hand held
  refine seen_step visible
    (Tasks.step_spawn (status_executing inv status at_pc) (status_next inv status)) ?_
  funext c
  by_cases parent : c = h
  · subst parent
    simp [Sys.shows, Placing.spawn_hand inv at_h, Thread.shows, Sys.switchBack, Context.shows]
  · rw [Function.update_of_ne parent]
    by_cases same : c = s.next
    · subst same
      simp [Sys.shows, Placing.spawn_next]
    · rw [Function.update_of_ne same, status]
      exact inv.shows_spawn effect actor same (inv.only_hand held parent)

/-- A coroutine yields, parks itself, or waits for an event. -/
theorem Effect.seen_yield (inv : Placed s place) {h : CoroutineRefMut} {pt : Point} {k : Context P}
    (effect : Effect s place a (s.switchBack p h k) place) (status : t.status = s.shows place)
    (at_pc : (s.threads p).pc = .exec h pt) (yields : Yields p pt a k) :
    Seen t s a (s.switchBack p h k) place := by
  have held : (s.threads p).pc.hand = some h := by rw [at_pc]; rfl
  have executing := status_executing inv status at_pc
  have after : (s.switchBack p h k).shows place = Function.update t.status h k.shows := by
    rw [effect.shows_update inv (by cases yields <;> rfl) (.inr held) (fun _ _ => rfl), status]
    simp [Sys.shows, inv.at_hand held, Thread.shows, Sys.switchBack]
  cases yields with
  | sched => exact seen_step (by simp [label, held]) (Tasks.step_yield executing) after
  | block => exact seen_step (by simp [label, held]) (Tasks.step_park executing) after
  | waitEvent =>
      exact seen_step (by simp [label, at_pc])
        (Tasks.step_wait executing (waits_nobody inv status at_pc)) after

/-- A closure ends. -/
theorem Effect.seen_ended (inv : Placed s place) {h : CoroutineRefMut} {k : Context P}
    {closed : List Fd}
    (effect : Effect s place a (({ s with closed := closed }.endClosure h).switchBack p h k) place)
    (taken : Runtime.step s a = some (({ s with closed := closed }.endClosure h).switchBack p h k))
    (status : t.status = s.shows place) (at_pc : (s.threads p).pc = .exec h .user)
    (ends : Ends p a k) :
    Seen t s a (({ s with closed := closed }.endClosure h).switchBack p h k) place := by
  have held : (s.threads p).pc.hand = some h := by rw [at_pc]; rfl
  have visible := label_ended at_pc ends taken (by simp [Sys.switchBack])
  refine seen_step visible (Tasks.step_finish (status_executing inv status at_pc)) ?_
  rw [effect.shows_update inv (by cases ends <;> rfl) (.inr held) (fun _ _ => rfl), status]
  simp only [Sys.shows, inv.at_hand held, Thread.shows, Sys.switchBack]
  cases ends <;> simp [Context.shows]

/-- `IoHandler::ready` takes the coroutine that waits under a token. -/
theorem Effect.seen_wake (inv : Placed s place) {token : Token} {rest : List Token} {fd : Fd}
    {slabs : Slab (CoroutineRefMut × Fd) MAX_TOKEN_NUM}
    (effect : Effect s place (.tau p)
      (s.setThread p { s.threads p with slabs := slabs, pc := .deregister c fd rest })
      (Function.update place c (.hand p)))
    (status : t.status = s.shows place) (at_pc : (s.threads p).pc = .handle (token :: rest))
    (removed : (s.threads p).slabs.remove token = some ((c, fd), slabs))
    (waits : place c = .wait p token) :
    Seen t s (.tau p) (s.setThread p { s.threads p with slabs := slabs, pc := .deregister c fd rest })
      (Function.update place c (.hand p)) := by
  have waiting : t.status c = .waiting p token := by simp [status, Sys.shows, waits]
  have visible : label s (.tau p) = some (.wake p token c) := by
    simp [label, at_pc, (Slab.remove_some removed).1]
  refine seen_step visible (Tasks.step_wake waiting) ?_
  rw [effect.shows_update inv rfl (.inl (by simp [at_pc, Pc.hand]))
    (fun d other => Function.update_of_ne other ..), status]
  simp [Sys.shows, Thread.shows]

/-- `resume` switches to a coroutine. -/
theorem Effect.seen_run (inv : Placed s place)
    (effect : Effect s place (.tau p)
      ((s.setThread p { s.threads p with curRunning := some c, pc := .exec c .user }).setCoro c
        { s.coros c with cell := .running, resumed := (s.coros c).resumed + 1 }) place)
    (status : t.status = s.shows place) (at_pc : (s.threads p).pc = .runTask c) :
    Seen t s (.tau p)
      ((s.setThread p { s.threads p with curRunning := some c, pc := .exec c .user }).setCoro c
        { s.coros c with cell := .running, resumed := (s.coros c).resumed + 1 }) place := by
  have held : (s.threads p).pc.hand = some c := by rw [at_pc]; rfl
  have at_c := inv.at_hand held
  have ready : t.status c = .runnable := by simp [status, Sys.shows, at_c, Thread.shows, at_pc]
  have visible : label s (.tau p) = some (.run p c) := by simp [label, at_pc]
  refine seen_step visible (Tasks.step_run (current_none inv status (by simp [at_pc])) ready) ?_
  rw [effect.shows_update inv rfl (.inr held) (fun _ _ => rfl), status]
  simp [Sys.shows, at_c, Thread.shows]

/-- A coroutine that has left the thread shows what it has yielded into. -/
theorem Effect.seen_left (inv : Placed s place) {k : Context P} {l : Place P}
    (effect : Effect s place (.tau p)
      (s.setThread p { s.threads p with lastResult := none, pc := .drain })
      (Function.update place c l))
    (status : t.status = s.shows place) (at_pc : (s.threads p).pc = .back c)
    (saved : (s.coros c).cell = .saved k)
    (goes : k = .block ∧ l = .parked ∨ ∃ token, k = .waitEvent p token ∧ l = .wait p token) :
    Seen t s (.tau p) (s.setThread p { s.threads p with lastResult := none, pc := .drain })
      (Function.update place c l) := by
  refine effect.seen_held inv status rfl (c := c) (by simp [at_pc, Pc.hand]) (by simp [label, at_pc])
    (fun d other => Function.update_of_ne other ..) ?_
  rcases goes with ⟨rfl, rfl⟩ | ⟨token, rfl, rfl⟩ <;>
    simp [Sys.shows, Thread.shows, at_pc, saved, Context.shows]

/-- Each step of the runtime is the step of the task scheduler it is labelled with. -/
theorem Effect.seen (inv : Placed s place) (effect : Effect s place a s' place')
    (taken : Runtime.step s a = some s') (status : t.status = s.shows place) :
    Seen t s a s' place' := by
  have copy := effect
  cases effect with
  | @quiet p a pc quiet =>
      obtain ⟨silent, actor, empty | ⟨h, token, fd, interest, at_pc, rfl⟩⟩ := quiet.label
      · refine seen_silent status silent (copy.shows_idle inv fun q mine => ?_)
        obtain rfl : p = q := Option.some.inj (actor.symm.trans mine)
        exact empty
      · have held : (s.threads p).pc.hand = some h := by rw [at_pc]; rfl
        refine copy.seen_held inv status actor held silent (fun _ _ => rfl) ?_
        simp [Sys.shows, inv.at_hand held, Thread.shows, at_pc]
  | @full p c pushing => exact seen_silent status (shows_pushing pushing (s.coros c)).1 rfl
  | @fetchAdd p pc from_pc =>
      rcases from_pc with ⟨at_pc, rfl⟩ | ⟨h, at_pc, rfl⟩
      · refine seen_silent status rfl (copy.shows_idle inv fun q mine => ?_)
        cases mine
        simp [at_pc, Pc.hand]
      · have held : (s.threads p).pc.hand = some h := by rw [at_pc]; rfl
        refine copy.seen_held inv status rfl held rfl (fun _ _ => rfl) ?_
        simp [Sys.shows, inv.at_hand held, Thread.shows, at_pc, Sys.fetchAdd]
  | spawnOut from_pc => exact copy.seen_spawnOut inv status from_pc
  | spawnIn from_pc => exact copy.seen_spawnIn inv status from_pc
  | yield at_pc yields => exact copy.seen_yield inv status at_pc yields
  | ended at_pc ends => exact copy.seen_ended inv taken status at_pc ends
  | @inserted p h fd interest token slabs at_pc inserted =>
      have held : (s.threads p).pc.hand = some h := by rw [at_pc]; rfl
      have room : (s.threads p).slabs.count ≠ MAX_TOKEN_NUM := by
        unfold Slab.insert at inserted
        split at inserted
        · rename_i room
          exact Nat.ne_of_lt room.1
        · cases inserted
      refine copy.seen_held inv status rfl held (by simp [label, room]) (fun _ _ => rfl) ?_
      simp [Sys.shows, inv.at_hand held, Thread.shows, at_pc]
  | @registered p h token fd interest l at_pc =>
      have held : (s.threads p).pc.hand = some h := by rw [at_pc]; rfl
      refine copy.seen_held inv status rfl held rfl (fun _ _ => rfl) ?_
      simp [Sys.shows, inv.at_hand held, Thread.shows, at_pc]
  | setHolds =>
      refine seen_silent status rfl (copy.shows_idle inv fun q mine => ?_)
      cases mine
  | polled at_pc =>
      refine seen_silent status rfl (copy.shows_idle inv fun q mine => ?_)
      cases mine
      simp [at_pc, Pc.hand]
  | handled at_pc removed waits => exact copy.seen_wake inv status at_pc removed waits
  | @deregistered p c fd rest l at_pc =>
      have held : (s.threads p).pc.hand = some c := by rw [at_pc]; rfl
      refine copy.seen_held inv status rfl held (by simp [label, at_pc]) (fun _ _ => rfl) ?_
      simp [Sys.shows, inv.at_hand held, Thread.shows, at_pc]
  | @pushed p c q pushing =>
      obtain ⟨silent, ready⟩ := shows_pushing pushing (s.coros c)
      refine copy.seen_held inv status rfl (Pc.hand_of_pushing pushing) silent
        (fun d other => Function.update_of_ne other ..) ?_
      simp [Sys.shows, ready]
  | @popped p c q at_pc popped =>
      have at_c : place c = .queue := (inv.queue.mem c).1 (by simp [BoundedQueue.pop_some popped])
      exact copy.seen_taken inv status rfl (by simp [at_pc, Pc.hand]) (by simp [label, at_pc])
        (fun d other => Function.update_of_ne other ..) (by simp [Sys.shows, at_c])
        (by simp [Sys.shows, Thread.shows])
  | @drained p c at_pc filled =>
      have at_c : place c = .slot p := (inv.slot p c).1 filled
      exact copy.seen_taken inv status rfl (by simp [at_pc, Pc.hand]) (by simp [label, at_pc])
        (fun d other => Function.update_of_ne other ..) (by simp [Sys.shows, at_c])
        (by simp [Sys.shows, Thread.shows])
  | resumed at_pc => exact copy.seen_run inv status at_pc
  | @took p c k at_pc saved runs =>
      have held : (s.threads p).pc.hand = some c := by rw [at_pc]; rfl
      refine copy.seen_held inv status rfl held (by simp [label, at_pc]) (fun _ _ => rfl) ?_
      simp only [Sys.shows, inv.at_hand held, Thread.shows, at_pc, saved]
      cases k with
      | block | waitEvent => exact absurd rfl runs
      | coroutineInitialize | spawnOpts | sched => simp [Context.result, Sys.runTaskArm, Context.shows]
      | exited st => cases st <;> simp [Context.result, Sys.runTaskArm, Context.shows]
  | left at_pc saved goes => exact copy.seen_left inv status at_pc saved goes
  | @finished p c at_pc =>
      have held : (s.threads p).pc.hand = some c := by rw [at_pc]; rfl
      refine copy.seen_held inv status rfl held (by simp [label, at_pc]) (fun _ _ => rfl) ?_
      simp [Sys.shows, inv.at_hand held, Thread.shows, at_pc, Sys.finished]
  | @freed p c st at_pc saved =>
      have held : (s.threads p).pc.hand = some c := by rw [at_pc]; rfl
      refine copy.seen_held inv status rfl held (by simp [label, at_pc])
        (fun d other => Function.update_of_ne other ..) ?_
      simp [Sys.shows, Thread.shows, at_pc]

end Seen

def refinement : Simulation (system P) (Tasks.system CoroutineRefMut P Token) Lts.anyStep label where
  Rel s t := Registers s ∧ ∃ place, Placed s place ∧ t.status = s.shows place
  step := by
    rintro s s' a t ⟨regs, place, inv, status⟩ - taken
    obtain ⟨place', effect⟩ := effect_of_step regs inv taken
    obtain ⟨t', goes, status'⟩ := effect.seen inv taken status
    exact ⟨t', goes, regs.step taken, place', effect.placed inv, status'⟩

theorem refinement_start : (refinement (P := P)).Rel .init .new := by
  have initial : (system P).Reach Lts.anyStep .init .init := .start
  exact ⟨Registers.reach initial, _, .init, rfl⟩

/-! ## The refinement -/

/-- `t` is what is seen of `s`. -/
structure Shows (s : Sys P) (t : Tasks CoroutineRefMut P Token) : Prop where
  unborn : ∀ c, t.status c = .unborn ↔ s.next ≤ c
  running : ∀ p c, t.current p = some c ↔ ∃ pt, (s.threads p).pc = .exec c pt
  queued : ∀ c ∈ s.globalQueue.items, t.status c = .runnable
  slot : ∀ p c, (s.threads p).newSpawned = some c → t.status c = .runnable
  hand : ∀ p c, (s.threads p).pc.hand = some c → t.status c = (s.threads p).shows p (s.coros c)
  /-- who can run is held so that it can, or was overwritten in its slot -/
  runnable : ∀ c, t.status c = .runnable → c ∈ s.globalQueue.items ∨
    (∃ p, (s.threads p).newSpawned = some c) ∨ (∃ p, (s.threads p).pc.hand = some c) ∨
    s.coros c = .spawned
  blocked : ∀ p c token, Blocked s c p token → t.waiter p token = some c
  /-- who waits has the slab entry of its token -/
  waits : ∀ p c token, t.waiter p token = some c →
    ∃ fd, (s.threads p).slabs.lookup token = some (c, fd)
  /-- who has parked itself is in `block`, and no thread does more for it than go back from it -/
  parked : ∀ c, t.status c = .parked → (s.coros c).cell = .saved .block ∧
    ∀ p, (s.threads p).pc.hand = some c → (s.threads p).pc = .back c
  ended : ∀ c, t.status c = .ended ↔ (s.coros c).ended = 1

omit [DecidableEq P] in
theorem Placed.shows (inv : Placed s place) {t : Tasks CoroutineRefMut P Token}
    (status : t.status = s.shows place) : Shows s t where
  unborn c := by
    rw [status]
    exact shows_unborn inv
  running p c := by
    rw [t.runs p c, status]
    exact shows_running inv
  queued c queued := by simp [status, Sys.shows, (inv.queue.mem c).1 queued]
  slot p c filled := by simp [status, Sys.shows, (inv.slot p c).1 filled]
  hand p c held := by simp [status, Sys.shows, inv.at_hand held]
  runnable c ready := by
    rw [status] at ready
    have life := inv.life c
    cases at_c : place c with
    | slot p => exact .inr (.inl ⟨p, (inv.slot p c).2 at_c⟩)
    | queue => exact .inl ((inv.queue.mem c).2 at_c)
    | hand p => exact .inr (.inr (.inl ⟨p, (inv.hand p c).2 at_c⟩))
    | lost =>
        rw [at_c] at life
        exact .inr (.inr (.inr life))
    | unborn | wait | parked | freed => simp [Sys.shows, at_c] at ready
  blocked p c token blocked := by
    rw [t.waits p token c, status]
    simp [Sys.shows, inv.blocked_iff.1 blocked]
  waits p c token waits := by
    have shows := (t.waits p token c).1 waits
    rw [status] at shows
    obtain ⟨fd, r, entry, -⟩ := (inv.io p).entry c token ((shows_waiting inv shows).imp_right .inr)
    exact ⟨fd, entry⟩
  parked c shows := by
    rw [status] at shows
    rcases shows_parked inv shows with at_c | ⟨q, at_back, saved⟩
    · have life := inv.life c
      rw [at_c] at life
      refine ⟨life.1, fun p held => ?_⟩
      simp [inv.at_hand held] at at_c
    · refine ⟨saved, fun p held => ?_⟩
      have at_q := inv.at_hand (p := q) (c := c) (by rw [at_back]; rfl)
      obtain rfl : q = p := by simpa [at_q] using inv.at_hand held
      exact at_back
  ended c := by
    rw [status]
    exact shows_ended inv

/-- In every run, whatever the programs do and however the threads interleave, what is
seen of the steps is a run of the task scheduler. -/
theorem runtime_refines_tasks (s : Sys P × List (Label CoroutineRefMut P Token))
    (reached : ((system P).traced label).Reach Lts.anyStep (.init, []) s) :
    ∃ t, (Tasks.system CoroutineRefMut P Token).exec .new s.2 = some t ∧ Shows s.1 t := by
  obtain ⟨t, ran, -, place, inv, status⟩ := refinement.run refinement_start reached
  exact ⟨t, ran, inv.shows status⟩

/-- One coroutine waits for an event, and has it. -/
def waitsOnce : List (Act Unit) :=
  [.spawn (), .spawnInner (), .enter (), .tau (), .tau (), .tau (), .tau (), .tau (),
    .waitEvent () 5 EventSet.readable 0, .register () true, .tau (), .tau (), .tau (), .tau (), .tau (),
    .setHolds 5 EventSet.readable true, .poll () [5], .tau (), .tau (), .tau (), .tau (), .tau (),
    .tau (), .tau (), .ret ()]

theorem waits_once_refines : ∃ s t, ((system Unit).traced label).exec (.init, []) waitsOnce = some s ∧
    s.2 = [.spawn () none 0, .run () 0, .wait () 0 0, .wake () 0 0, .run () 0, .finish () 0] ∧
    (Tasks.system CoroutineRefMut Unit Token).exec .new s.2 = some t ∧ Shows s.1 t := by
  have runs : (((system Unit).traced label).exec (.init, []) waitsOnce).any (fun s =>
      s.2 = [.spawn () none 0, .run () 0, .wait () 0 0, .wake () 0 0, .run () 0, .finish () 0]) = true := by
    decide +kernel
  obtain ⟨s, run, labels⟩ := (Option.any_eq_true _ _).1 runs
  obtain ⟨t, ran, shows⟩ := runtime_refines_tasks s (.of_exec_any run)
  exact ⟨s, t, run, of_decide_eq_true labels, ran, shows⟩

/-! ## What happens to one coroutine -/

/-- `own` is what has happened to `c`. -/
structure History (s : Sys P) (c : CoroutineRefMut) (own : List (Own P Token)) : Prop where
  word : ((life P Token).exec .unborn own).isSome = true
  /-- each run of it is ended by one stop, each wait by one wake -/
  runs : own.countP Own.isRun = own.countP Own.isStop ∧ (∀ p pt, (s.threads p).pc ≠ .exec c pt) ∨
    own.countP Own.isRun = own.countP Own.isStop + 1 ∧ ∃ p pt, (s.threads p).pc = .exec c pt
  waits : own.countP Own.isWait = own.countP Own.isWake ∧ (∀ p token, ¬ Blocked s c p token) ∨
    own.countP Own.isWait = own.countP Own.isWake + 1 ∧
      ∃ p token fd, (s.threads p).slabs.lookup token = some (c, fd)
  /-- after it has ended, or blocked itself, nothing happens to it -/
  last : ∀ before e after, own = before ++ e :: after →
    (∃ p, e = .finish p) ∨ (∃ p, e = .park p) → after = []

/-- In every run and for every coroutine. -/
theorem coroutine_history (c : CoroutineRefMut) (s : Sys P × List (Label CoroutineRefMut P Token))
    (reached : ((system P).traced label).Reach Lts.anyStep (.init, []) s) :
    History s.1 c (s.2.filterMap (Label.own c)) := by
  obtain ⟨t, st, -, ⟨-, place, inv, status⟩, word, at_c⟩ :=
    refinement.run_seen (Tasks.seen c) (Label.own c) (fun _ _ => rfl) refinement_start rfl reached
  have shows := inv.shows status
  replace word : (life P Token).exec .unborn (s.2.filterMap (Label.own c)) = some st := word
  obtain ⟨runs, waits⟩ := Status.exec_counts word
  obtain rfl : t.status c = st := at_c
  refine ⟨by rw [word]; rfl, ?_, ?_, ?_⟩
  · cases here : t.status c with
    | running p =>
        refine .inr ⟨?_, p, (shows.running p c).1 ((t.runs p c).2 here)⟩
        simpa [here, Status.isRunning] using runs
    | _ =>
        refine .inl ⟨by simpa [here, Status.isRunning] using runs, ?_⟩
        intro p pt at_exec
        have := (t.runs p c).1 ((shows.running p c).2 ⟨pt, at_exec⟩)
        simp [here] at this
  · cases here : t.status c with
    | waiting p token =>
        refine .inr ⟨?_, p, token, shows.waits p c token ((t.waits p token c).2 here)⟩
        simpa [here, Status.isWaiting] using waits
    | _ =>
        refine .inl ⟨by simpa [here, Status.isWaiting] using waits, ?_⟩
        intro p token blocked
        have := (t.waits p token c).1 (shows.blocked p c token blocked)
        simp [here] at this
  · rintro before e after split last
    rw [split] at word
    exact Status.nothing_after last word

theorem waits_once_history : ∃ s, ((system Unit).traced label).exec (.init, []) waitsOnce = some s ∧
    s.2.filterMap (Label.own 0) =
      [.born, .run (), .wait () 0, .wake () 0, .run (), .finish ()] ∧
    History s.1 0 (s.2.filterMap (Label.own 0)) := by
  have runs : (((system Unit).traced label).exec (.init, []) waitsOnce).any (fun s =>
      s.2.filterMap (Label.own 0) =
        [.born, .run (), .wait () 0, .wake () 0, .run (), .finish ()]) = true := by
    decide +kernel
  obtain ⟨s, run, own⟩ := (Option.any_eq_true _ _).1 runs
  exact ⟨s, run, of_decide_eq_true own, coroutine_history 0 s (.of_exec_any run)⟩

end SimpleSched.Runtime
