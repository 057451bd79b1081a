/-
# Runtime.SpawnOrder -- a spawned coroutine runs at once, its parent later

`Processor::spawn_opts` leaves the new coroutine in the processor's slot and suspends
the caller.  `run_task` then pushes the caller and returns to the loop of `schedule`,
which takes the slot before it comes to the queue again, from the drain of the popped
coroutine or from the same drain of another child.

`child_runs_at_once` is about the trace of pushes, pops and resumes after a spawn, of
all threads: in which order they can come until the child has run and the parent is
popped.  It asks nothing of what was before the spawn.
-/
import SimpleSched.Runtime.Results
import SimpleSched.Theory.Trace

namespace SimpleSched.Runtime

set_option autoImplicit false

open Mio Theory

variable {P : Type}

/-- What a thread does with a coroutine: `Scheduler::ready` returns, `schedule` pops it
from the queue, `Processor::resume` switches to it. -/
inductive Event (P : Type)
  | pushed (p : P) (c : CoroutineRefMut)
  | popped (p : P) (c : CoroutineRefMut)
  | resumed (p : P) (c : CoroutineRefMut)
  deriving DecidableEq

def event (s : Sys P) : Act P → Option (Event P)
  | .tau p =>
    match (s.threads p).pc with
    | .wake c _ | .requeue c => (s.globalQueue.push c).map fun _ => .pushed p c
    | .pop => s.globalQueue.pop.map fun head => .popped p head.1
    | .runTask c => some (.resumed p c)
    | _ => none
  | _ => none

/-- What may come after a spawn by `parent` on `i`, given what has come. -/
def Allowed (i : P) (parent child : CoroutineRefMut) (tr : List (Event P)) : Event P → Prop
  -- `i` first resumes the child, after it has pushed the parent; nobody else resumes the
  -- child before that, and nobody the parent before it is popped
  | .resumed p c =>
    (p = i → (∀ d, .resumed i d ∉ tr) → c = child ∧ .pushed i parent ∈ tr) ∧
    (c = child → p = i ∨ .resumed i child ∈ tr) ∧ (c = parent → ∃ q, .popped q parent ∈ tr)
  -- `i` pops nothing before it has resumed the child, nobody the parent before it is pushed
  | .popped p c => (p = i → .resumed i child ∈ tr) ∧ (c = parent → .pushed i parent ∈ tr)
  -- the parent is pushed once, by `i`, before it is popped
  | .pushed p c => c = parent →
    (p = i ∧ ∀ q, .pushed q parent ∉ tr) ∨ ∃ q, .popped q parent ∈ tr

variable [DecidableEq P]

/-- After the spawn, with the events since then. -/
structure AtOnce (i : P) (parent child : CoroutineRefMut) (s : Sys P) (tr : List (Event P)) : Prop where
  order : InOrder (Allowed i parent child) tr
  /-- once `Scheduler::ready` has returned, own steps of `i` bring it into the child -/
  runs : .pushed i parent ∈ tr → (∀ d, .resumed i d ∉ tr) → ∃ k t,
    (system P).exec s (List.replicate k (.tau i)) = some t ∧ (t.threads i).pc = .exec child .user
  /-- the parent's code after the call runs only after it was popped -/
  code : ∀ p pt, (s.threads p).pc = .exec parent pt → ∃ q, .popped q parent ∈ tr

/-! ## Where the two coroutines are -/

/-- `i` has resumed nothing and popped nothing, and nobody has resumed the child. -/
structure Before (i : P) (child : CoroutineRefMut) (tr : List (Event P)) : Prop where
  resumed : ∀ d, .resumed i d ∉ tr
  popped : ∀ d, .popped i d ∉ tr
  child : ∀ p, .resumed p child ∉ tr

/-- `i` is between the parent's yield and its push. -/
structure Held (i : P) (parent child : CoroutineRefMut) (s : Sys P) (tr : List (Event P)) : Prop where
  slot : (s.threads i).newSpawned = some child
  at_pc : (s.threads i).pc = .back parent ∧ (s.threads i).lastResult = some (.ok .suspended) ∨
    (s.threads i).pc = .requeue parent
  unpushed : ∀ p, .pushed p parent ∉ tr
  before : Before i child tr

/-- Where `i` has got to with the child. -/
inductive Child (i : P) (child : CoroutineRefMut) (s : Sys P) (tr : List (Event P)) : Prop
  | slot : (s.threads i).newSpawned = some child → (s.threads i).pc = .drain → Before i child tr →
      Child i child s tr
  | taken : (s.threads i).pc = .runTask child → Before i child tr → Child i child s tr
  | resumed : .resumed i child ∈ tr → Child i child s tr

inductive Since (i : P) (parent child : CoroutineRefMut) (s : Sys P) (tr : List (Event P)) : Prop
  | held : Held i parent child s tr → Since i parent child s tr
  | pushed : .pushed i parent ∈ tr → Child i child s tr →
      parent ∈ s.globalQueue.items ∨ (∃ p, .popped p parent ∈ tr) → Since i parent child s tr

section Events

variable {s s' : Sys P} {a : Act P} {p : P} {c : CoroutineRefMut}

omit [DecidableEq P] in
theorem event_resumed (emits : event s a = some (.resumed p c)) :
    a = .tau p ∧ (s.threads p).pc = .runTask c := by
  cases a with
  | tau q =>
      cases at_pc : (s.threads q).pc <;> simp [event, at_pc] at emits
      obtain ⟨rfl, rfl⟩ := emits
      exact ⟨rfl, at_pc⟩
  | _ => simp [event] at emits

omit [DecidableEq P] in
theorem event_popped (emits : event s a = some (.popped p c)) :
    a = .tau p ∧ (s.threads p).pc = .pop ∧ c ∈ s.globalQueue.items := by
  cases a with
  | tau q =>
      cases at_pc : (s.threads q).pc <;> simp only [event, at_pc, Option.map_eq_some_iff,
        Option.some.injEq, reduceCtorEq, and_false, exists_false] at emits
      obtain ⟨⟨d, rest⟩, popped, same⟩ := emits
      cases same
      exact ⟨rfl, at_pc, by simp [BoundedQueue.pop_some popped]⟩
  | _ => simp [event] at emits

omit [DecidableEq P] in
theorem event_pushed (emits : event s a = some (.pushed p c)) :
    a = .tau p ∧ (s.threads p).pc.pushing = some c := by
  cases a with
  | tau q =>
      cases at_pc : (s.threads q).pc <;> simp [event, at_pc] at emits
      all_goals
        obtain ⟨-, rfl, rfl⟩ := emits
        exact ⟨rfl, by rw [at_pc]; rfl⟩
  | _ => simp [event] at emits

/-- What is queued stays until it is popped. -/
theorem queued_of_step {place place' : Placing P} (effect : Effect s place a s' place')
    (queued : c ∈ s.globalQueue.items) :
    c ∈ s'.globalQueue.items ∨ ∃ p, event s a = some (.popped p c) := by
  cases effect with
  | pushed pushing pushed =>
      refine .inl ?_
      simp [BoundedQueue.push_some pushed, queued]
  | @popped p d q at_pc popped =>
      have items := BoundedQueue.pop_some popped
      rw [items, List.mem_cons] at queued
      rcases queued with rfl | queued
      · exact .inr ⟨p, by simp [event, at_pc, popped]⟩
      · exact .inl (by simpa using queued)
  | spawnOut | spawnIn => exact .inl (by simpa [Sys.boxSpawned, Sys.switchBack] using queued)
  | _ => exact .inl queued

/-- Between the yield of a coroutine and the next resume a thread does as it must. -/
def Pc.returning : Pc → Bool
  | .back _ | .requeue _ | .drain | .runTask _ => true
  | _ => false

theorem tau_of_returning (taken : step s a = some s') (actor : a.actor = some p)
    (returning : (s.threads p).pc.returning = true) : a = .tau p := by
  cases a with
  | setHolds => cases actor
  | tau q =>
      cases actor
      rfl
  | _ =>
      cases actor
      cases at_pc : (s.threads p).pc <;> simp_all [step, Pc.returning, Pc.caller]

end Events

/-! ## What one step leaves of it -/

section Step

variable {s s' : Sys P} {place place' : Placing P} {a : Act P} {i p : P} {parent child : CoroutineRefMut}
  {tr : List (Event P)}

omit [DecidableEq P] in
theorem mem_emit {e : Event P} : e ∈ tr ++ (event s a).toList ↔ e ∈ tr ∨ event s a = some e := by
  simp

omit [DecidableEq P] in
theorem Before.silent (before : Before i child tr) (silent : event s a = none) :
    Before i child (tr ++ (event s a).toList) := by
  simpa [silent] using before

omit [DecidableEq P] in
/-- Another thread has no part in what `i` resumes and pops, and the child is not in its
hand. -/
theorem Before.other (before : Before i child tr) (inv : Placed s place) (other : a.actor ≠ some i)
    (apart : ∀ p, p ≠ i → place child ≠ .hand p) : Before i child (tr ++ (event s a).toList) where
  resumed d mem := by
    rcases mem_emit.1 mem with earlier | now
    · exact before.resumed d earlier
    · obtain ⟨rfl, -⟩ := event_resumed now
      exact other rfl
  popped d mem := by
    rcases mem_emit.1 mem with earlier | now
    · exact before.popped d earlier
    · obtain ⟨rfl, -, -⟩ := event_popped now
      exact other rfl
  child p mem := by
    rcases mem_emit.1 mem with earlier | now
    · exact before.child p earlier
    · obtain ⟨rfl, at_pc⟩ := event_resumed now
      refine apart p ?_ (inv.at_hand (by rw [at_pc]; rfl))
      rintro rfl
      exact other rfl

omit [DecidableEq P] in
theorem Held.hand (held : Held i parent child s tr) : (s.threads i).pc.hand = some parent := by
  rcases held.at_pc with ⟨at_pc, -⟩ | at_pc <;> rw [at_pc] <;> rfl

omit [DecidableEq P] in
theorem slot_apart (inv : Placed s place) (slot : (s.threads i).newSpawned = some child) (p : P) :
    place child ≠ .hand p := by
  rw [(inv.slot i child).1 slot]
  simp

theorem Held.step_other (held : Held i parent child s tr) (inv : Placed s place)
    (taken : step s a = some s') (other : a.actor ≠ some i) :
    Held i parent child s' (tr ++ (event s a).toList) := by
  obtain ⟨l, same⟩ := step_others other taken
  constructor
  case slot => rw [same]; exact held.slot
  case at_pc => rw [same]; exact held.at_pc
  case unpushed =>
    intro p mem
    rcases mem_emit.1 mem with earlier | now
    · exact held.unpushed p earlier
    · obtain ⟨rfl, pushing⟩ := event_pushed now
      have mine := inv.at_hand (Pc.hand_of_pushing pushing)
      rw [inv.at_hand held.hand, Place.hand.injEq] at mine
      exact other (by rw [mine]; rfl)
  case before => exact held.before.other inv other fun p _ => slot_apart inv held.slot p

/-- The yield is taken and the parent pushed; a full queue is tried again. -/
theorem Held.step_self (held : Held i parent child s tr) (taken : step s a = some s')
    (actor : a.actor = some i) : Since i parent child s' (tr ++ (event s a).toList) := by
  have returning : (s.threads i).pc.returning = true := by
    rcases held.at_pc with ⟨at_pc, -⟩ | at_pc <;> rw [at_pc] <;> rfl
  obtain rfl := tau_of_returning taken actor returning
  have silent_unpushed (silent : event s (.tau i) = none) (p : P) :
      Event.pushed p parent ∉ tr ++ (event s (.tau i)).toList := by
    simpa [silent] using held.unpushed p
  rcases held.at_pc with ⟨at_pc, last⟩ | at_pc
  · have silent : event s (.tau i) = none := by simp [event, at_pc]
    simp only [step, Sys.tau, at_pc, Option.some.injEq] at taken
    subst taken
    refine .held ⟨?_, .inr ?_, silent_unpushed silent, held.before.silent silent⟩
    · simpa [Sys.resumed] using held.slot
    · simp [Sys.resumed, last, Sys.runTaskArm]
  · simp only [step, Sys.tau, at_pc, Sys.ready, Option.some.injEq] at taken
    cases room : s.globalQueue.push parent with
    | none =>
        have silent : event s (.tau i) = none := by simp [event, at_pc, room]
        simp only [room] at taken
        subst taken
        exact .held ⟨held.slot, .inr at_pc, silent_unpushed silent, held.before.silent silent⟩
    | some queue =>
        have emits : event s (.tau i) = some (.pushed i parent) := by simp [event, at_pc, room]
        simp only [room] at taken
        subst taken
        refine .pushed (mem_emit.2 (.inr emits)) (.slot ?_ ?_ ?_) (.inl ?_)
        · simpa using held.slot
        · simp
        · rw [emits]
          exact ⟨by simpa using held.before.resumed, by simpa using held.before.popped,
            by simpa using held.before.child⟩
        · simp [BoundedQueue.push_some room]

theorem Child.step (stage : Child i child s tr) (inv : Placed s place) (taken : step s a = some s') :
    Child i child s' (tr ++ (event s a).toList) := by
  by_cases actor : a.actor = some i
  · cases stage with
    | slot slot at_pc before =>
        obtain rfl := tau_of_returning taken actor (by rw [at_pc]; rfl)
        have silent : event s (.tau i) = none := by simp [event, at_pc]
        simp only [Runtime.step, Sys.tau, at_pc, Sys.drain, slot, Option.some.injEq] at taken
        subst taken
        exact .taken (by simp) (before.silent silent)
    | taken at_pc before =>
        obtain rfl := tau_of_returning taken actor (by rw [at_pc]; rfl)
        have emits : event s (.tau i) = some (.resumed i child) := by simp [event, at_pc]
        exact .resumed (mem_emit.2 (.inr emits))
    | resumed earlier => exact .resumed (mem_emit.2 (.inl earlier))
  · obtain ⟨l, same⟩ := step_others actor taken
    cases stage with
    | slot slot at_pc before =>
        exact .slot (by rw [same]; exact slot) (by rw [same]; exact at_pc)
          (before.other inv actor fun p _ => slot_apart inv slot p)
    | taken at_pc before =>
        have held : place child = .hand i := inv.at_hand (by rw [at_pc]; rfl)
        refine .taken (by rw [same]; exact at_pc) (before.other inv actor ?_)
        intro p apart there
        exact apart (by simpa [held] using there.symm)
    | resumed earlier => exact .resumed (mem_emit.2 (.inl earlier))

theorem Since.step (since : Since i parent child s tr) (inv : Placed s place)
    (taken : step s a = some s') (effect : Effect s place a s' place') :
    Since i parent child s' (tr ++ (event s a).toList) := by
  cases since with
  | held held =>
      by_cases actor : a.actor = some i
      · exact held.step_self taken actor
      · exact .held (held.step_other inv taken actor)
  | pushed pushed stage later =>
      refine .pushed (mem_emit.2 (.inl pushed)) (stage.step inv taken) ?_
      rcases later with queued | ⟨p, popped⟩
      · refine (queued_of_step effect queued).imp_right ?_
        rintro ⟨p, emits⟩
        exact ⟨p, mem_emit.2 (.inr emits)⟩
      · exact .inr ⟨p, mem_emit.2 (.inl popped)⟩

end Step

/-! ## What it allows -/

section Allows

variable {s : Sys P} {place : Placing P} {a : Act P} {i : P} {parent child : CoroutineRefMut}
  {tr : List (Event P)}

omit [DecidableEq P] in
/-- A coroutine that a thread is about to resume, or executes, has been popped since, if
it is the parent. -/
theorem Since.popped (since : Since i parent child s tr) (inv : Placed s place) {p : P}
    (hand : (s.threads p).pc.hand = some parent)
    (gone : (s.threads p).pc ≠ .back parent ∧ (s.threads p).pc ≠ .requeue parent) :
    ∃ q, .popped q parent ∈ tr := by
  have there := inv.at_hand hand
  cases since with
  | held held =>
      obtain rfl : i = p := by simpa [there] using (inv.at_hand held.hand).symm
      rcases held.at_pc with ⟨at_pc, -⟩ | at_pc
      · exact absurd at_pc gone.1
      · exact absurd at_pc gone.2
  | pushed _ _ later =>
      rcases later with queued | popped
      · have at_queue := (inv.queue.mem parent).1 queued
        rw [there] at at_queue
        cases at_queue
      · exact popped

omit [DecidableEq P] in
theorem Since.allows_resumed (since : Since i parent child s tr) (inv : Placed s place) {p : P}
    {c : CoroutineRefMut} (at_pc : (s.threads p).pc = .runTask c) :
    Allowed i parent child tr (.resumed p c) := by
  have hand : place c = .hand p := inv.at_hand (by rw [at_pc]; rfl)
  refine ⟨?_, ?_, ?_⟩
  · rintro rfl first
    cases since with
    | held held => rcases held.at_pc with ⟨at_pc', -⟩ | at_pc' <;> simp [at_pc] at at_pc'
    | pushed pushed stage =>
        cases stage with
        | slot _ at_pc' => simp [at_pc] at at_pc'
        | taken at_pc' =>
            obtain rfl : c = child := by simpa [at_pc] using at_pc'
            exact ⟨rfl, pushed⟩
        | resumed earlier => exact absurd earlier (first child)
  · rintro rfl
    have in_slot (slot : (s.threads i).newSpawned = some c) : False :=
      slot_apart inv slot p hand
    cases since with
    | held held => exact (in_slot held.slot).elim
    | pushed _ stage =>
        cases stage with
        | slot slot => exact (in_slot slot).elim
        | taken at_pc' =>
            have mine : place c = .hand i := inv.at_hand (by rw [at_pc']; rfl)
            exact .inl (by simpa [mine] using hand.symm)
        | resumed earlier => exact .inr earlier
  · rintro rfl
    exact since.popped inv (by rw [at_pc]; rfl) (by simp [at_pc])

omit [DecidableEq P] in
theorem Since.allows_popped (since : Since i parent child s tr) (inv : Placed s place) {p : P}
    {c : CoroutineRefMut} (at_pc : (s.threads p).pc = .pop) (queued : c ∈ s.globalQueue.items) :
    Allowed i parent child tr (.popped p c) := by
  constructor
  · rintro rfl
    cases since with
    | held held => rcases held.at_pc with ⟨at_pc', -⟩ | at_pc' <;> simp [at_pc] at at_pc'
    | pushed _ stage =>
        cases stage with
        | slot _ at_pc' => simp [at_pc] at at_pc'
        | taken at_pc' => simp [at_pc] at at_pc'
        | resumed earlier => exact earlier
  · rintro rfl
    cases since with
    | held held =>
        have there := inv.at_hand held.hand
        rw [(inv.queue.mem c).1 queued] at there
        cases there
    | pushed pushed => exact pushed

omit [DecidableEq P] in
theorem Since.allows_pushed (since : Since i parent child s tr) (inv : Placed s place) {p : P}
    {c : CoroutineRefMut} (pushing : (s.threads p).pc.pushing = some c) :
    Allowed i parent child tr (.pushed p c) := by
  rintro rfl
  have hand : place c = .hand p := inv.at_hand (Pc.hand_of_pushing pushing)
  cases since with
  | held held =>
      have mine := inv.at_hand held.hand
      exact .inl ⟨by simpa [mine] using hand.symm, held.unpushed⟩
  | pushed _ _ later =>
      rcases later with queued | popped
      · rw [(inv.queue.mem c).1 queued] at hand
        cases hand
      · exact .inr popped

omit [DecidableEq P] in
theorem Since.allows (since : Since i parent child s tr) (inv : Placed s place) (e : Event P)
    (emits : event s a = some e) : Allowed i parent child tr e := by
  cases e with
  | pushed p c => exact since.allows_pushed inv (event_pushed emits).2
  | popped p c => exact since.allows_popped inv (event_popped emits).2.1 (event_popped emits).2.2
  | resumed p c => exact since.allows_resumed inv (event_resumed emits).2

/-- A thread about to resume a coroutine that can be resumed. -/
theorem resumes_child (inv : Placed s place) (at_pc : (s.threads i).pc = .runTask child) :
    ∃ t, step s (.tau i) = some t ∧ (t.threads i).pc = .exec child .user := by
  have life := inv.hand_life (c := child) (p := i) (by rw [at_pc]; rfl)
  simp only [Thread.HandLife, at_pc] at life
  obtain ⟨k, saved, live, -⟩ := life
  have user : k.point = .user := Context.live_point live
  refine ⟨s.resume i child, by simp [step, Sys.tau, at_pc], ?_⟩
  simp [Sys.resume, saved, user]

theorem Since.runs (since : Since i parent child s tr) (regs : Registers s) (inv : Placed s place)
    (pushed : .pushed i parent ∈ tr) (first : ∀ d, .resumed i d ∉ tr) : ∃ k t,
    (system P).exec s (List.replicate k (.tau i)) = some t ∧ (t.threads i).pc = .exec child .user := by
  cases since with
  | held held => exact absurd pushed (held.unpushed i)
  | pushed _ stage =>
      cases stage with
      | slot slot at_pc =>
          have takes : Runtime.step s (.tau i) = some (s.drain i) := by
            simp [Runtime.step, Sys.tau, at_pc]
          obtain ⟨place', effect⟩ := effect_of_step regs inv takes
          have at_run : ((s.drain i).threads i).pc = .runTask child := by simp [Sys.drain, slot]
          obtain ⟨t, resumes, runs⟩ := resumes_child (effect.placed inv) at_run
          exact ⟨2, t, by simp [List.replicate, Lts.exec, system, takes, resumes], runs⟩
      | taken at_pc =>
          obtain ⟨t, resumes, runs⟩ := resumes_child inv at_pc
          exact ⟨1, t, by simp [List.replicate, Lts.exec, system, resumes], runs⟩
      | resumed earlier => exact absurd earlier (first child)

end Allows

/-! ## Every run after a spawn -/

variable {s s₁ : Sys P} {i : P} {c : CoroutineRefMut}

/-- After the second half of `Scheduler::spawn_opts` the child is in the slot. -/
theorem since_spawn (regs : Registers s) (at_pc : (s.threads i).pc = .exec c .spawnOpts)
    (spawned : step s (.spawnInner i) = some s₁) : Since i c s.next s₁ [] := by
  simp only [step, at_pc, spawnOpts_in regs at_pc, Option.some.injEq] at spawned
  subst spawned
  refine .held ⟨?_, .inl ⟨?_, ?_⟩, by simp, ⟨by simp, by simp, by simp⟩⟩
  · simp [Sys.switchBack, Sys.boxSpawned]
  · simp [Sys.switchBack]
  · simp [Sys.switchBack, Context.result]

/-- In every run, after every `Scheduler::spawn` of a coroutine, whatever the threads do:
the events come in the order that `Allowed` states, and the child runs as soon as
`Scheduler::ready` has returned. -/
theorem child_runs_at_once (reached : (system P).Reach Lts.anyStep .init s)
    (at_pc : (s.threads i).pc = .exec c .spawnOpts) (spawned : step s (.spawnInner i) = some s₁)
    {t : Sys P × List (Event P)}
    (later : ((system P).traced event).Reach Lts.anyStep (s₁, []) t) :
    AtOnce i c s.next t.1 t.2 := by
  have reached₁ : (system P).Reach Lts.anyStep .init s₁ :=
    .step (a := .spawnInner i) reached trivial spawned
  have whole {t : Sys P × List (Event P)}
      (later : ((system P).traced event).Reach Lts.anyStep (s₁, []) t) :
      (system P).Reach Lts.anyStep .init t.1 := reached₁.trans later.untraced
  have holds : Since i c s.next t.1 t.2 ∧ InOrder (Allowed i c s.next) t.2 := by
    refine later.invariant (I := fun t => Since i c s.next t.1 t.2 ∧ InOrder (Allowed i c s.next) t.2)
      ⟨since_spawn (Registers.reach reached) at_pc spawned, .nil⟩ ?_
    rintro ⟨u, tr⟩ a ⟨u', tr'⟩ before ⟨since, order⟩ - taken
    obtain ⟨stepped, rfl⟩ := Lts.traced_some taken
    obtain ⟨place, inv⟩ := placed_of_reach (whole before)
    obtain ⟨place', effect⟩ := effect_of_step (Registers.reach (whole before)) inv stepped
    exact ⟨since.step inv stepped effect, order.emit (since.allows inv)⟩
  obtain ⟨place, inv⟩ := placed_of_reach (whole later)
  constructor
  case order => exact holds.2
  case runs => exact holds.1.runs (Registers.reach (whole later)) inv
  case code =>
    intro p pt executes
    exact holds.1.popped inv (by rw [executes]; rfl) (by simp [executes])

/-- A coroutine that is about to spawn. -/
def aboutToSpawn : List (Act (Threads 2)) :=
  [.spawn none, .spawnInner none, .enter none, .tau none, .tau none, .tau none, .tau none,
    .tau none, .spawn none]

/-- Its parent runs on the other thread before the child does. -/
theorem parent_stolen_at_once : ∃ s s₁ t, (system (Threads 2)).exec .init aboutToSpawn = some s ∧
    step s (.spawnInner none) = some s₁ ∧
    ((system (Threads 2)).traced event).exec (s₁, []) [.tau none, .tau none, .enter .spawned,
      .tau .spawned, .tau .spawned, .tau none, .tau none] = some t ∧
    AtOnce none 0 s.next t.1 t.2 ∧
    t.2 = [.pushed none 0, .popped .spawned 0, .resumed .spawned 0, .resumed none 1] := by
  have spawns : ((system (Threads 2)).exec .init aboutToSpawn).any (fun s =>
      (s.threads none).pc = .exec 0 .spawnOpts ∧ (step s (.spawnInner none)).any fun s₁ =>
        (((system (Threads 2)).traced event).exec (s₁, []) [.tau none, .tau none, .enter .spawned,
          .tau .spawned, .tau .spawned, .tau none, .tau none]).any fun t =>
            t.2 = [.pushed none 0, .popped .spawned 0, .resumed .spawned 0, .resumed none 1]) = true := by
    decide +kernel
  obtain ⟨s, run, rest⟩ := (Option.any_eq_true _ _).1 spawns
  obtain ⟨at_pc, spawned⟩ := of_decide_eq_true rest
  obtain ⟨s₁, taken, later⟩ := (Option.any_eq_true _ _).1 spawned
  obtain ⟨t, goes, events⟩ := (Option.any_eq_true _ _).1 later
  exact ⟨s, s₁, t, run, taken, goes,
    child_runs_at_once (.of_exec_any run) at_pc taken (.of_exec_any goes), of_decide_eq_true events⟩

end SimpleSched.Runtime
