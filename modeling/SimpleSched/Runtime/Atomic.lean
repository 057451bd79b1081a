/-
# Runtime.Atomic -- a wait_event that fails is not undone

`Processor::wait_event` inserts its entry, and with it an `Io` that owns the borrowed
descriptor, before it registers; what follows the insertion undoes nothing.  On a full
slab the entry that is handed back is dropped by `unwrap`'s panic, and the descriptor
closed.  When `register_opt` fails `try!` leaves the entry where it is.

`wait_event_atomic` has both halves of what follows: one call leaves the processor as it
was exactly when it does not fail, and in runs without a failed registration a thread
finds nothing left in its slab once all coroutines have finished, and breaks.
`refused_never_breaks`: with one, it polls for an event that nobody waits for.
-/
import SimpleSched.Runtime.Exclusive
import SimpleSched.Runtime.Quiescence

namespace SimpleSched.Runtime

set_option autoImplicit false

open Mio Theory

variable {P : Type} [DecidableEq P]

/-! ## One call -/

/-- `wait_event` of the coroutine on `p`, up to `Scheduler::block` or to its failure: the
insertion under `token`, and if it succeeds `register_opt` with the answer `ok`. -/
def Sys.waitEvent (s : Sys P) (p : P) (fd : Fd) (interest : EventSet) (token : Token) (ok : Bool) :
    Option (Sys P) :=
  (step s (.waitEvent p fd interest token)).bind fun t =>
    match (t.threads p).pc with
    | .exec _ (.inserted _ _ _) => step t (.register p ok)
    | _ => some t

/-- The coroutine goes on to `Scheduler::block`. -/
def Blocks (s : Sys P) (p : P) : Prop := ∃ c token, (s.threads p).pc = .exec c (.registered token)

/-- The call of `c` has left no trace: the slab is as it was, with no entry of `c`, and no
descriptor was closed. -/
structure Undone (s s' : Sys P) (p : P) (c : CoroutineRefMut) : Prop where
  slab : (s'.threads p).slabs = (s.threads p).slabs
  count : (s'.threads p).slabs.count = (s.threads p).slabs.count
  entry : ∀ token fd, (s'.threads p).slabs.lookup token ≠ some (c, fd)
  closed : s'.closed = s.closed

section Call

variable {s s' : Sys P} {p : P} {c : CoroutineRefMut} {fd : Fd} {interest : EventSet} {token : Token}
  {ok : Bool}

theorem waitEvent_full (at_pc : (s.threads p).pc = .exec c .user)
    (current : (s.threads p).curRunning = some c) (full : (s.threads p).slabs.count = MAX_TOKEN_NUM)
    (called : s.waitEvent p fd interest token ok = some s') :
    ¬ Blocks s' p ∧ s'.closed = fd :: s.closed := by
  simp only [Sys.waitEvent, step, at_pc, Sys.insertWaiter, current, full, if_true, Sys.panic,
    Sys.endClosure, Sys.yieldWith, Option.bind_some, Sys.setCoro_threads, Sys.setThread_threads,
    Function.update_self, Option.some.injEq] at called
  subst called
  refine ⟨?_, rfl⟩
  rintro ⟨d, t, registered⟩
  simp at registered

/-- With room in the slab the entry is there, whatever `register_opt` answers. -/
theorem waitEvent_room (at_pc : (s.threads p).pc = .exec c .user)
    (current : (s.threads p).curRunning = some c) (room : (s.threads p).slabs.count ≠ MAX_TOKEN_NUM)
    (called : s.waitEvent p fd interest token ok = some s') :
    (s'.threads p).slabs.lookup token = some (c, fd) ∧ (Blocks s' p ↔ ok = true) := by
  simp only [Sys.waitEvent, step, at_pc, Sys.insertWaiter, current, room, if_false,
    Option.bind_eq_some_iff, Option.map_eq_some_iff] at called
  obtain ⟨t, ⟨slabs, inserted, rfl⟩, registers⟩ := called
  have entry : slabs.lookup token = some (c, fd) := by
    rw [(Slab.insert_some inserted).2 token, if_pos rfl]
  simp only [Sys.setThread_threads, Function.update_self, Sys.register] at registers
  cases ok with
  | true =>
      simp only [if_true, Option.map_eq_some_iff] at registers
      obtain ⟨l, -, rfl⟩ := registers
      exact ⟨by simpa using entry, by simp [Blocks]⟩
  | false =>
      simp only [Bool.false_eq_true, if_false, Option.some.injEq] at registers
      subst registers
      exact ⟨by simpa using entry, by simp [Blocks]⟩

theorem waitEvent_undone_iff (at_pc : (s.threads p).pc = .exec c .user)
    (current : (s.threads p).curRunning = some c)
    (called : s.waitEvent p fd interest token ok = some s') :
    (¬ Blocks s' p → Undone s s' p c) ↔ (s.threads p).slabs.count ≠ MAX_TOKEN_NUM ∧ ok = true := by
  by_cases room : (s.threads p).slabs.count = MAX_TOKEN_NUM
  · obtain ⟨fails, closed⟩ := waitEvent_full at_pc current room called
    constructor
    · intro undone
      have unclosed := (undone fails).closed
      rw [closed] at unclosed
      exact absurd unclosed (List.cons_ne_self fd s.closed)
    · intro works
      exact absurd room works.1
  · obtain ⟨entry, blocks⟩ := waitEvent_room at_pc current room called
    constructor
    · intro undone
      refine ⟨room, blocks.1 ?_⟩
      exact Classical.byContradiction fun fails => (undone fails).entry token fd entry
    · intro works fails
      exact absurd (blocks.2 works.2) fails

end Call

/-! ## When every coroutine has finished -/

variable {s s' : Sys P} {place place' : Placing P} {a : Act P} {p q : P} {c : CoroutineRefMut}

/-- None is unfinished and none is being spawned. -/
structure AllFinished (s : Sys P) : Prop where
  finished : ∀ c, c < s.next → (s.coros c).finished ≠ 0
  spawned : ∀ p, (s.threads p).pc.spawning = false

/-- The thread is inside `schedule`. -/
def Pc.inSchedule : Pc → Bool
  | .user | .userSpawn | .done | .failed => false
  | _ => true

/-- The thread's own steps bring it to the `break`. -/
def Breaks (s : Sys P) (p : P) : Prop :=
  ∃ k t, (system P).exec s (List.replicate k (.tau p)) = some t ∧ (t.threads p).pc = .done

theorem Breaks.of_step (taken : step s (.tau p) = some s') (breaks : Breaks s' p) : Breaks s p := by
  obtain ⟨k, t, run, done⟩ := breaks
  refine ⟨k + 1, t, ?_, done⟩
  simpa [List.replicate_succ, Lts.exec, system, taken] using run

/-- What a thread looks at before it breaks. -/
structure Nothing (s : Sys P) (p : P) : Prop where
  queue : s.globalQueue.items = []
  slot : (s.threads p).newSpawned = none
  slab : (s.threads p).slabs.count = 0
  workCounts : s.workCounts = 0

theorem Nothing.setPc (nothing : Nothing s p) (pc : Pc) : Nothing (s.setPc p pc) p where
  queue := nothing.queue
  slot := by simpa using nothing.slot
  slab := by simpa using nothing.slab
  workCounts := nothing.workCounts

theorem Nothing.workCount (nothing : Nothing s p) (at_pc : (s.threads p).pc = .workCount) :
    Breaks s p := by
  have stops : step s (.tau p) = some (s.setPc p .done) := by
    simp [step, Sys.tau, at_pc, nothing.workCounts]
  exact .of_step stops ⟨0, _, rfl, by simp⟩

theorem Nothing.empty (nothing : Nothing s p) (at_pc : (s.threads p).pc = .empty) : Breaks s p := by
  have counts : step s (.tau p) = some (s.setPc p .workCount) := by
    simp [step, Sys.tau, at_pc, nothing.slab]
  exact .of_step counts ((nothing.setPc .workCount).workCount (by simp))

theorem Nothing.pop (nothing : Nothing s p) (at_pc : (s.threads p).pc = .pop) : Breaks s p := by
  have finds : step s (.tau p) = some (s.setPc p .empty) := by
    simp [step, Sys.tau, at_pc, Sys.popQueue, BoundedQueue.pop_none.2 nothing.queue]
  exact .of_step finds ((nothing.setPc .empty).empty (by simp))

theorem Nothing.drain (nothing : Nothing s p) (at_pc : (s.threads p).pc = .drain) : Breaks s p := by
  have drained : step s (.tau p) = some (s.setPc p .pop) := by
    simp [step, Sys.tau, at_pc, Sys.drain, nothing.slot]
  exact .of_step drained ((nothing.setPc .pop).pop (by simp))

theorem Nothing.handled (nothing : Nothing s p) (at_pc : (s.threads p).pc = .handle []) :
    Breaks s p := by
  have handled : step s (.tau p) = some (s.setPc p .drain) := by
    simp [step, Sys.tau, at_pc]
  exact .of_step handled ((nothing.setPc .drain).drain (by simp))

theorem Nothing.free (nothing : Nothing s p) (at_pc : (s.threads p).pc = .free c) {k : Context P}
    (saved : (s.coros c).cell = .saved k) : Breaks s p := by
  let x : Coroutine P := { s.coros c with cell := .freed, dropped := (s.coros c).dropped + 1 }
  have frees : step s (.tau p) = some ((s.setPc p .drain).setCoro c x) := by
    simp [step, Sys.tau, at_pc, Sys.dropBox, saved, x]
  have left : Nothing ((s.setPc p .drain).setCoro c x) p :=
    ⟨nothing.queue, (nothing.setPc .drain).slot, (nothing.setPc .drain).slab, nothing.workCounts⟩
  exact .of_step frees (left.drain (by simp))

omit [DecidableEq P] in
theorem AllFinished.none_live (finished : AllFinished s) (c : CoroutineRefMut) : c ∉ s.live := by
  intro live
  obtain ⟨born, unfinished⟩ := Sys.mem_live.1 live
  exact finished.finished c born unfinished

omit [DecidableEq P] in
theorem AllFinished.slab (finished : AllFinished s) (inv : Placed s place)
    (none_left : NoLeak s place) (p : P) : (s.threads p).slabs.count = 0 := by
  apply Slab.count_eq_zero.2
  intro token
  cases found : (s.threads p).slabs.lookup token with
  | none => rfl
  | some entry =>
      refine absurd ?_ (finished.none_live entry.1)
      rcases inv.entry none_left found with waits | ⟨-, inside⟩
      · exact inv.live_of_place (.inr (.inr ⟨p, token, waits⟩))
      · exact inv.live_of_hand inside.hand inside.kept

variable [Fintype P]

omit [DecidableEq P] in
theorem AllFinished.nothing (finished : AllFinished s) (inv : Placed s place)
    (none_left : NoLeak s place) (balanced : Balanced s) (p : P) : Nothing s p where
  queue := by
    apply List.eq_nil_iff_forall_not_mem.2
    intro c queued
    exact finished.none_live c (inv.live_of_place (.inl ((inv.queue.mem c).1 queued)))
  slot := by
    cases filled : (s.threads p).newSpawned with
    | none => rfl
    | some c =>
        have at_slot := (inv.slot p c).1 filled
        exact absurd (inv.live_of_place (.inr (.inl ⟨p, at_slot⟩))) (finished.none_live c)
  slab := finished.slab inv none_left p
  workCounts := by
    have live : s.live = ∅ := Finset.eq_empty_of_forall_notMem finished.none_live
    have spawning : s.spawning = ∅ := by simp [Sys.spawning, finished.spawned]
    rw [balanced, live, spawning]
    rfl

/-- A thread goes to `run_once` only with an entry in its slab, and nobody else takes it
out. -/
def Polls (s : Sys P) : Prop := ∀ p, (s.threads p).pc = .runOnce → (s.threads p).slabs.count ≠ 0

omit [Fintype P] in
theorem Effect.polls (effect : Effect s place a s' place') (polls : Polls s) : Polls s' := by
  intro q at_poll
  obtain ⟨slabs, same | ⟨-, some_entry⟩ | ⟨counts, -⟩ | ⟨stops, -⟩⟩ :=
    effect.decided (q := q) (by simp [at_poll, Pc.Decided])
  · rw [slabs]
    exact polls q (same ▸ at_poll)
  · rwa [slabs]
  · simp [at_poll] at counts
  · simp [at_poll] at stops

theorem AllFinished.breaks (finished : AllFinished s) (inv : Placed s place)
    (none_left : NoLeak s place) (balanced : Balanced s) (polls : Polls s)
    (safe : (s.threads p).pc ≠ .crashed) (inside : (s.threads p).pc.inSchedule = true) :
    Breaks s p := by
  have nothing := finished.nothing inv none_left balanced p
  have not_held (at_pc : ∀ c, (s.threads p).pc ≠ .free c) : (s.threads p).pc.hand = none := by
    cases held : (s.threads p).pc.hand with
    | none => rfl
    | some c => exact absurd (inv.live_of_hand held (at_pc c)) (finished.none_live c)
  cases at_pc : (s.threads p).pc with
  | user | userSpawn | done | failed => simp [at_pc, Pc.inSchedule] at inside
  | crashed => exact absurd at_pc safe
  | pop => exact nothing.pop at_pc
  | empty => exact nothing.empty at_pc
  | workCount => exact nothing.workCount at_pc
  | drain => exact nothing.drain at_pc
  | runOnce => exact absurd nothing.slab (polls p at_pc)
  | handle tokens =>
      cases tokens with
      | nil => exact nothing.handled at_pc
      | cons token rest =>
          obtain ⟨c, waits⟩ := (inv.io p).batch token (by simp [at_pc, Pc.batch])
          exact absurd (inv.live_of_place (.inr (.inr ⟨p, token, waits⟩))) (finished.none_live c)
  | free c =>
      have life := inv.hand_life (c := c) (p := p) (by rw [at_pc]; rfl)
      simp only [Thread.HandLife, at_pc] at life
      obtain ⟨⟨st, saved⟩, -⟩ := life
      exact nothing.free at_pc saved
  | deregister | wake | runTask | exec | back | requeue | finish =>
      have none := not_held (by simp [at_pc])
      simp [at_pc, Pc.hand] at none

/-- Registrations succeed, and every spawn goes through `Scheduler::spawn_opts`. -/
def Unrefused (s : Sys P) (a : Act P) : Prop := Accepted s a ∧ CountsSpawns s a

/-- Everything `schedule` stops for, at the end of a run whose registrations succeed. -/
theorem AllFinished.reach (reached : (system P).Reach Unrefused .init s) (finished : AllFinished s) :
    ∀ p, (s.threads p).slabs.count = 0 ∧ ((s.threads p).pc.inSchedule = true → Breaks s p) := by
  obtain ⟨place, inv, ⟨none_left, safe⟩, balanced, polls⟩ := reach_placed
    (I := fun s place => (NoLeak s place ∧ ∀ p, (s.threads p).pc ≠ .crashed) ∧ Balanced s ∧ Polls s)
    reached ⟨⟨.init, fun _ => by simp [Sys.init]⟩, .init, fun _ at_poll => by cases at_poll⟩
    fun _ _ _ _ _ _ inv holds meets effect =>
      ⟨⟨holds.1.1.step inv meets.1 effect, effect.safe holds.1.2⟩, holds.2.1.step inv meets.2 effect,
        effect.polls holds.2.2⟩
  intro p
  exact ⟨finished.slab inv none_left p, finished.breaks inv none_left balanced polls (safe p)⟩

/-- A call of `wait_event` is atomic exactly when it does not fail; and in runs without a
failed registration, once all coroutines have finished, the slabs are empty and every
thread inside `schedule` breaks. -/
theorem wait_event_atomic :
    (∀ (s s' : Sys P) (p : P) (c : CoroutineRefMut) (fd : Fd) (interest : EventSet) (token : Token)
        (ok : Bool), (s.threads p).pc = .exec c .user → (s.threads p).curRunning = some c →
      s.waitEvent p fd interest token ok = some s' →
        ((¬ Blocks s' p → Undone s s' p c) ↔
          (s.threads p).slabs.count ≠ MAX_TOKEN_NUM ∧ ok = true)) ∧
    ∀ s : Sys P, (system P).Reach Unrefused .init s → AllFinished s →
      ∀ p, (s.threads p).slabs.count = 0 ∧ ((s.threads p).pc.inSchedule = true → Breaks s p) := by
  constructor
  · intro s s' p c fd interest token ok at_pc current called
    exact waitEvent_undone_iff at_pc current called
  · intro s reached finished
    exact finished.reach reached

section OneThread

/-- A coroutine that waits and is refused, and returns; then the thread's loop. -/
def refusedWait : List (Act (Threads 1)) :=
  oneCoroutine.take 8 ++ [.waitEvent none 5 EventSet.readable 0, .register none false, .ret none,
    .tau none, .tau none, .tau none, .tau none, .tau none, .tau none]

theorem AllFinished.of_one {s : Sys (Threads 1)} (finished : ∀ c < s.next, (s.coros c).finished ≠ 0)
    (at_pc : (s.threads none).pc.spawning = false) : AllFinished s where
  finished := finished
  spawned p := by
    cases p with
    | none => exact at_pc
    | some i => exact i.elim0

/-- A coroutine spawns another, which waits for descriptor 5, and returns; the event comes, and
the other returns. -/
def waitDelivered : List (Act (Threads 1)) :=
  .flatten [
    [.spawn none, .spawnInner none, .enter none], .replicate 5 (.tau none),
    [.spawn none, .spawnInner none], .replicate 4 (.tau none),
    [.waitEvent none 5 EventSet.readable 0, .register none true], .replicate 5 (.tau none),
    [.ret none], .replicate 6 (.tau none), [.setHolds 5 EventSet.readable true, .poll none [5]],
    .replicate 7 (.tau none), [.ret none], .replicate 2 (.tau none)]

/-- An accepted call blocks; and a thread that frees the last coroutine breaks. -/
theorem accepted_wait_atomic :
    (∃ s s', (system (Threads 1)).exec .init (waitDelivered.take 14) = some s ∧
      s.waitEvent none 5 EventSet.readable 0 true = some s' ∧
      (¬ Blocks s' none → Undone s s' none 1)) ∧
    ∃ s, (system (Threads 1)).exec .init waitDelivered = some s ∧ s.next = 2 ∧
      (s.threads none).slabs.count = 0 ∧ Breaks s none := by
  constructor
  · have waits : ((system (Threads 1)).exec .init (waitDelivered.take 14)).any (fun s =>
        (s.threads none).pc = .exec 1 .user ∧ (s.threads none).curRunning = some 1 ∧
          (s.threads none).slabs.count ≠ MAX_TOKEN_NUM ∧
          (s.waitEvent none 5 EventSet.readable 0 true).isSome = true) = true := by
      decide +kernel
    obtain ⟨s, run, accepts⟩ := (Option.any_eq_true _ _).1 waits
    obtain ⟨at_pc, current, room, calls⟩ := of_decide_eq_true accepts
    obtain ⟨s', called⟩ := Option.isSome_iff_exists.1 calls
    exact ⟨s, s', run, called,
      (wait_event_atomic.1 s s' none 1 5 EventSet.readable 0 true at_pc current called).2 ⟨room, rfl⟩⟩
  · have ends : ((system (Threads 1)).exec .init waitDelivered).any (fun s =>
        s.next = 2 ∧ (∀ c < s.next, (s.coros c).finished ≠ 0) ∧ (s.threads none).pc = .free 1) =
          true := by
      decide +kernel
    obtain ⟨s, run, frees⟩ := (Option.any_eq_true _ _).1 ends
    obtain ⟨next, finished, at_pc⟩ := of_decide_eq_true frees
    have unrefused : ∀ a ∈ waitDelivered, ∀ s, Unrefused s a := by
      simp [waitDelivered, Unrefused, Accepted, CountsSpawns]
    have all := AllFinished.of_one finished (by rw [at_pc]; rfl)
    have stops := wait_event_atomic.2 s (.of_exec run (Lts.meets_of_forall unrefused)) all none
    exact ⟨s, run, next, stops.1, stops.2 (by rw [at_pc]; rfl)⟩

/-- The entry of a refused call is left, and the thread polls for it. -/
theorem refused_never_breaks : ¬ ∀ s : Sys (Threads 1), (system (Threads 1)).Reach (InRun none) .init s →
    AllFinished s → ∀ p, (s.threads p).slabs.count = 0 ∧
      ((s.threads p).pc.inSchedule = true → Breaks s p) := by
  intro all
  have meets : (system (Threads 1)).Meets (InRun none) .init refusedWait := by decide +kernel
  have ends : ((system (Threads 1)).exec .init refusedWait).any (fun s =>
      (∀ c < s.next, (s.coros c).finished ≠ 0) ∧ (s.threads none).pc = .runOnce ∧
        (s.threads none).slabs.count = 1) = true := by
    decide +kernel
  obtain ⟨s, run, polls⟩ := (Option.any_eq_true _ _).1 ends
  obtain ⟨finished, at_pc, one⟩ := of_decide_eq_true polls
  have finishes := AllFinished.of_one finished (by rw [at_pc]; rfl)
  have empty := (all s (.of_exec run meets) finishes none).1
  rw [one] at empty
  cases empty

end OneThread

end SimpleSched.Runtime
