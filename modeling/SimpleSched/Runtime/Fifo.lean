/-
# Runtime.Fifo -- the global queue over whole runs

Every thread pushes to the one queue and pops from it.  Between any two states of a run
what is popped is what was queued, in the order in which it was pushed, by whichever
threads (`queue_fifo`): a queued coroutine is popped as the `i`-th, where `i` were
queued before it, and `i` is less than the size of the queue.
-/
import SimpleSched.Theory.Fifo
import SimpleSched.Runtime.SpawnOrder

namespace SimpleSched.Runtime

set_option autoImplicit false

open Mio Theory

variable {P : Type}

def Event.push : Event P → List CoroutineRefMut
  | .pushed _ c => [c]
  | _ => []

def Event.pop : Event P → List CoroutineRefMut
  | .popped _ c => [c]
  | _ => []

/-- What is popped in a run with the events `tr`. -/
def pops (tr : List (Event P)) : List CoroutineRefMut := tr.flatMap Event.pop

/-- What becomes of the queue between `s` and `t`. -/
structure QueueFifo (s t : Sys P) (tr : List (Event P)) : Prop where
  account : Fifo Event.push Event.pop s.globalQueue.items tr t.globalQueue.items
  nodup : t.globalQueue.items.Nodup
  /-- what is queued at `i` is popped as the `i`-th and not before, or still queued with
  that many fewer before it -/
  turn : ∀ i c, s.globalQueue.items[i]? = some c → i < GLOBAL_QUEUE_SIZE ∧
    (∀ j, j < i → (pops tr)[j]? ≠ some c) ∧ ((pops tr)[i]? = some c ∨
      (pops tr).length ≤ i ∧ t.globalQueue.items[i - (pops tr).length]? = some c)

variable [DecidableEq P] {s s' : Sys P} {place place' : Placing P} {a : Act P} {p : P}
  {c : CoroutineRefMut}

omit [DecidableEq P] in
/-- A thread that pushes says so, if there is room. -/
theorem event_of_pushing (pushing : (s.threads p).pc.pushing = some c) :
    event s (.tau p) = (s.globalQueue.push c).map fun _ => .pushed p c := by
  cases at_pc : (s.threads p).pc with
  | wake d tokens | requeue d =>
      obtain rfl : d = c := by simpa [at_pc, Pc.pushing] using pushing
      simp [event, at_pc]
  | _ => simp [at_pc, Pc.pushing] at pushing

omit [DecidableEq P] in
theorem Quiet.event {pc : Pc} (quiet : Quiet s p a pc) : Runtime.event s a = none := by
  cases quiet with
  | empty at_pc none_queued =>
      simp [Runtime.event, at_pc, BoundedQueue.pop_none.2 none_queued]
  | enter at_pc | sched at_pc | block at_pc | poll at_pc | count at_pc | stop at_pc | sleep at_pc
  | polled at_pc | drained at_pc | pollErr at_pc | refused at_pc => simp [Runtime.event, at_pc]
  | leave => rfl

/-- What a step does to the queue is what it emits. -/
theorem Effect.fifo (effect : Effect s place a s' place') {xs : List CoroutineRefMut}
    {tr : List (Event P)} (fifo : Fifo Event.push Event.pop xs tr s.globalQueue.items) :
    Fifo Event.push Event.pop xs (tr ++ (event s a).toList) s'.globalQueue.items := by
  have silent (none_emitted : event s a = none)
      (same : s'.globalQueue.items = s.globalQueue.items) :
      Fifo Event.push Event.pop xs (tr ++ (event s a).toList) s'.globalQueue.items := by
    rw [none_emitted, same]
    simpa using fifo
  cases effect with
  | quiet quiet => exact silent quiet.event rfl
  | full pushing full => exact silent (by rw [event_of_pushing pushing, full]; rfl) rfl
  | spawnOut from_pc | spawnIn from_pc =>
      rcases from_pc with ⟨rfl, -⟩ | ⟨rfl, -⟩ <;> exact silent rfl rfl
  | yield at_pc yields => cases yields <;> exact silent (by simp [event, at_pc]) rfl
  | ended _ ends => cases ends <;> exact silent rfl rfl
  | fetchAdd | inserted | registered | setHolds | polled => exact silent rfl rfl
  | handled at_pc | deregistered at_pc | drained at_pc | took at_pc | left at_pc | finished at_pc
  | freed at_pc => exact silent (by simp [event, at_pc]) rfl
  | @resumed p c k at_pc =>
      have emits : event s (.tau p) = some (.resumed p c) := by simp [event, at_pc]
      rw [emits]
      simpa using fifo.other (e := .resumed p c) rfl rfl
  | @pushed p c q pushing pushed =>
      rw [event_of_pushing pushing, pushed]
      exact fifo.step (by simp [BoundedQueue.push_some pushed, Event.push, Event.pop])
  | @popped p c q at_pc popped =>
      have emits : event s (.tau p) = some (.popped p c) := by simp [event, at_pc, popped]
      rw [emits]
      rw [BoundedQueue.pop_some popped] at fifo
      exact fifo.step (by simp [Event.push, Event.pop])

/-- Between any two states of any run the global queue is first in, first out. -/
theorem queue_fifo (reached : (system P).Reach Lts.anyStep .init s) {t : Sys P × List (Event P)}
    (later : ((system P).traced event).Reach Lts.anyStep (s, []) t) : QueueFifo s t.1 t.2 := by
  have whole {t : Sys P × List (Event P)}
      (later : ((system P).traced event).Reach Lts.anyStep (s, []) t) :
      (system P).Reach Lts.anyStep .init t.1 := reached.trans later.untraced
  have account : Fifo Event.push Event.pop s.globalQueue.items t.2 t.1.globalQueue.items := by
    refine later.invariant
      (I := fun t => Fifo Event.push Event.pop s.globalQueue.items t.2 t.1.globalQueue.items) .start ?_
    rintro ⟨u, tr⟩ a ⟨u', tr'⟩ before fifo - taken
    obtain ⟨stepped, rfl⟩ := Lts.traced_some taken
    obtain ⟨place, inv⟩ := placed_of_reach (whole before)
    obtain ⟨place', effect⟩ := effect_of_step (Registers.reach (whole before)) inv stepped
    exact effect.fifo fifo
  have nodup {u : Sys P} (reached : (system P).Reach Lts.anyStep .init u) :
      u.globalQueue.items.Nodup := by
    obtain ⟨place, inv⟩ := placed_of_reach reached
    exact inv.queue.nodup
  refine ⟨account, nodup (whole later), ?_⟩
  intro i c at_i
  have inside : i < s.globalQueue.items.length := (List.getElem?_eq_some_iff.1 at_i).1
  exact ⟨Nat.lt_of_lt_of_le inside s.globalQueue.bounded,
    fun j earlier => account.not_taken_before (nodup reached) at_i earlier, account.taken_at at_i⟩

/-- A coroutine has spawned another, and been pushed. -/
def queuedBehind : List (Act Unit) :=
  [.spawn (), .spawnInner (), .enter (), .tau (), .tau (), .tau (), .tau (), .tau (), .spawn (),
    .spawnInner (), .tau (), .tau ()]

/-- The other is pushed behind it, and it is popped first. -/
theorem queued_behind_fifo : ∃ s t, (system Unit).exec .init queuedBehind = some s ∧
    ((system Unit).traced event).exec (s, []) [.tau (), .tau (), .sched (), .tau (), .tau (), .tau (),
      .tau ()] = some t ∧
    t.2 = [.resumed () 1, .pushed () 1, .popped () 0] ∧ QueueFifo s t.1 t.2 := by
  have runs : ((system Unit).exec .init queuedBehind).any (fun s =>
      (((system Unit).traced event).exec (s, []) [.tau (), .tau (), .sched (), .tau (), .tau (), .tau (),
        .tau ()]).any fun t => t.2 = [.resumed () 1, .pushed () 1, .popped () 0]) = true := by
    decide +kernel
  obtain ⟨s, run, rest⟩ := (Option.any_eq_true _ _).1 runs
  obtain ⟨t, goes, events⟩ := (Option.any_eq_true _ _).1 rest
  exact ⟨s, t, run, goes, of_decide_eq_true events,
    queue_fifo (.of_exec_any run) (.of_exec_any goes)⟩

end SimpleSched.Runtime
