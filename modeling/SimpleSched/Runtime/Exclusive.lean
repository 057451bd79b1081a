/-
# Runtime.Exclusive -- a coroutine is in one place

Handles are copied freely, so who owns a coroutine is not in the types.  `Exclusive`
says it of a state: counted over the queue, the slots, the hands and the slabs a
coroutine occurs at most once, inside `wait_event` twice (it still runs and is in the
slab of the processor it runs on); it is queued only with its context saved; it is
finished and freed once, and nothing holds it afterwards.

The placement gives all of it except that slabs hold nothing else (`NoLeak`), and
that stands exactly as long as no registration fails: `wait_event` returns the error
with its entry left in the slab.
-/
import SimpleSched.Runtime.Waits
import Mathlib.Algebra.Order.BigOperators.Group.Finset

namespace SimpleSched.Runtime

set_option autoImplicit false

open Mio Theory

variable {P : Type}

/-- How often a processor has the coroutine: in its slot, its hand and its slab. -/
def Thread.occurrences (t : Thread) (c : CoroutineRefMut) : Nat :=
  (if t.newSpawned = some c then 1 else 0) + (if t.pc.hand = some c then 1 else 0) +
    t.slabs.countP fun entry => entry.1 = c

def Sys.occurrences [Fintype P] (s : Sys P) (c : CoroutineRefMut) : Nat :=
  s.globalQueue.items.count c + ∑ p, (s.threads p).occurrences c

/-- `c` is inside `wait_event` on `p`, from `slabs.insert` until `run_task(c)` has
taken the `Blocked` it switched back with. -/
def InWaitEvent (s : Sys P) (p : P) (c : CoroutineRefMut) (token : Token) : Prop :=
  (∃ fd interest, (s.threads p).pc = .exec c (.inserted token fd interest)) ∨
    (s.threads p).pc = .exec c (.registered token) ∨
    (s.threads p).pc = .back c ∧ (s.coros c).cell = .saved (.waitEvent p token)

structure Exclusive [Fintype P] (s : Sys P) : Prop where
  /-- one processor has it in `run_task` -/
  one_hand : ∀ c p q, (s.threads p).pc.hand = some c → (s.threads q).pc.hand = some c → p = q
  /-- it occurs once, inside `wait_event` also in the slab of the same processor -/
  once : ∀ c, s.occurrences c ≤ 1 ∨ s.occurrences c = 2 ∧
    ∃ p token fd, InWaitEvent s p c token ∧ (s.threads p).slabs.lookup token = some (c, fd)
  /-- it is pushed, and queued, with its context saved and not executing -/
  saved : ∀ c, c ∈ s.globalQueue.items ∨ (∃ p, (s.threads p).pc.pushing = some c) →
    (∃ k, (s.coros c).cell = .saved k) ∧ ∀ p pt, (s.threads p).pc ≠ .exec c pt
  /-- it is finished once and freed once, not while it executes -/
  finished : ∀ c, (s.coros c).finished ≤ 1 ∧ (s.coros c).dropped ≤ (s.coros c).finished
  executing : ∀ c p pt, (s.threads p).pc = .exec c pt → (s.coros c).finished = 0
  /-- and then nothing holds it -/
  gone : ∀ c, (s.coros c).finished ≠ 0 → c ∉ s.globalQueue.items ∧
    ∀ p, (s.threads p).newSpawned ≠ some c ∧
      ∀ token entry, (s.threads p).slabs.lookup token = some entry → entry.1 ≠ c
  /-- freed memory is not used -/
  safe : ∀ p, (s.threads p).pc ≠ .crashed

variable {s s' : Sys P} {place place' : Placing P} {a : Act P} {p q : P} {c : CoroutineRefMut}

/-! ## Entries and places -/

theorem NoLeak.entry (none_left : NoLeak s place) {token : Token} {entry : CoroutineRefMut × Fd}
    (found : (s.threads p).slabs.lookup token = some entry) :
    place entry.1 = .wait p token ∨ InWaitEvent s p entry.1 token := by
  rcases none_left p token entry.1 entry.2 found with (waits | at_pc | back) | ⟨interest, at_pc⟩
  · exact .inl waits
  · exact .inr (.inr (.inl at_pc))
  · exact .inr (.inr (.inr back))
  · exact .inr (.inl ⟨_, _, at_pc⟩)

theorem InWaitEvent.hand {token : Token} (inside : InWaitEvent s p c token) :
    (s.threads p).pc.hand = some c := by
  rcases inside with ⟨fd, interest, at_pc⟩ | at_pc | ⟨at_pc, -⟩ <;> rw [at_pc] <;> rfl

theorem InWaitEvent.kept {token : Token} (inside : InWaitEvent s p c token) :
    (s.threads p).pc ≠ .free c := by
  rcases inside with ⟨fd, interest, at_pc⟩ | at_pc | ⟨at_pc, -⟩ <;> simp [at_pc]

theorem InWaitEvent.token {t t' : Token} (inside : InWaitEvent s p c t)
    (inside' : InWaitEvent s p c t') : t = t' := by
  rcases inside with ⟨fd, i, at_pc⟩ | at_pc | ⟨at_pc, saved⟩ <;>
    rcases inside' with ⟨fd', i', at_pc'⟩ | at_pc' | ⟨at_pc', saved'⟩ <;> simp_all

/-- The processor that has the coroutine. -/
def Place.owner : Place P → Option P
  | .slot p | .hand p | .wait p _ => some p
  | _ => none

/-- An entry is that of a coroutine that waits, or is about to, on this processor. -/
theorem Placed.entry (inv : Placed s place) (none_left : NoLeak s place) {token : Token}
    {entry : CoroutineRefMut × Fd} (found : (s.threads p).slabs.lookup token = some entry) :
    place entry.1 = .wait p token ∨ place entry.1 = .hand p ∧ InWaitEvent s p entry.1 token :=
  (none_left.entry found).imp_right fun inside => ⟨inv.at_hand inside.hand, inside⟩

/-- A slab has at most one entry of a coroutine. -/
theorem Placed.slab_count (inv : Placed s place) (none_left : NoLeak s place) :
    (s.threads p).slabs.countP (fun entry => entry.1 = c) ≤ 1 := by
  apply Slab.countP_le_one
  intro t entry t' entry' found mine found' mine'
  obtain rfl : entry.1 = c := by simpa using mine
  have same : entry'.1 = entry.1 := by simpa using mine'
  rcases inv.entry none_left found with waits | ⟨held, inside⟩ <;>
    rcases inv.entry none_left found' with waits' | ⟨held', inside'⟩ <;> rw [same] at * <;>
    simp_all
  exact inside.token inside'

/-- It has none of a coroutine that is in a slot or elsewhere. -/
theorem Placed.slab_free (inv : Placed s place) (none_left : NoLeak s place)
    (waits : ∀ token, place c ≠ .wait p token) (hand : place c ≠ .hand p) :
    (s.threads p).slabs.countP (fun entry => entry.1 = c) = 0 := by
  refine Slab.countP_eq_zero fun t entry found => decide_eq_false ?_
  intro mine
  subst mine
  rcases inv.entry none_left found with here | ⟨held, -⟩
  · exact waits t here
  · exact hand held

theorem Placed.thread_free (inv : Placed s place) (none_left : NoLeak s place)
    (other : (place c).owner ≠ some p) : (s.threads p).occurrences c = 0 := by
  have slot : (s.threads p).newSpawned ≠ some c := fun filled =>
    other (by rw [(inv.slot p c).1 filled]; rfl)
  have hand : (s.threads p).pc.hand ≠ some c := fun held =>
    other (by rw [inv.at_hand held]; rfl)
  have slab := inv.slab_free (c := c) (p := p) none_left
    (fun token waits => other (by rw [waits]; rfl)) (fun held => other (by rw [held]; rfl))
  simp [Thread.occurrences, slot, hand, slab]

variable [Fintype P] [DecidableEq P]

theorem Placed.occurrences (inv : Placed s place) (none_left : NoLeak s place) :
    s.occurrences c = (if place c = .queue then 1 else 0) +
      match (place c).owner with
      | none => 0
      | some p => (s.threads p).occurrences c := by
  rw [Sys.occurrences, inv.queue.count c]
  congr 1
  cases owner : (place c).owner with
  | none =>
      exact Finset.sum_eq_zero fun p _ => inv.thread_free none_left (by simp [owner])
  | some p =>
      refine Finset.sum_eq_single p ?_ (by simp)
      intro q _ other
      exact inv.thread_free none_left (by simpa [owner] using Ne.symm other)

theorem Placed.once (inv : Placed s place) (none_left : NoLeak s place) (c : CoroutineRefMut) :
    s.occurrences c ≤ 1 ∨ s.occurrences c = 2 ∧
      ∃ p token fd, InWaitEvent s p c token ∧ (s.threads p).slabs.lookup token = some (c, fd) := by
  rw [inv.occurrences none_left]
  cases at_c : place c with
  | unborn | parked | lost | freed | queue => simp [Place.owner]
  | slot p =>
      have hand : (s.threads p).pc.hand ≠ some c := fun held => by
        simpa [at_c] using inv.at_hand held
      have slab := inv.slab_free (c := c) (p := p) none_left (by simp [at_c]) (by simp [at_c])
      left
      have filled := (inv.slot p c).2 at_c
      simp [Place.owner, Thread.occurrences, hand, slab, filled]
  | wait p token =>
      have slot : (s.threads p).newSpawned ≠ some c := fun filled => by
        simpa [at_c] using (inv.slot p c).1 filled
      have hand : (s.threads p).pc.hand ≠ some c := fun held => by
        simpa [at_c] using inv.at_hand held
      have slab := inv.slab_count (c := c) (p := p) none_left
      left
      simpa [Place.owner, Thread.occurrences, slot, hand] using slab
  | hand p =>
      have slot : (s.threads p).newSpawned ≠ some c := fun filled => by
        simpa [at_c] using (inv.slot p c).1 filled
      have hand : (s.threads p).pc.hand = some c := (inv.hand p c).2 at_c
      have slab := inv.slab_count (c := c) (p := p) none_left
      simp only [Place.owner, Thread.occurrences, slot, hand, reduceIte, Nat.zero_add, reduceCtorEq]
      by_cases vacant : ((s.threads p).slabs.countP fun entry => entry.1 = c) = 0
      · exact .inl (by rw [vacant])
      · refine .inr ⟨by rw [Nat.le_antisymm slab (Nat.one_le_iff_ne_zero.2 vacant)], p, ?_⟩
        by_contra outside
        refine vacant (Slab.countP_eq_zero fun t entry found => decide_eq_false fun mine => outside ?_)
        subst mine
        rcases inv.entry none_left found with waits | ⟨-, inside⟩
        · simp [at_c] at waits
        · exact ⟨t, entry.2, inside, found⟩

omit [Fintype P] in
theorem Effect.safe (effect : Effect s place a s' place') (safe : ∀ p, (s.threads p).pc ≠ .crashed)
    (p : P) : (s'.threads p).pc ≠ .crashed := by
  have update {q : P} {t : Thread} (goes : t.pc ≠ .crashed) :
      (Function.update s.threads q t p).pc ≠ .crashed := by
    by_cases same : p = q
    · subst same; simpa using goes
    · rw [Function.update_of_ne same]; exact safe p
  cases effect with
  | full | setHolds => exact safe p
  | quiet quiet => cases quiet <;> exact update (by simp)
  | fetchAdd from_pc => rcases from_pc with ⟨-, rfl⟩ | ⟨h, -, rfl⟩ <;> exact update (by simp)
  | spawnOut | spawnIn => simpa [Sys.boxSpawned, Sys.switchBack] using update (by simp)
  | @pushed q c _ pushing =>
      apply update
      cases at_pc : (s.threads q).pc <;> simp_all [Pc.pushing, Pc.pushed]
  | @took q c k =>
      apply update
      rcases Sys.runTaskArm_cases c k.result with arm | arm | arm <;> simp [arm]
  | yield | ended | inserted | registered | polled | handled | deregistered | popped | drained
  | resumed | left | finished | freed => exact update (by simp)

theorem Placed.exclusive (inv : Placed s place) (none_left : NoLeak s place)
    (safe : ∀ p, (s.threads p).pc ≠ .crashed) : Exclusive s where
  one_hand c p q held held' := by simpa [inv.at_hand held] using inv.at_hand held'
  once := inv.once none_left
  saved c ready := by
    have at_exec {p : P} {pt : Point} (at_pc : (s.threads p).pc = .exec c pt) : place c = .hand p :=
      inv.at_hand (by rw [at_pc]; rfl)
    rcases ready with queued | ⟨p, pushing⟩
    · have at_queue := (inv.queue.mem c).1 queued
      have life := inv.life c
      rw [at_queue] at life
      obtain ⟨k, saved, -⟩ := life
      exact ⟨⟨k, saved⟩, fun q pt at_pc => by simpa [at_queue] using at_exec at_pc⟩
    · have held := inv.at_hand (Pc.hand_of_pushing pushing)
      have life := inv.hand_life (Pc.hand_of_pushing pushing)
      refine ⟨?_, ?_⟩
      · cases at_pc : (s.threads p).pc <;> simp_all [Pc.pushing, Thread.HandLife, Coroutine.Ready]
        all_goals
          obtain ⟨k, saved, -⟩ := life
          exact ⟨k, saved⟩
      · intro q pt at_pc
        obtain rfl : p = q := by simpa [held] using at_exec at_pc
        simp [at_pc, Pc.pushing] at pushing
  finished c := by
    rcases inv.past c with ⟨e, past⟩ | ⟨p, -, past⟩ | ⟨-, past⟩ <;>
      rw [past.finished, past.dropped] <;> omega
  executing c p pt at_pc := by
    have life := inv.hand_life (c := c) (p := p) (by rw [at_pc]; rfl)
    simp only [Thread.HandLife, at_pc] at life
    exact life.2.2.1.finished
  gone c finished := by
    have away : (∃ p, (s.threads p).pc = .free c ∧ place c = .hand p) ∨ place c = .freed := by
      rcases inv.past c with ⟨e, past⟩ | ⟨p, at_pc, -⟩ | ⟨freed, -⟩
      · exact absurd past.finished finished
      · exact .inl ⟨p, at_pc, inv.at_hand (by rw [at_pc]; rfl)⟩
      · exact .inr freed
    refine ⟨?_, fun p => ⟨?_, ?_⟩⟩
    · intro queued
      have at_queue := (inv.queue.mem c).1 queued
      rcases away with ⟨q, -, held⟩ | freed <;> simp_all
    · intro filled
      have at_slot := (inv.slot p c).1 filled
      rcases away with ⟨q, -, held⟩ | freed <;> simp_all
    · intro token entry found mine
      subst mine
      rcases inv.entry none_left found with waits | ⟨held, inside⟩
      · rcases away with ⟨q, -, held⟩ | freed <;> simp_all
      · rcases away with ⟨q, at_pc, held'⟩ | freed
        · obtain rfl : p = q := by simpa [held] using held'
          exact inside.kept at_pc
        · simp [held] at freed
  safe := safe

/-! ## Runs in which registrations succeed -/

/-- `register_opt` does not fail. -/
def Accepted (_ : Sys P) (a : Act P) : Prop := ∀ p, a ≠ .register p false

theorem Accepted.exclusive (reached : (system P).Reach Accepted .init s) : Exclusive s := by
  obtain ⟨place, inv, none_left, safe⟩ := reach_placed
    (I := fun s place => NoLeak s place ∧ ∀ p, (s.threads p).pc ≠ .crashed) reached
    ⟨.init, fun _ => by simp [Sys.init]⟩
    fun _ _ _ _ _ _ inv holds accepted effect =>
      ⟨holds.1.step inv accepted effect, effect.safe holds.2⟩
  exact inv.exclusive none_left safe

omit [DecidableEq P] in
/-- A coroutine that goes on in its closure with an entry in a slab is twice in the
system. -/
theorem Exclusive.not_leaked (exclusive : Exclusive s) {t : Token} {f : Fd}
    (at_pc : (s.threads p).pc = .exec c .user) : (s.threads p).slabs.lookup t ≠ some (c, f) := by
  intro found
  have hand : (s.threads p).pc.hand = some c := by rw [at_pc]; rfl
  have entry : 0 < (s.threads p).slabs.countP fun entry => entry.1 = c :=
    Slab.countP_pos found (by simp)
  have here : 2 ≤ (s.threads p).occurrences c := by
    simp only [Thread.occurrences, hand, if_true]
    exact Nat.add_le_add (Nat.le_add_left ..) entry
  have total : (s.threads p).occurrences c ≤ s.occurrences c :=
    Nat.le_trans (Finset.single_le_sum (f := fun q => (s.threads q).occurrences c)
      (fun _ _ => Nat.zero_le _) (Finset.mem_univ p)) (Nat.le_add_left ..)
  rcases exclusive.once c with one | ⟨-, q, t, f, inside, -⟩
  · exact absurd (Nat.le_trans here (Nat.le_trans total one)) (by decide)
  · obtain rfl := exclusive.one_hand c p q hand inside.hand
    rcases inside with ⟨_, _, at_pc'⟩ | at_pc' | ⟨at_pc', -⟩ <;> simp [at_pc] at at_pc'

theorem Accepted.refused (reached : (system P).Reach Accepted .init s) (taken : step s a = some s')
    (fails : ¬ Accepted s a) : ¬ Exclusive s' := by
  obtain ⟨place, inv⟩ := placed_of_reach reached
  obtain ⟨p, rfl⟩ : ∃ p, a = .register p false := by simpa [Accepted] using fails
  simp only [step] at taken
  split at taken <;> try contradiction
  rename_i h token fd interest at_pc
  simp only [Sys.register, Bool.false_eq_true, if_false, Option.some.injEq] at taken
  subst taken
  intro exclusive
  refine exclusive.not_leaked (p := p) (c := h) (t := token) (f := fd) (by simp) ?_
  simpa using (inv.io p).inserted h token fd interest at_pc

/-- A run keeps every coroutine in one place exactly when none of its registrations
fails. -/
theorem exclusive_iff_accepted {as : List (Act P)}
    (run : (system P).exec .init as = some s) :
    (system P).Along Exclusive .init as ↔ (system P).Meets Accepted .init as :=
  Lts.along_iff_meets (fun _ reached => Accepted.exclusive reached)
    (fun _ _ _ reached taken fails => Accepted.refused reached taken fails) run

/-! ## Two coroutines that wait on one descriptor -/

/-- A coroutine that spawns another; on the same thread each waits on descriptor 5,
and the loop refuses the second registration. -/
def sharedDescriptor : List (Act Unit) :=
  [.spawn (), .spawnInner (), .enter (), .tau (), .tau (), .tau (), .tau (), .tau (),
    .spawn (), .spawnInner (), .tau (), .tau (), .tau (), .tau (),
    .waitEvent () 5 EventSet.readable 0, .register () true, .tau (), .tau (), .tau (), .tau (), .tau (),
    .waitEvent () 5 EventSet.readable 1, .register () false]

theorem accepted_until_shared : (system Unit).Along Exclusive .init sharedDescriptor.dropLast := by
  have runs : ((system Unit).exec .init sharedDescriptor.dropLast).isSome = true := by decide +kernel
  obtain ⟨s, run⟩ := Option.isSome_iff_exists.1 runs
  exact (exclusive_iff_accepted run).2
    (Lts.meets_of_forall (by simp [Accepted, sharedDescriptor]))

theorem shared_descriptor_leaks : ¬ ∀ (as : List (Act Unit)) (s : Sys Unit),
    (system Unit).exec .init as = some s → Exclusive s := by
  intro all
  have ends : ((system Unit).exec .init sharedDescriptor).any (fun s =>
      (s.threads ()).pc = .exec 0 .user ∧ (s.threads ()).slabs.lookup 1 = some (0, 5)) = true := by
    decide +kernel
  obtain ⟨s, run, leaks⟩ := (Option.any_eq_true _ _).1 ends
  obtain ⟨at_pc, entry⟩ := of_decide_eq_true leaks
  exact (all _ s run).not_leaked at_pc entry

end SimpleSched.Runtime
