/-
# Runtime.Waits -- a wait ends by its event, a slab entry belongs to a wait

`Effect.waiting`: no step but the delivery of its own token ends a wait.
`NoLeak`: every slab entry is that of a coroutine inside its `wait_event`.  This
is an invariant as long as `register_opt` succeeds; the `try!` that returns its
error leaves the entry behind.
-/
import SimpleSched.Runtime.PlaceStep

namespace SimpleSched.Runtime

set_option autoImplicit false

open Mio Theory

variable {P : Type} [DecidableEq P] {s s' : Sys P} {place place' : Placing P} {a : Act P} {q : P}
  {c : CoroutineRefMut} {token : Token}

/-- The step in which `q` takes the entry of `token` out of its slab. -/
def Delivers (s : Sys P) (a : Act P) (q : P) (token : Token) : Prop :=
  a = .tau q ∧ ∃ rest, (s.threads q).pc = .handle (token :: rest)

/-- A coroutine in a slab and not in a hand, the queue or a slot stays. -/
theorem Effect.wait_place (inv : Placed s place) (effect : Effect s place a s' place')
    (waits : place c = .wait q token) : place' c = .wait q token ∨ Delivers s a q token := by
  have update {d : CoroutineRefMut} {l l' : Place P} (at_d : place d = l')
      (apart : ∀ q token, l' ≠ .wait q token) :
      Function.update place d l c = .wait q token ∨ Delivers s a q token := by
    have other : c ≠ d := by
      rintro rfl
      exact apart q token (at_d.symm.trans waits)
    exact .inl (by rwa [Function.update_of_ne other])
  have spawn (p : P) : place.spawn s p c = .wait q token := by
    have born : c ≠ s.next := Nat.ne_of_lt (inv.born (by simp [waits]))
    cases filled : (s.threads p).newSpawned with
    | none => simpa only [Placing.spawn, filled, Function.update_of_ne born] using waits
    | some old =>
        have other : c ≠ old := by
          rintro rfl
          rw [(inv.slot p c).1 filled] at waits
          cases waits
        simpa only [Placing.spawn, filled, Function.update_of_ne born,
          Function.update_of_ne other] using waits
  cases effect with
  | quiet | full | fetchAdd | yield | ended | inserted | registered | setHolds | polled
  | deregistered | resumed | took | finished => exact .inl waits
  | spawnOut | spawnIn => exact .inl (spawn _)
  | @handled p t rest d _ _ at_pc _ there =>
      by_cases same : c = d
      · subst same
        rw [there, Place.wait.injEq] at waits
        obtain ⟨rfl, rfl⟩ := waits
        exact .inr ⟨rfl, rest, at_pc⟩
      · exact .inl (by rwa [Function.update_of_ne same])
  | pushed pushing => exact update (inv.at_hand (Pc.hand_of_pushing pushing)) (by simp)
  | popped _ taken =>
      exact update ((inv.queue.mem _).1 (by simp [BoundedQueue.pop_some taken])) (by simp)
  | drained _ filled => exact update ((inv.slot _ _).1 filled) (by simp)
  | left at_pc | freed at_pc => exact update (inv.at_hand (by rw [at_pc]; rfl)) (by simp)

/-- Between `register_opt` and the switch there is one step, the switch. -/
theorem Effect.of_registered (effect : Effect s place a s' place')
    (at_pc : (s.threads q).pc = .exec c (.registered token)) (mine : a.actor = some q) :
    s' = s.switchBack q c (.waitEvent q token) := by
  cases effect with
  | @yield p h pt _ k at_exec yields =>
      obtain rfl : p = q := by cases yields <;> simpa [Act.actor] using mine
      obtain ⟨rfl, rfl⟩ := Pc.exec.inj (at_exec.symm.trans at_pc)
      cases yields
      rfl
  | quiet quiet => cases quiet <;> simp_all [Act.actor]
  | setHolds => simp [Act.actor] at mine
  | spawnOut from_pc | spawnIn from_pc =>
      rcases from_pc with ⟨rfl, from_pc⟩ | ⟨rfl, from_pc⟩ <;> simp_all [Act.actor]
  | ended at_exec ends => cases ends <;> simp_all [Act.actor]
  | full pushing | pushed pushing =>
      obtain rfl := Option.some.inj mine
      simp [at_pc, Pc.pushing] at pushing
  | fetchAdd | inserted | registered | polled | handled | deregistered | popped | drained
  | resumed | took | left | finished | freed => simp_all [Act.actor]

theorem Effect.of_back (effect : Effect s place a s' place')
    (at_pc : (s.threads q).pc = .back c) (saved : (s.coros c).cell = .saved (.waitEvent q token))
    (mine : a.actor = some q) : place' = Function.update place c (.wait q token) := by
  cases effect with
  | @left p d k l at_back saved' goes =>
      obtain rfl := Option.some.inj mine
      obtain rfl := Pc.back.inj (at_back.symm.trans at_pc)
      rw [saved, Cell.saved.injEq] at saved'
      subst saved'
      rcases goes with ⟨same, -⟩ | ⟨t, same, rfl⟩
      · cases same
      · cases same
        rfl
  | @took p d k at_back saved' runs =>
      obtain rfl := Option.some.inj mine
      obtain rfl := Pc.back.inj (at_back.symm.trans at_pc)
      rw [saved, Cell.saved.injEq] at saved'
      subst saved'
      exact absurd rfl runs
  | quiet quiet => cases quiet <;> simp_all [Act.actor]
  | setHolds => simp [Act.actor] at mine
  | spawnOut from_pc | spawnIn from_pc =>
      rcases from_pc with ⟨rfl, from_pc⟩ | ⟨rfl, from_pc⟩ <;> simp_all [Act.actor]
  | ended at_exec ends => cases ends <;> simp_all [Act.actor]
  | yield at_exec yields => cases yields <;> simp_all [Act.actor]
  | full pushing | pushed pushing =>
      obtain rfl := Option.some.inj mine
      simp [at_pc, Pc.pushing] at pushing
  | fetchAdd | inserted | registered | polled | handled | deregistered | popped | drained
  | resumed | finished | freed => simp_all [Act.actor]

/-- A coroutine in one thread's hand is not touched by another thread. -/
theorem Effect.held_elsewhere (inv : Placed s place) (effect : Effect s place a s' place')
    (held : (s.threads q).pc.hand = some c) (other : a.actor ≠ some q) :
    s'.coros c = s.coros c := by
  have at_hand := inv.at_hand held
  have mine {p : P} (actor : a.actor = some p) (held' : (s.threads p).pc.hand = some c) : False := by
    obtain rfl : q = p := by simpa [at_hand] using inv.at_hand held'
    exact other actor
  have turn := effect.turn inv c
  generalize s'.coros c = x at turn
  cases turn with
  | same => rfl
  | spawned fresh =>
      rw [(inv.unborn c).2 (by rw [fresh])] at at_hand
      cases at_hand
  | yield actor at_pc | ended actor at_pc | resumed actor at_pc | finished actor at_pc
  | freed actor at_pc => exact (mine actor (by rw [at_pc]; rfl)).elim

theorem Effect.waiting (inv : Placed s place) (effect : Effect s place a s' place')
    (waits : Waiting s place q c token) :
    Waiting s' place' q c token ∨ Delivers s a q token := by
  rcases waits with waits | at_pc | ⟨at_pc, saved⟩
  · exact (effect.wait_place inv waits).imp_left .inl
  · by_cases mine : a.actor = some q
    · obtain rfl := effect.of_registered at_pc mine
      exact .inl (.inr (.inr (by simp [Sys.switchBack])))
    · obtain ⟨l, same⟩ := effect.others mine
      exact .inl (.inr (.inl (by rw [same]; exact at_pc)))
  · by_cases mine : a.actor = some q
    · obtain rfl := effect.of_back at_pc saved mine
      exact .inl (.inl (Function.update_self ..))
    · obtain ⟨l, same⟩ := effect.others mine
      have kept := effect.held_elsewhere inv (q := q) (c := c) (by rw [at_pc]; rfl) mine
      exact .inl (.inr (.inr ⟨by rw [same]; exact at_pc, by rw [kept]; exact saved⟩))

/-! ## Entries -/

/-- An entry was there before the step and is not the one delivered, or it was
inserted by this step. -/
theorem Effect.lookup (effect : Effect s place a s' place') {entry : CoroutineRefMut × Fd}
    (found : (s'.threads q).slabs.lookup token = some entry) :
    (s.threads q).slabs.lookup token = some entry ∧ ¬ Delivers s a q token ∨
      ∃ interest, (s'.threads q).pc = .exec entry.1 (.inserted token entry.2 interest) := by
  by_cases mine : a.actor = some q
  · have kept (slabs : (s'.threads q).slabs = (s.threads q).slabs)
        (idle : ∀ t rest, (s.threads q).pc ≠ .handle (t :: rest)) :
        (s.threads q).slabs.lookup token = some entry ∧ ¬ Delivers s a q token :=
      ⟨by rw [← slabs]; exact found, fun ⟨_, rest, at_pc⟩ => idle token rest at_pc⟩
    cases effect with
    | @inserted p h fd interest t slabs at_pc taken =>
        obtain rfl := Option.some.inj mine
        simp only [Sys.setThread_threads, Function.update_self] at found ⊢
        rw [(Slab.insert_some taken).2] at found
        split at found
        · rename_i same
          subst same
          cases found
          exact .inr ⟨interest, rfl⟩
        · exact .inl ⟨found, fun ⟨same, _⟩ => by cases same⟩
    | @handled p t rest c fd slabs at_pc taken waits =>
        obtain rfl := Option.some.inj mine
        simp only [Sys.setThread_threads, Function.update_self] at found ⊢
        rw [(Slab.remove_some taken).2] at found
        split at found
        · cases found
        · rename_i other
          refine .inl ⟨found, fun ⟨_, rest', at_handle⟩ => other ?_⟩
          rw [at_pc, Pc.handle.injEq, List.cons.injEq] at at_handle
          exact at_handle.1.symm
    | quiet quiet =>
        refine .inl (kept ?_ ?_)
        · cases quiet <;> obtain rfl := Option.some.inj mine <;> simp
        · intro t rest at_handle
          cases quiet <;> simp_all [Act.actor]
    | setHolds => simp [Act.actor] at mine
    | spawnOut from_pc | spawnIn from_pc =>
        refine .inl (kept ?_ ?_)
        · rcases from_pc with ⟨rfl, -⟩ | ⟨rfl, -⟩ <;> obtain rfl := Option.some.inj mine <;>
            simp [Sys.boxSpawned, Sys.switchBack]
        · intro t rest at_handle
          rcases from_pc with ⟨rfl, from_pc⟩ | ⟨rfl, from_pc⟩ <;> simp_all [Act.actor]
    | ended at_exec ends =>
        refine .inl (kept ?_ ?_)
        · cases ends <;> obtain rfl := Option.some.inj mine <;> simp [Sys.switchBack, Sys.endClosure]
        · intro t rest at_handle
          cases ends <;> simp_all [Act.actor]
    | yield at_exec yields =>
        refine .inl (kept ?_ ?_)
        · cases yields <;> obtain rfl := Option.some.inj mine <;> simp [Sys.switchBack]
        · intro t rest at_handle
          cases yields <;> simp_all [Act.actor]
    | full pushing | pushed pushing =>
        obtain rfl := Option.some.inj mine
        refine .inl (kept (by simp) ?_)
        intro t rest at_handle
        simp [at_handle, Pc.pushing] at pushing
    | fetchAdd at_pc | registered at_pc | polled at_pc | deregistered at_pc | popped at_pc
    | drained at_pc | resumed at_pc | took at_pc | left at_pc | finished at_pc | freed at_pc =>
        obtain rfl := Option.some.inj mine
        refine .inl (kept (by simp [Sys.fetchAdd, Sys.finished]) ?_)
        intro t rest at_handle
        simp [at_handle] at at_pc
  · obtain ⟨l, same⟩ := effect.others mine
    rw [same] at found
    refine .inl ⟨found, ?_⟩
    rintro ⟨rfl, -⟩
    exact mine rfl

/-- After `slabs.insert` comes `register_opt`, and its answer decides. -/
theorem Effect.of_inserted {fd : Fd} {interest : EventSet} (effect : Effect s place a s' place')
    (at_pc : (s.threads q).pc = .exec c (.inserted token fd interest)) (mine : a.actor = some q) :
    a = .register q true ∧ (s'.threads q).pc = .exec c (.registered token) ∨
      a = .register q false ∧ s' = s.setPc q (.exec c .user) := by
  cases effect with
  | @registered p h t f i l at_inserted =>
      obtain rfl := Option.some.inj mine
      rw [at_pc, Pc.exec.injEq, Point.inserted.injEq] at at_inserted
      obtain ⟨rfl, rfl, rfl, rfl⟩ := at_inserted
      exact .inl ⟨rfl, by simp⟩
  | quiet quiet =>
      cases quiet with
      | refused at_inserted =>
          obtain rfl := Option.some.inj mine
          rw [at_pc, Pc.exec.injEq, Point.inserted.injEq] at at_inserted
          obtain ⟨rfl, rfl, rfl, rfl⟩ := at_inserted
          exact .inr ⟨rfl, rfl⟩
      | _ => simp_all [Act.actor]
  | setHolds => simp [Act.actor] at mine
  | spawnOut from_pc | spawnIn from_pc =>
      rcases from_pc with ⟨rfl, from_pc⟩ | ⟨rfl, from_pc⟩ <;> simp_all [Act.actor]
  | ended at_exec ends => cases ends <;> simp_all [Act.actor]
  | yield at_exec yields => cases yields <;> simp_all [Act.actor]
  | full pushing | pushed pushing =>
      obtain rfl := Option.some.inj mine
      simp [at_pc, Pc.pushing] at pushing
  | fetchAdd | inserted | polled | handled | deregistered | popped | drained
  | resumed | took | left | finished | freed => simp_all [Act.actor]

/-- Every slab entry belongs to a coroutine inside its `wait_event`. -/
def NoLeak (s : Sys P) (place : Placing P) : Prop :=
  ∀ q token c fd, (s.threads q).slabs.lookup token = some (c, fd) →
    Waiting s place q c token ∨ ∃ interest, (s.threads q).pc = .exec c (.inserted token fd interest)

omit [DecidableEq P] in
theorem NoLeak.init : NoLeak (Sys.init : Sys P) fun _ => .unborn := by
  intro q token c fd found
  simp [Sys.init, Processor.new] at found

theorem NoLeak.step (inv : Placed s place) (none_left : NoLeak s place)
    (accepted : ∀ p, a ≠ .register p false) (effect : Effect s place a s' place') :
    NoLeak s' place' := by
  intro q token c fd found
  rcases effect.lookup found with ⟨found, stays⟩ | ⟨interest, at_pc⟩
  · rcases none_left q token c fd found with waits | ⟨interest, at_pc⟩
    · exact .inl ((effect.waiting inv waits).resolve_right stays)
    · by_cases mine : a.actor = some q
      · rcases effect.of_inserted at_pc mine with ⟨-, at_pc⟩ | ⟨refused, -⟩
        · exact .inl (.inr (.inl at_pc))
        · exact absurd refused (accepted q)
      · obtain ⟨l, same⟩ := effect.others mine
        exact .inr ⟨interest, by rw [same]; exact at_pc⟩
  · exact .inr ⟨interest, at_pc⟩

end SimpleSched.Runtime
