/-
# Net.Idle -- where the programs are when the runtime has nothing to do

In a program that waits only in its calls a coroutine is inside `wait_event` only as long
as it is in the call that made it wait (`waits_in_call`).  So, where no coroutine was
overwritten in a slot, whatever the runtime neither runs nor is about to run is in a
call whose socket is not ready (`programs_idle`): the programs are stopped by the network
and by nothing else.
-/
import SimpleSched.Net.Programs
import SimpleSched.Runtime.NoneLost

namespace SimpleSched.Net

set_option autoImplicit false

open Mio Theory
open SimpleSched.Runtime

variable {P K Op R V Q : Type}

/-! ## Inside wait_event -/

/-- Between the `slabs.insert` of a `wait_event` and the return of its `Scheduler::block`. -/
def InWait (s : Sys P) (h : CoroutineRefMut) : Prop :=
  (∃ p token fd interest, (s.threads p).pc = .exec h (.inserted token fd interest)) ∨
    (∃ p token, (s.threads p).pc = .exec h (.registered token)) ∨
    ∃ p token, (s.coros h).cell = .saved (.waitEvent p token)

section Runtime

variable [DecidableEq P] {s s' : Sys P} {place place' : Placing P} {a : Act P} {p : P}
  {h : CoroutineRefMut}

omit [DecidableEq P] in
/-- A coroutine that is executing its closure is in no `wait_event`. -/
theorem not_inWait (inv : Placed s place) (at_pc : (s.threads p).pc = .exec h .user) : ¬ InWait s h := by
  have held : place h = .hand p := inv.at_hand (by rw [at_pc]; rfl)
  have only {q : P} {pt : Point} (at_q : (s.threads q).pc = .exec h pt) : pt = .user := by
    have also : place h = .hand q := inv.at_hand (by rw [at_q]; rfl)
    obtain rfl : p = q := by simpa [held] using also
    exact (Pc.exec.inj (at_q.symm.trans at_pc)).2
  rintro (⟨q, token, fd, interest, at_q⟩ | ⟨q, token, at_q⟩ | ⟨q, token, saved⟩)
  · cases only at_q
  · cases only at_q
  · have life := inv.hand_life (p := p) (c := h) (by rw [at_pc]; rfl)
    simp only [Thread.HandLife, at_pc] at life
    rw [saved] at life
    cases life.1

omit [DecidableEq P] in
/-- One that is has not ended. -/
theorem InWait.unended (inv : Placed s place) (waits : InWait s h) : (s.coros h).ended = 0 := by
  have executed {q : P} {pt : Point} (at_q : (s.threads q).pc = .exec h pt) :
      (s.coros h).ended = 0 := by
    have life := inv.hand_life (p := q) (c := h) (by rw [at_q]; rfl)
    simp only [Thread.HandLife, at_q] at life
    exact life.2.2.1.ended
  rcases waits with ⟨q, token, fd, interest, at_q⟩ | ⟨q, token, at_q⟩ | ⟨q, token, saved⟩
  · exact executed at_q
  · exact executed at_q
  · have life := inv.life h
    cases at_h : place h with
    | unborn | slot | lost =>
        rw [at_h] at life
        have fresh : s.coros h = _ := life
        rw [fresh]
        rfl
    | queue =>
        rw [at_h] at life
        obtain ⟨k, -, -, -, past⟩ := life
        exact past.ended
    | wait | parked =>
        rw [at_h] at life
        exact life.2.2.ended
    | freed =>
        rw [at_h] at life
        simp [life.1] at saved
    | hand p =>
        have held := (inv.hand p h).2 at_h
        have life := inv.hand_life held
        cases at_pc : (s.threads p).pc <;>
          simp only [at_pc, Pc.hand, Option.some.injEq, reduceCtorEq] at held
        all_goals
          subst held
          simp only [Thread.HandLife, at_pc] at life
        case exec => exact life.2.2.1.ended
        case runTask =>
          obtain ⟨k, -, -, past⟩ := life
          exact past.ended
        case back =>
          obtain ⟨k, also, -, past, -⟩ := life
          obtain rfl : k = .waitEvent q token := by simpa [saved] using also.symm
          exact past.ended
        case finish | free =>
          obtain ⟨⟨st, also⟩, -⟩ := life
          simp [saved] at also
        all_goals
          obtain ⟨k, -, -, -, past⟩ := life
          exact past.ended

/-- Where the coroutine a thread executes has got to after a step of the thread. -/
theorem Effect.executing_after (effect : Effect s place a s' place') {q : P} (mine : a.actor = some q)
    {pt : Point} (at_q : (s'.threads q).pc = .exec h pt) : pt = .user ∨ pt = .spawnOpts ∨
      (∃ fd interest token, a = .waitEvent q fd interest token ∧ (s.threads q).pc = .exec h .user) ∨
      ∃ token fd interest, (s.threads q).pc = .exec h (.inserted token fd interest) := by
  cases effect with
  | quiet quiet =>
      cases quiet <;> obtain rfl := Option.some.inj mine <;> simp at at_q
      obtain ⟨-, rfl⟩ := at_q
      exact .inl rfl
  | full pushing =>
      obtain rfl := Option.some.inj mine
      simp [at_q, Pc.pushing] at pushing
  | fetchAdd from_pc =>
      obtain rfl := Option.some.inj mine
      rcases from_pc with ⟨-, rfl⟩ | ⟨g, -, rfl⟩
      · simp [Sys.fetchAdd] at at_q
      · obtain ⟨-, rfl⟩ : g = h ∧ .spawnOpts = pt := by simpa [Sys.fetchAdd] using at_q
        exact .inr (.inl rfl)
  | spawnOut from_pc | spawnIn from_pc =>
      rcases from_pc with ⟨rfl, -⟩ | ⟨rfl, -⟩ <;> obtain rfl := Option.some.inj mine <;>
        simp [Sys.switchBack] at at_q
  | yield _ yields => cases yields <;> obtain rfl := Option.some.inj mine <;> simp [Sys.switchBack] at at_q
  | ended _ ends => cases ends <;> obtain rfl := Option.some.inj mine <;> simp [Sys.switchBack] at at_q
  | @inserted p g fd interest token slabs at_pc =>
      obtain rfl := Option.some.inj mine
      obtain ⟨rfl, -⟩ : g = h ∧ _ := by simpa using at_q
      exact .inr (.inr (.inl ⟨_, _, _, rfl, at_pc⟩))
  | @registered p g token fd interest l at_pc =>
      obtain rfl := Option.some.inj mine
      obtain ⟨rfl, -⟩ : g = h ∧ _ := by simpa using at_q
      exact .inr (.inr (.inr ⟨_, _, _, at_pc⟩))
  | setHolds => cases mine
  | pushed pushing =>
      obtain rfl := Option.some.inj mine
      cases at_pc : (s.threads _).pc <;> simp_all [Pc.pushing, Pc.pushed]
  | resumed =>
      obtain rfl := Option.some.inj mine
      obtain ⟨-, rfl⟩ : _ ∧ .user = pt := by simpa using at_q
      exact .inl rfl
  | @took p c k =>
      obtain rfl := Option.some.inj mine
      rcases Sys.runTaskArm_cases c k.result with arm | arm | arm <;> simp [arm] at at_q
  | polled | handled | deregistered | popped | drained | left | finished | freed =>
      obtain rfl := Option.some.inj mine
      simp [Sys.finished] at at_q

/-- Only `wait_event` leads there. -/
theorem inWait_of_step (effect : Effect s place a s' place') (inv : Placed s place)
    (waits : InWait s' h) : InWait s h ∨
      ∃ p fd interest token, a = .waitEvent p fd interest token ∧ (s.threads p).pc = .exec h .user := by
  have executed {q : P} {pt : Point} (at_q : (s'.threads q).pc = .exec h pt) (inside : pt ≠ .user)
      (waiting : pt ≠ .spawnOpts) (before : (s.threads q).pc = .exec h pt → InWait s h) :
      InWait s h ∨ ∃ p fd interest token,
        a = .waitEvent p fd interest token ∧ (s.threads p).pc = .exec h .user := by
    by_cases mine : a.actor = some q
    · rcases Effect.executing_after effect mine at_q with rfl | rfl | ⟨fd, i, t, wait, at_pc⟩ | ⟨t, fd, i, at_pc⟩
      · exact absurd rfl inside
      · exact absurd rfl waiting
      · exact .inr ⟨q, fd, i, t, wait, at_pc⟩
      · exact .inl (.inl ⟨q, t, fd, i, at_pc⟩)
    · obtain ⟨l, same⟩ := effect.others mine
      rw [same] at at_q
      exact .inl (before at_q)
  rcases waits with ⟨q, token, fd, interest, at_q⟩ | ⟨q, token, at_q⟩ | ⟨q, token, saved⟩
  · exact executed at_q (by simp) (by simp) fun before => .inl ⟨q, token, fd, interest, before⟩
  · exact executed at_q (by simp) (by simp) fun before => .inr (.inl ⟨q, token, before⟩)
  · have turn := effect.turn inv h
    generalize s'.coros h = x at saved turn
    cases turn with
    | same | finished => exact .inl (.inr (.inr ⟨q, token, saved⟩))
    | spawned | resumed | freed => cases saved
    | ended _ _ ends => cases ends <;> cases saved
    | yield _ at_pc yields =>
        rcases yields with yields | rfl
        · cases yields with
          | sched | block => cases saved
          | waitEvent => exact .inl (.inr (.inl ⟨_, _, at_pc⟩))
        · cases saved

/-- A refused registration ends it. -/
theorem not_inWait_refused (inv : Placed s place) {token : Token} {fd : Fd} {interest : EventSet}
    (at_pc : (s.threads p).pc = .exec h (.inserted token fd interest))
    (taken : Runtime.step s (.register p false) = some s') : ¬ InWait s' h := by
  obtain rfl : s.setPc p (.exec h .user) = s' := by
    simpa [Runtime.step, at_pc, Sys.register] using taken
  have effect : Effect s place (.register p false) (s.setPc p (.exec h .user)) place :=
    .quiet (.refused at_pc)
  exact not_inWait (effect.placed inv) (p := p) (by simp)

end Runtime

/-! ## In a call -/

section Calls

variable [DecidableEq P] {D : Sockets K Op R V} {c : Calling P K Op} {h : CoroutineRefMut}

/-- No coroutine waits but in a call. -/
def WaitsInCalls (_ : Calling P K Op) : CallAct P Op R V → Prop
  | .runtime (.waitEvent _ _ _ _) | .runtime (.block _) => False
  | _ => True

/-- A call that has gone on would have blocked. -/
theorem would_block {ok : Calling P K Op → CallAct P Op R V → Prop}
    (reached : (calling P D).Reach ok (.init D) c) {x : Call Op} (inside : c.calls h = some x)
    (later : x.stage ≠ .first) : ∃ k, D.wouldBlock k x.op = true := by
  refine reached.invariant (I := fun c => ∀ h x, c.calls h = some x → x.stage ≠ .first →
    ∃ k, D.wouldBlock k x.op = true) ?_ ?_ h x inside later
  · intro h x inside
    cases inside
  · intro c act c' before ih _ taken h x inside later
    have goes {c₀ : Calling P K Op} {g : CoroutineRefMut} {y : Option (Call Op)}
        (same : c₀.calls = c.calls) (new : y = some x → ∃ k, D.wouldBlock k x.op = true)
        (inside : (c₀.setCall g y).calls h = some x) : ∃ k, D.wouldBlock k x.op = true := by
      by_cases mine : h = g
      · subst mine
        exact new (by simpa [Calling.setCall] using inside)
      · exact ih h x (by simpa [Calling.setCall, Function.update_of_ne mine, same] using inside) later
    cases callEffect_of_step taken with
    | runtime | registered | change => exact ih h x inside later
    | call =>
        refine goes rfl ?_ inside
        rintro ⟨⟩
        exact absurd rfl later
    | blocked _ _ blocks =>
        refine goes rfl ?_ inside
        rintro ⟨⟩
        exact ⟨_, blocks⟩
    | waits _ was =>
        refine goes rfl ?_ inside
        rintro ⟨⟩
        have before := ih _ _ was (by simp)
        exact before
    | done | full | refused => exact goes rfl (by simp) inside

theorem waits_in_call (reached : (calling P D).Reach WaitsInCalls (.init D) c) (waits : InWait c.sys h) :
    ∃ x, c.calls h = some x ∧ x.stage ≠ .first := by
  refine reached.invariant (I := fun c => ∀ h, InWait c.sys h →
    ∃ x, c.calls h = some x ∧ x.stage ≠ .first) ?_ ?_ h waits
  · intro h waits
    simp [InWait, Calling.init, Sys.init, Coroutine.unborn] at waits
  · intro c act c' before ih meets taken h waits
    have runs : (system P).Reach Lts.anyStep .init c.sys :=
      runtime_of_calls before
    obtain ⟨place, inv⟩ := placed_of_reach runs
    have earlier {a : Act P} {sys : Sys P} (stepped : Runtime.step c.sys a = some sys)
        (waits : InWait sys h) : InWait c.sys h ∨ ∃ p fd interest token,
          a = .waitEvent p fd interest token ∧ (c.sys.threads p).pc = .exec h .user := by
      obtain ⟨place', effect⟩ := effect_of_step (Registers.reach runs) inv stepped
      exact inWait_of_step effect inv waits
    have apart {g : CoroutineRefMut} {x : Option (Call Op)} {c₀ : Calling P K Op}
        (same : c₀.calls = c.calls) (other : h ≠ g) (was : InWait c.sys h) :
        ∃ y, (c₀.setCall g x).calls h = some y ∧ y.stage ≠ .first := by
      obtain ⟨y, inside, later⟩ := ih h was
      refine ⟨y, ?_, later⟩
      show Function.update c₀.calls g x h = some y
      rw [Function.update_of_ne other, same, inside]
    cases callEffect_of_step taken with
    | @runtime a sys permitted stepped =>
        rcases earlier stepped waits with was | ⟨p, fd, interest, token, rfl, -⟩
        · exact ih h was
        · cases meets
    | @call p g fd op at_pc =>
        have was : InWait c.sys h := waits
        refine apart rfl ?_ was
        rintro rfl
        exact not_inWait inv at_pc was
    | @blocked p g _ _ _ at_pc | @done p g _ _ _ _ _ at_pc =>
        have was : InWait c.sys h := waits
        refine apart rfl ?_ was
        rintro rfl
        exact not_inWait inv at_pc was
    | @waits p g fd op token sys at_pc _ _ stepped =>
        by_cases same : h = g
        · subst same
          simp [Calling.setCall]
        · refine apart rfl same ((earlier stepped waits).resolve_right ?_)
          rintro ⟨q, fd', interest, token', wait, at_q⟩
          cases wait
          exact same (Pc.exec.inj (at_q.symm.trans at_pc)).1
    | @full p g fd op token sys at_pc _ full stepped =>
        have other : h ≠ g := by
          rintro rfl
          obtain ⟨place', effect⟩ := effect_of_step (Registers.reach runs) inv stepped
          have ends : (Act.waitEvent p fd (D.interest op) token).EndsOn c.sys p := ⟨rfl, full⟩
          have ended := ended_of_endsOn runs at_pc ends stepped
          have unended := InWait.unended (effect.placed inv) waits
          omega
        refine apart rfl other ((earlier stepped waits).resolve_right ?_)
        rintro ⟨q, fd', interest, token', wait, at_q⟩
        cases wait
        exact other (Pc.exec.inj (at_q.symm.trans at_pc)).1
    | registered _ _ stepped =>
        rcases earlier stepped waits with was | ⟨_, _, _, _, wait, -⟩
        · exact ih h was
        · cases wait
    | @refused p g x token fd i sys at_pc _ stepped =>
        have other : h ≠ g := by
          rintro rfl
          exact not_inWait_refused inv at_pc stepped waits
        refine apart rfl other ((earlier stepped waits).resolve_right ?_)
        rintro ⟨_, _, _, _, wait, -⟩
        cases wait
    | change =>
        have was : InWait c.sys h := waits
        exact ih h was

end Calls

/-! ## Where the programs are -/

section Idle

variable [DecidableEq P] {D : Sockets K Op R V} {program : Program Q Fd Op R} {s : Running P K Op Q}

/-- No coroutine is overwritten in a slot: where one is put the slot is empty. -/
def FindsVacant (s : Running P K Op Q) : RunAct P Op R V Q → Prop
  | .boot p _ | .spawned p => (s.calling.sys.threads p).newSpawned = none
  | _ => True

/-- Nothing happens without the network. -/
structure Idle (s : Sys P) : Prop where
  queue : s.globalQueue.items = []
  threads : ∀ p, (s.threads p).pc.hand = none ∧ (s.threads p).newSpawned = none ∧
    (s.threads p).pc.batch = [] ∧ ∀ fd, (s.threads p).eventLoop.isPending fd = false

/-- A pending event has a slab entry, so only the entries need be looked at. -/
theorem Idle.of_entries {ok : Sys P → Act P → Prop} {s : Sys P} (reached : (system P).Reach ok .init s)
    (queue : s.globalQueue.items = [])
    (threads : ∀ p, (s.threads p).pc.hand = none ∧ (s.threads p).newSpawned = none ∧
      (s.threads p).pc.batch = [] ∧ ∀ e ∈ (s.threads p).slabs.entries.entries,
        (s.threads p).eventLoop.isPending e.2.2 = false) : Idle s := by
  refine ⟨queue, fun p => ?_⟩
  obtain ⟨hand, slot, batch, entries⟩ := threads p
  refine ⟨hand, slot, batch, fun fd => ?_⟩
  by_contra pending
  rw [Bool.not_eq_false] at pending
  obtain ⟨place, placed⟩ := placed_of_reach reached
  cases at_fd : (s.threads p).eventLoop.regs fd with
  | none => simp [EventLoop.isPending, at_fd] at pending
  | some r =>
      rcases (placed.io p).reg fd r at_fd with ⟨c, -, entry⟩ | ⟨c, rest, at_pc⟩
      · have listed := AList.mem_lookup_iff.1 (Option.mem_def.2 entry)
        have unready := entries _ listed
        simp [pending] at unready
      · simp [at_pc, Pc.hand] at hand

/-- The steps of the runtime in such a run. -/
def KeepsAll (s : Sys P) (a : Act P) : Prop :=
  (∀ p, a ≠ .processorSpawn p) ∧ (∀ p, a ≠ .block p) ∧
    ∀ p, a = .spawnInner p → (s.threads p).newSpawned = none

theorem KeepsAll.retained {s : Sys P} (reached : (system P).Reach KeepsAll .init s) :
    ∃ place, Placed s place ∧ Retained s place := by
  refine reach_placed reached .init ?_
  rintro s place a s' place' - inv retained ⟨counted, wakes, vacant⟩ effect
  refine retained.step inv effect wakes ?_
  rintro p (spawns | spawns)
  · exact vacant p spawns
  · exact absurd spawns (counted p)

def CallsKeepAll (c : Calling P K Op) : CallAct P Op R V → Prop
  | .runtime a => KeepsAll c.sys a
  | _ => True

omit [DecidableEq P] in
theorem FindsVacant.calls {act : RunAct P Op R V Q} {a : CallAct P Op R V}
    (vacant : FindsVacant s act) (allows : act.Allows s a) : CallsKeepAll s.calling a := by
  cases a with
  | runtime a =>
      cases a with
      | spawnInner p =>
          refine ⟨by simp, by simp, fun q same => ?_⟩
          cases same
          rcases allows with ⟨q, rfl⟩ | rfl <;> exact vacant
      | processorSpawn | block | waitEvent | register | setHolds => cases allows
      | _ => exact ⟨by simp, by simp, by simp⟩
  | _ => trivial

omit [DecidableEq P] in
theorem allows_waitsInCalls {act : RunAct P Op R V Q} {a : CallAct P Op R V}
    (allows : act.Allows s a) : WaitsInCalls s.calling a := by
  cases a with
  | runtime a => cases a <;> trivial
  | _ => trivial

/-- A program that the runtime neither runs nor is about to run is in a call. -/
theorem stopped_in_call (reached : (running P D program).Reach FindsVacant (.init D) s)
    (idle : Idle s.calling.sys) {h : CoroutineRefMut} {q : Q} (at_h : s.task h = some q) :
    ∃ x k, s.calling.calls h = some x ∧ program q = .call x.fd x.op k ∧
      D.ready (s.calling.socket x.fd) (D.interest x.op) = false ∧
      ∃ k, D.wouldBlock k x.op = true := by
  have inv := InPrograms.of_reach reached
  have runs : (system P).Reach KeepsAll .init s.calling.sys :=
    runtime_reach (fun _ _ => id) (fun _ _ _ _ _ => ⟨by simp, by simp, by simp⟩)
      (fun _ _ _ => ⟨by simp, by simp, by simp⟩) (fun _ _ _ _ => ⟨by simp, by simp, by simp⟩)
      (calling_reach (fun _ _ _ vacant => vacant.calls) reached)
  obtain ⟨place, placed, retained⟩ := KeepsAll.retained runs
  obtain ⟨born, unended⟩ := (inv.inhabited h).1 (by simp [at_h])
  -- of all the places only a slab is left
  have waits : InWait s.calling.sys h := by
    have life := placed.life h
    cases at_place : place h with
    | unborn => exact absurd ((placed.unborn h).1 at_place) (Nat.not_le_of_lt born)
    | slot p => simpa [(idle.threads p).2.1] using (placed.slot p h).2 at_place
    | queue => simpa [idle.queue] using (placed.queue.mem h).2 at_place
    | hand p => simpa [(idle.threads p).1] using (placed.hand p h).2 at_place
    | wait p token =>
        rw [at_place] at life
        exact .inr (.inr ⟨p, token, life.1⟩)
    | parked => exact absurd at_place (retained.parked h)
    | lost => exact absurd at_place (retained.lost h)
    | freed =>
        rw [at_place] at life
        rw [life.2.2.ended] at unended
        cases unended
  obtain ⟨x, inside, later⟩ := waits_in_call
    (calling_reach (fun _ _ _ _ allows => allows_waitsInCalls allows) reached) waits
  obtain ⟨q', k, at_h', next⟩ := inv.linked.calls h x inside
  obtain rfl : q = q' := Option.some.inj (at_h.symm.trans at_h')
  have unready := (InCalls.of_reach inv.reached).idle
    (fun p => ⟨(idle.threads p).1, (idle.threads p).2.2⟩) idle.queue inside
  exact ⟨x, k, inside, next, unready, would_block inv.reached inside later⟩

/-- Where the runtime idles the network alone keeps a coroutine from its end. -/
theorem programs_idle (reached : (running P D program).Reach FindsVacant (.init D) s)
    (idle : Idle s.calling.sys) (h : CoroutineRefMut) (unended : Unended s.calling.sys h) :
    ∃ q fd op k, s.task h = some q ∧ program q = .call fd op k ∧
      D.ready (s.calling.socket fd) (D.interest op) = false := by
  obtain ⟨q, at_h⟩ := Option.isSome_iff_exists.1 (((InPrograms.of_reach reached).inhabited h).2 unended)
  obtain ⟨x, k, -, next, unready, -⟩ := stopped_in_call reached idle at_h
  exact ⟨q, x.fd, x.op, k, at_h, next, unready⟩

end Idle

instance (s : Running P K Op Q) : ∀ act : RunAct P Op R V Q, Decidable (FindsVacant s act)
  | .boot p _ | .spawned p =>
    inferInstanceAs (Decidable ((s.calling.sys.threads p).newSpawned = none))
  | .thread _ | .next _ | .attempt _ _ | .waitEvent _ _ | .register _ _ | .change _ _ =>
    .isTrue trivial

/-- Of the two tasks the first has ended and the second reads; nothing has come. -/
theorem read_apart_idle : ∃ s,
    (running (Threads 1) (sockets Nat Nat Nat) readApart).exec (.init (sockets Nat Nat Nat))
      (readsApart.take 31) = some s ∧ Unended s.calling.sys 1 ∧
    ∃ q fd op k, s.task 1 = some q ∧ readApart q = .call fd op k ∧
      Socket.ready (s.calling.socket fd) (SocketOp.interest op) = false := by
  have meets : (running (Threads 1) (sockets Nat Nat Nat) readApart).Meets FindsVacant
      (.init (sockets Nat Nat Nat)) (readsApart.take 31) := by
    decide +kernel
  have stops : ((running (Threads 1) (sockets Nat Nat Nat) readApart).exec (.init (sockets Nat Nat Nat))
      (readsApart.take 31)).any (fun s => (1 < s.calling.sys.next ∧ (s.calling.sys.coros 1).ended = 0) ∧
        s.calling.sys.globalQueue.items = [] ∧
        ∀ p, (s.calling.sys.threads p).pc.hand = none ∧ (s.calling.sys.threads p).newSpawned = none ∧
          (s.calling.sys.threads p).pc.batch = [] ∧
          ∀ e ∈ (s.calling.sys.threads p).slabs.entries.entries,
            (s.calling.sys.threads p).eventLoop.isPending e.2.2 = false) = true := by
    decide +kernel
  obtain ⟨s, run, ends⟩ := (Option.any_eq_true _ _).1 stops
  obtain ⟨unended, queue, threads⟩ := of_decide_eq_true ends
  have reached := Lts.Reach.of_exec run meets
  have runs : (system (Threads 1)).Reach Lts.anyStep .init s.calling.sys :=
    runtime_of_calls (InPrograms.of_reach reached).reached
  exact ⟨s, run, unended, programs_idle reached (.of_entries runs queue threads) 1 unended⟩

end SimpleSched.Net
