/-
# Runtime.Interest -- a coroutine waits for what it asked for

From the `slabs.insert` of its `wait_event` until it is woken, what a coroutine waits
for is in the point its thread has reached, then in its slab entry and in the
registration under the entry's token.  `Aims` says that all of these name one descriptor
and one interest.  A coroutine that does nothing but wait for these keeps it so
(`Aims.step`), whatever the other coroutines and threads do, and when it is suspended
that is its registration (`Aims.subscribed`).
-/
import SimpleSched.Runtime.Wakeup
import SimpleSched.Runtime.History

namespace SimpleSched.Runtime

set_option autoImplicit false

open Mio Theory

variable {P : Type}

/-- What `c` does in this step, if anything, is wait for `interest` of `fd`, on a slab with
room. -/
def WaitsFor [DecidableEq P] (s : Sys P) (c : CoroutineRefMut) (fd : Fd) (interest : EventSet)
    (a : Act P) : Prop :=
  ∀ p pt, a.actor = some p → (s.threads p).pc = .exec c pt →
    a = .tau p ∨ (∃ answer, a = .register p answer) ∨
      ∃ token, a = .waitEvent p fd interest token ∧ (s.threads p).slabs.count ≠ MAX_TOKEN_NUM

/-- `c` runs, or is suspended in a `wait_event`; and what it waits for, wherever that is
written, is `interest` of `fd`. -/
structure Aims (s : Sys P) (c : CoroutineRefMut) (fd : Fd) (interest : EventSet) : Prop where
  cell : (s.coros c).cell = .running ∨ ∃ p token, (s.coros c).cell = .saved (.waitEvent p token)
  inserted : ∀ p token f i, (s.threads p).pc = .exec c (.inserted token f i) → f = fd ∧ i = interest
  registered : ∀ p token f r, (s.threads p).slabs.lookup token = some (c, f) →
    (s.threads p).eventLoop.regs f = some r → r.token = token → f = fd ∧ r.interest = interest

variable {s s' : Sys P} {place place' : Placing P} {a : Act P} {p : P} {c : CoroutineRefMut}
  {fd : Fd} {interest : EventSet} {token : Token}

/-- A registration under the token of an entry is that of a coroutine that waits. -/
theorem Placed.waits_of_entry (inv : Placed s place) {f : Fd} {r : Registration}
    (entry : (s.threads p).slabs.lookup token = some (c, f))
    (reg : (s.threads p).eventLoop.regs f = some r) (same : r.token = token) :
    Waiting s place p c token := by
  subst same
  rcases (inv.io p).reg f r reg with ⟨d, waits, entry'⟩ | ⟨d, rest, at_pc⟩
  · rw [entry, Option.some.injEq, Prod.mk.injEq] at entry'
    rw [entry'.1]
    exact waits
  · obtain ⟨r', reg', gone⟩ := (inv.io p).removing d f rest at_pc
    obtain rfl := Option.some.inj (reg.symm.trans reg')
    simp [entry] at gone

/-- A coroutine in its own closure waits for nothing yet. -/
theorem Aims.start (inv : Placed s place) (at_pc : (s.threads p).pc = .exec c .user) :
    Aims s c fd interest := by
  have held : place c = .hand p := inv.at_hand (by rw [at_pc]; rfl)
  have here {q : P} (hand : (s.threads q).pc.hand = some c) : q = p := by
    simpa [held, eq_comm] using inv.at_hand hand
  have life := inv.hand_life (p := p) (c := c) (by rw [at_pc]; rfl)
  simp only [Thread.HandLife, at_pc] at life
  refine ⟨.inl life.1, ?_, ?_⟩
  · intro q token f i at_inserted
    obtain rfl := here (q := q) (by rw [at_inserted]; rfl)
    simp [at_pc] at at_inserted
  · intro q token f r entry reg same
    rcases inv.waits_of_entry entry reg same with waits | at_registered | ⟨at_back, -⟩
    · simp [held] at waits
    · obtain rfl := here (q := q) (by rw [at_registered]; rfl)
      simp [at_pc] at at_registered
    · obtain rfl := here (q := q) (by rw [at_back]; rfl)
      simp [at_pc] at at_back

variable [DecidableEq P]

/-- What a thread does in another closure is nothing `c` does. -/
theorem WaitsFor.other {h : CoroutineRefMut} {pt : Point} (actor : a.actor = some p)
    (at_pc : (s.threads p).pc = .exec h pt) (other : c ≠ h) : WaitsFor s c fd interest a := by
  intro q pt' actor' at_q
  obtain rfl : p = q := Option.some.inj (actor.symm.trans actor')
  rw [at_pc, Pc.exec.injEq] at at_q
  exact absurd at_q.1.symm other

/-- A registration was there before the step, for the same, or its coroutine was about to
make it. -/
theorem Effect.reg (effect : Effect s place a s' place') {f : Fd} {r : Registration}
    (found : (s'.threads p).eventLoop.regs f = some r) :
    (∃ old, (s.threads p).eventLoop.regs f = some old ∧ old.token = r.token ∧
        old.interest = r.interest) ∨
      ∃ h, (s.threads p).pc = .exec h (.inserted r.token f r.interest) := by
  have update {q : P} {t : Thread} (threads : s'.threads = Function.update s.threads q t)
      (loop : t.eventLoop.regs f = some r →
        (∃ old, (s.threads q).eventLoop.regs f = some old ∧ old.token = r.token ∧
            old.interest = r.interest) ∨
          ∃ h, (s.threads q).pc = .exec h (.inserted r.token f r.interest)) :
      (∃ old, (s.threads p).eventLoop.regs f = some old ∧ old.token = r.token ∧
          old.interest = r.interest) ∨
        ∃ h, (s.threads p).pc = .exec h (.inserted r.token f r.interest) := by
    rw [threads] at found
    by_cases same : p = q
    · subst same
      rw [Function.update_self] at found
      exact loop found
    · rw [Function.update_of_ne same] at found
      exact .inl ⟨r, found, rfl, rfl⟩
  cases effect with
  | full => exact .inl ⟨r, found, rfl, rfl⟩
  | quiet | fetchAdd | yield | ended | inserted | handled | pushed | popped | drained | resumed
  | took | left | finished | freed => exact update rfl fun reg => .inl ⟨r, reg, rfl, rfl⟩
  | spawnOut =>
      refine update (by simp [Sys.boxSpawned]; rfl) fun reg => .inl ⟨r, ?_, rfl, rfl⟩
      simpa using reg
  | spawnIn =>
      refine update (by simp [Sys.boxSpawned, Sys.switchBack]; rfl) fun reg => .inl ⟨r, ?_, rfl, rfl⟩
      simpa using reg
  | @setHolds f' interest' b =>
      cases b with
      | false => exact .inl ⟨r, found, rfl, rfl⟩
      | true => exact .inl (EventLoop.notify_origin found)
  | polled _ taken =>
      refine update rfl fun reg => .inl ?_
      rw [(EventLoop.poll_some taken).2.2.1] at reg
      split at reg
      · obtain ⟨old, there, rfl⟩ := Option.map_eq_some_iff.mp reg
        exact ⟨old, there, rfl, rfl⟩
      · exact ⟨r, reg, rfl, rfl⟩
  | @registered q h token f' interest' l at_pc taken =>
      refine update rfl fun reg => ?_
      rw [(EventLoop.registerOpt_some taken).2] at reg
      split at reg
      · rename_i same
        subst same
        cases reg
        exact .inr ⟨h, at_pc⟩
      · exact .inl ⟨r, reg, rfl, rfl⟩
  | deregistered _ taken =>
      refine update rfl fun reg => .inl ?_
      rw [EventLoop.deregister_some taken] at reg
      split at reg
      · cases reg
      · exact ⟨r, reg, rfl, rfl⟩

/-- The step of a coroutine that has nothing to choose is the switch that suspends it in its
`wait_event`. -/
theorem Effect.of_tau (inv : Placed s place) (effect : Effect s place (.tau p) s' place')
    (taken : step s (.tau p) = some s') {pt : Point} (at_pc : (s.threads p).pc = .exec c pt) :
    ∃ token, pt = .registered token ∧ s' = s.switchBack p c (.waitEvent p token) := by
  cases pt with
  | user | spawnOpts | inserted => simp [step, Sys.tau, at_pc] at taken
  | registered token => exact ⟨token, rfl, effect.of_registered at_pc rfl⟩
  | exiting st =>
      have life := inv.hand_life (p := p) (c := c) (by rw [at_pc]; rfl)
      simp only [Thread.HandLife, at_pc] at life
      exact absurd rfl (life.2.2.2 st)

/-- A thread comes to the point after `slabs.insert` from its own closure. -/
theorem Effect.at_inserted (effect : Effect s place a s' place') {f : Fd} {i : EventSet}
    (at_pc : (s'.threads p).pc = .exec c (.inserted token f i)) :
    (s.threads p).pc = .exec c (.inserted token f i) ∨
      (s.threads p).pc = .exec c .user ∧ a = .waitEvent p f i token := by
  by_cases mine : a.actor = some p
  · cases effect with
    | full | setHolds => exact .inl at_pc
    | quiet quiet => cases quiet <;> obtain rfl := Option.some.inj mine <;> simp at at_pc
    | fetchAdd from_pc =>
        obtain rfl := Option.some.inj mine
        rcases from_pc with ⟨-, rfl⟩ | ⟨h, -, rfl⟩ <;> simp [Sys.fetchAdd] at at_pc
    | spawnOut from_pc | spawnIn from_pc =>
        rcases from_pc with ⟨rfl, -⟩ | ⟨rfl, -⟩ <;> obtain rfl := Option.some.inj mine <;>
          simp [Sys.switchBack] at at_pc
    | yield _ yields =>
        cases yields <;> obtain rfl := Option.some.inj mine <;> simp [Sys.switchBack] at at_pc
    | ended _ ends =>
        cases ends <;> obtain rfl := Option.some.inj mine <;> simp [Sys.switchBack] at at_pc
    | inserted at_user =>
        obtain rfl := Option.some.inj mine
        simp only [Sys.setThread_threads, Function.update_self, Pc.exec.injEq,
          Point.inserted.injEq] at at_pc
        obtain ⟨rfl, rfl, rfl, rfl⟩ := at_pc
        exact .inr ⟨at_user, rfl⟩
    | pushed pushing =>
        obtain rfl := Option.some.inj mine
        cases at_push : (s.threads _).pc <;> simp_all [Pc.pushing, Pc.pushed]
    | @took q d k =>
        obtain rfl := Option.some.inj mine
        rcases Sys.runTaskArm_cases d k.result with arm | arm | arm <;> simp [arm] at at_pc
    | registered | polled | handled | deregistered | popped | drained | resumed | left | finished
    | freed =>
        obtain rfl := Option.some.inj mine
        simp [Sys.finished] at at_pc
  · obtain ⟨l, same⟩ := effect.others mine
    rw [same] at at_pc
    exact .inl at_pc

/-- `register_opt` touches no coroutine. -/
theorem register_coros {answer : Bool} (taken : step s (.register p answer) = some s') :
    s'.coros = s.coros := by
  cases at_pc : (s.threads p).pc with
  | exec h pt =>
      cases pt with
      | inserted token fd interest =>
          simp only [step, at_pc, Sys.register] at taken
          split at taken
          · obtain ⟨l, -, rfl⟩ := Option.map_eq_some_iff.mp taken
            rfl
          · cases taken
            rfl
      | _ => simp [step, at_pc] at taken
  | _ => simp [step, at_pc] at taken

/-- Only `setHolds` changes what holds. -/
theorem Effect.holds (effect : Effect s place a s' place') (kept : ∀ f i b, a ≠ .setHolds f i b) :
    s'.holds = s.holds := by
  cases effect with
  | @setHolds f i b => exact absurd rfl (kept f i b)
  | _ => rfl

/-! ## Whatever the others do -/

namespace Aims

/-- Its memory goes on to say that it runs or waits. -/
theorem cell_step (regs : Registers s) (inv : Placed s place) (aims : Aims s c fd interest)
    (waits : WaitsFor s c fd interest a) (effect : Effect s place a s' place')
    (taken : Runtime.step s a = some s') :
    (s'.coros c).cell = .running ∨ ∃ p token, (s'.coros c).cell = .saved (.waitEvent p token) := by
  by_cases mine : ∃ p pt, a.actor = some p ∧ (s.threads p).pc = .exec c pt
  · obtain ⟨p, pt, actor, at_pc⟩ := mine
    rcases waits p pt actor at_pc with rfl | ⟨answer, rfl⟩ | ⟨token, rfl, room⟩
    · obtain ⟨token, rfl, rfl⟩ := effect.of_tau inv taken at_pc
      exact .inr ⟨p, token, by simp [Sys.switchBack]⟩
    · rw [register_coros taken]
      exact aims.cell
    · rw [waitEvent_coros regs taken room]
      exact aims.cell
  · have turn := effect.turn inv c
    generalize s'.coros c = x at turn ⊢
    cases turn with
    | same | finished => exact aims.cell
    | resumed => exact .inl rfl
    | yield actor at_pc | ended actor at_pc => exact absurd ⟨_, _, actor, at_pc⟩ mine
    | spawned fresh =>
        have life := inv.life c
        rw [(inv.unborn c).2 (by rw [fresh])] at life
        have unborn : s.coros c = .unborn := life
        simpa [unborn, Coroutine.unborn] using aims.cell
    | @freed p _ at_pc =>
        have life := inv.hand_life (p := p) (c := c) (by rw [at_pc]; rfl)
        simp only [Thread.HandLife, at_pc] at life
        obtain ⟨⟨st, saved⟩, -⟩ := life
        simpa [saved] using aims.cell

theorem step (regs : Registers s) (inv : Placed s place) (aims : Aims s c fd interest)
    (waits : WaitsFor s c fd interest a) (effect : Effect s place a s' place')
    (taken : Runtime.step s a = some s') : Aims s' c fd interest where
  cell := aims.cell_step regs inv waits effect taken
  inserted p token f i at_pc := by
    rcases effect.at_inserted at_pc with before | ⟨at_user, rfl⟩
    · exact aims.inserted p token f i before
    · rcases waits p .user rfl at_user with same | ⟨answer, same⟩ | ⟨t, same, -⟩
      · cases same
      · cases same
      · cases same
        exact ⟨rfl, rfl⟩
  registered p token f r entry reg same := by
    -- the coroutine waits, so its entry is not new
    have before : (s.threads p).slabs.lookup token = some (c, f) := by
      rcases effect.lookup entry with ⟨before, -⟩ | ⟨i, at_pc⟩
      · exact before
      · have inv' := effect.placed inv
        have held : place' c = .hand p := inv'.at_hand (by rw [at_pc]; rfl)
        rcases inv'.waits_of_entry entry reg same with waiting | registered | ⟨back, -⟩
        · simp [held] at waiting
        · simp [at_pc] at registered
        · simp [at_pc] at back
    rcases effect.reg reg with ⟨old, there, token_same, interest_same⟩ | ⟨h, at_pc⟩
    · rw [← interest_same]
      exact aims.registered p token f old before there (token_same.trans same)
    · rw [same] at at_pc
      have own := (inv.io p).inserted h token f r.interest at_pc
      rw [before, Option.some.injEq, Prod.mk.injEq] at own
      obtain ⟨rfl, -⟩ := own
      exact aims.inserted p token f r.interest at_pc

end Aims

/-! ## What that says of a coroutine that waits -/

/-- Its entry and its registration; once the condition holds the event is there to be
taken, or has been taken and is about to be delivered. -/
structure Subscribed (s : Sys P) (c : CoroutineRefMut) (p : P) (token : Token) (fd : Fd)
    (interest : EventSet) : Prop where
  entry : (s.threads p).slabs.lookup token = some (c, fd)
  reg : ∃ r, (s.threads p).eventLoop.regs fd = some r ∧ r.token = token ∧ r.interest = interest
  event : s.holds fd interest = true →
    (s.threads p).eventLoop.isPending fd = true ∨ token ∈ (s.threads p).pc.batch

omit [DecidableEq P] in
theorem Aims.subscribed (inv : Placed s place) (armed_false : ArmedFalse s)
    (aims : Aims s c fd interest) (waits : place c = .wait p token) :
    Subscribed s c p token fd interest := by
  obtain ⟨f, r, entry, reg, same, polled⟩ := (inv.io p).entry c token (.inl waits)
  obtain ⟨rfl, rfl⟩ := aims.registered p token f r entry reg same
  refine ⟨entry, ⟨r, reg, same, rfl⟩, fun holds => ?_⟩
  cases phase : r.phase with
  | armed => simp [armed_false p f r reg phase] at holds
  | pending => exact .inl (by simp [EventLoop.isPending, reg, phase])
  | polled => exact .inr (polled phase)

omit [DecidableEq P] in
/-- Where a coroutine that runs or waits can be. -/
theorem Aims.located (inv : Placed s place) (aims : Aims s c fd interest) :
    (∃ p, place c = .hand p) ∨ place c = .queue ∨ ∃ p token, place c = .wait p token := by
  have life := inv.life c
  have cell := aims.cell
  cases at_c : place c with
  | hand p => exact .inl ⟨p, rfl⟩
  | queue => exact .inr (.inl rfl)
  | wait p token => exact .inr (.inr ⟨p, token, rfl⟩)
  | unborn | slot p | lost =>
      rw [at_c] at life
      have fresh : s.coros c = _ := life
      simp [fresh, Coroutine.unborn, Coroutine.spawned] at cell
  | parked | freed =>
      rw [at_c] at life
      simp [life.1] at cell

/-- Polling its event and three more steps of its thread queue a coroutine. -/
theorem Subscribed.wakes (subscribed : Subscribed s c p token fd interest)
    (pending : (s.threads p).eventLoop.isPending fd = true) (at_pc : (s.threads p).pc = .runOnce)
    (room : s.globalQueue.items.length < GLOBAL_QUEUE_SIZE) : ∃ s₁ s₂ s₃ s₄,
      step s (.poll p [fd]) = some s₁ ∧ step s₁ (.tau p) = some s₂ ∧ step s₂ (.tau p) = some s₃ ∧
        step s₃ (.tau p) = some s₄ ∧
      s₄.globalQueue.items = s.globalQueue.items ++ [c] := by
  obtain ⟨entry, ⟨r, reg, rfl, rfl⟩, -⟩ := subscribed
  obtain ⟨⟨l, tokens⟩, polled⟩ : ∃ taken, (s.threads p).eventLoop.poll [fd] = some taken := by
    simp [EventLoop.poll, pending]
  obtain ⟨-, -, regs, tokens_eq⟩ := EventLoop.poll_some polled
  obtain rfl : tokens = [r.token] := by simpa [reg] using tokens_eq
  have reg' : l.regs fd = some { r with phase := .polled } := by simp [regs, reg]
  obtain ⟨slabs, removed⟩ : ∃ slabs, (s.threads p).slabs.remove r.token = some ((c, fd), slabs) := by
    simp [Slab.remove, entry]
  obtain ⟨l', deregistered⟩ : ∃ l', l.deregister fd = some l' := by simp [EventLoop.deregister, reg']
  obtain ⟨q, pushed⟩ : ∃ q, s.globalQueue.push c = some q := by simp [BoundedQueue.push, room]
  let s₁ := s.setThread p { s.threads p with eventLoop := l, pc := .handle [r.token] }
  let s₂ := s₁.setThread p { s₁.threads p with slabs := slabs, pc := .deregister c fd [] }
  let s₃ := s₂.setThread p { s₂.threads p with eventLoop := l', pc := .wake c [] }
  refine ⟨s₁, s₂, s₃, { s₃ with globalQueue := q }.setPc p (.handle []), ?_, ?_, ?_, ?_, ?_⟩
  · simp [step, at_pc, polled, s₁]
  · simp [step, Sys.tau, s₁, s₂, Sys.handleEvent, removed]
  · simp [step, Sys.tau, s₁, s₂, s₃, Sys.deregister, deregistered]
  · simp [step, Sys.tau, s₁, s₂, s₃, Sys.ready, pushed]
  · exact BoundedQueue.push_some pushed

end SimpleSched.Runtime
