/-
# Runtime.Wakeup -- every wait has its event, every event its wait

A coroutine blocked in `wait_event` has one slab entry, on the processor it blocked
on, and there one registration under that entry's token, not yet delivered
(`Placed`, `NoLeak`).  Delivery takes the entry, then the registration, then queues
that coroutine; nothing else ends the wait.  A registration that is still armed
waits for a condition that does not hold (`ArmedFalse`), so no wake-up is lost
between the registration and the condition.
-/
import SimpleSched.Runtime.Exclusive

namespace SimpleSched.Runtime

set_option autoImplicit false

open Mio Theory

variable {P : Type}

/-- Suspended in `wait_event`, called on `p` and holding `token` of its slab. -/
structure Blocked (s : Sys P) (c : CoroutineRefMut) (p : P) (token : Token) : Prop where
  saved : (s.coros c).cell = .saved (.waitEvent p token)
  queue : c ∉ s.globalQueue.items
  hand : ∀ q, (s.threads q).pc.hand ≠ some c

/-- An armed registration waits for a condition that does not hold. -/
def ArmedFalse (s : Sys P) : Prop :=
  ∀ p fd r, (s.threads p).eventLoop.regs fd = some r → r.phase = .armed →
    s.holds fd r.interest = false

/-- The entry and the undelivered registration of a blocked coroutine: there is one of
each, under the same token, and no other entry has the coroutine. -/
structure Awaited (s : Sys P) (c : CoroutineRefMut) (p : P) (token : Token) (fd : Fd)
    (r : Registration) : Prop where
  entry : (s.threads p).slabs.lookup token = some (c, fd)
  only_entry : ∀ q t f, (s.threads q).slabs.lookup t = some (c, f) → q = p ∧ t = token
  reg : (s.threads p).eventLoop.regs fd = some r
  same_token : r.token = token
  only_reg : ∀ f r', (s.threads p).eventLoop.regs f = some r' → r'.token = token → f = fd
  undelivered : r.phase = .polled → token ∈ (s.threads p).pc.batch
  not_missed : r.phase = .armed → s.holds fd r.interest = false

/-- What the wait of a coroutine and the delivery of an event come to. -/
structure Wakeups [DecidableEq P] (s : Sys P) : Prop where
  awaited : ∀ c p token, Blocked s c p token → ∃ fd r, Awaited s c p token fd r
  /-- the event of a token takes the entry of the coroutine that waits under it -/
  removed : ∀ p token rest, (s.threads p).pc = .handle (token :: rest) → ∃ c fd s',
    Blocked s c p token ∧ step s (.tau p) = some s' ∧ (s'.threads p).pc = .deregister c fd rest ∧
      ∀ q t f, (s'.threads q).slabs.lookup t ≠ some (c, f)
  /-- then its registration -/
  deregistered : ∀ p c fd rest, (s.threads p).pc = .deregister c fd rest → ∃ s',
    step s (.tau p) = some s' ∧ (s'.threads p).pc = .wake c rest ∧
      ∀ f, (s'.threads p).eventLoop.regs f = if f = fd then none else (s.threads p).eventLoop.regs f
  /-- and queues this coroutine, once; a full queue is tried again -/
  queued : ∀ p c rest, (s.threads p).pc = .wake c rest → c ∉ s.globalQueue.items ∧ ∃ s',
    step s (.tau p) = some s' ∧ (s.globalQueue.items.length = GLOBAL_QUEUE_SIZE ∧ s' = s ∨
      s'.globalQueue.items = s.globalQueue.items ++ [c] ∧ (s'.threads p).pc = .handle rest)
  /-- nothing else ends a wait -/
  ends : ∀ a s' c p token, step s a = some s' → Blocked s c p token →
    Blocked s' c p token ∨ a = .tau p ∧ ∃ rest, (s.threads p).pc = .handle (token :: rest)

variable {s s' : Sys P} {place place' : Placing P} {a : Act P} {p : P} {c : CoroutineRefMut}
  {token : Token}

theorem Placed.blocked_iff (inv : Placed s place) :
    Blocked s c p token ↔ place c = .wait p token := by
  constructor
  · rintro ⟨saved, queue, hand⟩
    have life := inv.life c
    cases at_c : place c with
    | queue => exact absurd ((inv.queue.mem c).2 at_c) queue
    | hand q => exact absurd ((inv.hand q c).2 at_c) (hand q)
    | unborn | slot q | lost =>
        rw [at_c] at life
        have fresh : s.coros c = _ := life
        simp [fresh, Coroutine.unborn, Coroutine.spawned] at saved
    | wait q t =>
        rw [at_c] at life
        have same := saved.symm.trans life.1
        simp only [Cell.saved.injEq, Context.waitEvent.injEq] at same
        rw [same.1, same.2]
    | parked | freed =>
        rw [at_c] at life
        simp [life.1] at saved
  · intro at_c
    have life := inv.life c
    rw [at_c] at life
    refine ⟨life.1, ?_, ?_⟩
    · intro queued
      simpa [at_c] using (inv.queue.mem c).1 queued
    · intro q held
      simpa [at_c] using inv.at_hand held

/-! ## No wake-up is lost -/

variable [DecidableEq P]

theorem ArmedFalse.step (armed_false : ArmedFalse s) (effect : Effect s place a s' place') :
    ArmedFalse s' := by
  intro q fd r found armed
  have update {p : P} {t : Thread}
      (loop : ∀ f r, t.eventLoop.regs f = some r → r.phase = .armed →
        (s.threads p).eventLoop.regs f = some r ∨ s.holds f r.interest = false)
      (found : (Function.update s.threads p t q).eventLoop.regs fd = some r) :
      s.holds fd r.interest = false := by
    by_cases same : q = p
    · subst same
      rw [Function.update_self] at found
      rcases loop fd r found armed with old | false
      · exact armed_false q fd r old armed
      · exact false
    · rw [Function.update_of_ne same] at found
      exact armed_false q fd r found armed
  cases effect with
  | full => exact armed_false q fd r found armed
  | quiet | fetchAdd | yield | ended | inserted | handled | pushed | popped | drained | resumed
  | took | left | finished | freed =>
      refine update ?_ found
      exact fun _ _ reg _ => .inl reg
  | spawnOut | spawnIn =>
      simp only [Sys.boxSpawned, Sys.switchBack, Sys.setPc_threads, Sys.setThread_threads,
        Sys.setCoro_threads, Function.update_idem] at found
      refine update ?_ found
      exact fun f r reg _ => .inl (by simpa using reg)
  | registered _ taken =>
      refine update ?_ found
      intro f r reg armed
      rw [(EventLoop.registerOpt_some taken).2] at reg
      split at reg
      · rename_i same
        cases reg
        subst same
        split at armed
        · cases armed
        · rename_i falsely
          exact .inr (Bool.eq_false_iff.2 falsely)
      · exact .inl reg
  | polled _ taken =>
      refine update ?_ found
      intro f r reg armed
      rw [(EventLoop.poll_some taken).2.2.1] at reg
      split at reg
      · obtain ⟨old, -, rfl⟩ := Option.map_eq_some_iff.mp reg
        cases armed
      · exact .inl reg
  | deregistered _ taken =>
      refine update ?_ found
      intro f r reg armed
      rw [EventLoop.deregister_some taken] at reg
      split at reg
      · cases reg
      · exact .inl reg
  | @setHolds f interest b =>
      cases b with
      | false =>
          have old := armed_false q fd r found armed
          simp only [Sys.setHolds]
          split
          · rfl
          · exact old
      | true =>
          obtain ⟨reg, other⟩ := EventLoop.notify_armed found armed
          have old := armed_false q fd r reg armed
          simp only [Sys.setHolds]
          rw [if_neg other]
          exact old

omit [DecidableEq P] in
theorem ArmedFalse.init : ArmedFalse (Sys.init : Sys P) := by
  intro p fd r found
  simp [Sys.init, Processor.new, EventLoop.new] at found

/-! ## Waiting and delivery -/

omit [DecidableEq P] in
theorem Placed.awaited (inv : Placed s place) (none_left : NoLeak s place)
    (armed_false : ArmedFalse s) (waits : place c = .wait p token) :
    ∃ fd r, Awaited s c p token fd r := by
  have io := inv.io p
  obtain ⟨fd, r, entry, reg, same, polled⟩ := io.entry c token (.inl waits)
  refine ⟨fd, r, entry, ?_, reg, same, ?_, polled,
    armed_false p fd r reg⟩
  · intro q t f found
    rcases inv.entry none_left found with here | ⟨held, -⟩
    · rw [waits, Place.wait.injEq] at here
      exact ⟨here.1.symm, here.2.symm⟩
    · simp [waits] at held
  · intro f r' reg' same'
    rcases io.reg f r' reg' with ⟨d, -, entry'⟩ | ⟨d, rest, at_pc⟩
    · rw [same', entry, Option.some.injEq, Prod.mk.injEq] at entry'
      exact entry'.2.symm
    · obtain ⟨r'', reg'', gone⟩ := io.removing d f rest at_pc
      rw [reg', Option.some.injEq] at reg''
      rw [← reg'', same', entry] at gone
      cases gone

theorem Placed.removed (inv : Placed s place) (none_left : NoLeak s place) {rest : List Token}
    (at_pc : (s.threads p).pc = .handle (token :: rest)) : ∃ c fd s',
      Blocked s c p token ∧ step s (.tau p) = some s' ∧ (s'.threads p).pc = .deregister c fd rest ∧
        ∀ q t f, (s'.threads q).slabs.lookup t ≠ some (c, f) := by
  obtain ⟨c, waits⟩ := (inv.io p).batch token (by simp [at_pc, Pc.batch])
  obtain ⟨fd, r, entry, -⟩ := (inv.io p).entry c token (.inl waits)
  obtain ⟨⟨⟨d, f⟩, slabs⟩, removed⟩ : ∃ found, (s.threads p).slabs.remove token = some found := by
    apply Option.ne_none_iff_exists'.1
    intro none
    rw [Slab.remove_none, entry] at none
    cases none
  obtain ⟨found, lookup⟩ := Slab.remove_some removed
  rw [entry, Option.some.injEq, Prod.mk.injEq] at found
  obtain ⟨rfl, rfl⟩ := found
  have taken : step s (.tau p) = some (s.setThread p
      { s.threads p with slabs := slabs, pc := .deregister c fd rest }) := by
    simp only [step, Sys.tau, at_pc, Sys.handleEvent, removed]
  have effect : Effect s place (.tau p) _ _ := .handled at_pc removed waits
  refine ⟨c, fd, _, inv.blocked_iff.2 waits, taken, by simp, ?_⟩
  intro q t f found
  -- the coroutine is in the hand of the thread now, and inside no wait
  have inv' := effect.placed inv
  rcases inv'.entry (none_left.step inv (by simp) effect) found with here | ⟨held, inside⟩
  · simp at here
  · obtain rfl : p = q := by simpa using held
    rcases inside with ⟨_, _, at_pc'⟩ | at_pc' | ⟨at_pc', -⟩ <;> simp at at_pc'

theorem Placed.deregisters (inv : Placed s place) {fd : Fd} {rest : List Token}
    (at_pc : (s.threads p).pc = .deregister c fd rest) : ∃ s',
      step s (.tau p) = some s' ∧ (s'.threads p).pc = .wake c rest ∧
        ∀ f, (s'.threads p).eventLoop.regs f = if f = fd then none else (s.threads p).eventLoop.regs f := by
  obtain ⟨r, reg, -⟩ := (inv.io p).removing c fd rest at_pc
  obtain ⟨l, removed⟩ : ∃ l, (s.threads p).eventLoop.deregister fd = some l := by
    simp [EventLoop.deregister, reg]
  refine ⟨s.setThread p { s.threads p with eventLoop := l, pc := .wake c rest }, ?_, by simp, ?_⟩
  · simp only [step, Sys.tau, at_pc, Sys.deregister, removed]
  · simpa using EventLoop.deregister_some removed

theorem Placed.queues (inv : Placed s place) {rest : List Token}
    (at_pc : (s.threads p).pc = .wake c rest) : c ∉ s.globalQueue.items ∧ ∃ s',
      step s (.tau p) = some s' ∧ (s.globalQueue.items.length = GLOBAL_QUEUE_SIZE ∧ s' = s ∨
        s'.globalQueue.items = s.globalQueue.items ++ [c] ∧ (s'.threads p).pc = .handle rest) := by
  have held : place c = .hand p := inv.at_hand (by rw [at_pc]; rfl)
  refine ⟨fun queued => by simpa [held] using (inv.queue.mem c).1 queued, ?_⟩
  simp only [step, Sys.tau, at_pc, Option.some.injEq, exists_eq_left', Sys.ready]
  cases pushed : s.globalQueue.push c with
  | none => exact .inl ⟨BoundedQueue.push_none.1 pushed, rfl⟩
  | some q => exact .inr ⟨by simpa using BoundedQueue.push_some pushed, by simp⟩

/-- As long as registrations succeed no wake-up is lost, doubled or misdirected. -/
theorem wakeups_when_accepted (reached : (system P).Reach Accepted .init s) : Wakeups s := by
  obtain ⟨place, inv, none_left, armed_false⟩ := reach_placed
    (I := fun s place => NoLeak s place ∧ ArmedFalse s) reached ⟨.init, .init⟩
    fun _ _ _ _ _ _ inv holds accepted effect =>
      ⟨holds.1.step inv accepted effect, holds.2.step effect⟩
  refine ⟨fun c p token blocked => inv.awaited none_left armed_false (inv.blocked_iff.1 blocked),
    fun p token rest at_pc => inv.removed none_left at_pc,
    fun p c fd rest at_pc => inv.deregisters at_pc, fun p c rest at_pc => inv.queues at_pc,
    ?_⟩
  intro a s' c p token taken blocked
  obtain ⟨place', effect⟩ := effect_of_step (Registers.reach reached) inv taken
  exact (effect.wait_place inv (inv.blocked_iff.1 blocked)).imp_left
    (effect.placed inv).blocked_iff.2

/-- A coroutine waits for descriptor 5 to be readable, it becomes so, and the event
is taken. -/
def oneEvent : List (Act Unit) :=
  [.spawn (), .spawnInner (), .enter (), .tau (), .tau (), .tau (), .tau (), .tau (),
    .waitEvent () 5 EventSet.readable 0, .register () true, .tau (), .tau (), .tau (), .tau (), .tau (),
    .setHolds 5 EventSet.readable true, .poll () [5]]

theorem one_event_delivered : ∃ s, (system Unit).exec .init oneEvent = some s ∧ Wakeups s ∧
    ∃ c fd s', Blocked s c () 0 ∧ step s (.tau ()) = some s' ∧ (s'.threads ()).pc = .deregister c fd [] := by
  have polled : ((system Unit).exec .init oneEvent).any
      (fun s => (s.threads ()).pc = .handle [0]) = true := by decide +kernel
  obtain ⟨s, run, at_pc⟩ := (Option.any_eq_true _ _).1 polled
  have wakeups := wakeups_when_accepted (.of_exec run
    (Lts.meets_of_forall (by simp [Accepted, oneEvent])))
  obtain ⟨c, fd, s', blocked, taken, goes, -⟩ := wakeups.removed () 0 [] (of_decide_eq_true at_pc)
  exact ⟨s, run, wakeups, c, fd, s', blocked, taken, goes⟩

end SimpleSched.Runtime
