/-
# Runtime.PlaceStep -- every step keeps the placement

One lemma a kind of step: the steps that do not touch an event loop keep `IoOk`
by `IoOk.same`, the five that do (insert, register, poll, remove, deregister) say
what becomes of the entry and the registration of the one coroutine they are
about.  `Effect.placed` puts them together and `Placed.reach` carries the result
over every run.
-/
import SimpleSched.Runtime.Effect

namespace SimpleSched.Runtime

set_option autoImplicit false

open Mio Theory

variable {P : Type} [DecidableEq P] {s s' : Sys P} {place place' : Placing P} {p : P}

/-! ## Steps outside wait_event and IoHandler::ready -/

section

omit [DecidableEq P]

/-- The same coroutines wait, on an untouched slab and event loop. -/
theorem IoOk.same (io : IoOk s place p)
    (waiting : ∀ c token, Waiting s' place' p c token ↔ Waiting s place p c token)
    (wait : ∀ c token, place c = .wait p token → place' c = .wait p token)
    (slabs : (s'.threads p).slabs = (s.threads p).slabs)
    (loop : (s'.threads p).eventLoop = (s.threads p).eventLoop)
    (batch : (s'.threads p).pc.batch = (s.threads p).pc.batch)
    (before : ∀ c fd rest, (s.threads p).pc ≠ .deregister c fd rest)
    (after : ∀ c fd rest, (s'.threads p).pc ≠ .deregister c fd rest)
    (point : ∀ c token fd interest, (s'.threads p).pc ≠ .exec c (.inserted token fd interest))
    (here : ∀ c q token, (s'.threads p).pc = .back c →
      (s'.coros c).cell = .saved (.waitEvent q token) → q = p) : IoOk s' place' p where
  entry c token waits := by
    rw [slabs, loop, batch]
    exact io.entry c token ((waiting c token).1 waits)
  reg fd r found := by
    rw [loop] at found
    rw [slabs]
    rcases io.reg fd r found with ⟨c, waits, entry⟩ | ⟨c, rest, at_pc⟩
    · exact .inl ⟨c, (waiting c r.token).2 waits, entry⟩
    · exact absurd at_pc (before c fd rest)
  nodup := by rw [batch]; exact io.nodup
  batch token mem := by
    rw [batch] at mem
    obtain ⟨c, waits⟩ := io.batch token mem
    exact ⟨c, wait c token waits⟩
  inserted c token fd interest at_pc := absurd at_pc (point c token fd interest)
  removing c fd rest at_pc := absurd at_pc (after c fd rest)
  here := here

/-- The thread is not between the registration of a coroutine and its wait, nor
between the removal of an entry and its deregistration. -/
def Calm (s : Sys P) (p : P) : Prop :=
  match (s.threads p).pc with
  | .exec _ (.registered _) | .deregister _ _ _ => False
  | .back c => ∀ q token, (s.coros c).cell ≠ .saved (.waitEvent q token)
  | _ => True

theorem Calm.waiting (calm : Calm s p) (c : CoroutineRefMut) (token : Token) :
    Waiting s place p c token ↔ place c = .wait p token := by
  unfold Waiting
  refine ⟨?_, .inl⟩
  rintro (waits | at_pc | ⟨at_pc, saved⟩)
  · exact waits
  · simp [Calm, at_pc] at calm
  · simp only [Calm, at_pc] at calm
    exact absurd saved (calm p token)

theorem IoOk.calm (io : IoOk s place p) (before : Calm s p) (after : Calm s' p)
    (wait : ∀ c token, place' c = .wait p token ↔ place c = .wait p token)
    (slabs : (s'.threads p).slabs = (s.threads p).slabs)
    (loop : (s'.threads p).eventLoop = (s.threads p).eventLoop)
    (batch : (s'.threads p).pc.batch = (s.threads p).pc.batch)
    (point : ∀ c token fd interest, (s'.threads p).pc ≠ .exec c (.inserted token fd interest)) :
    IoOk s' place' p := by
  refine io.same ?_ (fun c token => (wait c token).2) slabs loop batch ?_ ?_ point ?_
  · intro c token
    rw [before.waiting, after.waiting, wait]
  · intro c fd rest at_pc
    simp [Calm, at_pc] at before
  · intro c fd rest at_pc
    simp [Calm, at_pc] at after
  · intro c q token at_pc saved
    simp only [Calm, at_pc] at after
    exact absurd saved (after q token)

theorem wait_update {c : CoroutineRefMut} {l : Place P} (near : ∀ token, place c ≠ .wait p token)
    (far : ∀ token, l ≠ .wait p token) (d : CoroutineRefMut) (token : Token) :
    Function.update place c l d = .wait p token ↔ place d = .wait p token := by
  by_cases same : d = c
  · subst same; simp [near token, far token]
  · rw [Function.update_of_ne same]

/-- Places at which a thread takes no part in a wait. -/
def Pc.Plain : Pc → Prop
  | .exec _ (.inserted _ _ _) | .exec _ (.registered _) | .deregister _ _ _ | .back _ => False
  | _ => True

theorem Pc.Plain.calm (plain : (s.threads p).pc.Plain) : Calm s p := by
  unfold Calm
  split <;> simp_all [Pc.Plain]

theorem Pc.Plain.point {pc : Pc} (plain : pc.Plain) (c : CoroutineRefMut) (token : Token)
    (fd : Fd) (interest : EventSet) : pc ≠ .exec c (.inserted token fd interest) := by
  rintro rfl
  simp [Pc.Plain] at plain

end

namespace Placed

/-- A step that changes only the thread's place in the code. -/
theorem setPc (inv : Placed s place) {pc : Pc} (hand : pc.hand = (s.threads p).pc.hand)
    (life : ∀ c, (s.threads p).pc.hand = some c →
      Thread.HandLife { s.threads p with pc := pc } (s.coros c))
    (io : IoOk (s.setPc p pc) place p) : Placed (s.setPc p pc) place := by
  refine inv.stay ?_ (fun _ _ => rfl) rfl rfl ?_ ?_ ?_ io
  · intro q other
    simp [Function.update_of_ne other]
  · simp
  · simpa using hand
  · intro c held
    simpa using life c held

theorem quiet (inv : Placed s place) {a : Act P} {pc : Pc} (quiet : Quiet s p a pc) :
    Placed (s.setPc p pc) place := by
  have calm (after : Calm (s.setPc p pc) p) (before : Calm s p)
      (batch : pc.batch = (s.threads p).pc.batch)
      (point : ∀ c token fd interest, pc ≠ .exec c (.inserted token fd interest)) :
      IoOk (s.setPc p pc) place p :=
    (inv.io p).calm before after (fun _ _ => Iff.rfl) (by simp) (by simp) (by simpa using batch)
      (by simpa using point)
  cases quiet with
  | enter at_pc | sched at_pc | block at_pc | empty at_pc | poll at_pc | count at_pc | stop at_pc
  | sleep at_pc | polled at_pc | drained at_pc | pollErr at_pc =>
      refine inv.setPc (by simp [at_pc, Pc.hand]) (by simp [at_pc, Pc.hand])
        (calm (by simp [Calm]) (by simp [Calm, at_pc]) (by simp [at_pc, Pc.batch]) (by simp))
  | leave at_pc =>
      rcases at_pc with at_pc | at_pc <;>
        exact inv.setPc (by simp [at_pc, Pc.hand]) (by simp [at_pc, Pc.hand])
          (calm (by simp [Calm]) (by simp [Calm, at_pc]) (by simp [at_pc, Pc.batch]) (by simp))
  | refused at_pc =>
      refine inv.setPc (by simp [at_pc, Pc.hand]) ?_
        (calm (by simp [Calm]) (by simp [Calm, at_pc]) (by simp [at_pc, Pc.batch]) (by simp))
      intro c held
      have life := inv.hand_life held
      simp only [Thread.HandLife, at_pc] at life ⊢
      exact ⟨life.1, life.2.1, life.2.2.1, by simp⟩

theorem fetchAdd (inv : Placed s place) {pc : Pc}
    (at_pc : (s.threads p).pc = .user ∧ pc = .userSpawn ∨
      ∃ h, (s.threads p).pc = .exec h .user ∧ pc = .exec h .spawnOpts) :
    Placed (s.fetchAdd p pc) place := by
  have more : Placed { s with workCounts := s.workCounts + 1 } place :=
    { queue := inv.queue, slot := inv.slot, hand := inv.hand, unborn := inv.unborn,
      life := inv.life, io := fun q => (inv.io q).congr rfl (fun _ _ => Iff.rfl) fun _ _ => rfl }
  rcases at_pc with ⟨at_pc, rfl⟩ | ⟨h, at_pc, rfl⟩
  · refine more.setPc (by simp [at_pc, Pc.hand]) (by simp [at_pc, Pc.hand]) ((more.io p).calm
      (by simp [Calm, at_pc]) (by simp [Calm]) (fun _ _ => Iff.rfl) (by simp) (by simp)
      (by simp [at_pc, Pc.batch]) (by simp))
  · refine more.setPc (by simp [at_pc, Pc.hand]) ?_ ((more.io p).calm
      (by simp [Calm, at_pc]) (by simp [Calm]) (fun _ _ => Iff.rfl) (by simp) (by simp)
      (by simp [at_pc, Pc.batch]) (by simp))
    intro c held
    have life := more.hand_life held
    simp only [Thread.HandLife, at_pc] at life ⊢
    exact ⟨life.1, life.2.1, life.2.2.1, by simp⟩

/-! ## Spawning -/

/-- The coroutine in a slot that is about to be overwritten is lost. -/
theorem lose (inv : Placed s place) {old : CoroutineRefMut}
    (filled : (s.threads p).newSpawned = some old) (plain : (s.threads p).pc.Plain) :
    Placed (s.setThread p { s.threads p with newSpawned := none })
      (Function.update place old .lost) := by
  have at_slot : place old = .slot p := (inv.slot p old).1 filled
  have life := inv.life old
  rw [at_slot] at life
  refine inv.move (p := p) ?_ (fun _ _ => rfl) rfl ?_ ?_ ?_ ?_ ?_ ?_ life ?_
  · intro q other
    simp [Function.update_of_ne other]
  · simp [at_slot, Place.Near, eq_comm]
  · simp [Place.Near]
  · intro d _ at_hand
    have life := inv.life d
    rw [at_hand] at life
    simpa [Life, Thread.HandLife] using life
  · exact inv.queue.frame (by simp [at_slot]) (by simp)
  · simpa using (filled ▸ inv.slot p).take (by simp)
  · simpa using (inv.hand p).frame (by simp [at_slot]) (by simp)
  · exact (inv.io p).calm plain.calm (Pc.Plain.calm (by simpa using plain))
      (wait_update (by simp [at_slot]) (by simp)) (by simp) (by simp) (by simp)
      (by simpa using plain.point)

/-- The new coroutine goes into an empty slot. -/
theorem box (inv : Placed s place) (vacant : (s.threads p).newSpawned = none) (plain : (s.threads p).pc.Plain) :
    Placed (s.boxSpawned p) (Function.update place s.next (.slot p)) := by
  have unborn : place s.next = .unborn := (inv.unborn s.next).2 le_rfl
  have born : ∀ d, (d = s.next → False) → (s.boxSpawned p).coros d = s.coros d := by
    intro d other
    simp [Sys.boxSpawned, Function.update_of_ne other]
  have threads : ∀ q, q ≠ p → (s.boxSpawned p).threads q = s.threads q := by
    intro q other
    simp [Sys.boxSpawned, Function.update_of_ne other]
  have here : (s.boxSpawned p).threads p = { s.threads p with newSpawned := some s.next } := by
    simp [Sys.boxSpawned]
  refine ⟨inv.queue.frame (by simp [unborn]) (by simp), ?_, ?_, ?_,
    ?_, ?_⟩
  · intro q
    by_cases same : q = p
    · subst same
      rw [here]
      exact (vacant ▸ inv.slot q).put
    · rw [threads q same]
      exact (inv.slot q).frame (by simp [unborn]) (by simpa using Ne.symm same)
  · intro q
    have pc : ((s.boxSpawned p).threads q).pc = (s.threads q).pc := by
      by_cases same : q = p
      · subst same; rw [here]
      · rw [threads q same]
    rw [pc]
    exact (inv.hand q).frame (by simp [unborn]) (by simp)
  · intro d
    have next : (s.boxSpawned p).next = s.next + 1 := rfl
    rw [next]
    by_cases same : d = s.next
    · subst same; simp
    · rw [Function.update_of_ne same, inv.unborn]
      exact ⟨fun le => Nat.lt_of_le_of_ne le (Ne.symm same), Nat.le_of_succ_le⟩
  · intro d
    by_cases same : d = s.next
    · subst same
      simp [Life, Sys.boxSpawned]
    · rw [Function.update_of_ne same, born d same]
      have life := inv.life d
      cases at_d : place d with
      | hand q =>
          rw [at_d] at life
          by_cases same_thread : q = p
          · subst same_thread
            simpa [Life, Thread.HandLife, here] using life
          · simpa [Life, threads q same_thread] using life
      | _ => simpa [at_d, Life] using life
  · intro q
    by_cases same : q = p
    · subst same
      exact (inv.io q).calm plain.calm (Pc.Plain.calm (by simpa [here] using plain))
        (wait_update (by simp [unborn]) (by simp)) (by simp [here]) (by simp [here]) (by simp [here])
        (by simpa [here] using plain.point)
    · refine (inv.io q).congr (threads q same) ?_ fun d at_back => born d ?_
      · intro d token
        exact wait_update (by simp [unborn]) (by simp) d token
      · rintro rfl
        have := inv.at_hand (c := s.next) (p := q) (by rw [at_back]; rfl)
        simp [unborn] at this

theorem boxSpawned (inv : Placed s place) (plain : (s.threads p).pc.Plain) :
    Placed (s.boxSpawned p) (place.spawn s p) := by
  unfold Placing.spawn
  split
  · rename_i old filled
    have emptied := (inv.lose filled plain).box (p := p) (by simp) (by simpa using plain)
    simpa [Sys.boxSpawned, Sys.setThread, Sys.setCoro] using emptied
  · rename_i vacant
    exact inv.box vacant plain

theorem spawnOut (inv : Placed s place)
    (at_pc : (s.threads p).pc = .user ∨ (s.threads p).pc = .userSpawn) :
    Placed ((s.boxSpawned p).setPc p .user) (place.spawn s p) := by
  have plain : (s.threads p).pc.Plain := by rcases at_pc with at_pc | at_pc <;> simp [at_pc, Pc.Plain]
  have boxed := inv.boxSpawned plain
  have at_pc' : ((s.boxSpawned p).threads p).pc = (s.threads p).pc := by simp [Sys.boxSpawned]
  refine boxed.setPc ?_ ?_ ((boxed.io p).calm (Pc.Plain.calm (at_pc' ▸ plain)) ?_
    (fun _ _ => Iff.rfl) ?_ ?_ ?_ ?_)
  · rcases at_pc with at_pc | at_pc <;> simp [at_pc', at_pc, Pc.hand]
  · intro c held
    rcases at_pc with at_pc | at_pc <;> simp [at_pc', at_pc, Pc.hand] at held
  · simp [Calm]
  · simp
  · simp
  · rcases at_pc with at_pc | at_pc <;> simp [at_pc', at_pc, Pc.batch]
  · simp

/-! ## Yielding and ending -/

/-- The running coroutine switches back to `run_task` with its context saved. -/
theorem switchBack (inv : Placed s place) {h : CoroutineRefMut} {pt : Point} {k : Context P}
    (at_pc : (s.threads p).pc = .exec h pt) (live : k.live = true)
    (io : IoOk (s.switchBack p h k) place p) : Placed (s.switchBack p h k) place := by
  have held : (s.threads p).pc.hand = some h := by rw [at_pc]; rfl
  have life := inv.hand_life held
  simp only [Thread.HandLife, at_pc] at life
  refine inv.stay ?_ ?_ rfl rfl ?_ ?_ ?_ io
  · intro q other
    simp [Sys.switchBack, Function.update_of_ne other]
  · intro d away
    have other : d ≠ h := by rintro rfl; exact away (inv.at_hand held)
    simp [Sys.switchBack, Function.update_of_ne other]
  · simp [Sys.switchBack]
  · simp [Sys.switchBack, at_pc, Pc.hand]
  · intro d at_hand
    obtain rfl : h = d := by simpa [held] using at_hand
    simpa [Thread.HandLife, Sys.switchBack, live] using
      ⟨life.2.1, life.2.2.1.ended, life.2.2.1.finished, life.2.2.1.dropped⟩

theorem spawnIn (inv : Placed s place) {h : CoroutineRefMut} {pt : Point}
    (at_pc : (s.threads p).pc = .exec h pt) (point : pt = .user ∨ pt = .spawnOpts) :
    Placed ((s.boxSpawned p).switchBack p h .spawnOpts) (place.spawn s p) := by
  have plain : (s.threads p).pc.Plain := by rcases point with rfl | rfl <;> simp [at_pc, Pc.Plain]
  have boxed := inv.boxSpawned plain
  have at_pc' : ((s.boxSpawned p).threads p).pc = .exec h pt := by
    simpa [Sys.boxSpawned] using at_pc
  refine boxed.switchBack at_pc' rfl ((boxed.io p).calm (Pc.Plain.calm ?_) ?_
    (fun _ _ => Iff.rfl) ?_ ?_ ?_ ?_)
  · simpa [Sys.boxSpawned] using plain
  · simp [Calm, Sys.switchBack]
  · simp [Sys.switchBack]
  · simp [Sys.switchBack]
  · simp [Sys.switchBack, at_pc', Pc.batch]
  · simp [Sys.switchBack]

theorem yields (inv : Placed s place) {h : CoroutineRefMut} {pt : Point} {a : Act P} {k : Context P}
    (at_pc : (s.threads p).pc = .exec h pt) (yields : Yields p pt a k) :
    Placed (s.switchBack p h k) place := by
  cases yields with
  | sched | block =>
      refine inv.switchBack at_pc rfl ((inv.io p).calm (Pc.Plain.calm ?_) ?_
        (fun _ _ => Iff.rfl) ?_ ?_ ?_ ?_) <;>
        simp [Sys.switchBack, at_pc, Pc.Plain, Calm, Pc.batch]
  | waitEvent =>
      rename_i token
      -- the wait goes on: the coroutine is registered before and after the switch
      refine inv.switchBack at_pc rfl ((inv.io p).same (fun c t => ?_) (fun _ _ => id)
        ?_ ?_ ?_ ?_ ?_ ?_ fun c q t at_back saved => ?_)
      · by_cases same : h = c
        · subst same
          simp [Waiting, at_pc, Sys.switchBack]
        · simp [Waiting, at_pc, Sys.switchBack, same]
      case refine_8 =>
        obtain rfl : h = c := by simpa [Sys.switchBack] using at_back
        have here : p = q ∧ token = t := by simpa [Sys.switchBack] using saved
        exact here.1.symm
      all_goals simp [Sys.switchBack, at_pc, Pc.batch]

theorem ended (inv : Placed s place) {h : CoroutineRefMut} {a : Act P} {k : Context P}
    {closed : List Fd} (at_pc : (s.threads p).pc = .exec h .user) (ends : Ends p a k) :
    Placed (({ s with closed := closed }.endClosure h).switchBack p h k) place := by
  have held : (s.threads p).pc.hand = some h := by rw [at_pc]; rfl
  have life := inv.hand_life held
  simp only [Thread.HandLife, at_pc] at life
  obtain ⟨-, resumed, past, -⟩ := life
  obtain ⟨st, rfl⟩ : ∃ st, k = .exited st := by cases ends <;> exact ⟨_, rfl⟩
  refine inv.stay (p := p) (fun q other => ?_) (fun d away => ?_) rfl rfl ?_ ?_
    (fun d at_hand => ?_) ((inv.io p).calm (Pc.Plain.calm ?_) ?_ (fun _ _ => Iff.rfl) ?_ ?_ ?_ ?_)
  · simp [Sys.switchBack, Sys.endClosure, Function.update_of_ne other]
  · have other : d ≠ h := by rintro rfl; exact away (inv.at_hand held)
    simp [Sys.switchBack, Sys.endClosure, Function.update_of_ne other]
  · simp [Sys.switchBack, Sys.endClosure]
  · simp [Sys.switchBack, Sys.endClosure, at_pc, Pc.hand]
  · obtain rfl : h = d := by simpa [held] using at_hand
    simpa [Thread.HandLife, Sys.switchBack, Sys.endClosure, Context.live] using
      ⟨resumed, by simp [past.ended], past.finished, past.dropped⟩
  · simp [at_pc, Pc.Plain]
  all_goals simp [Sys.switchBack, Sys.endClosure, Calm, at_pc, Pc.batch]

/-! ## wait_event and IoHandler::ready -/

/-- A step that changes the thread's slab, event loop and place in the code. -/
theorem setIo (inv : Placed s place) {t : Thread}
    (slot : t.newSpawned = (s.threads p).newSpawned) (hand : t.pc.hand = (s.threads p).pc.hand)
    (life : ∀ c, (s.threads p).pc.hand = some c → t.HandLife (s.coros c))
    (io : IoOk (s.setThread p t) place p) : Placed (s.setThread p t) place := by
  refine inv.stay ?_ (fun _ _ => rfl) rfl rfl ?_ ?_ ?_ io
  · intro q other
    simp [Function.update_of_ne other]
  · simpa using slot
  · simpa using hand
  · intro c held
    simpa using life c held

theorem inserted (inv : Placed s place) {h : CoroutineRefMut} {fd : Fd} {interest : EventSet}
    {token : Token} {slabs : Slab (CoroutineRefMut × Fd) MAX_TOKEN_NUM}
    (at_pc : (s.threads p).pc = .exec h .user)
    (taken : (s.threads p).slabs.insert token (h, fd) = some slabs) :
    Placed (s.setThread p { s.threads p with
      slabs := slabs, pc := .exec h (.inserted token fd interest) }) place := by
  obtain ⟨vacant, lookup⟩ := Slab.insert_some taken
  have io := inv.io p
  have kept : ∀ t c f, (s.threads p).slabs.lookup t = some (c, f) → slabs.lookup t = some (c, f) := by
    intro t c f found
    have other : t ≠ token := by rintro rfl; simp [vacant] at found
    simpa [lookup, other] using found
  refine inv.setIo rfl (by simp [at_pc, Pc.hand]) ?_
    { entry := ?_
      reg := ?_
      nodup := by simp [Pc.batch]
      batch := by simp [Pc.batch]
      inserted := ?_
      removing := by simp
      here := by simp }
  · intro c held
    have life := inv.hand_life held
    simp only [Thread.HandLife, at_pc] at life ⊢
    exact ⟨life.1, life.2.1, life.2.2.1, by simp⟩
  · intro c t waits
    have waits : place c = .wait p t := by simpa [Waiting] using waits
    obtain ⟨f, r, entry, reg, same, polled⟩ := io.entry c t (.inl waits)
    rw [at_pc] at polled
    exact ⟨f, r, by simpa using kept t c f entry, by simpa using reg, same,
      by simpa [Pc.batch] using polled⟩
  · intro f r found
    rcases io.reg f r (by simpa using found) with ⟨c, waits, entry⟩ | ⟨c, rest, at_deregister⟩
    · have waits : place c = .wait p r.token := by simpa [Waiting, at_pc] using waits
      exact .inl ⟨c, .inl waits, by simpa using kept _ c f entry⟩
    · simp [at_pc] at at_deregister
  · intro c t f e at_inserted
    simp only [Sys.setThread_threads, Function.update_self, Pc.exec.injEq,
      Point.inserted.injEq] at at_inserted
    obtain ⟨rfl, rfl, rfl, rfl⟩ := at_inserted
    simp [lookup]

theorem registered (inv : Placed s place) {h : CoroutineRefMut} {fd : Fd} {interest : EventSet}
    {token : Token} {holds : Bool} {l : EventLoop}
    (at_pc : (s.threads p).pc = .exec h (.inserted token fd interest))
    (taken : (s.threads p).eventLoop.registerOpt fd token interest holds = some l) :
    Placed (s.setThread p { s.threads p with eventLoop := l, pc := .exec h (.registered token) })
      place := by
  obtain ⟨vacant, regs⟩ := EventLoop.registerOpt_some taken
  have io := inv.io p
  have mine := io.inserted h token fd interest at_pc
  refine inv.setIo rfl (by simp [at_pc, Pc.hand]) ?_
    { entry := ?_
      reg := ?_
      nodup := by simp [Pc.batch]
      batch := by simp [Pc.batch]
      inserted := by simp
      removing := by simp
      here := by simp }
  · intro c held
    have life := inv.hand_life held
    simp only [Thread.HandLife, at_pc] at life ⊢
    exact ⟨life.1, life.2.1, life.2.2.1, by simp⟩
  · intro c t waits
    rcases waits with waits | at_registered | ⟨at_back, -⟩
    · obtain ⟨f, r, entry, reg, same, polled⟩ := io.entry c t (.inl waits)
      have other : f ≠ fd := by rintro rfl; simp [vacant] at reg
      rw [at_pc] at polled
      exact ⟨f, r, by simpa using entry, by simpa [regs, other] using reg, same,
        by simpa [Pc.batch] using polled⟩
    · simp only [Sys.setThread_threads, Function.update_self, Pc.exec.injEq,
        Point.registered.injEq] at at_registered
      obtain ⟨rfl, rfl⟩ := at_registered
      refine ⟨fd, _, by simpa using mine, by simp [regs]; rfl, rfl, ?_⟩
      split <;> simp
    · simp at at_back
  · intro f r found
    simp only [Sys.setThread_threads, Function.update_self, regs] at found ⊢
    split at found
    · rename_i same
      subst same
      simp only [Option.some.injEq] at found
      subst found
      exact .inl ⟨h, .inr (.inl (by simp)), mine⟩
    · rcases io.reg f r found with ⟨c, waits, entry⟩ | ⟨c, rest, at_deregister⟩
      · have waits : place c = .wait p r.token := by simpa [Waiting, at_pc] using waits
        exact .inl ⟨c, .inl waits, entry⟩
      · simp [at_pc] at at_deregister

omit [DecidableEq P] in
theorem setHolds (inv : Placed s place) (fd : Fd) (interest : EventSet) (b : Bool) :
    Placed (s.setHolds fd interest b) place := by
  have regs (q : P) (f : Fd) : ∃ g : Registration → Registration,
      ((s.setHolds fd interest b).threads q).eventLoop.regs f =
        ((s.threads q).eventLoop.regs f).map g ∧
      ∀ r, (g r).token = r.token ∧ ((g r).phase = .polled ↔ r.phase = .polled) := by
    cases b
    · exact ⟨id, by simp [Sys.setHolds], by simp⟩
    · exact EventLoop.notify_regs f
  refine ⟨inv.queue, inv.slot, inv.hand, inv.unborn, ?_, ?_⟩
  · intro c
    have life := inv.life c
    cases at_c : place c <;> rw [at_c] at life <;> exact life
  · intro q
    have io := inv.io q
    refine ⟨?_, ?_, io.nodup, io.batch, io.inserted,
      ?_, io.here⟩
    · intro c token waits
      obtain ⟨f, r, entry, reg, same, polled⟩ := io.entry c token waits
      obtain ⟨g, mapped, keeps⟩ := regs q f
      exact ⟨f, g r, entry, by rw [mapped, reg]; rfl, (keeps r).1.trans same,
        fun phase => polled ((keeps r).2.1 phase)⟩
    · intro f r found
      obtain ⟨g, mapped, keeps⟩ := regs q f
      rw [mapped] at found
      obtain ⟨old, reg, rfl⟩ := Option.map_eq_some_iff.mp found
      rw [(keeps old).1]
      exact io.reg f old reg
    · intro c f rest at_pc
      obtain ⟨r, reg, vacant⟩ := io.removing c f rest at_pc
      obtain ⟨g, mapped, keeps⟩ := regs q f
      exact ⟨g r, by rw [mapped, reg]; rfl, by rw [(keeps r).1]; exact vacant⟩

theorem polled (inv : Placed s place) {fds : List Fd} {l : EventLoop} {tokens : List Token}
    (at_pc : (s.threads p).pc = .runOnce)
    (taken : (s.threads p).eventLoop.poll fds = some (l, tokens)) :
    Placed (s.setThread p { s.threads p with eventLoop := l, pc := .handle tokens }) place := by
  obtain ⟨fds_nodup, pending, regs, rfl⟩ := EventLoop.poll_some taken
  have io := inv.io p
  have owner (f : Fd) (r : Registration) (found : (s.threads p).eventLoop.regs f = some r) :
      ∃ c, place c = .wait p r.token ∧ (s.threads p).slabs.lookup r.token = some (c, f) := by
    rcases io.reg f r found with ⟨c, waits, entry⟩ | ⟨c, rest, at_deregister⟩
    · exact ⟨c, by simpa [Waiting, at_pc] using waits, entry⟩
    · simp [at_pc] at at_deregister
  refine inv.setIo rfl (by simp [at_pc, Pc.hand]) (by simp [at_pc, Pc.hand])
    { entry := ?_
      reg := ?_
      nodup := ?_
      batch := ?_
      inserted := by simp
      removing := by simp
      here := by simp }
  · intro c t waits
    have waits : place c = .wait p t := by simpa [Waiting] using waits
    obtain ⟨f, r, entry, reg, same, polled⟩ := io.entry c t (.inl waits)
    rw [at_pc] at polled
    by_cases mem : f ∈ fds
    · refine ⟨f, { r with phase := .polled }, by simpa using entry, by simp [regs, mem, reg], same,
        ?_⟩
      intro _
      simpa [Pc.batch] using EventLoop.mem_tokens.2 ⟨f, mem, r, reg, same⟩
    · exact ⟨f, r, by simpa using entry, by simpa [regs, mem] using reg, same,
        fun phase => by simpa [Pc.batch] using polled phase⟩
  · intro f r found
    simp only [Sys.setThread_threads, Function.update_self, regs] at found ⊢
    obtain ⟨old, reg, same⟩ : ∃ old, (s.threads p).eventLoop.regs f = some old ∧
        old.token = r.token := by
      split at found
      · obtain ⟨old, reg, rfl⟩ := Option.map_eq_some_iff.mp found
        exact ⟨old, reg, rfl⟩
      · exact ⟨r, found, rfl⟩
    obtain ⟨c, waits, entry⟩ := owner f old reg
    rw [same] at waits entry
    exact .inl ⟨c, .inl waits, entry⟩
  · simp only [Sys.setThread_threads, Function.update_self, Pc.batch]
    refine EventLoop.nodup_tokens fds_nodup ?_
    intro f f' r r' found found' same
    obtain ⟨c, -, entry⟩ := owner f r found
    obtain ⟨c', -, entry'⟩ := owner f' r' found'
    rw [same, entry', Option.some.injEq, Prod.mk.injEq] at entry
    exact entry.2.symm
  · intro t mem
    simp only [Sys.setThread_threads, Function.update_self, Pc.batch] at mem
    obtain ⟨f, -, r, found, rfl⟩ := EventLoop.mem_tokens.1 mem
    obtain ⟨c, waits, -⟩ := owner f r found
    exact ⟨c, waits⟩

theorem deregistered (inv : Placed s place) {c : CoroutineRefMut} {fd : Fd} {rest : List Token}
    {l : EventLoop} (at_pc : (s.threads p).pc = .deregister c fd rest)
    (taken : (s.threads p).eventLoop.deregister fd = some l) :
    Placed (s.setThread p { s.threads p with eventLoop := l, pc := .wake c rest }) place := by
  have regs := EventLoop.deregister_some taken
  have io := inv.io p
  obtain ⟨gone, gone_reg, gone_entry⟩ := io.removing c fd rest at_pc
  refine inv.setIo rfl (by simp [at_pc, Pc.hand]) ?_
    { entry := ?_
      reg := ?_
      nodup := by simpa [at_pc, Pc.batch] using io.nodup
      batch := by simpa [at_pc, Pc.batch] using io.batch
      inserted := by simp
      removing := by simp
      here := by simp }
  · intro d held
    have life := inv.hand_life held
    simpa [Thread.HandLife, at_pc] using life
  · intro d t waits
    have waits : place d = .wait p t := by simpa [Waiting] using waits
    obtain ⟨f, r, entry, reg, same, polled⟩ := io.entry d t (.inl waits)
    -- the entry of the coroutine that is woken is gone, so this is another's descriptor
    have other : f ≠ fd := by
      rintro rfl
      rw [gone_reg, Option.some.injEq] at reg
      subst reg
      rw [same, entry] at gone_entry
      cases gone_entry
    rw [at_pc] at polled
    exact ⟨f, r, by simpa using entry, by simpa [regs, other] using reg, same,
      by simpa [Pc.batch] using polled⟩
  · intro f r found
    simp only [Sys.setThread_threads, Function.update_self, regs] at found ⊢
    split at found
    · cases found
    · rename_i other
      rcases io.reg f r found with ⟨d, waits, entry⟩ | ⟨d, rest', at_deregister⟩
      · have waits : place d = .wait p r.token := by simpa [Waiting, at_pc] using waits
        exact .inl ⟨d, .inl waits, entry⟩
      · rw [at_pc, Pc.deregister.injEq] at at_deregister
        exact absurd at_deregister.2.1.symm other

theorem handled (inv : Placed s place) {token : Token} {rest : List Token} {c : CoroutineRefMut}
    {fd : Fd} {slabs : Slab (CoroutineRefMut × Fd) MAX_TOKEN_NUM}
    (at_pc : (s.threads p).pc = .handle (token :: rest))
    (taken : (s.threads p).slabs.remove token = some ((c, fd), slabs))
    (waits : place c = .wait p token) :
    Placed (s.setThread p { s.threads p with slabs := slabs, pc := .deregister c fd rest })
      (Function.update place c (.hand p)) := by
  obtain ⟨found, lookup⟩ := Slab.remove_some taken
  have io := inv.io p
  have life := inv.life c
  rw [waits] at life
  obtain ⟨f, mine, mine_entry, mine_reg, mine_token, -⟩ := io.entry c token (.inl waits)
  obtain rfl : fd = f := by simpa [found] using mine_entry
  have nodup := io.nodup
  rw [at_pc, Pc.batch, List.nodup_cons] at nodup
  have empty : (s.threads p).pc.hand = none := by rw [at_pc]; rfl
  have slot := (inv.slot p).frame (r := c) (m := .hand p) (by simp [waits]) (by simp)
  have hand := (empty ▸ inv.hand p).put (r := c)
  refine inv.move (p := p) ?_ (fun _ _ => rfl) rfl ?_ ?_ (inv.alone (.inl empty))
    (inv.queue.frame (by simp [waits]) (by simp)) (by simpa using slot) (by simpa [Pc.hand] using hand) ?_
    { entry := ?_
      reg := ?_
      nodup := ?_
      batch := ?_
      inserted := by simp
      removing := ?_
      here := by simp }
  · intro q other
    simp [Function.update_of_ne other]
  · simpa [waits, Place.Near] using fun q other => Ne.symm other
  · simpa [Place.Near] using fun q other => Ne.symm other
  · simpa [Life, Thread.HandLife, Coroutine.Ready] using
      ⟨_, life.1, rfl, life.2.1, life.2.2⟩
  · intro d t later
    -- a coroutine that still waits is not the one that was taken
    have other : d ≠ c := by rintro rfl; simp [Waiting] at later
    have later : place d = .wait p t := by
      simpa [Waiting, Function.update_of_ne other] using later
    obtain ⟨f, r, entry, reg, same, polled⟩ := io.entry d t (.inl later)
    have apart : t ≠ token := by
      rintro rfl
      rw [found, Option.some.injEq, Prod.mk.injEq] at entry
      exact other entry.1.symm
    rw [at_pc] at polled
    exact ⟨f, r, by simpa [lookup, apart] using entry, by simpa using reg, same,
      by simpa [Pc.batch, apart] using polled⟩
  · intro f r reg
    rcases io.reg f r (by simpa using reg) with ⟨d, later, entry⟩ | ⟨d, rest', at_deregister⟩
    · have later : place d = .wait p r.token := by simpa [Waiting, at_pc] using later
      by_cases same : d = c
      · subst same
        rw [waits, Place.wait.injEq] at later
        rw [← later.2, found] at entry
        obtain rfl : fd = f := (Prod.mk.inj (Option.some.inj entry)).2
        exact .inr ⟨d, rest, by simp⟩
      · have apart : r.token ≠ token := by
          intro shared
          rw [shared, found, Option.some.injEq, Prod.mk.injEq] at entry
          exact same entry.1.symm
        exact .inl ⟨d, .inl (by rwa [Function.update_of_ne same]), by simpa [lookup, apart] using entry⟩
    · simp [at_pc] at at_deregister
  · simpa [Pc.batch] using nodup.2
  · intro t mem
    have mem : t ∈ rest := by simpa [Pc.batch] using mem
    obtain ⟨d, later⟩ := io.batch t (by rw [at_pc]; exact List.mem_cons_of_mem _ mem)
    have other : d ≠ c := by
      rintro rfl
      rw [waits, Place.wait.injEq] at later
      exact nodup.1 (by rwa [later.2])
    exact ⟨d, by rwa [Function.update_of_ne other]⟩
  · intro d f rest' at_deregister
    simp only [Sys.setThread_threads, Function.update_self, Pc.deregister.injEq] at at_deregister
    obtain ⟨rfl, rfl, rfl⟩ := at_deregister
    exact ⟨mine, by simpa using mine_reg, by simp [lookup, mine_token]⟩

/-! ## The queue, the slot and run_task -/

theorem pushed (inv : Placed s place) {c : CoroutineRefMut}
    {q : BoundedQueue CoroutineRefMut GLOBAL_QUEUE_SIZE}
    (pushing : (s.threads p).pc.pushing = some c) (taken : s.globalQueue.push c = some q) :
    Placed ({ s with globalQueue := q }.setPc p (s.threads p).pc.pushed)
      (Function.update place c .queue) := by
  have held := Pc.hand_of_pushing pushing
  have at_hand := inv.at_hand held
  have life := inv.hand_life held
  have ready : (s.coros c).Ready := by
    cases at_pc : (s.threads p).pc <;> simp_all [Pc.pushing, Thread.HandLife]
  have plain : (s.threads p).pc.Plain := by
    cases at_pc : (s.threads p).pc <;> simp_all [Pc.pushing, Pc.Plain]
  have empties : (s.threads p).pc.pushed.hand = none := by
    cases at_pc : (s.threads p).pc <;> simp_all [Pc.pushing, Pc.pushed, Pc.hand]
  have goes : (s.threads p).pc.pushed.Plain := by
    cases at_pc : (s.threads p).pc <;> simp_all [Pc.pushing, Pc.pushed, Pc.Plain]
  have batch : (s.threads p).pc.pushed.batch = (s.threads p).pc.batch := by
    cases at_pc : (s.threads p).pc <;> simp_all [Pc.pushing, Pc.pushed, Pc.batch]
  have queue := inv.queue.push (r := c) (by simp [at_hand])
  have slot := (inv.slot p).frame (r := c) (m := .queue) (by simp [at_hand]) (by simp)
  have hand := (held ▸ inv.hand p).take (m := Place.queue) (by simp)
  refine inv.move (p := p) ?_ (fun _ _ => rfl) rfl ?_ ?_ (inv.alone (.inr held))
    ?_ (by simpa using slot) (by simpa [empties] using hand) ready
    ((inv.io p).calm plain.calm (Pc.Plain.calm (by simpa using goes))
      (wait_update (by simp [at_hand]) (by simp)) (by simp) (by simp) (by simpa using batch)
      (by simpa using goes.point))
  · intro q other
    simp [Function.update_of_ne other]
  · simpa [at_hand, Place.Near] using fun q other => Ne.symm other
  · simp [Place.Near]
  · simpa [BoundedQueue.push_some taken] using queue

theorem popped (inv : Placed s place) {c : CoroutineRefMut}
    {q : BoundedQueue CoroutineRefMut GLOBAL_QUEUE_SIZE} (at_pc : (s.threads p).pc = .pop)
    (taken : s.globalQueue.pop = some (c, q)) :
    Placed ({ s with globalQueue := q }.setPc p (.runTask c)) (Function.update place c (.hand p)) := by
  have items := BoundedQueue.pop_some taken
  have queued : place c = .queue := (inv.queue.mem c).1 (by simp [items])
  have life := inv.life c
  rw [queued] at life
  obtain ⟨k, saved, live, -, past⟩ := life
  have empty : (s.threads p).pc.hand = none := by rw [at_pc]; rfl
  have queue := (items ▸ inv.queue).pop (m := Place.hand p) (by simp)
  have slot := (inv.slot p).frame (r := c) (m := .hand p) (by simp [queued]) (by simp)
  have hand := (empty ▸ inv.hand p).put (r := c)
  refine inv.move (p := p) ?_ (fun _ _ => rfl) rfl ?_ ?_ (inv.alone (.inl empty))
    queue (by simpa using slot) (by simpa [Pc.hand] using hand) ?_
    ((inv.io p).calm (by simp [Calm, at_pc]) (by simp [Calm])
      (wait_update (by simp [queued]) (by simp)) (by simp) (by simp) (by simp [at_pc, Pc.batch])
      (by simp))
  · intro q other
    simp [Function.update_of_ne other]
  · simp [queued, Place.Near]
  · simpa [Place.Near] using fun q other => Ne.symm other
  · simpa [Life, Thread.HandLife] using ⟨k, saved, live, past⟩

theorem drained (inv : Placed s place) {c : CoroutineRefMut} (at_pc : (s.threads p).pc = .drain)
    (filled : (s.threads p).newSpawned = some c) :
    Placed (s.setThread p { s.threads p with newSpawned := none, pc := .runTask c })
      (Function.update place c (.hand p)) := by
  have at_slot : place c = .slot p := (inv.slot p c).1 filled
  have life := inv.life c
  rw [at_slot] at life
  have empty : (s.threads p).pc.hand = none := by rw [at_pc]; rfl
  have slot := (filled ▸ inv.slot p).take (m := Place.hand p) (by simp)
  have hand := (empty ▸ inv.hand p).put (r := c)
  refine inv.move (p := p) ?_ (fun _ _ => rfl) rfl ?_ ?_ (inv.alone (.inl empty))
    (inv.queue.frame (by simp [at_slot]) (by simp)) (by simpa using slot)
    (by simpa [Pc.hand] using hand) ?_
    ((inv.io p).calm (by simp [Calm, at_pc]) (by simp [Calm])
      (wait_update (by simp [at_slot]) (by simp)) (by simp) (by simp) (by simp [at_pc, Pc.batch])
      (by simp))
  · intro q other
    simp [Function.update_of_ne other]
  · simpa [at_slot, Place.Near] using fun q other => Ne.symm other
  · simpa [Place.Near] using fun q other => Ne.symm other
  · have spawned : s.coros c = .spawned := life
    simp only [Life, Sys.setThread_threads, Sys.setThread_coros, Function.update_self,
      Thread.HandLife, spawned]
    exact ⟨.coroutineInitialize, rfl, rfl, ⟨rfl, rfl, rfl⟩⟩

theorem resumed (inv : Placed s place) {c : CoroutineRefMut}
    (at_pc : (s.threads p).pc = .runTask c) :
    Placed ((s.setThread p { s.threads p with curRunning := some c, pc := .exec c .user }).setCoro c
      { s.coros c with cell := .running, resumed := (s.coros c).resumed + 1 }) place := by
  have held : (s.threads p).pc.hand = some c := by rw [at_pc]; rfl
  have life := inv.hand_life held
  simp only [Thread.HandLife, at_pc] at life
  obtain ⟨k, -, -, past⟩ := life
  refine inv.stay (p := p) ?_ ?_ rfl rfl ?_ ?_ ?_
    ((inv.io p).calm (by simp [Calm, at_pc]) (by simp [Calm]) (fun _ _ => Iff.rfl) (by simp)
      (by simp) (by simp [at_pc, Pc.batch]) (by simp))
  · intro q other
    simp [Function.update_of_ne other]
  · intro d away
    have other : d ≠ c := by rintro rfl; exact away (inv.at_hand held)
    simp [Function.update_of_ne other]
  · simp
  · simp [at_pc, Pc.hand]
  · intro d at_hand
    obtain rfl : c = d := by simpa [held] using at_hand
    simpa [Thread.HandLife] using ⟨past.ended, past.finished, past.dropped⟩

theorem took (inv : Placed s place) {c : CoroutineRefMut} {k : Context P}
    (at_pc : (s.threads p).pc = .back c) (saved : (s.coros c).cell = .saved k)
    (runs : k.result ≠ .ok .blocked) :
    Placed (s.setThread p { s.threads p with lastResult := none, pc := Sys.runTaskArm c k.result })
      place := by
  have held : (s.threads p).pc.hand = some c := by rw [at_pc]; rfl
  have life := inv.hand_life held
  simp only [Thread.HandLife, at_pc, saved] at life
  obtain ⟨k', same, resumed, past, -⟩ := life
  obtain rfl : k = k' := by simpa using same
  have calm : Calm s p := by
    simp only [Calm, at_pc, saved]
    rintro q token same
    simp only [Cell.saved.injEq] at same
    subst same
    exact runs rfl
  have keep (pc : Pc) (arm : Sys.runTaskArm c k.result = pc) (plain : pc.Plain)
      (batch : pc.batch = []) (hand : pc.hand = some c)
      (life : Thread.HandLife { s.threads p with lastResult := none, pc := pc } (s.coros c)) :
      Placed (s.setThread p { s.threads p with
        lastResult := none, pc := Sys.runTaskArm c k.result }) place := by
    rw [arm]
    refine inv.setIo rfl (hand.trans held.symm) ?_
      ((inv.io p).calm calm (Pc.Plain.calm (by simpa using plain)) (fun _ _ => Iff.rfl) (by simp)
        (by simp) (by simp [at_pc, batch, Pc.batch.eq_def (.back c)]) (by simpa using plain.point))
    intro d at_hand
    obtain rfl : c = d := by simpa [held] using at_hand
    exact life
  cases k with
  | block | waitEvent => exact absurd rfl runs
  | coroutineInitialize | spawnOpts | sched =>
      exact keep (.requeue c) rfl trivial rfl rfl ⟨_, saved, rfl, resumed, past⟩
  | exited st =>
      refine keep (.finish c) ?_ trivial rfl rfl ⟨⟨st, saved⟩, resumed, past⟩
      cases st <;> rfl

theorem left (inv : Placed s place) {c : CoroutineRefMut} {k : Context P} {l : Place P}
    (at_pc : (s.threads p).pc = .back c) (saved : (s.coros c).cell = .saved k)
    (goes : k = .block ∧ l = .parked ∨ ∃ token, k = .waitEvent p token ∧ l = .wait p token) :
    Placed (s.setThread p { s.threads p with lastResult := none, pc := .drain })
      (Function.update place c l) := by
  have held : (s.threads p).pc.hand = some c := by rw [at_pc]; rfl
  have at_hand := inv.at_hand held
  have life := inv.hand_life held
  simp only [Thread.HandLife, at_pc, saved] at life
  obtain ⟨k', same, resumed, past, -⟩ := life
  obtain rfl : k = k' := by simpa using same
  have near : l.Near p := by
    rcases goes with ⟨-, rfl⟩ | ⟨token, -, rfl⟩
    · simp [Place.Near]
    · simpa [Place.Near] using fun q other => Ne.symm other
  have away : l ≠ .queue ∧ l ≠ .slot p ∧ l ≠ .hand p := by
    rcases goes with ⟨-, rfl⟩ | ⟨token, -, rfl⟩ <;> simp
  have slot := (inv.slot p).frame (r := c) (by simp [at_hand]) away.2.1
  have hand := (held ▸ inv.hand p).take away.2.2
  refine inv.move (p := p) ?_ (fun _ _ => rfl) rfl ?_ near (inv.alone (.inr held))
    (inv.queue.frame (by simp [at_hand]) away.1) (by simpa using slot) (by simpa [Pc.hand] using hand)
    ?_ ?_
  · intro q other
    simp [Function.update_of_ne other]
  · simpa [at_hand, Place.Near] using fun q other => Ne.symm other
  · rcases goes with ⟨rfl, rfl⟩ | ⟨token, rfl, rfl⟩ <;> exact ⟨saved, resumed, past⟩
  · rcases goes with ⟨rfl, rfl⟩ | ⟨token, rfl, rfl⟩
    · exact (inv.io p).calm (by simp [Calm, at_pc, saved]) (by simp [Calm])
        (wait_update (by simp [at_hand]) (by simp)) (by simp) (by simp) (by simp [at_pc, Pc.batch])
        (by simp)
    · refine (inv.io p).same (fun d t => ?_) (fun d t => ?_) ?_ ?_ ?_ ?_ ?_ ?_ ?_
      · by_cases same : d = c
        · subst same
          simp [Waiting, at_pc, saved, at_hand]
        · simp [Waiting, at_pc, Function.update_of_ne same, Ne.symm same]
      · have other (waits : place d = .wait p t) : d ≠ c := by
          rintro rfl
          simp [at_hand] at waits
        exact fun waits => by rwa [Function.update_of_ne (other waits)]
      all_goals simp [at_pc, Pc.batch]

theorem finished (inv : Placed s place) {c : CoroutineRefMut}
    (at_pc : (s.threads p).pc = .finish c) : Placed (s.finished p c) place := by
  have held : (s.threads p).pc.hand = some c := by rw [at_pc]; rfl
  have life := inv.hand_life held
  simp only [Thread.HandLife, at_pc] at life
  obtain ⟨⟨st, saved⟩, resumed, past⟩ := life
  refine inv.stay (p := p) (fun q other => ?_) (fun d away => ?_) rfl rfl ?_ ?_
    (fun d at_hand => ?_) ((inv.io p).calm (Pc.Plain.calm ?_) ?_ (fun _ _ => Iff.rfl) ?_ ?_ ?_ ?_)
  · simp [Sys.finished, Function.update_of_ne other]
  · have other : d ≠ c := by rintro rfl; exact away (inv.at_hand held)
    simp [Sys.finished, Function.update_of_ne other]
  · simp [Sys.finished]
  · simp [Sys.finished, at_pc, Pc.hand]
  · obtain rfl : c = d := by simpa [held] using at_hand
    simpa [Thread.HandLife, Sys.finished] using
      ⟨⟨st, saved⟩, resumed, past.ended, by simp [past.finished], past.dropped⟩
  · simp [at_pc, Pc.Plain]
  all_goals simp [Sys.finished, Calm, at_pc, Pc.batch]

theorem freed (inv : Placed s place) {c : CoroutineRefMut} (at_pc : (s.threads p).pc = .free c) :
    Placed ((s.setPc p .drain).setCoro c
      { s.coros c with cell := .freed, dropped := (s.coros c).dropped + 1 })
      (Function.update place c .freed) := by
  have held : (s.threads p).pc.hand = some c := by rw [at_pc]; rfl
  have at_hand := inv.at_hand held
  have life := inv.hand_life held
  simp only [Thread.HandLife, at_pc] at life
  obtain ⟨-, resumed, past⟩ := life
  have slot := (inv.slot p).frame (r := c) (m := Place.freed) (by simp [at_hand]) (by simp)
  have hand := (held ▸ inv.hand p).take (m := Place.freed) (by simp)
  refine inv.move (p := p) ?_ ?_ rfl ?_ ?_ (inv.alone (.inr held))
    (inv.queue.frame (by simp [at_hand]) (by simp)) (by simpa using slot) (by simpa [Pc.hand] using hand)
    ⟨?_, ?_, ?_⟩ ((inv.io p).calm (by simp [Calm, at_pc]) (by simp [Calm])
      (wait_update (by simp [at_hand]) (by simp)) (by simp) (by simp) (by simp [at_pc, Pc.batch])
      (by simp))
  · intro q other
    simp [Function.update_of_ne other]
  · intro d other
    simp [Function.update_of_ne other]
  · simpa [at_hand, Place.Near] using fun q other => Ne.symm other
  · simp [Place.Near]
  · simp
  · simpa using resumed
  · exact ⟨by simpa using past.ended, by simpa using past.finished, by simp [past.dropped]⟩

end Placed

theorem Effect.placed (inv : Placed s place) {a : Act P} (effect : Effect s place a s' place') :
    Placed s' place' := by
  cases effect with
  | quiet quiet => exact inv.quiet quiet
  | full => exact inv
  | fetchAdd at_pc => exact inv.fetchAdd at_pc
  | spawnOut at_pc =>
      rcases at_pc with ⟨-, at_pc⟩ | ⟨-, at_pc⟩
      · exact inv.spawnOut (.inr at_pc)
      · exact inv.spawnOut (.inl at_pc)
  | spawnIn at_pc =>
      rcases at_pc with ⟨-, at_pc⟩ | ⟨-, at_pc⟩
      · exact inv.spawnIn at_pc (.inr rfl)
      · exact inv.spawnIn at_pc (.inl rfl)
  | yield at_pc yields => exact inv.yields at_pc yields
  | ended at_pc ends => exact inv.ended at_pc ends
  | inserted at_pc taken => exact inv.inserted at_pc taken
  | registered at_pc taken => exact inv.registered at_pc taken
  | setHolds => exact inv.setHolds _ _ _
  | polled at_pc taken => exact inv.polled at_pc taken
  | handled at_pc taken waits => exact inv.handled at_pc taken waits
  | deregistered at_pc taken => exact inv.deregistered at_pc taken
  | pushed pushing taken => exact inv.pushed pushing taken
  | popped at_pc taken => exact inv.popped at_pc taken
  | drained at_pc filled => exact inv.drained at_pc filled
  | resumed at_pc => exact inv.resumed at_pc
  | took at_pc saved runs => exact inv.took at_pc saved runs
  | left at_pc saved goes => exact inv.left at_pc saved goes
  | finished at_pc => exact inv.finished at_pc
  | freed at_pc => exact inv.freed at_pc

/-- The rule of invariants for the runtime: what the effect of every step that
meets `ok` keeps holds, together with the placement, in every state reached. -/
theorem reach_placed {ok : Sys P → Act P → Prop} {I : Sys P → Placing P → Prop}
    (reached : (system P).Reach ok .init s) (start : I .init fun _ => .unborn)
    (kept : ∀ s place a s' place', Registers s → Placed s place → I s place → ok s a →
      Effect s place a s' place' → I s' place') : ∃ place, Placed s place ∧ I s place := by
  refine reached.invariant (I := fun s => ∃ place, Placed s place ∧ I s place)
    ⟨_, .init, start⟩ ?_
  rintro s a s' before ⟨place, inv, holds⟩ meets taken
  have regs := Registers.reach before
  obtain ⟨place', effect⟩ := effect_of_step regs inv taken
  exact ⟨place', effect.placed inv, kept s place a s' place' regs inv holds meets effect⟩

theorem placed_of_reach {ok : Sys P → Act P → Prop} (reached : (system P).Reach ok .init s) :
    ∃ place, Placed s place := by
  obtain ⟨place, inv, -⟩ := reach_placed (I := fun _ _ => True) reached trivial
    fun _ _ _ _ _ _ _ _ _ _ => trivial
  exact ⟨place, inv⟩

end SimpleSched.Runtime
