/-
# Runtime.Place -- every coroutine is at one place

`Place` is the abstract life of a coroutine: spawned into the slot of a
processor, taken into a thread's hand, from there to the queue, to a wait on an
event loop, or freed.  `Placed s place` says that the system's containers hold
exactly what `place` puts there (`Theory.Lists`, `Theory.Holds`), that each
coroutine's memory and history are those of its place (`Life`), and that each
slab and event loop agree on who waits (`IoOk`).

`lost` is a coroutine whose slot was overwritten, `parked` one that called
`Scheduler::block` itself: no container holds either.  A slab may hold entries of
coroutines that do not wait; only waiting ones are registered.
-/
import SimpleSched.Runtime.Registers
import SimpleSched.Theory.Placement

namespace SimpleSched.Runtime

set_option autoImplicit false

open Mio Theory

inductive Place (P : Type)
  | unborn
  | slot (p : P)
  | queue
  | hand (p : P)
  | wait (p : P) (token : Token)
  | parked
  | lost
  | freed
  deriving DecidableEq

abbrev Placing (P : Type) := CoroutineRefMut → Place P

variable {P : Type}

/-! ## What a coroutine's memory holds at each place -/

def Context.live : Context P → Bool
  | .exited _ => false
  | _ => true

theorem Context.live_point {k : Context P} (live : k.live = true) : k.point = .user := by
  cases k <;> first | rfl | cases live

/-- The result `resume` returns for a coroutine that yielded into this context. -/
def Context.result : Context P → Result
  | .coroutineInitialize | .spawnOpts | .sched => .ok .suspended
  | .block | .waitEvent _ _ => .ok .blocked
  | .exited .panicked => .error .panicking
  | .exited _ => .ok .finished

/-- How often the closure has ended, `finished` was called and the box dropped. -/
structure Coroutine.Past (x : Coroutine P) (ended finished dropped : Nat) : Prop where
  ended : x.ended = ended
  finished : x.finished = finished
  dropped : x.dropped = dropped

/-- The coroutine has run, and can be resumed. -/
def Coroutine.Ready (x : Coroutine P) : Prop :=
  ∃ k, x.cell = .saved k ∧ k.live = true ∧ 1 ≤ x.resumed ∧ x.Past 0 0 0

def Thread.HandLife (t : Thread) (x : Coroutine P) : Prop :=
  match t.pc with
  | .runTask _ => ∃ k, x.cell = .saved k ∧ k.live = true ∧ x.Past 0 0 0
  | .exec _ pt => x.cell = .running ∧ 1 ≤ x.resumed ∧ x.Past 0 0 0 ∧ ∀ st, pt ≠ .exiting st
  | .back _ => ∃ k, x.cell = .saved k ∧ 1 ≤ x.resumed ∧ x.Past (if k.live then 0 else 1) 0 0 ∧
      t.lastResult = some k.result
  | .deregister _ _ _ | .wake _ _ | .requeue _ => x.Ready
  | .finish _ => (∃ st, x.cell = .saved (.exited st)) ∧ 1 ≤ x.resumed ∧ x.Past 1 0 0
  | .free _ => (∃ st, x.cell = .saved (.exited st)) ∧ 1 ≤ x.resumed ∧ x.Past 1 1 0
  | _ => True

def Life (threads : P → Thread) : Place P → Coroutine P → Prop
  | .unborn, x => x = .unborn
  | .slot _, x | .lost, x => x = .spawned
  | .queue, x => x.Ready
  | .wait p token, x => x.cell = .saved (.waitEvent p token) ∧ 1 ≤ x.resumed ∧ x.Past 0 0 0
  | .parked, x => x.cell = .saved .block ∧ 1 ≤ x.resumed ∧ x.Past 0 0 0
  | .hand p, x => (threads p).HandLife x
  | .freed, x => x.cell = .freed ∧ 1 ≤ x.resumed ∧ x.Past 1 1 1

/-! ## Who waits on an event loop -/

/-- `c` is in a `wait_event` on `p` that has registered `token` and was not woken. -/
def Waiting (s : Sys P) (place : Placing P) (p : P) (c : CoroutineRefMut) (token : Token) : Prop :=
  place c = .wait p token ∨ (s.threads p).pc = .exec c (.registered token) ∨
    (s.threads p).pc = .back c ∧ (s.coros c).cell = .saved (.waitEvent p token)

structure IoOk (s : Sys P) (place : Placing P) (p : P) : Prop where
  entry : ∀ c token, Waiting s place p c token → ∃ fd r,
    (s.threads p).slabs.lookup token = some (c, fd) ∧ (s.threads p).eventLoop.regs fd = some r ∧
      r.token = token ∧ (r.phase = .polled → token ∈ (s.threads p).pc.batch)
  reg : ∀ fd r, (s.threads p).eventLoop.regs fd = some r →
    (∃ c, Waiting s place p c r.token ∧ (s.threads p).slabs.lookup r.token = some (c, fd)) ∨
      ∃ c rest, (s.threads p).pc = .deregister c fd rest
  nodup : (s.threads p).pc.batch.Nodup
  batch : ∀ token ∈ (s.threads p).pc.batch, ∃ c, place c = .wait p token
  inserted : ∀ c token fd interest, (s.threads p).pc = .exec c (.inserted token fd interest) →
    (s.threads p).slabs.lookup token = some (c, fd)
  removing : ∀ c fd rest, (s.threads p).pc = .deregister c fd rest →
    ∃ r, (s.threads p).eventLoop.regs fd = some r ∧ (s.threads p).slabs.lookup r.token = none
  here : ∀ c q token, (s.threads p).pc = .back c → (s.coros c).cell = .saved (.waitEvent q token) →
    q = p

structure Placed (s : Sys P) (place : Placing P) : Prop where
  queue : Lists place .queue s.globalQueue.items
  slot : ∀ p, Holds place (.slot p) (s.threads p).newSpawned
  hand : ∀ p, Holds place (.hand p) (s.threads p).pc.hand
  unborn : ∀ c, place c = .unborn ↔ s.next ≤ c
  life : ∀ c, Life s.threads (place c) (s.coros c)
  io : ∀ p, IoOk s place p

theorem Placed.init : Placed (Sys.init : Sys P) fun _ => .unborn where
  queue := .nil (by simp)
  slot _ := .of_empty (by simp)
  hand _ := .of_empty (by simp)
  unborn _ := by simp [Sys.init]
  life _ := rfl
  io p :=
    { entry := by simp [Waiting, Sys.init]
      reg := by simp [Sys.init, Processor.new, EventLoop.new]
      nodup := List.nodup_nil
      batch := by simp [Sys.init, Pc.batch]
      inserted := by simp [Sys.init]
      removing := by simp [Sys.init]
      here := by simp [Sys.init] }

/-! ## Steps that move one coroutine -/

/-- Not a place of another thread. -/
def Place.Near (p : P) (l : Place P) : Prop :=
  l ≠ .unborn ∧ ∀ q, q ≠ p → l ≠ .slot q ∧ l ≠ .hand q ∧ ∀ token, l ≠ .wait q token

theorem Life.congr {threads threads' : P → Thread} {l : Place P} {x : Coroutine P}
    (life : Life threads l x) (same : ∀ q, l = .hand q → threads' q = threads q) :
    Life threads' l x := by
  cases l with
  | hand q =>
      simp only [Life] at life ⊢
      rw [same q rfl]
      exact life
  | _ => exact life

theorem Waiting.congr {s s' : Sys P} {place place' : Placing P} {q : P}
    (thread : s'.threads q = s.threads q)
    (wait : ∀ d token, place' d = .wait q token ↔ place d = .wait q token)
    (cell : ∀ d, (s.threads q).pc = .back d → s'.coros d = s.coros d)
    (d : CoroutineRefMut) (token : Token) :
    Waiting s' place' q d token ↔ Waiting s place q d token := by
  unfold Waiting
  rw [thread, wait]
  by_cases at_back : (s.threads q).pc = .back d
  · rw [cell d at_back]
  · simp [at_back]

theorem IoOk.congr {s s' : Sys P} {place place' : Placing P} {q : P} (io : IoOk s place q)
    (thread : s'.threads q = s.threads q)
    (wait : ∀ d token, place' d = .wait q token ↔ place d = .wait q token)
    (cell : ∀ d, (s.threads q).pc = .back d → s'.coros d = s.coros d) : IoOk s' place' q where
  entry d token waiting := by
    rw [thread]
    exact io.entry d token ((Waiting.congr thread wait cell d token).1 waiting)
  reg fd r found := by
    rw [thread] at found ⊢
    refine (io.reg fd r found).imp_left ?_
    rintro ⟨d, waiting, entry⟩
    exact ⟨d, (Waiting.congr thread wait cell d r.token).2 waiting, entry⟩
  nodup := by rw [thread]; exact io.nodup
  batch token mem := by
    rw [thread] at mem
    obtain ⟨d, waits⟩ := io.batch token mem
    exact ⟨d, (wait d token).2 waits⟩
  inserted d token fd interest at_pc := by
    rw [thread] at at_pc ⊢
    exact io.inserted d token fd interest at_pc
  removing d fd rest at_pc := by
    rw [thread] at at_pc ⊢
    exact io.removing d fd rest at_pc
  here d q' token at_pc saved := by
    rw [thread] at at_pc
    exact io.here d q' token at_pc (cell d at_pc ▸ saved)

namespace Placed

variable {s s' : Sys P} {place : Placing P} {p : P} {c : CoroutineRefMut} {l : Place P}

/-- A thread has no other coroutine than the one in its hand. -/
theorem alone (inv : Placed s place) {motive : CoroutineRefMut → Prop}
    (held : (s.threads p).pc.hand = none ∨ (s.threads p).pc.hand = some c) :
    ∀ d, d ≠ c → place d = .hand p → motive d := by
  intro d other at_hand
  have := (inv.hand p d).2 at_hand
  rcases held with none | held
  · simp [none] at this
  · rw [held, Option.some.injEq] at this
    exact absurd this.symm other

theorem at_hand (inv : Placed s place) (held : (s.threads p).pc.hand = some c) :
    place c = .hand p := (inv.hand p c).1 held

theorem hand_life (inv : Placed s place) (held : (s.threads p).pc.hand = some c) :
    (s.threads p).HandLife (s.coros c) := by
  have life := inv.life c
  rw [inv.at_hand held] at life
  exact life

theorem born (inv : Placed s place) (placed : place c ≠ .unborn) : c < s.next :=
  Nat.lt_of_not_le fun young => placed ((inv.unborn c).2 young)

/-- A coroutine is not finished, or it is being freed, or it has been. -/
theorem past (inv : Placed s place) (c : CoroutineRefMut) :
    (∃ e, (s.coros c).Past e 0 0) ∨ (∃ p, (s.threads p).pc = .free c ∧ (s.coros c).Past 1 1 0) ∨
      place c = .freed ∧ (s.coros c).Past 1 1 1 := by
  have life := inv.life c
  cases at_c : place c with
  | freed =>
      rw [at_c] at life
      exact .inr (.inr ⟨rfl, life.2.2⟩)
  | unborn | slot p | lost =>
      rw [at_c] at life
      have fresh : s.coros c = _ := life
      exact .inl ⟨0, by rw [fresh]; exact ⟨rfl, rfl, rfl⟩⟩
  | queue =>
      rw [at_c] at life
      obtain ⟨k, -, -, -, past⟩ := life
      exact .inl ⟨0, past⟩
  | wait p token | parked =>
      rw [at_c] at life
      exact .inl ⟨0, life.2.2⟩
  | hand p =>
      have held := (inv.hand p c).2 at_c
      rw [at_c] at life
      simp only [Life] at life
      cases at_pc : (s.threads p).pc <;>
        simp only [at_pc, Pc.hand, Option.some.injEq, reduceCtorEq] at held
      all_goals
        subst held
        simp only [Thread.HandLife, at_pc] at life
      case free => exact .inr (.inl ⟨p, at_pc, life.2.2⟩)
      case exec => exact .inl ⟨0, life.2.2.1⟩
      case finish => exact .inl ⟨1, life.2.2⟩
      case runTask =>
        obtain ⟨k, -, -, past⟩ := life
        exact .inl ⟨0, past⟩
      case back =>
        obtain ⟨k, -, -, past, -⟩ := life
        exact .inl ⟨_, past⟩
      all_goals
        obtain ⟨k, -, -, -, past⟩ := life
        exact .inl ⟨0, past⟩

/-- A step of `p` that moves `c` between places that are not another thread's
leaves every other thread and coroutine as it was; what remains is about `p` and `c`. -/
theorem move (inv : Placed s place)
    (threads : ∀ q, q ≠ p → s'.threads q = s.threads q)
    (coros : ∀ d, d ≠ c → s'.coros d = s.coros d) (next : s'.next = s.next)
    (near : (place c).Near p) (far : l.Near p)
    (others : ∀ d, d ≠ c → place d = .hand p → (s'.threads p).HandLife (s.coros d))
    (queue : Lists (Function.update place c l) .queue s'.globalQueue.items)
    (slot : Holds (Function.update place c l) (.slot p) (s'.threads p).newSpawned)
    (hand : Holds (Function.update place c l) (.hand p) (s'.threads p).pc.hand)
    (life : Life s'.threads l (s'.coros c))
    (io : IoOk s' (Function.update place c l) p) : Placed s' (Function.update place c l) where
  queue := queue
  slot q := by
    by_cases same : q = p
    · subst same; exact slot
    · rw [threads q same]
      exact (inv.slot q).frame (near.2 q same).1 (far.2 q same).1
  hand q := by
    by_cases same : q = p
    · subst same; exact hand
    · rw [threads q same]
      exact (inv.hand q).frame (near.2 q same).2.1 (far.2 q same).2.1
  unborn d := by
    rw [next]
    by_cases same : d = c
    · subst same
      simpa [far.1] using (inv.unborn d).not.1 near.1
    · rw [Function.update_of_ne same]
      exact inv.unborn d
  life d := by
    by_cases same : d = c
    · subst same; simpa using life
    · rw [Function.update_of_ne same, coros d same]
      by_cases held : place d = .hand p
      · rw [held]
        exact others d same held
      · refine (inv.life d).congr fun q at_hand => threads q ?_
        rintro rfl
        exact held at_hand
  io q := by
    by_cases same : q = p
    · subst same; exact io
    · refine (inv.io q).congr (threads q same) ?_ fun d at_back => coros d ?_
      · intro d token
        by_cases moved : d = c
        · subst moved
          simp [(far.2 q same).2.2 token, (near.2 q same).2.2 token]
        · rw [Function.update_of_ne moved]
      · rintro rfl
        exact (near.2 q same).2.1 (inv.at_hand (by rw [at_back]; rfl))

/-- A step of `p` that moves no coroutine between places. -/
theorem stay (inv : Placed s place)
    (threads : ∀ q, q ≠ p → s'.threads q = s.threads q)
    (coros : ∀ d, place d ≠ .hand p → s'.coros d = s.coros d) (next : s'.next = s.next)
    (queue : s'.globalQueue = s.globalQueue)
    (slot : (s'.threads p).newSpawned = (s.threads p).newSpawned)
    (hand : (s'.threads p).pc.hand = (s.threads p).pc.hand)
    (life : ∀ d, (s.threads p).pc.hand = some d → (s'.threads p).HandLife (s'.coros d))
    (io : IoOk s' place p) : Placed s' place where
  queue := by rw [queue]; exact inv.queue
  slot q := by
    by_cases same : q = p
    · subst same; rw [slot]; exact inv.slot q
    · rw [threads q same]; exact inv.slot q
  hand q := by
    by_cases same : q = p
    · subst same; rw [hand]; exact inv.hand q
    · rw [threads q same]; exact inv.hand q
  unborn d := by rw [next]; exact inv.unborn d
  life d := by
    by_cases held : place d = .hand p
    · rw [held]
      exact life d ((inv.hand p d).2 held)
    · rw [coros d held]
      refine (inv.life d).congr fun q at_hand => threads q ?_
      rintro rfl
      exact held at_hand
  io q := by
    by_cases same : q = p
    · subst same; exact io
    · refine (inv.io q).congr (threads q same) (fun _ _ => Iff.rfl) fun d at_back => coros d ?_
      have held : place d = .hand q := inv.at_hand (by rw [at_back]; rfl)
      simp [held, same]

end Placed

end SimpleSched.Runtime
