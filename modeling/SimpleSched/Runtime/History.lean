/-
# Runtime.History -- what a step adds to a coroutine's history

For developments over the runtime: in a run, whatever its condition, a coroutine's
closure ends only by a step of the thread that executes it (`ended_of_step`), and
nothing is taken back (`resumed_of_step`, `next_of_step`).  `unended_of_step` says which
coroutines there are after a step, and have not ended.
-/
import SimpleSched.Runtime.PlaceStep

namespace SimpleSched.Runtime

set_option autoImplicit false

open Mio Theory

variable {P : Type}

/-- The closure `p` executes ends: `wait_event` panics on a full slab. -/
def Act.EndsOn (s : Sys P) (p : P) : Act P → Prop
  | .ret q | .panic q => q = p
  | .waitEvent q _ _ _ => q = p ∧ (s.threads p).slabs.count = MAX_TOKEN_NUM
  | _ => False

/-- A coroutine is boxed. -/
def Act.boxes : Act P → Bool
  | .spawnInner _ | .processorSpawn _ => true
  | _ => false

variable [DecidableEq P] {ok : Sys P → Act P → Prop} {s s' : Sys P} {a : Act P} {p : P}
  {c : CoroutineRefMut}

theorem turn_of_step (reached : (system P).Reach ok .init s) (taken : step s a = some s') :
    Turn s a c (s'.coros c) := by
  obtain ⟨place, inv⟩ := placed_of_reach reached
  obtain ⟨place', effect⟩ := effect_of_step (Registers.reach reached) inv taken
  exact effect.turn inv c

/-- What a thread executes has run, and has not ended. -/
theorem executing_life (reached : (system P).Reach ok .init s) {pt : Point}
    (at_pc : (s.threads p).pc = .exec c pt) :
    1 ≤ (s.coros c).resumed ∧ (s.coros c).ended = 0 := by
  obtain ⟨place, inv⟩ := placed_of_reach reached
  have life := inv.hand_life (p := p) (c := c) (by rw [at_pc]; rfl)
  simp only [Thread.HandLife, at_pc] at life
  exact ⟨life.2.1, life.2.2.1.ended⟩

theorem unborn_of_reach (reached : (system P).Reach ok .init s) (young : s.next ≤ c) :
    s.coros c = .unborn := by
  obtain ⟨place, inv⟩ := placed_of_reach reached
  have life := inv.life c
  rwa [(inv.unborn c).2 young] at life

/-- On a slab with room `wait_event` goes on to `register_opt`. -/
theorem waitEvent_coros (regs : Registers s) {fd : Fd} {interest : EventSet} {token : Token}
    (taken : step s (.waitEvent p fd interest token) = some s')
    (room : (s.threads p).slabs.count ≠ MAX_TOKEN_NUM) : s'.coros = s.coros := by
  cases at_pc : (s.threads p).pc with
  | exec h pt =>
      cases pt with
      | user =>
          have here := regs.executing at_pc
          simp only [step, at_pc, Sys.insertWaiter, here.1, room, if_false,
            Option.map_eq_some_iff] at taken
          obtain ⟨slabs, -, rfl⟩ := taken
          rfl
      | _ => simp [step, at_pc] at taken
  | _ => simp [step, at_pc] at taken

/-- A closure ends by a step of the thread that executes it. -/
theorem ended_of_step (reached : (system P).Reach ok .init s) (taken : step s a = some s') :
    (s'.coros c).ended = (s.coros c).ended ∨ (s'.coros c).ended = (s.coros c).ended + 1 ∧
      ∃ p, (s.threads p).pc = .exec c .user ∧ a.EndsOn s p := by
  have turn := turn_of_step (c := c) reached taken
  by_cases room : ∃ p fd interest token, a = .waitEvent p fd interest token ∧
      (s.threads p).slabs.count ≠ MAX_TOKEN_NUM
  · obtain ⟨p, fd, interest, token, rfl, room⟩ := room
    rw [waitEvent_coros (Registers.reach reached) taken room]
    exact .inl rfl
  · generalize s'.coros c = x at turn ⊢
    cases turn with
    | same | yield | resumed | finished | freed => exact .inl rfl
    | spawned new =>
        rw [unborn_of_reach reached (Nat.le_of_eq new.symm)]
        exact .inl rfl
    | @ended p k actor at_pc ends =>
        refine .inr ⟨rfl, p, at_pc, ?_⟩
        cases ends with
        | ret | panic => rfl
        | slabFull => exact ⟨rfl, by simpa using room⟩

theorem ended_of_panic (reached : (system P).Reach ok .init s)
    (at_pc : (s.threads p).pc = .exec c .user) (taken : step s (.panic p) = some s') :
    (s'.coros c).ended = (s.coros c).ended + 1 := by
  have here := (Registers.reach reached).executing at_pc
  simp only [step, at_pc, Option.some.injEq] at taken
  subst taken
  simp [Sys.panic, Sys.endClosure, Sys.yieldWith, here.1]

theorem resumed_of_step (reached : (system P).Reach ok .init s) (taken : step s a = some s') :
    (s.coros c).resumed ≤ (s'.coros c).resumed := by
  have turn := turn_of_step (c := c) reached taken
  generalize s'.coros c = x at turn ⊢
  cases turn with
  | same | yield | ended | finished | freed => exact Nat.le_refl _
  | spawned new =>
      rw [unborn_of_reach reached (Nat.le_of_eq new.symm)]
      exact Nat.le_refl _
  | resumed => exact Nat.le_succ _

theorem next_of_step (reached : (system P).Reach ok .init s) (taken : step s a = some s') :
    s'.next = if a.boxes then s.next + 1 else s.next := by
  obtain ⟨place, inv⟩ := placed_of_reach reached
  obtain ⟨place', effect⟩ := effect_of_step (Registers.reach reached) inv taken
  cases effect with
  | quiet quiet => cases quiet <;> rfl
  | spawnOut at_pc | spawnIn at_pc => rcases at_pc with ⟨rfl, -⟩ | ⟨rfl, -⟩ <;> rfl
  | yield _ yields => cases yields <;> rfl
  | ended _ ends => cases ends <;> rfl
  | _ => rfl

/-- A step that ends the closure a thread executes ends it once. -/
theorem ended_of_endsOn (reached : (system P).Reach ok .init s)
    (at_pc : (s.threads p).pc = .exec c .user) (ends : a.EndsOn s p) (taken : step s a = some s') :
    (s'.coros c).ended = (s.coros c).ended + 1 := by
  have here := (Registers.reach reached).executing at_pc
  cases a with
  | ret q =>
      obtain rfl : q = p := ends
      simp only [step, at_pc, Option.some.injEq] at taken
      subst taken
      simp [Sys.ret, Sys.endClosure, Sys.yieldWith, here.1]
  | panic q =>
      obtain rfl : q = p := ends
      exact ended_of_panic reached at_pc taken
  | waitEvent q fd interest token =>
      obtain ⟨rfl, full⟩ : q = p ∧ _ := ends
      simp only [step, at_pc, Sys.insertWaiter, here.1, full, if_true, Option.some.injEq] at taken
      subst taken
      simp [Sys.panic, Sys.endClosure, Sys.yieldWith, here.1]
  | _ => cases ends

/-- The coroutine is there, and its closure has not ended. -/
def Unended (s : Sys P) (c : CoroutineRefMut) : Prop := c < s.next ∧ (s.coros c).ended = 0

theorem unended_of_step (reached : (system P).Reach ok .init s) (taken : step s a = some s') :
    Unended s' c ↔ (Unended s c ∨ a.boxes = true ∧ c = s.next) ∧
      ¬ ∃ p, (s.threads p).pc = .exec c .user ∧ a.EndsOn s p := by
  have next := next_of_step reached taken
  have born : c < s'.next ↔ c < s.next ∨ a.boxes = true ∧ c = s.next := by
    rw [next]
    by_cases boxes : a.boxes = true
    · simp only [boxes, if_true, true_and]
      exact Nat.lt_succ_iff_lt_or_eq
    · simp [boxes]
  have fresh : s.next ≤ c → (s.coros c).ended = 0 := fun young => by
    rw [unborn_of_reach reached young]
    rfl
  unfold Unended
  by_cases ends : ∃ p, (s.threads p).pc = .exec c .user ∧ a.EndsOn s p
  · have ended : (s'.coros c).ended ≠ 0 := by
      obtain ⟨p, at_pc, ends⟩ := ends
      rw [ended_of_endsOn reached at_pc ends taken]
      exact Nat.succ_ne_zero _
    simp [ends, ended]
  · have same : (s'.coros c).ended = (s.coros c).ended :=
      (ended_of_step reached taken).resolve_right fun grown => ends grown.2
    rw [born, same]
    constructor
    · rintro ⟨older | ⟨boxes, rfl⟩, ended⟩
      · exact ⟨.inl ⟨older, ended⟩, ends⟩
      · exact ⟨.inr ⟨boxes, rfl⟩, ends⟩
    · rintro ⟨⟨older, ended⟩ | ⟨boxes, rfl⟩, -⟩
      · exact ⟨.inl older, ended⟩
      · exact ⟨.inr ⟨boxes, rfl⟩, fresh (Nat.le_refl _)⟩

end SimpleSched.Runtime
