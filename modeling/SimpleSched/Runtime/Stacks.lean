/-
# Runtime.Stacks -- every coroutine has a stack of its own

`Coroutine::spawn_opts` takes a stack from the `STACK_POOL` of the thread it is called on,
and `Drop for Coroutine` gives it to the pool of the thread that drops it, which may be
another one.  A `context::stack::StackPool` hands out a cached stack that is at least as
large as was asked for, or a new one, and keeps what it is given or unmaps it; which of
these is in the label, so every policy of the pool is covered.

In every run a stack is at one place (`Theory.Placement`): new, in one pool, of one
coroutine, or unmapped (`stacks_apart`).
-/
import SimpleSched.Runtime.History

namespace SimpleSched.Runtime

set_option autoImplicit false

open Mio Theory

variable {P : Type}

/-- `options::Options`; its `name` is read by nothing. -/
structure Options where
  stackSize : Nat
  deriving DecidableEq, Repr

abbrev StackRef := Nat

/-- A coroutine that was boxed and not dropped. -/
def Sys.Boxed (s : Sys P) (c : CoroutineRefMut) : Prop := c < s.next ∧ (s.coros c).cell ≠ .freed

/-- The runtime with the stacks: the pools, the stack of each coroutine, and of each
stack how large it is.  `asked` and `unmapped` record history. -/
structure Stacked (P : Type) where
  sys : Sys P
  pools : P → List StackRef
  stack : CoroutineRefMut → Option StackRef
  size : StackRef → Nat
  next : StackRef
  asked : CoroutineRefMut → Nat
  unmapped : List StackRef

namespace Stacked

def init : Stacked P where
  sys := .init
  pools _ := []
  stack _ := none
  size _ := 0
  next := 0
  asked _ := 0
  unmapped := []

variable [DecidableEq P]

/-- `StackPool::take_stack`: a cached stack that is large enough, or a new one. -/
def takeStack (s : Stacked P) (p : P) (minSize : Nat) : Option StackRef → Option (StackRef × Stacked P)
  | some r =>
    if r ∈ s.pools p ∧ minSize ≤ s.size r then
      some (r, { s with pools := Function.update s.pools p ((s.pools p).erase r) })
    else none
  | none => some (s.next, { s with size := Function.update s.size s.next minSize, next := s.next + 1 })

/-- `StackPool::give_stack`. -/
def giveStack (s : Stacked P) (p : P) (r : StackRef) (keep : Bool) : Stacked P :=
  if keep then { s with pools := Function.update s.pools p (s.pools p ++ [r]) }
  else { s with unmapped := s.unmapped ++ [r] }

/-- `Coroutine::spawn_opts`, for the coroutine the runtime boxes at `c`. -/
def spawnOpts (s : Stacked P) (p : P) (c : CoroutineRefMut) (opts : Options)
    (cached : Option StackRef) : Option (Stacked P) :=
  (s.takeStack p opts.stackSize cached).map fun (r, s) =>
    { s with
      stack := Function.update s.stack c (some r)
      asked := Function.update s.asked c opts.stackSize }

/-- `Drop for Coroutine`. -/
def drop (s : Stacked P) (p : P) (c : CoroutineRefMut) (keep : Bool) : Stacked P :=
  match s.stack c with
  | none => s
  | some r => { s with stack := Function.update s.stack c none }.giveStack p r keep

end Stacked

/-- A step of the runtime that boxes no coroutine and drops none, or one that does. -/
inductive StackAct (P : Type)
  | step (a : Act P)
  | spawnOpts (p : P) (a : Act P) (opts : Options) (cached : Option StackRef)
  | drop (p : P) (c : CoroutineRefMut) (keep : Bool)

variable [DecidableEq P]

/-- The coroutine that the step drops. -/
def Act.drops (s : Sys P) : Act P → Option CoroutineRefMut
  | .tau p =>
    match (s.threads p).pc with
    | .free c => some c
    | _ => none
  | _ => none

def Stacked.step (s : Stacked P) : StackAct P → Option (Stacked P)
  | .step a =>
    if a.boxes = false ∧ a.drops s.sys = none then
      (Runtime.step s.sys a).map fun sys => { s with sys := sys }
    else none
  | .spawnOpts p a opts cached =>
    if a.boxes ∧ a.actor = some p then
      (Runtime.step s.sys a).bind fun sys =>
        { s with sys := sys }.spawnOpts p s.sys.next opts cached
    else none
  | .drop p c keep =>
    if (Act.tau p).drops s.sys = some c then
      (Runtime.step s.sys (.tau p)).map fun sys => { s with sys := sys }.drop p c keep
    else none

def stacked (P : Type) [DecidableEq P] : Lts (Stacked P) (StackAct P) := ⟨Stacked.step⟩

/-! ## Where each stack is -/

inductive StackPlace (P : Type)
  | fresh
  | pool (p : P)
  | coroutine (c : CoroutineRefMut)
  | unmapped
  deriving DecidableEq

structure Stacked.Placed (s : Stacked P) (place : StackRef → StackPlace P) : Prop where
  pools : ∀ p, Lists place (.pool p) (s.pools p)
  stack : ∀ c, Holds place (.coroutine c) (s.stack c)
  unmapped : Lists place .unmapped s.unmapped
  fresh : ∀ r, place r = .fresh ↔ s.next ≤ r
  boxed : ∀ c, (s.stack c).isSome = true ↔ s.sys.Boxed c
  size : ∀ c r, s.stack c = some r → s.asked c ≤ s.size r

/-! ## What boxing and dropping are for the runtime -/

section Boxed

variable {ok : Sys P → Act P → Prop} {s s' : Sys P} {a : Act P} {c : CoroutineRefMut}

/-- A thread that is to free a coroutine does. -/
theorem tau_of_free {p : P} (taken : step s a = some s') (actor : a.actor = some p)
    (at_pc : (s.threads p).pc = .free c) : a = .tau p := by
  cases a with
  | setHolds => cases actor
  | tau q =>
      cases actor
      rfl
  | _ =>
      cases actor
      simp [step, at_pc, Pc.caller] at taken

omit [DecidableEq P] in
theorem pc_of_drops (drops : a.drops s = some c) : ∃ p, a = .tau p ∧ (s.threads p).pc = .free c := by
  cases a with
  | tau p =>
      cases at_pc : (s.threads p).pc <;> simp [Act.drops, at_pc] at drops
      subst drops
      exact ⟨p, rfl, at_pc⟩
  | _ => cases drops

theorem freed_of_step (reached : (system P).Reach ok .init s) (taken : step s a = some s') :
    (s'.coros c).cell = .freed ↔ (s.coros c).cell = .freed ∨ a.drops s = some c := by
  obtain ⟨place, inv⟩ := placed_of_reach reached
  have turn := turn_of_step (c := c) reached taken
  by_cases gone : a.drops s = some c
  · obtain ⟨p, rfl, at_pc⟩ := pc_of_drops gone
    have life := inv.hand_life (c := c) (p := p) (by rw [at_pc]; rfl)
    simp only [Thread.HandLife, at_pc] at life
    obtain ⟨⟨st, saved⟩, -⟩ := life
    simp only [step, Sys.tau, at_pc, Sys.dropBox, saved, Option.some.injEq] at taken
    subst taken
    simp [gone]
  · generalize s'.coros c = x at turn ⊢
    have hand {p : P} (at_hand : (s.threads p).pc.hand = some c) := inv.hand_life at_hand
    cases turn with
    | same | finished => simp [gone]
    | spawned new =>
        have life := unborn_of_reach reached (Nat.le_of_eq new.symm)
        simp [gone, life, Coroutine.unborn, Coroutine.spawned]
    | yield _ at_pc | ended _ at_pc =>
        have life := hand (by rw [at_pc]; rfl)
        simp only [Thread.HandLife, at_pc] at life
        simp [gone, life.1]
    | resumed _ at_pc =>
        have life := hand (by rw [at_pc]; rfl)
        simp only [Thread.HandLife, at_pc] at life
        obtain ⟨k, saved, -⟩ := life
        simp [gone, saved]
    | freed actor at_pc =>
        obtain rfl := tau_of_free taken actor at_pc
        simp [Act.drops, at_pc] at gone

theorem boxed_of_step (reached : (system P).Reach ok .init s) (taken : step s a = some s') :
    s'.Boxed c ↔ (s.Boxed c ∧ a.drops s ≠ some c) ∨ a.boxes = true ∧ c = s.next := by
  unfold Sys.Boxed
  simp only [ne_eq, freed_of_step reached taken, next_of_step reached taken]
  cases boxes : a.boxes with
  | false => simp [not_or, and_assoc]
  | true =>
      have kept : a.drops s ≠ some c := by cases a <;> simp_all [Act.boxes, Act.drops]
      have unborn (new : c = s.next) : (s.coros c).cell ≠ .freed := by
        rw [unborn_of_reach reached (Nat.le_of_eq new.symm)]
        simp [Coroutine.unborn]
      simp only [kept, or_false, not_false_eq_true, and_true, if_true, true_and]
      constructor
      · rintro ⟨born, alive⟩
        rcases Nat.lt_succ_iff_lt_or_eq.1 born with born | new
        · exact .inl ⟨born, alive⟩
        · exact .inr new
      · rintro (⟨born, alive⟩ | new)
        · exact ⟨Nat.lt_succ_of_lt born, alive⟩
        · exact ⟨by rw [new]; exact Nat.lt_succ_self _, unborn new⟩

end Boxed

/-! ## What a step does to the stacks -/

section Sys

variable {s t : Stacked P} {p : P} {c : CoroutineRefMut}

theorem Stacked.spawnOpts_sys {opts : Options} {cached : Option StackRef}
    (takes : s.spawnOpts p c opts cached = some t) : t.sys = s.sys := by
  obtain ⟨⟨r, u⟩, taken, rfl⟩ := Option.map_eq_some_iff.mp takes
  unfold Stacked.takeStack at taken
  split at taken
  · split at taken <;> cases taken
    rfl
  · cases taken
    rfl

theorem Stacked.drop_sys {keep : Bool} : (s.drop p c keep).sys = s.sys := by
  unfold Stacked.drop Stacked.giveStack
  split
  · rfl
  · split <;> rfl

end Sys

namespace Stacked.Placed

variable {s t : Stacked P} {place : StackRef → StackPlace P} {p : P} {c : CoroutineRefMut} {r : StackRef}

omit [DecidableEq P] in
theorem init : Stacked.Placed (Stacked.init : Stacked P) fun _ => .fresh where
  pools _ := .nil (by simp)
  stack _ := .of_empty (by simp)
  unmapped := .nil (by simp)
  fresh _ := by simp [Stacked.init]
  boxed c := by simp [Stacked.init, Sys.Boxed, Sys.init]
  size c r none := by simp [Stacked.init] at none

/-- The stack of a new coroutine was in the pool, or is new. -/
theorem spawned (placed : s.Placed place) (without : s.stack c = none) {opts : Options}
    {cached : Option StackRef} {sys : Sys P}
    (takes : { s with sys := sys }.spawnOpts p c opts cached = some t)
    (boxed : ∀ d, sys.Boxed d ↔ s.sys.Boxed d ∨ d = c) : ∃ place', t.Placed place' := by
  obtain ⟨⟨r, u⟩, taken, rfl⟩ := Option.map_eq_some_iff.mp takes
  have stack_at (near : ∀ d, place r ≠ .coroutine d) (d : CoroutineRefMut) :
      Holds (Function.update place r (.coroutine c)) (.coroutine d)
        (Function.update s.stack c (some r) d) := by
    by_cases same : d = c
    · subst same
      rw [Function.update_self]
      exact (without ▸ placed.stack d).put
    · rw [Function.update_of_ne same]
      exact (placed.stack d).frame (near d) (by simpa using Ne.symm same)
  have boxed_at (d : CoroutineRefMut) :
      (Function.update s.stack c (some r) d).isSome = true ↔ sys.Boxed d := by
    rw [boxed d, ← placed.boxed d]
    by_cases same : d = c
    · subst same; simp
    · simp [same]
  refine ⟨Function.update place r (.coroutine c), ?_⟩
  cases cached with
  | some r' =>
      simp only [takeStack, Option.ite_none_right_eq_some, Option.some.injEq, Prod.mk.injEq] at taken
      obtain ⟨⟨mem, enough⟩, rfl, rfl⟩ := taken
      have at_r : place r' = .pool p := ((placed.pools p).mem r').1 mem
      refine ⟨?_, stack_at (by simp [at_r]), placed.unmapped.frame (by simp [at_r]) (by simp),
        ?_, boxed_at, ?_⟩
      · intro q
        show Lists _ _ (Function.update s.pools p ((s.pools p).erase r') q)
        by_cases same : q = p
        · subst same
          rw [Function.update_self]
          exact (placed.pools q).erase (by simp)
        · rw [Function.update_of_ne same]
          exact (placed.pools q).frame (by simpa [at_r] using Ne.symm same) (by simp)
      · intro q
        by_cases same : q = r'
        · subst same
          have old := (placed.fresh q).not.1 (by simp [at_r])
          simpa using old
        · rw [Function.update_of_ne same]
          exact placed.fresh q
      · intro d q has
        show Function.update s.asked c opts.stackSize d ≤ s.size q
        by_cases same : d = c
        · subst same
          simp only [Function.update_self, Option.some.injEq] at has ⊢
          exact has ▸ enough
        · simp only [Function.update_of_ne same] at has ⊢
          exact placed.size d q has
  | none =>
      simp only [takeStack, Option.some.injEq, Prod.mk.injEq] at taken
      obtain ⟨rfl, rfl⟩ := taken
      have at_r : place s.next = .fresh := (placed.fresh s.next).2 (Nat.le_refl _)
      refine ⟨?_, stack_at (by simp [at_r]), placed.unmapped.frame (by simp [at_r]) (by simp),
        ?_, boxed_at, ?_⟩
      · intro q
        exact (placed.pools q).frame (by simp [at_r]) (by simp)
      · intro q
        show _ ↔ s.next + 1 ≤ q
        by_cases same : q = s.next
        · subst same; simp
        · rw [Function.update_of_ne same, placed.fresh q]
          exact ⟨fun old => Nat.lt_of_le_of_ne old (Ne.symm same), Nat.le_of_succ_le⟩
      · intro d q has
        show Function.update s.asked c opts.stackSize d ≤ Function.update s.size s.next opts.stackSize q
        by_cases same : d = c
        · subst same
          simp only [Function.update_self, Option.some.injEq] at has ⊢
          subst has
          simp
        · simp only [Function.update_of_ne same] at has ⊢
          -- the new stack belongs to nobody else
          have old : q ≠ s.next := by
            rintro rfl
            simpa [at_r] using (placed.stack d s.next).1 has
          rw [Function.update_of_ne old]
          exact placed.size d q has

/-- It goes back to a pool, or is unmapped. -/
theorem dropped (placed : s.Placed place) (has : s.sys.Boxed c) (keep : Bool) {sys : Sys P}
    (boxed : ∀ d, sys.Boxed d ↔ s.sys.Boxed d ∧ d ≠ c) :
    ∃ place', ({ s with sys := sys }.drop p c keep).Placed place' := by
  obtain ⟨r, stack⟩ := Option.isSome_iff_exists.1 ((placed.boxed c).2 has)
  have at_r : place r = .coroutine c := (placed.stack c r).1 stack
  have stack_at {l : StackPlace P} (far : ∀ d, l ≠ .coroutine d) (d : CoroutineRefMut) :
      Holds (Function.update place r l) (.coroutine d) (Function.update s.stack c none d) := by
    by_cases same : d = c
    · subst same
      rw [Function.update_self]
      exact (stack ▸ placed.stack d).take (far d)
    · rw [Function.update_of_ne same]
      exact (placed.stack d).frame (by simpa [at_r] using Ne.symm same) (far d)
  have boxed_at (d : CoroutineRefMut) : (Function.update s.stack c none d).isSome = true ↔ sys.Boxed d := by
    rw [boxed d, ← placed.boxed d]
    by_cases same : d = c
    · subst same; simp
    · simp [same]
  have size_at (d : CoroutineRefMut) (q : StackRef) (has : Function.update s.stack c none d = some q) :
      s.asked d ≤ s.size q := by
    by_cases same : d = c
    · subst same
      simp at has
    · rw [Function.update_of_ne same] at has
      exact placed.size d q has
  have fresh_at {l : StackPlace P} (old : l ≠ .fresh) (q : StackRef) :
      Function.update place r l q = .fresh ↔ s.next ≤ q := by
    by_cases same : q = r
    · subst same
      simpa [old] using (placed.fresh q).not.1 (by simp [at_r])
    · rw [Function.update_of_ne same]
      exact placed.fresh q
  simp only [drop, stack]
  cases keep with
  | true =>
      refine ⟨Function.update place r (.pool p), ?_, stack_at (by simp),
        placed.unmapped.frame (by simp [at_r]) (by simp), fresh_at (by simp), boxed_at, size_at⟩
      intro q
      show Lists _ _ (Function.update s.pools p (s.pools p ++ [r]) q)
      by_cases same : q = p
      · subst same
        rw [Function.update_self]
        exact (placed.pools q).push (by simp [at_r])
      · rw [Function.update_of_ne same]
        exact (placed.pools q).frame (by simp [at_r]) (by simpa using Ne.symm same)
  | false =>
      exact ⟨Function.update place r .unmapped, fun q => (placed.pools q).frame (by simp [at_r]) (by simp),
        stack_at (by simp), placed.unmapped.push (by simp [at_r]), fresh_at (by simp), boxed_at, size_at⟩

omit [DecidableEq P] in
/-- A step that boxes and drops nothing. -/
theorem kept (placed : s.Placed place) {sys : Sys P} (boxed : ∀ d, sys.Boxed d ↔ s.sys.Boxed d) :
    Stacked.Placed { s with sys := sys } place :=
  { placed with boxed := fun d => (placed.boxed d).trans (boxed d).symm }

theorem step (placed : s.Placed place) (reached : (system P).Reach Lts.anyStep .init s.sys)
    {a : StackAct P} (taken : s.step a = some t) :
    (system P).Reach Lts.anyStep .init t.sys ∧ ∃ place', t.Placed place' := by
  cases a with
  | step a =>
      simp only [Stacked.step, Option.ite_none_right_eq_some] at taken
      obtain ⟨⟨boxes, drops⟩, mapped⟩ := taken
      obtain ⟨sys, stepped, rfl⟩ := Option.map_eq_some_iff.mp mapped
      refine ⟨.step reached trivial stepped, place, placed.kept fun d => ?_⟩
      simp [boxed_of_step reached stepped, boxes, drops]
  | spawnOpts p a opts cached =>
      simp only [Stacked.step, Option.ite_none_right_eq_some] at taken
      obtain ⟨⟨boxes, -⟩, bound⟩ := taken
      obtain ⟨sys, stepped, takes⟩ := Option.bind_eq_some_iff.mp bound
      have same : t.sys = sys := spawnOpts_sys takes
      have drops : a.drops s.sys = none := by cases a <;> first | rfl | cases boxes
      have without : s.stack s.sys.next = none := by
        rw [← Option.not_isSome_iff_eq_none, placed.boxed]
        exact fun born => Nat.lt_irrefl _ born.1
      refine ⟨by rw [same]; exact .step reached trivial stepped,
        placed.spawned without takes fun d => ?_⟩
      simp [boxed_of_step reached stepped, boxes, drops]
  | drop p c keep =>
      simp only [Stacked.step, Option.ite_none_right_eq_some] at taken
      obtain ⟨drops, mapped⟩ := taken
      obtain ⟨sys, stepped, rfl⟩ := Option.map_eq_some_iff.mp mapped
      have same : ({ s with sys := sys }.drop p c keep).sys = sys := drop_sys
      have reached' : (system P).Reach Lts.anyStep .init sys :=
        .step (a := .tau p) reached trivial stepped
      have has : s.sys.Boxed c := by
        obtain ⟨place, inv⟩ := placed_of_reach reached
        obtain ⟨q, -, at_pc⟩ := pc_of_drops drops
        have held : (s.sys.threads q).pc.hand = some c := by rw [at_pc]; rfl
        have life := inv.hand_life held
        simp only [Thread.HandLife, at_pc] at life
        obtain ⟨⟨st, saved⟩, -⟩ := life
        exact ⟨inv.born (by simp [inv.at_hand held]), by simp [saved]⟩
      refine ⟨by rw [same]; exact reached', placed.dropped has keep fun d => ?_⟩
      simp [boxed_of_step reached stepped, drops, Act.boxes, eq_comm]

end Stacked.Placed

/-- Every coroutine that was boxed and not dropped has a stack, as large as was asked for,
that no other coroutine and no pool has; a coroutine that was dropped has none; and every
stack there has been is of a coroutine, in one pool, or unmapped. -/
structure StacksApart (s : Stacked P) : Prop where
  has : ∀ c, s.sys.Boxed c → ∃ r, s.stack c = some r ∧ s.asked c ≤ s.size r
  none_left : ∀ c, ¬ s.sys.Boxed c → s.stack c = none
  apart : ∀ c d r, s.stack c = some r → s.stack d = some r → c = d
  pools : ∀ p, (s.pools p).Nodup
  pooled : ∀ p r, r ∈ s.pools p → (∀ c, s.stack c ≠ some r) ∧ ∀ q, r ∈ s.pools q → q = p
  kept : ∀ r, r < s.next ↔ (∃ p, r ∈ s.pools p) ∨ (∃ c, s.stack c = some r) ∨ r ∈ s.unmapped
  /-- two threads never execute on one stack, nor on one a pool has -/
  executing : ∀ p c pt, (s.sys.threads p).pc = .exec c pt → ∃ r, s.stack c = some r ∧
    (∀ q, r ∉ s.pools q) ∧ ∀ q d pt', (s.sys.threads q).pc = .exec d pt' → s.stack d = some r → q = p

theorem stacks_apart (s : Stacked P) (reached : (stacked P).Reach Lts.anyStep .init s) :
    StacksApart s := by
  obtain ⟨reached, place, placed⟩ : (system P).Reach Lts.anyStep .init s.sys ∧
      ∃ place, s.Placed place := by
    refine reached.invariant (I := fun s => (system P).Reach Lts.anyStep .init s.sys ∧
      ∃ place, s.Placed place) ⟨.start, _, .init⟩ ?_
    rintro s a t - ⟨reached, place, placed⟩ - taken
    exact placed.step reached taken
  have at_stack {c : CoroutineRefMut} {r : StackRef} (has : s.stack c = some r) :
      place r = .coroutine c := (placed.stack c r).1 has
  have at_pool {p : P} {r : StackRef} (mem : r ∈ s.pools p) : place r = .pool p :=
    ((placed.pools p).mem r).1 mem
  have pooled (p : P) (r : StackRef) (mem : r ∈ s.pools p) :
      (∀ c, s.stack c ≠ some r) ∧ ∀ q, r ∈ s.pools q → q = p := by
    refine ⟨fun c has => ?_, fun q mem' => ?_⟩
    · have at_r := at_stack has
      simp [at_pool mem] at at_r
    · simpa [at_pool mem] using (at_pool mem').symm
  have apart (c d : CoroutineRefMut) (r : StackRef) (has : s.stack c = some r)
      (has' : s.stack d = some r) : c = d := by
    simpa [at_stack has] using at_stack has'
  refine ⟨?_, ?_, apart, fun p => (placed.pools p).nodup, pooled, ?_, ?_⟩
  · intro c boxed
    obtain ⟨r, has⟩ := Option.isSome_iff_exists.1 ((placed.boxed c).2 boxed)
    exact ⟨r, has, placed.size c r has⟩
  · intro c gone
    rw [← Option.not_isSome_iff_eq_none, placed.boxed]
    exact gone
  · intro r
    rw [← Nat.not_le, ← placed.fresh r]
    constructor
    · intro old
      cases at_r : place r with
      | fresh => exact absurd at_r old
      | pool p => exact .inl ⟨p, ((placed.pools p).mem r).2 at_r⟩
      | coroutine c => exact .inr (.inl ⟨c, (placed.stack c r).2 at_r⟩)
      | unmapped => exact .inr (.inr ((placed.unmapped.mem r).2 at_r))
    · rintro (⟨p, mem⟩ | ⟨c, has⟩ | mem) at_r
      · simp [at_pool mem] at at_r
      · simp [at_stack has] at at_r
      · simp [(placed.unmapped.mem r).1 mem] at at_r
  · intro p c pt at_pc
    obtain ⟨places, inv⟩ := placed_of_reach reached
    have held : places c = .hand p := inv.at_hand (by rw [at_pc]; rfl)
    have life := inv.hand_life (c := c) (p := p) (by rw [at_pc]; rfl)
    simp only [Thread.HandLife, at_pc] at life
    have boxed : s.sys.Boxed c := ⟨inv.born (by simp [held]), by simp [life.1]⟩
    obtain ⟨r, has⟩ := Option.isSome_iff_exists.1 ((placed.boxed c).2 boxed)
    refine ⟨r, has, fun q mem => (pooled q r mem).1 c has, ?_⟩
    intro q d pt' at_pc' has'
    obtain rfl := apart c d r has has'
    have held' : places c = .hand q := inv.at_hand (by rw [at_pc']; rfl)
    simpa [held] using held'.symm

/-- A coroutine is dropped, and the next one takes its stack. -/
def takesOver : List (StackAct Unit) :=
  [.step (.spawn ()), .spawnOpts () (.spawnInner ()) ⟨4096⟩ none, .step (.enter ()), .step (.tau ()),
    .step (.tau ()), .step (.tau ()), .step (.tau ()), .step (.tau ()), .step (.ret ()), .step (.tau ()),
    .step (.tau ()), .drop () 0 true, .step (.tau ()), .step (.tau ()), .step (.tau ()), .step (.tau ()),
    .step (.leave ()), .step (.spawn ()), .spawnOpts () (.spawnInner ()) ⟨2048⟩ (some 0)]

theorem takes_over_apart : ∃ s, (stacked Unit).exec .init takesOver = some s ∧
    (s.stack 0 = none ∧ s.stack 1 = some 0) ∧ StacksApart s := by
  have runs : ((stacked Unit).exec .init takesOver).any (fun s =>
      s.stack 0 = none ∧ s.stack 1 = some 0) = true := by
    decide +kernel
  obtain ⟨s, run, reused⟩ := (Option.any_eq_true _ _).1 runs
  exact ⟨s, run, of_decide_eq_true reused, stacks_apart s (.of_exec_any run)⟩

end SimpleSched.Runtime
