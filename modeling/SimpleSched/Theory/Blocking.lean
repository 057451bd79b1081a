/-
# Theory.Blocking -- objects with operations that wait until they can be done

An object changes in two ways: an operation on it is done, with an answer, or it
changes of its own accord.  A party calls an operation and is from then on pending; the
call ends when the operation is done, all at once, or when it is refused, and then
nothing was done (`Objects.step`).  What makes the party wait in between is not said.

`Channel` is a queue inside the objects: what goes in, what comes out and what empties it
is known from the operation and its answer, or from the change.  Over a run of any number
of parties it is first in, first out (`Channel.account`).
-/
import SimpleSched.Theory.Refinement
import SimpleSched.Theory.Lives
import Mathlib.Logic.Function.Basic

namespace SimpleSched.Theory

set_option autoImplicit false

universe u

/-- What becomes of an object when an operation is done on it with a given answer, and when
it changes by itself; `none` is an answer or a change it does not admit. -/
structure Objects (K Op R V : Type u) where
  done : K → Op → R → Option K
  change : K → V → Option K

namespace Objects

variable {K Op R V I T α : Type u}

@[ext] structure State (K Op I T : Type u) where
  object : I → K
  pending : T → Option (I × Op)

inductive Label (Op R V I T : Type u)
  | call (t : T) (i : I) (op : Op)
  | done (t : T) (i : I) (op : Op) (r : R)
  | refused (t : T)
  | change (i : I) (v : V)

section Step

variable [DecidableEq I] [DecidableEq T] [DecidableEq Op] (D : Objects K Op R V)

def step (s : State K Op I T) :
    Label Op R V I T → Option (State K Op I T)
  | .call t i op =>
    if s.pending t = none then
      some { s with pending := Function.update s.pending t (some (i, op)) }
    else none
  | .done t i op r =>
    if s.pending t = some (i, op) then
      (D.done (s.object i) op r).map fun k =>
        ⟨Function.update s.object i k, Function.update s.pending t none⟩
    else none
  | .refused t =>
    if s.pending t ≠ none then some { s with pending := Function.update s.pending t none } else none
  | .change i v =>
    (D.change (s.object i) v).map fun k => { s with object := Function.update s.object i k }

variable (I T) in
def blocking : Lts (State K Op I T) (Label Op R V I T) := ⟨D.step⟩

end Step

/-! ## Queues inside the objects -/

/-- A queue of `α` in each object, with what each operation and change puts in and takes
out, as a `β`, and which of them close the object and so empty the queue. -/
structure Channel (D : Objects K Op R V) (α β : Type u) where
  content : K → List α
  gives : Op → R → List α
  takes : Op → R → List β
  arrives : V → List α
  /-- what an item may be taken as -/
  cut : α → β → Prop
  closes : Op → R → Bool
  drops : V → Bool
  done : ∀ {k op r k'}, D.done k op r = some k' → closes op r = false →
    ∃ as, content k ++ gives op r = as ++ content k' ∧ List.Forall₂ cut as (takes op r)
  done_closes : ∀ {k op r k'}, D.done k op r = some k' → closes op r = true → content k' = []
  change : ∀ {k v k'}, D.change k v = some k' → drops v = false → content k ++ arrives v = content k'
  change_drops : ∀ {k v k'}, D.change k v = some k' → drops v = true → content k' = []

namespace Channel

variable {β : Type u} {D : Objects K Op R V} (channel : Channel D α β) [DecidableEq I]

/-- What the label puts into the queue of object `i`. -/
def put (i : I) : Label Op R V I T → List α
  | .done _ j op r => if j = i then channel.gives op r else []
  | .change j v => if j = i then channel.arrives v else []
  | _ => []

/-- What it takes out. -/
def take (i : I) : Label Op R V I T → List β
  | .done _ j op r => if j = i then channel.takes op r else []
  | _ => []

/-- It closes the object. -/
def ends (i : I) : Label Op R V I T → Bool
  | .done _ j op r => j = i && channel.closes op r
  | .change j v => j = i && channel.drops v
  | _ => false

/-- What was put into each queue since its object was last closed is what was taken out and
what is in it. -/
def Accounts (s : State K Op I T) (tr : List (Label Op R V I T)) : Prop :=
  ∀ i, Drawn channel.cut (channel.put i) (channel.take i) (channel.ends i) tr
    (channel.content (s.object i))

variable [DecidableEq Op] [DecidableEq T] {s t : State K Op I T} {l : Label Op R V I T}
  {tr : List (Label Op R V I T)} {i : I}

theorem step_ends (taken : D.step s l = some t) (ended : channel.ends i l = true) :
    channel.content (t.object i) = [] := by
  cases l with
  | call | refused => cases ended
  | done p j op r =>
      simp only [ends, Bool.and_eq_true, decide_eq_true_eq] at ended
      obtain ⟨rfl, closes⟩ := ended
      simp only [Objects.step, Option.ite_none_right_eq_some] at taken
      obtain ⟨-, mapped⟩ := taken
      obtain ⟨k, done, rfl⟩ := Option.map_eq_some_iff.mp mapped
      simpa using channel.done_closes done closes
  | change j v =>
      simp only [ends, Bool.and_eq_true, decide_eq_true_eq] at ended
      obtain ⟨rfl, drops⟩ := ended
      obtain ⟨k, changes, rfl⟩ := Option.map_eq_some_iff.mp taken
      simpa using channel.change_drops changes drops

theorem step (taken : D.step s l = some t) (goes : channel.ends i l = false) :
    ∃ as, channel.content (s.object i) ++ channel.put i l = as ++ channel.content (t.object i) ∧
      List.Forall₂ channel.cut as (channel.take i l) := by
  cases l with
  | call p j op =>
      simp only [Objects.step, Option.ite_none_right_eq_some, Option.some.injEq] at taken
      obtain ⟨-, rfl⟩ := taken
      exact ⟨[], by simp [put], .nil⟩
  | done p j op r =>
      simp only [Objects.step, Option.ite_none_right_eq_some] at taken
      obtain ⟨-, mapped⟩ := taken
      obtain ⟨k, done, rfl⟩ := Option.map_eq_some_iff.mp mapped
      by_cases same : j = i
      · subst same
        simpa [put, take] using channel.done done (by simpa [ends] using goes)
      · exact ⟨[], by simp [put, same, Function.update_of_ne (Ne.symm same)], by simp [take, same]⟩
  | refused p =>
      simp only [Objects.step, Option.ite_none_right_eq_some, Option.some.injEq] at taken
      obtain ⟨-, rfl⟩ := taken
      exact ⟨[], by simp [put], .nil⟩
  | change j v =>
      obtain ⟨k, changes, rfl⟩ := Option.map_eq_some_iff.mp taken
      refine ⟨[], ?_, .nil⟩
      by_cases same : j = i
      · subst same
        simpa [put] using channel.change changes (by simpa [ends] using goes)
      · simp [put, same, Function.update_of_ne (Ne.symm same)]

/-- The queues are first in, first out over every run. -/
theorem account (empty : ∀ i, channel.content (s.object i) = [])
    (ran : (D.blocking I T).exec s tr = some t) : channel.Accounts t tr := by
  intro i
  refine Lts.exec_induction (I := fun t tr => Drawn channel.cut (channel.put i) (channel.take i)
    (channel.ends i) tr (channel.content (t.object i))) ran (by rw [empty i]; exact .start) ?_
  intro m tr l t _ drawn taken
  exact drawn.step (channel.step_ends taken) (channel.step taken)

end Channel

end Objects

end SimpleSched.Theory
