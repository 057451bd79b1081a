/-
# Theory.Placement -- resources that are at one place each

A placement sends every resource to the one place it is at.  A container agrees
with a placement at `l` when it holds exactly the resources placed at `l`, each
once: `Lists` for a list, `Holds` for a one-element slot.  Agreement says both
that nothing is duplicated (two containers at different places share no
resource) and that nothing is lost (what is placed at `l` is in the container).

Moving one resource is `Function.update`; a container at neither end of the move
still agrees (`Lists.frame`, `Holds.frame`), the one at the far end gains the
resource (`Lists.push`, `Holds.put`), the one at the near end loses it
(`Lists.pop`, `Lists.erase`, `Holds.take`).
-/
import Mathlib.Data.List.Nodup
import Mathlib.Data.List.Count
import Mathlib.Data.Fintype.Card
import Mathlib.Algebra.BigOperators.Group.Finset.Basic

namespace SimpleSched.Theory

set_option autoImplicit false

universe u v

variable {R : Type u} {L : Type v}

/-- The list holds exactly the resources placed at `l`, each once. -/
structure Lists (place : R → L) (l : L) (xs : List R) : Prop where
  nodup : xs.Nodup
  mem : ∀ r, r ∈ xs ↔ place r = l

/-- The slot holds exactly the resource placed at `l`, if there is one. -/
def Holds (place : R → L) (l : L) (o : Option R) : Prop :=
  ∀ r, o = some r ↔ place r = l

namespace Lists

variable {place : R → L} {l m : L} {xs : List R} {r : R}

theorem nil (empty : ∀ r, place r ≠ l) : Lists place l [] :=
  ⟨List.nodup_nil, fun r => by simpa using empty r⟩

variable [DecidableEq R]

theorem push (lists : Lists place l xs) (away : place r ≠ l) :
    Lists (Function.update place r l) l (xs ++ [r]) := by
  have absent : r ∉ xs := fun mem => away ((lists.mem r).1 mem)
  refine ⟨?_, ?_⟩
  · simpa [List.nodup_append] using ⟨lists.nodup, fun q mem e => absent (e ▸ mem)⟩
  · intro q
    by_cases h : q = r
    · simp [h]
    · simp [h, lists.mem q]

theorem pop (lists : Lists place l (r :: xs)) (away : m ≠ l) :
    Lists (Function.update place r m) l xs := by
  have absent : r ∉ xs := (List.nodup_cons.1 lists.nodup).1
  refine ⟨(List.nodup_cons.1 lists.nodup).2, ?_⟩
  intro q
  by_cases h : q = r
  · subst h; simp [absent, away]
  · rw [Function.update_of_ne h, ← lists.mem q]
    simp [h]

theorem erase (lists : Lists place l xs) (away : m ≠ l) :
    Lists (Function.update place r m) l (xs.erase r) := by
  refine ⟨lists.nodup.erase r, ?_⟩
  intro q
  rw [lists.nodup.mem_erase_iff]
  by_cases h : q = r
  · subst h; simp [away]
  · simp [h, lists.mem q]

theorem frame (lists : Lists place l xs) (near : place r ≠ l) (far : m ≠ l) :
    Lists (Function.update place r m) l xs := by
  refine ⟨lists.nodup, ?_⟩
  intro q
  by_cases h : q = r
  · subst h; simp [lists.mem q, near, far]
  · simp [Function.update_of_ne h, lists.mem q]

theorem count [DecidableEq L] (lists : Lists place l xs) (r : R) :
    xs.count r = if place r = l then 1 else 0 := by
  split
  · rename_i here
    exact List.count_eq_one_of_mem lists.nodup ((lists.mem r).2 here)
  · rename_i away
    exact List.count_eq_zero.2 fun mem => away ((lists.mem r).1 mem)

end Lists

namespace Holds

variable {place : R → L} {l m : L} {o : Option R} {r : R}

theorem empty (holds : Holds place l none) (r : R) : place r ≠ l := fun here => by
  simpa using (holds r).2 here

theorem of_empty (away : ∀ r, place r ≠ l) : Holds place l none := fun r => by
  simpa using away r

variable [DecidableEq R]

theorem put (holds : Holds place l none) : Holds (Function.update place r l) l (some r) := by
  intro q
  by_cases h : q = r
  · subst h; simp
  · simp [Function.update_of_ne h, holds.empty q, Ne.symm h]

theorem take (holds : Holds place l (some r)) (away : m ≠ l) :
    Holds (Function.update place r m) l none := by
  intro q
  by_cases h : q = r
  · subst h; simp [away]
  · simp [Function.update_of_ne h, ← holds q, Ne.symm h]

theorem frame (holds : Holds place l o) (near : place r ≠ l) (far : m ≠ l) :
    Holds (Function.update place r m) l o := by
  intro q
  by_cases h : q = r
  · subst h; simp [holds q, near, far]
  · simp [Function.update_of_ne h, holds q]

end Holds

end SimpleSched.Theory
