/-
# Theory.Lives -- queues that are emptied, and what is drawn from them in between

An event that ends a queue's life empties it; what was put into it before then does not
count for what comes after.  `since ends tr` are the events of the life that goes on.

`Drawn`: over its life a queue is first in, first out, and an item may be cut when it is
drawn, as a datagram is that is longer than the buffer it is read into.  Every prefix of a
trace is one, so this speaks of the earlier lives too.
-/
import Mathlib.Data.List.DropRight
import Mathlib.Data.List.Forall2

namespace SimpleSched.Theory

set_option autoImplicit false

universe u v w

variable {E : Type u} {α : Type v} {β : Type w}

/-- The events after the last that ends a life. -/
def since (ends : E → Bool) (tr : List E) : List E := tr.rtakeWhile fun e => !ends e

section Since

variable {ends : E → Bool} {tr : List E} {e : E}

@[simp] theorem since_nil : since ends ([] : List E) = [] := List.rtakeWhile_nil _

theorem since_ends (ended : ends e = true) : since ends (tr ++ [e]) = [] :=
  List.rtakeWhile_concat_neg _ _ _ (by simp [ended])

theorem since_goes (goes : ends e = false) : since ends (tr ++ [e]) = since ends tr ++ [e] :=
  List.rtakeWhile_concat_pos _ _ _ (by simp [goes])

/-- Where nothing ends there is one life. -/
theorem since_whole (never : ∀ e ∈ tr, ends e = false) : since ends tr = tr :=
  List.rtakeWhile_eq_self_iff.2 (by simpa using never)

end Since

/-- What was put into the queue in its life is what was drawn from it, each item as `cut`
allows, and what is in it. -/
def Drawn (cut : α → β → Prop) (put : E → List α) (take : E → List β) (ends : E → Bool) (tr : List E)
    (xs : List α) : Prop :=
  ∃ as, (since ends tr).flatMap put = as ++ xs ∧
    List.Forall₂ cut as ((since ends tr).flatMap take)

namespace Drawn

variable {cut : α → β → Prop} {put : E → List α} {take : E → List β} {ends : E → Bool}
  {tr : List E} {xs ys : List α} {e : E}

theorem start : Drawn cut put take ends [] [] := ⟨[], by simp, by simp⟩

/-- An event that empties the queue, or keeps its balance. -/
theorem step (drawn : Drawn cut put take ends tr xs) (empties : ends e = true → ys = [])
    (balance : ends e = false → ∃ as, xs ++ put e = as ++ ys ∧ List.Forall₂ cut as (take e)) :
    Drawn cut put take ends (tr ++ [e]) ys := by
  cases ended : ends e with
  | true => exact ⟨[], by simp [since_ends ended, empties ended], by simp [since_ends ended]⟩
  | false =>
      obtain ⟨as, put_all, cut_all⟩ := drawn
      obtain ⟨bs, goes, cut_now⟩ := balance ended
      refine ⟨as ++ bs, ?_, ?_⟩
      · rw [since_goes ended, List.flatMap_append, put_all, List.append_assoc]
        simp [goes]
      · rw [since_goes ended, List.flatMap_append]
        simpa using List.rel_append cut_all cut_now

/-- Items that are drawn whole come out as they went in. -/
theorem whole {take : E → List α} (drawn : Drawn Eq put take ends tr xs) :
    (since ends tr).flatMap put = (since ends tr).flatMap take ++ xs := by
  obtain ⟨as, all, same⟩ := drawn
  rw [List.forall₂_eq_eq_eq] at same
  rw [all, same]

end Drawn

end SimpleSched.Theory
