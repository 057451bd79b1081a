/-
# Theory.Counting -- how a count moves when one member changes

`Finset.card` of a filtered set before and after a step that changes the
predicate at one element.
-/
import Mathlib.Data.Finset.Card
import Mathlib.Data.Finset.Range

namespace SimpleSched.Theory

set_option autoImplicit false

universe u

variable {α : Type u} [DecidableEq α] {S : Finset α} {f f' : α → Prop} [DecidablePred f]
  [DecidablePred f'] {a : α}

theorem card_filter_gain (mem : a ∈ S) (others : ∀ b, b ≠ a → (f' b ↔ f b)) (before : ¬ f a)
    (after : f' a) : (S.filter f').card = (S.filter f).card + 1 := by
  have same : S.filter f' = insert a (S.filter f) := by
    ext b
    by_cases h : b = a
    · subst h; simp [mem, after]
    · simp [h, others b h]
  rw [same, Finset.card_insert_of_notMem (by simp [before])]

theorem card_filter_lose (mem : a ∈ S) (others : ∀ b, b ≠ a → (f' b ↔ f b)) (before : f a)
    (after : ¬ f' a) : (S.filter f).card = (S.filter f').card + 1 :=
  card_filter_gain mem (fun b other => (others b other).symm) after before

theorem card_filter_range_succ {f f' : Nat → Prop} [DecidablePred f] [DecidablePred f'] {n : Nat}
    (others : ∀ m, m ≠ n → (f' m ↔ f m)) (after : f' n) :
    ((Finset.range (n + 1)).filter f').card = ((Finset.range n).filter f).card + 1 := by
  have same : (Finset.range (n + 1)).filter f' = insert n ((Finset.range n).filter f) := by
    ext m
    by_cases h : m = n
    · subst h; simp [after]
    · have bound : m < n + 1 ↔ m < n := ⟨fun le => by omega, fun lt => by omega⟩
      simp [h, others m h, bound]
  rw [same, Finset.card_insert_of_notMem (by simp)]

end SimpleSched.Theory
