/-
# Theory.Fifo -- the account of a queue over a trace

`put` and `take` say what an event of a trace puts into a queue, and what it takes out
of it.  `Fifo xs tr ys`: in the events `tr` the queue has gone from `xs` to `ys`, first
in, first out, that is, what was there and what was put in is, in this order, what was
taken out and what is there.  An event that keeps the balance extends the account
(`Fifo.step`), and the account settles for everything that was there when, if at all,
it was taken (`Fifo.taken_at`).
-/
import Mathlib.Data.List.Nodup

namespace SimpleSched.Theory

set_option autoImplicit false

universe u v

variable {E : Type u} {α : Type v} (put take : E → List α)

def Fifo (xs : List α) (tr : List E) (ys : List α) : Prop :=
  xs ++ tr.flatMap put = tr.flatMap take ++ ys

namespace Fifo

variable {put take} {xs ys zs : List α} {tr : List E} {e : E} {a : α}

theorem start : Fifo put take xs [] xs := by simp [Fifo]

theorem step (fifo : Fifo put take xs tr ys) (balance : ys ++ put e = take e ++ zs) :
    Fifo put take xs (tr ++ [e]) zs := by
  unfold Fifo at fifo ⊢
  calc xs ++ (tr ++ [e]).flatMap put = tr.flatMap take ++ (ys ++ put e) := by
        simp [← List.append_assoc, fifo]
    _ = (tr ++ [e]).flatMap take ++ zs := by simp [balance]

/-- An event that has nothing to do with the queue. -/
theorem other (fifo : Fifo put take xs tr ys) (puts : put e = []) (takes : take e = []) :
    Fifo put take xs (tr ++ [e]) ys := fifo.step (by simp [puts, takes])

/-- What was at place `i` is taken as the `i`-th after that, or is still there. -/
theorem taken_at (fifo : Fifo put take xs tr ys) {i : Nat} (at_i : xs[i]? = some a) :
    (tr.flatMap take)[i]? = some a ∨
      (tr.flatMap take).length ≤ i ∧ ys[i - (tr.flatMap take).length]? = some a := by
  have inside : i < xs.length := (List.getElem?_eq_some_iff.1 at_i).1
  have whole : (tr.flatMap take ++ ys)[i]? = some a := by
    rw [← fifo, List.getElem?_append_left inside, at_i]
  by_cases taken : i < (tr.flatMap take).length
  · exact .inl (by rwa [List.getElem?_append_left taken] at whole)
  · have later := Nat.le_of_not_lt taken
    exact .inr ⟨later, by rwa [List.getElem?_append_right later] at whole⟩

/-- Nothing is taken out of its turn: what is taken before place `i` was there before it. -/
theorem taken_before (fifo : Fifo put take xs tr ys) {i : Nat} (inside : i < xs.length)
    (taken : i < (tr.flatMap take).length) : (tr.flatMap take)[i]? = xs[i]? := by
  have whole : (xs ++ tr.flatMap put)[i]? = (tr.flatMap take ++ ys)[i]? := by rw [fifo]
  rw [List.getElem?_append_left inside, List.getElem?_append_left taken] at whole
  exact whole.symm

/-- Where nothing is there twice it is not taken earlier. -/
theorem not_taken_before (fifo : Fifo put take xs tr ys) (nodup : xs.Nodup) {i j : Nat}
    (at_i : xs[i]? = some a) (earlier : j < i) : (tr.flatMap take)[j]? ≠ some a := by
  intro at_j
  have inside : i < xs.length := (List.getElem?_eq_some_iff.1 at_i).1
  have taken : j < (tr.flatMap take).length := (List.getElem?_eq_some_iff.1 at_j).1
  rw [fifo.taken_before (by omega) taken] at at_j
  have same : j = i := (List.getElem?_inj (by omega) nodup).1 (at_j.trans at_i.symm)
  omega

end Fifo

end SimpleSched.Theory
