/-
# Theory.Fallback -- one candidate after another

A loop tries candidates in order until one succeeds.  What it should return is a
function of the outcomes alone: the first success, or else the last error
(`FirstOrLast`, computed by `firstOk`).

A loop that learns some outcomes too late to go on (`Attempt.stop`) returns such a
failure at once.  `run_eq_firstOk_iff` says when that makes no difference.
-/
import Mathlib.Data.List.Basic

namespace SimpleSched.Theory

set_option autoImplicit false

universe u v

variable {E : Type u} {T : Type v}

def Failed (x : Except E T) : Prop := ∃ e, x = .error e

/-- `r` is the first success of `xs`, or else an error, the last one if there is one. -/
def FirstOrLast (xs : List (Except E T)) : Except E T → Prop
  | .ok t => ∃ before after, xs = before ++ .ok t :: after ∧ ∀ x ∈ before, Failed x
  | .error e => (∀ x ∈ xs, Failed x) ∧ ∀ x ∈ xs.getLast?, x = .error e

def firstOk (last : Except E T) : List (Except E T) → Except E T
  | [] => last
  | .ok t :: _ => .ok t
  | .error e :: rest => firstOk (.error e) rest

/-- One turn of a loop over candidates: it succeeds, fails and goes on, or fails and
returns. -/
inductive Attempt (E : Type u) (T : Type v)
  | done (t : T)
  | next (e : E)
  | stop (e : E)

/-- The first is a success, or all are the same error. -/
def Uniform (xs : List (Except E T)) : Prop :=
  ∀ e, xs.head? = some (.error e) → ∀ x ∈ xs, x = .error e

namespace Attempt

def outcome : Attempt E T → Except E T
  | .done t => .ok t
  | .next e | .stop e => .error e

/-- What the loop returns; `last` is what it returns after the last turn. -/
def run (last : Except E T) : List (Attempt E T) → Except E T
  | [] => last
  | .done t :: _ => .ok t
  | .next e :: rest => run (.error e) rest
  | .stop e :: _ => .error e

/-- If the loop returns a failure early, what it left out only fails, and fails with
the same error in the end. -/
def Harmless : List (Attempt E T) → Prop
  | [] | .done _ :: _ => True
  | .next _ :: rest => Harmless rest
  | .stop e :: rest => FirstOrLast (rest.map outcome) (.error e)

end Attempt

/-! ## firstOk -/

variable {e : E} {t : T} {r last : Except E T} {xs : List (Except E T)}

theorem not_failed_ok : ¬ Failed (.ok t : Except E T) := fun ⟨_, eq⟩ => by cases eq

theorem firstOrLast_ok_cons : FirstOrLast (.ok t :: xs) r ↔ r = .ok t := by
  cases r with
  | ok u =>
      constructor
      · rintro ⟨before, after, split, failed⟩
        cases before with
        | nil => exact (List.cons.inj split).1.symm
        | cons x before =>
            obtain ⟨rfl, -⟩ := List.cons.inj split
            exact absurd (failed _ List.mem_cons_self) not_failed_ok
      · intro same
        rw [same]
        exact ⟨[], xs, rfl, by simp⟩
  | error e =>
      constructor
      · intro none_ok
        exact absurd (none_ok.1 _ List.mem_cons_self) not_failed_ok
      · intro same
        cases same

theorem firstOrLast_error_cons {x : Except E T} :
    FirstOrLast (.error e :: x :: xs) r ↔ FirstOrLast (x :: xs) r := by
  cases r with
  | ok t =>
      constructor
      · rintro ⟨before, after, split, failed⟩
        cases before with
        | nil => cases (List.cons.inj split).1
        | cons y before =>
            exact ⟨before, after, (List.cons.inj split).2,
              fun z mem => failed z (List.mem_cons_of_mem _ mem)⟩
      · rintro ⟨before, after, split, failed⟩
        refine ⟨.error e :: before, after, by rw [split]; rfl, ?_⟩
        intro z mem
        rcases List.mem_cons.1 mem with rfl | mem
        · exact ⟨e, rfl⟩
        · exact failed z mem
  | error e' =>
      simp only [FirstOrLast, List.mem_cons, forall_eq_or_imp, List.getLast?_cons_cons]
      constructor
      · rintro ⟨⟨-, failed⟩, final⟩
        exact ⟨failed, final⟩
      · rintro ⟨failed, final⟩
        exact ⟨⟨⟨e, rfl⟩, failed⟩, final⟩

/-- `firstOk` is the one result `FirstOrLast` admits. -/
theorem firstOrLast_iff (last : Except E T) (some : xs ≠ []) :
    FirstOrLast xs r ↔ r = firstOk last xs := by
  induction xs generalizing last with
  | nil => exact absurd rfl some
  | cons x xs ih =>
      cases x with
      | ok t => rw [firstOrLast_ok_cons, firstOk]
      | error e =>
          cases xs with
          | nil =>
              cases r with
              | ok t =>
                  simp only [FirstOrLast, firstOk, reduceCtorEq, iff_false]
                  rintro ⟨before, after, split, -⟩
                  cases before <;> simp at split
              | error e' =>
                  simp [FirstOrLast, firstOk, Failed, eq_comm]
          | cons y ys =>
              rw [firstOrLast_error_cons, firstOk]
              exact ih (.error e) (by simp)

/-- Nothing after an error makes a difference, if there is no success and the last
error is that one. -/
theorem firstOk_error_iff :
    firstOk (.error e) xs = .error e ↔ FirstOrLast xs (.error e) := by
  cases xs with
  | nil => simp [firstOk, FirstOrLast]
  | cons x xs =>
      rw [firstOrLast_iff (.error e) (by simp)]
      exact eq_comm

/-- Whether an error is the result depends on the errors only. -/
theorem firstOrLast_error_congr {R : Type*} {T' : Type*} {f : R → Except E T} {g : R → Except E T'}
    {rs : List R} (same : ∀ r ∈ rs, ∀ e, f r = .error e ↔ g r = .error e) :
    FirstOrLast (rs.map f) (.error e) ↔ FirstOrLast (rs.map g) (.error e) := by
  simp only [FirstOrLast, List.forall_mem_map, List.getLast?_map]
  apply and_congr
  · exact forall₂_congr fun r mem => exists_congr fun e => same r mem e
  · cases last : rs.getLast? with
    | none => simp
    | some r => simpa using same r (List.mem_of_getLast? last) e

/-! ## Early returns -/

namespace Attempt

variable {as : List (Attempt E T)}

theorem run_eq_firstOk_iff : run last as = firstOk last (as.map outcome) ↔ Harmless as := by
  induction as generalizing last with
  | nil => simp [run, firstOk, Harmless]
  | cons a as ih =>
      cases a with
      | done t => simp [run, firstOk, outcome, Harmless]
      | next e => simpa [run, firstOk, outcome, Harmless] using ih
      | stop e =>
          simp only [run, firstOk, outcome, Harmless, List.map_cons]
          rw [eq_comm, firstOk_error_iff]

/-- The loop returns what it should exactly when its early return is harmless. -/
theorem run_firstOrLast_iff (last : Except E T) (some : as ≠ []) :
    FirstOrLast (as.map outcome) (run last as) ↔ Harmless as := by
  rw [firstOrLast_iff last (by simpa using some), run_eq_firstOk_iff]

/-- A loop that succeeds has returned no failure. -/
theorem harmless_of_ok (done : run last as = .ok t) : Harmless as := by
  induction as generalizing last with
  | nil => trivial
  | cons a as ih =>
      cases a with
      | done t => trivial
      | next e => exact ih done
      | stop e => cases done

/-- A loop that returns no failure early. -/
theorem harmless_of_next (goes_on : ∀ a ∈ as, ∀ e, a ≠ .stop e) : Harmless as := by
  induction as with
  | nil => trivial
  | cons a as ih =>
      cases a with
      | done t => trivial
      | next e => exact ih fun b mem => goes_on b (List.mem_cons_of_mem _ mem)
      | stop e => exact absurd rfl (goes_on _ List.mem_cons_self e)

theorem run_stop {before after : List (Attempt E T)} (go_on : ∀ a ∈ before, ∃ e, a = .next e) :
    run last (before ++ .stop e :: after) = .error e := by
  induction before generalizing last with
  | nil => rfl
  | cons a before ih =>
      obtain ⟨e', rfl⟩ := go_on a List.mem_cons_self
      exact ih fun b mem => go_on b (List.mem_cons_of_mem _ mem)

/-- With one error only it does not matter where the loop ends. -/
theorem run_uniform (some : as ≠ []) (uniform : ∀ a ∈ as, a.outcome = .error e) :
    run last as = .error e := by
  induction as generalizing last with
  | nil => exact absurd rfl some
  | cons a as ih =>
      have here := uniform a List.mem_cons_self
      cases a with
      | done t => cases here
      | next e' =>
          cases as with
          | nil => exact here
          | cons b as => exact ih (by simp) fun c mem => uniform c (List.mem_cons_of_mem _ mem)
      | stop e' => exact here

end Attempt

end SimpleSched.Theory
