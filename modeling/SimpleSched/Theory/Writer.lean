/-
# Theory.Writer -- programs that write, and what has been taken from them

A writer takes some of the items it is offered, and says how many, or fails.  A program
over a writer offers items and goes on with what it was told.

`Logs`: what a writer holds grows by what it says it has taken, and by nothing else.
Then it grows over a whole program by what was taken from the program, in order
(`Logs.run`), and over a loop that offers the rest again by a prefix of what was to be
written (`Puts`).
-/
import Mathlib.Data.List.Basic

namespace SimpleSched.Theory

set_option autoImplicit false

universe u

variable {W B E R : Type u}

structure Writer (W B E : Type u) where
  write : W → List B → Except E Nat × W
  flush : W → Except E PUnit.{u + 1} × W

/-- A program that writes and flushes, and sees what its calls return. -/
inductive Writing (B E R : Type u)
  | ret (r : R)
  | write (data : List B) (k : Except E Nat → Writing B E R)
  | flush (k : Except E PUnit.{u + 1} → Writing B E R)

/-- What a writer has taken of the items it was offered, by what it returned. -/
def taken (data : List B) : Except E Nat → List B
  | .ok n => data.take n
  | .error _ => []

namespace Writing

variable (writer : Writer W B E)

/-- The result of the program, what was taken from it, and the writer after it. -/
def run : Writing B E R → W → R × List B × W
  | .ret r, w => (r, [], w)
  | .write data k, w =>
    let (n, w) := writer.write w data
    let (r, later, w) := (k n).run w
    (r, taken data n ++ later, w)
  | .flush k, w =>
    let (done, w) := writer.flush w
    (k done).run w

end Writing

/-- What is in `log` grows by what is taken. -/
structure Logs (writer : Writer W B E) (log : W → List B) : Prop where
  write : ∀ w data, log (writer.write w data).2 = log w ++ taken data (writer.write w data).1
  flush : ∀ w, log (writer.flush w).2 = log w

variable {writer : Writer W B E} {log : W → List B} {w w' w'' : W} {data more : List B}

theorem Logs.run (logs : Logs writer log) (p : Writing B E R) (w : W) :
    log (p.run writer w).2.2 = log w ++ (p.run writer w).2.1 := by
  induction p generalizing w with
  | ret r => exact (List.append_nil _).symm
  | write data k ih =>
      simp only [Writing.run]
      rw [ih, logs.write, List.append_assoc]
  | flush k ih =>
      simp only [Writing.run]
      rw [ih, logs.flush]

/-! ## Writing all of something -/

/-- A prefix of `data` has been written, and all of it where nothing failed. -/
def Puts (log : W → List B) (w : W) (data : List B) (ok : Prop) (w' : W) : Prop :=
  ∃ out, log w' = log w ++ out ∧ out <+: data ∧ (ok → out = data)

variable {ok ok' : Prop}

theorem Puts.none (same : log w' = log w) (empty : ok → data = []) : Puts log w data ok w' :=
  ⟨[], by rw [same, List.append_nil], List.nil_prefix, fun fine => (empty fine).symm⟩

/-- The first part is written, and then as much of the rest. -/
theorem Puts.append (first : log w' = log w ++ data) (second : Puts log w' more ok w'') :
    Puts log w (data ++ more) ok w'' := by
  obtain ⟨out, put, part, full⟩ := second
  refine ⟨data ++ out, ?_, (List.prefix_append_right_inj data).2 part, fun fine => ?_⟩
  · rw [put, first, List.append_assoc]
  · rw [full fine]

/-- The first part has failed. -/
theorem Puts.stop (first : Puts log w data ok' w') (failed : ¬ ok) :
    Puts log w (data ++ more) ok w' := by
  obtain ⟨out, put, part, -⟩ := first
  exact ⟨out, put, part.trans (List.prefix_append data more), fun fine => absurd fine failed⟩

theorem Puts.done (puts : Puts log w data ok w') (fine : ok) : log w' = log w ++ data := by
  obtain ⟨out, put, -, full⟩ := puts
  rw [put, full fine]

end SimpleSched.Theory
