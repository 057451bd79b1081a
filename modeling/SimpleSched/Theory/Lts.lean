/-
# Theory.Lts -- labelled systems, their runs, and the conditions a run meets

A system is a partial step function: every choice (which party moves, what the
environment answers) is in the label, so a run is a list of labels and a step
either is the stated one or does not exist.

* `Reach ok s₀ s`: `s` is reached from `s₀` by a run whose every step meets the
  condition `ok` in the state it is taken from.  `Reach.invariant` is the
  induction that carries a state predicate over such runs.
* `Along Q s as` / `Meets ok s as`: the predicate holds in every state of the run
  `as`, the condition in every step of it.
* `along_iff_meets`: when `ok` keeps `Q` and the first step that breaks `ok`
  breaks `Q`, the condition is exact, run by run; `along_iff_meets_within` is that
  for the runs of a domain, `meets_iff_meets` compares two conditions on steps.
-/
import Mathlib.Data.Option.Basic

namespace SimpleSched.Theory

set_option autoImplicit false

universe u v

/-- A labelled transition system whose labels resolve every choice. -/
structure Lts (S : Type u) (A : Type v) where
  step : S → A → Option S

namespace Lts

variable {S : Type u} {A : Type v} (M : Lts S A)

/-- The state after the run `as`, if every one of its steps exists. -/
def exec : S → List A → Option S
  | s, [] => some s
  | s, a :: as => (M.step s a).bind fun t => exec t as

inductive Reach (ok : S → A → Prop) (s₀ : S) : S → Prop
  | start : Reach ok s₀ s₀
  | step {s t : S} {a : A} : Reach ok s₀ s → ok s a → M.step s a = some t → Reach ok s₀ t

/-- The condition every step meets. -/
def anyStep : S → A → Prop := fun _ _ => True

/-- `Q` holds in every state the run `as` visits. -/
def Along (Q : S → Prop) : S → List A → Prop
  | s, [] => Q s
  | s, a :: as => Q s ∧ ∀ t, M.step s a = some t → Along Q t as

/-- Every step of the run `as` meets `ok` in the state it is taken from. -/
def Meets (ok : S → A → Prop) : S → List A → Prop
  | _, [] => True
  | s, a :: as => ok s a ∧ ∀ t, M.step s a = some t → Meets ok t as

/-- Whether a given run meets a decidable condition is found by running it. -/
instance Meets.decidable {ok : S → A → Prop} [∀ s a, Decidable (ok s a)] :
    ∀ (s : S) (as : List A), Decidable (M.Meets ok s as)
  | _, [] => isTrue trivial
  | s, a :: as =>
      match taken : M.step s a with
      | none => decidable_of_iff (ok s a) (by simp [Meets, taken])
      | some t =>
          have : Decidable (M.Meets ok t as) := Meets.decidable t as
          decidable_of_iff (ok s a ∧ M.Meets ok t as) (by simp [Meets, taken])

variable {M} {ok ok' : S → A → Prop} {s₀ s t : S}

theorem exec_cons {a : A} {as : List A} (run : M.exec s (a :: as) = some t) :
    ∃ m, M.step s a = some m ∧ M.exec m as = some t := by
  simp only [exec] at run
  exact Option.bind_eq_some_iff.mp run

/-- The rule of invariants: what holds at the start and is kept by every step
that meets the condition holds in every state reached. -/
theorem Reach.invariant {I : S → Prop} (reached : M.Reach ok s₀ s) (start : I s₀)
    (kept : ∀ s a t, M.Reach ok s₀ s → I s → ok s a → M.step s a = some t → I t) : I s := by
  induction reached with
  | start => exact start
  | step before meets taken ih => exact kept _ _ _ before ih meets taken

theorem Reach.mono (weaker : ∀ s a, ok s a → ok' s a) (reached : M.Reach ok s₀ s) :
    M.Reach ok' s₀ s := by
  induction reached with
  | start => exact .start
  | step _ meets taken ih => exact .step ih (weaker _ _ meets) taken

theorem Reach.trans {m : S} (first : M.Reach ok s₀ m) (second : M.Reach ok m s) :
    M.Reach ok s₀ s := by
  induction second with
  | start => exact first
  | step _ meets taken ih => exact .step ih meets taken

/-- A run whose steps all meet the condition reaches its last state under it. -/
theorem Reach.of_exec {as : List A} (run : M.exec s as = some t) (meets : M.Meets ok s as) :
    M.Reach ok s t := by
  induction as generalizing s with
  | nil =>
      simp only [exec, Option.some.injEq] at run
      subst run
      exact .start
  | cons a as ih =>
      obtain ⟨m, taken, rest⟩ := exec_cons run
      exact (Reach.step .start meets.1 taken).trans (ih rest (meets.2 m taken))

theorem meets_cons {a : A} {as : List A} (meets : ok s a) (taken : M.step s a = some t)
    (later : M.Meets ok t as) : M.Meets ok s (a :: as) := by
  refine ⟨meets, ?_⟩
  intro t' taken'
  obtain rfl : t = t' := Option.some.inj (taken.symm.trans taken')
  exact later

theorem meets_of_forall {as : List A} (all : ∀ a ∈ as, ∀ s, ok s a) : M.Meets ok s as := by
  induction as generalizing s with
  | nil => trivial
  | cons a as ih =>
      exact ⟨all a List.mem_cons_self s, fun _ _ => ih fun b mem => all b (List.mem_cons_of_mem _ mem)⟩

theorem Reach.of_exec_any {as : List A} (run : M.exec s as = some t) :
    M.Reach anyStep s t :=
  .of_exec run (meets_of_forall fun _ _ _ => trivial)

theorem along_of_meets {Q : S → Prop} (good : ∀ s, M.Reach ok s₀ s → Q s) {as : List A}
    (reached : M.Reach ok s₀ s) (meets : M.Meets ok s as) : M.Along Q s as := by
  induction as generalizing s with
  | nil => exact good s reached
  | cons a as ih =>
      exact ⟨good s reached, fun t taken => ih (.step reached meets.1 taken) (meets.2 t taken)⟩

theorem meets_and {as : List A} (first : M.Meets ok s as) (second : M.Meets ok' s as) :
    M.Meets (fun s a => ok s a ∧ ok' s a) s as := by
  induction as generalizing s with
  | nil => trivial
  | cons a as ih =>
      exact ⟨⟨first.1, second.1⟩, fun t taken => ih (first.2 t taken) (second.2 t taken)⟩

/-- Two conditions that agree wherever the first has been met so far are met by the same
runs. -/
theorem meets_iff_meets (agree : ∀ s a t, M.Reach ok s₀ s → M.step s a = some t → (ok s a ↔ ok' s a))
    {as : List A} (reached : M.Reach ok s₀ s) (run : M.exec s as = some t) :
    M.Meets ok s as ↔ M.Meets ok' s as := by
  induction as generalizing s with
  | nil => exact Iff.rfl
  | cons a as ih =>
      obtain ⟨m, taken, rest⟩ := exec_cons run
      have first := agree s a m reached taken
      have only {k : S} (taken' : M.step s a = some k) : k = m :=
        Option.some.inj (taken'.symm.trans taken)
      constructor
      · rintro ⟨meets, later⟩
        refine ⟨first.1 meets, ?_⟩
        intro k taken'
        obtain rfl := only taken'
        exact (ih (.step reached meets taken) rest).1 (later k taken')
      · rintro ⟨meets, later⟩
        refine ⟨first.2 meets, ?_⟩
        intro k taken'
        obtain rfl := only taken'
        exact (ih (.step reached (first.2 meets) taken) rest).2 (later k taken')

theorem meets_of_along {Q : S → Prop} {D : S → A → Prop}
    (bad : ∀ s a t, M.Reach (fun s a => D s a ∧ ok s a) s₀ s → D s a → M.step s a = some t →
      ¬ ok s a → ¬ Q t)
    {as : List A} (reached : M.Reach (fun s a => D s a ∧ ok s a) s₀ s) (run : M.exec s as = some t)
    (within : M.Meets D s as) (along : M.Along Q s as) : M.Meets ok s as := by
  induction as generalizing s with
  | nil => trivial
  | cons a as ih =>
      obtain ⟨m, taken, rest⟩ := exec_cons run
      have here : Q m := by
        cases as with
        | nil => exact along.2 m taken
        | cons b bs => exact (along.2 m taken).1
      have meets : ok s a := Classical.byContradiction fun breaks =>
        bad s a m reached within.1 taken breaks here
      refine ⟨meets, ?_⟩
      intro t' taken'
      obtain rfl : m = t' := Option.some.inj (taken.symm.trans taken')
      exact ih (.step reached ⟨within.1, meets⟩ taken) rest (within.2 m taken) (along.2 m taken)

/-- Among the runs of a domain a condition is exact when it keeps the property and
the first step that breaks it breaks the property. -/
theorem along_iff_meets_within {Q : S → Prop} {D : S → A → Prop}
    (good : ∀ s, M.Reach (fun s a => D s a ∧ ok s a) s₀ s → Q s)
    (bad : ∀ s a t, M.Reach (fun s a => D s a ∧ ok s a) s₀ s → D s a → M.step s a = some t →
      ¬ ok s a → ¬ Q t)
    {as : List A} (run : M.exec s₀ as = some t) (within : M.Meets D s₀ as) :
    M.Along Q s₀ as ↔ M.Meets ok s₀ as :=
  ⟨meets_of_along bad .start run within,
    fun meets => along_of_meets good .start (meets_and within meets)⟩

/-- The same among all runs. -/
theorem along_iff_meets {Q : S → Prop} (good : ∀ s, M.Reach ok s₀ s → Q s)
    (bad : ∀ s a t, M.Reach ok s₀ s → M.step s a = some t → ¬ ok s a → ¬ Q t)
    {as : List A} (run : M.exec s₀ as = some t) : M.Along Q s₀ as ↔ M.Meets ok s₀ as :=
  along_iff_meets_within (D := anyStep)
    (fun s reached => good s (reached.mono fun _ _ both => both.2))
    (fun s a t reached _ => bad s a t (reached.mono fun _ _ both => both.2)) run
    (meets_of_forall fun _ _ _ => trivial)

end Lts

end SimpleSched.Theory
