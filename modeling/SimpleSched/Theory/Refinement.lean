/-
# Theory.Refinement -- a system does no more than a smaller one allows

A `Simulation` of `M` by `N` relates their states so that a step of `M` that emits an
event is a step of `N` with that label, and a step that emits none leaves `N` where it
is.  The events of every run of `M` are then a run of `N` that ends in a related state
(`Simulation.run`).

Where what is seen of a label does not depend on the state, seeing is a simulation
too: a run of `M` becomes a run of `N` by `List.filterMap` (`Simulation.exec`), and
the two compose (`Simulation.run_seen`).
-/
import SimpleSched.Theory.Trace
import Mathlib.Data.List.Induction

namespace SimpleSched.Theory

set_option autoImplicit false

universe u

variable {S A T B U C : Type u}

namespace Lts

theorem exec_append (N : Lts T B) (t : T) (xs ys : List B) :
    N.exec t (xs ++ ys) = (N.exec t xs).bind fun m => N.exec m ys := by
  induction xs generalizing t with
  | nil => rfl
  | cons x xs ih =>
      simp only [List.cons_append, exec, Option.bind_assoc]
      congr 1
      funext m
      exact ih m

theorem exec_singleton (N : Lts T B) (t : T) (b : B) : N.exec t [b] = N.step t b := by
  simp [exec]

/-- What holds at the start and is kept by every further label holds after a run. -/
theorem exec_induction {N : Lts T B} {t₀ t : T} {tr : List B} {I : T → List B → Prop}
    (ran : N.exec t₀ tr = some t) (start : I t₀ [])
    (kept : ∀ {m tr b t}, N.exec t₀ tr = some m → I m tr → N.step m b = some t → I t (tr ++ [b])) :
    I t tr := by
  induction tr using List.reverseRecOn generalizing t with
  | nil =>
      cases ran
      exact start
  | append_singleton tr b ih =>
      rw [exec_append] at ran
      obtain ⟨m, so_far, final⟩ := Option.bind_eq_some_iff.mp ran
      rw [exec_singleton] at final
      exact kept so_far (ih so_far) final

end Lts

structure Simulation (M : Lts S A) (N : Lts T B) (ok : S → A → Prop) (event : S → A → Option B) where
  Rel : S → T → Prop
  step : ∀ {s s' : S} {a : A} {t : T}, Rel s t → ok s a → M.step s a = some s' →
    ∃ t', N.exec t (event s a).toList = some t' ∧ Rel s' t'

namespace Simulation

variable {M : Lts S A} {N : Lts T B} {K : Lts U C} {ok : S → A → Prop} {event : S → A → Option B}
  {s₀ : S} {t₀ : T}

/-- The events of a run of `M` are a run of `N`. -/
theorem run (sim : Simulation M N ok event) (start : sim.Rel s₀ t₀) {s : S × List B}
    (reached : (M.traced event).Reach (fun s a => ok s.1 a) (s₀, []) s) :
    ∃ t, N.exec t₀ s.2 = some t ∧ sim.Rel s.1 t := by
  induction reached with
  | start => exact ⟨t₀, rfl, start⟩
  | step _ meets taken ih =>
      obtain ⟨t, so_far, related⟩ := ih
      obtain ⟨stepped, trace⟩ := Lts.traced_some taken
      obtain ⟨t', goes, related'⟩ := sim.step related meets stepped
      refine ⟨t', ?_, related'⟩
      rw [trace, Lts.exec_append, so_far]
      exact goes

/-- Every state reached is related to one that allows it. -/
theorem related (sim : Simulation M N ok event) (start : sim.Rel s₀ t₀) {s : S}
    (reached : M.Reach ok s₀ s) : ∃ t, sim.Rel s t := by
  induction reached with
  | start => exact ⟨t₀, start⟩
  | step _ meets taken ih =>
      obtain ⟨t, related⟩ := ih
      obtain ⟨t', -, related'⟩ := sim.step related meets taken
      exact ⟨t', related'⟩

/-- Seeing only some of the labels of a run. -/
theorem exec {see : T → B → Option C} (sim : Simulation N K Lts.anyStep see) (f : B → Option C)
    (seen : ∀ t b, see t b = f b) {u₀ : U} (start : sim.Rel t₀ u₀) {tr : List B} {t : T}
    (ran : N.exec t₀ tr = some t) : ∃ u, K.exec u₀ (tr.filterMap f) = some u ∧ sim.Rel t u := by
  induction tr generalizing t₀ u₀ with
  | nil =>
      cases ran
      exact ⟨u₀, rfl, start⟩
  | cons b tr ih =>
      obtain ⟨m, taken, rest⟩ := Lts.exec_cons ran
      obtain ⟨v, goes, related⟩ := sim.step start trivial taken
      obtain ⟨u, later, ends⟩ := ih related rest
      refine ⟨u, ?_, ends⟩
      rw [seen] at goes
      have split : (b :: tr).filterMap f = (f b).toList ++ tr.filterMap f := by
        cases at_b : f b <;> simp [at_b]
      rw [split, Lts.exec_append, goes]
      exact later

theorem run_seen (sim : Simulation M N ok event) {see : T → B → Option C}
    (sees : Simulation N K Lts.anyStep see) (f : B → Option C) (seen : ∀ t b, see t b = f b)
    (start : sim.Rel s₀ t₀) {u₀ : U} (first : sees.Rel t₀ u₀) {s : S × List B}
    (reached : (M.traced event).Reach (fun s a => ok s.1 a) (s₀, []) s) :
    ∃ t u, N.exec t₀ s.2 = some t ∧ sim.Rel s.1 t ∧
      K.exec u₀ (s.2.filterMap f) = some u ∧ sees.Rel t u := by
  obtain ⟨t, ran, related⟩ := sim.run start reached
  obtain ⟨u, goes, ends⟩ := sees.exec f seen first ran
  exact ⟨t, u, ran, related, goes, ends⟩

end Simulation

end SimpleSched.Theory
