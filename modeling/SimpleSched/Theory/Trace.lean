/-
# Theory.Trace -- the events of a run, and the order they come in

`Lts.traced` runs a system with the list of the events its steps emit, `Lts.recorded` with
any history its steps write.  `InOrder R tr` says that every event of a trace is allowed after those before it; a property of the
form "no `e` before `f`" is one of these, and is kept by a step when the event it emits
is allowed (`InOrder.emit`).
-/
import SimpleSched.Theory.Lts

namespace SimpleSched.Theory

set_option autoImplicit false

universe u v w

variable {S : Type u} {A : Type v} {E : Type w}

namespace Lts

/-- The system with the events emitted so far. -/
def traced (M : Lts S A) (event : S → A → Option E) : Lts (S × List E) A :=
  ⟨fun s a => (M.step s.1 a).map fun t => (t, s.2 ++ (event s.1 a).toList)⟩

variable {M : Lts S A} {event : S → A → Option E} {s t : S × List E} {a : A}

theorem traced_some (taken : (M.traced event).step s a = some t) :
    M.step s.1 a = some t.1 ∧ t.2 = s.2 ++ (event s.1 a).toList := by
  obtain ⟨m, stepped, rfl⟩ := Option.map_eq_some_iff.mp taken
  exact ⟨stepped, rfl⟩

theorem Reach.untraced (reached : (M.traced event).Reach anyStep s t) : M.Reach anyStep s.1 t.1 := by
  induction reached with
  | start => exact .start
  | step _ _ taken ih => exact .step ih trivial (traced_some taken).1

theorem Reach.untraced_meets {ok : S → A → Prop}
    (reached : (M.traced event).Reach (fun s a => ok s.1 a) s t) : M.Reach ok s.1 t.1 := by
  induction reached with
  | start => exact .start
  | step _ meets taken ih => exact .step ih meets (traced_some taken).1

section Recorded

variable {H : Type w}

/-- The system with a history, which its steps do not read. -/
def recorded (M : Lts S A) (write : S → A → H → H) : Lts (S × H) A :=
  ⟨fun s a => (M.step s.1 a).map fun t => (t, write s.1 a s.2)⟩

variable {write : S → A → H → H} {r r' : S × H}

theorem recorded_some (taken : (M.recorded write).step r a = some r') :
    M.step r.1 a = some r'.1 ∧ r'.2 = write r.1 a r.2 := by
  obtain ⟨m, stepped, rfl⟩ := Option.map_eq_some_iff.mp taken
  exact ⟨stepped, rfl⟩

end Recorded

end Lts

/-- Every event is allowed after those before it. -/
def InOrder (R : List E → E → Prop) (tr : List E) : Prop :=
  ∀ before e after, tr = before ++ e :: after → R before e

variable {R : List E → E → Prop} {tr : List E}

theorem InOrder.nil : InOrder R [] := by
  intro before e after split
  cases before <;> cases split

theorem InOrder.concat (inOrder : InOrder R tr) {e : E} (allowed : R tr e) :
    InOrder R (tr ++ [e]) := by
  intro before f after split
  rcases List.eq_nil_or_concat after with rfl | ⟨after', last, rfl⟩
  · obtain ⟨rfl, same⟩ := List.append_inj' split rfl
    obtain rfl : e = f := by simpa using same
    exact allowed
  · rw [List.concat_eq_append, ← List.cons_append, ← List.append_assoc] at split
    obtain ⟨earlier, -⟩ := List.append_inj' split rfl
    exact inOrder before f after' earlier

theorem inOrder_iff : InOrder R tr ↔ ∀ n, ∀ h : n < tr.length, R (tr.take n) tr[n] := by
  constructor
  · intro inOrder n short
    refine inOrder _ _ (tr.drop (n + 1)) ?_
    rw [← List.drop_eq_getElem_cons short, List.take_append_drop]
  · rintro all before e after rfl
    simpa using all before.length (by simp)

instance [∀ before e, Decidable (R before e)] : Decidable (InOrder R tr) :=
  decidable_of_iff' _ inOrder_iff

/-- What a step emits, if anything, is allowed. -/
theorem InOrder.emit (inOrder : InOrder R tr) {event : Option E}
    (allowed : ∀ e, event = some e → R tr e) : InOrder R (tr ++ event.toList) := by
  cases event with
  | none => simpa using inOrder
  | some e => exact inOrder.concat (allowed e rfl)

end SimpleSched.Theory
