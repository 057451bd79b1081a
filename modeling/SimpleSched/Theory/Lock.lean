/-
# Theory.Lock -- a value under a lock, and the sections of a run

The lock is taken when nobody has it, by a holder that finds the value; only the
holder writes; it gives the lock back.  `Section` is what one holder does from the one
to the other.

The runs of a lock are serial (`serial_of_exec`): their labels are whole sections one
after the other, each of which finds what the one before has left, and at the end the
beginning of one more where the lock is held.
-/
import SimpleSched.Theory.Refinement

namespace SimpleSched.Theory

set_option autoImplicit false

universe u

variable {D H : Type u}

structure Lock (D H : Type u) where
  data : D
  holder : Option H

namespace Lock

def free (data : D) : Lock D H := ⟨data, none⟩

inductive Label (D H : Type u)
  /-- the holder, and the value it finds -/
  | acquired (h : H) (found : D)
  | wrote (h : H) (data : D)
  | released (h : H)
  deriving DecidableEq, Repr

variable [DecidableEq D] [DecidableEq H]

def step (s : Lock D H) : Label D H → Option (Lock D H)
  | .acquired h found => if s.holder = none ∧ s.data = found then some ⟨s.data, some h⟩ else none
  | .wrote h data => if s.holder = some h then some ⟨data, some h⟩ else none
  | .released h => if s.holder = some h then some ⟨s.data, none⟩ else none

end Lock

def lock (D H : Type u) [DecidableEq D] [DecidableEq H] : Lts (Lock D H) (Lock.Label D H) :=
  ⟨Lock.step⟩

/-! ## Sections -/

/-- The holder, the value it found, and what it wrote. -/
structure Section (D H : Type u) where
  holder : H
  found : D
  wrote : List D

namespace Section

/-- The section as far as it has got. -/
def opened (x : Section D H) : List (Lock.Label D H) :=
  .acquired x.holder x.found :: x.wrote.map (.wrote x.holder)

def labels (x : Section D H) : List (Lock.Label D H) := x.opened ++ [.released x.holder]

/-- The value it has left. -/
def left (x : Section D H) : D := x.wrote.getLastD x.found

/-- Each section finds what the one before has left, the first one `d`, and the last
leaves `d'`. -/
inductive Chain : D → List (Section D H) → D → Prop
  | nil {d : D} : Chain d [] d
  | concat {d d' : D} {xs : List (Section D H)} {x : Section D H} :
      Chain d xs d' → x.found = d' → Chain d (xs ++ [x]) x.left

theorem opened_wrote (x : Section D H) (data : D) :
    { x with wrote := x.wrote ++ [data] }.opened = x.opened ++ [.wrote x.holder data] := by
  simp [opened]

theorem left_wrote (x : Section D H) (data : D) :
    { x with wrote := x.wrote ++ [data] }.left = data := by
  simp [left]

end Section

/-- A run of whole sections, and of the beginning of one more where the lock is held. -/
def Serial (d : D) (s : Lock D H) (labels : List (Lock.Label D H)) : Prop :=
  ∃ xs d', Section.Chain d xs d' ∧
    match s.holder with
    | none => labels = xs.flatMap Section.labels ∧ s.data = d'
    | some h => ∃ x : Section D H, x.holder = h ∧ x.found = d' ∧ x.left = s.data ∧
        labels = xs.flatMap Section.labels ++ x.opened

variable {d : D} {s s' : Lock D H} {l : Lock.Label D H} {labels : List (Lock.Label D H)}

theorem Serial.free : Serial d (.free d : Lock D H) [] :=
  ⟨[], d, .nil, rfl, rfl⟩

variable [DecidableEq D] [DecidableEq H]

/-- One more label opens a section, goes on in the one that is open, or closes it. -/
theorem Serial.step (serial : Serial d s labels) (taken : s.step l = some s') :
    Serial d s' (labels ++ [l]) := by
  obtain ⟨xs, d', chain, ends⟩ := serial
  cases l with
  | acquired h found =>
      simp only [Lock.step, Option.ite_none_right_eq_some, Option.some.injEq] at taken
      obtain ⟨⟨nobody, finds⟩, rfl⟩ := taken
      simp only [nobody] at ends
      obtain ⟨rfl, at_end⟩ := ends
      refine ⟨xs, d', chain, ⟨h, found, []⟩, rfl, ?_, ?_, ?_⟩
      · exact finds.symm.trans at_end
      · exact finds.symm
      · simp [Section.opened]
  | wrote h data =>
      simp only [Lock.step, Option.ite_none_right_eq_some, Option.some.injEq] at taken
      obtain ⟨mine, rfl⟩ := taken
      simp only [mine] at ends
      obtain ⟨x, rfl, finds, -, rfl⟩ := ends
      refine ⟨xs, d', chain, { x with wrote := x.wrote ++ [data] }, rfl, finds, ?_, ?_⟩
      · exact x.left_wrote data
      · rw [x.opened_wrote, List.append_assoc]
  | released h =>
      simp only [Lock.step, Option.ite_none_right_eq_some, Option.some.injEq] at taken
      obtain ⟨mine, rfl⟩ := taken
      simp only [mine] at ends
      obtain ⟨x, rfl, finds, leaves, rfl⟩ := ends
      refine ⟨xs ++ [x], x.left, .concat chain finds, ?_, leaves.symm⟩
      simp [Section.labels, List.append_assoc]

/-- The runs of a lock are serial. -/
theorem serial_of_exec (ran : (lock D H).exec (.free d) labels = some s) : Serial d s labels :=
  Lts.exec_induction (I := fun s labels => Serial d s labels) ran .free
    fun _ serial taken => serial.step taken

end SimpleSched.Theory
