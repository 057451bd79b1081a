/-
# Theory.Programs -- programs of tasks over shared objects

A program says for each control state what a task does next: an operation, a spawn, a
yield, or its end.  `machine` runs any number of tasks, one action at a time in any
order: an operation is done at once, and the task goes on with the answer; or it fails
without having done anything, or it takes the task down with it.  This is what
concurrent programs with blocking operations mean, with nothing said of how a task waits
or what runs it.
-/
import SimpleSched.Theory.Blocking

namespace SimpleSched.Theory

set_option autoImplicit false

universe u

variable {K Op R V I T Q : Type u}

/-- What a task does next, and how it goes on; `none` is a failed operation. -/
inductive Next (Q I Op R : Type u)
  | call (i : I) (op : Op) (k : Option R → Q)
  | spawn (child rest : Q)
  | sched (rest : Q)
  | ret
  | panic

/-- A program: what the task does next in each control state. -/
abbrev Program (Q I Op R : Type u) := Q → Next Q I Op R

/-- The objects, and where each task there is has got to. -/
@[ext] structure Machine (K I T Q : Type u) where
  object : I → K
  task : T → Option Q

namespace Machine

/-- No tasks, and every object as `k`. -/
def start (k : K) : Machine K I T Q := ⟨fun _ => k, fun _ => none⟩

inductive Label (Op R V I T Q : Type u)
  /-- a task is started from outside -/
  | boot (t : T) (q : Q)
  | done (t : T) (i : I) (op : Op) (r : R)
  | failed (t : T)
  | killed (t : T)
  | spawn (t u : T)
  | sched (t : T)
  | returned (t : T)
  | panicked (t : T)
  | change (i : I) (v : V)

/-- What the task does next, if there is one. -/
def next (program : Program Q I Op R) (s : Machine K I T Q) (t : T) : Option (Next Q I Op R) :=
  (s.task t).map program

variable [DecidableEq I] [DecidableEq T] [DecidableEq Op]

def setTask (s : Machine K I T Q) (t : T) (q : Option Q) : Machine K I T Q :=
  { s with task := Function.update s.task t q }

def step (D : Objects K Op R V) (program : Program Q I Op R) (s : Machine K I T Q) :
    Label Op R V I T Q → Option (Machine K I T Q)
  | .boot t q => if (s.task t).isNone then some (s.setTask t (some q)) else none
  | .done t i op r =>
    match s.next program t with
    | some (.call j op' k) =>
      if j = i ∧ op' = op then
        (D.done (s.object i) op r).map fun x =>
          { s with object := Function.update s.object i x }.setTask t (some (k (some r)))
      else none
    | _ => none
  | .failed t =>
    match s.next program t with
    | some (.call _ _ k) => some (s.setTask t (some (k none)))
    | _ => none
  | .killed t =>
    match s.next program t with
    | some (.call _ _ _) => some (s.setTask t none)
    | _ => none
  | .spawn t u =>
    match s.next program t with
    | some (.spawn child rest) =>
      if (s.task u).isNone then some ((s.setTask u (some child)).setTask t (some rest)) else none
    | _ => none
  | .sched t =>
    match s.next program t with
    | some (.sched rest) => some (s.setTask t (some rest))
    | _ => none
  | .returned t =>
    match s.next program t with
    | some .ret => some (s.setTask t none)
    | _ => none
  | .panicked t =>
    match s.next program t with
    | some .panic => some (s.setTask t none)
    | _ => none
  | .change i v =>
    (D.change (s.object i) v).map fun x => { s with object := Function.update s.object i x }

end Machine

def machine [DecidableEq I] [DecidableEq T] [DecidableEq Op] (D : Objects K Op R V)
    (program : Program Q I Op R) : Lts (Machine K I T Q) (Machine.Label Op R V I T Q) :=
  ⟨Machine.step D program⟩

/-! ## What one step does -/

namespace Machine

variable [DecidableEq I] [DecidableEq T] {D : Objects K Op R V} {program : Program Q I Op R}
  {s s' : Machine K I T Q} {l : Label Op R V I T Q}

/-- Every step with its guards. -/
inductive Effect (D : Objects K Op R V) (program : Program Q I Op R) (s : Machine K I T Q) :
    Label Op R V I T Q → Machine K I T Q → Prop
  | boot {t q} : s.task t = none → Effect D program s (.boot t q) (s.setTask t (some q))
  | done {t q i op k r x} : s.task t = some q → program q = .call i op k →
      D.done (s.object i) op r = some x → Effect D program s (.done t i op r)
        ({ s with object := Function.update s.object i x }.setTask t (some (k (some r))))
  | failed {t q i op k} : s.task t = some q → program q = .call i op k →
      Effect D program s (.failed t) (s.setTask t (some (k none)))
  | killed {t q i op k} : s.task t = some q → program q = .call i op k →
      Effect D program s (.killed t) (s.setTask t none)
  | spawn {t u q child rest} : s.task t = some q → program q = .spawn child rest →
      s.task u = none →
      Effect D program s (.spawn t u) ((s.setTask u (some child)).setTask t (some rest))
  | sched {t q rest} : s.task t = some q → program q = .sched rest →
      Effect D program s (.sched t) (s.setTask t (some rest))
  | returned {t q} : s.task t = some q → program q = .ret →
      Effect D program s (.returned t) (s.setTask t none)
  | panicked {t q} : s.task t = some q → program q = .panic →
      Effect D program s (.panicked t) (s.setTask t none)
  | change {i v x} : D.change (s.object i) v = some x →
      Effect D program s (.change i v) { s with object := Function.update s.object i x }

variable [DecidableEq Op]

theorem effect_iff_step : s.step D program l = some s' ↔ Effect D program s l s' := by
  constructor
  · intro taken
    unfold step at taken
    split at taken
    · rename_i t q
      simp only [Option.ite_none_right_eq_some, Option.isNone_iff_eq_none, Option.some.injEq] at taken
      obtain ⟨absent, rfl⟩ := taken
      exact .boot absent
    · rename_i t i op r
      split at taken
      · rename_i j op' k next
        obtain ⟨q, at_t, next⟩ := Option.map_eq_some_iff.mp next
        simp only [Option.ite_none_right_eq_some] at taken
        obtain ⟨⟨rfl, rfl⟩, mapped⟩ := taken
        obtain ⟨x, done, rfl⟩ := Option.map_eq_some_iff.mp mapped
        exact .done at_t next done
      · cases taken
    · rename_i t
      split at taken
      · rename_i next
        obtain ⟨q, at_t, next⟩ := Option.map_eq_some_iff.mp next
        cases taken
        exact .failed at_t next
      · cases taken
    · rename_i t
      split at taken
      · rename_i next
        obtain ⟨q, at_t, next⟩ := Option.map_eq_some_iff.mp next
        cases taken
        exact .killed at_t next
      · cases taken
    · rename_i t u
      split at taken
      · rename_i next
        obtain ⟨q, at_t, next⟩ := Option.map_eq_some_iff.mp next
        simp only [Option.ite_none_right_eq_some, Option.isNone_iff_eq_none, Option.some.injEq] at taken
        obtain ⟨absent, rfl⟩ := taken
        exact .spawn at_t next absent
      · cases taken
    · rename_i t
      split at taken
      · rename_i next
        obtain ⟨q, at_t, next⟩ := Option.map_eq_some_iff.mp next
        cases taken
        exact .sched at_t next
      · cases taken
    · rename_i t
      split at taken
      · rename_i next
        obtain ⟨q, at_t, next⟩ := Option.map_eq_some_iff.mp next
        cases taken
        exact .returned at_t next
      · cases taken
    · rename_i t
      split at taken
      · rename_i next
        obtain ⟨q, at_t, next⟩ := Option.map_eq_some_iff.mp next
        cases taken
        exact .panicked at_t next
      · cases taken
    · obtain ⟨x, changes, rfl⟩ := Option.map_eq_some_iff.mp taken
      exact .change changes
  · intro effect
    cases effect with
    | boot absent => simp [step, absent]
    | done at_t next done => simp [step, Machine.next, at_t, next, done]
    | failed at_t next => simp [step, Machine.next, at_t, next]
    | killed at_t next => simp [step, Machine.next, at_t, next]
    | spawn at_t next absent => simp [step, Machine.next, at_t, next, absent]
    | sched at_t next => simp [step, Machine.next, at_t, next]
    | returned at_t next => simp [step, Machine.next, at_t, next]
    | panicked at_t next => simp [step, Machine.next, at_t, next]
    | change changes => simp [step, changes]

omit [DecidableEq I] [DecidableEq Op] in
@[simp] theorem setTask_object (s : Machine K I T Q) (t : T) (q : Option Q) :
    (s.setTask t q).object = s.object := rfl

omit [DecidableEq I] [DecidableEq Op] in
@[simp] theorem setTask_task (s : Machine K I T Q) (t : T) (q : Option Q) :
    (s.setTask t q).task = Function.update s.task t q := rfl

/-! ## Queues inside the objects -/

section Channels

variable {α β : Type u} (channel : Objects.Channel D α β)

/-- What the step puts into the queue of object `i`. -/
def put (i : I) : Label Op R V I T Q → List α
  | .done _ j op r => if j = i then channel.gives op r else []
  | .change j v => if j = i then channel.arrives v else []
  | _ => []

/-- What it takes out. -/
def take (i : I) : Label Op R V I T Q → List β
  | .done _ j op r => if j = i then channel.takes op r else []
  | _ => []

/-- It closes the object. -/
def ends (i : I) : Label Op R V I T Q → Bool
  | .done _ j op r => j = i && channel.closes op r
  | .change j v => j = i && channel.drops v
  | _ => false

omit [DecidableEq Op] in
theorem Effect.emptied (effect : Effect D program s l s') {i : I} (ended : ends channel i l = true) :
    channel.content (s'.object i) = [] := by
  cases effect with
  | @done t q j op k r x at_t next done =>
      simp only [ends, Bool.and_eq_true, decide_eq_true_eq] at ended
      obtain ⟨rfl, closes⟩ := ended
      simpa using channel.done_closes done closes
  | @change j v x changes =>
      simp only [ends, Bool.and_eq_true, decide_eq_true_eq] at ended
      obtain ⟨rfl, drops⟩ := ended
      simpa using channel.change_drops changes drops
  | _ => cases ended

omit [DecidableEq Op] in
theorem Effect.balance (effect : Effect D program s l s') {i : I} (goes : ends channel i l = false) :
    ∃ as, channel.content (s.object i) ++ put channel i l = as ++ channel.content (s'.object i) ∧
      List.Forall₂ channel.cut as (take channel i l) := by
  cases effect with
  | @done t q j op k r x at_t next done =>
      by_cases same : j = i
      · subst same
        simpa [put, take] using channel.done done (by simpa [ends] using goes)
      · exact ⟨[], by simp [put, same, Function.update_of_ne (Ne.symm same)], by simp [take, same]⟩
  | @change j v x changes =>
      refine ⟨[], ?_, .nil⟩
      by_cases same : j = i
      · subst same
        simpa [put] using channel.change changes (by simpa [ends] using goes)
      · simp [put, same, Function.update_of_ne (Ne.symm same)]
  | _ => exact ⟨[], by simp [put], .nil⟩

/-- The queues are first in, first out, whatever the programs do. -/
theorem account {tr : List (Label Op R V I T Q)} (empty : ∀ i, channel.content (s.object i) = [])
    (ran : (machine D program).exec s tr = some s') (i : I) :
    Drawn channel.cut (put channel i) (take channel i) (ends channel i) tr
      (channel.content (s'.object i)) := by
  refine Lts.exec_induction (I := fun s' tr => Drawn channel.cut (put channel i) (take channel i)
    (ends channel i) tr (channel.content (s'.object i))) ran (by rw [empty i]; exact .start) ?_
  intro m tr l t _ drawn taken
  have effect : Effect D program m l t := effect_iff_step.1 taken
  exact drawn.step (effect.emptied channel) (effect.balance channel)

end Channels

end Machine

end SimpleSched.Theory
