/-
# Theory.Sessions -- a program that starts sessions, each on an object of its own

A front works on objects of its own and starts sessions.  A session is a program that
knows one object, and `serving` runs it on the object it was started for; what it spawns
works on that object too.

`isolates`: what the tasks of one object do, among all the others and in whatever order,
is a run of the session program on that object alone.  `Machine.on` is what there is of
it in a state, `Label.on` what is seen of it in a step.
-/
import SimpleSched.Theory.Programs

namespace SimpleSched.Theory

set_option autoImplicit false

universe u

variable {K Op R V I T X F : Type u}

/-- What a front does next: an operation on an object of its own, or a session it starts. -/
inductive Front (F X I Op R : Type u)
  | call (i : I) (op : Op) (k : Option R → F)
  | session (i : I) (x : X) (rest : F)
  | sched (rest : F)
  | ret
  | panic

inductive Serving (F X I : Type u)
  | front (f : F)
  | session (i : I) (x : X)
  deriving DecidableEq

def Front.next : Front F X I Op R → Next (Serving F X I) I Op R
  | .call i op k => .call i op fun r => .front (k r)
  | .session i x rest => .spawn (.session i x) (.front rest)
  | .sched rest => .sched (.front rest)
  | .ret => .ret
  | .panic => .panic

/-- The session on object `i`. -/
def Next.within (i : I) : Next X PUnit Op R → Next (Serving F X I) I Op R
  | .call _ op k => .call i op fun r => .session i (k r)
  | .spawn child rest => .spawn (.session i child) (.session i rest)
  | .sched rest => .sched (.session i rest)
  | .ret => .ret
  | .panic => .panic

def serving (front : F → Front F X I Op R) (session : Program X PUnit Op R) :
    Program (Serving F X I) I Op R
  | .front f => (front f).next
  | .session i x => (session x).within i

section Inversion

variable {i j : I} {op : Op} {k : Option R → Serving F X I} {child rest : Serving F X I}

theorem Front.next_call {n : Front F X I Op R} (next : n.next = .call i op k) :
    ∃ k', n = .call i op k' ∧ k = fun r => .front (k' r) := by
  cases n <;> cases next
  exact ⟨_, rfl, rfl⟩

theorem Front.next_spawn {n : Front F X I Op R} (next : n.next = .spawn child rest) :
    ∃ i x rest', n = .session i x rest' ∧ child = .session i x ∧ rest = .front rest' := by
  cases n <;> cases next
  exact ⟨_, _, _, rfl, rfl, rfl⟩

theorem Front.next_sched {n : Front F X I Op R} (next : n.next = .sched rest) :
    ∃ rest', n = .sched rest' ∧ rest = .front rest' := by
  cases n <;> cases next
  exact ⟨_, rfl, rfl⟩

theorem Next.within_call {n : Next X PUnit Op R} (next : n.within i = .call j op k) :
    ∃ k', n = .call ⟨⟩ op k' ∧ i = j ∧ k = fun r => .session i (k' r) := by
  cases n <;> cases next
  exact ⟨_, rfl, rfl, rfl⟩

theorem Next.within_spawn {n : Next X PUnit Op R} (next : n.within i = .spawn child rest) :
    ∃ x y, n = .spawn x y ∧ child = .session i x ∧ rest = .session i y := by
  cases n <;> cases next
  exact ⟨_, _, rfl, rfl, rfl⟩

theorem Next.within_sched {n : Next X PUnit Op R} (next : n.within i = .sched rest) :
    ∃ y, n = .sched y ∧ rest = .session i y := by
  cases n <;> cases next
  exact ⟨_, rfl, rfl⟩

theorem Next.within_ret {n : Next X PUnit Op R}
    (next : n.within i = (.ret : Next (Serving F X I) I Op R)) : n = .ret := by
  cases n <;> cases next
  rfl

theorem Next.within_panic {n : Next X PUnit Op R}
    (next : n.within i = (.panic : Next (Serving F X I) I Op R)) : n = .panic := by
  cases n <;> cases next
  rfl

end Inversion

/-! ## What is seen of one object -/

section On

variable [DecidableEq I] (c : I)

/-- The session on `c`, if it is one. -/
def Serving.on : Serving F X I → Option X
  | .session i x => if i = c then some x else none
  | .front _ => none

namespace Machine

/-- What a label starts from outside. -/
def Label.booted {Q : Type u} : Label Op R V I T Q → Option Q
  | .boot _ q => some q
  | .done _ _ _ _ | .failed _ | .killed _ | .spawn _ _ | .sched _ | .returned _ | .panicked _
  | .change _ _ => none

def Label.isBoot {Q : Type u} (l : Label Op R V I T Q) : Bool := l.booted.isSome

/-- The object `c` and the tasks that have a session on it. -/
def on (s : Machine K I T (Serving F X I)) : Machine K PUnit T X :=
  ⟨fun _ => s.object c, fun t => (s.task t).bind (Serving.on c)⟩

def Label.on (front : F → Front F X I Op R) (s : Machine K I T (Serving F X I)) :
    Label Op R V I T (Serving F X I) → Option (Label Op R V PUnit T X)
  | .boot t q => (q.on c).map (.boot t)
  | .done t i op r => if i = c then some (.done t ⟨⟩ op r) else none
  | .failed t => ((s.on c).task t).map fun _ => .failed t
  | .killed t => ((s.on c).task t).map fun _ => .killed t
  | .spawn t u =>
    match s.task t with
    | some (.session i _) => if i = c then some (.spawn t u) else none
    | some (.front f) =>
      match front f with
      | .session i x _ => if i = c then some (.boot u x) else none
      | _ => none
    | none => none
  | .sched t => ((s.on c).task t).map fun _ => .sched t
  | .returned t => ((s.on c).task t).map fun _ => .returned t
  | .panicked t => ((s.on c).task t).map fun _ => .panicked t
  | .change i v => if i = c then some (.change ⟨⟩ v) else none

variable {front : F → Front F X I Op R} {s s' : Machine K I T (Serving F X I)}
  {l : Label Op R V I T (Serving F X I)}

/-- What is started on `c` is started from outside or by a front. -/
theorem Label.on_no_boot (no_boot : l.isBoot = false)
    (no_front : ∀ t u f, l = .spawn t u → s.task t ≠ some (.front f)) :
    ((l.on c front s).all fun m => !m.isBoot) = true := by
  cases l with
  | boot => simp [isBoot, booted] at no_boot
  | done t i op r => by_cases mine : i = c <;> simp [Label.on, mine, isBoot, booted]
  | change i v => by_cases mine : i = c <;> simp [Label.on, mine, isBoot, booted]
  | spawn t u =>
      cases at_t : s.task t with
      | none => simp [Label.on, at_t]
      | some q =>
          cases q with
          | front f => exact absurd at_t (no_front t u f rfl)
          | session i x => by_cases mine : i = c <;> simp [Label.on, at_t, mine, isBoot, booted]
  | _ => simp [Label.on, isBoot, booted, Option.all_map]

variable [DecidableEq T]

omit [DecidableEq I] in
theorem setTask_same {Q : Type u} {s : Machine K I T Q} {t : T} {q : Option Q}
    (same : s.task t = q) : s.setTask t q = s := by
  subst same
  exact Machine.ext rfl (Function.update_eq_self t s.task)

theorem on_setTask (t : T) (q : Option (Serving F X I)) :
    (s.setTask t q).on c = (s.on c).setTask t (q.bind (Serving.on c)) := by
  refine Machine.ext rfl (funext fun u => ?_)
  by_cases same : u = t
  · subst same
    simp [on]
  · simp [on, Function.update_of_ne same]

omit [DecidableEq T] in
/-- A change of another object is not seen. -/
theorem on_other {i : I} {k : K} (other : i ≠ c) :
    ({ s with object := Function.update s.object i k } : Machine K I T (Serving F X I)).on c =
      s.on c :=
  Machine.ext (funext fun _ => Function.update_of_ne (Ne.symm other) ..) rfl

omit [DecidableEq T] in
theorem on_object {k : K} :
    ({ s with object := Function.update s.object c k } : Machine K I T (Serving F X I)).on c =
      { s.on c with object := Function.update (s.on c).object ⟨⟩ k } := by
  refine Machine.ext (funext fun u => ?_) rfl
  cases u
  simp [on]

end Machine

end On

/-! ## Isolation -/

namespace Machine

variable [DecidableEq I] [DecidableEq T] [DecidableEq Op] {D : Objects K Op R V}
  {front : F → Front F X I Op R} {session : Program X PUnit Op R} {c : I}
  {s s' : Machine K I T (Serving F X I)} {l : Label Op R V I T (Serving F X I)}
  {t : T} {q : Serving F X I}

theorem exec_seen {m : Label Op R V PUnit T X} (sees : l.on c front s = some m)
    (effect : Effect D session (s.on c) m (s'.on c)) :
    (machine D session).exec (s.on c) (l.on c front s).toList = some (s'.on c) := by
  rw [sees, Option.toList_some, Lts.exec_singleton]
  exact effect_iff_step.2 effect

theorem exec_unseen (unseen : l.on c front s = none) (same : s'.on c = s.on c) :
    (machine D session).exec (s.on c) (l.on c front s).toList = some (s'.on c) := by
  rw [unseen, same]
  rfl

omit [DecidableEq Op] in
/-- A task goes on outside the sessions on `c`. -/
theorem on_outside {q' : Option (Serving F X I)} (before : (s.task t).bind (Serving.on c) = none)
    (after : q'.bind (Serving.on c) = none) : (s.setTask t q').on c = s.on c := by
  rw [on_setTask, after]
  exact setTask_same before

/-- A step that only moves a task on: not seen outside the sessions on `c`, and in one
of them a step of the session. -/
theorem exec_task {q' : Option (Serving F X I)} {m : Label Op R V PUnit T X}
    (at_t : s.task t = some q)
    (sees : l.on c front s = ((s.on c).task t).map fun _ => m)
    (outside : q.on c = none → q'.bind (Serving.on c) = none)
    (inside : ∀ x, q = .session c x → (s.on c).task t = some x →
      Effect D session (s.on c) m ((s.on c).setTask t (q'.bind (Serving.on c)))) :
    (machine D session).exec (s.on c) (l.on c front s).toList = some ((s.setTask t q').on c) := by
  have here : (s.on c).task t = q.on c := by simp [on, at_t]
  cases mine : q.on c with
  | none =>
      refine exec_unseen ?_ (on_outside (by simpa [at_t] using mine) (outside mine))
      rw [sees, here, mine]
      rfl
  | some x =>
      have at_x : q = .session c x := by
        cases q with
        | front f => cases mine
        | session i y =>
            simp only [Serving.on, Option.ite_none_right_eq_some, Option.some.injEq] at mine
            rw [mine.1, mine.2]
      refine exec_seen (m := m) ?_ ?_
      · rw [sees, here, mine]
        rfl
      · rw [on_setTask]
        exact inside x at_x (here.trans mine)

omit [DecidableEq T] [DecidableEq Op] in
/-- Outside the sessions on `c` a task stays outside when an operation of it ends. -/
theorem outside_call {i : I} {op : Op} {k : Option R → Serving F X I}
    (next : serving front session q = .call i op k) (outside : q.on c = none) (r : Option R) :
    (k r).on c = none := by
  cases q with
  | front f =>
      obtain ⟨k', -, rfl⟩ := Front.next_call next
      rfl
  | session j x =>
      obtain ⟨k', -, -, rfl⟩ := Next.within_call next
      simpa [Serving.on] using outside

omit [DecidableEq T] [DecidableEq Op] in
theorem outside_sched {rest : Serving F X I} (next : serving front session q = .sched rest)
    (outside : q.on c = none) : rest.on c = none := by
  cases q with
  | front f =>
      obtain ⟨rest', -, rfl⟩ := Front.next_sched next
      rfl
  | session j x =>
      obtain ⟨y, -, rfl⟩ := Next.within_sched next
      simpa [Serving.on] using outside

/-- A call returns: seen where it is one of a session on `c`. -/
theorem exec_done (apart : ∀ f op k, front f ≠ .call c op k) (at_t : s.task t = some q) {i : I}
    {op : Op} {k : Option R → Serving F X I} {r : R} {o : K}
    (next : serving front session q = .call i op k) (done : D.done (s.object i) op r = some o) :
    (machine D session).exec (s.on c) ((Label.done t i op r).on c front s).toList =
      some (({ s with object := Function.update s.object i o }.setTask t (some (k (some r)))).on c) := by
  have here : (s.on c).task t = q.on c := by simp [Machine.on, at_t]
  cases q with
  | front f =>
      obtain ⟨k', at_f, -⟩ := Front.next_call next
      have other : i ≠ c := by
        rintro rfl
        exact apart f op k' at_f
      refine exec_unseen (by simp [Label.on, other]) ?_
      rw [on_outside (by simp [at_t, Serving.on]) (by simp [outside_call next rfl]),
        on_other c other]
  | session j x =>
      obtain ⟨k', at_x, rfl, rfl⟩ := Next.within_call next
      by_cases mine : j = c
      · subst mine
        refine exec_seen (m := .done t ⟨⟩ op r) (by simp [Label.on]) ?_
        rw [on_setTask, on_object]
        simpa [Serving.on] using
          Effect.done (by simpa [Serving.on] using here) at_x (i := ⟨⟩) (s := s.on j) done
      · refine exec_unseen (by simp [Label.on, mine]) ?_
        rw [on_outside (by simp [at_t, Serving.on, mine]) (by simp [Serving.on, mine]),
          on_other c mine]

/-- A spawn: seen as the beginning of a session where it is the front's. -/
theorem exec_spawn {u : T} {child rest : Serving F X I} (at_t : s.task t = some q)
    (next : serving front session q = .spawn child rest) (absent : s.task u = none) :
    (machine D session).exec (s.on c) ((Label.spawn t u).on c front s).toList =
      some (((s.setTask u (some child)).setTask t (some rest)).on c) := by
  have apart_u : t ≠ u := by
    rintro rfl
    simp [at_t] at absent
  have nobody : (s.on c).task u = none := by simp [Machine.on, absent]
  cases q with
  | front f =>
      obtain ⟨i, x, rest', at_f, rfl, rfl⟩ := Front.next_spawn next
      have at_front : (s.on c).task t = none := by simp [Machine.on, at_t, Serving.on]
      by_cases mine : i = c
      · subst mine
        refine exec_seen (m := .boot u x) (by simp [Label.on, at_t, at_f]) ?_
        rw [on_setTask, on_setTask]
        -- the front has no session, before and after
        have same : ((s.on i).setTask u (some x)).setTask t none = (s.on i).setTask u (some x) :=
          setTask_same (by simpa [Function.update_of_ne apart_u] using at_front)
        simpa [Serving.on, same] using Effect.boot nobody
      · refine exec_unseen (by simp [Label.on, at_t, at_f, mine]) ?_
        rw [on_outside (by simp [Function.update_of_ne apart_u, at_t, Serving.on]) rfl,
          on_outside (by simp [absent]) (by simp [Serving.on, mine])]
  | session j x =>
      obtain ⟨x', y, at_x, rfl, rfl⟩ := Next.within_spawn next
      by_cases mine : j = c
      · subst mine
        have at_j : (s.on j).task t = some x := by simp [Machine.on, at_t, Serving.on]
        refine exec_seen (m := .spawn t u) (by simp [Label.on, at_t]) ?_
        rw [on_setTask, on_setTask]
        simpa [Serving.on] using Effect.spawn at_j at_x nobody
      · refine exec_unseen (by simp [Label.on, at_t, mine]) ?_
        rw [on_outside (by simp [Function.update_of_ne apart_u, at_t, Serving.on, mine])
            (by simp [Serving.on, mine]),
          on_outside (by simp [absent]) (by simp [Serving.on, mine])]

/-- A step of the whole is one of the sessions on `c`, or leaves them as they are. -/
theorem Effect.on (apart : ∀ f op k, front f ≠ .call c op k)
    (effect : Effect D (serving front session) s l s') :
    (machine D session).exec (s.on c) (l.on c front s).toList = some (s'.on c) := by
  cases effect with
  | @boot t q absent =>
      have nobody : (s.on c).task t = none := by simp [Machine.on, absent]
      cases mine : q.on c with
      | none =>
          refine exec_unseen (by simp [Label.on, mine]) (on_outside (by simp [absent]) ?_)
          exact mine
      | some x =>
          refine exec_seen (m := .boot t x) (by simp [Label.on, mine]) ?_
          rw [on_setTask, Option.bind_some, mine]
          exact .boot nobody
  | done at_t next done => exact exec_done apart at_t next done
  | @failed t q i op k at_t next =>
      refine exec_task at_t rfl (fun outside => by simp [outside_call next outside]) ?_
      rintro x rfl at_c
      obtain ⟨k', at_x, -, rfl⟩ := Next.within_call next
      simpa [Serving.on] using Effect.failed at_c at_x
  | @killed t q i op k at_t next =>
      refine exec_task at_t rfl (fun _ => rfl) ?_
      rintro x rfl at_c
      obtain ⟨k', at_x, -, -⟩ := Next.within_call next
      exact .killed at_c at_x
  | spawn at_t next absent => exact exec_spawn at_t next absent
  | @sched t q rest at_t next =>
      refine exec_task at_t rfl (fun outside => by simp [outside_sched next outside]) ?_
      rintro x rfl at_c
      obtain ⟨y, at_x, rfl⟩ := Next.within_sched next
      simpa [Serving.on] using Effect.sched at_c at_x
  | @returned t q at_t next =>
      refine exec_task at_t rfl (fun _ => rfl) ?_
      rintro x rfl at_c
      exact .returned at_c (Next.within_ret next)
  | @panicked t q at_t next =>
      refine exec_task at_t rfl (fun _ => rfl) ?_
      rintro x rfl at_c
      exact .panicked at_c (Next.within_panic next)
  | @change i v o changes =>
      by_cases mine : i = c
      · subst mine
        refine exec_seen (m := .change ⟨⟩ v) (by simp [Label.on]) ?_
        rw [on_object]
        exact .change changes
      · exact exec_unseen (by simp [Label.on, mine]) (on_other c mine)

/-- The tasks of one object, among all the others, run as they would alone. -/
def isolates (D : Objects K Op R V) (front : F → Front F X I Op R) (session : Program X PUnit Op R)
    (c : I) (apart : ∀ f op k, front f ≠ .call c op k) :
    Simulation (machine (T := T) D (serving front session)) (machine D session) Lts.anyStep
      fun s l => l.on c front s where
  Rel s t := t = s.on c
  step := by
    rintro s s' l t rfl - taken
    exact ⟨_, (effect_iff_step.1 taken).on apart, rfl⟩

end Machine

end SimpleSched.Theory
