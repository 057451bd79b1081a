/-
# Theory.Tasks -- what a scheduler of cooperative tasks is for

Tasks `C`, processors `P`, keys `K` that a task can wait under.  A task is at one
`Status`; a processor runs at most one task, and at most one task waits on a processor
under a key.  Both are fields of `Tasks`, so every state has them.  A running task goes
on until it gives way, waits, parks or finishes itself; a task that waits is made
runnable by its own key on its own processor; nothing makes a parked one runnable.

`life` is the same seen from one task (`Tasks.seen`): what happens to it in a run is a
word of that automaton, whatever happens to the others.
-/
import SimpleSched.Theory.Placement
import SimpleSched.Theory.Refinement

namespace SimpleSched.Theory

set_option autoImplicit false

variable {C P K : Type}

inductive Status (P K : Type)
  | unborn
  | runnable
  | running (p : P)
  | waiting (p : P) (k : K)
  | parked
  | ended
  deriving DecidableEq, Repr

/-- Where a task is that has stopped running and waits for nothing. -/
def Status.Apart (st : Status P K) : Prop := (∀ p, st ≠ .running p) ∧ ∀ p k, st ≠ .waiting p k

structure Tasks (C P K : Type) where
  status : C → Status P K
  current : P → Option C
  waiter : P → K → Option C
  runs : ∀ p, Holds status (.running p) (current p)
  waits : ∀ p k, Holds status (.waiting p k) (waiter p k)

namespace Tasks

def new : Tasks C P K where
  status _ := .unborn
  current _ := none
  waiter _ _ := none
  runs _ := .of_empty (by simp)
  waits _ _ := .of_empty (by simp)

variable [DecidableEq C] [DecidableEq P] [DecidableEq K]

/-- A task that neither runs nor waits starts to run. -/
def run (t : Tasks C P K) (p : P) (c : C) (idle : t.current p = none) (ready : t.status c = .runnable) :
    Tasks C P K where
  status := Function.update t.status c (.running p)
  current := Function.update t.current p (some c)
  waiter := t.waiter
  runs q := by
    by_cases same : q = p
    · subst same
      rw [Function.update_self]
      exact (idle ▸ t.runs q).put
    · rw [Function.update_of_ne same]
      exact (t.runs q).frame (by simp [ready]) (by simpa using Ne.symm same)
  waits q k := (t.waits q k).frame (by simp [ready]) (by simp)

/-- The task that runs on `p` stops, and waits for nothing. -/
def stop (t : Tasks C P K) (p : P) (c : C) (st : Status P K) (mine : t.current p = some c)
    (apart : st.Apart) : Tasks C P K where
  status := Function.update t.status c st
  current := Function.update t.current p none
  waiter := t.waiter
  runs q := by
    by_cases same : q = p
    · subst same
      rw [Function.update_self]
      exact (mine ▸ t.runs q).take (apart.1 q)
    · rw [Function.update_of_ne same]
      have here : t.status c = .running p := (t.runs p c).1 mine
      exact (t.runs q).frame (by simpa [here] using Ne.symm same) (apart.1 q)
  waits q k := by
    have here : t.status c = .running p := (t.runs p c).1 mine
    exact (t.waits q k).frame (by simp [here]) (apart.2 q k)

/-- The task that runs on `p` waits there under `k`. -/
def wait (t : Tasks C P K) (p : P) (c : C) (k : K) (mine : t.current p = some c)
    (free : t.waiter p k = none) : Tasks C P K where
  status := Function.update t.status c (.waiting p k)
  current := Function.update t.current p none
  waiter := Function.update t.waiter p (Function.update (t.waiter p) k (some c))
  runs q := by
    by_cases same : q = p
    · subst same
      rw [Function.update_self]
      exact (mine ▸ t.runs q).take (by simp)
    · rw [Function.update_of_ne same]
      have here : t.status c = .running p := (t.runs p c).1 mine
      exact (t.runs q).frame (by simpa [here] using Ne.symm same) (by simp)
  waits q k' := by
    have here : t.status c = .running p := (t.runs p c).1 mine
    by_cases same : q = p
    · subst same
      rw [Function.update_self]
      by_cases key : k' = k
      · subst key
        rw [Function.update_self]
        exact (free ▸ t.waits q k').put
      · rw [Function.update_of_ne key]
        exact (t.waits q k').frame (by simp [here]) (by simpa using Ne.symm key)
    · rw [Function.update_of_ne same]
      exact (t.waits q k').frame (by simp [here]) (by simpa using fun e => absurd e.symm same)

/-- The task that waits on `p` under `k` is runnable. -/
def wake (t : Tasks C P K) (p : P) (k : K) (c : C) (waits : t.waiter p k = some c) : Tasks C P K where
  status := Function.update t.status c .runnable
  current := t.current
  waiter := Function.update t.waiter p (Function.update (t.waiter p) k none)
  runs q := by
    have here : t.status c = .waiting p k := (t.waits p k c).1 waits
    exact (t.runs q).frame (by simp [here]) (by simp)
  waits q k' := by
    have here : t.status c = .waiting p k := (t.waits p k c).1 waits
    by_cases same : q = p
    · subst same
      rw [Function.update_self]
      by_cases key : k' = k
      · subst key
        rw [Function.update_self]
        exact (waits ▸ t.waits q k').take (by simp)
      · rw [Function.update_of_ne key]
        exact (t.waits q k').frame (by simpa [here] using Ne.symm key) (by simp)
    · rw [Function.update_of_ne same]
      exact (t.waits q k').frame (by simpa [here] using fun e => absurd e.symm same) (by simp)

/-- A new task is runnable. -/
def born (t : Tasks C P K) (c : C) (fresh : t.status c = .unborn) : Tasks C P K where
  status := Function.update t.status c .runnable
  current := t.current
  waiter := t.waiter
  runs q := (t.runs q).frame (by simp [fresh]) (by simp)
  waits q k := (t.waits q k).frame (by simp [fresh]) (by simp)

end Tasks

/-! ## Labels -/

inductive Label (C P K : Type)
  /-- a task is born on `p`: its parent, if a task runs there, gives way to it -/
  | spawn (p : P) (parent : Option C) (child : C)
  | run (p : P) (c : C)
  | yield (p : P) (c : C)
  | wait (p : P) (c : C) (k : K)
  | park (p : P) (c : C)
  | wake (p : P) (k : K) (c : C)
  | finish (p : P) (c : C)
  deriving DecidableEq, Repr

/-- What a label does to one task. -/
inductive Own (P K : Type)
  | born
  | run (p : P)
  | yield (p : P)
  | wait (p : P) (k : K)
  | park (p : P)
  | wake (p : P) (k : K)
  | finish (p : P)
  deriving DecidableEq, Repr

variable [DecidableEq C] [DecidableEq P] [DecidableEq K]

def Label.own (c : C) : Label C P K → Option (Own P K)
  | .spawn p parent child =>
    if child = c then some .born else if parent = some c then some (.yield p) else none
  | .run p d => if d = c then some (.run p) else none
  | .yield p d => if d = c then some (.yield p) else none
  | .wait p d k => if d = c then some (.wait p k) else none
  | .park p d => if d = c then some (.park p) else none
  | .wake p k d => if d = c then some (.wake p k) else none
  | .finish p d => if d = c then some (.finish p) else none

namespace Tasks

omit [DecidableEq C] [DecidableEq P] [DecidableEq K] in
theorem apart_runnable : (Status.runnable : Status P K).Apart := ⟨by simp, by simp⟩
omit [DecidableEq C] [DecidableEq P] [DecidableEq K] in
theorem apart_parked : (Status.parked : Status P K).Apart := ⟨by simp, by simp⟩
omit [DecidableEq C] [DecidableEq P] [DecidableEq K] in
theorem apart_ended : (Status.ended : Status P K).Apart := ⟨by simp, by simp⟩

def step (t : Tasks C P K) : Label C P K → Option (Tasks C P K)
  | .spawn p parent child =>
    if fresh : t.status child = .unborn then
      if here : (t.born child fresh).current p = parent then
        match parent with
        | none => some (t.born child fresh)
        | some c => some ((t.born child fresh).stop p c .runnable here apart_runnable)
      else none
    else none
  | .run p c =>
    if may : t.current p = none ∧ t.status c = .runnable then some (t.run p c may.1 may.2) else none
  | .yield p c =>
    if mine : t.current p = some c then some (t.stop p c .runnable mine apart_runnable) else none
  | .wait p c k =>
    if may : t.current p = some c ∧ t.waiter p k = none then some (t.wait p c k may.1 may.2) else none
  | .park p c => if mine : t.current p = some c then some (t.stop p c .parked mine apart_parked) else none
  | .wake p k c => if waits : t.waiter p k = some c then some (t.wake p k c waits) else none
  | .finish p c => if mine : t.current p = some c then some (t.stop p c .ended mine apart_ended) else none

def system (C P K : Type) [DecidableEq C] [DecidableEq P] [DecidableEq K] :
    Lts (Tasks C P K) (Label C P K) := ⟨step⟩

/-! ## What each label does to the statuses -/

variable {t : Tasks C P K} {p : P} {c d : C} {k : K}

theorem step_born (idle : t.current p = none) (fresh : t.status d = .unborn) :
    ∃ t', t.step (.spawn p none d) = some t' ∧ t'.status = Function.update t.status d .runnable := by
  refine ⟨t.born d fresh, ?_, rfl⟩
  simp [step, fresh, born, idle]

theorem step_spawn (mine : t.status c = .running p) (fresh : t.status d = .unborn) :
    ∃ t', t.step (.spawn p (some c) d) = some t' ∧
      t'.status = Function.update (Function.update t.status d .runnable) c .runnable := by
  have here : (t.born d fresh).current p = some c := (t.runs p c).2 mine
  exact ⟨(t.born d fresh).stop p c .runnable here apart_runnable, by simp [step, fresh, here], rfl⟩

theorem step_run (idle : t.current p = none) (ready : t.status c = .runnable) :
    ∃ t', t.step (.run p c) = some t' ∧ t'.status = Function.update t.status c (.running p) :=
  ⟨t.run p c idle ready, by simp [step, idle, ready], rfl⟩

theorem step_yield (mine : t.status c = .running p) :
    ∃ t', t.step (.yield p c) = some t' ∧ t'.status = Function.update t.status c .runnable := by
  have here := (t.runs p c).2 mine
  exact ⟨t.stop p c .runnable here apart_runnable, by simp [step, here], rfl⟩

theorem step_wait (mine : t.status c = .running p) (free : t.waiter p k = none) :
    ∃ t', t.step (.wait p c k) = some t' ∧ t'.status = Function.update t.status c (.waiting p k) := by
  have here := (t.runs p c).2 mine
  exact ⟨t.wait p c k here free, by simp [step, here, free], rfl⟩

theorem step_park (mine : t.status c = .running p) :
    ∃ t', t.step (.park p c) = some t' ∧ t'.status = Function.update t.status c .parked := by
  have here := (t.runs p c).2 mine
  exact ⟨t.stop p c .parked here apart_parked, by simp [step, here], rfl⟩

theorem step_wake (waits : t.status c = .waiting p k) :
    ∃ t', t.step (.wake p k c) = some t' ∧ t'.status = Function.update t.status c .runnable := by
  have here := (t.waits p k c).2 waits
  exact ⟨t.wake p k c here, by simp [step, here], rfl⟩

theorem step_finish (mine : t.status c = .running p) :
    ∃ t', t.step (.finish p c) = some t' ∧ t'.status = Function.update t.status c .ended := by
  have here := (t.runs p c).2 mine
  exact ⟨t.stop p c .ended here apart_ended, by simp [step, here], rfl⟩

end Tasks

/-! ## One task -/

def Status.next : Status P K → Own P K → Option (Status P K)
  | .unborn, .born => some .runnable
  | .runnable, .run p => some (.running p)
  | .running p, .yield q => if p = q then some .runnable else none
  | .running p, .wait q k => if p = q then some (.waiting p k) else none
  | .running p, .park q => if p = q then some .parked else none
  | .running p, .finish q => if p = q then some .ended else none
  | .waiting p k, .wake q k' => if p = q ∧ k = k' then some .runnable else none
  | _, _ => none

def life (P K : Type) [DecidableEq P] [DecidableEq K] : Lts (Status P K) (Own P K) := ⟨Status.next⟩

namespace Tasks

variable {t t' : Tasks C P K} {p : P} {c d : C} {k : K}

/-- A label does to each task what it says. -/
theorem step_status {l : Label C P K} (taken : t.step l = some t') (c : C) :
    (life P K).exec (t.status c) (l.own c).toList = some (t'.status c) := by
  -- the one task a label moves goes on by its own part of it, every other stays
  have moves {d : C} {st : Status P K} {o : Own P K} (next : (t.status d).next o = some st)
      (status : t'.status = Function.update t.status d st) :
      (life P K).exec (t.status c) (if d = c then some o else none).toList = some (t'.status c) := by
    rw [status]
    by_cases same : d = c
    · subst same
      simp [Lts.exec, life, next]
    · simp [Lts.exec, same, Function.update_of_ne (Ne.symm same)]
  cases l with
  | spawn p parent child =>
      simp only [step] at taken
      split at taken <;> try contradiction
      rename_i fresh
      split at taken <;> try contradiction
      rename_i here
      cases parent with
      | none =>
          cases taken
          simpa [Label.own] using moves (d := child) (o := .born) (by simp [fresh, Status.next]) rfl
      | some h =>
          cases taken
          have running : t.status h = .running p := (t.runs p h).1 here
          have other : h ≠ child := by
            rintro rfl
            simp [fresh] at running
          by_cases born : child = c
          · subst born
            simp [Label.own, Lts.exec, life, fresh, Status.next, stop, Tasks.born, Ne.symm other]
          · by_cases parent : h = c
            · subst parent
              simp [Label.own, Lts.exec, life, running, Status.next, stop, born]
            · simp [Label.own, Lts.exec, born, parent, stop, Tasks.born, Ne.symm born, Ne.symm parent]
  | run p d =>
      simp only [step] at taken
      split at taken <;> try contradiction
      rename_i may
      cases taken
      exact moves (by simp [may.2, Status.next]) rfl
  | yield p d | park p d | finish p d =>
      simp only [step] at taken
      split at taken <;> try contradiction
      rename_i mine
      cases taken
      have running : t.status d = .running p := (t.runs p d).1 mine
      exact moves (by simp [running, Status.next]) rfl
  | wait p d k =>
      simp only [step] at taken
      split at taken <;> try contradiction
      rename_i may
      cases taken
      have running : t.status d = .running p := (t.runs p d).1 may.1
      exact moves (by simp [running, Status.next]) rfl
  | wake p k d =>
      simp only [step] at taken
      split at taken <;> try contradiction
      rename_i waits
      cases taken
      have waiting : t.status d = .waiting p k := (t.waits p k d).1 waits
      exact moves (by simp [waiting, Status.next]) rfl

/-- What happens to one task. -/
def seen (c : C) : Simulation (system C P K) (life P K) Lts.anyStep fun _ l => l.own c where
  Rel t st := t.status c = st
  step := by
    rintro t t' l _ rfl - taken
    exact ⟨_, step_status taken c, rfl⟩

end Tasks

def Own.isRun : Own P K → Bool
  | .run _ => true
  | _ => false

/-- The ways in which a running task stops. -/
def Own.isStop : Own P K → Bool
  | .yield _ | .wait _ _ | .park _ | .finish _ => true
  | _ => false

def Own.isWait : Own P K → Bool
  | .wait _ _ => true
  | _ => false

def Own.isWake : Own P K → Bool
  | .wake _ _ => true
  | _ => false

namespace Status

def isRunning : Status P K → Bool
  | .running _ => true
  | _ => false

def isWaiting : Status P K → Bool
  | .waiting _ _ => true
  | _ => false

variable {st st' : Status P K} {own : Own P K} {tr : List (Own P K)}

theorem next_counts (taken : st.next own = some st') :
    st.isRunning.toNat + own.isRun.toNat = own.isStop.toNat + st'.isRunning.toNat ∧
      st.isWaiting.toNat + own.isWait.toNat = own.isWake.toNat + st'.isWaiting.toNat := by
  cases st <;> cases own <;> simp only [next, reduceCtorEq, Option.some.injEq,
    Option.ite_none_right_eq_some] at taken
  all_goals
    first
    | subst taken
    | obtain ⟨-, rfl⟩ := taken
    exact ⟨rfl, rfl⟩

/-- Every run is ended by one stop, and every wait by one wake. -/
theorem exec_counts (ran : (life P K).exec st tr = some st') :
    st.isRunning.toNat + tr.countP Own.isRun = tr.countP Own.isStop + st'.isRunning.toNat ∧
      st.isWaiting.toNat + tr.countP Own.isWait = tr.countP Own.isWake + st'.isWaiting.toNat := by
  induction tr generalizing st with
  | nil =>
      cases ran
      simp
  | cons own tr ih =>
      obtain ⟨m, taken, rest⟩ := Lts.exec_cons ran
      have here := next_counts taken
      have later := ih rest
      have count (f : Own P K → Bool) : (own :: tr).countP f = tr.countP f + (f own).toNat := by
        cases at_own : f own <;> simp [at_own]
      simp only [count]
      omega

/-- A task that has ended, or has parked, has nothing before it. -/
theorem nothing_after {own : Own P K} {before after : List (Own P K)}
    (last : (∃ p, own = .finish p) ∨ ∃ p, own = .park p)
    (ran : (life P K).exec st (before ++ own :: after) = some st') : after = [] := by
  rw [Lts.exec_append] at ran
  obtain ⟨m, -, rest⟩ := Option.bind_eq_some_iff.mp ran
  obtain ⟨m', taken, later⟩ := Lts.exec_cons rest
  have gone : m' = .ended ∨ m' = .parked := by
    rcases last with ⟨p, rfl⟩ | ⟨p, rfl⟩ <;> cases m <;>
      simp only [life, next, reduceCtorEq, Option.ite_none_right_eq_some, Option.some.injEq] at taken
    · exact .inl taken.2.symm
    · exact .inr taken.2.symm
  cases after with
  | nil => rfl
  | cons own after =>
      obtain ⟨m'', taken, -⟩ := Lts.exec_cons later
      rcases gone with rfl | rfl <;> cases taken

end Status

end SimpleSched.Theory
