/-
# Mio -- the containers and the event loop the scheduler takes from mio

`mio::util::BoundedQueue`, `mio::util::Slab` and `mio::EventLoop` are not part of
the repository; these are their documented contracts.

* A `BoundedQueue` is linearizable and first-in first-out: one `push` or one `pop`
  is one step.  `push` hands the item back when the queue is full.
* A `Slab` gives out a token that is not in use; which one is left to the caller
  of `insert`, so every reuse policy is covered.
* An `EventLoop` holds at most one registration for a descriptor.  Registrations
  are edge-triggered and one-shot: one that is `armed` becomes `pending` once its
  condition holds (at once if it already does), a pending one is taken by one poll
  and is `polled` until it is removed.
-/
import Mathlib.Data.List.AList

namespace SimpleSched.Mio

set_option autoImplicit false

abbrev Token := Nat
abbrev Fd := Nat

/-- The bits of `mio::EventSet`. -/
abbrev EventSet := Nat

def EventSet.readable : EventSet := 1
def EventSet.writable : EventSet := 2

variable {α : Type} {capacity : Nat}

/-! ## BoundedQueue -/

@[ext] structure BoundedQueue (α : Type) (capacity : Nat) where
  items : List α
  bounded : items.length ≤ capacity

namespace BoundedQueue

def empty : BoundedQueue α capacity := ⟨[], Nat.zero_le _⟩

def push (q : BoundedQueue α capacity) (a : α) : Option (BoundedQueue α capacity) :=
  if room : q.items.length < capacity then
    some ⟨q.items ++ [a], by rw [List.length_append]; exact room⟩
  else none

def pop : BoundedQueue α capacity → Option (α × BoundedQueue α capacity)
  | ⟨[], _⟩ => none
  | ⟨a :: rest, bounded⟩ => some (a, ⟨rest, Nat.le_of_succ_le bounded⟩)

@[simp] theorem empty_items : (empty : BoundedQueue α capacity).items = [] := rfl

theorem push_some {q q' : BoundedQueue α capacity} {a : α} (pushed : q.push a = some q') :
    q'.items = q.items ++ [a] := by
  unfold push at pushed
  split at pushed
  · cases pushed; rfl
  · cases pushed

theorem push_none {q : BoundedQueue α capacity} {a : α} :
    q.push a = none ↔ q.items.length = capacity := by
  unfold push
  split
  · rename_i room
    simp only [reduceCtorEq, false_iff]
    omega
  · rename_i full
    simpa using Nat.le_antisymm q.bounded (Nat.le_of_not_lt full)

theorem pop_some {q q' : BoundedQueue α capacity} {a : α} (popped : q.pop = some (a, q')) :
    q.items = a :: q'.items := by
  obtain ⟨items, bounded⟩ := q
  cases items with
  | nil => simp [pop] at popped
  | cons b rest =>
      simp only [pop, Option.some.injEq, Prod.mk.injEq] at popped
      obtain ⟨rfl, rfl⟩ := popped
      rfl

theorem pop_none {q : BoundedQueue α capacity} : q.pop = none ↔ q.items = [] := by
  obtain ⟨items, bounded⟩ := q
  cases items <;> simp [pop]

end BoundedQueue

/-! ## Slab -/

structure Slab (α : Type) (capacity : Nat) where
  entries : AList fun _ : Token => α
  bounded : entries.entries.length ≤ capacity

namespace Slab

def empty : Slab α capacity := ⟨∅, Nat.zero_le _⟩

def count (s : Slab α capacity) : Nat := s.entries.entries.length

def lookup (s : Slab α capacity) (token : Token) : Option α := s.entries.lookup token

theorem length_insert_le {xs : AList fun _ : Token => α} (token : Token) (a : α) :
    (xs.insert token a).entries.length ≤ xs.entries.length + 1 := by
  rw [AList.entries_insert, List.length_cons]
  exact Nat.succ_le_succ (List.kerase_sublist token xs.entries).length_le

/-- `none` when the slab is full or the token is in use. -/
def insert (s : Slab α capacity) (token : Token) (a : α) : Option (Slab α capacity) :=
  if room : s.count < capacity ∧ s.lookup token = none then
    some ⟨s.entries.insert token a, Nat.le_trans (length_insert_le token a) room.1⟩
  else none

def remove (s : Slab α capacity) (token : Token) : Option (α × Slab α capacity) :=
  (s.lookup token).map fun a =>
    (a, ⟨s.entries.erase token,
      Nat.le_trans (List.kerase_sublist token s.entries.entries).length_le s.bounded⟩)

@[simp] theorem lookup_empty (token : Token) : (empty : Slab α capacity).lookup token = none :=
  AList.lookup_empty token

theorem insert_some {s s' : Slab α capacity} {token : Token} {a : α}
    (inserted : s.insert token a = some s') :
    s.lookup token = none ∧ ∀ t, s'.lookup t = if t = token then some a else s.lookup t := by
  unfold insert at inserted
  split at inserted
  · rename_i room
    cases inserted
    refine ⟨room.2, ?_⟩
    intro t
    by_cases same : t = token
    · subst same; simp [lookup]
    · simp [lookup, same, AList.lookup_insert_ne same]
  · cases inserted

theorem remove_some {s s' : Slab α capacity} {token : Token} {a : α}
    (removed : s.remove token = some (a, s')) :
    s.lookup token = some a ∧ ∀ t, s'.lookup t = if t = token then none else s.lookup t := by
  unfold remove at removed
  obtain ⟨b, found, eq⟩ := Option.map_eq_some_iff.mp removed
  cases eq
  refine ⟨found, ?_⟩
  intro t
  by_cases same : t = token
  · subst same; simp [lookup]
  · simp [lookup, same, AList.lookup_erase_ne same]

theorem remove_none {s : Slab α capacity} {token : Token} :
    s.remove token = none ↔ s.lookup token = none := by
  simp [remove]

theorem count_eq_zero {s : Slab α capacity} : s.count = 0 ↔ ∀ t, s.lookup t = none := by
  constructor
  · intro zero t
    have none_left : s.entries.entries = [] := List.length_eq_zero_iff.mp zero
    simp [lookup, AList.lookup, none_left]
  · intro vacant
    refine List.length_eq_zero_iff.mpr (List.eq_nil_iff_forall_not_mem.mpr ?_)
    intro entry mem
    have found := (AList.mem_lookup_iff (s := s.entries)).mpr mem
    have none_there : AList.lookup entry.fst s.entries = none := vacant entry.fst
    rw [none_there] at found
    cases found

/-- How many entries satisfy `f`. -/
def countP (s : Slab α capacity) (f : α → Bool) : Nat := s.entries.entries.countP fun e => f e.2

variable {s : Slab α capacity} {f : α → Bool}

theorem lookup_of_mem {e : Sigma fun _ : Token => α} (mem : e ∈ s.entries.entries) :
    s.lookup e.1 = some e.2 :=
  AList.mem_lookup_iff.mpr mem

theorem countP_eq_zero (vacant : ∀ t a, s.lookup t = some a → f a = false) : s.countP f = 0 :=
  List.countP_eq_zero.mpr fun e mem => by simp [vacant e.1 e.2 (lookup_of_mem mem)]

theorem countP_pos {token : Token} {a : α} (found : s.lookup token = some a) (holds : f a = true) :
    0 < s.countP f :=
  List.countP_pos_iff.mpr ⟨⟨token, a⟩, AList.mem_lookup_iff.mp found, holds⟩

/-- Entries that satisfy `f` under one token only are at most one. -/
theorem countP_le_one (same : ∀ t a t' a', s.lookup t = some a → f a = true →
    s.lookup t' = some a' → f a' = true → t = t') : s.countP f ≤ 1 := by
  have apart : (s.entries.entries.filter fun e => f e.2).Nodup :=
    (List.NodupKeys.nodup s.entries.nodupKeys).filter _
  have equal (e e' : Sigma fun _ : Token => α)
      (mem : e ∈ s.entries.entries.filter fun e => f e.2)
      (mem' : e' ∈ s.entries.entries.filter fun e => f e.2) : e = e' := by
    obtain ⟨mem, holds⟩ := List.mem_filter.mp mem
    obtain ⟨mem', holds'⟩ := List.mem_filter.mp mem'
    have found := lookup_of_mem mem
    have found' := lookup_of_mem mem'
    have token := same _ _ _ _ found holds found' holds'
    rw [token, found', Option.some.injEq] at found
    exact Sigma.ext token (heq_of_eq found.symm)
  rw [countP, List.countP_eq_length_filter]
  cases list : s.entries.entries.filter fun e => f e.2 with
  | nil => exact Nat.zero_le _
  | cons e rest =>
      cases rest with
      | nil => exact Nat.le_refl _
      | cons e' rest =>
          rw [list] at apart equal
          refine absurd (equal e e' (by simp) (by simp)) ?_
          intro eq
          simp [eq] at apart

end Slab

/-! ## EventLoop -/

inductive Phase
  | armed
  | pending
  | polled
  deriving DecidableEq, Repr

structure Registration where
  token : Token
  interest : EventSet
  phase : Phase
  deriving DecidableEq, Repr

@[ext] structure EventLoop where
  regs : Fd → Option Registration

namespace EventLoop

def new : EventLoop := ⟨fun _ => none⟩

/-- `holds` says whether the condition already holds.  A descriptor that is
registered on this loop is refused. -/
def registerOpt (l : EventLoop) (fd : Fd) (token : Token) (interest : EventSet) (holds : Bool) :
    Option EventLoop :=
  match l.regs fd with
  | some _ => none
  | none => some ⟨Function.update l.regs fd
      (some ⟨token, interest, if holds then .pending else .armed⟩)⟩

def deregister (l : EventLoop) (fd : Fd) : Option EventLoop :=
  match l.regs fd with
  | none => none
  | some _ => some ⟨Function.update l.regs fd none⟩

/-- What becoming true does to a registration that waits for it. -/
def Registration.fire (interest : EventSet) (r : Registration) : Registration :=
  if r.interest = interest ∧ r.phase = .armed then { r with phase := .pending } else r

/-- The condition `interest` of `fd` becomes true. -/
def notify (l : EventLoop) (fd : Fd) (interest : EventSet) : EventLoop :=
  ⟨fun f => if f = fd then (l.regs f).map (Registration.fire interest) else l.regs f⟩

def isPending (l : EventLoop) (fd : Fd) : Bool :=
  (l.regs fd).any fun r => r.phase = .pending

/-- One poll takes the events of `fds`, each pending and none twice, and yields
the tokens they were registered under. -/
def poll (l : EventLoop) (fds : List Fd) : Option (EventLoop × List Token) :=
  if fds.Nodup ∧ ∀ fd ∈ fds, l.isPending fd then
    some (⟨fun f => if f ∈ fds then (l.regs f).map ({ · with phase := .polled }) else l.regs f⟩,
      fds.filterMap fun fd => (l.regs fd).map (·.token))
  else none

variable {l l' : EventLoop} {fd : Fd} {token : Token} {interest : EventSet} {holds : Bool}

@[simp] theorem Registration.fire_token (r : Registration) :
    (Registration.fire interest r).token = r.token := by
  unfold Registration.fire
  split <;> rfl

@[simp] theorem Registration.fire_polled (r : Registration) :
    (Registration.fire interest r).phase = .polled ↔ r.phase = .polled := by
  unfold Registration.fire
  split
  · rename_i fires
    simp [fires.2]
  · rfl

/-- `notify` changes phases only, and takes none out of `polled`. -/
theorem notify_regs (f : Fd) : ∃ g : Registration → Registration,
    (l.notify fd interest).regs f = (l.regs f).map g ∧
      ∀ r, (g r).token = r.token ∧ ((g r).phase = .polled ↔ r.phase = .polled) := by
  by_cases same : f = fd
  · exact ⟨Registration.fire interest, by simp [notify, same], by simp⟩
  · exact ⟨id, by simp [notify, same], by simp⟩

/-- A registration after `notify` was one before it, for the same. -/
theorem notify_origin {f : Fd} {r : Registration} (found : (l.notify fd interest).regs f = some r) :
    ∃ old, l.regs f = some old ∧ old.token = r.token ∧ old.interest = r.interest := by
  by_cases same : f = fd
  · simp only [notify, same, if_true] at found
    obtain ⟨old, reg, rfl⟩ := Option.map_eq_some_iff.mp found
    refine ⟨old, by rw [same]; exact reg, by simp, ?_⟩
    unfold Registration.fire
    split <;> rfl
  · simp only [notify, same, if_false] at found
    exact ⟨r, found, rfl, rfl⟩

/-- A registration still armed after `notify` was armed for something else. -/
theorem notify_armed {f : Fd} {r : Registration} (found : (l.notify fd interest).regs f = some r)
    (armed : r.phase = .armed) : l.regs f = some r ∧ ¬ (f = fd ∧ r.interest = interest) := by
  by_cases same : f = fd
  · simp only [notify, same, if_true] at found
    obtain ⟨old, reg, fired⟩ := Option.map_eq_some_iff.mp found
    unfold Registration.fire at fired
    split at fired
    · subst fired
      cases armed
    · rename_i other
      subst fired
      exact ⟨by rw [same]; exact reg, fun ⟨_, interested⟩ => other ⟨interested, armed⟩⟩
  · simp only [notify, same, if_false] at found
    exact ⟨found, fun ⟨here, _⟩ => same here⟩

theorem registerOpt_some (registered : l.registerOpt fd token interest holds = some l') :
    l.regs fd = none ∧ ∀ f, l'.regs f = if f = fd then
      some ⟨token, interest, if holds then .pending else .armed⟩ else l.regs f := by
  unfold registerOpt at registered
  split at registered
  · cases registered
  · rename_i vacant
    cases registered
    exact ⟨vacant, fun f => by simp [Function.update_apply]⟩

theorem deregister_some (removed : l.deregister fd = some l') :
    ∀ f, l'.regs f = if f = fd then none else l.regs f := by
  unfold deregister at removed
  split at removed
  · cases removed
  · cases removed
    exact fun f => by simp [Function.update_apply]

variable {fds : List Fd} {tokens : List Token}

theorem poll_some (polled : l.poll fds = some (l', tokens)) :
    fds.Nodup ∧ (∀ f ∈ fds, ∃ r, l.regs f = some r ∧ r.phase = .pending) ∧
      (∀ f, l'.regs f = if f ∈ fds then (l.regs f).map ({ · with phase := .polled }) else l.regs f) ∧
      tokens = fds.filterMap fun f => (l.regs f).map (·.token) := by
  unfold poll at polled
  split at polled
  · rename_i ready
    simp only [Option.some.injEq, Prod.mk.injEq] at polled
    obtain ⟨rfl, rfl⟩ := polled
    refine ⟨ready.1, ?_, fun f => rfl, rfl⟩
    intro f mem
    simpa [isPending, Option.any_eq_true] using ready.2 f mem
  · cases polled

theorem mem_tokens : token ∈ (fds.filterMap fun f => (l.regs f).map (·.token)) ↔
    ∃ f ∈ fds, ∃ r, l.regs f = some r ∧ r.token = token := by
  simp [List.mem_filterMap]

/-- Tokens under which different descriptors are registered differ, so one poll
yields no token twice. -/
theorem nodup_tokens (fds_nodup : fds.Nodup)
    (apart : ∀ f f' r r', l.regs f = some r → l.regs f' = some r' → r.token = r'.token → f = f') :
    (fds.filterMap fun f => (l.regs f).map (·.token)).Nodup := by
  apply fds_nodup.filterMap
  intro f f' token here here'
  obtain ⟨r, found, same⟩ := Option.map_eq_some_iff.mp here
  obtain ⟨r', found', same'⟩ := Option.map_eq_some_iff.mp here'
  exact apart f f' r r' found found' (same.trans same'.symm)

end EventLoop

end SimpleSched.Mio
