/-
# Sync.Exclusion -- one live guard, and when

`lock` sets the flag with one swap; `Guard::drop` swaps until it finds the flag
cleared, so after the swap that releases there is always another one.  If in between
another task has acquired, that swap releases its acquisition.

`Exclusion` is what the guards should satisfy.  Among runs of `lock` and `drop` alone
it holds in every state, and stays within one more swap of any drop, exactly as long
as no task acquires while another is in the loop of a drop
(`exclusion_iff_drops_alone`).
-/
import SimpleSched.Sync.Mutex

namespace SimpleSched.Sync

set_option autoImplicit false

open Theory

variable {D T : Type}

/-- What the drop of an `Ok` guard has released: nothing before it begins, and its
own acquisition, once, when it has ended. -/
def Guard.Own (g : GuardRef) (x : Guard T) : Prop :=
  match x.status with
  | .live => x.releases = []
  | .dropping => x.releases = [] ∨ x.releases = [g]
  | .dropped => x.releases = [g]

structure Exclusion (s : Use D T) : Prop where
  one : ∀ g g', s.Ok g .live → s.Ok g' .live → g = g'
  flag : ∀ g, s.Ok g .live → s.lock = true
  own : ∀ g x, s.guards g = some x → x.returned = .ok → x.Own g

/-- The mutex is used through `lock` and the drop of its guards, and no `lock` runs
out of rounds. -/
def LocksOnly (s : Use D T) : Act D T → Prop
  | .tryLock _ => False
  | .next t => ∀ k, s.calls t = .yielded k → k + 1 < POISON_RETRY_COUNT
  | _ => True

instance (s : Use D T) (t : T) : Decidable (LocksOnly s (.next t)) :=
  match call : s.calls t with
  | .yielded k => decidable_of_iff (k + 1 < POISON_RETRY_COUNT) (by simp [LocksOnly, call])
  | .idle | .swap _ | .yielding _ | .drop _ => .isTrue (by simp [LocksOnly, call])

/-- No swap acquires while a task is in the loop of a drop. -/
def DropsAlone (s : Use D T) : Act D T → Prop
  | .swap _ => s.lock = false → ∀ u g, s.calls u ≠ .drop g
  | _ => True

/-! ## The invariant -/

/-- Where a guard stands with the flag: a live one is the acquisition in force, one
in its drop is that or has released it. -/
def Guard.Stands (x : Guard T) (lock : Bool) (acquired g : GuardRef) : Prop :=
  match x.status with
  | .live => lock = true ∧ acquired = g ∧ x.releases = []
  | .dropping => lock = true ∧ acquired = g ∧ x.releases = [] ∨ lock = false ∧ x.releases = [g]
  | .dropped => x.releases = [g]

structure Held (s : Use D T) : Prop where
  fresh : ∀ g, s.next ≤ g → s.guards g = none
  returned : ∀ g x, s.guards g = some x → x.returned = .ok
  stands : ∀ g x, s.guards g = some x → x.Stands s.lock s.acquired g
  set : s.lock = true → ∃ x, s.guards s.acquired = some x ∧ x.status ≠ .dropped
  drops : ∀ g, (∃ t, s.calls t = .drop g) ↔ ∃ x, s.guards g = some x ∧ x.status = .dropping
  alone : ∀ t u g g', s.calls t = .drop g → s.calls u = .drop g' → t = u

variable {s s' : Use D T} {a : Act D T} {t u : T} {g g' : GuardRef} {x x' : Guard T}

theorem Held.init (data : D) : Held (Use.new data : Use D T) where
  fresh _ _ := rfl
  returned _ _ found := by cases found
  stands _ _ found := by cases found
  set flag := by cases flag
  drops _ := by simp [Use.new]
  alone _ _ _ _ drops := by cases drops

theorem Held.live (held : Held s) (found : s.guards g = some x) (live : x.status = .live) :
    s.lock = true ∧ s.acquired = g ∧ x.releases = [] := by
  simpa [Guard.Stands, live] using held.stands g x found

theorem Held.dropping (held : Held s) (found : s.guards g = some x) (dropping : x.status = .dropping) :
    s.lock = true ∧ s.acquired = g ∧ x.releases = [] ∨ s.lock = false ∧ x.releases = [g] := by
  simpa [Guard.Stands, dropping] using held.stands g x found

/-- With the flag set every guard but the acquisition in force has been dropped. -/
theorem Held.dropped_of_set (held : Held s) (set : s.lock = true) (found : s.guards g = some x)
    (other : g ≠ s.acquired) : x.status = .dropped := by
  cases status : x.status with
  | live => exact absurd (held.live found status).2.1.symm other
  | dropping =>
      rcases held.dropping found status with ⟨-, mine, -⟩ | ⟨clear, -⟩
      · exact absurd mine.symm other
      · simp [set] at clear
  | dropped => rfl

/-- While a guard is live no task is in a drop. -/
theorem Held.not_drop (held : Held s) (found : s.guards g = some x) (live : x.status = .live) :
    s.calls t ≠ .drop g' := by
  intro drops
  obtain ⟨set, mine, -⟩ := held.live found live
  obtain ⟨x', found', dropping⟩ := (held.drops g').1 ⟨t, drops⟩
  by_cases same : g' = g
  · subst same
    rw [found] at found'
    cases found'
    simp [live] at dropping
  · have dropped := held.dropped_of_set set found' (mine ▸ same)
    simp [dropping] at dropped

theorem Held.exclusion (held : Held s) : Exclusion s where
  one := by
    rintro g g' ⟨x, found, -, live⟩ ⟨x', found', -, live'⟩
    exact (held.live found live).2.1.symm.trans (held.live found' live').2.1
  flag := by
    rintro g ⟨x, found, -, live⟩
    exact (held.live found live).1
  own g x found _ := by
    have stands := held.stands g x found
    unfold Guard.Stands at stands
    unfold Guard.Own
    split at stands
    · exact stands.2.2
    · exact stands.imp (fun set => set.2.2) fun clear => clear.2
    · exact stands

variable [DecidableEq T]

/-- A task that is in no drop goes on to where it is in none. -/
theorem Held.setCall (held : Held s) {call : Call} (before : ∀ g, s.calls t ≠ .drop g)
    (after : ∀ g, call ≠ .drop g) : Held (s.setCall t call) := by
  have same (u : T) (g : GuardRef) : (s.setCall t call).calls u = .drop g ↔ s.calls u = .drop g := by
    by_cases mine : u = t
    · subst mine
      simp [Use.setCall, before g, after g]
    · simp [Use.setCall, Function.update_of_ne mine]
  exact ⟨held.fresh, held.returned, held.stands, held.set,
    fun g => (exists_congr fun u => same u g).trans (held.drops g),
    fun u v g g' drops drops' => held.alone u v g g' ((same u g).1 drops) ((same v g').1 drops')⟩

omit [DecidableEq T] in
/-- One guard is given or changed; the others have to stand with the new flag. -/
theorem Held.of_guard (held : Held s) (guards : s'.guards = Function.update s.guards g (some x))
    (grows : s.next ≤ s'.next) (given : g < s'.next) (ok : x.returned = .ok)
    (stands : x.Stands s'.lock s'.acquired g)
    (others : ∀ g' x', g' ≠ g → s.guards g' = some x' → x'.Stands s'.lock s'.acquired g')
    (set : s'.lock = true → s'.acquired = g ∧ x.status ≠ .dropped)
    (drops : ∀ g', (∃ t, s'.calls t = .drop g') ↔ ∃ x, s'.guards g' = some x ∧ x.status = .dropping)
    (alone : ∀ t u g g', s'.calls t = .drop g → s'.calls u = .drop g' → t = u) : Held s' := by
  refine ⟨?_, ?_, ?_, ?_, drops, alone⟩
  · intro g' old
    rw [guards, Function.update_of_ne (Nat.ne_of_gt (Nat.lt_of_lt_of_le given old))]
    exact held.fresh g' (Nat.le_trans grows old)
  · intro g' x' at_g'
    rcases Use.guard_update guards at_g' with ⟨rfl, rfl⟩ | ⟨-, before⟩
    · exact ok
    · exact held.returned g' x' before
  · intro g' x' at_g'
    rcases Use.guard_update guards at_g' with ⟨rfl, rfl⟩ | ⟨other, before⟩
    · exact stands
    · exact others g' x' other before
  · intro flag
    obtain ⟨rfl, undropped⟩ := set flag
    exact ⟨x, by rw [guards, Function.update_self], undropped⟩

omit [DecidableEq T] in
theorem Held.below (held : Held s) (found : s.guards g = some x) : g < s.next :=
  Nat.lt_of_not_le fun old => by simp [held.fresh g old] at found

/-- An acquisition with no drop in progress: every earlier guard has been dropped. -/
theorem Held.acquire (held : Held s) (clear : s.lock = false) (free : ∀ u g, s.calls u ≠ .drop g) :
    Held (s.acquire t { s.toMutex with lock := true }) := by
  have dropped {g : GuardRef} {x : Guard T} (found : s.guards g = some x) : x.status = .dropped := by
    cases status : x.status with
    | live => exact absurd (held.live found status).1 (by simp [clear])
    | dropping =>
        obtain ⟨u, drops⟩ := (held.drops g).2 ⟨x, found, status⟩
        exact absurd drops (free u g)
    | dropped => rfl
  have none_drops (u : T) (g : GuardRef) : Function.update s.calls t .idle u ≠ .drop g := by
    by_cases mine : u = t <;> simp [mine, free]
  refine held.of_guard rfl (Nat.le_succ _) (Nat.lt_succ_self _) rfl ⟨rfl, rfl, rfl⟩
    ?_ (fun _ => ⟨rfl, by simp⟩) ?_
    fun u _ g _ drops => absurd drops (none_drops u g)
  · intro g x _ found
    simpa [Guard.Stands, dropped found] using held.stands g x found
  · intro g
    refine ⟨fun ⟨u, drops⟩ => absurd drops (none_drops u g), ?_⟩
    rintro ⟨x, found, dropping⟩
    by_cases new : g = s.next
    · subst new
      simp only [Use.acquire_guards, Function.update_self, Option.some.injEq] at found
      subst found
      cases dropping
    · rw [Use.acquire_guards, Function.update_of_ne new] at found
      simp [dropped found] at dropping

/-- The drop of the live guard begins. -/
theorem Held.drop (held : Held s) (found : s.guards g = some x) (live : x.status = .live) :
    Held ((s.setGuard g { x with status := .dropping }).setCall t (.drop g)) := by
  obtain ⟨set, mine, unreleased⟩ := held.live found live
  have begun (u : T) (g' : GuardRef) :
      Function.update s.calls t (.drop g) u = .drop g' ↔ u = t ∧ g = g' := by
    by_cases same : u = t
    · simp [same]
    · have idle : s.calls u ≠ .drop g' := held.not_drop found live
      simp [same, idle]
  refine held.of_guard rfl (Nat.le_refl _) (held.below found) (held.returned g x found)
    (.inl ⟨set, mine, unreleased⟩) (fun g' x' _ found' => held.stands g' x' found')
    (fun _ => ⟨mine, by simp⟩) ?_ ?_
  · intro g'
    refine (exists_congr fun u => begun u g').trans ?_
    by_cases same : g' = g
    · simp [same]
    · simp only [Use.setCall_guards, Use.setGuard_guards, Function.update_of_ne same]
      refine ⟨fun ⟨_, _, eq⟩ => absurd eq.symm same, ?_⟩
      rintro ⟨x', found', dropping⟩
      obtain ⟨u, drops⟩ := (held.drops g').2 ⟨x', found', dropping⟩
      exact absurd drops (held.not_drop found live)
  · intro u v g₁ g₂ drops drops'
    exact ((begun u g₁).1 drops).1.trans ((begun v g₂).1 drops').1.symm

omit [DecidableEq T] in
/-- The swap of a drop that clears the flag. -/
theorem Held.released (held : Held s) (drops : s.calls t = .drop g) (found : s.guards g = some x)
    (set : s.lock = true) :
    Held ({ s with lock := false }.setGuard g { x with releases := x.releases ++ [s.acquired] }) := by
  obtain ⟨x', found', dropping⟩ := (held.drops g).1 ⟨t, drops⟩
  obtain rfl : x = x' := Option.some.inj (found.symm.trans found')
  have stands : s.acquired = g ∧ x.releases = [] := by
    rcases held.dropping found dropping with ⟨-, mine, unreleased⟩ | ⟨clear, -⟩
    · exact ⟨mine, unreleased⟩
    · simp [set] at clear
  refine held.of_guard (g := g) rfl (Nat.le_refl _) (held.below found) (held.returned g x found) ?_
    ?_ (fun flag => by cases flag) ?_ held.alone
  · simp [Guard.Stands, dropping, stands]
  · intro g' x' other before
    have dropped := held.dropped_of_set set before (stands.1 ▸ other)
    simpa [Guard.Stands, dropped] using held.stands g' x' before
  · intro g'
    refine (held.drops g').trans ?_
    by_cases same : g' = g
    · simp [same, found, dropping]
    · simp [Function.update_of_ne same]

/-- The swap of a drop that finds the flag cleared. -/
theorem Held.dropped (held : Held s) (drops : s.calls t = .drop g) (found : s.guards g = some x)
    (clear : s.lock = false) :
    Held ((s.setGuard g { x with status := .dropped }).setCall t .idle) := by
  obtain ⟨x', found', dropping⟩ := (held.drops g).1 ⟨t, drops⟩
  obtain rfl : x = x' := Option.some.inj (found.symm.trans found')
  have none_drops (u : T) (g : GuardRef) : Function.update s.calls t .idle u ≠ .drop g := by
    by_cases mine : u = t
    · simp [mine]
    · rw [Function.update_of_ne mine]
      exact fun other => mine (held.alone u t _ _ other drops)
  refine held.of_guard (g := g) rfl (Nat.le_refl _) (held.below found) (held.returned g x found) ?_
    (fun g' x' _ before => held.stands g' x' before) ?_ ?_
    fun u _ g' _ drops' => absurd drops' (none_drops u g')
  · rcases held.dropping found dropping with ⟨set, -, -⟩ | ⟨-, released⟩
    · simp [clear] at set
    · exact released
  · intro flag
    exact absurd (clear.symm.trans flag) (by simp)
  · intro g'
    refine ⟨fun ⟨u, drops'⟩ => absurd drops' (none_drops u g'), ?_⟩
    rintro ⟨x', found', dropping'⟩
    by_cases same : g' = g
    · subst same
      simp only [Use.setCall_guards, Use.setGuard_guards, Function.update_self, Option.some.injEq]
        at found'
      subst found'
      cases dropping'
    · rw [Use.setCall_guards, Use.setGuard_guards, Function.update_of_ne same] at found'
      obtain ⟨u, drops'⟩ := (held.drops g').2 ⟨x', found', dropping'⟩
      obtain rfl := held.alone u t _ _ drops' drops
      rw [drops] at drops'
      exact absurd (Call.drop.inj drops').symm same

/-- What one step of the domain keeps, as long as acquisitions wait for drops. -/
theorem Held.step (held : Held s) (within : LocksOnly s a) (alone : DropsAlone s a)
    (effect : Effect s a s') : Held s' := by
  cases effect with
  | lock idle => exact held.setCall (by simp [idle]) (by simp)
  | acquired from_call clear =>
      rcases from_call with ⟨rfl, -⟩ | ⟨k, rfl, -⟩
      · cases within
      · exact held.acquire clear (alone clear)
  | failed call | sched call | next call => exact held.setCall (by simp [call]) (by simp)
  | poisoned from_call =>
      rcases from_call with ⟨rfl, -, -⟩ | ⟨k, rfl, call, last⟩
      · cases within
      · exact absurd (within k call) last
  | intoInner _ found _ poisoned => simp [held.returned _ _ found] at poisoned
  | derefMut => exact ⟨held.fresh, held.returned, held.stands, held.set, held.drops, held.alone⟩
  | drop _ found live => exact held.drop found live
  | released drops found set => exact held.released drops found set
  | dropped drops found clear => exact held.dropped drops found clear

/-! ## The condition is exact -/

/-- The condition under which the runs of `LocksOnly` keep `Held`. -/
def Orderly (s : Use D T) (a : Act D T) : Prop := LocksOnly s a ∧ DropsAlone s a

theorem Held.reach {data : D} (reached : (system D T).Reach Orderly (.new data) s) : Held s :=
  reached.invariant (.init data) fun _ _ _ _ held ok taken =>
    held.step ok.1 ok.2 (effect_of_step taken)

/-- `Exclusion` holds, and one more swap of any drop leaves it so. -/
def Secure (s : Use D T) : Prop :=
  Exclusion s ∧ ∀ u s', step s (.dropSwap u) = some s' → Exclusion s'

/-- An acquisition inside the drop of another guard: the next swap of that drop
clears the flag under the new guard. -/
theorem Held.not_secure (held : Held s) (effect : Effect s a s') (breaks : ¬ DropsAlone s a) :
    ¬ Secure s' := by
  cases a with
  | swap t =>
      simp only [DropsAlone, not_forall, not_not] at breaks
      obtain ⟨clear, u, g, drops⟩ := breaks
      obtain ⟨x, found, -⟩ := (held.drops g).1 ⟨u, drops⟩
      rintro ⟨-, next⟩
      cases effect with
      | failed _ set => simp [clear] at set
      | poisoned from_call => rcases from_call with ⟨eq, -⟩ | ⟨k, eq, -⟩ <;> cases eq
      | acquired from_call =>
          rcases from_call with ⟨eq, -⟩ | ⟨k, eq, call⟩ <;> cases eq
          · have other : u ≠ t := fun same => by
              rw [same, call] at drops
              cases drops
            have old : g ≠ s.next := Nat.ne_of_lt (held.below found)
            have swapped := step_released (s := s.acquire t { s.toMutex with lock := true }) (t := u)
              (g := g) (x := x) (by simp [other, drops]) (by simp [old, found]) rfl
            have live : Use.Ok ({ s.acquire t { s.toMutex with lock := true } with lock := false }.setGuard
                g { x with releases := x.releases ++ [s.next] }) s.next .live :=
              ⟨⟨t, .ok, .live, []⟩, by simp [Function.update_of_ne old.symm], rfl, rfl⟩
            have set := (next u _ swapped).flag s.next live
            cases set
  | _ => exact absurd trivial breaks

/-- In a run of `lock` and `drop` alone, in which no `lock` runs out of rounds: as long
as no task acquires inside the loop of another's drop, mutual exclusion stands in
every state; and where one does, one more swap of that drop is the end of it. -/
theorem exclusion_iff_drops_alone {data : D} {as : List (Act D T)}
    (run : (system D T).exec (.new data) as = some s)
    (within : (system D T).Meets LocksOnly (.new data) as) :
    ((system D T).Meets DropsAlone (.new data) as → (system D T).Along Exclusion (.new data) as) ∧
      ((system D T).Along Secure (.new data) as ↔ (system D T).Meets DropsAlone (.new data) as) := by
  refine ⟨fun alone => Lts.along_of_meets (fun s reached => (Held.reach reached).exclusion) .start
      (Lts.meets_and within alone),
    Lts.along_iff_meets_within ?_ (fun s a t reached _ taken breaks =>
      (Held.reach reached).not_secure (effect_of_step taken) breaks) run within⟩
  intro s reached
  have held := Held.reach reached
  exact ⟨held.exclusion, fun u s' taken =>
    (held.step (a := .dropSwap u) trivial trivial (effect_of_step taken)).exclusion⟩

/-- One task locks and drops, then another locks. -/
def lockedInTurn : List (Act Unit (Fin 2)) :=
  [.lock 0, .swap 0, .drop 0 0, .dropSwap 0, .dropSwap 0, .lock 1, .swap 1]

theorem locked_in_turn_excludes :
    (system Unit (Fin 2)).Along Exclusion (.new ()) lockedInTurn := by
  have runs : ((system Unit (Fin 2)).exec (.new ()) lockedInTurn).isSome = true := by decide +kernel
  obtain ⟨s, run⟩ := Option.isSome_iff_exists.1 runs
  refine (exclusion_iff_drops_alone run (Lts.meets_of_forall (by simp [lockedInTurn, LocksOnly]))).1 ?_
  refine ⟨trivial, ?_⟩
  intro t taken
  cases taken
  refine ⟨fun _ u g drops => (by match u with | 0 | 1 => cases drops), ?_⟩
  intro t taken
  cases taken
  refine ⟨trivial, fun t taken => ⟨trivial, fun t' taken' => ⟨trivial, fun t'' taken'' =>
    ⟨trivial, ?_⟩⟩⟩⟩
  intro v then_taken
  cases taken
  cases taken'
  cases taken''
  cases then_taken
  exact ⟨fun _ u g drops => (by match u with | 0 | 1 => cases drops), fun _ _ => trivial⟩

/-- The drop of the first guard clears the flag, the second task acquires, and the
drop, which swaps until it finds the flag cleared, releases that too; a third task
acquires while the second still holds its guard. -/
def lockedInsideDrop : List (Act Unit (Fin 3)) :=
  [.lock 0, .swap 0, .drop 0 0, .dropSwap 0, .lock 1, .swap 1, .dropSwap 0, .lock 2, .swap 2]

theorem locked_inside_drop_shares :
    ∃ s, (system Unit (Fin 3)).Reach LocksOnly (.new ()) s ∧
      s.guards 0 = some ⟨0, .ok, .dropping, [0, 1]⟩ ∧ s.Ok 1 .live ∧ s.Ok 2 .live ∧
      ¬ Exclusion s := by
  have shares : ((system Unit (Fin 3)).exec (.new ()) lockedInsideDrop).any (fun s =>
      s.guards 0 = some ⟨0, .ok, .dropping, [0, 1]⟩ ∧ s.guards 1 = some ⟨1, .ok, .live, []⟩ ∧
        s.guards 2 = some ⟨2, .ok, .live, []⟩) = true := by decide +kernel
  obtain ⟨s, run, guards⟩ := (Option.any_eq_true _ _).1 shares
  obtain ⟨first, second, third⟩ := of_decide_eq_true guards
  have live₁ : s.Ok 1 .live := ⟨_, second, rfl, rfl⟩
  have live₂ : s.Ok 2 .live := ⟨_, third, rfl, rfl⟩
  refine ⟨s, .of_exec run (Lts.meets_of_forall (by simp [lockedInsideDrop, LocksOnly])), first, live₁,
    live₂, ?_⟩
  intro exclusion
  cases exclusion.one 1 2 live₁ live₂

end SimpleSched.Sync
