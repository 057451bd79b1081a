/-
# Sync.Poison -- what a failed acquisition may do to the holder

`try_lock`, and a `lock` out of rounds, return `Err` with a `Guard` in it like any
other, built without the flag.  The guard's drop is the release loop; so the error
does nothing to the holder until it dies, and then clears the flag under it.

`Undisturbed` is what the holder is promised.  It stands in every state of a run
exactly as long as no release loop swaps while an `Ok` guard is live
(`undisturbed_iff_leaves_holder`); keeping an error, writing through it and
`into_inner` are harmless.
-/
import SimpleSched.Sync.Mutex

namespace SimpleSched.Sync

set_option autoImplicit false

open Theory

variable {D T : Type}

/-- While an `Ok` guard is live the flag is set, and no other call has returned `Ok`. -/
def Undisturbed (s : Use D T) : Prop :=
  ∀ g, s.Ok g .live → s.lock = true ∧ ∀ g', s.Ok g' .live → g' = g

/-- No release loop takes a step while an `Ok` guard is live. -/
def LeavesHolder (s : Use D T) : Act D T → Prop
  | .dropSwap _ => ∀ g, ¬ s.Ok g .live
  | _ => True

variable {s s' : Use D T} {a : Act D T} {g g' : GuardRef} {x : Guard T}

theorem Undisturbed.init (data : D) : Undisturbed (Use.new data : Use D T) := by
  rintro g ⟨x, found, -⟩
  cases found

/-- The flag and the live `Ok` guards are as before, or some of these are gone. -/
theorem Undisturbed.of_fewer (undisturbed : Undisturbed s) (lock : s'.lock = s.lock)
    (fewer : ∀ g, s'.Ok g .live → s.Ok g .live) : Undisturbed s' := fun g live =>
  have here := undisturbed g (fewer g live)
  ⟨lock.trans here.1, fun g' live' => here.2 g' (fewer g' live')⟩

/-- One guard is given or changed: what is live and `Ok` then is that one, as it is
then, or was so before. -/
theorem Use.ok_update (guards : s'.guards = Function.update s.guards g (some x))
    (live : s'.Ok g' .live) :
    g' = g ∧ x.returned = .ok ∧ x.status = .live ∨ g' ≠ g ∧ s.Ok g' .live := by
  obtain ⟨x', found, ok, status⟩ := live
  rcases guard_update guards found with ⟨rfl, rfl⟩ | ⟨other, before⟩
  · exact .inl ⟨rfl, ok, status⟩
  · exact .inr ⟨other, x', before, ok, status⟩

variable [DecidableEq T]

/-- A step that leaves the holder keeps it undisturbed: an acquisition finds the flag
clear, so nobody holds it, and no other step makes a guard `Ok`. -/
theorem Undisturbed.step (undisturbed : Undisturbed s) (leaves : LeavesHolder s a)
    (effect : Effect s a s') : Undisturbed s' := by
  cases effect with
  | lock | failed | sched | next | derefMut => exact undisturbed.of_fewer rfl fun _ live => live
  | @acquired _ t _ clear =>
      have only (g : GuardRef) (live : (s.acquire t { s.toMutex with lock := true }).Ok g .live) :
          g = s.next := by
        rcases Use.ok_update (s := s) rfl live with ⟨new, -⟩ | ⟨-, before⟩
        · exact new
        · simp [(undisturbed g before).1] at clear
      exact fun g live => ⟨rfl, fun g' live' => (only g' live').trans (only g live).symm⟩
  | poisoned | intoInner | drop | dropped =>
      refine undisturbed.of_fewer rfl ?_
      intro g' live
      rcases Use.ok_update (s := s) rfl live with ⟨rfl, ok, status⟩ | ⟨-, before⟩
      · first | cases ok | cases status
      · exact before
  | @released _ g x _ found _ =>
      intro g' live
      rcases Use.ok_update (s := s) rfl live with ⟨rfl, ok, status⟩ | ⟨-, before⟩
      · exact absurd ⟨x, found, ok, status⟩ (leaves g')
      · exact absurd before (leaves g')

/-- A release loop that swaps while a guard is held clears the flag under it. -/
theorem Undisturbed.not_step (undisturbed : Undisturbed s) (effect : Effect s a s')
    (disturbs : ¬ LeavesHolder s a) : ¬ Undisturbed s' := by
  cases a with
  | dropSwap t =>
      simp only [LeavesHolder, not_forall, not_not] at disturbs
      obtain ⟨g, live⟩ := disturbs
      have set := (undisturbed g live).1
      cases effect with
      | dropped _ _ clear => simp [set] at clear
      | @released _ g' x' _ found _ =>
          intro after
          obtain ⟨x, at_g, ok, status⟩ := live
          refine Bool.false_ne_true (after g ?_).1
          by_cases same : g = g'
          · subst same
            obtain rfl : x = x' := Option.some.inj (at_g.symm.trans found)
            exact ⟨_, Function.update_self .., ok, status⟩
          · exact ⟨x, (Function.update_of_ne same ..).trans at_g, ok, status⟩
      | _ => simp_all
  | _ => exact absurd trivial disturbs

/-- In any use of a mutex the holder of an `Ok` guard stays undisturbed throughout
exactly when no release loop, of an error's guard or another, swaps while such a
guard is live. -/
theorem undisturbed_iff_leaves_holder {data : D} {as : List (Act D T)}
    (run : (system D T).exec (.new data) as = some s) :
    (system D T).Along Undisturbed (.new data) as ↔
      (system D T).Meets LeavesHolder (.new data) as := by
  have kept {s : Use D T} (reached : (system D T).Reach LeavesHolder (.new data) s) :
      Undisturbed s :=
    reached.invariant (.init data) fun _ _ _ _ undisturbed leaves taken =>
      undisturbed.step leaves (effect_of_step taken)
  exact Lts.along_iff_meets (fun _ => kept) (fun _ _ _ reached taken =>
    (kept reached).not_step (effect_of_step taken)) run

/-- The error of a `try_lock` is kept, taken out and written through while the holder
has its guard, until the holder drops that. -/
def errorKept : List (Act Nat Nat) :=
  [.tryLock 0, .tryLock 1, .intoInner 1 1, .derefMut 1 1 7, .drop 0 0, .dropSwap 0]

theorem error_kept_undisturbed :
    (system Nat Nat).Along Undisturbed (.new 0) errorKept := by
  have runs : ((system Nat Nat).exec (.new 0) errorKept).isSome = true := by decide +kernel
  obtain ⟨s, run⟩ := Option.isSome_iff_exists.1 runs
  refine (undisturbed_iff_leaves_holder run).2 ?_
  refine ⟨trivial, fun s₁ taken₁ => ⟨trivial, fun s₂ taken₂ => ⟨trivial, fun s₃ taken₃ =>
    ⟨trivial, fun s₄ taken₄ => ⟨trivial, ?_⟩⟩⟩⟩⟩
  intro s₅ taken₅
  cases taken₁
  cases taken₂
  cases taken₃
  cases taken₄
  cases taken₅
  refine ⟨?_, fun _ _ => trivial⟩
  rintro g ⟨x, found, ok, live⟩
  rcases g with _ | _ | g
  · cases found
    cases live
  · cases found
    cases ok
  · cases found

/-- The error of the second task dies while the first holds the lock, and a third
acquires it. -/
def errorDropped : List (Act Unit Nat) :=
  [.tryLock 0, .tryLock 1, .drop 1 1, .dropSwap 1, .tryLock 2]

theorem error_dropped_disturbs :
    ∃ s, (system Unit Nat).exec (.new ()) errorDropped = some s ∧
      s.guards 1 = some ⟨1, .poisonError, .dropping, [0]⟩ ∧ s.Ok 0 .live ∧ s.Ok 2 .live ∧
      ¬ Undisturbed s := by
  have disturbs : ((system Unit Nat).exec (.new ()) errorDropped).any (fun s =>
      s.guards 1 = some ⟨1, .poisonError, .dropping, [0]⟩ ∧ s.guards 0 = some ⟨0, .ok, .live, []⟩ ∧
        s.guards 2 = some ⟨2, .ok, .live, []⟩) = true := by decide +kernel
  obtain ⟨s, run, guards⟩ := (Option.any_eq_true _ _).1 disturbs
  obtain ⟨error, holder, later⟩ := of_decide_eq_true guards
  have live₀ : s.Ok 0 .live := ⟨_, holder, rfl, rfl⟩
  have live₂ : s.Ok 2 .live := ⟨_, later, rfl, rfl⟩
  exact ⟨s, run, error, live₀, live₂, fun undisturbed =>
    absurd ((undisturbed 0 live₀).2 2 live₂) (by decide)⟩

end SimpleSched.Sync
