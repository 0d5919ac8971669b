import Mathlib.Data.List.Basic

set_option autoImplicit false

/- Finite runs of a partial step function. An action that is not enabled in a
state has no successor, and a run that takes one does not exist. -/
namespace Transition

variable {σ α : Type} (step : σ → α → Option σ)

/-- The state after a list of actions, when every one of them was enabled. -/
def run : σ → List α → Option σ
  | state, [] => some state
  | state, action :: rest => (step state action).bind fun next => run next rest

/-- Every step of the run meets `guard`, a condition on the state before the
step and the action taken. -/
def Along (guard : σ → α → Prop) : σ → List α → Prop
  | _, [] => True
  | state, action :: rest =>
      guard state action ∧ ∀ next, step state action = some next → Along guard next rest

@[simp] theorem run_nil (state : σ) : run step state [] = some state := rfl

@[simp] theorem run_cons (state : σ) (action : α) (rest : List α) :
    run step state (action :: rest) = (step state action).bind fun next => run step next rest :=
  rfl

theorem run_cons_eq_some (state last : σ) (action : α) (rest : List α) :
    run step state (action :: rest) = some last ↔
      ∃ next, step state action = some next ∧ run step next rest = some last := by
  rw [run_cons, Option.bind_eq_some_iff]

theorem run_append (state : σ) (first second : List α) :
    run step state (first ++ second) =
      (run step state first).bind fun middle => run step middle second := by
  induction first generalizing state with
  | nil => rfl
  | cons action first ih =>
      rw [List.cons_append, run_cons, run_cons, Option.bind_assoc]
      congr 1
      funext next
      exact ih next

variable {step}

/-- The induction over a run: what every guarded step preserves holds at its end. -/
theorem run_invariant {guard : σ → α → Prop} {invariant : σ → Prop}
    (preserved : ∀ state action next, invariant state → guard state action →
      step state action = some next → invariant next)
    {actions : List α} {state last : σ} (start : invariant state)
    (guarded : Along step guard state actions) (reached : run step state actions = some last) :
    invariant last := by
  induction actions generalizing state with
  | nil =>
      cases reached
      exact start
  | cons action rest ih =>
      obtain ⟨next, taken, reached⟩ := (run_cons_eq_some step state last action rest).mp reached
      exact ih (preserved state action next start guarded.1 taken) (guarded.2 next taken) reached

/-- Where each step from related states can be taken on the other side, whole runs can. -/
theorem run_simulated {τ : Type} {other : τ → α → Option τ} {relates : σ → τ → Prop}
    (simulated : ∀ state image action next, relates state image →
      step state action = some next →
      ∃ after, other image action = some after ∧ relates next after)
    {actions : List α} {state last : σ} {image : τ} (start : relates state image)
    (reached : run step state actions = some last) :
    ∃ after, run other image actions = some after ∧ relates last after := by
  induction actions generalizing state image with
  | nil =>
      cases reached
      exact ⟨image, rfl, start⟩
  | cons action rest ih =>
      obtain ⟨next, taken, reached⟩ := (run_cons_eq_some step state last action rest).mp reached
      obtain ⟨middle, followed, related⟩ := simulated state image action next start taken
      obtain ⟨after, further, ends⟩ := ih related reached
      exact ⟨after, (run_cons_eq_some other image after action rest).mpr
        ⟨middle, followed, further⟩, ends⟩

/-- A condition on the actions alone. -/
theorem along_of_mem {guard : σ → α → Prop} (actions : List α)
    (always : ∀ action ∈ actions, ∀ state, guard state action) (state : σ) :
    Along step guard state actions := by
  induction actions generalizing state with
  | nil => trivial
  | cons action rest ih =>
      refine ⟨always action (by simp) state, fun next _ => ih ?_ next⟩
      intro other member
      exact always other (by simp [member])

theorem along_mono {first second : σ → α → Prop}
    (weaker : ∀ state action, first state action → second state action) {actions : List α}
    {state : σ} (along : Along step first state actions) : Along step second state actions := by
  induction actions generalizing state with
  | nil => trivial
  | cons action rest ih =>
      exact ⟨weaker state action along.1, fun next taken => ih (along.2 next taken)⟩

theorem along_append {guard : σ → α → Prop} {first second : List α} {state : σ}
    (before : Along step guard state first)
    (after : ∀ middle, run step state first = some middle → Along step guard middle second) :
    Along step guard state (first ++ second) := by
  induction first generalizing state with
  | nil => exact after state rfl
  | cons action first ih =>
      refine ⟨before.1, fun next taken => ih (before.2 next taken) ?_⟩
      intro middle reached
      exact after middle ((run_cons_eq_some step state middle action first).mpr
        ⟨next, taken, reached⟩)

/-- A run that reaches a state takes enabled actions only. -/
theorem along_enabled {assumed : σ → α → Prop} {actions : List α} {state last : σ}
    (assumption : Along step assumed state actions)
    (reached : run step state actions = some last) :
    Along step (fun state action => assumed state action ∧ (step state action).isSome)
      state actions := by
  induction actions generalizing state with
  | nil => trivial
  | cons action rest ih =>
      obtain ⟨next, taken, reached⟩ := (run_cons_eq_some step state last action rest).mp reached
      refine ⟨⟨assumption.1, by rw [taken]; rfl⟩, ?_⟩
      intro other same
      have equal : other = next := Option.some.inj (same.symm.trans taken)
      subst equal
      exact ih (assumption.2 other taken) reached

/-- Two conditions that agree on the states of an invariant are met by the same
runs, when the first one preserves the invariant. -/
theorem along_congr {assumed first second : σ → α → Prop} {invariant : σ → Prop}
    (agree : ∀ state action, invariant state → assumed state action →
      (first state action ↔ second state action))
    (preserved : ∀ state action next, invariant state → assumed state action →
      first state action → step state action = some next → invariant next)
    (actions : List α) (state : σ) (start : invariant state)
    (assumption : Along step assumed state actions) :
    Along step first state actions ↔ Along step second state actions := by
  induction actions generalizing state with
  | nil => exact Iff.rfl
  | cons action rest ih =>
      have same := agree state action start assumption.1
      constructor
      · rintro ⟨met, later⟩
        refine ⟨same.mp met, fun next taken => ?_⟩
        exact (ih next (preserved state action next start assumption.1 met taken)
          (assumption.2 next taken)).mp (later next taken)
      · rintro ⟨met, later⟩
        refine ⟨same.mpr met, fun next taken => ?_⟩
        exact (ih next (preserved state action next start assumption.1 (same.mpr met) taken)
          (assumption.2 next taken)).mpr (later next taken)

/-- A guard that can be tested can be tested along a run. -/
instance decidableAlong {guard : σ → α → Prop} [∀ state action, Decidable (guard state action)] :
    ∀ (state : σ) (actions : List α), Decidable (Along step guard state actions)
  | _, [] => isTrue trivial
  | state, action :: rest =>
      match taken : step state action with
      | none => decidable_of_iff (guard state action)
          ⟨fun met => ⟨met, fun next impossible => by cases taken.symm.trans impossible⟩, And.left⟩
      | some next =>
          have : Decidable (Along step guard next rest) := decidableAlong next rest
          decidable_of_iff (guard state action ∧ Along step guard next rest)
            ⟨fun met => ⟨met.1, fun other same => by cases taken.symm.trans same; exact met.2⟩,
              fun met => ⟨met.1, met.2 next taken⟩⟩

/-- A quantity that each step raises by its cost is where it was at the end of a run
exactly when no step of the run has a cost. -/
theorem along_free_iff {ι : Type} {measure : σ → ι → Int} {cost : σ → α → ι → Nat}
    {assumed : σ → α → Prop} {invariant : σ → Prop}
    (raised : ∀ state action next, invariant state → assumed state action →
      step state action = some next →
      ∀ index, measure next index = measure state index + cost state action index)
    (preserved : ∀ state action next, invariant state → assumed state action →
      step state action = some next → invariant next)
    (actions : List α) (state last : σ) (start : invariant state)
    (assumption : Along step assumed state actions)
    (reached : run step state actions = some last) :
    (∀ index, measure last index = measure state index) ↔
      Along step (fun state action => ∀ index, cost state action index = 0) state actions := by
  have rising : ∀ (actions : List α) (state : σ), invariant state →
      Along step assumed state actions → run step state actions = some last →
      ∀ index, measure state index ≤ measure last index := by
    intro actions
    induction actions with
    | nil =>
        intro state start assumption reached index
        cases reached
        exact Int.le_refl _
    | cons action rest ih =>
        intro state start assumption reached index
        obtain ⟨next, taken, reached⟩ := (run_cons_eq_some step state last action rest).mp reached
        have first := raised state action next start assumption.1 taken index
        have later := ih next (preserved state action next start assumption.1 taken)
          (assumption.2 next taken) reached index
        omega
  induction actions generalizing state with
  | nil =>
      cases reached
      simp [Along]
  | cons action rest ih =>
      obtain ⟨next, taken, reached⟩ := (run_cons_eq_some step state last action rest).mp reached
      have first := raised state action next start assumption.1 taken
      have held := preserved state action next start assumption.1 taken
      have assumedNext := assumption.2 next taken
      have later := rising rest next held assumedNext reached
      constructor
      · intro same
        have free : ∀ index, cost state action index = 0 := by
          intro index
          have equal := same index
          have paid := first index
          have above := later index
          omega
        refine ⟨free, fun other takenOther => ?_⟩
        have equal : other = next := Option.some.inj (takenOther.symm.trans taken)
        subst equal
        apply (ih other held assumedNext reached).mp
        intro index
        rw [same index, first index, free index]
        omega
      · intro along index
        have rest := (ih next held assumedNext reached).mpr (along.2 next taken) index
        rw [rest, first index, along.1 index]
        omega

end Transition
