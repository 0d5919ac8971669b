import Mif.Lib.Transition

set_option autoImplicit false

/- Runs in which each step belongs to one party, and no party sees the steps of the
others. -/
namespace Interleaving

variable {σ ι α ν : Type} [DecidableEq ι]

/-- The actions of one party in a run of all of them. -/
def own (party : ι) (events : List (ι × α)) : List α :=
  events.filterMap fun event => if event.1 = party then some event.2 else none

@[simp] theorem own_nil (party : ι) : own party ([] : List (ι × α)) = [] := rfl

@[simp] theorem own_cons_self (party : ι) (action : α) (rest : List (ι × α)) :
    own party ((party, action) :: rest) = action :: own party rest := by
  simp [own]

theorem own_cons_other {party other : ι} (different : other ≠ party) (action : α)
    (rest : List (ι × α)) : own party ((other, action) :: rest) = own party rest := by
  simp [own, different]

theorem own_append (party : ι) (first second : List (ι × α)) :
    own party (first ++ second) = own party first ++ own party second :=
  List.filterMap_append

theorem mem_own {party : ι} {action : α} {events : List (ι × α)} :
    action ∈ own party events ↔ (party, action) ∈ events := by
  rw [own, List.mem_filterMap]
  constructor
  · rintro ⟨⟨other, taken⟩, member, selected⟩
    split at selected
    · rename_i same
      cases same
      cases selected
      exact member
    · cases selected
  · intro member
    exact ⟨(party, action), member, by simp⟩

/-- A step of a party is a step of `alone` in its view, and changes no other view. -/
structure Separate (step : σ → ι × α → Option σ) (view : ι → σ → ν)
    (alone : ν → α → Option ν) : Prop where
  acts : ∀ state party action next, step state (party, action) = some next →
    alone (view party state) action = some (view party next)
  leaves : ∀ state party action next other, step state (party, action) = some next →
    other ≠ party → view other next = view other state

variable {step : σ → ι × α → Option σ} {view : ι → σ → ν} {alone : ν → α → Option ν}

/-- In every run a party sees what its own actions alone would have led to. -/
theorem run_alone (separate : Separate step view alone) {events : List (ι × α)} {state last : σ}
    (reached : Transition.run step state events = some last) (party : ι) :
    Transition.run alone (view party state) (own party events) = some (view party last) := by
  induction events generalizing state with
  | nil =>
      cases reached
      rfl
  | cons event rest ih =>
      obtain ⟨next, taken, reached⟩ :=
        (Transition.run_cons_eq_some step state last event rest).mp reached
      have later := ih reached
      obtain ⟨actor, action⟩ := event
      by_cases same : actor = party
      · subst same
        rw [own_cons_self, Transition.run_cons, separate.acts state actor action next taken]
        exact later
      · rw [own_cons_other same]
        rw [separate.leaves state actor action next party taken (Ne.symm same)] at later
        exact later

/-- What every step of a party alone keeps, its view keeps in every run. -/
theorem view_invariant (separate : Separate step view alone) {invariant : ν → Prop}
    (preserved : ∀ state action next, invariant state → alone state action = some next →
      invariant next)
    {events : List (ι × α)} {state last : σ} (party : ι) (start : invariant (view party state))
    (reached : Transition.run step state events = some last) : invariant (view party last) := by
  have guarded : Transition.Along alone (fun _ _ => True) (view party state) (own party events) :=
    Transition.along_of_mem _ (fun _ _ _ => trivial) _
  apply Transition.run_invariant (fun state action next held _ => preserved state action next held)
    start guarded
  exact run_alone separate reached party

end Interleaving
