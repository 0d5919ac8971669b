import Mathlib.Data.List.Basic

set_option autoImplicit false

namespace Mif

/-- Accesses the language leaves undefined. Nothing is promised about a run
that performs one. -/
inductive Undefined
  | nullDereference
  | outOfBounds
  | invalidRange
  deriving DecidableEq, Repr

/-- The two ways in which a call does not return a value. -/
inductive Fault
  | exception (what : String)
  | undefined (access : Undefined)
  deriving DecidableEq, Repr

abbrev Outcome (α : Type) := Except Fault α

/-- `throw std::invalid_argument{what}` and its siblings. -/
def throwing {α : Type} (what : String) : Outcome α := .error (.exception what)

/-- An access outside what the language defines. -/
def undefined {α : Type} (access : Undefined) : Outcome α := .error (.undefined access)

/-- A check that throws when it fails. -/
def demand (met : Bool) (what : String) : Outcome Unit := if met then .ok () else throwing what

section

variable {α : Type} (value : α)

@[simp] theorem throwing_ne_ok (what : String) : (throwing what : Outcome α) ≠ .ok value :=
  fun impossible => nomatch impossible

@[simp] theorem undefined_ne_ok (access : Undefined) :
    (undefined access : Outcome α) ≠ .ok value :=
  fun impossible => nomatch impossible

theorem ok_ne_undefined (access : Undefined) : (.ok value : Outcome α) ≠ undefined access :=
  fun impossible => nomatch impossible

end

theorem throwing_ne_undefined {α : Type} (what : String) (access : Undefined) :
    (throwing what : Outcome α) ≠ undefined access :=
  fun impossible => nomatch impossible

theorem met_of_demand {met : Bool} {what : String} {value : Unit}
    (passed : demand met what = .ok value) : met = true := by
  unfold demand at passed
  split at passed
  · assumption
  · cases passed

/-- A sequence that returns has gone through its first call. -/
theorem ok_of_bind {α β : Type} {first : Outcome α} {next : α → Outcome β} {result : β}
    (returned : (first >>= next) = .ok result) :
    ∃ value, first = .ok value ∧ next value = .ok result := by
  cases first with
  | error fault => cases returned
  | ok value => exact ⟨value, rfl, returned⟩

theorem bind_eq_ok {α β : Type} {first : Outcome α} {next : α → Outcome β} {result : β} :
    (first >>= next) = .ok result ↔ ∃ value, first = .ok value ∧ next value = .ok result := by
  refine ⟨ok_of_bind, ?_⟩
  rintro ⟨value, rfl, returned⟩
  exact returned

end Mif
