import Mif.Common.Fault

set_option autoImplicit false

/- The compile-time list of registered proxy/stub types and its visitor. -/
namespace Mif.Remote

/-- One `MIF_REMOTE_REGISTER_PS`: the interface type and its `InterfaceId`, which
is the unqualified name of the interface. -/
structure PsType where
  interface : Nat
  interfaceId : String
  deriving DecidableEq, Repr

/-- `Common::Detail::FakeHierarchyLength` -/
def fakeHierarchyLength : Nat := 100

namespace Visitor

variable {ρ : Type}

/-- `Visitor::Visit<T, I>`: the items from number `index` on, until one gives a
result. A visitor that throws ends the visit. -/
def visit (visitor : PsType → Except String (Option ρ)) :
    Nat → List PsType → Except String (Option ρ)
  | _, [] => .ok none
  | index, item :: rest =>
      if index = fakeHierarchyLength then .ok none
      else
        match visitor item with
        | .error what => .error what
        | .ok (some result) => .ok (some result)
        | .ok none => visit visitor (index + 1) rest

/-- `Visitor::Accept` -/
def accept (items : List PsType) (visitor : PsType → Except String (Option ρ)) :
    Except String (Option ρ) :=
  visit visitor 1 items

/-- The items that a visit can reach. -/
def reach (items : List PsType) : List PsType := items.take (fakeHierarchyLength - 1)

/-- The interface ids that a visit can find. -/
def interfaceIds (items : List PsType) : List String := (reach items).map PsType.interfaceId

/-- A visit goes on over the items that give no result. -/
theorem visit_append {visitor : PsType → Except String (Option ρ)} {before : List PsType}
    (none : ∀ item ∈ before, visitor item = .ok none) (index : Nat) (after : List PsType)
    (bound : index + before.length ≤ fakeHierarchyLength) :
    visit visitor index (before ++ after) = visit visitor (index + before.length) after := by
  induction before generalizing index with
  | nil => rfl
  | cons item rest ih =>
      rw [List.length_cons] at bound
      have inside : index ≠ fakeHierarchyLength := by omega
      rw [List.cons_append, visit, if_neg inside, none item List.mem_cons_self]
      change visit visitor (index + 1) (rest ++ after) = _
      rw [ih (fun other member => none other (List.mem_cons_of_mem _ member)) (index + 1)
        (by omega), List.length_cons]
      congr 1
      omega

/-- A result comes from an item within reach. -/
theorem visit_some (visitor : PsType → Except String (Option ρ)) (items : List PsType)
    (index : Nat) (bound : index ≤ fakeHierarchyLength) (result : ρ)
    (found : visit visitor index items = .ok (some result)) :
    ∃ item ∈ items.take (fakeHierarchyLength - index), visitor item = .ok (some result) := by
  induction items generalizing index with
  | nil => cases found
  | cons item rest ih =>
      unfold visit at found
      split at found
      · cases found
      · rename_i inside
        have more : fakeHierarchyLength - index = (fakeHierarchyLength - (index + 1)) + 1 := by
          omega
        rw [more, List.take_succ_cons]
        cases answer : visitor item with
        | error what =>
            rw [answer] at found
            cases found
        | ok value =>
            rw [answer] at found
            cases value with
            | some value => exact ⟨item, List.mem_cons_self, answer.trans found⟩
            | none =>
                obtain ⟨other, member, same⟩ := ih (index + 1) (by omega) found
                exact ⟨other, List.mem_cons_of_mem _ member, same⟩

/-- A visitor that looks for an id and then cannot fail: it finds the first item
with that id, if one is within reach. -/
theorem visit_id (make : PsType → ρ) (interfaceId : String) (items : List PsType) (index : Nat)
    (bound : index ≤ fakeHierarchyLength) :
    visit (fun item => .ok (if item.interfaceId = interfaceId then some (make item) else none))
        index items =
      .ok (((items.take (fakeHierarchyLength - index)).find?
        fun item => item.interfaceId = interfaceId).map make) := by
  induction items generalizing index with
  | nil => simp [visit]
  | cons item rest ih =>
      unfold visit
      split
      · rename_i last
        simp [last]
      · rename_i inside
        have more : fakeHierarchyLength - index = (fakeHierarchyLength - (index + 1)) + 1 := by
          omega
        rw [more, List.take_succ_cons]
        by_cases same : item.interfaceId = interfaceId
        · simp [same]
        · simp only [same, ↓reduceIte, decide_false, List.find?_cons]
          exact ih (index + 1) (by omega)

end Visitor

end Mif.Remote
