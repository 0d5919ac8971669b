import Mif.Lib.Numbering
import Mif.Remote.Registry

set_option autoImplicit false

/- The members that `MIF_REFLECT_BEGIN`, `MIF_REFLECT_FIELD` and `MIF_REFLECT_END` declare in
the class `type_MetaInfo`. The fields of a struct come with their types, the enumerators of an
enum with their values. -/
namespace Mif.Reflection.MetaInfo

open Mif.Remote (fakeHierarchyLength)

variable {α : Type}

/-- The fields so far, each with its `_Index`. -/
abbrev Members (α : Type) := List (Nat × String × α)

/-- `sizeof(GetNextCounter(static_cast<FakeHierarchy *>(nullptr)))`. The overload of an index
returns an array of one more, and the one for `void *` an array of 1. -/
def getNextCounter (members : Members α) : Nat :=
  Numbering.closest (members.map Prod.fst) fakeHierarchyLength + 1

/-- `MIF_REFLECT_FIELD`. A second field of the same name or index does not compile. -/
def reflectField (members : Members α) (field : String × α) : Option (Members α) :=
  let index := getNextCounter members
  if field.1 ∈ members.map (fun member => member.2.1) ∨ index ∈ members.map Prod.fst then none
  else some (members ++ [(index, field)])

/-- The fields between `MIF_REFLECT_BEGIN` and `MIF_REFLECT_END`. -/
def reflect (fields : List (String × α)) : Option (Members α) := fields.foldlM reflectField []

/-- `FieldsList::Count`, from the counter at `MIF_REFLECT_END`. -/
def count (members : Members α) : Nat := getNextCounter members - 1

/-- `GetFieldInfo(Hierarchy<number>)`. The overload of an index takes one number less. -/
def getFieldInfo (members : Members α) (number : Nat) : Option (String × α) :=
  members.lookup (Numbering.closest (members.map Prod.fst) (number + 1))

/-- `FieldsList::Field<Index>` for all indexes below `Count`. -/
def fieldsList (members : Members α) : List (String × α) :=
  (List.range (count members)).filterMap (getFieldInfo members)

theorem reflect_eq (fields : List (String × α)) :
    reflect fields = if Numbering.Able Prod.fst fakeHierarchyLength fields then
      some (Numbering.numbered fields) else none :=
  Numbering.foldlM_add Prod.fst fakeHierarchyLength fields

theorem able_of_reflect {fields : List (String × α)} (compiles : (reflect fields).isSome) :
    Numbering.Able Prod.fst fakeHierarchyLength fields :=
  Numbering.able_of_isSome Prod.fst fakeHierarchyLength compiles

theorem reflect_of_able {fields : List (String × α)}
    (able : Numbering.Able Prod.fst fakeHierarchyLength fields) : (reflect fields).isSome := by
  rw [reflect_eq, if_pos able]
  rfl

theorem getFieldInfo_numbered {fields : List (String × α)} {number : Nat}
    (inside : number < fields.length) :
    getFieldInfo (Numbering.numbered fields) number = fields[number]? := by
  have exactly : min fields.length (number + 1) = number + 1 := by omega
  rw [getFieldInfo, Numbering.closest_numbered, exactly, Numbering.lookup_numbered]

theorem filterMap_range {fields : List (String × α)} {size : Nat}
    (inside : size ≤ fields.length) :
    (List.range size).filterMap (getFieldInfo (Numbering.numbered fields)) = fields.take size := by
  induction size with
  | zero => rfl
  | succ size ih =>
      have here : getFieldInfo (Numbering.numbered fields) size = some fields[size] := by
        rw [getFieldInfo_numbered inside, List.getElem?_eq_getElem inside]
      rw [List.range_succ, List.filterMap_append, ih (Nat.le_of_succ_le inside),
        List.take_succ_eq_append_getElem inside]
      simp [here]

/-- The counter does not go on behind the hierarchy. -/
theorem fieldsList_numbered (fields : List (String × α)) :
    fieldsList (Numbering.numbered fields) = fields.take fakeHierarchyLength := by
  have counted : count (Numbering.numbered fields) = min fields.length fakeHierarchyLength := by
    rw [count, getNextCounter, Numbering.closest_numbered, Nat.add_sub_cancel]
  rw [fieldsList, counted, filterMap_range (Nat.min_le_left _ _), Nat.min_comm,
    ← List.take_eq_take_min]

/-- Of the fields that compile, the first ones are known. -/
theorem fieldsList_reflect {fields : List (String × α)} (compiles : (reflect fields).isSome) :
    fieldsList ((reflect fields).get compiles) = fields.take fakeHierarchyLength := by
  have members : (reflect fields).get compiles = Numbering.numbered fields :=
    Numbering.get_foldlM_add Prod.fst fakeHierarchyLength compiles
  rw [members, fieldsList_numbered]

end Mif.Reflection.MetaInfo
