import Mif.Lib.Numbering
import Mif.Common.Fault
import Mif.Reflection.MetaInfo
import Mif.Reflection.Schema
import Mif.Remote.Registry

set_option autoImplicit false

/- `ToString` and `FromString` of the enums that `MIF_REFLECT_FIELD` registers. -/
namespace Mif.Reflection

open Mif.Remote (fakeHierarchyLength)

theorem length_staticStr (text : String) : (staticStr text).toList.length ≤ staticStrCapacity := by
  rw [staticStr, String.toList_ofList, List.length_take]
  exact Nat.min_le_left _ _

namespace ReflectedEnum

/- The searches in a list of enumerators. -/
section

variable {items : List (String × Int)}

theorem mem_of_valueToString {value : Int} {text : String}
    (named : valueToString value items = .ok text) :
    ∃ name, (name, value) ∈ items ∧ text = staticStr name := by
  induction items with
  | nil => cases named
  | cons item before ih =>
      obtain ⟨name, other⟩ := item
      unfold valueToString at named
      split at named
      · rename_i same
        cases named
        exact ⟨name, by simp [same], rfl⟩
      · obtain ⟨found, member, same⟩ := ih named
        exact ⟨found, List.mem_cons_of_mem _ member, same⟩

theorem valueToString_mem {value : Int} (registered : value ∈ items.map Prod.snd) :
    ∃ name, (name, value) ∈ items ∧ valueToString value items = .ok (staticStr name) := by
  induction items with
  | nil => cases registered
  | cons item before ih =>
      obtain ⟨name, other⟩ := item
      unfold valueToString
      split
      · rename_i same
        exact ⟨name, by simp [same], rfl⟩
      · rename_i different
        have earlier : value ∈ before.map Prod.snd := by
          rcases List.mem_cons.mp registered with same | earlier
          · exact absurd same.symm different
          · exact earlier
        obtain ⟨name, member, text⟩ := ih earlier
        exact ⟨name, List.mem_cons_of_mem _ member, text⟩

theorem valueToString_throws {value : Int} (unknown : value ∉ items.map Prod.snd) :
    ∃ what, valueToString value items = throwing what := by
  induction items with
  | nil => exact ⟨_, rfl⟩
  | cons item before ih =>
      obtain ⟨name, other⟩ := item
      rw [List.map_cons, List.mem_cons, not_or] at unknown
      rw [valueToString, if_neg (Ne.symm unknown.1)]
      exact ih unknown.2

theorem exists_stringToValue {name : String} {value : Int} (member : (name, value) ∈ items) :
    ∃ found, stringToValue (staticStr name) items = .ok found := by
  induction items with
  | nil => cases member
  | cons item before ih =>
      obtain ⟨other, entry⟩ := item
      unfold stringToValue
      split
      · exact ⟨entry, rfl⟩
      · rename_i different
        rcases List.mem_cons.mp member with same | earlier
        · cases same
          exact absurd rfl different
        · exact ih earlier

/-- Names that are kept whole lead to their enumerators. -/
theorem stringToValue_staticStr {name : String} {value : Int}
    (short : ∀ name ∈ items.map Prod.fst, name.toList.length ≤ staticStrCapacity)
    (distinct : (items.map Prod.fst).Nodup) (member : (name, value) ∈ items) :
    stringToValue (staticStr name) items = .ok value := by
  induction items with
  | nil => cases member
  | cons item before ih =>
      obtain ⟨other, entry⟩ := item
      rw [List.map_cons, List.nodup_cons] at distinct
      have kept : ∀ {text}, text ∈ other :: before.map Prod.fst → staticStr text = text :=
        fun {text} listed => staticStr_of_length_le (short text listed)
      unfold stringToValue
      rcases List.mem_cons.mp member with same | earlier
      · cases same
        rw [if_pos rfl]
      · have listed : name ∈ before.map Prod.fst := List.mem_map.mpr ⟨_, earlier, rfl⟩
        rw [kept (List.mem_cons_of_mem _ listed), kept List.mem_cons_self, if_neg]
        · have rest := ih (fun text inside => short text (List.mem_cons_of_mem _ inside))
            distinct.2 earlier
          rwa [kept (List.mem_cons_of_mem _ listed)] at rest
        · rintro rfl
          exact distinct.1 listed

theorem known_of_stringToValue {text : String} {value : Int}
    (read : stringToValue text items = .ok value) : value ∈ items.map Prod.snd := by
  induction items with
  | nil => cases read
  | cons item rest ih =>
      unfold stringToValue at read
      split at read
      · cases read
        exact List.mem_cons_self
      · exact List.mem_cons_of_mem _ (ih read)

theorem stringToValue_throws {text : String}
    (unknown : text ∉ items.map fun item => staticStr item.1) :
    ∃ what, stringToValue text items = throwing what := by
  induction items with
  | nil => exact ⟨_, rfl⟩
  | cons item before ih =>
      obtain ⟨name, value⟩ := item
      rw [List.map_cons, List.mem_cons, not_or] at unknown
      rw [stringToValue, if_neg unknown.1]
      exact ih unknown.2

end

section

variable {enum : ReflectedEnum}

theorem fromString_staticStr {name : String} {value : Int}
    (short : ∀ name ∈ enum.items.map Prod.fst, name.toList.length ≤ staticStrCapacity)
    (distinct : (enum.items.map Prod.fst).Nodup) (member : (name, value) ∈ enum.items) :
    enum.fromString (staticStr name) = .ok value := by
  apply stringToValue_staticStr
  · intro other listed
    rw [List.map_reverse, List.mem_reverse] at listed
    exact short other listed
  · rw [List.map_reverse, List.nodup_reverse]
    exact distinct
  · exact List.mem_reverse.mpr member

/-- Only registered values have names. -/
theorem mem_of_toString {value : Int} {text : String} (named : enum.toString value = .ok text) :
    ∃ name, (name, value) ∈ enum.items ∧ text = staticStr name := by
  obtain ⟨name, member, same⟩ := mem_of_valueToString named
  exact ⟨name, List.mem_reverse.mp member, same⟩

theorem toString_mem {value : Int} (registered : value ∈ enum.items.map Prod.snd) :
    ∃ name, (name, value) ∈ enum.items ∧ enum.toString value = .ok (staticStr name) := by
  have known : value ∈ enum.items.reverse.map Prod.snd := by
    rwa [List.map_reverse, List.mem_reverse]
  obtain ⟨name, member, text⟩ := valueToString_mem known
  exact ⟨name, List.mem_reverse.mp member, text⟩

/-- A registered value has a name, and is found again under it. -/
theorem fromString_toString {value : Int}
    (short : ∀ name ∈ enum.items.map Prod.fst, name.toList.length ≤ staticStrCapacity)
    (distinct : (enum.items.map Prod.fst).Nodup) (registered : value ∈ enum.items.map Prod.snd) :
    ∃ name, (name, value) ∈ enum.items ∧ enum.toString value = .ok (staticStr name) ∧
      enum.fromString (staticStr name) = .ok value := by
  obtain ⟨name, listed, text⟩ := toString_mem registered
  exact ⟨name, listed, text, fromString_staticStr short distinct listed⟩

theorem toString_throws {value : Int} (unknown : value ∉ enum.items.map Prod.snd) :
    ∃ what, enum.toString value = throwing what := by
  apply valueToString_throws
  rwa [List.map_reverse, List.mem_reverse]

theorem fromString_throws {text : String}
    (unknown : text ∉ enum.items.map fun item => staticStr item.1) :
    ∃ what, enum.fromString text = throwing what := by
  apply stringToValue_throws
  rwa [List.map_reverse, List.mem_reverse]

theorem exists_fromString {text : String}
    (stored : text ∈ enum.items.map fun item => staticStr item.1) :
    ∃ value, enum.fromString text = .ok value := by
  obtain ⟨item, member, same⟩ := List.mem_map.mp stored
  rw [← same]
  exact exists_stringToValue (List.mem_reverse.mpr member)

/-- Only stored names are read. -/
theorem mem_of_fromString {text : String} {value : Int} (read : enum.fromString text = .ok value) :
    text ∈ enum.items.map fun item => staticStr item.1 := by
  by_contra unknown
  obtain ⟨what, thrown⟩ := fromString_throws unknown
  rw [thrown] at read
  exact throwing_ne_ok value what read

/-- What is read is one of the items. -/
theorem known_of_fromString {text : String} {value : Int}
    (read : enum.fromString text = .ok value) : value ∈ enum.items.map Prod.snd := by
  have known := known_of_stringToValue read
  rwa [List.map_reverse, List.mem_reverse] at known

end

theorem able (enum : ReflectedEnum) :
    Numbering.Able Prod.fst fakeHierarchyLength enum.fields :=
  MetaInfo.able_of_reflect enum.compiles

/-- Names and values of an enum lead to each other, and to nothing else. -/
structure NamesRoundTrip (enum : ReflectedEnum) : Prop where
  value : ∀ field ∈ enum.fields, (enum.toString field.2 >>= enum.fromString) = .ok field.2
  identifier : ∀ field ∈ enum.fields, enum.fromString field.1 = .ok field.2
  otherValue : ∀ value, value ∉ enum.fields.map Prod.snd →
    ∃ what, enum.toString value = throwing what
  otherText : ∀ text, text ∉ enum.fields.map Prod.fst →
    ∃ what, enum.fromString text = throwing what

/-- The counter comes to all enumerators, and their identifiers are stored whole. -/
def Fits (enum : ReflectedEnum) : Prop :=
  enum.fields.length ≤ fakeHierarchyLength ∧
    ∀ field ∈ enum.fields, field.1.toList.length ≤ staticStrCapacity

theorem namesRoundTrip_of_fits {enum : ReflectedEnum} (fits : enum.Fits) :
    enum.NamesRoundTrip := by
  have all : enum.items = enum.fields := by
    rw [items_eq, List.take_of_length_le fits.1]
  have short : ∀ name ∈ enum.items.map Prod.fst,
      name.toList.length ≤ staticStrCapacity := by
    rw [all]
    intro name listed
    obtain ⟨field, member, same⟩ := List.mem_map.mp listed
    rw [← same]
    exact fits.2 field member
  have distinct : (enum.items.map Prod.fst).Nodup := by
    rw [all]
    exact enum.able.1
  have kept : ∀ field ∈ enum.fields, staticStr field.1 = field.1 :=
    fun field member => staticStr_of_length_le (fits.2 field member)
  constructor
  · intro field member
    have registered : field.2 ∈ enum.items.map Prod.snd := by
      rw [all]
      exact List.mem_map_of_mem member
    obtain ⟨name, -, named, read⟩ := fromString_toString short distinct registered
    rw [named]
    exact read
  · intro field member
    have listed : (field.1, field.2) ∈ enum.items := by
      rw [all]
      exact member
    have read := fromString_staticStr short distinct listed
    rwa [kept field member] at read
  · intro value unknown
    rw [← all] at unknown
    exact toString_throws unknown
  · intro text unknown
    apply fromString_throws
    rw [all]
    intro listed
    obtain ⟨field, member, same⟩ := List.mem_map.mp listed
    apply unknown
    rw [← same, kept field member]
    exact List.mem_map_of_mem member

/-- An identifier that is read is stored whole, for some enumerator in reach. -/
theorem exists_of_fromString {enum : ReflectedEnum} {text : String} {value : Int}
    (read : enum.fromString text = .ok value) :
    ∃ item ∈ enum.fields.take fakeHierarchyLength, staticStr item.1 = text := by
  have stored := mem_of_fromString read
  rw [items_eq] at stored
  exact List.mem_map.mp stored

theorem fits_of_namesRoundTrip {enum : ReflectedEnum} (roundTrip : enum.NamesRoundTrip) :
    enum.Fits := by
  have short : ∀ field ∈ enum.fields, field.1.toList.length ≤ staticStrCapacity := by
    intro field member
    obtain ⟨item, -, same⟩ := exists_of_fromString (roundTrip.identifier field member)
    rw [← same]
    exact length_staticStr item.1
  refine ⟨?_, short⟩
  -- The first enumerator behind the counter would be read as one before it.
  by_contra longer
  have last : fakeHierarchyLength < enum.fields.length := by omega
  obtain ⟨item, before, same⟩ := exists_of_fromString
    (roundTrip.identifier enum.fields[fakeHierarchyLength] (List.getElem_mem last))
  rw [staticStr_of_length_le (short item (List.mem_of_mem_take before))] at same
  obtain ⟨place, bound, here⟩ := List.mem_take_iff_getElem.mp before
  have distinct := enum.able.1
  have places : place = fakeHierarchyLength := by
    have equal : (enum.fields.map Prod.fst).get ⟨place, by rw [List.length_map]; omega⟩ =
        (enum.fields.map Prod.fst).get ⟨fakeHierarchyLength, by rwa [List.length_map]⟩ := by
      rw [List.get_eq_getElem, List.get_eq_getElem, List.getElem_map, List.getElem_map, here, same]
    exact Fin.mk.inj ((List.nodup_iff_injective_get.mp distinct) equal)
  omega

/-- The names of an enum round trip exactly when it has at most 100 enumerators and none has
an identifier of more than 64 characters. -/
theorem namesRoundTrip_iff (enum : ReflectedEnum) : enum.NamesRoundTrip ↔ enum.Fits :=
  ⟨fits_of_namesRoundTrip, namesRoundTrip_of_fits⟩

/-- An enum with one enumerator. -/
def single (name : String) (plain : '\x00' ∉ name.toList) : ReflectedEnum where
  fields := [(name, 0)]
  named := by
    intro field member
    rw [List.mem_singleton.mp member]
    exact plain
  compiles := MetaInfo.reflect_of_able (by simp [Numbering.Able])

theorem single_unread {name : String} (plain : '\x00' ∉ name.toList)
    (long : staticStrCapacity < name.toList.length) :
    ∃ what, (single name plain).fromString name = throwing what := by
  apply fromString_throws
  rw [items_eq]
  intro member
  have same : name = staticStr name := by simpa [single, fakeHierarchyLength] using member
  have stored := length_staticStr name
  rw [← same] at stored
  omega

/-- An enumerator with an identifier of 65 characters is not known by it. -/
theorem long_identifier_is_not_read :
    ¬ ∀ enum : ReflectedEnum, enum.NamesRoundTrip := by
  intro all
  have plain : '\x00' ∉ (String.ofList (List.replicate 65 'a')).toList := by
    rw [String.toList_ofList, List.mem_replicate]
    decide
  have long : staticStrCapacity < (String.ofList (List.replicate 65 'a')).toList.length := by
    rw [String.toList_ofList, List.length_replicate]
    decide
  obtain ⟨what, thrown⟩ := single_unread plain long
  have read := (all (single _ plain)).identifier _ List.mem_cons_self
  rw [thrown] at read
  exact throwing_ne_ok 0 what read

end ReflectedEnum

end Mif.Reflection
