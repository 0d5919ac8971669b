import Mathlib.Data.List.Nodup
import Mathlib.Data.List.Sort
import Mif.Lib.Assoc

set_option autoImplicit false

/- The entries of an ordered map as a list that increases by its keys. -/
namespace SortedMap

variable {κ ν : Type} [LE κ] [DecidableLE κ]

/-- The entries, in the order of their keys. -/
def ofList (entries : List (κ × ν)) : List (κ × ν) :=
  entries.insertionSort fun one two => one.1 ≤ two.1

theorem perm_ofList (entries : List (κ × ν)) : (ofList entries).Perm entries :=
  List.perm_insertionSort _ _

theorem mem_ofList {entries : List (κ × ν)} {entry : κ × ν} :
    entry ∈ ofList entries ↔ entry ∈ entries :=
  (perm_ofList entries).mem_iff

theorem keys_nodup {entries : List (κ × ν)} (distinct : (entries.map Prod.fst).Nodup) :
    ((ofList entries).map Prod.fst).Nodup :=
  ((perm_ofList entries).map Prod.fst).nodup_iff.mpr distinct

section

variable [Std.IsLinearOrder κ]

theorem sorted_ofList (entries : List (κ × ν)) :
    (ofList entries).Pairwise fun one two => one.1 ≤ two.1 := by
  have total : Std.Total fun one two : κ × ν => one.1 ≤ two.1 :=
    ⟨fun one two => Std.le_total⟩
  have trans : IsTrans (κ × ν) fun one two => one.1 ≤ two.1 :=
    ⟨fun one two three => Std.le_trans⟩
  exact List.pairwise_insertionSort _ entries

variable [BEq κ] [LawfulBEq κ]

/-- Lists in which the same is found under every key are one map. -/
theorem ofList_eq {left right : List (κ × ν)} (distinctLeft : (left.map Prod.fst).Nodup)
    (distinctRight : (right.map Prod.fst).Nodup)
    (same : ∀ key, left.lookup key = right.lookup key) : ofList left = ofList right := by
  have entries : left.Perm right := by
    apply (List.perm_ext_iff_of_nodup distinctLeft.of_map distinctRight.of_map).mpr
    intro entry
    constructor
    · intro member
      apply Assoc.mem_of_lookup
      rw [← same]
      exact Assoc.lookup_of_mem distinctLeft member
    · intro member
      apply Assoc.mem_of_lookup
      rw [same]
      exact Assoc.lookup_of_mem distinctRight member
  have sorted : (ofList left).Perm (ofList right) :=
    (perm_ofList left).trans (entries.trans (perm_ofList right).symm)
  refine List.Perm.eq_of_pairwise ?_ (sorted_ofList left) (sorted_ofList right) sorted
  intro one two first second less more
  have key : one.1 = two.1 := Std.le_antisymm less more
  have member : one ∈ ofList right := sorted.mem_iff.mp first
  exact List.inj_on_of_nodup_map (keys_nodup distinctRight) member second key

end

end SortedMap
