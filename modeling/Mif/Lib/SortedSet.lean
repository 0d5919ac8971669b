import Mathlib.Data.List.Dedup
import Mathlib.Data.List.Sort

set_option autoImplicit false

/- Ordered sets as strictly increasing lists. -/
namespace SortedSet

variable {α : Type} [DecidableEq α] [LE α] [DecidableLE α]

/-- The set of the elements, in their order. -/
def ofList (list : List α) : List α := list.dedup.insertionSort (· ≤ ·)

@[simp] theorem mem_ofList {list : List α} {element : α} :
    element ∈ ofList list ↔ element ∈ list := by
  rw [ofList, List.mem_insertionSort, List.mem_dedup]

theorem nodup_ofList (list : List α) : (ofList list).Nodup :=
  (List.perm_insertionSort _ _).nodup_iff.mpr (List.nodup_dedup list)

variable [Std.IsLinearOrder α]

theorem sorted_ofList (list : List α) : (ofList list).Pairwise (· ≤ ·) :=
  List.pairwise_insertionSort _ _

variable [LT α] [Std.LawfulOrderLT α]

theorem increasing_ofList (list : List α) : (ofList list).Pairwise (· < ·) := by
  have both := (sorted_ofList list).and (nodup_ofList list)
  exact both.imp fun bound => Std.lt_of_le_of_ne bound.1 bound.2

/-- A list stays as it is exactly when it is strictly increasing already. -/
theorem ofList_eq_self_iff {list : List α} : ofList list = list ↔ list.Pairwise (· < ·) := by
  constructor
  · intro same
    rw [← same]
    exact increasing_ofList list
  · intro increasing
    have distinct : list.Nodup := by
      apply increasing.imp
      intro one two less same
      rw [same] at less
      exact Std.lt_irrefl less
    have sorted : list.Pairwise (· ≤ ·) := increasing.imp fun less => Std.le_of_lt less
    rw [ofList, distinct.dedup]
    exact sorted.insertionSort_eq

end SortedSet
