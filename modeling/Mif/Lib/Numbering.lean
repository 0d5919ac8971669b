import Mathlib.Data.List.Induction
import Mathlib.Data.List.Nodup

set_option autoImplicit false

/- Lists that a compiler builds one item at a time. An item gets its number from the overload
that is the closest base of the longest class hierarchy there is, so that the numbers stop when
the hierarchy ends. -/
namespace Numbering

/-- The overload that is chosen for a hierarchy of this length, 0 when there is none. -/
def closest (numbers : List Nat) (length : Nat) : Nat :=
  (numbers.filter (· ≤ length)).foldl max 0

theorem closest_range' (count length : Nat) :
    closest (List.range' 1 count) length = min count length := by
  unfold closest
  induction count with
  | zero => simp
  | succ count ih =>
      rw [List.range'_concat, List.filter_append, List.foldl_append, ih]
      by_cases within : 1 + 1 * count ≤ length
      · simp only [within, decide_true, List.filter_cons_of_pos, List.filter_nil,
          List.foldl_cons, List.foldl_nil]
        omega
      · simp only [within, decide_false, Bool.false_eq_true, not_false_eq_true,
          List.filter_cons_of_neg, List.filter_nil, List.foldl_nil]
        omega

variable {α κ : Type} [DecidableEq κ] (key : α → κ) (length : Nat)

/-- A further item. A second item with its key or with its number is not accepted. -/
def add (items : List (Nat × α)) (item : α) : Option (List (Nat × α)) :=
  let number := closest (items.map Prod.fst) length + 1
  if key item ∈ items.map (fun item => key item.2) ∨ number ∈ items.map Prod.fst then none
  else some (items ++ [(number, item)])

/-- The items get the numbers 1, 2, ... in the order of the list. -/
def numbered (list : List α) : List (Nat × α) :=
  (list.zipIdx 1).map fun item => (item.2, item.1)

/-- The lists that are accepted: the last number is one more than the length. -/
def Able (list : List α) : Prop := (list.map key).Nodup ∧ list.length ≤ length + 1

instance (list : List α) : Decidable (Able key length list) :=
  inferInstanceAs (Decidable (_ ∧ _))

theorem numbered_fst (list : List α) :
    (numbered list).map Prod.fst = List.range' 1 list.length := by
  simp [numbered, Function.comp_def, List.zipIdx_map_snd]

theorem numbered_append (list : List α) (item : α) :
    numbered (list ++ [item]) = numbered list ++ [(list.length + 1, item)] := by
  simp [numbered, List.zipIdx_append, Nat.add_comm]

omit [DecidableEq κ] in
theorem numbered_keys (list : List α) :
    (numbered list).map (fun item => key item.2) = list.map key := by
  calc (numbered list).map (fun item => key item.2)
    _ = ((list.zipIdx 1).map Prod.fst).map key := by
      simp only [numbered, List.map_map, Function.comp_def]
    _ = list.map key := by rw [List.zipIdx_map_fst]

/-- The number of the next item, as far as the hierarchy goes. -/
theorem closest_numbered (list : List α) :
    closest ((numbered list).map Prod.fst) length = min list.length length := by
  rw [numbered_fst, closest_range']

theorem add_numbered {list : List α} (item : α) (able : Able key length list) :
    add key length (numbered list) item =
      if Able key length (list ++ [item]) then some (numbered (list ++ [item])) else none := by
  have counted : min list.length length + 1 ∈ List.range' 1 list.length ↔
      ¬ list.length + 1 ≤ length + 1 := by
    rw [List.mem_range'_1]
    omega
  have both : Able key length (list ++ [item]) ↔ ¬ (key item ∈ list.map key ∨
      min list.length length + 1 ∈ List.range' 1 list.length) := by
    unfold Able at able ⊢
    rw [counted, List.map_append, List.length_append]
    simp only [List.map_cons, List.map_nil, List.length_cons, List.length_nil]
    rw [← List.concat_eq_append, List.nodup_concat]
    simp only [able.1, and_true]
    tauto
  unfold add
  simp only [numbered_keys, closest_numbered]
  rw [numbered_fst]
  by_cases refused : key item ∈ list.map key ∨
      min list.length length + 1 ∈ List.range' 1 list.length
  · rw [if_pos refused, if_neg (fun further => both.mp further refused)]
  · have further := both.mpr refused
    have short : list.length ≤ length := by
      have bound := further.2
      rw [List.length_append] at bound
      exact Nat.le_of_succ_le_succ bound
    rw [if_neg refused, if_pos further, numbered_append, Nat.min_eq_left short]

/-- A list is accepted exactly when its keys are distinct and the hierarchy can number all
items but the last. -/
theorem foldlM_add (list : List α) :
    list.foldlM (add key length) [] =
      if Able key length list then some (numbered list) else none := by
  induction list using List.reverseRecOn with
  | nil => rfl
  | append_singleton list item ih =>
      have last : (list ++ [item]).foldlM (add key length) [] =
          (list.foldlM (add key length) []).bind fun items => add key length items item := by
        rw [List.foldlM_append]
        congr 1
        funext items
        exact List.foldlM_cons.trans (bind_pure _)
      rw [last, ih]
      by_cases able : Able key length list
      · rw [if_pos able]
        exact add_numbered key length item able
      · have longer : ¬ Able key length (list ++ [item]) := by
          intro further
          apply able
          have distinct := further.1
          have short := further.2
          rw [List.map_append] at distinct
          rw [List.length_append] at short
          exact ⟨distinct.of_append_left, by omega⟩
        rw [if_neg able, if_neg longer]
        rfl

theorem able_of_isSome {list : List α} (whole : (list.foldlM (add key length) []).isSome) :
    Able key length list := by
  by_contra refused
  rw [foldlM_add, if_neg refused] at whole
  cases whole

/-- The items of a list that is accepted. -/
theorem get_foldlM_add {list : List α} (whole : (list.foldlM (add key length) []).isSome) :
    (list.foldlM (add key length) []).get whole = numbered list := by
  apply Option.some.inj
  rw [Option.some_get, foldlM_add, if_pos (able_of_isSome key length whole)]

theorem lookup_numbered (list : List α) (index : Nat) :
    (numbered list).lookup (index + 1) = list[index]? := by
  unfold numbered
  induction list using List.reverseRecOn with
  | nil => simp
  | append_singleton list item ih =>
      rw [List.zipIdx_append, List.map_append, List.lookup_append, ih]
      by_cases inside : index < list.length
      · rw [List.getElem?_append_left inside, List.getElem?_eq_getElem inside]
        rfl
      · rw [List.getElem?_eq_none (by omega), List.getElem?_append_right (by omega)]
        by_cases last : index = list.length
        · simp [last, Nat.add_comm]
        · have behind : index - list.length ≠ 0 := by omega
          have other : (index + 1 == 1 + list.length) = false := by
            rw [beq_eq_false_iff_ne]
            omega
          simp [other, List.lookup_cons, behind]

end Numbering
