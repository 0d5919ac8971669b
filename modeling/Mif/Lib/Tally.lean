import Mathlib.Data.List.Nodup
import Mathlib.Data.List.Count

set_option autoImplicit false

/- How many items of a list have a key. -/
namespace Tally

variable {α κ : Type} [DecidableEq κ]

def tally (key : α → κ) (items : List α) (wanted : κ) : Nat :=
  items.countP fun item => key item = wanted

variable (key : α → κ) (wanted : κ)

@[simp] theorem tally_nil : tally key [] wanted = 0 := rfl

@[simp] theorem tally_append (first second : List α) :
    tally key (first ++ second) wanted = tally key first wanted + tally key second wanted :=
  List.countP_append

theorem tally_cons (item : α) (items : List α) :
    tally key (item :: items) wanted = tally key [item] wanted + tally key items wanted :=
  tally_append key wanted [item] items

theorem tally_filter_le (kept : α → Bool) (items : List α) :
    tally key (items.filter kept) wanted ≤ tally key items wanted :=
  List.Sublist.countP_le List.filter_sublist

/-- An item that is not kept is taken off the tally. -/
theorem tally_filter_add {kept : α → Bool} {items : List α} {item : α} (member : item ∈ items)
    (dropped : kept item = false) :
    tally key (items.filter kept) wanted + tally key [item] wanted ≤ tally key items wanted := by
  induction items with
  | nil => cases member
  | cons first rest ih =>
      have whole := tally_cons key wanted first rest
      rcases List.mem_cons.mp member with same | later
      · subst same
        have fewer := tally_filter_le key wanted kept rest
        rw [List.filter_cons_of_neg (by simp [dropped])]
        omega
      · have fewer := ih later
        by_cases first_kept : kept first = true
        · rw [List.filter_cons_of_pos first_kept, tally_cons key wanted first]
          omega
        · rw [List.filter_cons_of_neg first_kept]
          omega

/-- One copy of an item is taken off the tally of the items of a kind. -/
theorem tally_erase [DecidableEq α] (kind : α → Bool) {items : List α} {item : α}
    (member : item ∈ items) :
    tally key ((items.erase item).filter kind) wanted + tally key ([item].filter kind) wanted =
      tally key (items.filter kind) wanted := by
  have split := ((List.perm_cons_erase member).filter kind).countP_eq fun other => key other = wanted
  have whole := tally_append key wanted ([item].filter kind) ((items.erase item).filter kind)
  rw [← List.filter_append] at whole
  unfold tally at whole ⊢
  rw [List.singleton_append] at whole
  omega

theorem tally_single (item : α) : tally key [item] (key item) = 1 := by
  simp [tally]

theorem one_le_tally {items : List α} {item : α} (member : item ∈ items) :
    1 ≤ tally key items (key item) := by
  apply List.countP_pos_iff.mpr
  exact ⟨item, member, by simp⟩

variable {key wanted}

theorem tally_eq_zero {items : List α} (none : ∀ item ∈ items, key item ≠ wanted) :
    tally key items wanted = 0 := by
  rw [tally, List.countP_eq_zero]
  intro item member
  simpa using none item member

theorem tally_absent {items : List κ} (absent : wanted ∉ items) : tally id items wanted = 0 := by
  apply tally_eq_zero
  intro item member same
  exact absent (same ▸ member)

theorem tally_single_ne {item : α} (different : key item ≠ wanted) :
    tally key [item] wanted = 0 :=
  tally_eq_zero (by simpa using different)

/-- What is not counted yet can be counted once. -/
theorem add_single_le (key : α → κ) {count : κ → Nat} (once : ∀ wanted, count wanted ≤ 1)
    {item : α} (absent : count (key item) = 0) (wanted : κ) :
    count wanted + tally key [item] wanted ≤ 1 := by
  by_cases same : key item = wanted
  · subst same
    have one := tally_single key item
    omega
  · rw [tally_single_ne same]
    exact once wanted

/-- A key that is counted once at most belongs to one item. -/
theorem eq_of_tally {items : List α} {first second : α}
    (once : tally key items (key first) ≤ 1) (member : first ∈ items) (other : second ∈ items)
    (same : key second = key first) : first = second := by
  induction items with
  | nil => cases member
  | cons head rest ih =>
      rw [tally_cons] at once
      have one := tally_single key head
      rcases List.mem_cons.mp member with here | later
      · rcases List.mem_cons.mp other with here' | later'
        · exact here.trans here'.symm
        · have more := one_le_tally key later'
          rw [same, here] at more
          rw [here] at once
          omega
      · have more := one_le_tally key later
        rcases List.mem_cons.mp other with here' | later'
        · rw [← here', same] at one
          rw [← here'] at once
          omega
        · exact ih (by omega) later later'

theorem tally_remove_self (items : List α) (removed : κ) :
    tally key (items.filter fun item => key item ≠ removed) removed = 0 := by
  apply tally_eq_zero
  intro item member
  simpa using (List.mem_filter.mp member).2

theorem tally_remove_ne {removed : κ} (different : wanted ≠ removed) (items : List α) :
    tally key (items.filter fun item => key item ≠ removed) wanted = tally key items wanted := by
  unfold tally
  rw [List.countP_filter]
  congr 1
  funext item
  by_cases same : key item = wanted
  · simp [same, different]
  · simp [same]

theorem count_map (items : List α) (wanted : κ) :
    (items.map key).count wanted = tally key items wanted := by
  rw [List.count, List.countP_map, tally]
  congr 1

/-- Keys that are counted once at most are distinct. -/
theorem nodup_of_tally {items : List α} (once : ∀ wanted, tally key items wanted ≤ 1) :
    (items.map key).Nodup := by
  rw [List.nodup_iff_count_le_one]
  intro wanted
  rw [count_map]
  exact once wanted

/-- Lists in which everything is counted alike are permutations of each other. -/
theorem perm_of_tally {first second : List κ}
    (alike : ∀ wanted, tally id first wanted = tally id second wanted) : first.Perm second := by
  rw [List.perm_iff_count]
  intro wanted
  have left := @count_map κ κ _ id first wanted
  have right := @count_map κ κ _ id second wanted
  rw [List.map_id] at left right
  rw [left, right]
  exact alike wanted

end Tally
