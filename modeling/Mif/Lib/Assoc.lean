import Mathlib.Data.List.Nodup

set_option autoImplicit false

/- Tables as lists of pairs, looked up with `List.lookup`. -/
namespace Assoc

variable {κ ν : Type} [BEq κ]

/-- Insertion of a key that is not there; an entry that is there stays. -/
def insert (key : κ) (value : ν) (table : List (κ × ν)) : List (κ × ν) :=
  match table.lookup key with
  | some _ => table
  | none => table ++ [(key, value)]

/-- The insertions of these pairs, one after the other. -/
def insertAll (table pairs : List (κ × ν)) : List (κ × ν) :=
  pairs.foldl (fun table pair => insert pair.1 pair.2 table) table

/-- The value of a key is changed; a key that is not there gets a new value first. -/
def modify (key : κ) (new : ν) (change : ν → ν) : List (κ × ν) → List (κ × ν)
  | [] => [(key, change new)]
  | (name, value) :: rest =>
      if name == key then (name, change value) :: rest
      else (name, value) :: modify key new change rest

variable [LawfulBEq κ]

theorem modify_modify (key : κ) (new : ν) (first second : ν → ν) (table : List (κ × ν)) :
    modify key new second (modify key new first table) =
      modify key new (fun value => second (first value)) table := by
  induction table with
  | nil => simp [modify]
  | cons entry rest ih =>
      obtain ⟨name, value⟩ := entry
      rw [modify, modify]
      by_cases same : name = key
      · simp [same, modify]
      · simp [same, modify, ih]

omit [LawfulBEq κ] in
/-- What holds of all values, and of a new one, holds of all after a change that keeps it. -/
theorem forall_modify {holds kept : ν → Prop} {key : κ} {new : ν} {change : ν → ν}
    {table : List (κ × ν)} (all : ∀ entry ∈ table, holds entry.2) (fresh : holds new)
    (weaker : ∀ value, holds value → kept value)
    (changed : ∀ value, holds value → kept (change value)) :
    ∀ entry ∈ modify key new change table, kept entry.2 := by
  induction table with
  | nil =>
      intro entry member
      rw [modify, List.mem_singleton] at member
      rw [member]
      exact changed new fresh
  | cons first rest ih =>
      obtain ⟨name, value⟩ := first
      have here := all (name, value) List.mem_cons_self
      have later : ∀ entry ∈ rest, holds entry.2 :=
        fun entry member => all entry (List.mem_cons_of_mem _ member)
      intro entry member
      rw [modify] at member
      split at member
      · rcases List.mem_cons.mp member with same | behind
        · rw [same]
          exact changed value here
        · exact weaker entry.2 (later entry behind)
      · rcases List.mem_cons.mp member with same | behind
        · rw [same]
          exact weaker value here
        · exact ih later entry behind

theorem mem_of_lookup {key : κ} {value : ν} {table : List (κ × ν)}
    (found : table.lookup key = some value) : (key, value) ∈ table := by
  obtain ⟨before, after, split, _⟩ := List.lookup_eq_some_iff.mp found
  rw [split]
  simp

/-- In a table with distinct keys every entry is found. -/
theorem lookup_of_mem {key : κ} {value : ν} {table : List (κ × ν)}
    (distinct : (table.map Prod.fst).Nodup) (member : (key, value) ∈ table) :
    table.lookup key = some value := by
  induction table with
  | nil => cases member
  | cons first rest ih =>
      rw [List.map_cons, List.nodup_cons] at distinct
      rcases List.mem_cons.mp member with same | later
      · subst same
        rw [List.lookup_cons_self]
      · have different : key ≠ first.1 := by
          intro same
          exact distinct.1 (same ▸ List.mem_map_of_mem later)
        have missed : (key == first.1) = false := by simpa using different
        rw [List.lookup_cons, missed]
        exact ih distinct.2 later

/-- Tables with the same entries look up alike when the keys of one of them are distinct. -/
theorem lookup_eq_of_mem_iff {left right : List (κ × ν)}
    (distinct : (right.map Prod.fst).Nodup) (same : ∀ entry, entry ∈ left ↔ entry ∈ right)
    (key : κ) : left.lookup key = right.lookup key := by
  cases found : left.lookup key with
  | some value =>
      exact (lookup_of_mem distinct ((same _).mp (mem_of_lookup found))).symm
  | none =>
      cases other : right.lookup key with
      | none => rfl
      | some value =>
          have member := (same _).mpr (mem_of_lookup other)
          rw [List.lookup_eq_none_iff] at found
          have missed := found _ member
          simp at missed

theorem lookup_remove_self [DecidableEq κ] (key : κ) (table : List (κ × ν)) :
    (table.filter fun item => item.1 ≠ key).lookup key = none := by
  rw [List.lookup_eq_none_iff]
  intro item member
  have different : item.1 ≠ key := by simpa using (List.mem_filter.mp member).2
  simpa using Ne.symm different

theorem lookup_remove_ne [DecidableEq κ] {key other : κ} (different : key ≠ other)
    (table : List (κ × ν)) :
    (table.filter fun item => item.1 ≠ other).lookup key = table.lookup key := by
  induction table with
  | nil => rfl
  | cons item rest ih =>
      by_cases removed : item.1 = other
      · have missed : (key == item.1) = false := by
          simpa [removed] using different
        rw [List.filter_cons_of_neg (by simpa using removed), ih, List.lookup_cons, missed]
      · rw [List.filter_cons_of_pos (by simpa using removed), List.lookup_cons, List.lookup_cons, ih]

/-- In a table with distinct keys, a filter keeps or loses the entry of a key. -/
theorem lookup_filter {table : List (κ × ν)} (distinct : (table.map Prod.fst).Nodup)
    (kept : κ × ν → Bool) {key : κ} {value : ν} (found : table.lookup key = some value) :
    (table.filter kept).lookup key = if kept (key, value) then some value else none := by
  have entry := mem_of_lookup found
  by_cases stays : kept (key, value) = true
  · rw [if_pos stays]
    apply lookup_of_mem (distinct.sublist (List.filter_sublist.map _))
    exact List.mem_filter.mpr ⟨entry, stays⟩
  · rw [if_neg stays, List.lookup_eq_none_iff]
    intro item member
    have parts := List.mem_filter.mp member
    have different : key ≠ item.1 := by
      intro same
      have equal : (key, value) = item := List.inj_on_of_nodup_map distinct entry parts.1 same
      rw [equal] at stays
      exact stays parts.2
    simpa using different

theorem lookup_insert (key other : κ) (value : ν) (table : List (κ × ν)) :
    (insert key value table).lookup other =
      (table.lookup other).or (if other == key then some value else none) := by
  unfold insert
  cases found : table.lookup key with
  | some old =>
      by_cases same : other = key
      · subst same
        simp [found]
      · simp [same]
  | none =>
      dsimp only
      rw [List.lookup_append, List.lookup_cons, List.lookup_nil]
      cases other == key with
      | true => rfl
      | false => rfl

/-- An insertion of several pairs finds the first pair of each key. -/
theorem lookup_insertAll (key : κ) (pairs table : List (κ × ν)) :
    (insertAll table pairs).lookup key = (table.lookup key).or (pairs.lookup key) := by
  induction pairs generalizing table with
  | nil => simp [insertAll]
  | cons pair rest ih =>
      have first : insertAll table (pair :: rest) =
          insertAll (insert pair.1 pair.2 table) rest := rfl
      rw [first, ih, lookup_insert, Option.or_assoc, List.lookup_cons]
      cases same : key == pair.1 with
      | true => simp
      | false => simp

/-- An insertion keeps the keys apart. -/
theorem keys_insert {key : κ} {value : ν} {table : List (κ × ν)}
    (distinct : (table.map Prod.fst).Nodup) : ((insert key value table).map Prod.fst).Nodup := by
  unfold insert
  split
  · exact distinct
  · rename_i absent
    rw [List.map_append, List.map_singleton]
    apply List.Nodup.append distinct (List.nodup_singleton key)
    rw [List.disjoint_singleton]
    intro member
    obtain ⟨entry, inside, same⟩ := List.mem_map.mp member
    have different := List.lookup_eq_none_iff.mp absent entry inside
    rw [same] at different
    simp at different

theorem keys_insertAll {pairs table : List (κ × ν)} (distinct : (table.map Prod.fst).Nodup) :
    ((insertAll table pairs).map Prod.fst).Nodup := by
  induction pairs generalizing table with
  | nil => exact distinct
  | cons pair rest ih => exact ih (keys_insert distinct)

end Assoc
