import Mathlib.Data.Fintype.Pigeonhole
import Mathlib.Data.Fintype.Sets
import Mathlib.Logic.Relation
import Mif.Lib.RefCount

set_option autoImplicit false

/- Threads that give up all their pointers: this comes to an end, and leaves nothing but the
objects that cycles of members lead to. -/
namespace RefCount

/-- Pointers are dropped, and objects deleted. -/
def Action.GivesUp {τ ι : Type} : Action τ ι → Prop
  | .drop _ _ => True
  | .delete _ _ => True
  | _ => False

variable {τ ι : Type} [DecidableEq ι]

/-- Where each of finitely many nodes has a predecessor among them, each is reached from a
cycle: the way back comes to some node twice. -/
theorem reached_from_cycle {edge : ι → ι → Prop} (nodes : List ι)
    (before : ∀ node ∈ nodes, ∃ other ∈ nodes, edge other node) {node : ι}
    (member : node ∈ nodes) :
    ∃ cyclic, Relation.TransGen edge cyclic cyclic ∧ Relation.ReflTransGen edge cyclic node := by
  choose! previous inside back using before
  have stays : ∀ steps, previous^[steps] node ∈ nodes := by
    intro steps
    induction steps with
    | zero => exact member
    | succ steps ih =>
        rw [Function.iterate_succ_apply']
        exact inside _ ih
  have further : ∀ start steps,
      Relation.TransGen edge (previous^[start + (steps + 1)] node) (previous^[start] node) := by
    intro start steps
    induction steps with
    | zero =>
        rw [Nat.zero_add, Function.iterate_succ_apply']
        exact .single (back _ (stays start))
    | succ steps ih =>
        rw [← Nat.add_assoc start, Function.iterate_succ_apply']
        exact .head (back _ (stays (start + (steps + 1)))) ih
  let walk : Nat → { other // other ∈ nodes } := fun steps => ⟨previous^[steps] node, stays steps⟩
  obtain ⟨first, second, different, same⟩ := Finite.exists_ne_map_eq_of_infinite walk
  have twice : ∃ start steps,
      previous^[start + (steps + 1)] node = previous^[start] node := by
    rcases Nat.lt_or_gt_of_ne different with less | more
    · obtain ⟨steps, rest⟩ := Nat.exists_eq_add_of_lt less
      refine ⟨first, steps, ?_⟩
      rw [← Nat.add_assoc, ← rest]
      exact (congrArg Subtype.val same).symm
    · obtain ⟨steps, rest⟩ := Nat.exists_eq_add_of_lt more
      refine ⟨second, steps, ?_⟩
      rw [← Nat.add_assoc, ← rest]
      exact congrArg Subtype.val same
  obtain ⟨start, steps, same⟩ := twice
  refine ⟨previous^[start] node, ?_, ?_⟩
  · have cycle := further start steps
    rw [same] at cycle
    exact cycle
  · cases start with
    | zero => exact .refl
    | succ start =>
        have path := further 0 start
        rw [Nat.zero_add] at path
        exact path.to_reflTransGen

namespace Heap

variable [DecidableEq τ] {heap : Heap τ ι}

/-- The object has the pointer as a member. -/
def Owns (heap : Heap τ ι) (owner name : ι) : Prop :=
  ∃ cell, heap.cells.lookup owner = some cell ∧ name ∈ cell.members

/-- The members lead to the object from a cycle of objects. -/
def Cyclic (heap : Heap τ ι) (name : ι) : Prop :=
  ∃ cycle, Relation.TransGen heap.Owns cycle cycle ∧ Relation.ReflTransGen heap.Owns cycle name

omit [DecidableEq τ] in
theorem owned_pointer {owner name : ι} (owns : heap.Owns owner name) : name ∈ heap.pointers := by
  obtain ⟨cell, found, member⟩ := owns
  exact List.mem_append_right _ (count_inner_pos found member)

omit [DecidableEq τ] in
theorem cyclic_pointer {name : ι} (cyclic : heap.Cyclic name) : name ∈ heap.pointers := by
  obtain ⟨cycle, around, path⟩ := cyclic
  have whole := around.trans_left path
  obtain ⟨owner, _, owns⟩ := Relation.TransGen.tail'_iff.mp whole
  exact owned_pointer owns

omit [DecidableEq τ] in
/-- With all pointers given up, the objects that are left are those that cycles lead to. -/
theorem Counted.left_iff_cyclic (counted : heap.Counted) (free : heap.held = [])
    (settled : heap.doomed = []) (name : ι) :
    (∃ cell, heap.cells.lookup name = some cell) ↔ heap.Cyclic name := by
  constructor
  · rintro ⟨cell, found⟩
    apply reached_from_cycle (heap.cells.map Prod.fst)
    · intro node member
      obtain ⟨cell, found⟩ := lookup_of_key.mp member
      have positive : cell.counter ≠ 0 := by
        intro zero
        have doomed := (counted.doomed_iff node).mpr ⟨cell, found, zero⟩
        rw [settled] at doomed
        cases doomed
      rw [counted.exact node cell found] at positive
      have pointer := List.count_pos_iff.mp (Nat.pos_of_ne_zero positive)
      rw [pointers, free] at pointer
      obtain ⟨entry, inside, owned⟩ := List.mem_flatMap.mp pointer
      refine ⟨entry.1, List.mem_map_of_mem inside, entry.2, ?_, owned⟩
      exact Assoc.lookup_of_mem counted.distinct inside
    · exact lookup_of_key.mpr ⟨cell, found⟩
  · intro cyclic
    exact counted.known name (cyclic_pointer cyclic)

/-- What is still to be done before no thread has anything left: a pointer is dropped, and
then an object may have to be deleted. -/
def work (heap : Heap τ ι) : Nat :=
  2 * heap.pointers.length + heap.doomed.length

/-- The members of objects that are not deleted stay as they are. -/
theorem giveUp_members (counted : heap.Counted) {action : Action τ ι} {next : Heap τ ι}
    (gives : action.GivesUp) (taken : heap.step action = some next) (name : ι) :
    (∀ cell, next.cells.lookup name = some cell →
      ∃ before, heap.cells.lookup name = some before ∧ before.members = cell.members) ∧
    (∀ cell, heap.cells.lookup name = some cell → name ∈ heap.pointers →
      ∃ after, next.cells.lookup name = some after ∧ after.members = cell.members) := by
  cases action with
  | drop thread dropped =>
      simp only [step] at taken
      split at taken
      · rename_i held
        obtain ⟨cell, found, positive⟩ := counted.alive (mem_pointers held)
        rw [release_known found positive] at taken
        cases taken
        dsimp only
        rw [lookup_adjust]
        split
        · constructor
          · intro after found'
            obtain ⟨before, there, same⟩ := Option.map_eq_some_iff.mp found'
            exact ⟨before, there, same ▸ rfl⟩
          · intro before there _
            exact ⟨before.released, by rw [there]; rfl, rfl⟩
        · exact ⟨fun cell found => ⟨cell, found, rfl⟩, fun cell found _ => ⟨cell, found, rfl⟩⟩
      · cases taken
  | delete thread removed =>
      simp only [step] at taken
      split at taken
      · rename_i doomed
        obtain ⟨cell, found, _⟩ := (counted.doomed_iff removed).mp (List.mem_map_of_mem doomed)
        rw [found] at taken
        cases taken
        dsimp only
        by_cases same : name = removed
        · subst same
          rw [Assoc.lookup_remove_self]
          constructor
          · intro cell impossible
            cases impossible
          · intro cell _ pointer
            exact absurd pointer (counted.unknown_of_doomed doomed)
        · rw [Assoc.lookup_remove_ne same]
          exact ⟨fun cell found => ⟨cell, found, rfl⟩, fun cell found _ => ⟨cell, found, rfl⟩⟩
      · cases taken
  | create => exact absurd gives id
  | copy => exact absurd gives id
  | share => exact absurd gives id
  | store => exact absurd gives id
  | take => exact absurd gives id

/-- Giving up pointers leaves the cycles as they are. -/
theorem giveUp_cyclic (counted : heap.Counted) {action : Action τ ι} {next : Heap τ ι}
    (gives : action.GivesUp) (taken : heap.step action = some next) (name : ι) :
    next.Cyclic name ↔ heap.Cyclic name := by
  have members := giveUp_members counted gives taken
  have earlier : ∀ owner other, next.Owns owner other → heap.Owns owner other := by
    intro owner other owns
    obtain ⟨cell, found, member⟩ := owns
    obtain ⟨before, there, same⟩ := (members owner).1 cell found
    exact ⟨before, there, same ▸ member⟩
  have later : ∀ owner other, owner ∈ heap.pointers → heap.Owns owner other →
      next.Owns owner other := by
    intro owner other pointer owns
    obtain ⟨cell, found, member⟩ := owns
    obtain ⟨after, there, same⟩ := (members owner).2 cell found pointer
    exact ⟨after, there, same ▸ member⟩
  -- behind an object that is a member of another one, all are members
  have paths : ∀ first last, first ∈ heap.pointers →
      Relation.ReflTransGen heap.Owns first last → Relation.ReflTransGen next.Owns first last := by
    intro first last pointer path
    induction path with
    | refl => exact .refl
    | @tail middle last path owns ih =>
        have between : middle ∈ heap.pointers := by
          rcases Relation.ReflTransGen.cases_tail path with same | ⟨owner, _, owned⟩
          · exact same ▸ pointer
          · exact owned_pointer owned
        exact ih.tail (later middle last between owns)
  constructor
  · rintro ⟨cycle, around, path⟩
    exact ⟨cycle, Relation.TransGen.mono earlier _ _ around,
      Relation.ReflTransGen.mono earlier _ _ path⟩
  · rintro ⟨cycle, around, path⟩
    have pointer : cycle ∈ heap.pointers := cyclic_pointer ⟨cycle, around, .refl⟩
    obtain ⟨owner, way, owns⟩ := Relation.TransGen.tail'_iff.mp around
    have between : owner ∈ heap.pointers := by
      rcases Relation.ReflTransGen.cases_tail way with same | ⟨other, _, owned⟩
      · exact same ▸ pointer
      · exact owned_pointer owned
    refine ⟨cycle, ?_, paths cycle name pointer path⟩
    exact Relation.TransGen.tail' (paths cycle owner pointer way) (later owner cycle between owns)

/-- Every pointer that is given up, and every object that is deleted, is work done. -/
theorem giveUp_work (counted : heap.Counted) {action : Action τ ι} {next : Heap τ ι}
    (gives : action.GivesUp) (taken : heap.step action = some next) :
    next.work + 1 ≤ heap.work := by
  cases action with
  | drop thread dropped =>
      simp only [step] at taken
      split at taken
      · rename_i held
        obtain ⟨cell, found, positive⟩ := counted.alive (mem_pointers held)
        rw [release_known found positive] at taken
        cases taken
        have fewer := List.length_erase_of_mem held
        have some_held := List.length_pos_of_mem held
        simp only [work, pointers, inner_adjust dropped Cell.released_members, List.length_append,
          List.length_map]
        split
        · rw [List.length_cons]
          omega
        · omega
      · cases taken
  | delete thread removed =>
      simp only [step] at taken
      split at taken
      · rename_i doomed
        obtain ⟨cell, found, _⟩ := (counted.doomed_iff removed).mp (List.mem_map_of_mem doomed)
        rw [found] at taken
        cases taken
        have same := (List.perm_iff_count.mpr
          (count_deleted counted.distinct thread found)).length_eq
        have fewer := List.length_erase_of_mem doomed
        have some_doomed := List.length_pos_of_mem doomed
        simp only [work, pointers] at same ⊢
        omega
      · cases taken
  | create => exact absurd gives id
  | copy => exact absurd gives id
  | share => exact absurd gives id
  | store => exact absurd gives id
  | take => exact absurd gives id

/-- Threads that only give up what they have come to an end, in any order. -/
theorem giveUp_run (counted : heap.Counted) {actions : List (Action τ ι)} {last : Heap τ ι}
    (gives : ∀ action ∈ actions, action.GivesUp)
    (reached : Transition.run step heap actions = some last) :
    actions.length + last.work ≤ heap.work ∧ ∀ name, last.Cyclic name ↔ heap.Cyclic name := by
  induction actions generalizing heap with
  | nil =>
      cases reached
      simp
  | cons action rest ih =>
      obtain ⟨next, taken, later⟩ :=
        (Transition.run_cons_eq_some step heap last action rest).mp reached
      have first := gives action List.mem_cons_self
      have done := giveUp_work counted first taken
      have same := giveUp_cyclic counted first taken
      have others := ih (step_counted counted taken)
        (fun other member => gives other (List.mem_cons_of_mem _ member)) later
      constructor
      · rw [List.length_cons]
        have bound := others.1
        omega
      · intro name
        rw [others.2 name, same name]

/-- A thread that has something left can go on. -/
theorem giveUp_enabled (counted : heap.Counted) (left : heap.held ≠ [] ∨ heap.doomed ≠ []) :
    ∃ action : Action τ ι, action.GivesUp ∧ (heap.step action).isSome := by
  rcases left with held | doomed
  · obtain ⟨⟨thread, name⟩, member⟩ := List.exists_mem_of_ne_nil _ held
    exact ⟨.drop thread name, trivial, by simp [step, member]⟩
  · obtain ⟨⟨thread, name⟩, member⟩ := List.exists_mem_of_ne_nil _ doomed
    obtain ⟨cell, found, _⟩ := (counted.doomed_iff name).mp (List.mem_map_of_mem member)
    exact ⟨.delete thread name, trivial, by simp [step, member, found]⟩

end Heap

end RefCount
