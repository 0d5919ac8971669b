import Mathlib.Data.List.Perm.Subperm
import Mathlib.Data.List.Perm.Basic
import Mif.Lib.Assoc
import Mif.Lib.Transition

set_option autoImplicit false

/- Objects with counters of the pointers to them, used by several threads. Raising a
counter, lowering it and deleting an object are steps, which come in any order. -/
namespace RefCount

/-- An object: its counter, and the pointers it has as members. -/
structure Cell (ι : Type) where
  counter : Nat
  members : List ι
  deriving DecidableEq, Repr

/-- The objects, the pointers outside of them with the threads that have them, the objects
whose counter came to zero with the threads that delete them, and the deleted ones.
`broken` says that a counter was touched that is not there or is zero. -/
structure Heap (τ ι : Type) where
  cells : List (ι × Cell ι)
  held : List (τ × ι)
  doomed : List (τ × ι)
  deleted : List ι
  broken : Bool
  deriving DecidableEq, Repr

/-- What a thread does: it creates an object and hands pointers over to it, copies a pointer
at the end of a path of members or one that another thread has, drops a pointer, deletes an
object, or moves a pointer into an object or out of it. -/
inductive Action (τ ι : Type)
  | create (thread : τ) (name : ι) (members : List ι)
  | copy (thread : τ) (first : ι) (path : List ι)
  | share (thread source : τ) (name : ι)
  | drop (thread : τ) (name : ι)
  | delete (thread : τ) (name : ι)
  | store (thread : τ) (owner name : ι)
  | take (thread : τ) (owner name : ι)
  deriving DecidableEq, Repr

namespace Cell

variable {ι : Type}

def retained (cell : Cell ι) : Cell ι := { cell with counter := cell.counter + 1 }

def released (cell : Cell ι) : Cell ι := { cell with counter := cell.counter - 1 }

def stored (name : ι) (cell : Cell ι) : Cell ι := { cell with members := cell.members ++ [name] }

def taken [DecidableEq ι] (name : ι) (cell : Cell ι) : Cell ι :=
  { cell with members := cell.members.erase name }

variable (cell : Cell ι)

@[simp] theorem retained_counter : cell.retained.counter = cell.counter + 1 := rfl

@[simp] theorem retained_members : cell.retained.members = cell.members := rfl

@[simp] theorem released_counter : cell.released.counter = cell.counter - 1 := rfl

@[simp] theorem released_members : cell.released.members = cell.members := rfl

@[simp] theorem stored_counter (name : ι) : (cell.stored name).counter = cell.counter := rfl

@[simp] theorem taken_counter [DecidableEq ι] (name : ι) :
    (cell.taken name).counter = cell.counter := rfl

theorem count_stored [DecidableEq ι] (name wanted : ι) :
    (cell.stored name).members.count wanted =
      cell.members.count wanted + [name].count wanted :=
  List.count_append

theorem count_taken [DecidableEq ι] {name : ι} (member : name ∈ cell.members) (wanted : ι) :
    (cell.taken name).members.count wanted + [name].count wanted =
      cell.members.count wanted := by
  have split := (List.perm_cons_erase member).count_eq wanted
  rw [← List.singleton_append, List.count_append] at split
  have same : (cell.taken name).members = cell.members.erase name := rfl
  rw [same]
  omega

end Cell

variable {τ ι : Type} [DecidableEq ι]

def adjust (name : ι) (change : Cell ι → Cell ι) (cells : List (ι × Cell ι)) :
    List (ι × Cell ι) :=
  cells.map fun entry => if entry.1 = name then (entry.1, change entry.2) else entry

/-- The members of all objects. -/
def inner (cells : List (ι × Cell ι)) : List ι :=
  cells.flatMap fun entry => entry.2.members

/-- Where a path of members leads. -/
def follow (cells : List (ι × Cell ι)) : ι → List ι → Option ι
  | first, [] => some first
  | first, next :: path =>
      match cells.lookup first with
      | none => none
      | some cell => if next ∈ cell.members then follow cells next path else none

@[simp] theorem keys_adjust (name : ι) (change : Cell ι → Cell ι) (cells : List (ι × Cell ι)) :
    (adjust name change cells).map Prod.fst = cells.map Prod.fst := by
  rw [adjust, List.map_map]
  apply List.map_congr_left
  intro entry _
  dsimp only [Function.comp_apply]
  split <;> rfl

theorem lookup_adjust (name other : ι) (change : Cell ι → Cell ι) (cells : List (ι × Cell ι)) :
    (adjust name change cells).lookup other =
      if other = name then (cells.lookup other).map change else cells.lookup other := by
  induction cells with
  | nil => simp [adjust]
  | cons entry rest ih =>
      obtain ⟨key, cell⟩ := entry
      have first : adjust name change ((key, cell) :: rest) =
          (key, if key = name then change cell else cell) :: adjust name change rest := by
        rw [adjust, List.map_cons]
        congr 1
        dsimp only
        split <;> rfl
      rw [first, List.lookup_cons, List.lookup_cons, ih]
      by_cases found : other = key
      · subst found
        by_cases same : other = name <;> simp [same]
      · have missed : (other == key) = false := by simpa using found
        rw [missed]

/-- A change of the counter leaves the members alone. -/
theorem inner_adjust (name : ι) {change : Cell ι → Cell ι}
    (same : ∀ cell, (change cell).members = cell.members) (cells : List (ι × Cell ι)) :
    inner (adjust name change cells) = inner cells := by
  rw [inner, inner, adjust, List.flatMap_map]
  congr 1
  funext entry
  split
  · exact same entry.2
  · rfl

omit [DecidableEq ι] in
theorem inner_cons (entry : ι × Cell ι) (cells : List (ι × Cell ι)) :
    inner (entry :: cells) = entry.2.members ++ inner cells := rfl

theorem adjust_absent {name : ι} {change : Cell ι → Cell ι} {cells : List (ι × Cell ι)}
    (absent : name ∉ cells.map Prod.fst) : adjust name change cells = cells := by
  rw [adjust]
  conv_rhs => rw [← List.map_id cells]
  apply List.map_congr_left
  intro entry member
  have different : entry.1 ≠ name := by
    intro same
    exact absent (same ▸ List.mem_map_of_mem member)
  rw [if_neg different, id]

/-- The members of an object are taken off the members of all, and the changed ones put in. -/
theorem count_inner_adjust {name : ι} {cell : Cell ι} (change : Cell ι → Cell ι)
    {cells : List (ι × Cell ι)} (distinct : (cells.map Prod.fst).Nodup)
    (found : cells.lookup name = some cell) (wanted : ι) :
    (inner (adjust name change cells)).count wanted + cell.members.count wanted =
      (inner cells).count wanted + (change cell).members.count wanted := by
  induction cells with
  | nil => cases found
  | cons entry rest ih =>
      rw [List.map_cons, List.nodup_cons] at distinct
      have first : adjust name change (entry :: rest) =
          (if entry.1 = name then (entry.1, change entry.2) else entry) ::
            adjust name change rest := rfl
      rw [List.lookup_cons] at found
      by_cases same : entry.1 = name
      · subst same
        have here : entry.2 = cell := by simpa using found
        rw [first, adjust_absent distinct.1, if_pos rfl, inner_cons, inner_cons, List.count_append,
          List.count_append, here]
        dsimp only
        omega
      · have missed : (name == entry.1) = false := by simpa using Ne.symm same
        rw [missed] at found
        have later := ih distinct.2 found
        rw [first, if_neg same, inner_cons, inner_cons, List.count_append, List.count_append]
        omega

/-- An object that is deleted takes its members along. -/
theorem count_inner_remove {name : ι} {cell : Cell ι} {cells : List (ι × Cell ι)}
    (distinct : (cells.map Prod.fst).Nodup) (found : cells.lookup name = some cell)
    (wanted : ι) :
    (inner (cells.filter fun entry => entry.1 ≠ name)).count wanted + cell.members.count wanted =
      (inner cells).count wanted := by
  induction cells with
  | nil => cases found
  | cons entry rest ih =>
      rw [List.map_cons, List.nodup_cons] at distinct
      rw [List.lookup_cons] at found
      by_cases same : entry.1 = name
      · subst same
        have here : entry.2 = cell := by simpa using found
        have others : (rest.filter fun other => other.1 ≠ entry.1) = rest := by
          apply List.filter_eq_self.mpr
          intro other member
          have different : other.1 ≠ entry.1 := by
            intro same
            exact distinct.1 (same ▸ List.mem_map_of_mem member)
          simpa using different
        rw [List.filter_cons_of_neg (by simp), others, inner_cons, List.count_append, here]
        omega
      · have missed : (name == entry.1) = false := by simpa using Ne.symm same
        rw [missed] at found
        have later := ih distinct.2 found
        rw [List.filter_cons_of_pos (by simpa using same), inner_cons, inner_cons,
          List.count_append, List.count_append]
        omega

theorem count_inner_pos {name wanted : ι} {cell : Cell ι} {cells : List (ι × Cell ι)}
    (found : cells.lookup name = some cell) (member : wanted ∈ cell.members) :
    wanted ∈ inner cells :=
  List.mem_flatMap.mpr ⟨(name, cell), Assoc.mem_of_lookup found, member⟩

theorem lookup_of_key {name : ι} {cells : List (ι × Cell ι)} :
    name ∈ cells.map Prod.fst ↔ ∃ cell, cells.lookup name = some cell := by
  constructor
  · intro key
    cases found : cells.lookup name with
    | some cell => exact ⟨cell, rfl⟩
    | none =>
        obtain ⟨entry, member, same⟩ := List.mem_map.mp key
        have missed := List.lookup_eq_none_iff.mp found entry member
        simp [same] at missed
  · rintro ⟨cell, found⟩
    exact List.mem_map_of_mem (Assoc.mem_of_lookup found)

/-- What a path leads to is where it begins, or a member of an object. -/
theorem mem_of_follow {cells : List (ι × Cell ι)} {first last : ι} {path : List ι}
    (leads : follow cells first path = some last) : last = first ∨ last ∈ inner cells := by
  induction path generalizing first with
  | nil => exact .inl (Option.some.inj leads).symm
  | cons next path ih =>
      unfold follow at leads
      split at leads
      · cases leads
      · rename_i cell found
        split at leads
        · rename_i member
          rcases ih leads with same | inside
          · exact .inr (same ▸ count_inner_pos found member)
          · exact .inr inside
        · cases leads

namespace Heap

def empty : Heap τ ι := ⟨[], [], [], [], false⟩

/-- All pointers there are. -/
def pointers (heap : Heap τ ι) : List ι :=
  heap.held.map Prod.snd ++ inner heap.cells

def retain (heap : Heap τ ι) (name : ι) : Heap τ ι :=
  match heap.cells.lookup name with
  | none => { heap with broken := true }
  | some cell =>
      if cell.counter = 0 then { heap with broken := true }
      else { heap with cells := adjust name Cell.retained heap.cells }

/-- The thread that brings a counter to zero deletes the object. -/
def release (heap : Heap τ ι) (thread : τ) (name : ι) : Heap τ ι :=
  match heap.cells.lookup name with
  | none => { heap with broken := true }
  | some cell =>
      if cell.counter = 0 then { heap with broken := true }
      else
        { heap with
          cells := adjust name Cell.released heap.cells
          doomed := if cell.counter = 1 then (thread, name) :: heap.doomed else heap.doomed }

theorem retain_names (heap : Heap τ ι) (name : ι) :
    (heap.retain name).cells.map Prod.fst = heap.cells.map Prod.fst ∧
      (heap.retain name).deleted = heap.deleted := by
  unfold retain
  split
  · exact ⟨rfl, rfl⟩
  · split
    · exact ⟨rfl, rfl⟩
    · exact ⟨keys_adjust name _ heap.cells, rfl⟩

theorem release_names (heap : Heap τ ι) (thread : τ) (name : ι) :
    (heap.release thread name).cells.map Prod.fst = heap.cells.map Prod.fst ∧
      (heap.release thread name).deleted = heap.deleted := by
  unfold release
  split
  · exact ⟨rfl, rfl⟩
  · split
    · exact ⟨rfl, rfl⟩
    · exact ⟨keys_adjust name _ heap.cells, rfl⟩

theorem retain_doomed (heap : Heap τ ι) (name : ι) :
    (heap.retain name).doomed = heap.doomed := by
  unfold retain
  split
  · rfl
  · split <;> rfl

theorem release_doomed (heap : Heap τ ι) (thread : τ) (name : ι) :
    (heap.release thread name).doomed = heap.doomed ∨
      (heap.release thread name).doomed = (thread, name) :: heap.doomed := by
  unfold release
  split
  · exact .inl rfl
  · split
    · exact .inl rfl
    · dsimp only
      split
      · exact .inr rfl
      · exact .inl rfl

/-- The objects with their members, without their counters. -/
def shape (heap : Heap τ ι) : List (ι × List ι) :=
  heap.cells.map fun entry => (entry.1, entry.2.members)

theorem shape_adjust (name : ι) {change : Cell ι → Cell ι}
    (same : ∀ cell, (change cell).members = cell.members) (cells : List (ι × Cell ι)) :
    ((adjust name change cells).map fun entry => (entry.1, entry.2.members)) =
      cells.map fun entry => (entry.1, entry.2.members) := by
  rw [adjust, List.map_map]
  apply List.map_congr_left
  intro entry _
  dsimp only [Function.comp_apply]
  split
  · rw [same]
  · rfl

theorem retain_shape (heap : Heap τ ι) (name : ι) : (heap.retain name).shape = heap.shape := by
  unfold retain
  split
  · rfl
  · split
    · rfl
    · exact shape_adjust name Cell.retained_members heap.cells

theorem release_shape (heap : Heap τ ι) (thread : τ) (name : ι) :
    (heap.release thread name).shape = heap.shape := by
  unfold release
  split
  · rfl
  · split
    · rfl
    · exact shape_adjust name Cell.released_members heap.cells

variable [DecidableEq τ]

/-- A thread uses the pointers it has, and objects it has a pointer to. The members of an
object that is deleted are dropped by the thread that deletes it. -/
def step (heap : Heap τ ι) : Action τ ι → Option (Heap τ ι)
  | .create thread name members =>
      if name ∉ heap.cells.map Prod.fst ∧ name ∉ heap.deleted ∧
          (members.map fun member => (thread, member)).Subperm heap.held then
        some
          { heap with
            cells := (name, ⟨1, members⟩) :: heap.cells
            held := (thread, name) ::
              heap.held.diff (members.map fun member => (thread, member)) }
      else none
  | .copy thread first path =>
      if (thread, first) ∈ heap.held then
        (follow heap.cells first path).map fun name =>
          { heap.retain name with held := (thread, name) :: heap.held }
      else none
  | .share thread source name =>
      if (source, name) ∈ heap.held then
        some { heap.retain name with held := (thread, name) :: heap.held }
      else none
  | .drop thread name =>
      if (thread, name) ∈ heap.held then
        some { heap.release thread name with held := heap.held.erase (thread, name) }
      else none
  | .delete thread name =>
      if (thread, name) ∈ heap.doomed then
        match heap.cells.lookup name with
        | none => some { heap with broken := true }
        | some cell =>
            some
              { heap with
                cells := heap.cells.filter fun entry => entry.1 ≠ name
                held := (cell.members.map fun member => (thread, member)) ++ heap.held
                doomed := heap.doomed.erase (thread, name)
                deleted := name :: heap.deleted }
      else none
  | .store thread owner name =>
      if (thread, name) ∈ heap.held ∧ (thread, owner) ∈ heap.held.erase (thread, name) then
        match heap.cells.lookup owner with
        | none => some { heap with broken := true }
        | some _ =>
            some
              { heap with
                cells := adjust owner (Cell.stored name) heap.cells
                held := heap.held.erase (thread, name) }
      else none
  | .take thread owner name =>
      if (thread, owner) ∈ heap.held then
        match heap.cells.lookup owner with
        | none => some { heap with broken := true }
        | some cell =>
            if name ∈ cell.members then
              some
                { heap with
                  cells := adjust owner (Cell.taken name) heap.cells
                  held := (thread, name) :: heap.held }
            else none
      else none

omit [DecidableEq τ] in
theorem retain_known {heap : Heap τ ι} {name : ι} {cell : Cell ι}
    (found : heap.cells.lookup name = some cell) (positive : 0 < cell.counter) :
    heap.retain name =
      { heap with cells := adjust name Cell.retained heap.cells } := by
  rw [retain, found]
  dsimp only
  rw [if_neg (by omega)]

omit [DecidableEq τ] in
theorem release_known {heap : Heap τ ι} {thread : τ} {name : ι} {cell : Cell ι}
    (found : heap.cells.lookup name = some cell) (positive : 0 < cell.counter) :
    heap.release thread name =
      { heap with
        cells := adjust name Cell.released heap.cells
        doomed := if cell.counter = 1 then (thread, name) :: heap.doomed else heap.doomed } := by
  rw [release, found]
  dsimp only
  rw [if_neg (by omega)]

/-- Every counter is the number of pointers to its object, there is no pointer to an object
that is gone, and an object is about to be deleted, by one thread, when its counter is zero. -/
structure Counted (heap : Heap τ ι) : Prop where
  sound : heap.broken = false
  distinct : (heap.cells.map Prod.fst).Nodup
  exact : ∀ name cell, heap.cells.lookup name = some cell →
    cell.counter = heap.pointers.count name
  known : ∀ name ∈ heap.pointers, ∃ cell, heap.cells.lookup name = some cell
  doomed_iff : ∀ name, name ∈ heap.doomed.map Prod.snd ↔
    ∃ cell, heap.cells.lookup name = some cell ∧ cell.counter = 0
  doomed_once : (heap.doomed.map Prod.snd).Nodup
  gone : ∀ name ∈ heap.deleted, heap.cells.lookup name = none
  gone_once : heap.deleted.Nodup

omit [DecidableEq τ] in
theorem empty_counted : (empty : Heap τ ι).Counted := by
  constructor <;> simp [empty, pointers, inner]

variable {heap : Heap τ ι}

omit [DecidableEq τ] in
/-- The object of a pointer is there, and its counter is not zero. -/
theorem Counted.alive (counted : heap.Counted) {name : ι} (pointer : name ∈ heap.pointers) :
    ∃ cell, heap.cells.lookup name = some cell ∧ 0 < cell.counter := by
  obtain ⟨cell, found⟩ := counted.known name pointer
  refine ⟨cell, found, ?_⟩
  rw [counted.exact name cell found]
  exact List.count_pos_iff.mpr pointer

omit [DecidableEq τ] [DecidableEq ι] in
theorem mem_pointers {thread : τ} {name : ι} (held : (thread, name) ∈ heap.held) :
    name ∈ heap.pointers :=
  List.mem_append_left _ (List.mem_map_of_mem held)

omit [DecidableEq τ] in
theorem follow_pointer {thread : τ} {first last : ι} {path : List ι}
    (held : (thread, first) ∈ heap.held) (leads : follow heap.cells first path = some last) :
    last ∈ heap.pointers := by
  rcases mem_of_follow leads with here | inside
  · exact here ▸ mem_pointers held
  · exact List.mem_append_right _ inside

/-- One pointer of a thread less. -/
theorem count_erase {thread : τ} {name : ι} {held : List (τ × ι)} (member : (thread, name) ∈ held)
    (wanted : ι) :
    ((held.erase (thread, name)).map Prod.snd).count wanted + [name].count wanted =
      (held.map Prod.snd).count wanted := by
  have split := ((List.perm_cons_erase member).map Prod.snd).count_eq wanted
  rw [List.map_cons, ← List.singleton_append, List.count_append] at split
  dsimp only at split
  omega

omit [DecidableEq τ] in
/-- One object is changed, and the number of pointers to it as its counter. -/
theorem Counted.adjusted (counted : heap.Counted) {name : ι} {cell : Cell ι}
    (found : heap.cells.lookup name = some cell) (change : Cell ι → Cell ι)
    (held doomed : List (τ × ι))
    (balanced : ∀ wanted,
      (held.map Prod.snd ++ inner (adjust name change heap.cells)).count wanted +
          (if wanted = name then cell.counter else 0) =
        heap.pointers.count wanted + (if wanted = name then (change cell).counter else 0))
    (leaves : ∀ other, other ∈ doomed.map Prod.snd ↔
      if other = name then (change cell).counter = 0 else other ∈ heap.doomed.map Prod.snd)
    (once : (doomed.map Prod.snd).Nodup) :
    Counted
      { heap with cells := adjust name change heap.cells, held := held, doomed := doomed } := by
  constructor
  case sound => exact counted.sound
  case distinct => simpa using counted.distinct
  case exact =>
    intro other cell' found'
    have count := balanced other
    change cell'.counter =
      (held.map Prod.snd ++ inner (adjust name change heap.cells)).count other
    rw [lookup_adjust] at found'
    by_cases same : other = name
    · subst same
      rw [if_pos rfl, found] at found'
      have equal := Option.some.inj found'
      have before := counted.exact other cell found
      rw [if_pos rfl, if_pos rfl] at count
      rw [← equal]
      omega
    · rw [if_neg same] at found' count
      have before := counted.exact other cell' found'
      rw [if_neg same] at count
      omega
  case known =>
    intro other member
    change other ∈ held.map Prod.snd ++ inner (adjust name change heap.cells) at member
    have there : ∃ cell', heap.cells.lookup other = some cell' := by
      by_cases same : other = name
      · exact ⟨cell, same ▸ found⟩
      · have count := balanced other
        have positive := List.count_pos_iff.mpr member
        rw [if_neg same, if_neg same] at count
        exact counted.known other (List.count_pos_iff.mp (by omega))
    obtain ⟨cell', found'⟩ := there
    rw [lookup_adjust, found']
    split <;> exact ⟨_, rfl⟩
  case doomed_iff =>
    intro other
    rw [leaves other, lookup_adjust]
    split
    · rename_i same
      rw [same, found]
      simp
    · exact counted.doomed_iff other
  case doomed_once => exact once
  case gone =>
    intro other member
    have nothing := counted.gone other member
    rw [lookup_adjust, nothing]
    split <;> rfl
  case gone_once => exact counted.gone_once

omit [DecidableEq τ] in
/-- The doomed objects are the same when the counter stays zero or not. -/
theorem Counted.leaves_same (counted : heap.Counted) {name : ι} {cell : Cell ι}
    (found : heap.cells.lookup name = some cell) {counter : Nat}
    (same : counter = 0 ↔ cell.counter = 0) (other : ι) :
    other ∈ heap.doomed.map Prod.snd ↔
      if other = name then counter = 0 else other ∈ heap.doomed.map Prod.snd := by
  split
  · rename_i here
    rw [here, counted.doomed_iff, same, found]
    simp
  · exact Iff.rfl

omit [DecidableEq τ] in
theorem copy_counted (counted : heap.Counted) {thread : τ} {name : ι}
    (pointer : name ∈ heap.pointers) :
    Counted { heap.retain name with held := (thread, name) :: heap.held } := by
  obtain ⟨cell, found, positive⟩ := counted.alive pointer
  rw [retain_known found positive]
  apply counted.adjusted found Cell.retained
    ((thread, name) :: heap.held) heap.doomed
  · intro wanted
    rw [inner_adjust name Cell.retained_members, List.map_cons, List.cons_append, List.count_cons, pointers]
    by_cases same : wanted = name
    · subst same
      simp only [beq_self_eq_true, if_true, Cell.retained_counter]
      omega
    · have missed : (name == wanted) = false := by simpa using Ne.symm same
      simp only [missed, same, if_false, Bool.false_eq_true]
  · apply counted.leaves_same found
    rw [Cell.retained_counter]
    omega
  · exact counted.doomed_once

theorem drop_counted (counted : heap.Counted) {thread : τ} {name : ι}
    (held : (thread, name) ∈ heap.held) :
    Counted { heap.release thread name with held := heap.held.erase (thread, name) } := by
  obtain ⟨cell, found, positive⟩ := counted.alive (mem_pointers held)
  have absent : name ∉ heap.doomed.map Prod.snd := by
    rw [counted.doomed_iff, found]
    simpa using by omega
  rw [release_known found positive]
  apply counted.adjusted found Cell.released
    (heap.held.erase (thread, name))
    (if cell.counter = 1 then (thread, name) :: heap.doomed else heap.doomed)
  · intro wanted
    have fewer := count_erase held wanted
    rw [inner_adjust name Cell.released_members, List.count_append, pointers, List.count_append]
    by_cases same : wanted = name
    · subst same
      rw [List.count_singleton_self] at fewer
      rw [if_pos rfl, if_pos rfl, Cell.released_counter]
      omega
    · have missed : [name].count wanted = 0 := List.count_eq_zero.mpr (by simpa using same)
      rw [if_neg same, if_neg same]
      omega
  · intro other
    rw [Cell.released_counter]
    by_cases last : cell.counter = 1
    · rw [if_pos last, List.map_cons, List.mem_cons]
      split
      · rename_i same
        simp [same, last]
      · rename_i different
        simp [different]
    · rw [if_neg last]
      split
      · rename_i same
        rw [same]
        have more : ¬cell.counter - 1 = 0 := by omega
        simp only [absent, more]
      · exact Iff.rfl
  · split
    · rw [List.map_cons, List.nodup_cons]
      exact ⟨absent, counted.doomed_once⟩
    · exact counted.doomed_once

theorem store_counted (counted : heap.Counted) {thread : τ} {owner name : ι} {cell : Cell ι}
    (held : (thread, name) ∈ heap.held) (found : heap.cells.lookup owner = some cell) :
    Counted
      { heap with
        cells := adjust owner (Cell.stored name) heap.cells
        held := heap.held.erase (thread, name) } := by
  apply counted.adjusted found (Cell.stored name) (heap.held.erase (thread, name)) heap.doomed
  · intro wanted
    have fewer := count_erase held wanted
    have more := count_inner_adjust (Cell.stored name) counted.distinct found wanted
    rw [Cell.count_stored] at more
    rw [List.count_append, pointers, List.count_append, Cell.stored_counter]
    omega
  · exact counted.leaves_same found Iff.rfl
  · exact counted.doomed_once

omit [DecidableEq τ] in
theorem take_counted (counted : heap.Counted) {thread : τ} {owner name : ι} {cell : Cell ι}
    (found : heap.cells.lookup owner = some cell) (member : name ∈ cell.members) :
    Counted
      { heap with
        cells := adjust owner (Cell.taken name) heap.cells
        held := (thread, name) :: heap.held } := by
  apply counted.adjusted found (Cell.taken name) ((thread, name) :: heap.held) heap.doomed
  · intro wanted
    have more := count_inner_adjust (Cell.taken name) counted.distinct found wanted
    have fewer := cell.count_taken member wanted
    rw [List.map_cons, ← List.singleton_append, List.count_append, List.count_append, pointers,
      List.count_append, Cell.taken_counter]
    dsimp only
    omega
  · exact counted.leaves_same found Iff.rfl
  · exact counted.doomed_once

/-- Pointers that are moved out of a thread's hands. -/
theorem count_diff {thread : τ} {members : List ι} {held : List (τ × ι)}
    (enough : (members.map fun member => (thread, member)).Subperm held) (wanted : ι) :
    ((held.diff (members.map fun member => (thread, member))).map Prod.snd).count wanted +
        members.count wanted = (held.map Prod.snd).count wanted := by
  have whole := (List.subperm_append_diff_self_of_count_le
    (List.subperm_ext_iff.mp enough)).map Prod.snd
  have count := whole.count_eq wanted
  have names : (members.map fun member => (thread, member)).map Prod.snd = members := by
    rw [List.map_map]
    exact List.map_id members
  rw [List.map_append, List.count_append, names] at count
  omega

/-- A new object has a new name, and one pointer to it. -/
theorem create_counted (counted : heap.Counted) {thread : τ} {name : ι} {members : List ι}
    (fresh : name ∉ heap.cells.map Prod.fst) (unused : name ∉ heap.deleted)
    (enough : (members.map fun member => (thread, member)).Subperm heap.held) :
    Counted
      { heap with
        cells := (name, ⟨1, members⟩) :: heap.cells
        held := (thread, name) ::
          heap.held.diff (members.map fun member => (thread, member)) } := by
  have absent : heap.cells.lookup name = none := by
    cases found : heap.cells.lookup name with
    | none => rfl
    | some cell => exact absurd (lookup_of_key.mpr ⟨cell, found⟩) fresh
  have unknown : name ∉ heap.pointers := by
    intro pointer
    obtain ⟨cell, found⟩ := counted.known name pointer
    rw [absent] at found
    cases found
  have more : ∀ wanted, (pointers
      { heap with
        cells := (name, ⟨1, members⟩) :: heap.cells
        held := (thread, name) ::
          heap.held.diff (members.map fun member => (thread, member)) }).count wanted =
      heap.pointers.count wanted + [name].count wanted := by
    intro wanted
    have moved := count_diff enough wanted
    simp only [pointers, inner_cons, List.map_cons, List.count_append]
    rw [← List.singleton_append, List.count_append]
    omega
  constructor
  case sound => exact counted.sound
  case distinct =>
    rw [List.map_cons, List.nodup_cons]
    exact ⟨fresh, counted.distinct⟩
  case exact =>
    intro other cell found
    rw [more]
    rw [List.lookup_cons] at found
    by_cases same : other = name
    · subst same
      rw [beq_self_eq_true] at found
      have equal := Option.some.inj found
      rw [List.count_eq_zero.mpr unknown, List.count_singleton_self, ← equal]
    · have missed : (other == name) = false := by simpa using same
      rw [missed] at found
      have none : [name].count other = 0 := List.count_eq_zero.mpr (by simpa using same)
      rw [none]
      exact counted.exact other cell found
  case known =>
    intro other member
    rw [List.lookup_cons]
    by_cases same : other = name
    · rw [same, beq_self_eq_true]
      exact ⟨_, rfl⟩
    · have missed : (other == name) = false := by simpa using same
      have none : [name].count other = 0 := List.count_eq_zero.mpr (by simpa using same)
      have positive := List.count_pos_iff.mpr member
      rw [more, none] at positive
      rw [missed]
      exact counted.known other (List.count_pos_iff.mp (by omega))
  case doomed_iff =>
    intro other
    rw [counted.doomed_iff, List.lookup_cons]
    by_cases same : other = name
    · rw [same, beq_self_eq_true, absent]
      simp
    · have missed : (other == name) = false := by simpa using same
      rw [missed]
  case doomed_once => exact counted.doomed_once
  case gone =>
    intro other member
    have different : (other == name) = false := by
      apply beq_false_of_ne
      intro same
      exact unused (same ▸ member)
    rw [List.lookup_cons, different]
    exact counted.gone other member
  case gone_once => exact counted.gone_once

omit [DecidableEq τ] in
/-- The members of a deleted object pass to the thread, and no pointer is lost. -/
theorem count_deleted (distinct : (heap.cells.map Prod.fst).Nodup) (thread : τ) {name : ι}
    {cell : Cell ι} (found : heap.cells.lookup name = some cell) (wanted : ι) :
    (((cell.members.map fun member => (thread, member)) ++ heap.held).map Prod.snd ++
        inner (heap.cells.filter fun entry => entry.1 ≠ name)).count wanted =
      heap.pointers.count wanted := by
  have moved := count_inner_remove distinct found wanted
  have names : (cell.members.map fun member => (thread, member)).map Prod.snd =
      cell.members := by
    rw [List.map_map]
    exact List.map_id cell.members
  simp only [pointers, List.map_append, List.count_append, names]
  omega

omit [DecidableEq τ] in
theorem Counted.unknown_of_doomed (counted : heap.Counted) {thread : τ} {name : ι}
    (doomed : (thread, name) ∈ heap.doomed) : name ∉ heap.pointers := by
  obtain ⟨cell, found, zero⟩ := (counted.doomed_iff name).mp (List.mem_map_of_mem doomed)
  apply List.count_eq_zero.mp
  rw [← counted.exact name cell found, zero]

/-- An object is deleted when no pointer to it is left. -/
theorem delete_counted (counted : heap.Counted) {thread : τ} {name : ι} {cell : Cell ι}
    (doomed : (thread, name) ∈ heap.doomed) (found : heap.cells.lookup name = some cell) :
    Counted
      { heap with
        cells := heap.cells.filter fun entry => entry.1 ≠ name
        held := (cell.members.map fun member => (thread, member)) ++ heap.held
        doomed := heap.doomed.erase (thread, name)
        deleted := name :: heap.deleted } := by
  have same := count_deleted counted.distinct thread found
  have unknown := counted.unknown_of_doomed doomed
  have split := (List.perm_cons_erase doomed).map Prod.snd
  have once := split.nodup_iff.mp counted.doomed_once
  rw [List.map_cons] at split
  rw [List.map_cons, List.nodup_cons] at once
  constructor
  case sound => exact counted.sound
  case distinct => exact counted.distinct.sublist (List.filter_sublist.map _)
  case exact =>
    intro other cell' found'
    rw [pointers, same]
    by_cases here : other = name
    · rw [here, Assoc.lookup_remove_self] at found'
      cases found'
    · rw [Assoc.lookup_remove_ne here] at found'
      exact counted.exact other cell' found'
  case known =>
    intro other member
    have before : other ∈ heap.pointers := by
      apply List.count_pos_iff.mp
      rw [← same]
      exact List.count_pos_iff.mpr member
    have here : other ≠ name := by
      intro here
      exact unknown (here ▸ before)
    rw [Assoc.lookup_remove_ne here]
    exact counted.known other before
  case doomed_iff =>
    intro other
    by_cases here : other = name
    · rw [here, Assoc.lookup_remove_self]
      simpa using once.1
    · rw [Assoc.lookup_remove_ne here, ← counted.doomed_iff, split.mem_iff, List.mem_cons]
      simp only [here, false_or]
  case doomed_once => exact once.2
  case gone =>
    intro other member
    rcases List.mem_cons.mp member with here | before
    · rw [here, Assoc.lookup_remove_self]
    · have nothing := counted.gone other before
      rw [List.lookup_eq_none_iff] at nothing ⊢
      intro entry kept
      exact nothing entry (List.mem_filter.mp kept).1
  case gone_once =>
    rw [List.nodup_cons]
    refine ⟨?_, counted.gone_once⟩
    intro before
    have nothing := counted.gone name before
    rw [found] at nothing
    cases nothing

/-- Every step keeps the counters. -/
theorem step_counted (counted : heap.Counted) {action : Action τ ι} {next : Heap τ ι}
    (taken : heap.step action = some next) : next.Counted := by
  cases action with
  | create thread name members =>
      simp only [step] at taken
      split at taken
      · rename_i allowed
        cases taken
        exact create_counted counted allowed.1 allowed.2.1 allowed.2.2
      · cases taken
  | copy thread first path =>
      simp only [step] at taken
      split at taken
      · rename_i held
        obtain ⟨name, leads, same⟩ := Option.map_eq_some_iff.mp taken
        rw [← same]
        exact copy_counted counted (follow_pointer held leads)
      · cases taken
  | share thread source name =>
      simp only [step] at taken
      split at taken
      · rename_i held
        cases taken
        exact copy_counted counted (mem_pointers held)
      · cases taken
  | drop thread name =>
      simp only [step] at taken
      split at taken
      · rename_i held
        cases taken
        exact drop_counted counted held
      · cases taken
  | delete thread name =>
      simp only [step] at taken
      split at taken
      · rename_i doomed
        obtain ⟨cell, found, _⟩ := (counted.doomed_iff name).mp (List.mem_map_of_mem doomed)
        rw [found] at taken
        cases taken
        exact delete_counted counted doomed found
      · cases taken
  | store thread owner name =>
      simp only [step] at taken
      split at taken
      · rename_i held
        obtain ⟨cell, found⟩ := counted.known owner (mem_pointers (List.mem_of_mem_erase held.2))
        rw [found] at taken
        cases taken
        exact store_counted counted held.1 found
      · cases taken
  | take thread owner name =>
      simp only [step] at taken
      split at taken
      · rename_i held
        obtain ⟨cell, found⟩ := counted.known owner (mem_pointers held)
        rw [found] at taken
        dsimp only at taken
        split at taken
        · rename_i member
          cases taken
          exact take_counted counted found member
        · cases taken
      · cases taken

/-- What a step makes of the members of an object, which has none when it is not there. -/
def membersAfter (name : ι) : Action τ ι → Option (List ι) → Option (List ι)
  | .create _ made members, before => if name = made then some members else before
  | .delete _ removed, before => if name = removed then none else before
  | .store _ owner stored, before => if name = owner then before.map (· ++ [stored]) else before
  | .take _ owner taken, before => if name = owner then before.map (·.erase taken) else before
  | _, before => before

/-- The members of an object. -/
def members (heap : Heap τ ι) (name : ι) : Option (List ι) :=
  (heap.cells.lookup name).map (·.members)

omit [DecidableEq τ] in
theorem members_adjust (heap : Heap τ ι) (owner name : ι) (change : Cell ι → Cell ι) :
    ((adjust owner change heap.cells).lookup name).map (·.members) =
      if name = owner then (heap.cells.lookup name).map (fun cell => (change cell).members)
      else heap.members name := by
  rw [lookup_adjust]
  split
  · rw [Option.map_map]
    rfl
  · rfl

omit [DecidableEq τ] in
/-- A change of a counter leaves the members alone. -/
theorem members_counter (heap : Heap τ ι) (owner name : ι) {change : Cell ι → Cell ι}
    (same : ∀ cell, (change cell).members = cell.members) :
    ((adjust owner change heap.cells).lookup name).map (·.members) = heap.members name := by
  rw [members_adjust]
  simp only [same, members, ite_self]

theorem step_members (counted : heap.Counted) {action : Action τ ι} {next : Heap τ ι}
    (taken : heap.step action = some next) (name : ι) :
    next.members name = membersAfter name action (heap.members name) := by
  cases action with
  | create thread made members =>
      simp only [step] at taken
      split at taken
      · cases taken
        simp only [Heap.members, membersAfter, List.lookup_cons]
        by_cases same : name = made
        · rw [same, beq_self_eq_true, if_pos rfl]
          rfl
        · have missed : (name == made) = false := by simpa using same
          rw [missed, if_neg same]
      · cases taken
  | copy thread first path =>
      simp only [step] at taken
      split at taken
      · rename_i held
        obtain ⟨last, leads, same⟩ := Option.map_eq_some_iff.mp taken
        obtain ⟨cell, there, positive⟩ := counted.alive (follow_pointer held leads)
        rw [retain_known there positive] at same
        rw [← same]
        exact members_counter heap last name Cell.retained_members
      · cases taken
  | share thread source shared =>
      simp only [step] at taken
      split at taken
      · rename_i held
        obtain ⟨cell, there, positive⟩ := counted.alive (mem_pointers held)
        rw [retain_known there positive] at taken
        cases taken
        exact members_counter heap shared name Cell.retained_members
      · cases taken
  | drop thread dropped =>
      simp only [step] at taken
      split at taken
      · rename_i held
        obtain ⟨cell, there, positive⟩ := counted.alive (mem_pointers held)
        rw [release_known there positive] at taken
        cases taken
        exact members_counter heap dropped name Cell.released_members
      · cases taken
  | delete thread removed =>
      simp only [step] at taken
      split at taken
      · rename_i doomed
        obtain ⟨cell, found, _⟩ := (counted.doomed_iff removed).mp (List.mem_map_of_mem doomed)
        rw [found] at taken
        cases taken
        simp only [Heap.members, membersAfter]
        by_cases same : name = removed
        · rw [same, Assoc.lookup_remove_self, if_pos rfl]
          rfl
        · rw [Assoc.lookup_remove_ne same, if_neg same]
      · cases taken
  | store thread owner stored =>
      simp only [step] at taken
      split at taken
      · rename_i held
        obtain ⟨cell, found⟩ := counted.known owner (mem_pointers (List.mem_of_mem_erase held.2))
        rw [found] at taken
        cases taken
        rw [Heap.members, members_adjust, membersAfter, Heap.members, Option.map_map]
        rfl
      · cases taken
  | take thread owner moved =>
      simp only [step] at taken
      split at taken
      · rename_i held
        obtain ⟨cell, found⟩ := counted.known owner (mem_pointers held)
        rw [found] at taken
        dsimp only at taken
        split at taken
        · cases taken
          rw [Heap.members, members_adjust, membersAfter, Heap.members, Option.map_map]
          rfl
        · cases taken
      · cases taken

/-- Copying and dropping pointers leaves the objects as they are. -/
theorem touch_shape {action : Action τ ι} {next : Heap τ ι} (taken : heap.step action = some next)
    (touches : (∃ thread first path, action = .copy thread first path) ∨
      (∃ thread source name, action = .share thread source name) ∨
        ∃ thread name, action = .drop thread name) :
    next.shape = heap.shape ∧ next.deleted = heap.deleted := by
  rcases touches with ⟨thread, first, path, same⟩ | ⟨thread, source, name, same⟩ |
    ⟨thread, name, same⟩
  · subst same
    simp only [step] at taken
    split at taken
    · obtain ⟨name, _, same⟩ := Option.map_eq_some_iff.mp taken
      rw [← same]
      exact ⟨retain_shape heap name, (retain_names heap name).2⟩
    · cases taken
  · subst same
    simp only [step] at taken
    split at taken
    · cases taken
      exact ⟨retain_shape heap name, (retain_names heap name).2⟩
    · cases taken
  · subst same
    simp only [step] at taken
    split at taken
    · cases taken
      exact ⟨release_shape heap thread name, (release_names heap thread name).2⟩
    · cases taken

theorem create_shape {thread : τ} {name : ι} {members : List ι} {next : Heap τ ι}
    (taken : heap.step (.create thread name members) = some next) :
    next.shape = (name, members) :: heap.shape ∧ next.deleted = heap.deleted := by
  simp only [step] at taken
  split at taken
  · cases taken
    exact ⟨rfl, rfl⟩
  · cases taken

theorem delete_shape {thread : τ} {name : ι} {next : Heap τ ι} (counted : heap.Counted)
    (taken : heap.step (.delete thread name) = some next) :
    next.shape = heap.shape.filter (fun entry => entry.1 ≠ name) ∧
      next.deleted = name :: heap.deleted ∧ name ∉ heap.pointers := by
  simp only [step] at taken
  split at taken
  · rename_i doomed
    obtain ⟨cell, found, _⟩ := (counted.doomed_iff name).mp (List.mem_map_of_mem doomed)
    rw [found] at taken
    cases taken
    refine ⟨?_, rfl, counted.unknown_of_doomed doomed⟩
    rw [shape, shape, List.filter_map]
    rfl
  · cases taken

theorem run_counted {actions : List (Action τ ι)} {last : Heap τ ι} (counted : heap.Counted)
    (reached : Transition.run step heap actions = some last) : last.Counted := by
  apply Transition.run_invariant _ counted _ reached
  · exact fun _ _ => True
  · intro state action next holds _ taken
    exact step_counted holds taken
  · exact Transition.along_of_mem actions (fun _ _ _ => trivial) heap

theorem run_members {actions : List (Action τ ι)} {last : Heap τ ι} (counted : heap.Counted)
    (reached : Transition.run step heap actions = some last) (name : ι) :
    last.members name =
      actions.foldl (fun members action => membersAfter name action members)
        (heap.members name) := by
  induction actions generalizing heap with
  | nil =>
      cases reached
      rfl
  | cons action rest ih =>
      obtain ⟨next, taken, later⟩ :=
        (Transition.run_cons_eq_some _ heap last action rest).mp reached
      rw [List.foldl_cons, ← step_members counted taken]
      exact ih (step_counted counted taken) later

end Heap

end RefCount
