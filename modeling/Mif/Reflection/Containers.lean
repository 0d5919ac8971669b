import Mathlib.Data.List.Induction
import Mif.Reflection.Schema

set_option autoImplicit false

/- What containers hold when elements were inserted into them one after the other. -/
namespace Mif.Reflection

section

variable {α : Type}

/-- A container that is filled in its own order. -/
theorem foldl_of_appends {insert : List α → α → List α} {list : List α}
    (appends : ∀ before value after, list = before ++ value :: after →
      insert before value = before ++ [value]) : list.foldl insert [] = list := by
  induction list using List.reverseRecOn with
  | nil => rfl
  | append_singleton list value ih =>
      have earlier : list.foldl insert [] = list := by
        refine ih fun before other after split => appends before other (after ++ [value]) ?_
        rw [split, List.append_assoc, List.cons_append]
      rw [List.foldl_append, earlier]
      exact appends list value [] rfl

theorem insertOrdered_of_greater {less : α → α → Bool} {value : α} {list : List α}
    (greater : ∀ item ∈ list, less item value = true ∧ less value item = false) :
    Program.insertOrdered less value list = list ++ [value] := by
  induction list with
  | nil => rfl
  | cons item rest ih =>
      obtain ⟨below, notAbove⟩ := greater item List.mem_cons_self
      rw [Program.insertOrdered, notAbove, below]
      simp only [Bool.false_eq_true, ↓reduceIte, List.cons_append]
      rw [ih fun other member => greater other (List.mem_cons_of_mem _ member)]

theorem mem_insertOrdered {less : α → α → Bool} {value other : α} {list : List α}
    (member : other ∈ Program.insertOrdered less value list) : other ∈ list ∨ other = value := by
  induction list with
  | nil => exact Or.inr (by simpa [Program.insertOrdered] using member)
  | cons item rest ih =>
      unfold Program.insertOrdered at member
      split at member
      · rcases List.mem_cons.mp member with same | later
        · exact Or.inr same
        · exact Or.inl later
      · split at member
        · rcases List.mem_cons.mp member with same | later
          · exact Or.inl (by simp [same])
          · rcases ih later with inside | same
            · exact Or.inl (List.mem_cons_of_mem _ inside)
            · exact Or.inr same
        · exact Or.inl member

end

variable {schema : Schema}

/-- A container of this kind holds nothing but what was inserted. -/
def Inserts (program : Program schema) (type : Ty) (container : Container) : Prop :=
  ∀ object value other, other ∈ program.insert type container object value →
    other ∈ object ∨ other = value

/-- A container holds nothing but what was inserted. Of the containers that are no sequences,
sets or maps this is assumed. -/
def InsertsOnly (program : Program schema) : Prop :=
  ∀ id type object value other, other ∈ program.insertOther id type object value →
    other ∈ object ∨ other = value

section

variable {program : Program schema} {type : Ty} {container : Container}

theorem inserts_sequence : Inserts program type .sequence := by
  intro object value other member
  simpa [Program.insert] using member

theorem inserts_ordered (order : Nat) : Inserts program type (.ordered order) :=
  fun _ _ _ member => mem_insertOrdered member

theorem InsertsOnly.inserts (only : InsertsOnly program) : Inserts program type container := by
  cases container with
  | sequence => exact inserts_sequence
  | ordered order => exact inserts_ordered order
  | other id => exact only id type

theorem Inserts.mem_foldl (inserts : Inserts program type container)
    {list object : List (Val schema type)} {other : Val schema type}
    (member : other ∈ list.foldl (program.insert type container) object) :
    other ∈ object ∨ other ∈ list := by
  induction list generalizing object with
  | nil => exact Or.inl member
  | cons value rest ih =>
      rcases ih member with earlier | later
      · rcases inserts _ _ _ earlier with inside | same
        · exact Or.inl inside
        · exact Or.inr (by simp [same])
      · exact Or.inr (List.mem_cons_of_mem _ later)

theorem mem_of_ofList {size : Nat} {values : Fin size → Val schema type}
    {list : List (Val schema type)}
    (same : (Val.ofList list : Val schema (.iter container type)) = .iter size values)
    (index : Fin size) : values index ∈ list := by
  unfold Val.ofList at same
  cases same
  exact List.get_mem list index

/-- Each element of a container that was filled is one of those that were inserted. -/
theorem Inserts.exists_of_filled (inserts : Inserts program type container) {size count : Nat}
    {results : Fin count → Val schema type} {values : Fin size → Val schema type}
    (filled : (Val.ofList ((List.ofFn results).foldl (program.insert type container) []) :
      Val schema (.iter container type)) = .iter size values) (index : Fin size) :
    ∃ place, results place = values index := by
  rcases inserts.mem_foldl (mem_of_ofList filled index) with none | inside
  · cases none
  · exact List.mem_ofFn.mp inside

end

end Mif.Reflection
