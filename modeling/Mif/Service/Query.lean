import Mathlib.Data.List.Basic

set_option autoImplicit false

/- `IService::Query`: how an object is searched for one of its interfaces, and where the
subobjects of these interfaces lie. -/
namespace Mif.Service

/-- `TBaseTypeTuple`: the tuple `std::tuple<H, T ...>`, where `inherited` is the tuple of
`H` itself. An interface is known by its `std::type_info`. -/
inductive Bases (α : Type)
  | nil
  | cons (type : α) (inherited rest : Bases α)
  deriving DecidableEq, Repr

namespace Bases

variable {α : Type}

/-- The base with this number, with its own tuple. -/
def get? : Bases α → Nat → Option (α × Bases α)
  | nil, _ => none
  | cons type inherited _, 0 => some (type, inherited)
  | cons _ _ rest, index + 1 => rest.get? index

/-- The interface occurs in the hierarchy. -/
def Occurs (type : α) : Bases α → Prop
  | nil => False
  | cons first inherited rest => first = type ∨ Occurs type inherited ∨ Occurs type rest

instance decidableOccurs [DecidableEq α] (type : α) :
    (bases : Bases α) → Decidable (Occurs type bases)
  | nil => isFalse id
  | cons first inherited rest =>
      have : Decidable (Occurs type inherited) := decidableOccurs type inherited
      have : Decidable (Occurs type rest) := decidableOccurs type rest
      inferInstanceAs (Decidable (first = type ∨ Occurs type inherited ∨ Occurs type rest))

/-- The first base, its first base, and so on. -/
def leading : Bases α → List α
  | nil => []
  | cons type inherited _ => type :: inherited.leading

end Bases

section

variable {α : Type} [DecidableEq α]

/-- `QueryInterface<TBases>::Query`. The object goes through all levels as a `void *`, so
the cast to `H *` keeps the address. -/
def queryInterface (typeInfo : α) (inst : Nat) : Bases α → Option Nat
  | .nil => none
  | .cons type inherited rest =>
      if type = typeInfo then some inst
      else (queryInterface typeInfo inst inherited).or (queryInterface typeInfo inst rest)

end

/-- Where the compiler puts the bases of an `Inherit<...>`: the first one at the beginning,
the others behind it. -/
structure Layout (α : Type) where
  offset : Bases α → Nat → Nat
  first : ∀ bases, offset bases 0 = 0
  later : ∀ bases index, offset bases (index + 1) ≠ 0

/-- An object of `Service_Impl__<T>`, where `T` is built from `Inherit<...>` over `bases`:
the addresses of that subobject and of `Fake_Service__`. -/
structure Object (α : Type) where
  bases : Bases α
  inherit : Nat
  fakeService : Nat

namespace Object

variable {α : Type}

/-- The subobjects of an `Inherit<...>` at an address. An interface begins with its own
`Inherit<...>`. -/
inductive Within (layout : Layout α) : Bases α → Nat → α → Nat → Prop
  | base {bases inherited : Bases α} {type : α} {address index : Nat}
      (found : bases.get? index = some (type, inherited)) :
      Within layout bases address type (address + layout.offset bases index)
  | deeper {bases inherited : Bases α} {type other : α} {address index place : Nat}
      (found : bases.get? index = some (type, inherited))
      (inside : Within layout inherited (address + layout.offset bases index) other place) :
      Within layout bases address other place

/-- The object has a subobject of this interface at this address. `Fake_Service__` is an
`Inherit<IService>`. -/
def Subobject (layout : Layout α) (iService : α) (object : Object α) (type : α)
    (place : Nat) : Prop :=
  Within layout object.bases object.inherit type place ∨
    (type = iService ∧ place = object.fakeService)

/-- `Service_Impl__::Query`, behind the check of its arguments. `proxy` is what an object
that is a proxy answers for interfaces it does not have. -/
def query [DecidableEq α] (iService : α) (proxy : α → Option Nat) (object : Object α)
    (typeInfo : α) : Option Nat :=
  if typeInfo = iService then some object.fakeService
  else (queryInterface typeInfo object.inherit object.bases).or (proxy typeInfo)

/-- The query stores the address of a subobject of the interface. -/
def Answers [DecidableEq α] (layout : Layout α) (iService : α) (proxy : α → Option Nat)
    (object : Object α) (type : α) : Prop :=
  ∃ place, object.query iService proxy type = some place ∧
    object.Subobject layout iService type place

theorem queryInterface_address [DecidableEq α] {typeInfo : α} {inst place : Nat}
    {bases : Bases α} (found : queryInterface typeInfo inst bases = some place) :
    place = inst := by
  induction bases with
  | nil => cases found
  | cons type inherited rest inheritedAddress restAddress =>
      unfold queryInterface at found
      split at found
      · exact (Option.some.inj found).symm
      · rcases Option.or_eq_some_iff.mp found with inside | ⟨_, behind⟩
        · exact inheritedAddress inside
        · exact restAddress behind

/-- The search comes to every interface of the hierarchy. -/
theorem queryInterface_of_occurs [DecidableEq α] {typeInfo : α} {bases : Bases α}
    (occurs : bases.Occurs typeInfo) (inst : Nat) :
    queryInterface typeInfo inst bases = some inst := by
  have found : queryInterface typeInfo inst bases ≠ none := by
    induction bases with
    | nil => exact absurd occurs id
    | cons type inherited rest inheritedFound restFound =>
        unfold queryInterface
        split
        · exact Option.some_ne_none _
        · rename_i different
          intro nothing
          have both := Option.or_eq_none_iff.mp nothing
          rcases occurs with same | inside | behind
          · exact different same
          · exact inheritedFound inside both.1
          · exact restFound behind both.2
  obtain ⟨place, stored⟩ := Option.ne_none_iff_exists'.mp found
  rw [stored, queryInterface_address stored]

theorem within_leading {layout : Layout α} {type : α} {bases : Bases α} (address : Nat)
    (leads : type ∈ bases.leading) : Within layout bases address type address := by
  induction bases with
  | nil => cases leads
  | cons first inherited rest inheritedLeads _ =>
      have start : address + layout.offset (.cons first inherited rest) 0 = address := by
        rw [layout.first, Nat.add_zero]
      have found : (Bases.cons first inherited rest).get? 0 = some (first, inherited) := rfl
      rcases List.mem_cons.mp leads with rfl | behind
      · have subobject : Within layout _ address type _ := Within.base found
        rw [start] at subobject
        exact subobject
      · apply Within.deeper found
        rw [start]
        exact inheritedLeads behind

/-- A base at the beginning is the first one. -/
theorem leading_of_offset (layout : Layout α) {bases inherited : Bases α} {type : α}
    {index : Nat} (found : bases.get? index = some (type, inherited))
    (start : layout.offset bases index = 0) : bases.leading = type :: inherited.leading := by
  cases index with
  | zero =>
      cases bases with
      | nil => cases found
      | cons first own rest =>
          cases found
          rfl
  | succ index => exact absurd start (layout.later bases index)

/-- Every other subobject lies behind the beginning. -/
theorem leading_of_within {layout : Layout α} {type : α} {bases : Bases α} {address place : Nat}
    (inside : Within layout bases address type place) :
    address ≤ place ∧ (place = address → type ∈ bases.leading) := by
  induction inside with
  | base found =>
      refine ⟨Nat.le_add_right _ _, fun start => ?_⟩
      rw [leading_of_offset layout found (by omega)]
      exact List.mem_cons_self
  | deeper found _ ih =>
      obtain ⟨behind, leads⟩ := ih
      refine ⟨by omega, fun start => ?_⟩
      rw [leading_of_offset layout found (by omega)]
      exact List.mem_cons_of_mem _ (leads (by omega))

/-- A query for an interface of the hierarchy answers with a subobject of that interface
exactly when it is `IService` or is reached through first bases only. -/
theorem answers_iff_leading [DecidableEq α] (layout : Layout α) (iService : α)
    (proxy : α → Option Nat) (object : Object α) (type : α)
    (occurs : object.bases.Occurs type) :
    object.Answers layout iService proxy type ↔
      type = iService ∨ type ∈ object.bases.leading := by
  by_cases service : type = iService
  · have stored : object.query iService proxy type = some object.fakeService := by
      simp only [query, service, ↓reduceIte]
    exact iff_of_true ⟨_, stored, Or.inr ⟨service, rfl⟩⟩ (Or.inl service)
  · have stored : object.query iService proxy type = some object.inherit := by
      simp only [query, service, ↓reduceIte, queryInterface_of_occurs occurs, Option.some_or]
    constructor
    · intro answers
      obtain ⟨place, found, subobject⟩ := answers
      have start : place = object.inherit := Option.some.inj (found.symm.trans stored)
      rcases subobject with inside | ⟨same, _⟩
      · exact Or.inr ((leading_of_within inside).2 start)
      · exact absurd same service
    · intro leads
      rcases leads with same | leads
      · exact absurd same service
      · exact ⟨_, stored, Or.inl (within_leading _ leads)⟩

/- The interfaces of the inheritance example, and an implementation of `IEmployee`. Each
base of an `Inherit<...>` in it is one pointer long. -/
section

def iHuman : Bases String := .cons "IHuman" (.cons "IService" .nil .nil) .nil

def iEmployee : Bases String :=
  .cons "IEmployee" (.cons "IDeveloper" iHuman (.cons "IManager" iHuman .nil)) .nil

def pointers : Layout String where
  offset _ index := 8 * index
  first _ := rfl
  later _ _ := by omega

def employee : Object String := ⟨iEmployee, 0, 16⟩

theorem developer_is_answered :
    employee.bases.Occurs "IDeveloper" ∧
      employee.Answers pointers "IService" (fun _ => none) "IDeveloper" :=
  ⟨by decide, (answers_iff_leading pointers "IService" (fun _ => none) employee "IDeveloper"
    (by decide)).mpr (by decide)⟩

/-- The query for the second base stores the address of the first one. -/
theorem manager_is_not_answered :
    employee.bases.Occurs "IManager" ∧
      employee.query "IService" (fun _ => none) "IManager" = some 0 ∧
      Object.Subobject pointers "IService" employee "IDeveloper" 0 ∧
      ¬ employee.Answers pointers "IService" (fun _ => none) "IManager" := by
  have stored : employee.query "IService" (fun _ => none) "IManager" = some 0 := by decide
  refine ⟨by decide, stored, Or.inl (within_leading 0 (by decide)), ?_⟩
  intro answers
  obtain ⟨place, found, subobject⟩ := answers
  have start : place = 0 := Option.some.inj (found.symm.trans stored)
  rcases subobject with inside | ⟨same, _⟩
  · have leads := (leading_of_within inside).2 start
    revert leads
    decide
  · revert same
    decide

end

end Object

end Mif.Service
