import Mathlib.Data.List.Basic
import Mathlib.Data.List.Nodup
import Mif.Service.Query

set_option autoImplicit false

/- `MakeInheritedIist`: the tuple of all interfaces that an interface inherits. The tuples
of the templates are lists here, and a type is what `std::is_same` compares. -/
namespace Mif.Common.Detail

variable {α : Type}

/-- `TupleCat` -/
def tupleCat : List α → List (List α) → List α
  | first, [] => first
  | first, next :: rest => first ++ tupleCat next rest

theorem mem_tupleCat (x : α) (first : List α) (rest : List (List α)) :
    x ∈ tupleCat first rest ↔ x ∈ first ∨ ∃ tuple ∈ rest, x ∈ tuple := by
  induction rest generalizing first with
  | nil => simp [tupleCat]
  | cons next rest ih => simp [tupleCat, ih]

variable [DecidableEq α]

/-- `UniqueTuple`. A type that is new goes to the front, so the order is reversed. -/
def uniqueTuple : List α → List α → List α
  | [], result => result
  | head :: rest, result =>
      uniqueTuple rest (if head ∈ result then result else head :: result)

/-- `MakeUniqueTuple` -/
def makeUniqueTuple (tuple : List α) : List α := uniqueTuple tuple []

theorem mem_uniqueTuple (x : α) (tuple result : List α) :
    x ∈ uniqueTuple tuple result ↔ x ∈ tuple ∨ x ∈ result := by
  induction tuple generalizing result with
  | nil => simp [uniqueTuple]
  | cons head rest ih =>
      rw [uniqueTuple, ih]
      by_cases known : head ∈ result
      · simp only [known, ↓reduceIte, List.mem_cons]
        grind
      · simp only [known, ↓reduceIte, List.mem_cons]
        grind

theorem nodup_uniqueTuple (tuple : List α) {result : List α} (distinct : result.Nodup) :
    (uniqueTuple tuple result).Nodup := by
  induction tuple generalizing result with
  | nil => exact distinct
  | cons head rest ih =>
      rw [uniqueTuple]
      apply ih
      by_cases known : head ∈ result
      · rwa [if_pos known]
      · rw [if_neg known]
        exact List.nodup_cons.mpr ⟨known, distinct⟩

theorem mem_makeUniqueTuple (x : α) (tuple : List α) :
    x ∈ makeUniqueTuple tuple ↔ x ∈ tuple := by
  simp [makeUniqueTuple, mem_uniqueTuple]

theorem nodup_makeUniqueTuple (tuple : List α) : (makeUniqueTuple tuple).Nodup :=
  nodup_uniqueTuple tuple List.nodup_nil

end Mif.Common.Detail

namespace Mif.Service

open Mif.Common.Detail

variable {α : Type}

namespace Bases

/-- The types of the tuple, without what they inherit. -/
def types : Bases α → List α
  | nil => []
  | cons type _ rest => type :: rest.types

/-- `IService` inherits nothing and occurs only as the sole base of an interface. -/
def Sole (iService : α) : Bases α → Prop
  | nil => True
  | cons type inherited rest =>
      (type = iService → inherited = nil ∧ rest = nil) ∧ iService ∉ rest.types ∧
        Sole iService inherited ∧ Sole iService rest

end Bases

/-- An interface `T` that is declared with `Inherit<...>`, or `IService` itself. -/
structure InterfaceType (α : Type) (iService : α) where
  type : α
  bases : Bases α
  root : type = iService → bases = .nil
  sole : bases.Sole iService

namespace Detail

variable [DecidableEq α]

/-- `ExpandInterfaceBase<std::tuple<TInterface ...>, TList ...>`, where `expanded` is
`ExpandInterfaceBase<TInterface>::List ...` -/
def expandTuple (iService : α) (types list : List α) (expanded : List (List α)) : List α :=
  if types = [iService] then [] else makeUniqueTuple (tupleCat (types ++ list) expanded)

/-- `ExpandInterfaceBase<T>`, where `inherited` is the list of `T::TBaseTypeTuple`. -/
def expandType (iService type : α) (inherited : List α) : List α :=
  if type = iService then [] else makeUniqueTuple inherited

/-- `ExpandInterfaceBase<TInterface>::List ...` for the types of a tuple. -/
def expanded (iService : α) : Bases α → List (List α)
  | .nil => []
  | .cons type inherited rest =>
      expandType iService type
          (expandTuple iService inherited.types [] (expanded iService inherited)) ::
        expanded iService rest

end Detail

/-- `MakeInheritedIist` -/
def makeInheritedIist [DecidableEq α] {iService : α} (T : InterfaceType α iService) : List α :=
  Detail.expandType iService T.type
    (Detail.expandTuple iService T.bases.types [] (Detail.expanded iService T.bases))

/-- A proper ancestor of the interface. -/
def InterfaceType.Ancestor {iService : α} (T : InterfaceType α iService) (type : α) : Prop :=
  T.bases.Occurs type

namespace Bases

theorem types_of_service_mem {iService : α} {bases : Bases α} (sole : bases.Sole iService)
    (member : iService ∈ bases.types) : bases.types = [iService] := by
  cases bases with
  | nil => cases member
  | cons first inherited rest =>
      rcases List.mem_cons.mp member with same | behind
      · rw [(sole.1 same.symm).2, ← same]
        rfl
      · exact absurd behind sole.2.1

/-- The tuple `std::tuple<IService>` has nothing below it. -/
theorem occurs_of_types_eq {iService type : α} {bases : Bases α} (sole : bases.Sole iService)
    (alone : bases.types = [iService]) (occurs : bases.Occurs type) : type = iService := by
  cases bases with
  | nil => cases alone
  | cons first inherited rest =>
      have same : first = iService := (List.cons.inj alone).1
      have none := sole.1 same
      rw [none.1, none.2] at occurs
      rcases occurs with first_eq | inside | behind
      · exact first_eq.symm.trans same
      · exact inside.elim
      · exact behind.elim

end Bases

namespace Detail

variable [DecidableEq α]

theorem mem_expandTuple_of_ne {iService : α} {types : List α} (alone : types ≠ [iService])
    (lists : List (List α)) (x : α) :
    x ∈ expandTuple iService types [] lists ↔ x ∈ types ∨ ∃ tuple ∈ lists, x ∈ tuple := by
  rw [expandTuple, if_neg alone, mem_makeUniqueTuple, mem_tupleCat, List.append_nil]

theorem mem_expandType_of_ne {iService type : α} (other : type ≠ iService)
    (inherited : List α) (x : α) : x ∈ expandType iService type inherited ↔ x ∈ inherited := by
  rw [expandType, if_neg other, mem_makeUniqueTuple]

/-- `IService` is never in a list, if it is in none of those below. -/
theorem service_not_mem_expandTuple {iService : α} {bases : Bases α}
    (sole : bases.Sole iService) {lists : List (List α)}
    (below : ∀ tuple ∈ lists, iService ∉ tuple) :
    iService ∉ expandTuple iService bases.types [] lists := by
  by_cases alone : bases.types = [iService]
  · rw [expandTuple, if_pos alone]
    exact List.not_mem_nil
  · rw [mem_expandTuple_of_ne alone]
    intro member
    rcases member with first | ⟨tuple, listed, inside⟩
    · exact alone (Bases.types_of_service_mem sole first)
    · exact below tuple listed inside

theorem service_not_mem_expanded {iService : α} {bases : Bases α}
    (sole : bases.Sole iService) : ∀ tuple ∈ expanded iService bases, iService ∉ tuple := by
  induction bases with
  | nil => exact fun _ listed => absurd listed List.not_mem_nil
  | cons type inherited rest inheritedNot restNot =>
      intro tuple listed
      rcases List.mem_cons.mp listed with rfl | behind
      · by_cases service : type = iService
        · rw [expandType, if_pos service]
          exact List.not_mem_nil
        · rw [mem_expandType_of_ne service]
          exact service_not_mem_expandTuple sole.2.2.1 (inheritedNot sole.2.2.1)
      · exact restNot sole.2.2.2 tuple behind

/-- The list of a tuple has what occurs in it, if those below have what occurs below. -/
theorem mem_expandTuple {iService x : α} {bases : Bases α} (sole : bases.Sole iService)
    (other : x ≠ iService) (below : (x ∈ bases.types ∨
      ∃ tuple ∈ expanded iService bases, x ∈ tuple) ↔ bases.Occurs x) :
    x ∈ expandTuple iService bases.types [] (expanded iService bases) ↔ bases.Occurs x := by
  by_cases alone : bases.types = [iService]
  · rw [expandTuple, if_pos alone]
    constructor
    · intro member
      exact absurd member List.not_mem_nil
    · intro occurs
      exact absurd (Bases.occurs_of_types_eq sole alone occurs) other
  · rw [mem_expandTuple_of_ne alone, below]

/-- Nothing is lost and nothing comes in: the types of a tuple and the lists of these
types make up what occurs in it. -/
theorem mem_types_or_expanded {iService x : α} {bases : Bases α} (sole : bases.Sole iService)
    (other : x ≠ iService) :
    (x ∈ bases.types ∨ ∃ tuple ∈ expanded iService bases, x ∈ tuple) ↔ bases.Occurs x := by
  induction bases with
  | nil => simp [Bases.types, expanded, Bases.Occurs]
  | cons type inherited rest inheritedSame restSame =>
      have first : x ∈ expandType iService type
          (expandTuple iService inherited.types [] (expanded iService inherited)) ↔
          inherited.Occurs x := by
        by_cases service : type = iService
        · have none := (sole.1 service).1
          rw [expandType, if_pos service, none]
          exact iff_of_false List.not_mem_nil id
        · rw [mem_expandType_of_ne service]
          exact mem_expandTuple sole.2.2.1 other (inheritedSame sole.2.2.1)
      have behind := restSame sole.2.2.2
      simp only [Bases.types, expanded, Bases.Occurs, List.mem_cons, exists_eq_or_imp, first,
        ← behind]
      grind

end Detail

theorem nodup_makeInheritedIist [DecidableEq α] {iService : α} (T : InterfaceType α iService) :
    (makeInheritedIist T).Nodup := by
  rw [makeInheritedIist, Detail.expandType]
  split
  · exact List.nodup_nil
  · exact nodup_makeUniqueTuple _

theorem mem_makeInheritedIist [DecidableEq α] {iService : α} (T : InterfaceType α iService)
    (x : α) : x ∈ makeInheritedIist T ↔ T.Ancestor x ∧ x ≠ iService := by
  by_cases service : T.type = iService
  · rw [makeInheritedIist, Detail.expandType, if_pos service, InterfaceType.Ancestor,
      T.root service]
    exact iff_of_false List.not_mem_nil fun occurs => occurs.1
  · rw [makeInheritedIist, Detail.mem_expandType_of_ne service]
    by_cases other : x = iService
    · rw [other]
      exact iff_of_false
        (Detail.service_not_mem_expandTuple T.sole (Detail.service_not_mem_expanded T.sole))
        fun occurs => occurs.2 rfl
    · rw [Detail.mem_expandTuple T.sole other (Detail.mem_types_or_expanded T.sole other)]
      exact (and_iff_left other).symm

end Mif.Service
