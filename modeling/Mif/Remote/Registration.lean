import Mathlib.Data.List.Nodup
import Mif.Lib.Numbering
import Mif.Remote.Registry
import Mif.Remote.StubTable

set_option autoImplicit false

/- How `MIF_REMOTE_REGISTER_PS` numbers the registered interfaces, and which of them a
visitor finds. -/
namespace Mif.Remote

namespace Registry

/-- The specialisations `Item<Id>` that the registrations so far have made. -/
abbrev Items := List (Nat × PsType)

/-- `Counter::GetLast(Hierarchy<length>)`: there is one overload for each number, and
the closest base of the argument is taken. -/
def getLast (items : Items) (length : Nat) : Nat :=
  ((items.map Prod.fst).filter (· ≤ length)).foldl max 0

/-- `MIF_REMOTE_REGISTER_PS`. A second `Registry<interface_>` or `Item<Id>` is a
redefinition, which does not compile. -/
def register (items : Items) (ps : PsType) : Option Items :=
  let id := getLast items fakeHierarchyLength + 1
  if ps.interface ∈ items.map (fun item => item.2.interface) ∨ id ∈ items.map Prod.fst then none
  else some (items ++ [(id, ps)])

/-- The registrations of a program, one after the other. -/
def registerAll (list : List PsType) : Option Items := list.foldlM register []

/-- `Visitor::Visit<T, I>` for `I = fakeHierarchyLength - remaining`. Where there is no
`Item<I>`, the overload with the ellipsis is called. -/
def visit {ρ : Type} (items : Items) (visitor : PsType → Except String (Option ρ)) :
    Nat → Except String (Option ρ)
  | 0 => .ok none
  | remaining + 1 =>
      match items.lookup (fakeHierarchyLength - (remaining + 1)) with
      | none => .ok none
      | some item =>
          match visitor item with
          | .error what => .error what
          | .ok (some result) => .ok (some result)
          | .ok none => visit items visitor remaining

/-- The items get the numbers 1, 2, ... in the order of the list. -/
def numbered (list : List PsType) : Items := (list.zipIdx 1).map fun item => (item.2, item.1)

/-- The lists that can be registered. -/
def Registrable (list : List PsType) : Prop :=
  (list.map PsType.interface).Nodup ∧ list.length ≤ fakeHierarchyLength + 1

instance (list : List PsType) : Decidable (Registrable list) :=
  inferInstanceAs (Decidable (_ ∧ _))

/-- A program compiles exactly when its interfaces are distinct and the counter can number
them all. -/
theorem registerAll_eq (list : List PsType) :
    registerAll list = if Registrable list then some (numbered list) else none :=
  Numbering.foldlM_add PsType.interface fakeHierarchyLength list

theorem lookup_numbered (list : List PsType) (index : Nat) :
    (numbered list).lookup (index + 1) = list[index]? :=
  Numbering.lookup_numbered list index

/-- The recursion over the numbers is a visit of the list. -/
theorem visit_numbered {ρ : Type} (list : List PsType)
    (visitor : PsType → Except String (Option ρ)) (remaining : Nat)
    (bound : remaining < fakeHierarchyLength) :
    visit (numbered list) visitor remaining =
      Visitor.visit visitor (fakeHierarchyLength - remaining)
        (list.drop (fakeHierarchyLength - remaining - 1)) := by
  induction remaining with
  | zero =>
      unfold visit
      cases list.drop (fakeHierarchyLength - 0 - 1) with
      | nil => rfl
      | cons item rest => rfl
  | succ remaining ih =>
      have next := ih (by omega)
      have number : fakeHierarchyLength - (remaining + 1) =
          (fakeHierarchyLength - (remaining + 1) - 1) + 1 := by omega
      have here := lookup_numbered list (fakeHierarchyLength - (remaining + 1) - 1)
      rw [← number] at here
      unfold visit
      rw [here]
      cases found : list[fakeHierarchyLength - (remaining + 1) - 1]? with
      | none =>
          rw [List.drop_eq_nil_of_le (List.getElem?_eq_none_iff.mp found)]
          rfl
      | some item =>
          obtain ⟨inside, same⟩ := List.getElem?_eq_some_iff.mp found
          have follows : fakeHierarchyLength - (remaining + 1) + 1 =
              fakeHierarchyLength - remaining := by omega
          have behind : fakeHierarchyLength - (remaining + 1) - 1 + 1 =
              fakeHierarchyLength - remaining - 1 := by omega
          rw [List.drop_eq_getElem_cons inside, same, Visitor.visit,
            if_neg (by omega : fakeHierarchyLength - (remaining + 1) ≠ fakeHierarchyLength),
            follows, behind]
          dsimp only
          cases visitor item with
          | error what => rfl
          | ok value =>
              cases value with
              | some result => rfl
              | none => exact next

/-- `Visitor::Accept` in a program with these registrations. -/
theorem visit_eq_accept {ρ : Type} (list : List PsType)
    (visitor : PsType → Except String (Option ρ)) :
    visit (numbered list) visitor (fakeHierarchyLength - 1) = Visitor.accept list visitor :=
  visit_numbered list visitor (fakeHierarchyLength - 1) (by decide)

end Registry

/-- The interfaces that a program registers, in this order. -/
structure Registration where
  list : List PsType
  compiles : (Registry.registerAll list).isSome

namespace Registration

/-- `Visitor::Accept` -/
def accept {ρ : Type} (program : Registration) (visitor : PsType → Except String (Option ρ)) :
    Except String (Option ρ) :=
  Registry.visit ((Registry.registerAll program.list).get program.compiles) visitor
    (fakeHierarchyLength - 1)

theorem registrable (program : Registration) : Registry.Registrable program.list :=
  Numbering.able_of_isSome PsType.interface fakeHierarchyLength program.compiles

theorem accept_eq {ρ : Type} (program : Registration)
    (visitor : PsType → Except String (Option ρ)) :
    program.accept visitor = Visitor.accept program.list visitor := by
  have items : (Registry.registerAll program.list).get program.compiles =
      Registry.numbered program.list :=
    Numbering.get_foldlM_add PsType.interface fakeHierarchyLength program.compiles
  rw [accept, items, Registry.visit_eq_accept]

/-- `CreateProxyVisitor::Visit` for the type `typeId`: the interface whose proxy is made,
and the id of the instance. `query` is `IObjectManager::QueryInterface`. -/
def createProxyVisitor (query : String → Except String String) (typeId : Nat) (item : PsType) :
    Except String (Option (PsType × String)) :=
  if item.interface = typeId then do
    let instanceId ← query item.interfaceId
    if instanceId = "" then .ok none else .ok (some (item, instanceId))
  else .ok none

/-- The registered interface with this position in the list. -/
def item (program : Registration) (index : Fin program.list.length) : PsType :=
  program.list.get index

/-- How an interface has to be found in the registry. -/
structure Resolves (program : Registration) (index : Fin program.list.length) : Prop where
  /-- The id that the proxy of the interface sends leads to its own stub. -/
  stub : ∀ (Obj : Type) (inst : Obj),
    program.accept (PsClient.createStubVisitor inst (program.item index).interfaceId) =
      .ok (some ⟨program.item index, inst⟩)
  /-- A search for the type ends as the proxy of this type decides. -/
  proxy : ∀ query, program.accept (createProxyVisitor query (program.item index).interface) =
    createProxyVisitor query (program.item index).interface (program.item index)
  /-- A visitor comes to the interface, unless it succeeds before. -/
  visited : ∀ (ρ : Type) (visitor : PsType → Except String (Option ρ)) (result : ρ),
    (∀ other ∈ program.list.take index, visitor other = .ok none) →
    visitor (program.item index) = .ok (some result) → program.accept visitor = .ok (some result)

/-- The visitor comes so far, and no interface before this one has the same unqualified
name. -/
def Reachable (program : Registration) (index : Fin program.list.length) : Prop :=
  index < fakeHierarchyLength - 1 ∧
    ∀ earlier : Fin program.list.length, earlier < index →
      (program.item earlier).interfaceId ≠ (program.item index).interfaceId

theorem split (program : Registration) (index : Fin program.list.length) :
    program.list = program.list.take index ++
      program.item index :: program.list.drop (index + 1) := by
  have rest : program.list.drop index =
      program.item index :: program.list.drop (index + 1) :=
    List.drop_eq_getElem_cons index.isLt
  rw [← rest, List.take_append_drop]

/-- No other registered interface is the same type. -/
theorem other_interface (program : Registration) (index : Fin program.list.length)
    {other : PsType}
    (member : other ∈ program.list.take index ∨ other ∈ program.list.drop (index + 1)) :
    other.interface ≠ (program.item index).interface := by
  have distinct := program.registrable.1
  rw [program.split index, List.map_append, List.map_cons] at distinct
  intro same
  rcases member with before | behind
  · have disjoint := List.disjoint_of_nodup_append distinct
    apply disjoint (List.mem_map_of_mem before)
    rw [same]
    exact List.mem_cons_self
  · have tail := (List.nodup_cons.mp distinct.of_append_right).1
    rw [← same] at tail
    exact tail (List.mem_map_of_mem behind)

/-- A visit that has no success before an interface within reach comes to it. -/
theorem accept_of_before {ρ : Type} (program : Registration)
    {index : Fin program.list.length} (near : index < fakeHierarchyLength - 1)
    {visitor : PsType → Except String (Option ρ)}
    (before : ∀ other ∈ program.list.take index, visitor other = .ok none) :
    program.accept visitor =
      Visitor.visit visitor (1 + index) (program.item index :: program.list.drop (index + 1)) := by
  have length : (program.list.take index).length = index := by
    rw [List.length_take]
    omega
  have bound : 1 + (program.list.take index).length ≤ fakeHierarchyLength := by omega
  have passed := Visitor.visit_append before 1
    (program.item index :: program.list.drop (index + 1)) bound
  rw [← program.split index, length] at passed
  rw [accept_eq, Visitor.accept, passed]

theorem visit_none {ρ : Type} {visitor : PsType → Except String (Option ρ)}
    {items : List PsType} (none : ∀ item ∈ items, visitor item = .ok none) (index : Nat) :
    Visitor.visit visitor index items = .ok Option.none := by
  induction items generalizing index with
  | nil => rfl
  | cons item rest ih =>
      rw [Visitor.visit, none item List.mem_cons_self]
      split
      · rfl
      · exact ih (fun other member => none other (List.mem_cons_of_mem _ member)) _

theorem visited_of_near {ρ : Type} (program : Registration)
    {index : Fin program.list.length} (near : index < fakeHierarchyLength - 1)
    {visitor : PsType → Except String (Option ρ)} {result : ρ}
    (before : ∀ other ∈ program.list.take index, visitor other = .ok none)
    (found : visitor (program.item index) = .ok (some result)) :
    program.accept visitor = .ok (some result) := by
  have inside : 1 + (index : Nat) ≠ fakeHierarchyLength := by omega
  rw [program.accept_of_before near before, Visitor.visit, if_neg inside, found]

theorem createProxy_other (query : String → Except String String) {typeId : Nat}
    {item : PsType} (other : item.interface ≠ typeId) :
    createProxyVisitor query typeId item = .ok none :=
  if_neg other

theorem proxy_of_near (program : Registration) {index : Fin program.list.length}
    (near : index < fakeHierarchyLength - 1) (query : String → Except String String) :
    program.accept (createProxyVisitor query (program.item index).interface) =
      createProxyVisitor query (program.item index).interface (program.item index) := by
  have before : ∀ other ∈ program.list.take index,
      createProxyVisitor query (program.item index).interface other = .ok none :=
    fun _ member => createProxy_other query (program.other_interface index (Or.inl member))
  have behind : ∀ other ∈ program.list.drop (index + 1),
      createProxyVisitor query (program.item index).interface other = .ok none :=
    fun _ member => createProxy_other query (program.other_interface index (Or.inr member))
  have inside : 1 + (index : Nat) ≠ fakeHierarchyLength := by omega
  rw [program.accept_of_before near before, Visitor.visit, if_neg inside]
  cases createProxyVisitor query (program.item index).interface (program.item index) with
  | error what => rfl
  | ok found =>
      cases found with
      | some result => rfl
      | none => exact visit_none behind _

/-- The stub for an id is that of the first interface within reach that has it. -/
theorem reachable_of_stub (program : Registration) {index : Fin program.list.length}
    (stub : program.accept (PsClient.createStubVisitor () (program.item index).interfaceId) =
      .ok (some ⟨program.item index, ()⟩)) : program.Reachable index := by
  rw [accept_eq, PsClient.accept_createStub] at stub
  obtain ⟨first, found, same⟩ := Option.map_eq_some_iff.mp (Except.ok.inj stub)
  cases same
  obtain ⟨_, place, bound, here, before⟩ := List.find?_eq_some_iff_getElem.mp found
  have limits : place < fakeHierarchyLength - 1 ∧ place < program.list.length := by
    rw [Visitor.reach, List.length_take] at bound
    omega
  have distinct : program.list.Nodup := program.registrable.1.of_map
  have position : place = index := by
    have equal : program.list[place] = program.item index := by
      simpa [Visitor.reach] using here
    exact (distinct.getElem_inj_iff).mp equal
  refine ⟨by omega, fun earlier sooner same => ?_⟩
  have other := before earlier (by omega)
  have there : (Visitor.reach program.list)[(earlier : Nat)] = program.item earlier := by
    simp [Visitor.reach, item]
  rw [there, same] at other
  simp at other

/-- An interface is resolved exactly when it is within the reach of the visitors and no
interface before it has the same id. -/
theorem resolves_iff_reachable (program : Registration) (index : Fin program.list.length) :
    program.Resolves index ↔ program.Reachable index := by
  constructor
  · intro resolves
    exact program.reachable_of_stub (resolves.stub Unit ())
  · intro reachable
    refine ⟨fun Obj inst => ?_, program.proxy_of_near reachable.1, ?_⟩
    · apply program.visited_of_near reachable.1
      · intro other member
        obtain ⟨place, bound, same⟩ := List.mem_take_iff_getElem.mp member
        have different := reachable.2 ⟨place, by omega⟩ (by show place < (index : Nat); omega)
        have name : (program.item ⟨place, by omega⟩) = other := same
        rw [name] at different
        rw [PsClient.createStubVisitor, if_neg different]
      · rw [PsClient.createStubVisitor, if_pos rfl]
    · intro ρ visitor result before found
      exact program.visited_of_near reachable.1 before found

/-- Two interfaces of the same name in two namespaces. -/
def homonyms : Registration := ⟨[⟨1, "IHello"⟩, ⟨2, "IHello"⟩], by decide⟩

def firstHomonym : Fin homonyms.list.length := ⟨0, by decide⟩

def secondHomonym : Fin homonyms.list.length := ⟨1, by decide⟩

/-- The stub for the second is made for the first. -/
theorem second_homonym_is_not_resolved :
    homonyms.accept (PsClient.createStubVisitor () (homonyms.item secondHomonym).interfaceId) =
      .ok (some ⟨homonyms.item firstHomonym, ()⟩) ∧ ¬ homonyms.Resolves secondHomonym := by
  have first : homonyms.accept
      (PsClient.createStubVisitor () (homonyms.item secondHomonym).interfaceId) =
        .ok (some ⟨homonyms.item firstHomonym, ()⟩) := by
    rw [accept_eq]
    rfl
  refine ⟨first, fun resolves => ?_⟩
  have same := first.symm.trans (resolves.stub Unit ())
  have interfaces := congrArg (fun stub => stub.ps.interface)
    (Option.some.inj (Except.ok.inj same))
  revert interfaces
  decide

end Registration

end Mif.Remote
