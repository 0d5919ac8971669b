import Mathlib.Data.List.Basic
import Mif.Service.InheritedList
import Mif.Remote.Registry
import Mif.Remote.ProcessData

set_option autoImplicit false

/- The class hierarchy of a stub: which interface ids it accepts and which method a call
comes to. -/
namespace Mif.Remote

open Mif.Service (InterfaceType makeInheritedIist mem_makeInheritedIist)

variable {api : TSerializer}

/-- `interface_ ## _PS`, made by `MIF_REMOTE_PS_BEGIN` and one `MIF_REMOTE_METHOD` for each
method. A method named twice, or one more than `GetNextCounter` can count, does not compile. -/
structure Ps (api : TSerializer) where
  interfaceId : String
  methods : List (Method api)
  distinct : (methods.map Method.name).Nodup
  counted : methods.length ≤ fakeHierarchyLength + 1

namespace Ps

/-- `GetStubBase(Hierarchy<index>)`: the classes of the methods from there on down to the
first. The overload of method number `n` takes a `Hierarchy<n + 1>`. -/
def getStubBase (ps : Ps api) (index : Nat) : List (Method api) :=
  (ps.methods.take (index - 1)).reverse

/-- `MethodStubs` -/
def methodStubs (ps : Ps api) : List (Method api) := ps.getStubBase fakeHierarchyLength

/-- The interface declares a method of this name. -/
def Declares (ps : Ps api) (method : String) : Prop := method ∈ ps.methods.map Method.name

/-- So does it, among the methods that have a class in the stub. -/
def Serves (ps : Ps api) (method : String) : Prop :=
  method ∈ (ps.methods.take (fakeHierarchyLength - 1)).map Method.name

instance (ps : Ps api) (method : String) : Decidable (ps.Declares method) :=
  inferInstanceAs (Decidable (method ∈ ps.methods.map Method.name))

instance (ps : Ps api) (method : String) : Decidable (ps.Serves method) :=
  inferInstanceAs (Decidable (method ∈ (ps.methods.take _).map Method.name))

/-- `InvokeMethod` in the classes of the methods of one interface. -/
def find (ps : Ps api) (method : String) : Option (Method api) :=
  ps.methodStubs.find? fun item => item.name = method

theorem find_eq_none (ps : Ps api) (method : String) :
    ps.find method = none ↔ ¬ ps.Serves method := by
  unfold find methodStubs getStubBase Serves
  rw [List.find?_eq_none, List.mem_map]
  simp only [List.mem_reverse, decide_eq_true_eq, not_exists, not_and]

theorem find_eq_some {ps : Ps api} {method : String} {item : Method api}
    (found : ps.find method = some item) :
    item ∈ ps.methods ∧ item.name = method ∧ ps.Serves method := by
  have member : item ∈ ps.methods.take (fakeHierarchyLength - 1) :=
    List.mem_reverse.mp (List.mem_of_find?_eq_some found)
  have named : item.name = method := by simpa using List.find?_some found
  refine ⟨List.mem_of_mem_take member, named, ?_⟩
  rw [← named]
  exact List.mem_map_of_mem member

end Ps

namespace StubItem

variable {α : Type}

/-- `StubItem::ContainInterfaceId` in the classes of these interfaces, each of which is
the base of the one before it. -/
def containInterfaceId (registry : α → Ps api) (id : String) : List α → Bool
  | [] => false
  | item :: rest => (registry item).interfaceId == id || containInterfaceId registry id rest

/-- `StubItem::InvokeMethod`: the interface and the method that `InvokeRealMethod` is
called for, if any. -/
def invokeMethod (registry : α → Ps api) (method : String) (items : List α) :
    Option (α × Method api) :=
  items.findSome? fun item => ((registry item).find method).map fun found => (item, found)

theorem containInterfaceId_iff (registry : α → Ps api) (id : String) (items : List α) :
    containInterfaceId registry id items = true ↔
      ∃ item ∈ items, (registry item).interfaceId = id := by
  induction items with
  | nil => simp [containInterfaceId]
  | cons item rest ih => simp [containInterfaceId, ih]

theorem invokeMethod_eq_none (registry : α → Ps api) (method : String) (items : List α) :
    invokeMethod registry method items = none ↔
      ∀ item ∈ items, ¬ (registry item).Serves method := by
  simp [invokeMethod, List.findSome?_eq_none_iff, Ps.find_eq_none]

theorem invokeMethod_eq_some (registry : α → Ps api) (method : String) (items : List α)
    (item : α) (found : Method api) :
    invokeMethod registry method items = some (item, found) ↔
      ∃ before after, items = before ++ item :: after ∧
        (registry item).find method = some found ∧
        ∀ other ∈ before, ¬ (registry other).Serves method := by
  rw [invokeMethod, List.findSome?_eq_some_iff]
  constructor
  · intro split
    obtain ⟨before, first, after, same, here, none⟩ := split
    obtain ⟨method, served, pair⟩ := Option.map_eq_some_iff.mp here
    cases pair
    refine ⟨before, after, same, served, fun other member => ?_⟩
    exact (Ps.find_eq_none _ _).mp (Option.map_eq_none_iff.mp (none other member))
  · intro split
    obtain ⟨before, after, same, here, none⟩ := split
    refine ⟨before, item, after, same, by rw [here]; rfl, fun other member => ?_⟩
    exact Option.map_eq_none_iff.mpr ((Ps.find_eq_none _ _).mpr (none other member))

/-- The methods of all classes in one list. -/
theorem find_methods (registry : α → Ps api) (method : String) (items : List α) :
    (items.flatMap fun item => (registry item).methodStubs).find?
        (fun item => item.name = method) =
      (invokeMethod registry method items).map Prod.snd := by
  induction items with
  | nil => rfl
  | cons item rest ih =>
      rw [List.flatMap_cons, List.find?_append, ih]
      change ((registry item).find method).or _ = _
      unfold invokeMethod
      rw [List.findSome?_cons]
      cases (registry item).find method with
      | none => rfl
      | some found => rfl

end StubItem

section

variable {α : Type} [DecidableEq α] {iService : α}

/-- The interfaces of the classes of `T::Stub`, from `StubItem<InheritStub<T>>` on down
through `BaseStubs<MakeInheritedIist<T>>`. -/
def stubItems (T : InterfaceType α iService) : List α := T.type :: makeInheritedIist T

/-- `T::Stub` -/
def stubOf (registry : α → Ps api) (T : InterfaceType α iService) : StubObject api where
  interfaceIds := (stubItems T).map fun item => (registry item).interfaceId
  methods := (stubItems T).flatMap fun item => (registry item).methodStubs

/-- The method that `Stub::Call` invokes, if it does not throw before. -/
def dispatch (registry : α → Ps api) (T : InterfaceType α iService) (interfaceId method : String) :
    Option (α × Method api) :=
  if StubItem.containInterfaceId registry interfaceId (stubItems T) then
    StubItem.invokeMethod registry method (stubItems T)
  else none

/-- The interface of the stub, or one of its bases that has a proxy and a stub. -/
def Provides (T : InterfaceType α iService) (type : α) : Prop :=
  type = T.type ∨ T.Ancestor type ∧ type ≠ iService

theorem mem_stubItems (T : InterfaceType α iService) (type : α) :
    type ∈ stubItems T ↔ Provides T type := by
  rw [stubItems, List.mem_cons, mem_makeInheritedIist, Provides]

theorem containInterfaceId_stubOf (registry : α → Ps api) (T : InterfaceType α iService)
    (id : String) :
    (stubOf registry T).containInterfaceId id =
      StubItem.containInterfaceId registry id (stubItems T) := by
  rw [Bool.eq_iff_iff, StubItem.containInterfaceId_iff]
  simp [StubObject.containInterfaceId, stubOf]

/-- A call with this header runs the method that `dispatch` gives, and throws if it gives
none. -/
theorem tried_stubOf (registry : α → Ps api) (T : InterfaceType α iService)
    {request : api.Deserializer} {interfaceId method : String}
    (interface : api.getInterface request = .ok interfaceId)
    (named : api.getMethod request = .ok method) :
    (∃ item, dispatch registry T interfaceId method = some item ∧
      (stubOf registry T).tried request = item.2.invokeRealMethod request) ∨
    (∃ what, dispatch registry T interfaceId method = none ∧
      (stubOf registry T).tried request = .raise (.thrown (.standard what))) := by
  have reads : (stubOf registry T).tried request =
      if (stubOf registry T).containInterfaceId interfaceId then
        (stubOf registry T).invokeMethod method request
      else .raise (.thrown (.standard ("[Mif::Remote::Stub::Call] Interface with id \"" ++
        interfaceId ++ "\" not supported for this object."))) := by
    unfold StubObject.tried
    rw [interface, named]
    rfl
  rw [reads, containInterfaceId_stubOf, dispatch]
  by_cases accepted : StubItem.containInterfaceId registry interfaceId (stubItems T) = true
  · have search := StubItem.find_methods registry method (stubItems T)
    change (stubOf registry T).methods.find? _ = _ at search
    rw [if_pos accepted, if_pos accepted, StubObject.invokeMethod, search]
    cases StubItem.invokeMethod registry method (stubItems T) with
    | none => exact Or.inr ⟨_, rfl, rfl⟩
    | some item => exact Or.inl ⟨item, rfl, rfl⟩
  · rw [if_neg accepted, if_neg accepted]
    exact Or.inr ⟨_, rfl, rfl⟩

/-- The list of inherited interfaces is exact, and so are the interface ids that a stub
accepts. -/
theorem inherited_list_exact (registry : α → Ps api) (T : InterfaceType α iService) :
    (makeInheritedIist T).Nodup ∧
      (∀ type, type ∈ makeInheritedIist T ↔ T.Ancestor type ∧ type ≠ iService) ∧
      ∀ id, (stubOf registry T).containInterfaceId id = true ↔
        id = (registry T.type).interfaceId ∨
          ∃ type, (T.Ancestor type ∧ type ≠ iService) ∧ id = (registry type).interfaceId := by
  refine ⟨Service.nodup_makeInheritedIist T, mem_makeInheritedIist T, fun id => ?_⟩
  rw [containInterfaceId_stubOf, StubItem.containInterfaceId_iff]
  simp only [mem_stubItems, Provides]
  constructor
  · intro accepted
    obtain ⟨type, own | above, same⟩ := accepted
    · exact Or.inl (by rw [← same, own])
    · exact Or.inr ⟨type, above, same.symm⟩
  · intro accepted
    rcases accepted with own | ⟨type, above, same⟩
    · exact ⟨T.type, Or.inl rfl, own.symm⟩
    · exact ⟨type, Or.inr above, same.symm⟩

/-- What a call has to do: invoke a method that an interface with the id of the request
declares under the name of the request, and throw if there is none. -/
structure Follows (registry : α → Ps api) (T : InterfaceType α iService)
    (interfaceId method : String) : Prop where
  invoked : ∀ type item, dispatch registry T interfaceId method = some (type, item) →
    Provides T type ∧ (registry type).interfaceId = interfaceId ∧
      item ∈ (registry type).methods ∧ item.name = method
  refused : dispatch registry T interfaceId method = none →
    ¬ ∃ type, Provides T type ∧ (registry type).interfaceId = interfaceId ∧
      (registry type).Declares method

/-- The stub does not accept the id; or an interface with the id has a class for the
method and no interface before it has one; or no interface has one, and none with the id
declares the method. -/
def Unshadowed (registry : α → Ps api) (T : InterfaceType α iService)
    (interfaceId method : String) : Prop :=
  (∀ type ∈ stubItems T, (registry type).interfaceId ≠ interfaceId) ∨
  (∃ before type after, stubItems T = before ++ type :: after ∧
    (registry type).interfaceId = interfaceId ∧ (registry type).Serves method ∧
    ∀ other ∈ before, ¬ (registry other).Serves method) ∨
  ((∀ type ∈ stubItems T, ¬ (registry type).Serves method) ∧
    ∀ type ∈ stubItems T, (registry type).interfaceId = interfaceId →
      ¬ (registry type).Declares method)

theorem not_accepted_iff (registry : α → Ps api) (T : InterfaceType α iService)
    (interfaceId : String) :
    ¬ StubItem.containInterfaceId registry interfaceId (stubItems T) = true ↔
      ∀ type ∈ stubItems T, (registry type).interfaceId ≠ interfaceId := by
  rw [StubItem.containInterfaceId_iff]
  simp

theorem follows_of_not_accepted {registry : α → Ps api} {T : InterfaceType α iService}
    {interfaceId : String} (method : String)
    (unknown : ∀ type ∈ stubItems T, (registry type).interfaceId ≠ interfaceId) :
    Follows registry T interfaceId method := by
  have refused : dispatch registry T interfaceId method = none :=
    if_neg ((not_accepted_iff registry T interfaceId).mpr unknown)
  constructor
  · intro type item invoked
    rw [refused] at invoked
    cases invoked
  · intro _ declared
    obtain ⟨type, provided, same, _⟩ := declared
    exact unknown type ((mem_stubItems T type).mpr provided) same

theorem accepted_of_mem {registry : α → Ps api} {T : InterfaceType α iService}
    {interfaceId : String} {type : α} (member : type ∈ stubItems T)
    (same : (registry type).interfaceId = interfaceId) (method : String) :
    dispatch registry T interfaceId method =
      StubItem.invokeMethod registry method (stubItems T) :=
  if_pos ((StubItem.containInterfaceId_iff _ _ _).mpr ⟨type, member, same⟩)

/-- The interface that the search comes to first is the one it stops at. -/
theorem dispatch_of_first {registry : α → Ps api} {T : InterfaceType α iService}
    {interfaceId method : String} {before after : List α} {type : α}
    (split : stubItems T = before ++ type :: after)
    (same : (registry type).interfaceId = interfaceId)
    (serves : (registry type).Serves method)
    (none : ∀ other ∈ before, ¬ (registry other).Serves method) :
    ∃ item, (registry type).find method = some item ∧
      dispatch registry T interfaceId method = some (type, item) := by
  have member : type ∈ stubItems T := by
    rw [split]
    exact List.mem_append_right _ List.mem_cons_self
  cases found : (registry type).find method with
  | none => exact absurd serves ((Ps.find_eq_none _ _).mp found)
  | some item =>
      refine ⟨item, rfl, ?_⟩
      rw [accepted_of_mem member same]
      exact (StubItem.invokeMethod_eq_some _ _ _ _ _).mpr ⟨before, after, split, found, none⟩

/-- A stub follows the interface of a request exactly when no other interface shadows its
method. -/
theorem dispatch_follows_iff (registry : α → Ps api) (T : InterfaceType α iService)
    (interfaceId method : String) :
    Follows registry T interfaceId method ↔ Unshadowed registry T interfaceId method := by
  constructor
  · intro follows
    by_cases accepted : StubItem.containInterfaceId registry interfaceId (stubItems T) = true
    · apply Or.inr
      have search : dispatch registry T interfaceId method =
          StubItem.invokeMethod registry method (stubItems T) := if_pos accepted
      cases found : StubItem.invokeMethod registry method (stubItems T) with
      | none =>
          have nowhere := (StubItem.invokeMethod_eq_none _ _ _).mp found
          refine Or.inr ⟨nowhere, fun type member same declares => ?_⟩
          exact follows.refused (search.trans found)
            ⟨type, (mem_stubItems T type).mp member, same, declares⟩
      | some result =>
          obtain ⟨type, item⟩ := result
          obtain ⟨before, after, split, here, none⟩ :=
            (StubItem.invokeMethod_eq_some _ _ _ _ _).mp found
          have named := follows.invoked type item (search.trans found)
          exact Or.inl ⟨before, type, after, split, named.2.1, (Ps.find_eq_some here).2.2, none⟩
    · exact Or.inl ((not_accepted_iff registry T interfaceId).mp accepted)
  · intro unshadowed
    rcases unshadowed with unknown | ⟨before, type, after, split, same, serves, none⟩ |
      ⟨nowhere, undeclared⟩
    · exact follows_of_not_accepted method unknown
    · obtain ⟨item, found, invoked⟩ := dispatch_of_first split same serves none
      have member : type ∈ stubItems T := by
        rw [split]
        exact List.mem_append_right _ List.mem_cons_self
      have own := Ps.find_eq_some found
      constructor
      · intro other reached result
        cases invoked.symm.trans result
        exact ⟨(mem_stubItems T type).mp member, same, own.1, own.2.1⟩
      · intro nothing
        rw [invoked] at nothing
        cases nothing
    · constructor
      · intro type item invoked
        have found : StubItem.invokeMethod registry method (stubItems T) = some (type, item) := by
          unfold dispatch at invoked
          split at invoked
          · exact invoked
          · cases invoked
        rw [(StubItem.invokeMethod_eq_none _ _ _).mpr nowhere] at found
        cases found
      · intro _ declared
        obtain ⟨type, provided, same, declares⟩ := declared
        exact undeclared type ((mem_stubItems T type).mpr provided) same declares

end

/- `IHuman::GetName()` and `IDeveloper::GetName(std::string)`, where `IDeveloper` inherits
`IHuman`. -/
section

def getName (types : List (Serialization.Boost.Ty Empty)) : Method sampleFormat :=
  { sampleMethod with name := "GetName", types := types }

def namedPs (interfaceId : String) : Ps sampleFormat where
  interfaceId := interfaceId
  methods := [getName (if interfaceId = "IDeveloper" then [.string] else [])]
  distinct := List.nodup_singleton _
  counted := Nat.le_add_left 1 fakeHierarchyLength

def iDeveloper : InterfaceType String "IService" :=
  ⟨"IDeveloper", Service.Object.iHuman, by decide, by
    refine ⟨by decide, by decide, ⟨fun _ => ⟨rfl, rfl⟩, by decide, trivial, trivial⟩, trivial⟩⟩

/-- A request for the method of `IHuman` comes to the one of `IDeveloper`. -/
theorem base_method_is_shadowed :
    (∃ item, dispatch namedPs iDeveloper "IHuman" "GetName" = some ("IDeveloper", item)) ∧
      ¬ Follows namedPs iDeveloper "IHuman" "GetName" := by
  have invoked : ∃ item,
      dispatch namedPs iDeveloper "IHuman" "GetName" = some ("IDeveloper", item) := ⟨_, rfl⟩
  refine ⟨invoked, fun follows => ?_⟩
  obtain ⟨item, same⟩ := invoked
  have named := (follows.invoked _ _ same).2.1
  revert named
  decide

end

end Mif.Remote
