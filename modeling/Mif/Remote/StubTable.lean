import Mathlib.Data.List.Basic
import Mif.Lib.Assoc
import Mif.Lib.Transition
import Mif.Common.Fault
import Mif.Remote.Registry

set_option autoImplicit false

/- The table `PSClient::m_stubs` and the four remote calls of its `ObjectManager`. -/
namespace Mif.Remote

variable {Obj : Type}

/-- A stub object of the registered type `ps`. It always has an instance. -/
structure Stub (Obj : Type) where
  ps : PsType
  inst : Obj
  deriving DecidableEq, Repr

/-- An entry of the table: a pointer that may be null. `requested` is the interface
id for which the entry was made; the program does not store it. -/
structure Entry (Obj : Type) where
  requested : String
  stub : Option (Stub Obj)
  deriving DecidableEq, Repr

/-- `PSClient::m_stubs` -/
structure PsClient (Obj : Type) where
  stubs : List (String × Entry Obj)
  deriving DecidableEq, Repr

/-- The calls that a peer can make. -/
inductive Call
  | createObject (serviceId : Nat) (interfaceId : String)
  | destroyObject (instanceId : String)
  | queryInterface (instanceId interfaceId serviceId : String)
  | cloneReference (instanceId interfaceId : String)
  deriving DecidableEq, Repr

/-- What the rest of the process answers during one call: the factory, the services
asked for an interface, and `UuidGenerator`. -/
structure Environment (Obj : Type) where
  create : Nat → Except String (Option Obj)
  query : PsType → Obj → String → Except String (Option Obj)
  uuid : String

structure Action (Obj : Type) where
  call : Call
  environment : Environment Obj

/-- `DestroyObject` returns nothing, the other calls an instance id. -/
inductive Reply
  | void
  | instanceId (id : String)
  deriving DecidableEq, Repr

/-- `Stub::QueryInterfaceVisitor::Visit`, where `query` stands for `Service::Query` of
the interface of the item and the cast of its result to `IService`. -/
def Stub.queryInterfaceVisitor (query : PsType → Obj → String → Except String (Option Obj))
    (inst : Obj) (interfaceId serviceId : String) (item : PsType) :
    Except String (Option Obj) :=
  if interfaceId = item.interfaceId then query item inst serviceId else .ok none

/-- `Stub::Query` -/
def Stub.query (items : List PsType)
    (query : PsType → Obj → String → Except String (Option Obj)) (stub : Stub Obj)
    (interfaceId serviceId : String) : Except String (Option Obj) :=
  Visitor.accept items (queryInterfaceVisitor query stub.inst interfaceId serviceId)

/-- A non-null stub of the interface that the entry was requested for. -/
def Entry.Holds (entry : Entry Obj) : Prop :=
  ∃ stub, entry.stub = some stub ∧ stub.ps.interfaceId = entry.requested

/-- The interface id for which a call would make an entry. -/
def Call.requested : Call → Option String
  | .createObject _ interfaceId => some interfaceId
  | .destroyObject _ => none
  | .queryInterface _ interfaceId _ => some interfaceId
  | .cloneReference _ interfaceId => some interfaceId

namespace PsClient

/-- `m_psInstanceId` -/
def psInstanceId : String := "0"

/-- `IObjectManager_PS`, whose stub is made by the constructor and not through the
registry. -/
def objectManagerPs : PsType := ⟨0, "IObjectManager"⟩

def new (objectManager : Obj) : PsClient Obj :=
  ⟨[(psInstanceId, ⟨objectManagerPs.interfaceId, some ⟨objectManagerPs, objectManager⟩⟩)]⟩

def keys (client : PsClient Obj) : List String := client.stubs.map Prod.fst

/-- `m_stubs.find(instanceId)` -/
def find (client : PsClient Obj) (instanceId : String) : Option (Entry Obj) :=
  client.stubs.lookup instanceId

def insert (client : PsClient Obj) (instanceId : String) (entry : Entry Obj) : PsClient Obj :=
  ⟨client.stubs ++ [(instanceId, entry)]⟩

def erase (client : PsClient Obj) (instanceId : String) : PsClient Obj :=
  ⟨client.stubs.filter fun item => item.1 ≠ instanceId⟩

/-- `CreateStubVisitor::Visit` -/
def createStubVisitor (inst : Obj) (interfaceId : String) (item : PsType) :
    Except String (Option (Stub Obj)) :=
  .ok (if item.interfaceId = interfaceId then some ⟨item, inst⟩ else none)

/-- `ObjectManager::AppendStub` for the id that the generator gives. The pointer that
the registry returns is inserted as it is. -/
def appendStub (items : List PsType) (client : PsClient Obj) (uuid : String) (inst : Option Obj)
    (interfaceId : String) : PsClient Obj × Outcome Reply :=
  match inst with
  | none => (client, .ok (.instanceId ""))
  | some inst =>
      if uuid ∈ client.keys then (client, .ok (.instanceId uuid))
      else
        match Visitor.accept items (createStubVisitor inst interfaceId) with
        | .error what => (client, throwing what)
        | .ok stub => (client.insert uuid ⟨interfaceId, stub⟩, .ok (.instanceId uuid))

def mustNotBeEmpty (method parameter : String) : String :=
  "[Mif::Remote::PSClient::" ++ method ++ "] Parameter \"" ++ parameter ++
    "\" must not be empty."

def notFound (method instanceId : String) : String :=
  "[Mif::Remote::PSClient::" ++ method ++ "] Instance with id \"" ++ instanceId ++
    "\" not found."

/-- `ObjectManager::CreateObject` -/
def createObject (items : List PsType) (client : PsClient Obj) (environment : Environment Obj)
    (serviceId : Nat) (interfaceId : String) : PsClient Obj × Outcome Reply :=
  if interfaceId = "" then
    (client, throwing (mustNotBeEmpty "CreateObject" "interfaceId"))
  else
    match environment.create serviceId with
    | .error what => (client, throwing what)
    | .ok inst => appendStub items client environment.uuid inst interfaceId

/-- `ObjectManager::DestroyObject` -/
def destroyObject (client : PsClient Obj) (instanceId : String) :
    PsClient Obj × Outcome Reply :=
  if instanceId = "" then
    (client, throwing (mustNotBeEmpty "DestrowObject" "instanceId"))
  else
    match client.find instanceId with
    | none => (client, throwing (notFound "DestroyObject" instanceId))
    | some _ => (client.erase instanceId, .ok .void)

/-- `ObjectManager::QueryInterface` -/
def queryInterface (items : List PsType) (client : PsClient Obj)
    (environment : Environment Obj) (instanceId interfaceId serviceId : String) :
    PsClient Obj × Outcome Reply :=
  match client.find instanceId with
  | none => (client, throwing (notFound "QueryInterface" instanceId))
  | some entry =>
      match entry.stub with
      | none => (client, undefined .nullDereference)
      | some stub =>
          match stub.query items environment.query interfaceId serviceId with
          | .error what => (client, throwing what)
          | .ok none => (client, .ok (.instanceId ""))
          | .ok (some inst) => appendStub items client environment.uuid (some inst) interfaceId

/-- `ObjectManager::CloneReference` -/
def cloneReference (items : List PsType) (client : PsClient Obj)
    (environment : Environment Obj) (instanceId interfaceId : String) :
    PsClient Obj × Outcome Reply :=
  match client.find instanceId with
  | none => (client, throwing (notFound "CloneReference" instanceId))
  | some entry =>
      match entry.stub with
      | none => (client, undefined .nullDereference)
      | some stub => appendStub items client environment.uuid (some stub.inst) interfaceId

def perform (items : List PsType) (client : PsClient Obj) (action : Action Obj) :
    PsClient Obj × Outcome Reply :=
  match action.call with
  | .createObject serviceId interfaceId =>
      createObject items client action.environment serviceId interfaceId
  | .destroyObject instanceId => destroyObject client instanceId
  | .queryInterface instanceId interfaceId serviceId =>
      queryInterface items client action.environment instanceId interfaceId serviceId
  | .cloneReference instanceId interfaceId =>
      cloneReference items client action.environment instanceId interfaceId

/-- One remote call. A call that throws leaves a client that goes on; behind an
undefined access there is no next state. -/
def step (items : List PsType) (client : PsClient Obj) (action : Action Obj) :
    Option (PsClient Obj) :=
  match perform items client action with
  | (_, .error (.undefined _)) => none
  | (next, _) => some next

def Sound (client : PsClient Obj) : Prop := ∀ item ∈ client.stubs, item.2.Holds

/-- An exception, or the empty instance id that stands for a null interface pointer. -/
def Failed (outcome : Outcome Reply) : Prop :=
  (∃ what, outcome = throwing what) ∨ outcome = .ok (.instanceId "")

/-- What a call has to do. -/
structure Good (items : List PsType) (client : PsClient Obj) (action : Action Obj) : Prop where
  defined : ∀ access, (perform items client action).2 ≠ undefined access
  sound : Sound (perform items client action).1
  /-- Either a stub of the interface is built and entered, or the call fails and the
  table stays as it was. -/
  answered : ∀ interfaceId, action.call.requested = some interfaceId →
    (∃ stub : Stub Obj, stub.ps.interfaceId = interfaceId ∧
      perform items client action =
        (client.insert action.environment.uuid ⟨interfaceId, some stub⟩,
          .ok (.instanceId action.environment.uuid))) ∨
    (perform items client action).1 = client ∧ Failed (perform items client action).2
  refused : ∀ interfaceId, action.call.requested = some interfaceId →
    interfaceId ∉ Visitor.interfaceIds items →
    (perform items client action).1 = client ∧ Failed (perform items client action).2

/-- The generated id is not in use. -/
def Fresh (client : PsClient Obj) (action : Action Obj) : Prop :=
  action.environment.uuid ∉ client.keys

instance (client : PsClient Obj) (action : Action Obj) : Decidable (Fresh client action) :=
  inferInstanceAs (Decidable (action.environment.uuid ∉ client.keys))

/-- Where the interface id of the peer reaches `AppendStub` unchecked, it is one of
the registered ids. -/
def Registered (items : List PsType) (client : PsClient Obj) (action : Action Obj) : Prop :=
  match action.call with
  | .createObject serviceId interfaceId =>
      interfaceId = "" ∨ (∀ inst, action.environment.create serviceId ≠ .ok (some inst)) ∨
        interfaceId ∈ Visitor.interfaceIds items
  | .cloneReference instanceId interfaceId =>
      client.find instanceId = none ∨ interfaceId ∈ Visitor.interfaceIds items
  | _ => True

end PsClient

theorem Stub.query_some {items : List PsType}
    {query : PsType → Obj → String → Except String (Option Obj)} {stub : Stub Obj}
    {interfaceId serviceId : String} {inst : Obj}
    (found : stub.query items query interfaceId serviceId = .ok (some inst)) :
    interfaceId ∈ Visitor.interfaceIds items := by
  obtain ⟨item, within, answer⟩ := Visitor.visit_some _ items 1 (by decide) inst found
  unfold Stub.queryInterfaceVisitor at answer
  split at answer
  · rename_i same
    exact List.mem_map.mpr ⟨item, within, same.symm⟩
  · cases answer

namespace PsClient

theorem sound_new (objectManager : Obj) : Sound (new objectManager) := by
  intro item member
  obtain rfl := List.mem_singleton.mp member
  exact ⟨_, rfl, rfl⟩

theorem sound_insert {client : PsClient Obj} {entry : Entry Obj} (instanceId : String)
    (sound : Sound client) (holds : entry.Holds) : Sound (client.insert instanceId entry) := by
  intro item member
  rcases List.mem_append.mp member with member | member
  · exact sound item member
  · obtain rfl := List.mem_singleton.mp member
    exact holds

theorem sound_erase {client : PsClient Obj} (instanceId : String) (sound : Sound client) :
    Sound (client.erase instanceId) := by
  intro item member
  exact sound item (List.mem_filter.mp member).1

/-- What a lookup in a sound table finds can be called. -/
theorem find_holds {client : PsClient Obj} {instanceId : String} {entry : Entry Obj}
    (sound : Sound client) (found : client.find instanceId = some entry) :
    ∃ stub, entry.stub = some stub := by
  obtain ⟨stub, holds, _⟩ := sound (instanceId, entry) (Assoc.mem_of_lookup found)
  exact ⟨stub, holds⟩

theorem accept_createStub (items : List PsType) (inst : Obj) (interfaceId : String) :
    Visitor.accept items (createStubVisitor inst interfaceId) =
      .ok (((Visitor.reach items).find? fun item => item.interfaceId = interfaceId).map
        (Stub.mk · inst)) :=
  Visitor.visit_id (Stub.mk · inst) interfaceId items 1 (by decide)

theorem appendStub_registered {items : List PsType} {client : PsClient Obj} {uuid : String}
    {interfaceId : String} (inst : Obj) (fresh : uuid ∉ client.keys)
    (registered : interfaceId ∈ Visitor.interfaceIds items) :
    ∃ stub : Stub Obj, stub.ps.interfaceId = interfaceId ∧
      appendStub items client uuid (some inst) interfaceId =
        (client.insert uuid ⟨interfaceId, some stub⟩, .ok (.instanceId uuid)) := by
  obtain ⟨item, within, same⟩ := List.mem_map.mp registered
  have exists_ : ((Visitor.reach items).find? fun item => item.interfaceId = interfaceId).isSome :=
    List.find?_isSome.mpr ⟨item, within, by simpa using same⟩
  obtain ⟨first, found⟩ := Option.isSome_iff_exists.mp exists_
  refine ⟨⟨first, inst⟩, by simpa using List.find?_some found, ?_⟩
  simp only [appendStub, fresh, ↓reduceIte, accept_createStub, found, Option.map_some]

theorem appendStub_unregistered {items : List PsType} {client : PsClient Obj} {uuid : String}
    {interfaceId : String} (inst : Obj) (fresh : uuid ∉ client.keys)
    (unregistered : interfaceId ∉ Visitor.interfaceIds items) :
    appendStub items client uuid (some inst) interfaceId =
      (client.insert uuid ⟨interfaceId, none⟩, .ok (.instanceId uuid)) := by
  have absent : ((Visitor.reach items).find? fun item => item.interfaceId = interfaceId) = none := by
    refine List.find?_eq_none.mpr ?_
    intro item within same
    exact unregistered (List.mem_map.mpr ⟨item, within, by simpa using same⟩)
  simp only [appendStub, fresh, ↓reduceIte, accept_createStub, absent, Option.map_none]

section

variable {items : List PsType} {client : PsClient Obj} {action : Action Obj}

theorem good_of_failed {outcome : Outcome Reply} (sound : Sound client)
    (failed : Failed outcome) (performed : perform items client action = (client, outcome)) :
    Good items client action := by
  refine ⟨?_, ?_, ?_, ?_⟩
  · rw [performed]
    intro access same
    rcases failed with ⟨what, failed⟩ | failed
    · cases failed.symm.trans same
    · cases failed.symm.trans same
  · rw [performed]
    exact sound
  · rw [performed]
    exact fun interfaceId _ => Or.inr ⟨rfl, failed⟩
  · rw [performed]
    exact fun interfaceId _ _ => ⟨rfl, failed⟩

theorem good_of_thrown {what : String} (sound : Sound client)
    (performed : perform items client action = (client, throwing what)) :
    Good items client action :=
  good_of_failed sound (Or.inl ⟨what, rfl⟩) performed

/-- A call that hands a registered interface id to `AppendStub`. -/
theorem good_of_registered {inst : Obj} {interfaceId : String} (sound : Sound client)
    (fresh : Fresh client action) (registered : interfaceId ∈ Visitor.interfaceIds items)
    (wanted : action.call.requested = some interfaceId)
    (performed : perform items client action =
      appendStub items client action.environment.uuid (some inst) interfaceId) :
    Good items client action := by
  obtain ⟨stub, same, appended⟩ := appendStub_registered inst fresh registered
  rw [appended] at performed
  refine ⟨?_, ?_, ?_, ?_⟩
  · rw [performed]
    exact ok_ne_undefined _
  · rw [performed]
    exact sound_insert _ sound ⟨stub, rfl, same⟩
  · intro other requested
    obtain rfl : interfaceId = other := Option.some.inj (wanted.symm.trans requested)
    exact Or.inl ⟨stub, same, performed⟩
  · intro other requested unregistered
    obtain rfl : interfaceId = other := Option.some.inj (wanted.symm.trans requested)
    exact absurd registered unregistered

/-- A call that hands any other interface id to `AppendStub` enters a null pointer. -/
theorem registered_of_good {inst : Obj} {interfaceId : String} (fresh : Fresh client action)
    (performed : perform items client action =
      appendStub items client action.environment.uuid (some inst) interfaceId)
    (good : Good items client action) : interfaceId ∈ Visitor.interfaceIds items := by
  by_contra unregistered
  have sound := good.sound
  rw [performed, appendStub_unregistered inst fresh unregistered] at sound
  obtain ⟨stub, holds, _⟩ :=
    sound (action.environment.uuid, ⟨interfaceId, none⟩) (by simp [insert])
  cases holds

theorem createObject_good_iff (sound : Sound client) (fresh : Fresh client action)
    {serviceId : Nat} {interfaceId : String}
    (called : action.call = .createObject serviceId interfaceId) :
    Good items client action ↔ Registered items client action := by
  have performed : perform items client action =
      createObject items client action.environment serviceId interfaceId := by
    simp only [perform, called]
  simp only [Registered, called]
  unfold createObject at performed
  split at performed
  · rename_i empty
    exact ⟨fun _ => Or.inl empty, fun _ => good_of_thrown sound performed⟩
  · rename_i nonempty
    cases created : action.environment.create serviceId with
    | error what =>
        rw [created] at performed
        refine ⟨fun _ => Or.inr (Or.inl ?_), fun _ => good_of_thrown sound performed⟩
        intro inst impossible
        cases impossible
    | ok value =>
        rw [created] at performed
        cases value with
        | none =>
            refine ⟨fun _ => Or.inr (Or.inl ?_),
              fun _ => good_of_failed sound (Or.inr rfl) performed⟩
            intro inst impossible
            cases impossible
        | some inst =>
            refine ⟨fun good => Or.inr (Or.inr (registered_of_good fresh performed good)), ?_⟩
            rintro (empty | never | registered)
            · exact absurd empty nonempty
            · exact absurd rfl (never inst)
            · exact good_of_registered sound fresh registered (by rw [called]; rfl) performed

theorem destroyObject_good (sound : Sound client) {instanceId : String}
    (called : action.call = .destroyObject instanceId) : Good items client action := by
  have performed : perform items client action = destroyObject client instanceId := by
    simp only [perform, called]
  unfold destroyObject at performed
  split at performed
  · exact good_of_thrown sound performed
  · split at performed
    · exact good_of_thrown sound performed
    · refine ⟨?_, ?_, ?_, ?_⟩
      · rw [performed]
        exact ok_ne_undefined _
      · rw [performed]
        exact sound_erase instanceId sound
      · intro interfaceId requested
        rw [called] at requested
        cases requested
      · intro interfaceId requested
        rw [called] at requested
        cases requested

theorem queryInterface_good (sound : Sound client) (fresh : Fresh client action)
    {instanceId interfaceId serviceId : String}
    (called : action.call = .queryInterface instanceId interfaceId serviceId) :
    Good items client action := by
  have performed : perform items client action =
      queryInterface items client action.environment instanceId interfaceId serviceId := by
    simp only [perform, called]
  unfold queryInterface at performed
  split at performed
  · exact good_of_thrown sound performed
  · rename_i entry found
    obtain ⟨stub, holds⟩ := find_holds sound found
    rw [holds] at performed
    dsimp only at performed
    split at performed
    · exact good_of_thrown sound performed
    · exact good_of_failed sound (Or.inr rfl) performed
    · rename_i inst answer
      -- A service was found through the registry, so `AppendStub` finds the id there too.
      exact good_of_registered sound fresh (Stub.query_some answer) (by rw [called]; rfl) performed

theorem cloneReference_good_iff (sound : Sound client) (fresh : Fresh client action)
    {instanceId interfaceId : String}
    (called : action.call = .cloneReference instanceId interfaceId) :
    Good items client action ↔ Registered items client action := by
  have performed : perform items client action =
      cloneReference items client action.environment instanceId interfaceId := by
    simp only [perform, called]
  simp only [Registered, called]
  unfold cloneReference at performed
  split at performed
  · rename_i absent
    exact ⟨fun _ => Or.inl absent, fun _ => good_of_thrown sound performed⟩
  · rename_i entry found
    obtain ⟨stub, holds⟩ := find_holds sound found
    rw [holds] at performed
    refine ⟨fun good => Or.inr (registered_of_good fresh performed good), ?_⟩
    rintro (absent | registered)
    · cases absent.symm.trans found
    · exact good_of_registered sound fresh registered (by rw [called]; rfl) performed

theorem good_iff_registered (sound : Sound client) (fresh : Fresh client action) :
    Good items client action ↔ Registered items client action := by
  cases called : action.call with
  | createObject serviceId interfaceId => exact createObject_good_iff sound fresh called
  | destroyObject instanceId =>
      simp only [Registered, called, iff_true]
      exact destroyObject_good sound called
  | queryInterface instanceId interfaceId serviceId =>
      simp only [Registered, called, iff_true]
      exact queryInterface_good sound fresh called
  | cloneReference instanceId interfaceId => exact cloneReference_good_iff sound fresh called

end

theorem sound_step {items : List PsType} {client next : PsClient Obj} {action : Action Obj}
    (good : Good items client action) (taken : step items client action = some next) :
    Sound next := by
  unfold step at taken
  split at taken
  · cases taken
  · rename_i after outcome _ performed
    cases taken
    have sound := good.sound
    rw [performed] at sound
    exact sound

/-- In a run of remote calls with fresh ids every call does what it has to do exactly
when no call hands an unregistered interface id to `AppendStub`. -/
theorem good_along_iff_registered (items : List PsType) (objectManager : Obj)
    (actions : List (Action Obj))
    (fresh : Transition.Along (step items) Fresh (new objectManager) actions) :
    Transition.Along (step items) (Good items) (new objectManager) actions ↔
      Transition.Along (step items) (Registered items) (new objectManager) actions := by
  have agree : ∀ (client : PsClient Obj) (action : Action Obj), Sound client →
      Fresh client action → (Good items client action ↔ Registered items client action) :=
    fun client action sound fresh => good_iff_registered sound fresh
  have preserved : ∀ (client : PsClient Obj) (action : Action Obj) (next : PsClient Obj),
      Sound client → Fresh client action → Good items client action →
      step items client action = some next → Sound next :=
    fun client action next _ _ good taken => sound_step good taken
  exact Transition.along_congr agree preserved actions (new objectManager)
    (sound_new objectManager) fresh

/-- A process with the interfaces of the library and one of its own. -/
def sampleItems : List PsType := [⟨1, "IService"⟩, objectManagerPs, ⟨2, "IHello"⟩]

/-- The factory makes object 1 and no service answers a query. -/
def sampleEnvironment (uuid : String) : Environment Nat :=
  ⟨fun _ => .ok (some 1), fun _ _ _ => .ok none, uuid⟩

/-- `CreateObject` and `CloneReference` for a registered interface. -/
def registeredCalls : List (Action Nat) :=
  [⟨.createObject 7 "IHello", sampleEnvironment "a"⟩,
    ⟨.cloneReference "a" "IService", sampleEnvironment "b"⟩]

theorem registered_calls_good :
    Transition.Along (step sampleItems) Fresh (new 0) registeredCalls ∧
      Transition.Along (step sampleItems) (Good sampleItems) (new 0) registeredCalls := by
  have fresh : Transition.Along (step sampleItems) Fresh (new 0) registeredCalls := by
    refine ⟨by decide, fun first taken => ?_⟩
    cases taken
    refine ⟨by decide, fun second taken => ?_⟩
    trivial
  refine ⟨fresh, (good_along_iff_registered sampleItems 0 registeredCalls fresh).mpr ?_⟩
  refine ⟨Or.inr (Or.inr (by decide)), fun first taken => ?_⟩
  cases taken
  exact ⟨Or.inr (by decide), fun second taken => trivial⟩

/-- An interface id that is not registered: the call succeeds with a null entry, and
the next call dereferences it. -/
def unregisteredCalls : List (Action Nat) :=
  [⟨.createObject 7 "IUnknown", sampleEnvironment "a"⟩,
    ⟨.queryInterface "a" "IService" "", sampleEnvironment "b"⟩]

theorem unregistered_stub_is_null :
    Transition.Along (step sampleItems) Fresh (new 0) unregisteredCalls ∧
      ¬ Transition.Along (step sampleItems) (Good sampleItems) (new 0) unregisteredCalls ∧
      (perform sampleItems (new 0) ⟨.createObject 7 "IUnknown", sampleEnvironment "a"⟩) =
        ((new 0).insert "a" ⟨"IUnknown", none⟩, .ok (.instanceId "a")) ∧
      (perform sampleItems ((new 0).insert "a" ⟨"IUnknown", none⟩)
          ⟨.queryInterface "a" "IService" "", sampleEnvironment "b"⟩).2 =
        undefined .nullDereference := by
  have created : perform sampleItems (new 0)
      ⟨.createObject 7 "IUnknown", sampleEnvironment "a"⟩ =
        ((new 0).insert "a" ⟨"IUnknown", none⟩, .ok (.instanceId "a")) := by
    decide
  refine ⟨?_, ?_, created, by decide⟩
  · refine ⟨by decide, fun first taken => ?_⟩
    cases taken
    exact ⟨by decide, fun second taken => trivial⟩
  · rintro ⟨good, _⟩
    have sound := good.sound
    rw [created] at sound
    obtain ⟨stub, holds, _⟩ := sound ("a", ⟨"IUnknown", none⟩) (by decide)
    cases holds

end PsClient

end Mif.Remote
