import Mathlib.Logic.Function.Basic
import Mif.Lib.Tally
import Mif.Lib.Transition
import Mif.Common.Fault
import Mif.Remote.Registry
import Mif.Remote.StubTable

set_option autoImplicit false

/- Two connected `PSClient`s: the entries of their tables, and the proxies that are there to
remove them. -/
namespace Mif.Remote

variable {Obj : Type}

inductive Side
  | left
  | right
  deriving DecidableEq, Repr

def Side.other : Side → Side
  | .left => .right
  | .right => .left

@[simp] theorem Side.other_other (side : Side) : side.other.other = side := by
  cases side <;> rfl

/-- A proxy, or an instance id on its way to become one: where it is, the entry of the other
side that it stands for, and whether it has an `m_manager`. -/
structure Reference where
  side : Side
  instanceId : String
  managed : Bool
  deriving DecidableEq, Repr

/-- The table and the key of the entry. -/
def Reference.entry (reference : Reference) : Side × String :=
  (reference.side.other, reference.instanceId)

/-- The proxy removes an entry when it is destroyed. -/
def Reference.owns (reference : Reference) : Bool :=
  reference.managed && reference.instanceId ≠ ""

/-- The two clients. `appended` and `destroyed` record the ids that `AppendStub` entered and
that `DestroyObject` removed. -/
structure Link (Obj : Type) where
  tables : Side → PsClient Obj
  /-- Ids of arguments on the way to a side. -/
  arguments : List (Side × String)
  transit : List Reference
  proxies : List Reference
  appended : List (Side × String)
  destroyed : List (Side × String)

namespace Link

/-- What the two processes do. A call is taken apart: the other side enters a stub, the id
goes back, and a proxy is made of it. What the two sides do in between is up to them. -/
inductive Event (Obj : Type)
  /-- `CreateService` at a side -/
  | create (side : Side) (serviceId : Nat) (interfaceId : String) (environment : Environment Obj)
  /-- `Proxy::QueryRemoteInterface` -/
  | query (proxy : Reference) (interfaceId serviceId : String) (environment : Environment Obj)
  /-- A call through a proxy returns an interface. -/
  | result (proxy : Reference) (inst : Option Obj) (interfaceId uuid : String)
  /-- A call through a proxy has an interface as an argument. -/
  | argument (proxy : Reference) (inst : Option Obj) (interfaceId uuid : String)
  /-- `Stub::PrepareParam` at a side -/
  | clone (side : Side) (instanceId interfaceId : String) (environment : Environment Obj)
  | arrive (reference : Reference)
  /-- `Proxy::~Proxy` -/
  | release (proxy : Reference)

def new (managers : Side → Obj) : Link Obj :=
  ⟨fun side => .new (managers side), [], [], [], [], []⟩

/-- A side after a call that may have entered a stub. -/
def record (link : Link Obj) (side : Side) (client : PsClient Obj) (uuid : String) : Link Obj :=
  { link with
    tables := Function.update link.tables side client
    appended := link.appended ++
      if (link.tables side).stubs.length < client.stubs.length then [(side, uuid)] else [] }

/-- The end of a call of a side: what is left, and the instance id that it returned. -/
def called (link : Link Obj) (side : Side) (uuid : String)
    (performed : PsClient Obj × Outcome Reply) : Option (Link Obj × Option String) :=
  match performed.2 with
  | .error (.undefined _) => none
  | .ok (.instanceId id) => some (link.record side performed.1 uuid, some id)
  | _ => some (link.record side performed.1 uuid, none)

def send (link : Link Obj) (reference : Reference) : Link Obj :=
  { link with transit := link.transit ++ [reference] }

/-- An id that is not empty is sent back. -/
def reply (managed : Bool) (side : Side) : Link Obj × Option String → Link Obj
  | (link, some id) => if id = "" then link else link.send ⟨side, id, managed⟩
  | (link, none) => link

/-- An argument goes to the other side. `ObjectCleaner::AppendId` does nothing with its id. -/
def pass (side : Side) : Link Obj × Option String → Link Obj
  | (link, some id) =>
      if id = "" then link else { link with arguments := link.arguments ++ [(side, id)] }
  | (link, none) => link

/-- The destructor calls `DestroyObject` and catches what it throws. -/
def destroy (link : Link Obj) (proxy : Reference) : Link Obj :=
  if proxy.managed then
    let performed := (link.tables proxy.side.other).destroyObject proxy.instanceId
    { link with
      tables := Function.update link.tables proxy.side.other performed.1
      destroyed := link.destroyed ++
        match performed.2 with
        | .ok _ => [proxy.entry]
        | .error _ => [] }
  else link

variable (items : List PsType)

def step (link : Link Obj) : Event Obj → Option (Link Obj)
  | .create side serviceId interfaceId environment =>
      (link.called side.other environment.uuid ((link.tables side.other).createObject items
        environment serviceId interfaceId)).map fun ended =>
          match ended with
          -- the proxy is made with an empty id as well
          | (next, some id) => next.send ⟨side, id, true⟩
          | (next, none) => next
  | .query proxy interfaceId serviceId environment =>
      -- without a manager the call has no object
      if proxy ∈ link.proxies ∧ proxy.managed = true then
        (link.called proxy.side.other environment.uuid
          ((link.tables proxy.side.other).queryInterface items environment proxy.instanceId
            interfaceId serviceId)).map (reply true proxy.side)
      else none
  | .result proxy inst interfaceId uuid =>
      if proxy ∈ link.proxies then
        (link.called proxy.side.other uuid ((link.tables proxy.side.other).appendStub items uuid
          inst interfaceId)).map (reply proxy.managed proxy.side)
      else none
  | .argument proxy inst interfaceId uuid =>
      if proxy ∈ link.proxies then
        (link.called proxy.side uuid ((link.tables proxy.side).appendStub items uuid inst
          interfaceId)).map (pass proxy.side.other)
      else none
  | .clone side instanceId interfaceId environment =>
      if (side, instanceId) ∈ link.arguments then
        (link.called side.other environment.uuid ((link.tables side.other).cloneReference items
          environment instanceId interfaceId)).map fun ended =>
            let next := reply false side ended
            { next with arguments := next.arguments.erase (side, instanceId) }
      else none
  | .arrive reference =>
      if reference ∈ link.transit then
        some { link with
          transit := link.transit.erase reference
          proxies := link.proxies ++ [reference] }
      else none
  | .release proxy =>
      if proxy ∈ link.proxies then
        some { link.destroy proxy with proxies := link.proxies.erase proxy }
      else none

/-- The side that a generated id is for. -/
def Event.draws : Event Obj → Option (Side × String)
  | .create side _ _ environment => some (side.other, environment.uuid)
  | .query proxy _ _ environment => some (proxy.side.other, environment.uuid)
  | .result proxy _ _ uuid => some (proxy.side.other, uuid)
  | .argument proxy _ _ uuid => some (proxy.side, uuid)
  | .clone side _ _ environment => some (side.other, environment.uuid)
  | _ => none

/-- The generator gives no id twice. -/
def Fresh (link : Link Obj) (event : Event Obj) : Prop :=
  ∀ entry ∈ event.draws, entry.2 ≠ "" ∧ entry.2 ≠ PsClient.psInstanceId ∧ entry ∉ link.appended

/-- Every proxy is destroyed and nothing is under way. -/
structure Ended (link : Link Obj) : Prop where
  proxies : link.proxies = []
  transit : link.transit = []

open Tally (tally)

/-- The tables have nothing but the object managers, and every id that was appended was
removed once. -/
structure Settled (link : Link Obj) : Prop where
  tables : ∀ side, (link.tables side).keys = [PsClient.psInstanceId]
  removed : ∀ entry ∈ link.appended, tally id link.destroyed entry = 1

/-- The event is no call with an interface as an argument, unless that is null. -/
def PassesNoInterface (_ : Link Obj) : Event Obj → Prop
  | .argument _ (some _) _ _ => False
  | _ => True

end Link

namespace PsClient

/-- What a call that may enter a stub does: it enters one under the generated id and returns
the id, or it leaves the table as it was. -/
inductive Appends (client : PsClient Obj) (uuid : String) :
    PsClient Obj × Outcome Reply → Prop
  | entered (entry : Entry Obj) :
      Appends client uuid (client.insert uuid entry, .ok (.instanceId uuid))
  | empty : Appends client uuid (client, .ok (.instanceId ""))
  | thrown (fault : Fault) : Appends client uuid (client, .error fault)

variable (items : List PsType) {client : PsClient Obj} {uuid : String}

theorem appendStub_appends (fresh : uuid ∉ client.keys) (inst : Option Obj)
    (interfaceId : String) :
    Appends client uuid (client.appendStub items uuid inst interfaceId) := by
  unfold appendStub
  split
  · exact .empty
  · rw [if_neg fresh]
    split
    · exact .thrown _
    · exact .entered _

/-- A stub is made for every instance, if only a null one. -/
theorem appendStub_enters (fresh : uuid ∉ client.keys) (inst : Obj) (interfaceId : String) :
    ∃ entry, client.appendStub items uuid (some inst) interfaceId =
      (client.insert uuid entry, .ok (.instanceId uuid)) := by
  unfold appendStub
  dsimp only
  rw [if_neg fresh, accept_createStub]
  exact ⟨_, rfl⟩

variable {environment : Environment Obj} (fresh : environment.uuid ∉ client.keys)
include fresh

theorem createObject_appends (serviceId : Nat) (interfaceId : String) :
    Appends client environment.uuid
      (client.createObject items environment serviceId interfaceId) := by
  unfold createObject
  split
  · exact .thrown _
  · split
    · exact .thrown _
    · exact appendStub_appends items fresh _ _

theorem queryInterface_appends (instanceId interfaceId serviceId : String) :
    Appends client environment.uuid
      (client.queryInterface items environment instanceId interfaceId serviceId) := by
  unfold queryInterface
  split
  · exact .thrown _
  · split
    · exact .thrown _
    · split
      · exact .thrown _
      · exact .empty
      · exact appendStub_appends items fresh _ _

theorem cloneReference_appends (instanceId interfaceId : String) :
    Appends client environment.uuid
      (client.cloneReference items environment instanceId interfaceId) := by
  unfold cloneReference
  split
  · exact .thrown _
  · split
    · exact .thrown _
    · exact appendStub_appends items fresh _ _

end PsClient

namespace Link

open Tally (tally)

/-- A stub is entered. -/
def enter (link : Link Obj) (side : Side) (uuid : String) (entry : Entry Obj) : Link Obj :=
  { link with
    tables := Function.update link.tables side ((link.tables side).insert uuid entry)
    appended := link.appended ++ [(side, uuid)] }

/-- A call enters a stub, or leaves everything as it was. -/
theorem called_appends {link next : Link Obj} {side : Side} {uuid : String}
    {performed : PsClient Obj × Outcome Reply} {returned : Option String}
    (appends : (link.tables side).Appends uuid performed)
    (ended : link.called side uuid performed = some (next, returned)) :
    (∃ entry, next = link.enter side uuid entry ∧ returned = some uuid) ∨
      next = link ∧ (returned = none ∨ returned = some "") := by
  have same : link.record side (link.tables side) uuid = link := by
    simp [record]
  cases appends with
  | entered entry =>
      cases ended
      left
      refine ⟨entry, ?_, rfl⟩
      simp [record, enter, PsClient.insert]
  | empty =>
      cases ended
      exact Or.inr ⟨same, Or.inr rfl⟩
  | thrown fault =>
      cases fault with
      | undefined access => cases ended
      | exception what =>
          cases ended
          exact Or.inr ⟨same, Or.inl rfl⟩

/-- How often a table has an entry. -/
def entries (link : Link Obj) (entry : Side × String) : Nat :=
  tally id (link.tables entry.1).keys entry.2

/-- How often a reference owns the entry. -/
def held (link : Link Obj) (entry : Side × String) : Nat :=
  tally Reference.entry (link.transit.filter Reference.owns) entry +
    tally Reference.entry (link.proxies.filter Reference.owns) entry

/-- The entry of the object manager. -/
def manager (entry : Side × String) : Nat := tally id [PsClient.psInstanceId] entry.2

/-- The entries that nobody owns. -/
def lost (link : Link Obj) (entry : Side × String) : Int :=
  link.entries entry - manager entry - link.held entry

structure Invariant (link : Link Obj) : Prop where
  covered : ∀ entry, 0 ≤ link.lost entry
  logged : ∀ entry, link.entries entry + tally id link.destroyed entry =
    tally id link.appended entry + manager entry
  distinct : ∀ entry, tally id link.appended entry ≤ 1
  named : ∀ entry ∈ link.appended, entry.2 ≠ "" ∧ entry.2 ≠ PsClient.psInstanceId

/-- At the beginning there are the object managers only. -/
theorem lost_new (managers : Side → Obj) (entry : Side × String) :
    (new managers).lost entry = 0 := by
  have same : (new managers).entries entry = manager entry := rfl
  have none : (new managers).held entry = 0 := rfl
  rw [lost, same, none]
  omega

theorem invariant_new (managers : Side → Obj) : Invariant (new managers) := by
  constructor
  · intro entry
    have none := lost_new managers entry
    omega
  · intro entry
    exact Nat.add_comm _ _
  · intro entry
    exact Nat.zero_le _
  · intro entry impossible
    cases impossible

theorem entries_enter (link : Link Obj) (side : Side) (uuid : String) (added : Entry Obj)
    (entry : Side × String) :
    (link.enter side uuid added).entries entry =
      link.entries entry + tally id [(side, uuid)] entry := by
  obtain ⟨table, key⟩ := entry
  unfold entries enter
  dsimp only
  by_cases same : table = side
  · subst same
    rw [Function.update_self]
    have keys : ((link.tables table).insert uuid added).keys = (link.tables table).keys ++ [uuid] := by
      simp [PsClient.keys, PsClient.insert]
    rw [keys, Tally.tally_append]
    simp [tally]
  · rw [Function.update_of_ne same]
    have none : tally id [(side, uuid)] (table, key) = 0 := by
      apply Tally.tally_single_ne
      intro equal
      exact same (congrArg Prod.fst equal).symm
    omega

theorem entries_erase {link : Link Obj} {side : Side} {instanceId : String}
    (present : link.entries (side, instanceId) = 1) (entry : Side × String) :
    tally id ((Function.update link.tables side ((link.tables side).erase instanceId))
        entry.1).keys entry.2 + tally id [(side, instanceId)] entry = link.entries entry := by
  obtain ⟨table, key⟩ := entry
  by_cases same : table = side
  · subst same
    have keys : ((link.tables table).erase instanceId).keys =
        (link.tables table).keys.filter fun key => id key ≠ instanceId := by
      simp only [PsClient.keys, PsClient.erase, List.filter_map]
      rfl
    rw [Function.update_self, keys]
    by_cases removed : key = instanceId
    · subst removed
      rw [Tally.tally_remove_self, present, Nat.zero_add]
      exact Tally.tally_single id (table, key)
    · have none : tally id [(table, instanceId)] (table, key) = 0 := by
        apply Tally.tally_single_ne
        intro equal
        exact removed (congrArg Prod.snd equal).symm
      rw [Tally.tally_remove_ne removed, none]
      rfl
  · have none : tally id [(side, instanceId)] (table, key) = 0 := by
      apply Tally.tally_single_ne
      intro equal
      exact same (congrArg Prod.fst equal).symm
    rw [Function.update_of_ne same, none]
    rfl

/-- A step that leaves these entries with nobody to remove them. -/
structure Leaves (link : Link Obj) (leaked : List (Side × String)) (next : Link Obj) : Prop where
  lost : ∀ entry, next.lost entry = link.lost entry + tally id leaked entry
  logged : ∀ entry, next.entries entry + tally id next.destroyed entry =
    tally id next.appended entry + manager entry
  distinct : ∀ entry, tally id next.appended entry ≤ 1
  named : ∀ entry ∈ next.appended, entry.2 ≠ "" ∧ entry.2 ≠ PsClient.psInstanceId

theorem Leaves.invariant {link next : Link Obj} {leaked : List (Side × String)}
    (invariant : link.Invariant) (leaves : link.Leaves leaked next) : next.Invariant where
  covered := by
    intro entry
    have before := invariant.covered entry
    have after := leaves.lost entry
    omega
  logged := leaves.logged
  distinct := leaves.distinct
  named := leaves.named

section

variable {link : Link Obj} (invariant : link.Invariant)
include invariant

theorem leaves_same : link.Leaves [] link where
  lost _ := by simp
  logged := invariant.logged
  distinct := invariant.distinct
  named := invariant.named

/-- An empty id owns nothing. -/
theorem leaves_send_empty (side : Side) (managed : Bool) :
    link.Leaves [] (link.send ⟨side, "", managed⟩) where
  lost := by
    intro entry
    have held : (link.send ⟨side, "", managed⟩).held entry = link.held entry := by
      simp [Link.held, send, Reference.owns]
    have entries : (link.send ⟨side, "", managed⟩).entries entry = link.entries entry := rfl
    rw [Link.lost, Link.lost, held, entries, Tally.tally_nil]
    omega
  logged := invariant.logged
  distinct := invariant.distinct
  named := invariant.named

/-- An id that was generated is in no table. -/
theorem fresh_keys {side : Side} {uuid : String} (other : uuid ≠ PsClient.psInstanceId)
    (unused : (side, uuid) ∉ link.appended) : uuid ∉ (link.tables side).keys := by
  intro member
  have present : 1 ≤ link.entries (side, uuid) := Tally.one_le_tally id member
  have none : tally id link.appended (side, uuid) = 0 := Tally.tally_absent unused
  have mine : manager (side, uuid) = 0 := Tally.tally_single_ne (Ne.symm other)
  have logged := invariant.logged (side, uuid)
  omega

variable {side : Side} {uuid : String} (named : uuid ≠ "") (other : uuid ≠ PsClient.psInstanceId)
  (unused : (side, uuid) ∉ link.appended)
include named other unused

theorem leaves_enter (added : Entry Obj) :
    link.Leaves [(side, uuid)] (link.enter side uuid added) where
  lost := by
    intro entry
    have held : (link.enter side uuid added).held entry = link.held entry := rfl
    rw [Link.lost, Link.lost, entries_enter, held]
    omega
  logged := by
    intro entry
    have before := invariant.logged entry
    have appended : (link.enter side uuid added).appended = link.appended ++ [(side, uuid)] := rfl
    have destroyed : (link.enter side uuid added).destroyed = link.destroyed := rfl
    rw [entries_enter, appended, destroyed, Tally.tally_append]
    omega
  distinct := by
    intro entry
    have appended : (link.enter side uuid added).appended = link.appended ++ [(side, uuid)] := rfl
    rw [appended, Tally.tally_append]
    exact Tally.add_single_le id invariant.distinct (Tally.tally_absent unused) entry
  named := by
    intro entry within
    rcases List.mem_append.mp within with old | new
    · exact invariant.named entry old
    · obtain rfl := List.mem_singleton.mp new
      exact ⟨named, other⟩

/-- The id of a stub goes to a proxy, which removes the stub when it has a manager. -/
theorem leaves_send (added : Entry Obj) (managed : Bool) :
    link.Leaves (if managed then [] else [(side, uuid)])
      ((link.enter side uuid added).send ⟨side.other, uuid, managed⟩) := by
  have entered := leaves_enter invariant named other unused added
  refine ⟨?_, entered.logged, entered.distinct, entered.named⟩
  intro entry
  have before := entered.lost entry
  have entries : ((link.enter side uuid added).send ⟨side.other, uuid, managed⟩).entries entry =
      (link.enter side uuid added).entries entry := rfl
  have held : ((link.enter side uuid added).send ⟨side.other, uuid, managed⟩).held entry =
      (link.enter side uuid added).held entry +
        tally Reference.entry ([⟨side.other, uuid, managed⟩].filter Reference.owns) entry := by
    simp only [Link.held, send, List.filter_append, Tally.tally_append]
    omega
  rw [Link.lost] at before ⊢
  rw [entries, held]
  cases managed with
  | false =>
      have none : [(⟨side.other, uuid, false⟩ : Reference)].filter Reference.owns = [] := by
        simp [Reference.owns]
      rw [none, Tally.tally_nil, if_neg Bool.false_ne_true]
      omega
  | true =>
      have one : [(⟨side.other, uuid, true⟩ : Reference)].filter Reference.owns =
          [⟨side.other, uuid, true⟩] := by
        simp [Reference.owns, named]
      have moved : tally Reference.entry [⟨side.other, uuid, true⟩] entry =
          tally id [(side, uuid)] entry := by
        simp [tally, Reference.entry]
      rw [one, moved, if_pos rfl, Tally.tally_nil]
      omega

end

section

variable {link : Link Obj} (invariant : link.Invariant)
include invariant

theorem leaves_arrive {reference : Reference} (member : reference ∈ link.transit) :
    link.Leaves [] { link with
      transit := link.transit.erase reference
      proxies := link.proxies ++ [reference] } where
  lost := by
    intro entry
    have moved := Tally.tally_erase Reference.entry entry Reference.owns member
    simp only [Link.lost, Link.held, Link.entries, List.filter_append, Tally.tally_append,
      Tally.tally_nil]
    omega
  logged := invariant.logged
  distinct := invariant.distinct
  named := invariant.named

/-- What a proxy owns is in the table once. -/
theorem entries_owned {proxy : Reference} (member : proxy ∈ link.proxies)
    (owns : proxy.owns = true) : link.entries proxy.entry = 1 ∧ manager proxy.entry = 0 := by
  have kept : proxy ∈ link.proxies.filter Reference.owns := List.mem_filter.mpr ⟨member, owns⟩
  have counted := Tally.one_le_tally Reference.entry kept
  have covered := invariant.covered proxy.entry
  have logged := invariant.logged proxy.entry
  have distinct := invariant.distinct proxy.entry
  have other : proxy.entry.2 ≠ PsClient.psInstanceId := by
    intro same
    have none : tally id link.appended proxy.entry = 0 :=
      Tally.tally_absent fun within => (invariant.named _ within).2 same
    have one : manager proxy.entry = 1 := by
      rw [manager, same]
      exact Tally.tally_single id PsClient.psInstanceId
    simp only [Link.lost, Link.held] at covered
    omega
  have mine : manager proxy.entry = 0 := Tally.tally_single_ne (Ne.symm other)
  simp only [Link.lost, Link.held] at covered
  omega

omit invariant in
/-- A proxy that owns nothing leaves the tables as they are. -/
theorem destroy_unowned {proxy : Reference} (owns : proxy.owns = false) :
    link.destroy proxy = link := by
  unfold destroy
  split
  · rename_i managed
    have empty : proxy.instanceId = "" := by simpa [Reference.owns, managed] using owns
    simp [PsClient.destroyObject, empty, throwing]
  · rfl

/-- A proxy that owns an entry removes it. -/
theorem destroy_owned {proxy : Reference} (member : proxy ∈ link.proxies)
    (owns : proxy.owns = true) :
    link.destroy proxy = { link with
      tables := Function.update link.tables proxy.side.other
        ((link.tables proxy.side.other).erase proxy.instanceId)
      destroyed := link.destroyed ++ [proxy.entry] } := by
  have managed : proxy.managed = true ∧ proxy.instanceId ≠ "" := by
    simpa [Reference.owns] using owns
  have present := (entries_owned invariant member owns).1
  have found : ∃ entry, (link.tables proxy.side.other).find proxy.instanceId = some entry := by
    cases found : (link.tables proxy.side.other).find proxy.instanceId with
    | some entry => exact ⟨entry, rfl⟩
    | none =>
        have none : link.entries proxy.entry = 0 := by
          apply Tally.tally_absent
          intro within
          obtain ⟨item, inside, same⟩ := List.mem_map.mp within
          have missed := List.lookup_eq_none_iff.mp found item inside
          have equal : item.1 = proxy.instanceId := same
          simp [equal] at missed
        omega
  obtain ⟨entry, found⟩ := found
  have performed : (link.tables proxy.side.other).destroyObject proxy.instanceId =
      ((link.tables proxy.side.other).erase proxy.instanceId, .ok .void) := by
    unfold PsClient.destroyObject
    rw [if_neg managed.2, found]
  unfold destroy
  rw [if_pos managed.1, performed]

theorem leaves_release {proxy : Reference} (member : proxy ∈ link.proxies) :
    link.Leaves [] { link.destroy proxy with proxies := link.proxies.erase proxy } := by
  have moved := fun entry => Tally.tally_erase Reference.entry entry Reference.owns member
  cases owns : proxy.owns with
  | false =>
      have none : [proxy].filter Reference.owns = [] := by simp [owns]
      rw [destroy_unowned owns]
      refine ⟨?_, invariant.logged, invariant.distinct, invariant.named⟩
      intro entry
      have held := moved entry
      rw [none, Tally.tally_nil] at held
      simp only [Link.lost, Link.held, Link.entries, Tally.tally_nil]
      omega
  | true =>
      have one : [proxy].filter Reference.owns = [proxy] := by simp [owns]
      have entries := entries_erase (entries_owned invariant member owns).1
      rw [destroy_owned invariant member owns]
      refine ⟨?_, ?_, invariant.distinct, invariant.named⟩
      · intro entry
        have held := moved entry
        have gone := entries entry
        have same : tally Reference.entry [proxy] entry =
            tally id [(proxy.side.other, proxy.instanceId)] entry := rfl
        rw [one, same] at held
        simp only [Link.lost, Link.held, Link.entries, Tally.tally_nil] at gone ⊢
        omega
      · intro entry
        have gone := entries entry
        have before := invariant.logged entry
        have logged : tally id [proxy.entry] entry =
            tally id [(proxy.side.other, proxy.instanceId)] entry := rfl
        simp only [Link.entries, Tally.tally_append, logged] at gone before ⊢
        omega

end

/-- Every reference has a manager, and no argument is under way. -/
structure Clean (link : Link Obj) : Prop where
  transit : ∀ reference ∈ link.transit, reference.managed = true
  proxies : ∀ proxy ∈ link.proxies, proxy.managed = true
  arguments : link.arguments = []

theorem clean_send {link : Link Obj} (clean : link.Clean) {reference : Reference}
    (managed : reference.managed = true) : (link.send reference).Clean where
  transit := by
    intro other within
    rcases List.mem_append.mp within with old | new
    · exact clean.transit other old
    · rw [List.mem_singleton.mp new]
      exact managed
  proxies := clean.proxies
  arguments := clean.arguments

theorem clean_enter {link : Link Obj} (clean : link.Clean) (side : Side) (uuid : String)
    (added : Entry Obj) : (link.enter side uuid added).Clean :=
  ⟨clean.transit, clean.proxies, clean.arguments⟩

section

variable {link middle : Link Obj} (invariant : link.Invariant) {side : Side} {uuid : String}
  (fresh : uuid ≠ "" ∧ uuid ≠ PsClient.psInstanceId ∧ (side, uuid) ∉ link.appended)
  {performed : PsClient Obj × Outcome Reply}
  (appends : (link.tables side).Appends uuid performed) {returned : Option String}
  (ended : link.called side uuid performed = some (middle, returned))
include invariant fresh appends ended

/-- The reply of a call that was made through a reference. -/
theorem leaves_reply (managed : Bool) :
    ∃ leaked, link.Leaves leaked (reply managed side.other (middle, returned)) ∧
      (managed = true → leaked = [] ∧
        (link.Clean → (reply managed side.other (middle, returned)).Clean)) := by
  rcases called_appends appends ended with ⟨added, entered, id⟩ | ⟨same, id | id⟩
  · subst entered id
    have sent : reply managed side.other (link.enter side uuid added, some uuid) =
        (link.enter side uuid added).send ⟨side.other, uuid, managed⟩ := if_neg fresh.1
    rw [sent]
    refine ⟨_, leaves_send invariant fresh.1 fresh.2.1 fresh.2.2 added managed, ?_⟩
    intro manages
    subst manages
    exact ⟨rfl, fun clean => clean_send (clean_enter clean side uuid added) rfl⟩
  · subst same id
    exact ⟨[], leaves_same invariant, fun _ => ⟨rfl, fun clean => clean⟩⟩
  · subst same id
    exact ⟨[], leaves_same invariant, fun _ => ⟨rfl, fun clean => clean⟩⟩

end

/-- An interface that is passed is entered for nobody. -/
theorem leaves_argument {items : List PsType} {link next : Link Obj} {proxy : Reference}
    {inst : Obj} {interfaceId uuid : String} (invariant : link.Invariant)
    (fresh : link.Fresh (.argument proxy (some inst) interfaceId uuid))
    (taken : link.step items (.argument proxy (some inst) interfaceId uuid) = some next) :
    link.Leaves [(proxy.side, uuid)] next := by
  have drawn := fresh _ rfl
  obtain ⟨added, performed⟩ := PsClient.appendStub_enters items
    (fresh_keys invariant drawn.2.1 drawn.2.2) inst interfaceId
  have leaves := leaves_enter invariant drawn.1 drawn.2.1 drawn.2.2 added
  have recorded : link.record proxy.side ((link.tables proxy.side).insert uuid added) uuid =
      link.enter proxy.side uuid added := by
    simp [record, enter, PsClient.insert]
  simp only [step] at taken
  split at taken
  · obtain ⟨⟨middle, returned⟩, ended, same⟩ := Option.map_eq_some_iff.mp taken
    rw [performed] at ended
    simp only [called, recorded] at ended
    cases ended
    have passed : pass proxy.side.other (link.enter proxy.side uuid added, some uuid) =
        { link.enter proxy.side uuid added with
          arguments := link.arguments ++ [(proxy.side.other, uuid)] } := if_neg drawn.1
    rw [← same, passed]
    exact ⟨leaves.lost, leaves.logged, leaves.distinct, leaves.named⟩
  · cases taken

theorem destroy_kept (link : Link Obj) (proxy : Reference) :
    (link.destroy proxy).transit = link.transit ∧
      (link.destroy proxy).arguments = link.arguments := by
  unfold destroy
  split
  · exact ⟨rfl, rfl⟩
  · exact ⟨rfl, rfl⟩

/-- No step makes fewer entries lost, and one that passes no interface loses none, as long as
every reference has a manager. -/
theorem leaves_step {items : List PsType} {link next : Link Obj} {event : Event Obj}
    (invariant : link.Invariant) (fresh : link.Fresh event)
    (taken : link.step items event = some next) :
    ∃ leaked, link.Leaves leaked next ∧
      (link.Clean → link.PassesNoInterface event → leaked = [] ∧ next.Clean) := by
  cases event with
  | create side serviceId interfaceId environment =>
      have drawn := fresh _ rfl
      have appends := PsClient.createObject_appends items
        (fresh_keys invariant drawn.2.1 drawn.2.2) serviceId interfaceId
      obtain ⟨⟨middle, returned⟩, ended, same⟩ := Option.map_eq_some_iff.mp taken
      rcases called_appends appends ended with ⟨added, entered, id⟩ | ⟨unchanged, id | id⟩
      · subst entered id same
        have sent := leaves_send invariant drawn.1 drawn.2.1 drawn.2.2 added true
        rw [Side.other_other] at sent
        exact ⟨[], sent, fun clean _ => ⟨rfl, clean_send (clean_enter clean _ _ added) rfl⟩⟩
      · subst unchanged id same
        exact ⟨[], leaves_same invariant, fun clean _ => ⟨rfl, clean⟩⟩
      · subst unchanged id same
        exact ⟨[], leaves_send_empty invariant side true, fun clean _ => ⟨rfl, clean_send clean rfl⟩⟩
  | query proxy interfaceId serviceId environment =>
      simp only [step] at taken
      split at taken
      · have drawn := fresh _ rfl
        have appends := PsClient.queryInterface_appends items
          (fresh_keys invariant drawn.2.1 drawn.2.2) proxy.instanceId interfaceId serviceId
        obtain ⟨⟨middle, returned⟩, ended, same⟩ := Option.map_eq_some_iff.mp taken
        obtain ⟨leaked, leaves, none⟩ := leaves_reply invariant drawn appends ended true
        rw [Side.other_other, same] at leaves none
        exact ⟨leaked, leaves, fun clean _ => ⟨(none rfl).1, (none rfl).2 clean⟩⟩
      · cases taken
  | result proxy inst interfaceId uuid =>
      simp only [step] at taken
      split at taken
      · rename_i member
        have drawn := fresh _ rfl
        have appends := PsClient.appendStub_appends items
          (fresh_keys invariant drawn.2.1 drawn.2.2) inst interfaceId
        obtain ⟨⟨middle, returned⟩, ended, same⟩ := Option.map_eq_some_iff.mp taken
        obtain ⟨leaked, leaves, none⟩ := leaves_reply invariant drawn appends ended proxy.managed
        rw [Side.other_other, same] at leaves none
        refine ⟨leaked, leaves, fun clean _ => ?_⟩
        have managed := none (clean.proxies proxy member)
        exact ⟨managed.1, managed.2 clean⟩
      · cases taken
  | argument proxy inst interfaceId uuid =>
      have whole := taken
      simp only [step] at taken
      split at taken
      · have drawn := fresh _ rfl
        obtain ⟨⟨middle, returned⟩, ended, same⟩ := Option.map_eq_some_iff.mp taken
        cases inst with
        | none =>
            have appends : (link.tables proxy.side).Appends uuid ((link.tables
                proxy.side).appendStub items uuid none interfaceId) := .empty
            cases ended
            rcases called_appends appends rfl with ⟨added, _, id⟩ | ⟨unchanged, _⟩
            · exact absurd (Option.some.inj id).symm drawn.1
            · rw [unchanged] at same
              have nothing : pass proxy.side.other (link, some "") = link := by simp [pass]
              rw [← same, nothing]
              exact ⟨[], leaves_same invariant, fun clean _ => ⟨rfl, clean⟩⟩
        | some inst =>
            exact ⟨_, leaves_argument invariant fresh whole, fun _ impossible => impossible.elim⟩
      · cases taken
  | clone side instanceId interfaceId environment =>
      simp only [step] at taken
      split at taken
      · rename_i member
        have drawn := fresh _ rfl
        have appends := PsClient.cloneReference_appends items
          (fresh_keys invariant drawn.2.1 drawn.2.2) instanceId interfaceId
        obtain ⟨⟨middle, returned⟩, ended, same⟩ := Option.map_eq_some_iff.mp taken
        obtain ⟨leaked, leaves, _⟩ := leaves_reply invariant drawn appends ended false
        rw [Side.other_other] at leaves
        subst same
        refine ⟨leaked, ⟨leaves.lost, leaves.logged, leaves.distinct, leaves.named⟩, ?_⟩
        intro clean _
        rw [clean.arguments] at member
        cases member
      · cases taken
  | arrive reference =>
      simp only [step] at taken
      split at taken
      · rename_i member
        cases taken
        refine ⟨[], leaves_arrive invariant member, fun clean _ => ⟨rfl, ?_, ?_, clean.arguments⟩⟩
        · intro other within
          exact clean.transit other (List.mem_of_mem_erase within)
        · intro other within
          rcases List.mem_append.mp within with old | new
          · exact clean.proxies other old
          · rw [List.mem_singleton.mp new]
            exact clean.transit reference member
      · cases taken
  | release proxy =>
      simp only [step] at taken
      split at taken
      · rename_i member
        cases taken
        have kept := destroy_kept link proxy
        refine ⟨[], leaves_release invariant member, fun clean _ => ⟨rfl, ?_, ?_, ?_⟩⟩
        · rw [kept.1]
          exact clean.transit
        · intro other within
          exact clean.proxies other (List.mem_of_mem_erase within)
        · rw [kept.2]
          exact clean.arguments
      · cases taken

/-- What a step adds to the entries that nobody owns. -/
def cost (items : List PsType) (link : Link Obj) (event : Event Obj) (entry : Side × String) :
    Nat :=
  match link.step items event with
  | none => 0
  | some next => (next.lost entry - link.lost entry).toNat

theorem lost_step {items : List PsType} {link next : Link Obj} {event : Event Obj}
    (invariant : link.Invariant) (fresh : link.Fresh event)
    (taken : link.step items event = some next) (entry : Side × String) :
    next.lost entry = link.lost entry + link.cost items event entry := by
  obtain ⟨leaked, leaves, _⟩ := leaves_step invariant fresh taken
  have added := leaves.lost entry
  have paid : link.cost items event entry = tally id leaked entry := by
    unfold cost
    rw [taken]
    dsimp only
    omega
  rw [paid]
  exact added

/-- As long as every reference has a manager, the steps without a cost are those that pass no
interface. -/
theorem free_iff_passes_none {items : List PsType} {link : Link Obj} {event : Event Obj}
    (invariant : link.Invariant) (clean : link.Clean) (fresh : link.Fresh event)
    (enabled : (link.step items event).isSome) :
    (∀ entry, link.cost items event entry = 0) ↔ link.PassesNoInterface event := by
  obtain ⟨next, taken⟩ := Option.isSome_iff_exists.mp enabled
  constructor
  · intro free
    unfold PassesNoInterface
    split
    · rename_i proxy inst interfaceId uuid
      have leaves := (leaves_argument invariant fresh taken).lost (proxy.side, uuid)
      have one : tally id [(proxy.side, uuid)] (proxy.side, uuid) = 1 :=
        Tally.tally_single id (proxy.side, uuid)
      have raised := lost_step invariant fresh taken (proxy.side, uuid)
      rw [free] at raised
      omega
    · trivial
  · intro passes entry
    obtain ⟨leaked, leaves, none⟩ := leaves_step invariant fresh taken
    have same := leaves.lost entry
    have raised := lost_step invariant fresh taken entry
    rw [(none clean passes).1, Tally.tally_nil] at same
    omega

theorem settled_iff {link : Link Obj} (invariant : link.Invariant) (ended : link.Ended) :
    link.Settled ↔ ∀ entry, link.lost entry = 0 := by
  have free : ∀ entry, link.held entry = 0 := by
    intro entry
    rw [held, ended.proxies, ended.transit]
    rfl
  constructor
  · intro settled entry
    have only : link.entries entry = manager entry := by
      rw [entries, settled.tables entry.1]
      rfl
    rw [lost, only, free]
    omega
  · intro none
    have only : ∀ entry, link.entries entry = manager entry := by
      intro entry
      have balance := none entry
      rw [lost, free] at balance
      omega
    constructor
    · intro side
      exact List.perm_singleton.mp (Tally.perm_of_tally fun key => only (side, key))
    · intro entry member
      have logged := invariant.logged entry
      have most := invariant.distinct entry
      have least := Tally.one_le_tally id member
      have same := only entry
      simp only [id_eq] at least
      omega

/-- When every proxy is destroyed, the tables are empty and every entry was removed once exactly
when no call has passed an interface. -/
theorem settled_iff_passes_none (items : List PsType) (managers : Side → Obj)
    (events : List (Event Obj)) (last : Link Obj)
    (reached : Transition.run (step items) (new managers) events = some last)
    (fresh : Transition.Along (step items) Fresh (new managers) events) (ended : last.Ended) :
    last.Settled ↔ Transition.Along (step items) PassesNoInterface (new managers) events := by
  have kept : ∀ (link : Link Obj) (event : Event Obj) (next : Link Obj), link.Invariant →
      link.Fresh event → link.step items event = some next → next.Invariant := by
    intro link event next invariant fresh taken
    obtain ⟨leaked, leaves, _⟩ := leaves_step invariant fresh taken
    exact leaves.invariant invariant
  have start : (new managers).Clean := by
    constructor <;> simp [new]
  have free := Transition.along_free_iff
    (fun link event next invariant fresh taken => lost_step invariant fresh taken) kept events
    (new managers) last (invariant_new managers) fresh reached
  simp only [lost_new] at free
  rw [settled_iff (Transition.run_invariant kept (invariant_new managers) fresh reached) ended, free]
  have agree : ∀ (link : Link Obj) (event : Event Obj), link.Invariant ∧ link.Clean →
      link.Fresh event ∧ (link.step items event).isSome →
      ((∀ entry, link.cost items event entry = 0) ↔ link.PassesNoInterface event) :=
    fun link event held enabled => free_iff_passes_none held.1 held.2 enabled.1 enabled.2
  have preserved : ∀ (link : Link Obj) (event : Event Obj) (next : Link Obj),
      link.Invariant ∧ link.Clean → link.Fresh event ∧ (link.step items event).isSome →
      (∀ entry, link.cost items event entry = 0) → link.step items event = some next →
      next.Invariant ∧ next.Clean := by
    intro link event next held enabled free taken
    obtain ⟨leaked, leaves, clean⟩ := leaves_step held.1 enabled.1 taken
    exact ⟨leaves.invariant held.1, (clean held.2 ((agree link event held enabled).mp free)).2⟩
  exact Transition.along_congr agree preserved events (new managers)
    ⟨invariant_new managers, start⟩ (Transition.along_enabled fresh reached)

instance (link : Link Obj) (event : Event Obj) : Decidable (Fresh link event) :=
  match drawn : event.draws with
  | none => isTrue (by rw [Fresh, drawn]; intro entry impossible; cases impossible)
  | some entry => decidable_of_iff (entry.2 ≠ "" ∧ entry.2 ≠ PsClient.psInstanceId ∧
      entry ∉ link.appended) (by rw [Fresh, drawn]; simp)

/-- A service that is created and asked for itself, until its proxies are destroyed. -/
def sampleCreation : List (Event Nat) :=
  [.create .left 7 "IHello" (PsClient.sampleEnvironment "p"), .arrive ⟨.left, "p", true⟩,
    .result ⟨.left, "p", true⟩ (some 2) "IService" "q", .arrive ⟨.left, "q", true⟩,
    .release ⟨.left, "p", true⟩, .release ⟨.left, "q", true⟩]

theorem results_are_removed :
    ∃ last, Transition.run (step PsClient.sampleItems) (new fun _ => 0) sampleCreation = some last ∧
      last.Settled := by
  have fresh : Transition.Along (step PsClient.sampleItems) Fresh (new fun _ => 0)
      sampleCreation := by
    decide
  have passes : Transition.Along (step PsClient.sampleItems) PassesNoInterface (new fun _ => 0)
      sampleCreation := by
    simp [Transition.Along, sampleCreation, PassesNoInterface]
  exact ⟨_, rfl, (settled_iff_passes_none PsClient.sampleItems (fun _ => 0) sampleCreation _ rfl
    fresh ⟨rfl, rfl⟩).mpr passes⟩

/-- The service is called with an interface, which the other side clones. -/
def sampleCallback : List (Event Nat) :=
  [.create .left 7 "IHello" (PsClient.sampleEnvironment "p"), .arrive ⟨.left, "p", true⟩,
    .argument ⟨.left, "p", true⟩ (some 2) "IService" "a",
    .clone .right "a" "IService" (PsClient.sampleEnvironment "b"), .arrive ⟨.right, "b", false⟩,
    .release ⟨.right, "b", false⟩, .release ⟨.left, "p", true⟩]

/-- Two entries are left behind in the table of the caller. -/
theorem passed_interface_is_left_behind :
    Transition.Along (step PsClient.sampleItems) Fresh (new fun _ => 0) sampleCallback ∧
      ∃ last, Transition.run (step PsClient.sampleItems) (new fun _ => 0) sampleCallback =
          some last ∧ last.Ended ∧ last.arguments = [] ∧ ¬ last.Settled ∧
        (last.tables .left).keys = ["0", "a", "b"] := by
  refine ⟨by decide, _, rfl, ⟨rfl, rfl⟩, rfl, ?_, rfl⟩
  intro settled
  have table := settled.tables .left
  cases table

end Link

end Mif.Remote
