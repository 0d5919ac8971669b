import Mathlib.Data.List.Basic
import Mif.Lib.Assoc
import Mif.Lib.Transition
import Mif.Common.Fault
import Mif.Remote.Registry
import Mif.Remote.StubTable
import Mif.Remote.Serialization.Format
import Mif.Remote.ProcessData

set_option autoImplicit false

/- The requests of a peer, and what they do to the entry of the object manager in the table
that the manager edits. -/
namespace Mif.Remote

variable {Obj : Type} {api : TSerializer}

/-- What the stub of a registered type does with an interface id and a method name. -/
structure StubTypes where
  /-- `ContainInterfaceId` -/
  contain : PsType → String → Bool
  /-- Whether `InvokeMethod` comes to the methods of `IObjectManager`. -/
  manages : PsType → Bool
  contain_manager : contain PsClient.objectManagerPs "IObjectManager" = true
  manages_manager : manages PsClient.objectManagerPs = true

/-- `GetParams` for the signatures of the four methods. -/
structure ManagerParams (api : TSerializer) where
  createObject : api.Deserializer → Outcome (Nat × String)
  destroyObject : api.Deserializer → Outcome String
  queryInterface : api.Deserializer → Outcome (String × String × String)
  cloneReference : api.Deserializer → Outcome (String × String)

/-- `InvokeMethod` of the stub of the manager, up to the call. -/
def ManagerParams.call (params : ManagerParams api) (incoming : Incoming api) : Outcome Call :=
  if incoming.method = "CreateObject" then
    (params.createObject incoming.message).map fun args => .createObject args.1 args.2
  else if incoming.method = "DestroyObject" then
    (params.destroyObject incoming.message).map .destroyObject
  else if incoming.method = "QueryInterface" then
    (params.queryInterface incoming.message).map fun args =>
      .queryInterface args.1 args.2.1 args.2.2
  else if incoming.method = "CloneReference" then
    (params.cloneReference incoming.message).map fun args => .cloneReference args.1 args.2
  else
    throwing ("[Mif::Remote::Stub::InvokeMethod] Method \"" ++ incoming.method ++ "\" not found.")

/-- A call of `AppendStub`, by a stub that returns an interface or by a proxy that is given
one. -/
structure Appending (Obj : Type) where
  uuid : String
  inst : Option Obj
  interfaceId : String

/-- A request that `ProcessData` does not refuse by its header, or a call of the process
itself. -/
inductive Event (api : TSerializer) (Obj : Type)
  | request (incoming : Incoming api) (environment : Environment Obj)
      (appended : List (Appending Obj))
  | appends (appended : List (Appending Obj))

/-- A process with a connection: its registered types and its object manager. -/
structure Host (api : TSerializer) (Obj : Type) where
  items : List PsType
  types : StubTypes
  params : ManagerParams api
  objectManager : Obj

namespace Host

variable [DecidableEq Obj] (host : Host api Obj)

def start : PsClient Obj := .new host.objectManager

/-- The calls of `AppendStub`, one after the other. -/
def appendAll (client : PsClient Obj) (appended : List (Appending Obj)) : PsClient Obj :=
  appended.foldl (fun client item =>
    (client.appendStub host.items item.uuid item.inst item.interfaceId).1) client

/-- What the request asks of the object manager, when it comes to it: its instance id is that
of a stub of the manager, which may have several, and the stub has the interface. -/
def reaches (client : PsClient Obj) (incoming : Incoming api) : Option (Outcome Call) :=
  match (client.find incoming.instanceId).bind Entry.stub with
  | none => none
  | some stub =>
      if stub.inst = host.objectManager ∧ host.types.manages stub.ps = true ∧
          host.types.contain stub.ps incoming.interfaceId = true then
        some (host.params.call incoming)
      else none

/-- A request to a stub of another object runs a method of it. -/
def runs (client : PsClient Obj) (incoming : Incoming api) : Bool :=
  match (client.find incoming.instanceId).bind Entry.stub with
  | none => false
  | some stub =>
      stub.inst ≠ host.objectManager && host.types.contain stub.ps incoming.interfaceId

/-- What is left of the table. A request that is refused or that throws leaves it as it was;
behind an undefined access there is no next state. -/
def step (client : PsClient Obj) : Event api Obj → Option (PsClient Obj)
  | .request incoming environment appended =>
      match host.reaches client incoming with
      | some (.ok call) => client.step host.items ⟨call, environment⟩
      | some (.error (.undefined _)) => none
      | some (.error (.exception _)) => some client
      | none =>
          if host.runs client incoming then some (host.appendAll client appended)
          else some client
  | .appends appended => some (host.appendAll client appended)

/-- The entry `0` is the one that the constructor made. -/
def ManagerBound (client : PsClient Obj) : Prop :=
  client.find PsClient.psInstanceId = some ⟨PsClient.objectManagerPs.interfaceId,
    some ⟨PsClient.objectManagerPs, host.objectManager⟩⟩

/-- The process goes on, with the manager where it was. -/
def KeepsManager (client : PsClient Obj) (event : Event api Obj) : Prop :=
  ∃ next, host.step client event = some next ∧ host.ManagerBound next

end Host

/-- The entry that a call uses the stub of. -/
def Call.uses : Call → Option String
  | .queryInterface instanceId _ _ => some instanceId
  | .cloneReference instanceId _ => some instanceId
  | _ => none

/-- The call does not destroy the entry `0`, and does not use a null stub. -/
structure Call.Spares (call : Call) (client : PsClient Obj) : Prop where
  destroys : call ≠ .destroyObject PsClient.psInstanceId
  uses : ∀ instanceId ∈ call.uses, ∀ entry ∈ client.find instanceId, entry.stub ≠ none

/-- No request asks the manager for a call that does not spare it. -/
def Host.SparesManager [DecidableEq Obj] (host : Host api Obj) (client : PsClient Obj) :
    Event api Obj → Prop
  | .request incoming _ _ =>
      (∀ call, host.reaches client incoming = some (.ok call) → call.Spares client) ∧
        ∀ access, host.reaches client incoming ≠ some (undefined access)
  | .appends _ => True

namespace PsClient

variable {client : PsClient Obj} {instanceId : String} {entry : Entry Obj}

theorem find_insert (found : client.find instanceId = some entry) (other : String)
    (added : Entry Obj) : (client.insert other added).find instanceId = some entry := by
  unfold find insert at *
  rw [List.lookup_append, found, Option.some_or]

theorem find_erase_self (client : PsClient Obj) (instanceId : String) :
    (client.erase instanceId).find instanceId = none :=
  Assoc.lookup_remove_self instanceId client.stubs

theorem find_erase_ne {other : String} (different : instanceId ≠ other) :
    (client.erase other).find instanceId = client.find instanceId :=
  Assoc.lookup_remove_ne different client.stubs

/-- `AppendStub` changes no entry that is there. -/
theorem find_appendStub (found : client.find instanceId = some entry) (items : List PsType)
    (uuid : String) (inst : Option Obj) (interfaceId : String) :
    (client.appendStub items uuid inst interfaceId).1.find instanceId = some entry := by
  unfold appendStub
  split
  · exact found
  · split
    · exact found
    · split
      · exact found
      · exact find_insert found _ _

theorem appendStub_defined (items : List PsType) (client : PsClient Obj) (uuid : String)
    (inst : Option Obj) (interfaceId : String) (access : Undefined) :
    (client.appendStub items uuid inst interfaceId).2 ≠ undefined access := by
  unfold appendStub
  split
  · exact ok_ne_undefined _ access
  · split
    · exact ok_ne_undefined _ access
    · split
      · exact throwing_ne_undefined _ access
      · exact ok_ne_undefined _ access

section

variable {items : List PsType} {action : Action Obj}

theorem step_of_defined
    (defined : ∀ access, (client.perform items action).2 ≠ undefined access) :
    client.step items action = some (client.perform items action).1 := by
  unfold step
  split
  · rename_i performed
    exact absurd (congrArg Prod.snd performed) (defined _)
  · rename_i performed
    rw [performed]

theorem step_of_undefined {access : Undefined}
    (performed : (client.perform items action).2 = undefined access) :
    client.step items action = none := by
  unfold step
  split
  · rfl
  · rename_i after outcome different same
    rw [same] at performed
    exact absurd performed (different access)

/-- A call that spares the entry `0` leaves it as it is, and is defined. -/
theorem perform_spares (found : client.find psInstanceId = some entry)
    (spares : action.call.Spares client) :
    (client.perform items action).1.find psInstanceId = some entry ∧
      ∀ access, (client.perform items action).2 ≠ undefined access := by
  unfold perform
  split
  · unfold createObject
    split
    · exact ⟨found, throwing_ne_undefined _⟩
    · split
      · exact ⟨found, throwing_ne_undefined _⟩
      · exact ⟨find_appendStub found _ _ _ _, appendStub_defined _ _ _ _ _⟩
  · rename_i instanceId called
    have different : psInstanceId ≠ instanceId := by
      intro same
      exact spares.destroys (called.trans (congrArg _ same.symm))
    unfold destroyObject
    split
    · exact ⟨found, throwing_ne_undefined _⟩
    · split
      · exact ⟨found, throwing_ne_undefined _⟩
      · exact ⟨(find_erase_ne different).trans found, ok_ne_undefined _⟩
  · rename_i instanceId interfaceId serviceId called
    have usable := spares.uses instanceId (by rw [called]; rfl)
    unfold queryInterface
    split
    · exact ⟨found, throwing_ne_undefined _⟩
    · rename_i used bound
      split
      · rename_i null
        exact absurd null (usable used bound)
      · split
        · exact ⟨found, throwing_ne_undefined _⟩
        · exact ⟨found, ok_ne_undefined _⟩
        · exact ⟨find_appendStub found _ _ _ _, appendStub_defined _ _ _ _ _⟩
  · rename_i instanceId interfaceId called
    have usable := spares.uses instanceId (by rw [called]; rfl)
    unfold cloneReference
    split
    · exact ⟨found, throwing_ne_undefined _⟩
    · rename_i used bound
      split
      · rename_i null
        exact absurd null (usable used bound)
      · exact ⟨find_appendStub found _ _ _ _, appendStub_defined _ _ _ _ _⟩

theorem perform_destroys (found : client.find psInstanceId = some entry)
    (called : action.call = .destroyObject psInstanceId) :
    client.perform items action = (client.erase psInstanceId, .ok .void) := by
  have named : ¬ psInstanceId = "" := by decide
  unfold perform
  rw [called]
  dsimp only
  unfold destroyObject
  rw [if_neg named, found]

theorem perform_null {instanceId : String} (uses : instanceId ∈ action.call.uses)
    {used : Entry Obj} (bound : client.find instanceId = some used) (null : used.stub = none) :
    (client.perform items action).2 = undefined .nullDereference := by
  unfold perform
  split
  · rename_i called
    rw [called] at uses
    cases uses
  · rename_i called
    rw [called] at uses
    cases uses
  · rename_i called
    rw [called] at uses
    cases uses
    unfold queryInterface
    rw [bound]
    dsimp only
    rw [null]
  · rename_i called
    rw [called] at uses
    cases uses
    unfold cloneReference
    rw [bound]
    dsimp only
    rw [null]

/-- The entry `0` survives a call exactly when the call spares it. -/
theorem step_keeps_iff (found : client.find psInstanceId = some entry) :
    (∃ next, client.step items action = some next ∧ next.find psInstanceId = some entry) ↔
      action.call.Spares client := by
  constructor
  · rintro ⟨next, taken, kept⟩
    constructor
    · intro called
      have performed : client.perform items action = _ := perform_destroys found called
      rw [step_of_defined (by rw [performed]; exact ok_ne_undefined _), performed] at taken
      cases taken
      rw [find_erase_self] at kept
      cases kept
    · intro instanceId uses used bound null
      rw [step_of_undefined (perform_null uses bound null)] at taken
      cases taken
  · intro spares
    have performed := @perform_spares Obj client entry items action found spares
    exact ⟨_, step_of_defined performed.2, performed.1⟩

end

end PsClient

namespace Host

variable [DecidableEq Obj] {host : Host api Obj} {client : PsClient Obj}

omit [DecidableEq Obj] in
theorem bound_appendAll (bound : host.ManagerBound client) (appended : List (Appending Obj)) :
    host.ManagerBound (host.appendAll client appended) := by
  induction appended generalizing client with
  | nil => exact bound
  | cons item rest ih => exact ih (PsClient.find_appendStub bound _ _ _ _)

theorem keeps_iff_spares (bound : host.ManagerBound client) (event : Event api Obj) :
    host.KeepsManager client event ↔ host.SparesManager client event := by
  cases event with
  | appends appended =>
      exact iff_of_true ⟨_, rfl, bound_appendAll bound appended⟩ trivial
  | request incoming environment appended =>
      unfold KeepsManager SparesManager
      simp only [step]
      cases reached : host.reaches client incoming with
      | none =>
          simp only [reduceCtorEq, false_implies, implies_true, ne_eq, not_false_eq_true, and_self,
            iff_true]
          split
          · exact ⟨_, rfl, bound_appendAll bound appended⟩
          · exact ⟨client, rfl, bound⟩
      | some outcome =>
          cases outcome with
          | ok call =>
              have called := @PsClient.step_keeps_iff Obj client _ host.items ⟨call, environment⟩
                bound
              dsimp only
              constructor
              · intro keeps
                constructor
                · intro other same
                  cases same
                  exact called.mp keeps
                · intro access impossible
                  cases impossible
              · intro spares
                exact called.mpr (spares.1 call rfl)
          | error fault =>
              cases fault with
              | exception what =>
                  apply iff_of_true
                  · exact ⟨client, rfl, bound⟩
                  · constructor
                    · intro call impossible
                      cases impossible
                    · intro access impossible
                      cases impossible
              | undefined access =>
                  apply iff_of_false
                  · rintro ⟨next, taken, _⟩
                    cases taken
                  · intro spares
                    exact spares.2 access rfl

/-- The object manager stays where it is through a run exactly when no request of the run
has it destroyed, or makes it use a null stub. -/
theorem manager_stays_iff_spared (host : Host api Obj) (events : List (Event api Obj)) :
    Transition.Along host.step host.KeepsManager host.start events ↔
      Transition.Along host.step host.SparesManager host.start events := by
  have preserved : ∀ (client : PsClient Obj) (event : Event api Obj) (next : PsClient Obj),
      host.ManagerBound client → True → host.KeepsManager client event →
      host.step client event = some next → host.ManagerBound next := by
    intro client event next bound _ keeps taken
    obtain ⟨other, same, kept⟩ := keeps
    rw [taken] at same
    cases same
    exact kept
  have always : Transition.Along host.step (fun _ _ => True) host.start events :=
    Transition.along_of_mem events (fun _ _ _ => trivial) host.start
  exact Transition.along_congr (fun client event bound _ => keeps_iff_spares bound event)
    preserved events host.start rfl always

end Host

/- A process whose messages are written by a binary archive. -/
namespace SampleHost

open Serialization.Boost (Ty Param itemArchive)

def format : TSerializer :=
  Serialization.Boost.format (itemArchive (fun _ : Unit => Nat) .binary) EvalOrder.rightToLeft

def params : ManagerParams format where
  createObject message := do
    match ← format.getParams message [.other (), .string] with
    | [⟨.other (), serviceId⟩, ⟨.string, interfaceId⟩] => return (serviceId, interfaceId)
    | _ => throwing "input stream error"
  destroyObject message := do
    match ← format.getParams message [.string] with
    | [⟨.string, instanceId⟩] => return instanceId
    | _ => throwing "input stream error"
  queryInterface message := do
    match ← format.getParams message [.string, .string, .string] with
    | [⟨.string, instanceId⟩, ⟨.string, interfaceId⟩, ⟨.string, serviceId⟩] =>
        return (instanceId, interfaceId, serviceId)
    | _ => throwing "input stream error"
  cloneReference message := do
    match ← format.getParams message [.string, .string] with
    | [⟨.string, instanceId⟩, ⟨.string, interfaceId⟩] => return (instanceId, interfaceId)
    | _ => throwing "input stream error"

def types : StubTypes where
  contain ps id := id = ps.interfaceId || id = "IService"
  manages ps := ps = PsClient.objectManagerPs
  contain_manager := by decide
  manages_manager := by decide

def host : Host format Nat := ⟨PsClient.sampleItems, types, params, 0⟩

/-- `DestroyObject` of the manager with one parameter. -/
def destroyObject (instanceId : String) : Event format Nat :=
  .request ⟨⟨"u", "request", "0", "IObjectManager", "DestroyObject", none,
      [some ("prm0", ⟨.string, instanceId⟩), none]⟩, "u", "0", "IObjectManager", "DestroyObject"⟩
    (PsClient.sampleEnvironment "a") []

/-- A peer has the manager destroy its own entry, and nothing is left to be called. -/
theorem manager_destroys_itself :
    ¬ Transition.Along host.step host.KeepsManager host.start [destroyObject "0"] ∧
      host.step host.start (destroyObject "0") = some ⟨[]⟩ := by
  have destroyed : host.step host.start (destroyObject "0") = some ⟨[]⟩ := by
    decide
  refine ⟨?_, destroyed⟩
  intro along
  obtain ⟨next, taken, bound⟩ := along.1
  rw [destroyed] at taken
  cases taken
  cases bound

end SampleHost

end Mif.Remote
