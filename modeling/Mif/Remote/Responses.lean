import Mathlib.Data.List.Basic
import Mif.Lib.Assoc
import Mif.Lib.Tally
import Mif.Lib.Transition
import Mif.Common.Fault
import Mif.Net.Client
import Mif.Remote.Serialization.Format
import Mif.Remote.ProcessData

set_option autoImplicit false

/- The table `PSClient::m_responses`: the threads in `PSClient::Send`, the threads that bring
responses, and the age of what is kept. A step is what one thread does under `m_dataLock`.
A thread that brings a request also looks for its id in the table, without the lock; it
changes nothing there, and that it may not do so while others write is left out here. -/
namespace Mif.Remote

variable {api : TSerializer}

/- `Proxy::RemoteCall`, from the response on. -/
namespace Proxy

/-- The text of an exception. -/
def text (what : String) : String := "[Mif::Remote::Proxy::RemoteCall] " ++ what

/-- `ExtractResult`, for no result or for one that is in the parameters. -/
def extractResult (message : api.Deserializer) : Option api.Types → Outcome (Option api.Params)
  | none => .ok none
  | some types => (api.getParams message types).map some

/-- What `RemoteCall` tries when `m_sender` has given it a message. -/
def received (call : Outgoing api) (result : Option api.Types) (message : api.Deserializer) :
    Outcome (Option api.Params) := do
  let isResponse ← api.isResponse message
  let type ← api.getType message
  demand isResponse (text ("Bad response type \"" ++ type ++ "\""))
  let inst ← api.getInstance message
  demand (inst = call.instanceId) (text ("Bad instance id \"" ++ inst ++
    "\" Needed instance id \"" ++ call.instanceId ++ "\""))
  let interfaceId ← api.getInterface message
  demand (call.interfaceId = interfaceId) (text ("Bad interface for instance whith id \"" ++
    interfaceId ++ "\" Needed \"" ++ call.interfaceId ++ "\""))
  let methodId ← api.getMethod message
  demand (call.method = methodId) (text ("Method \"" ++ methodId ++ "\" of interface \"" ++
    call.interfaceId ++ "\" for instance with id \"" ++ call.instanceId ++
    "\" not found. Needed method \"" ++ call.method ++ "\""))
  match api.getException message with
  | some fault => .error fault
  | none => extractResult message result

/-- The end of `RemoteCall` -/
def remoteCall (call : Outgoing api) (result : Option api.Types) (message : api.Deserializer) :
    Outcome (Option api.Params) :=
  match received call result message with
  | .error (.exception what) =>
      throwing (text ("Failed to call remote method \"" ++ call.interfaceId ++ "::" ++
        call.method ++ "\" for instance with id \"" ++ call.instanceId ++ "\". Error: " ++ what))
  | outcome => outcome

/-- The message is the response to the call, as far as its header says. -/
structure Matches (call : Outgoing api) (message : api.Deserializer) : Prop where
  type : api.isResponse message = .ok true
  inst : api.getInstance message = .ok call.instanceId
  interface : api.getInterface message = .ok call.interfaceId
  method : api.getMethod message = .ok call.method

end Proxy

/-- A response that came in, with its number. -/
structure Arrival (api : TSerializer) where
  serial : Nat
  /-- The time stamp is taken before the lock. -/
  time : Int
  incoming : Incoming api

/-- A thread in `Send`. -/
structure Sender (api : TSerializer) where
  call : Outgoing api
  result : Option api.Types
  started : Int

/-- A `Send` that returned, and what its `RemoteCall` made of it. -/
structure Returned (api : TSerializer) where
  call : Outgoing api
  arrival : Arrival api
  outcome : Outcome (Option api.Params)

/-- The response side of a `PSClient`. `arrived` counts the responses, `sent` has the ids of
all requests, and `returned` all that was returned; the program keeps none of these. -/
structure Correlator (api : TSerializer) where
  timeout : Int
  now : Int
  closed : Bool
  responses : List (String × Arrival api)
  receiving : List (Arrival api)
  waiting : List (Sender api)
  arrived : Nat
  sent : List String
  returned : List (Returned api)

namespace Correlator

def new (api : TSerializer) (timeout now : Int) : Correlator api :=
  ⟨timeout, now, false, [], [], [], 0, [], []⟩

/-- A step of a thread, or of the clock. -/
inductive Event (api : TSerializer)
  | send (call : Outgoing api) (result : Option api.Types) (client : Net.Client)
  | wake (requestId : String) (timedOut : Bool)
  | expire (requestId : String)
  | receive (buffer : List api.Symbol)
  | store (serial : Nat)
  | clock (now : Int)
  | close

/-- The condition of `CleanOldResponses`. -/
def isOld (timeout now : Int) (arrival : Arrival api) : Bool :=
  arrival.time < now && now - arrival.time > timeout

/-- `CleanOldResponses` -/
def cleanOldResponses (correlator : Correlator api) : Correlator api :=
  { correlator with
    responses := correlator.responses.filter fun item =>
      !isOld correlator.timeout correlator.now item.2 }

/-- `m_responses.erase` -/
def erase (correlator : Correlator api) (requestId : String) : Correlator api :=
  { correlator with responses := correlator.responses.filter fun item => item.1 ≠ requestId }

/-- A thread leaves `Send`. -/
def leave (correlator : Correlator api) (requestId : String) : Correlator api :=
  { correlator with
    waiting := correlator.waiting.filter fun sender => sender.call.uuid ≠ requestId }

/-- The thread finds its response, erases it and returns. -/
def take (correlator : Correlator api) (sender : Sender api) (arrival : Arrival api) :
    Correlator api :=
  let left := ((correlator.erase sender.call.uuid).leave sender.call.uuid).cleanOldResponses
  { left with
    returned := left.returned ++ [⟨sender.call, arrival,
      Proxy.remoteCall sender.call sender.result arrival.incoming.message⟩] }

/-- What a thread in `Send` does when it has the lock: the predicate of the wait, and what
comes after it. Without a response it goes on waiting, or the wait times out. -/
def look (correlator : Correlator api) (sender : Sender api) (timedOut : Bool) :
    Correlator api :=
  if correlator.closed then correlator.leave sender.call.uuid
  else
    match correlator.responses.lookup sender.call.uuid with
    | some arrival => correlator.take sender arrival
    | none => if timedOut then correlator.cleanOldResponses else correlator

/-- `m_responses.insert` after a clean-up. -/
def insert (correlator : Correlator api) (arrival : Arrival api) : Correlator api :=
  let cleaned := correlator.cleanOldResponses
  { cleaned with
    responses := Assoc.insert arrival.incoming.uuid arrival cleaned.responses
    receiving := cleaned.receiving.filter fun item => item.serial ≠ arrival.serial }

def findSender (correlator : Correlator api) (requestId : String) : Option (Sender api) :=
  correlator.waiting.find? fun sender => sender.call.uuid = requestId

def step (correlator : Correlator api) : Event api → Option (Correlator api)
  | .send call result client =>
      let sent := { correlator with sent := correlator.sent ++ [call.uuid] }
      -- A request that cannot be posted makes `Send` throw at once.
      if client.post then
        some { sent with waiting := sent.waiting ++ [⟨call, result, correlator.now⟩] }
      else some sent
  | .wake requestId timedOut =>
      (correlator.findSender requestId).map fun sender => correlator.look sender timedOut
  | .expire requestId =>
      (correlator.findSender requestId).bind fun sender =>
        if correlator.now - sender.started < correlator.timeout then none
        else some (correlator.leave requestId)
  | .receive buffer =>
      match ProcessData.kept api buffer with
      | none => some correlator
      | some incoming => some { correlator with
          receiving := correlator.receiving ++ [⟨correlator.arrived, correlator.now, incoming⟩]
          arrived := correlator.arrived + 1 }
  | .store serial =>
      (correlator.receiving.find? fun arrival => arrival.serial = serial).map correlator.insert
  | .clock now => some { correlator with now := now }
  | .close => some { correlator with closed := true }

/-- A request id is used once. -/
def Fresh (correlator : Correlator api) : Event api → Prop
  | .send call _ _ => call.uuid ∉ correlator.sent
  | _ => True

instance (correlator : Correlator api) : (event : Event api) → Decidable (Fresh correlator event)
  | .send call _ _ => inferInstanceAs (Decidable (call.uuid ∉ correlator.sent))
  | .wake _ _ => isTrue trivial
  | .expire _ => isTrue trivial
  | .receive _ => isTrue trivial
  | .store _ => isTrue trivial
  | .clock _ => isTrue trivial
  | .close => isTrue trivial

/-- Every `Send` returns at most one response, one with its own id; no response is returned
twice; and a result comes only out of a response that matches the call. -/
structure Correlated (correlator : Correlator api) : Prop where
  once : (correlator.returned.map fun item => item.call.uuid).Nodup
  own : ∀ item ∈ correlator.returned,
    api.getUuid item.arrival.incoming.message = .ok item.call.uuid
  unshared : (correlator.returned.map fun item => item.arrival.serial).Nodup
  matched : ∀ item ∈ correlator.returned, ∀ result, item.outcome = .ok result →
    Proxy.Matches item.call item.arrival.incoming.message

end Correlator

namespace Proxy

/-- A result passes all the checks. -/
theorem matches_of_remoteCall {call : Outgoing api} {types : Option api.Types}
    {message : api.Deserializer} {result : Option api.Params}
    (returned : remoteCall call types message = .ok result) : Matches call message := by
  have passed : received call types message = .ok result := by
    unfold remoteCall at returned
    split at returned
    · cases returned
    · exact returned
  unfold received at passed
  obtain ⟨isResponse, type, passed⟩ := ok_of_bind passed
  obtain ⟨_, _, passed⟩ := ok_of_bind passed
  obtain ⟨_, responded, passed⟩ := ok_of_bind passed
  obtain ⟨inst, instanceId, passed⟩ := ok_of_bind passed
  obtain ⟨_, sameInstance, passed⟩ := ok_of_bind passed
  obtain ⟨interface, interfaceId, passed⟩ := ok_of_bind passed
  obtain ⟨_, sameInterface, passed⟩ := ok_of_bind passed
  obtain ⟨method, methodId, passed⟩ := ok_of_bind passed
  obtain ⟨_, sameMethod, passed⟩ := ok_of_bind passed
  have responds := met_of_demand responded
  have instances : inst = call.instanceId := by simpa using met_of_demand sameInstance
  have interfaces : call.interfaceId = interface := by simpa using met_of_demand sameInterface
  have methods : call.method = method := by simpa using met_of_demand sameMethod
  exact ⟨by rw [type, responds], by rw [instanceId, instances],
    by rw [interfaceId, interfaces], by rw [methodId, methods]⟩

end Proxy

namespace Correlator

open Tally (tally)

def requestId (sender : Sender api) : String := sender.call.uuid

def answeredId (item : Returned api) : String := item.call.uuid

def storedSerial (item : String × Arrival api) : Nat := item.2.serial

def returnedSerial (item : Returned api) : Nat := item.arrival.serial

/-- How often a response is there: received, stored or returned. -/
def copies (correlator : Correlator api) (serial : Nat) : Nat :=
  tally Arrival.serial correlator.receiving serial +
    tally storedSerial correlator.responses serial +
    tally returnedSerial correlator.returned serial

/-- How often an id is there: with a thread in `Send`, or with what was returned. -/
def uses (correlator : Correlator api) (uuid : String) : Nat :=
  tally requestId correlator.waiting uuid + tally answeredId correlator.returned uuid

structure Invariant (correlator : Correlator api) : Prop where
  ids : ∀ uuid, correlator.uses uuid ≤ 1
  unused : ∀ uuid, uuid ∉ correlator.sent → correlator.uses uuid = 0
  serials : ∀ serial, correlator.copies serial ≤ 1
  coming : ∀ serial, correlator.arrived ≤ serial → correlator.copies serial = 0
  received : ∀ arrival ∈ correlator.receiving,
    api.getUuid arrival.incoming.message = .ok arrival.incoming.uuid
  stored : ∀ item ∈ correlator.responses,
    api.getUuid item.2.incoming.message = .ok item.1
  own : ∀ item ∈ correlator.returned,
    api.getUuid item.arrival.incoming.message = .ok item.call.uuid
  matched : ∀ item ∈ correlator.returned, ∀ result, item.outcome = .ok result →
    Proxy.Matches item.call item.arrival.incoming.message

theorem invariant_new (timeout now : Int) : Invariant (new api timeout now) := by
  constructor <;> simp [new, uses, copies]

/-- The counts leave room for one of each only. -/
theorem Invariant.correlated {correlator : Correlator api} (invariant : correlator.Invariant) :
    correlator.Correlated where
  once := by
    apply Tally.nodup_of_tally
    intro uuid
    have counted := invariant.ids uuid
    unfold uses at counted
    change tally answeredId correlator.returned uuid ≤ 1
    omega
  own := invariant.own
  unshared := by
    apply Tally.nodup_of_tally
    intro serial
    have counted := invariant.serials serial
    unfold copies at counted
    change tally returnedSerial correlator.returned serial ≤ 1
    omega
  matched := invariant.matched

section

variable {correlator : Correlator api} (invariant : correlator.Invariant)
include invariant

/-- A step that starts no request and receives no response counts nothing twice. -/
theorem invariant_of_fewer {next : Correlator api} (sent : next.sent = correlator.sent)
    (arrived : next.arrived = correlator.arrived)
    (ids : ∀ uuid, next.uses uuid ≤ correlator.uses uuid)
    (serials : ∀ serial, next.copies serial ≤ correlator.copies serial)
    (received : ∀ arrival ∈ next.receiving, arrival ∈ correlator.receiving)
    (stored : ∀ item ∈ next.responses, api.getUuid item.2.incoming.message = .ok item.1)
    (own : ∀ item ∈ next.returned,
      api.getUuid item.arrival.incoming.message = .ok item.call.uuid)
    (matched : ∀ item ∈ next.returned, ∀ result, item.outcome = .ok result →
      Proxy.Matches item.call item.arrival.incoming.message) : next.Invariant where
  ids uuid := Nat.le_trans (ids uuid) (invariant.ids uuid)
  unused := by
    intro uuid absent
    have none := invariant.unused uuid (sent ▸ absent)
    have fewer := ids uuid
    omega
  serials serial := Nat.le_trans (serials serial) (invariant.serials serial)
  coming := by
    intro serial later
    have none := invariant.coming serial (arrived ▸ later)
    have fewer := serials serial
    omega
  received arrival member := invariant.received arrival (received arrival member)
  stored := stored
  own := own
  matched := matched

theorem invariant_clean : correlator.cleanOldResponses.Invariant := by
  refine invariant_of_fewer invariant rfl rfl (fun _ => Nat.le_refl _) ?_ (fun _ => id) ?_
    invariant.own invariant.matched
  · intro serial
    have fewer := Tally.tally_filter_le storedSerial serial
      (fun item => !isOld correlator.timeout correlator.now item.2) correlator.responses
    unfold copies cleanOldResponses
    dsimp only
    omega
  · intro item member
    exact invariant.stored item (List.mem_filter.mp member).1

theorem invariant_leave (requestId : String) : (correlator.leave requestId).Invariant := by
  refine invariant_of_fewer invariant rfl rfl ?_ (fun _ => Nat.le_refl _) (fun _ => id)
    invariant.stored invariant.own invariant.matched
  intro uuid
  have fewer := Tally.tally_filter_le Correlator.requestId uuid
    (fun sender => sender.call.uuid ≠ requestId) correlator.waiting
  unfold uses leave
  dsimp only
  omega

/-- The count of a response goes from the table to what was returned, and the count of an id
from the threads to what they returned. -/
theorem invariant_take {sender : Sender api} {arrival : Arrival api}
    (member : sender ∈ correlator.waiting)
    (found : correlator.responses.lookup sender.call.uuid = some arrival) :
    (correlator.take sender arrival).Invariant := by
  have within := Assoc.mem_of_lookup found
  refine invariant_of_fewer invariant rfl rfl ?_ ?_ (fun _ => id) ?_ ?_ ?_
  · intro uuid
    have removed := @Tally.tally_filter_add _ _ _ requestId uuid
      (fun other => other.call.uuid ≠ sender.call.uuid) correlator.waiting sender member (by simp)
    have moved : tally answeredId [⟨sender.call, arrival,
        Proxy.remoteCall sender.call sender.result arrival.incoming.message⟩] uuid =
        tally requestId [sender] uuid := rfl
    simp only [uses, take, cleanOldResponses, leave, erase, Tally.tally_append, moved]
    omega
  · intro serial
    have removed := @Tally.tally_filter_add _ _ _ storedSerial serial
      (fun item => item.1 ≠ sender.call.uuid) correlator.responses _ within (by simp)
    have cleaned := Tally.tally_filter_le storedSerial serial
      (fun item => !isOld correlator.timeout correlator.now item.2)
      (correlator.responses.filter fun item => item.1 ≠ sender.call.uuid)
    have moved : tally returnedSerial [⟨sender.call, arrival,
        Proxy.remoteCall sender.call sender.result arrival.incoming.message⟩] serial =
        tally storedSerial [(sender.call.uuid, arrival)] serial := rfl
    simp only [copies, take, cleanOldResponses, leave, erase, Tally.tally_append, moved]
    omega
  · intro item kept
    exact invariant.stored item (List.mem_filter.mp (List.mem_filter.mp kept).1).1
  · intro item kept
    rcases List.mem_append.mp kept with old | new
    · exact invariant.own item old
    · obtain rfl := List.mem_singleton.mp new
      exact invariant.stored _ within
  · intro item kept result returned
    rcases List.mem_append.mp kept with old | new
    · exact invariant.matched item old result returned
    · obtain rfl := List.mem_singleton.mp new
      exact Proxy.matches_of_remoteCall returned

theorem invariant_look {sender : Sender api} (member : sender ∈ correlator.waiting)
    (timedOut : Bool) : (correlator.look sender timedOut).Invariant := by
  unfold look
  split
  · exact invariant_leave invariant _
  · split
    · rename_i arrival found
      exact invariant_take invariant member found
    · split
      · exact invariant_clean invariant
      · exact invariant

theorem invariant_insert {arrival : Arrival api} (member : arrival ∈ correlator.receiving) :
    (correlator.insert arrival).Invariant := by
  have cleaned := invariant_clean invariant
  refine invariant_of_fewer cleaned rfl rfl (fun _ => Nat.le_refl _) ?_ ?_ ?_ cleaned.own
    cleaned.matched
  · intro serial
    have removed := @Tally.tally_filter_add _ _ _ Arrival.serial serial
      (fun item => item.serial ≠ arrival.serial) correlator.cleanOldResponses.receiving arrival
      member (by simp)
    have moved : tally storedSerial [(arrival.incoming.uuid, arrival)] serial =
        tally Arrival.serial [arrival] serial := rfl
    simp only [copies, insert, Assoc.insert]
    split
    · omega
    · rw [Tally.tally_append, moved]
      omega
  · intro item kept
    exact (List.mem_filter.mp kept).1
  · intro item kept
    simp only [insert, Assoc.insert] at kept
    split at kept
    · exact cleaned.stored item kept
    · rcases List.mem_append.mp kept with old | new
      · exact cleaned.stored item old
      · obtain rfl := List.mem_singleton.mp new
        exact invariant.received arrival member

theorem invariant_sent (uuid : String) :
    Invariant { correlator with sent := correlator.sent ++ [uuid] } where
  ids := invariant.ids
  unused := by
    intro other absent
    exact invariant.unused other fun old => absent (List.mem_append_left _ old)
  serials := invariant.serials
  coming := invariant.coming
  received := invariant.received
  stored := invariant.stored
  own := invariant.own
  matched := invariant.matched

/-- The id of a new request is counted nowhere yet. -/
theorem invariant_send {call : Outgoing api} (fresh : call.uuid ∉ correlator.sent)
    (result : Option api.Types) :
    Invariant { correlator with
      sent := correlator.sent ++ [call.uuid]
      waiting := correlator.waiting ++ [⟨call, result, correlator.now⟩] } := by
  have first := invariant.unused call.uuid fresh
  refine ⟨?_, ?_, invariant.serials, invariant.coming, invariant.received, invariant.stored,
    invariant.own, invariant.matched⟩
  · intro uuid
    have counted := Tally.add_single_le requestId invariant.ids
      (show correlator.uses (requestId ⟨call, result, correlator.now⟩) = 0 from first) uuid
    simp only [uses, Tally.tally_append] at counted ⊢
    omega
  · intro uuid absent
    have before := invariant.unused uuid fun old => absent (List.mem_append_left _ old)
    have none : tally requestId [⟨call, result, correlator.now⟩] uuid = 0 := by
      apply Tally.tally_single_ne
      intro same
      exact absent (List.mem_append_right _ (List.mem_singleton.mpr same.symm))
    simp only [uses, Tally.tally_append] at before ⊢
    omega

/-- The number of a new response is counted nowhere yet. -/
theorem invariant_receive {incoming : Incoming api}
    (identified : api.getUuid incoming.message = .ok incoming.uuid) :
    Invariant { correlator with
      receiving := correlator.receiving ++ [⟨correlator.arrived, correlator.now, incoming⟩]
      arrived := correlator.arrived + 1 } := by
  have last := invariant.coming correlator.arrived (Nat.le_refl _)
  refine ⟨invariant.ids, invariant.unused, ?_, ?_, ?_, invariant.stored, invariant.own,
    invariant.matched⟩
  · intro serial
    have counted := Tally.add_single_le Arrival.serial invariant.serials
      (show correlator.copies (Arrival.serial ⟨correlator.arrived, correlator.now, incoming⟩) = 0
        from last) serial
    simp only [copies, Tally.tally_append] at counted ⊢
    omega
  · intro serial later
    dsimp only at later
    have before := invariant.coming serial (by omega)
    have none : tally Arrival.serial [⟨correlator.arrived, correlator.now, incoming⟩] serial = 0 := by
      apply Tally.tally_single_ne
      dsimp only
      omega
    simp only [copies, Tally.tally_append] at before ⊢
    omega
  · intro item within
    rcases List.mem_append.mp within with old | new
    · exact invariant.received item old
    · obtain rfl := List.mem_singleton.mp new
      exact identified

end

/-- One step of any thread. -/
theorem invariant_step (correlator : Correlator api) (event : Event api) (next : Correlator api)
    (invariant : correlator.Invariant) (fresh : correlator.Fresh event)
    (taken : correlator.step event = some next) : next.Invariant := by
  cases event with
  | send call result client =>
      simp only [step] at taken
      split at taken
      · cases taken
        exact invariant_send invariant fresh result
      · cases taken
        exact invariant_sent invariant call.uuid
  | wake requestId timedOut =>
      obtain ⟨sender, found, same⟩ := Option.map_eq_some_iff.mp taken
      rw [← same]
      exact invariant_look invariant (List.mem_of_find?_eq_some found) timedOut
  | expire requestId =>
      obtain ⟨sender, found, left⟩ := Option.bind_eq_some_iff.mp taken
      split at left
      · cases left
      · cases left
        exact invariant_leave invariant requestId
  | receive buffer =>
      simp only [step] at taken
      split at taken
      · cases taken
        exact invariant
      · rename_i incoming stored
        cases taken
        exact invariant_receive invariant (ProcessData.uuid_of_kept stored)
  | store serial =>
      obtain ⟨arrival, found, same⟩ := Option.map_eq_some_iff.mp taken
      rw [← same]
      exact invariant_insert invariant (List.mem_of_find?_eq_some found)
  | clock now =>
      cases taken
      exact invariant_of_fewer invariant rfl rfl (fun _ => Nat.le_refl _) (fun _ => Nat.le_refl _)
        (fun _ => id) invariant.stored invariant.own invariant.matched
  | close =>
      cases taken
      exact invariant_of_fewer invariant rfl rfl (fun _ => Nat.le_refl _) (fun _ => Nat.le_refl _)
        (fun _ => id) invariant.stored invariant.own invariant.matched

/-- Whatever the threads, the peer and the clock do, responses go where they belong. -/
theorem responses_correlated (timeout now : Int) (events : List (Event api))
    (last : Correlator api)
    (distinct : Transition.Along step Fresh (new api timeout now) events)
    (reached : Transition.run step (new api timeout now) events = some last) :
    last.Correlated :=
  (Transition.run_invariant invariant_step (invariant_new timeout now) distinct
    reached).correlated

/-- A call, its response twice, a third response that comes too late, and the thread that
waits for the first. -/
def sampleEvents : List (Event sampleFormat) :=
  let buffer : List sampleFormat.Symbol :=
    (Serialization.Boost.Serializer.new false "u" "a" "IHello" "Hello" Fin.elim0).getBuffer
      (Serialization.Boost.itemArchive (Empty.elim : Empty → Type) .binary)
      (EvalOrder.rightToLeft 0)
  [.send ⟨"u", "a", "IHello", "Hello", []⟩ none Net.Client.new, .receive buffer,
    .receive buffer, .store 1, .clock 3, .store 0, .wake "u" false, .clock 20, .receive buffer,
    .store 2]

theorem duplicated_response_is_returned_once :
    ∃ last, Transition.run step (new sampleFormat 10 0) sampleEvents = some last ∧
      last.Correlated ∧ last.returned.map returnedSerial = [1] := by
  have distinct : Transition.Along step Fresh (new sampleFormat 10 0) sampleEvents := by
    decide
  exact ⟨_, rfl, responses_correlated 10 0 sampleEvents _ distinct rfl, rfl⟩

end Correlator

end Mif.Remote
