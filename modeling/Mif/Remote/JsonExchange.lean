import Mathlib.Data.List.Basic
import Mif.Lib.Transition
import Mif.Common.Fault
import Mif.Net.Client
import Mif.Reflection.Schema
import Mif.Serialization.JsonValue
import Mif.Serialization.JsonEncode
import Mif.Serialization.JsonRoundTrip
import Mif.Remote.Serialization.Tag
import Mif.Remote.Serialization.Json
import Mif.Remote.Serialization.Format
import Mif.Remote.ProcessData
import Mif.Remote.Responses
import Mif.Remote.Exchange

set_option autoImplicit false

/- Remote calls whose messages are written as JSON: what the exchange of calls relies on,
proved of this serializer. -/
namespace Mif.Remote

open Mif.Reflection
open Mif.Serialization (BoostJson Restored valueToJson)
open Mif.Serialization.Json (find reparsedMembers)
open Mif.Serialization.ValueToJson (assignAll)
open Mif.Remote.Serialization (Exception)
open Mif.Remote.Serialization.Json (Faithful Serializer Deserializer Serializer.header)

variable {schema : Schema} {program : Program schema} {Symbol : Type}
  {boost : BoostJson (List Symbol)}

/-- The serializer of the messages. -/
abbrev jsonFormat (program : Program schema) (boost : BoostJson (List Symbol)) : TSerializer :=
  Serialization.Json.format program boost

/-- The types of the parameters. -/
def jsonTyped (params : (jsonFormat program boost).Params)
    (types : (jsonFormat program boost).Types) : Prop :=
  (⟨params.1, params.2.1⟩ : (n : Nat) × (Fin n → Ty)) = types

/-- A call that JSON carries. -/
structure Sendable (call : Outgoing (jsonFormat program boost)) : Prop where
  named : call.uuid ≠ "" ∧ call.instanceId ≠ "" ∧ call.interfaceId ≠ "" ∧ call.method ≠ ""
  whole : ∀ text ∈ [call.uuid, call.instanceId, call.interfaceId, call.method],
    '\x00' ∉ text.toList
  restored : ∀ index, Restored program (call.params.2.2 index)

/-- What a method may end with: a result that JSON restores, or an exception whose message
is a C string. -/
def Returnable : Except Raised (Option (jsonFormat program boost).Params) → Prop
  | .ok none => True
  | .ok (some params) => ∀ index, Restored program (params.2.2 index)
  | .error (.thrown exception) => '\x00' ∉ exception.message.toList
  | .error (.undefined _) => True

namespace Serialization.Json

theorem whole_of_stringAt {deserializer : Deserializer} {tag text : String}
    (read : deserializer.stringAt tag = .ok text) : '\x00' ∉ text.toList := by
  unfold Deserializer.stringAt at read
  obtain ⟨member, _, read⟩ := ok_of_bind read
  split at read
  · cases read
    intro inside
    unfold Mif.Serialization.JsonValueConverter.cStr at inside
    rw [String.toList_ofList] at inside
    have kept := List.mem_takeWhile_imp inside
    simp at kept
  · cases read

section

variable {uuid instanceId interfaceId methodId : String} {isRequest : Bool}

theorem sends_header :
    Serializer.Sends ⟨assignAll (Serializer.header isRequest uuid instanceId interfaceId methodId)⟩
      (Serializer.header isRequest uuid instanceId interfaceId methodId) := by
  intro tag json member
  rw [Mif.Serialization.assignAll_eq header_nodup]
  exact Mif.Serialization.find_of_mem header_nodup member

/-- There is no exception in a message before one is put there. -/
theorem find_exception_header :
    find Tag.exception (assignAll
      (Serializer.header isRequest uuid instanceId interfaceId methodId)) = none := by
  rw [Mif.Serialization.assignAll_eq header_nodup]
  rfl

variable {serializer : Serializer}

/-- The type of a message is read back. -/
theorem type_of_sends
    (sends : serializer.Sends (Serializer.header isRequest uuid instanceId interfaceId methodId)) :
    Deserializer.getType ⟨reparsedMembers serializer.value⟩ =
      .ok (if isRequest then Tag.request else Tag.response) := by
  have sent := sends Tag.type (.string (if isRequest then Tag.request else Tag.response))
    (by simp [Serializer.header])
  apply stringAt_of_find
  · rw [Mif.Serialization.Json.find_reparsedMembers, sent]
    rfl
  · cases isRequest <;> decide

theorem quiet_of_absent (absent : find Tag.exception serializer.value = none) :
    Deserializer.getException ⟨reparsedMembers serializer.value⟩ = none := by
  unfold Deserializer.getException Deserializer.hasException
  rw [Mif.Serialization.Json.find_reparsedMembers, absent]
  rfl

/-- An exception is read back with its message. -/
theorem thrown_of_putException (serializer : Serializer) {exception : Exception}
    (whole : '\x00' ∉ exception.message.toList) :
    Deserializer.getException ⟨reparsedMembers (serializer.putException exception).value⟩ =
      some (.exception exception.message) := by
  have found : find Tag.exception (reparsedMembers (serializer.putException exception).value) =
      some (.string exception.message) := by
    rw [Mif.Serialization.Json.find_reparsedMembers, Serializer.putException, find_replaced,
      if_pos rfl]
    rfl
  unfold Deserializer.getException Deserializer.hasException
  rw [found, Option.isSome_some, if_pos rfl, stringAt_of_find found whole]

end

end Serialization.Json

open Mif.Remote.Serialization (Tag.request Tag.response Tag.exception Tag.param)
open Mif.Remote.Serialization.Json

/-- A message says whether it is a response. -/
theorem json_isResponse {serializer : Serializer} {isRequest : Bool}
    {uuid instanceId interfaceId methodId : String}
    (sends : serializer.Sends (Serializer.header isRequest uuid instanceId interfaceId methodId)) :
    (jsonFormat program boost).isResponse ⟨reparsedMembers serializer.value⟩ =
      .ok (!isRequest) := by
  have type := type_of_sends sends
  unfold TSerializer.isResponse
  change Except.map _ (Deserializer.getType _) = _
  rw [type]
  cases isRequest
  · rfl
  · rfl

/-- A call arrives as it was sent. -/
theorem json_arrives {call : Outgoing (jsonFormat program boost)} (sendable : Sendable call)
    (faithful : ∀ serializer, (jsonFormat program boost).request call.uuid call.instanceId
      call.interfaceId call.method call.params = .ok serializer → Faithful boost serializer.value)
    {buffer : List Symbol} (made : call.buffer = .ok buffer) :
    ∃ message, call.Arrives jsonTyped buffer message := by
  obtain ⟨serializer, bytes, message, written, put, request, read⟩ :=
    json_call_isRequest sendable.restored sendable.whole sendable.named faithful
  have same : buffer = bytes := by
    have bound : call.buffer = (jsonFormat program boost).getBuffer serializer :=
      congrArg (Except.bind · (jsonFormat program boost).getBuffer) written
    exact Except.ok.inj (made.symm.trans (bound.trans put))
  rw [same]
  refine ⟨message, request, ?_⟩
  intro types typed
  rw [← typed]
  exact read

section

variable {incoming : Incoming (jsonFormat program boost)}

/-- The header that a response is given comes out of a message, so that it goes into one. -/
theorem json_whole {buffer : List Symbol}
    (request : IsRequest (jsonFormat program boost) buffer incoming) :
    ∀ text ∈ [incoming.uuid, incoming.instanceId, incoming.interfaceId, incoming.method],
      '\x00' ∉ text.toList := by
  intro text member
  simp only [List.mem_cons, List.not_mem_nil, or_false] at member
  rcases member with rfl | rfl | rfl | rfl
  · exact whole_of_stringAt request.uuid
  · exact whole_of_stringAt request.instanceId
  · exact whole_of_stringAt request.interfaceId
  · exact whole_of_stringAt request.method

/-- A response is kept, whatever has been put beside its header. -/
theorem json_kept {buffer : List Symbol} {serializer : Serializer}
    (request : IsRequest (jsonFormat program boost) buffer incoming)
    (sends : serializer.Sends (Serializer.header false incoming.uuid incoming.instanceId
      incoming.interfaceId incoming.method))
    (faithful : Faithful boost serializer.value) :
    ProcessData.kept (jsonFormat program boost) (serializer.getBuffer boost) =
      some ⟨⟨reparsedMembers serializer.value⟩, incoming.uuid, incoming.instanceId,
        incoming.interfaceId, incoming.method⟩ := by
  have received := receives_of_sends sends (json_whole request)
  apply ProcessData.kept_of_header request.named
  · exact faithful.filled
  · exact new_getBuffer faithful
  · exact received.uuid
  · exact received.inst
  · exact received.interface
  · exact received.method
  · exact json_isResponse sends

/-- A response tells the caller what the method ended with. -/
theorem json_answers {buffer bytes : List Symbol}
    {result : Except Raised (Option (jsonFormat program boost).Params)} {reply : Serializer}
    (request : IsRequest (jsonFormat program boost) buffer incoming)
    (returnable : Returnable result)
    (carries : Carries (ProcessData.response incoming) result reply)
    (faithful : Faithful boost reply.value)
    (made : (jsonFormat program boost).getBuffer reply = .ok bytes) :
    Answers jsonTyped incoming result bytes := by
  cases made
  have header : Serializer.Sends (ProcessData.response incoming) (Serializer.header false
      incoming.uuid incoming.instanceId incoming.interfaceId incoming.method) := sends_header
  have absent : find Tag.exception (Serializer.value (ProcessData.response incoming)) = none :=
    @find_exception_header incoming.uuid incoming.instanceId incoming.interfaceId
      incoming.method false
  cases carries with
  | void =>
      refine ⟨_, json_kept request header faithful, .void ?_⟩
      exact quiet_of_absent absent
  | result params packed put =>
      have packs : Serializer.putParams program (ProcessData.response incoming) params.2.2 =
          .ok reply := by
        simp only [jsonFormat, Serialization.Json.format] at put
        split at put
        · rename_i packed done
          cases put
          exact done
        · cases put
      refine ⟨_, json_kept request (sends_putParams header packs) faithful, .result params ?_ ?_⟩
      · apply quiet_of_absent
        obtain ⟨json, _, put⟩ := ok_of_bind packs
        cases put
        exact (find_replaced _ _ _ _).trans absent
      · intro types typed
        rw [← typed]
        change (Deserializer.getParamsIfExists program _ params.2.1 >>= _) = _
        rw [getParams_putParams returnable packs]
        rfl
  | exception exception =>
      have thrown := thrown_of_putException (ProcessData.response incoming) returnable
      refine ⟨_, json_kept request (sends_replaced header (Or.inr rfl)) faithful, ?_⟩
      exact .exception exception thrown
  | unpacked params left what failed =>
      -- a value that JSON restores is written without an exception
      obtain ⟨json, written, -⟩ := (Restored.tuple returnable).readAs
      simp only [jsonFormat, Serialization.Json.format] at failed
      split at failed
      · cases failed
      · rename_i fault broken
        change valueToJson program (Val.tuple params.2.2) >>= _ = _ at broken
        rw [written] at broken
        cases broken

end

/-- What JSON needs of a peer that serves a buffer: its results can be sent, and the library
restores the text of the messages. -/
structure Peer.JsonServes (peer : Peer (jsonFormat program boost)) (buffer : List Symbol) :
    Prop where
  callbacks : ∀ call asked, .request call asked ∈ (peer.process buffer).posts →
    ∀ serializer, (jsonFormat program boost).request call.uuid call.instanceId call.interfaceId
      call.method call.params = .ok serializer → Faithful boost serializer.value
  returnable : ∀ incoming stub, IsRequest (jsonFormat program boost) buffer incoming →
    peer.receiver.stubs.lookup incoming.instanceId = some (some stub) →
    Returnable (peer.ended stub incoming.message)
  faithful : ∀ incoming stub reply, IsRequest (jsonFormat program boost) buffer incoming →
    peer.receiver.stubs.lookup incoming.instanceId = some (some stub) →
    Carries (ProcessData.response incoming) (peer.ended stub incoming.message) reply →
    Faithful boost reply.value

theorem Peer.JsonServes.serves {peer : Peer (jsonFormat program boost)} {buffer : List Symbol}
    (fits : peer.JsonServes buffer) : peer.Serves jsonTyped buffer where
  callbacks call asked member := by
    cases kept : ProcessData.kept (jsonFormat program boost) asked with
    | none => rfl
    | some incoming =>
        obtain ⟨received, response⟩ := ProcessData.received_of_kept kept
        have read := (ProcessData.header_of_receive received).1
        obtain ⟨serializer, written, put⟩ := ok_of_bind (callbacks_of_processData member)
        cases put
        have parsed := new_getBuffer (fits.callbacks call _ member serializer written)
        have same := Except.ok.inj (parsed.symm.trans read)
        -- a callback says that it is a request
        rw [← same, json_isResponse (sends_new written)] at response
        cases response
  answers incoming stub reply answer request bound carries made :=
    json_answers request (fits.returnable incoming stub request bound) carries
      (fits.faithful incoming stub reply request bound carries) made

namespace Exchange

/-- What JSON needs in a step. -/
def JsonFits (peer : Nat → Peer (jsonFormat program boost))
    (exchange : Exchange (jsonFormat program boost)) : Event (jsonFormat program boost) → Prop
  | .call call _ _ => Sendable call ∧
      ∀ serializer, (jsonFormat program boost).request call.uuid call.instanceId
        call.interfaceId call.method call.params = .ok serializer →
        Faithful boost serializer.value
  | .handle index moment => ∀ request, exchange.requests[index]? = some request →
      (peer moment).JsonServes request.buffer
  | _ => True

theorem json_carried {peer : Nat → Peer (jsonFormat program boost)}
    {exchange : Exchange (jsonFormat program boost)}
    {event : Event (jsonFormat program boost)} (fits : exchange.JsonFits peer event) :
    exchange.Carried peer jsonTyped event := by
  cases event with
  | call call result client =>
      intro buffer made
      exact json_arrives fits.1 fits.2 made
  | handle index moment =>
      intro request there
      exact (fits request there).serves
  | deliver index => trivial
  | inside event => trivial

/-- Whatever the threads at both ends do, a call whose messages are written as JSON is
executed once at most, with the parameters that it was given, and the caller gets the result
or the exception of that execution. -/
theorem json_calls_executed_once (peer : Nat → Peer (jsonFormat program boost))
    (timeout now : Int) (events : List (Event (jsonFormat program boost)))
    (last : Exchange (jsonFormat program boost))
    (guarded : Transition.Along (step peer) (fun exchange event => exchange.Fresh event ∧
      exchange.JsonFits peer event) (new (jsonFormat program boost) timeout now) events)
    (reached : Transition.run (step peer) (new (jsonFormat program boost) timeout now) events =
      some last) : last.Honest peer jsonTyped := by
  have weaker : ∀ (exchange : Exchange (jsonFormat program boost))
      (event : Event (jsonFormat program boost)),
      exchange.Fresh event ∧ exchange.JsonFits peer event →
        exchange.Fresh event ∧ exchange.Carried peer jsonTyped event :=
    fun exchange event met => ⟨met.1, json_carried met.2⟩
  have carried := Transition.along_mono weaker guarded
  have invariant := Transition.run_invariant invariant_step (invariant_new timeout now)
    carried reached
  exact invariant.honest

/-- The texts of a call without parameters and of its response. -/
def locateText : List UInt8 :=
  ("\x7b\"uuid\":\"u\",\"type\":\"request\",\"instance\":\"a\",\"interface\":\"IShape\"," ++
    "\"method\":\"Locate\"\x7d").toList.map fun char => char.toNat.toUInt8

def locatedText : List UInt8 :=
  ("\x7b\"uuid\":\"u\",\"type\":\"response\",\"instance\":\"a\",\"interface\":\"IShape\"," ++
    "\"method\":\"Locate\",\"prm\":[\x7b\"a\":7,\"b\":\"x\"\x7d]\x7d").toList.map
      fun char => char.toNat.toUInt8

def locateMembers : Serialization.Json.Members :=
  assignAll (Serializer.header true "u" "a" "IShape" "Locate")

def locatedMembers : Serialization.Json.Members :=
  assignAll (Serializer.header false "u" "a" "IShape" "Locate" ++
    [(Serialization.Tag.param, .array [.object [("a", .uint64 7), ("b", .string "x")]])])

/-- The library on the two messages. -/
def locateJson : BoostJson (List UInt8) where
  write
    | .object members => if members.length = 5 then locateText else locatedText
    | _ => []
  parse text :=
    if text = locateText then .ok (.object (reparsedMembers locateMembers))
    else if text = locatedText then .ok (.object (reparsedMembers locatedMembers))
    else throwing "syntax error"

abbrev locateFormat : TSerializer := jsonFormat Mif.Serialization.pointProgram locateJson

def located : locateFormat.Params :=
  ⟨1, fun _ => .struct 0, fun _ => Mif.Serialization.pointOf 7 (.holds (.string "x")) 0⟩

/-- A method without parameters that returns a struct. -/
def locateMethod : Method locateFormat where
  name := "Locate"
  types := ⟨0, Fin.elim0⟩
  Args := Unit
  Result := locateFormat.Params
  cast := pure ()
  prepareParams _ := pure ()
  invoke _ := pure located
  packResult params := pure (some params)

def locatePeer (_ : Nat) : Peer locateFormat :=
  ⟨⟨[("a", some ⟨["IShape"], [locateMethod]⟩)], []⟩,
    ⟨fun _ => Net.Client.new, fun _ => .error (.thrown .unknown)⟩⟩

def locateCall : Outgoing locateFormat :=
  ⟨"u", "a", "IShape", "Locate", ⟨0, Fin.elim0, fun index => index.elim0⟩⟩

theorem located_restored (index : Fin 1) :
    Restored Mif.Serialization.pointProgram (located.2.2 index) :=
  Mif.Serialization.restored_point

theorem locate_faithful : Faithful locateJson locateMembers where
  filled := by decide +kernel
  undone := by
    have wrote : locateJson.write (.object locateMembers) = locateText := rfl
    rw [wrote]
    simp only [locateJson, ↓reduceIte]

theorem located_faithful : Faithful locateJson locatedMembers where
  filled := by decide +kernel
  undone := by
    have wrote : locateJson.write (.object locatedMembers) = locatedText := rfl
    have other : locatedText ≠ locateText := by decide +kernel
    rw [wrote]
    simp only [locateJson, other, ↓reduceIte]

theorem locate_sendable : Sendable locateCall :=
  ⟨by decide, by decide, fun index => index.elim0⟩

theorem locate_fits (serializer : Serializer)
    (written : locateFormat.request locateCall.uuid locateCall.instanceId locateCall.interfaceId
      locateCall.method locateCall.params = .ok serializer) :
    Faithful locateJson serializer.value := by
  cases written
  exact locate_faithful

/-- The peer serves the text of the call. -/
theorem locate_serves (moment : Nat) : (locatePeer moment).JsonServes locateText := by
  have message : ∀ incoming, IsRequest locateFormat locateText incoming →
      (⟨reparsedMembers locateMembers⟩ : Deserializer) = incoming.message ∧
        incoming.uuid = "u" ∧ incoming.instanceId = "a" ∧ incoming.interfaceId = "IShape" ∧
        incoming.method = "Locate" := by
    intro incoming arrived
    have read : locateFormat.deserializer locateText = .ok ⟨reparsedMembers locateMembers⟩ :=
      @new_getBuffer _ _ ⟨locateMembers⟩ locate_faithful
    have same := Except.ok.inj (read.symm.trans arrived.deserialized)
    have uuid := arrived.uuid
    have inst := arrived.instanceId
    have interface := arrived.interfaceId
    have method := arrived.method
    rw [← same] at uuid inst interface method
    exact ⟨same, (Except.ok.inj uuid).symm, (Except.ok.inj inst).symm,
      (Except.ok.inj interface).symm, (Except.ok.inj method).symm⟩
  have bound : ∀ incoming stub, IsRequest locateFormat locateText incoming →
      (locatePeer moment).receiver.stubs.lookup incoming.instanceId = some (some stub) →
      (locatePeer moment).ended stub incoming.message = .ok (some located) := by
    intro incoming stub arrived found
    obtain ⟨same, _, inst, _, _⟩ := message incoming arrived
    rw [inst] at found
    cases found
    rw [← same]
    rfl
  constructor
  · intro call asked member
    have posts : ((locatePeer 0).process locateText).posts.map Sent.isRequest = [false] := by
      decide +kernel
    have mapped := List.mem_map_of_mem (f := Sent.isRequest) member
    change true ∈ ((locatePeer 0).process locateText).posts.map Sent.isRequest at mapped
    rw [posts] at mapped
    cases List.mem_singleton.mp mapped
  · intro incoming stub arrived found
    rw [bound incoming stub arrived found]
    exact located_restored
  · intro incoming stub reply arrived found carries
    rw [bound incoming stub arrived found] at carries
    obtain ⟨_, uuid, inst, interface, method⟩ := message incoming arrived
    cases carries with
    | result params packed put =>
        unfold ProcessData.response at put
        rw [uuid, inst, interface, method] at put
        cases put
        exact located_faithful
    | unpacked params left what failed =>
        unfold ProcessData.response at failed
        rw [uuid, inst, interface, method] at failed
        cases failed

def locateEvents : List (Event locateFormat) :=
  [.call locateCall (some ⟨1, fun _ => .struct 0⟩) Net.Client.new, .handle 0 0, .deliver 0,
    .inside (.store 0), .inside (.wake "u" false)]

theorem located_over_json :
    ∃ last, Transition.run (step locatePeer) (new locateFormat 10 0) locateEvents = some last ∧
      last.Honest locatePeer jsonTyped ∧
      last.client.returned.map (fun item => item.call.uuid) = ["u"] := by
  have guarded : Transition.Along (step locatePeer) (fun exchange event => exchange.Fresh event ∧
      exchange.JsonFits locatePeer event) (new locateFormat 10 0) locateEvents := by
    refine ⟨⟨List.not_mem_nil, locate_sendable, locate_fits⟩, ?_⟩
    intro called taken
    cases taken
    refine ⟨⟨trivial, ?_⟩, ?_⟩
    · intro request there
      cases there
      exact locate_serves 0
    · intro handled taken
      apply Transition.along_of_mem
      intro event member state
      simp only [List.mem_cons, List.not_mem_nil, or_false] at member
      rcases member with rfl | rfl | rfl
      · exact ⟨trivial, trivial⟩
      · exact ⟨trivial, trivial⟩
      · exact ⟨trivial, trivial⟩
  have reached : (Transition.run (step locatePeer) (new locateFormat 10 0) locateEvents).map
      (fun last => last.client.returned.map fun item => item.call.uuid) = some ["u"] := by
    decide +kernel
  obtain ⟨last, run, same⟩ := Option.map_eq_some_iff.mp reached
  exact ⟨last, run, json_calls_executed_once locatePeer 10 0 locateEvents last guarded run, same⟩

end Exchange

end Mif.Remote
