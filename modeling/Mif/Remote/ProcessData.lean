import Mathlib.Data.List.Basic
import Mif.Lib.Activity
import Mif.Common.Fault
import Mif.Net.Client
import Mif.Remote.Serialization.Tag
import Mif.Remote.Serialization.Format

set_option autoImplicit false

/- `PSClient::ProcessData` and the call of a stub: how a request is answered. -/
namespace Mif.Remote

open Mif.Remote.Serialization (Exception)

/-- What ends a call early: an exception of any type, or an undefined access. -/
inductive Raised
  | thrown (exception : Exception)
  | undefined (access : Undefined)
  deriving DecidableEq, Repr

def Raised.of : Fault → Raised
  | .exception what => .thrown (.standard what)
  | .undefined access => .undefined access

def Raised.fault : Raised → Fault
  | .thrown exception => .exception exception.message
  | .undefined access => .undefined access

variable {api : TSerializer}

/-- A request that a proxy sends. -/
structure Outgoing (api : TSerializer) where
  uuid : String
  instanceId : String
  interfaceId : String
  method : String
  params : api.Params

/-- A buffer that was handed to the publisher, with what it was made of. -/
inductive Sent (api : TSerializer)
  | request (call : Outgoing api) (buffer : List api.Symbol)
  | response (answer : api.Serializer) (buffer : List api.Symbol)

def Sent.isRequest : Sent api → Bool
  | .request _ _ => true
  | .response _ _ => false

/-- The code behind a stub. It may call the peer back through proxies of its own. -/
abbrev Doing (api : TSerializer) :=
  Activity (Outgoing api) (Except Raised api.Deserializer) Raised

namespace Doing

variable {α : Type}

def raise (raised : Raised) : Doing api α := .done (.error raised)

/-- A call of the serializer. -/
def lift (outcome : Outcome α) : Doing api α := .done (outcome.mapError Raised.of)

end Doing

/-- The rest of the process while a request is handled: the state of the client and what a
`Send` gets back, when so much has been sent. -/
structure World (api : TSerializer) where
  client : List (Sent api) → Net.Client
  answer : List (Sent api) → Except Raised api.Deserializer

/-- `PSClient::Send`. What is waited for is up to the world. -/
def World.send (world : World api) (trace : List (Sent api)) (call : Outgoing api) :
    List (Sent api) × Except Raised api.Deserializer :=
  let made := api.request call.uuid call.instanceId call.interfaceId call.method call.params
  match made.bind api.getBuffer with
  | .error fault => ([], .error (Raised.of fault))
  | .ok buffer =>
      if (world.client trace).post then
        ([.request call buffer], world.answer (trace ++ [.request call buffer]))
      else if (world.client trace).closeMe then
        ([], .error (.thrown (.standard ("[Mif::Remote::PSClient::Send] Failed to post " ++
          "request. No channel for post data."))))
      else
        ([], .error (.thrown (.standard ("[Mif::Remote::PSClient::Send] Failed to post " ++
          "request. No channel for post data and failed to close self."))))

/-- One `MIF_REMOTE_METHOD` of a stub, for the object that the stub has. -/
structure Method (api : TSerializer) where
  name : String
  types : api.Types
  Args : Type
  Result : Type
  /-- `Service::Cast<TInterface>(m_instance)` -/
  cast : Doing api Unit
  prepareParams : api.Params → Doing api Args
  invoke : Args → Doing api Result
  /-- The parameter that `FunctionWrap::PackResult` puts; none for a `void` method. -/
  packResult : Result → Doing api (Option api.Params)

/-- `Stub::InvokeRealMethod` up to `PutParams` -/
def Method.invokeRealMethod (method : Method api) (request : api.Deserializer) :
    Doing api (Option api.Params) := do
  method.cast
  let tmpParams ← Doing.lift (api.getParams request method.types)
  let params ← method.prepareParams tmpParams
  let result ← method.invoke params
  method.packResult result

/-- A stub object: the ids of its interface and their bases, and the methods of all of
them. -/
structure StubObject (api : TSerializer) where
  interfaceIds : List String
  methods : List (Method api)

namespace StubObject

def containInterfaceId (stub : StubObject api) (id : String) : Bool := id ∈ stub.interfaceIds

def invokeMethod (stub : StubObject api) (method : String) (request : api.Deserializer) :
    Doing api (Option api.Params) :=
  match stub.methods.find? fun item => item.name = method with
  | none => .raise (.thrown (.standard
      ("[Mif::Remote::Stub::InvokeMethod] Method \"" ++ method ++ "\" not found.")))
  | some item => item.invokeRealMethod request

/-- What `Stub::Call` tries. -/
def tried (stub : StubObject api) (request : api.Deserializer) :
    Doing api (Option api.Params) := do
  let interfaceId ← Doing.lift (api.getInterface request)
  if stub.containInterfaceId interfaceId then
    let method ← Doing.lift (api.getMethod request)
    stub.invokeMethod method request
  else
    .raise (.thrown (.standard ("[Mif::Remote::Stub::Call] Interface with id \"" ++
      interfaceId ++ "\" not supported for this object.")))

/-- `catch (...)` of `Stub::Call` -/
def caught (response : api.Serializer) : Raised → Except Raised api.Serializer
  | .thrown exception => .ok (api.putException response exception)
  | .undefined access => .error (.undefined access)

/-- The response for what was tried. `PutParams` is inside the `try` as well. -/
def concluded (response : api.Serializer) :
    Except Raised (Option api.Params) → Except Raised api.Serializer
  | .ok none => .ok response
  | .ok (some params) =>
      match api.putParams response params with
      | (packed, .ok _) => .ok packed
      | (left, .error fault) => caught left (Raised.of fault)
  | .error raised => caught response raised

/-- `Stub::Call` -/
def call (stub : StubObject api) (request : api.Deserializer) (response : api.Serializer) :
    Doing api api.Serializer :=
  (stub.tried request).after fun result => .done (concluded response result)

end StubObject

/-- The header of a message. -/
structure Incoming (api : TSerializer) where
  message : api.Deserializer
  uuid : String
  instanceId : String
  interfaceId : String
  method : String

/-- `m_stubs`, with null pointers, and the keys of `m_responses`. -/
structure Receiver (api : TSerializer) where
  stubs : List (String × Option (StubObject api))
  responses : List String

/-- What a call of `ProcessData` does: the buffers it posts, the response it stores, and
how it ends. -/
structure Processed (api : TSerializer) where
  posts : List (Sent api)
  stored : Option (Incoming api)
  outcome : Outcome Unit

namespace ProcessData

/-- The text of an exception. -/
def text (what : String) : String := "[Mif::Remote::PSClient::ProcessData] " ++ what

/-- `throw ProxyStubException{...}` -/
def refuse {α : Type} (what : String) : Outcome α := throwing (text what)

/-- `catch (std::exception const &)` -/
def wrapped {α : Type} : Outcome α → Outcome α
  | .error (.exception what) => refuse ("Failed to process data. Error: " ++ what)
  | outcome => outcome

/-- The beginning of `ProcessData`. -/
def receive (api : TSerializer) (buffer : List api.Symbol) : Outcome (Incoming api) := do
  demand (!buffer.isEmpty) (text "Empty data.")
  let message ← wrapped (api.deserializer buffer)
  let uuid ← wrapped (api.getUuid message)
  demand (uuid ≠ "") (text "Empty package id (no uuid).")
  let instanceId ← wrapped (api.getInstance message)
  demand (instanceId ≠ "") (text "Empty instance id.")
  let interfaceId ← wrapped (api.getInterface message)
  demand (interfaceId ≠ "") (text ("Empty interface id for instanse \"" ++ instanceId ++ "\""))
  let method ← wrapped (api.getMethod message)
  demand (method ≠ "") (text ("Empty method name of interface \"" ++ interfaceId ++
    "\" for instance \"" ++ instanceId ++ "\""))
  return ⟨message, uuid, instanceId, interfaceId, method⟩

/-- The response with nothing in it. -/
def response (incoming : Incoming api) : api.Serializer :=
  api.response incoming.uuid incoming.instanceId incoming.interfaceId incoming.method

/-- The end of the branch for a request. -/
def publish (client : Net.Client) (trace : List (Sent api)) (incoming : Incoming api)
    (answer : api.Serializer) : List (Sent api) × Outcome Unit :=
  match wrapped (api.getBuffer answer) with
  | .error fault => (trace, .error fault)
  | .ok buffer =>
      if client.post then (trace ++ [.response answer buffer], .ok ())
      else if client.closeMe then
        (trace, refuse ("Failed to post response from instanse \"" ++ incoming.instanceId ++
          "\". No channel for post data."))
      else
        (trace, refuse ("Failed to post response from instance \"" ++ incoming.instanceId ++
          "\". No channel for post data and failed to close self."))

/-- The branch for a request. -/
def answer (receiver : Receiver api) (world : World api) (incoming : Incoming api) :
    List (Sent api) × Outcome Unit :=
  if incoming.uuid ∈ receiver.responses then
    ([], refuse ("Response id \"" ++ incoming.uuid ++ "\" not unique."))
  else
    match receiver.stubs.lookup incoming.instanceId with
    | some (some stub) =>
        match (stub.call incoming.message (response incoming)).run world.send [] with
        | (trace, .error raised) => (trace, .error raised.fault)
        | (trace, .ok serializer) => publish (world.client trace) trace incoming serializer
    | _ => ([], refuse ("Instance \"" ++ incoming.instanceId ++ "\" not found."))

end ProcessData

open ProcessData in
/-- `PSClient::ProcessData` -/
def processData (receiver : Receiver api) (world : World api) (buffer : List api.Symbol) :
    Processed api :=
  match receive api buffer with
  | .error fault => ⟨[], none, .error fault⟩
  | .ok incoming =>
      match wrapped (api.isResponse incoming.message) with
      | .error fault => ⟨[], none, .error fault⟩
      | .ok true => ⟨[], some incoming, .ok ()⟩
      | .ok false =>
          let (posts, outcome) := answer receiver world incoming
          ⟨posts, none, outcome⟩

/-- A request that arrives in a buffer, with no part of its header empty. -/
structure IsRequest (api : TSerializer) (buffer : List api.Symbol) (incoming : Incoming api) :
    Prop where
  filled : buffer ≠ []
  deserialized : api.deserializer buffer = .ok incoming.message
  uuid : api.getUuid incoming.message = .ok incoming.uuid
  instanceId : api.getInstance incoming.message = .ok incoming.instanceId
  interfaceId : api.getInterface incoming.message = .ok incoming.interfaceId
  method : api.getMethod incoming.message = .ok incoming.method
  type : api.isResponse incoming.message = .ok false
  named : incoming.uuid ≠ "" ∧ incoming.instanceId ≠ "" ∧ incoming.interfaceId ≠ "" ∧
    incoming.method ≠ ""

/-- A response carries what a call ended with: nothing for a `void` method, its result, the
exception it threw, or the exception that putting its result threw. -/
inductive Carries (empty : api.Serializer) :
    Except Raised (Option api.Params) → api.Serializer → Prop
  | void : Carries empty (.ok none) empty
  | result (params : api.Params) (packed : api.Serializer)
      (put : api.putParams empty params = (packed, .ok ())) :
      Carries empty (.ok (some params)) packed
  | exception (exception : Exception) :
      Carries empty (.error (.thrown exception)) (api.putException empty exception)
  | unpacked (params : api.Params) (left : api.Serializer) (what : String)
      (failed : api.putParams empty params = (left, throwing what)) :
      Carries empty (.ok (some params)) (api.putException left (.standard what))

namespace StubObject

/-- `Stub::Call` gives a response whatever is thrown inside it. -/
theorem concluded_carries (empty : api.Serializer) (result : Except Raised (Option api.Params)) :
    (∃ answer, concluded empty result = .ok answer ∧ Carries empty result answer) ∨
      ∃ access, concluded empty result = .error (.undefined access) := by
  cases result with
  | error raised =>
      cases raised with
      | thrown exception => exact Or.inl ⟨_, rfl, .exception exception⟩
      | undefined access => exact Or.inr ⟨access, rfl⟩
  | ok params =>
      cases params with
      | none => exact Or.inl ⟨empty, rfl, .void⟩
      | some params =>
          cases put : api.putParams empty params with
          | mk packed outcome =>
              simp only [concluded, put]
              cases outcome with
              | ok _ => exact Or.inl ⟨packed, rfl, .result params packed put⟩
              | error fault =>
                  cases fault with
                  | exception what => exact Or.inl ⟨_, rfl, .unpacked params packed what put⟩
                  | undefined access => exact Or.inr ⟨access, rfl⟩

theorem run_call (stub : StubObject api) (world : World api) (request : api.Deserializer)
    (empty : api.Serializer) :
    (stub.call request empty).run world.send [] =
      (((stub.tried request).run world.send []).1,
        concluded empty ((stub.tried request).run world.send []).2) := by
  unfold call
  rw [Activity.run_after]
  rfl

end StubObject

/-- A `Send` posts requests only. -/
theorem World.send_request (world : World api) (trace : List (Sent api)) (call : Outgoing api) :
    ∀ sent ∈ (world.send trace call).1, sent.isRequest = true := by
  intro sent member
  unfold World.send at member
  dsimp only at member
  split at member
  · cases member
  · split at member
    · obtain rfl := List.mem_singleton.mp member
      rfl
    · split at member
      · cases member
      · cases member

namespace ProcessData

theorem receive_request {buffer : List api.Symbol} {incoming : Incoming api}
    (request : IsRequest api buffer incoming) : receive api buffer = .ok incoming := by
  obtain ⟨uuid, instanceId, interfaceId, method⟩ := request.named
  have filled : buffer.isEmpty = false := List.isEmpty_eq_false_iff.mpr request.filled
  unfold receive
  simp only [filled, request.deserialized, request.uuid, request.instanceId, request.interfaceId,
    request.method, wrapped, demand, uuid, instanceId, interfaceId, method, bind, Except.bind,
    pure, Except.pure, ↓reduceIte, Bool.not_false, ne_eq, not_false_eq_true, decide_true]

theorem ok_of_wrapped {α : Type} {outcome : Outcome α} {value : α}
    (returned : wrapped outcome = .ok value) : outcome = .ok value := by
  unfold wrapped at returned
  split at returned
  · cases returned
  · exact returned

/-- The response that a buffer brings. -/
def kept (api : TSerializer) (buffer : List api.Symbol) : Option (Incoming api) :=
  match receive api buffer with
  | .error _ => none
  | .ok incoming =>
      match api.isResponse incoming.message with
      | .ok true => some incoming
      | _ => none

/-- What is stored depends on the buffer only. -/
theorem processData_stored (receiver : Receiver api) (world : World api)
    (buffer : List api.Symbol) : (processData receiver world buffer).stored = kept api buffer := by
  unfold processData kept
  cases receive api buffer with
  | error fault => rfl
  | ok incoming =>
      dsimp only
      cases api.isResponse incoming.message with
      | error fault =>
          cases fault with
          | exception what => rfl
          | undefined access => rfl
      | ok isResponse =>
          cases isResponse with
          | false => rfl
          | true => rfl

/-- A stored response is a message with the id that the table keeps it under. -/
theorem uuid_of_kept {buffer : List api.Symbol} {incoming : Incoming api}
    (stored : kept api buffer = some incoming) :
    api.getUuid incoming.message = .ok incoming.uuid := by
  have received : receive api buffer = .ok incoming := by
    unfold kept at stored
    split at stored
    · cases stored
    · rename_i other received
      split at stored
      · cases stored
        exact received
      · cases stored
  unfold receive at received
  obtain ⟨_, _, received⟩ := ok_of_bind received
  obtain ⟨message, _, received⟩ := ok_of_bind received
  obtain ⟨uuid, identified, received⟩ := ok_of_bind received
  obtain ⟨_, _, received⟩ := ok_of_bind received
  obtain ⟨instanceId, _, received⟩ := ok_of_bind received
  obtain ⟨_, _, received⟩ := ok_of_bind received
  obtain ⟨interfaceId, _, received⟩ := ok_of_bind received
  obtain ⟨_, _, received⟩ := ok_of_bind received
  obtain ⟨method, _, received⟩ := ok_of_bind received
  obtain ⟨_, _, received⟩ := ok_of_bind received
  cases received
  exact ok_of_wrapped identified

theorem processData_request {buffer : List api.Symbol} {incoming : Incoming api}
    (request : IsRequest api buffer incoming) (receiver : Receiver api) (world : World api) :
    processData receiver world buffer =
      ⟨(answer receiver world incoming).1, none, (answer receiver world incoming).2⟩ := by
  unfold processData
  rw [receive_request request]
  simp only [request.type, wrapped]

/-- One response, with the header of the request. -/
theorem answer_bound {receiver : Receiver api} {world : World api} {incoming : Incoming api}
    {stub : StubObject api} (opened : ∀ trace, (world.client trace).post = true)
    (unique : incoming.uuid ∉ receiver.responses)
    (bound : receiver.stubs.lookup incoming.instanceId = some (some stub))
    (defined : ∀ access, ((stub.call incoming.message (response incoming)).run world.send []).2 ≠
      .error (.undefined access))
    (serialized : ∀ answer, ((stub.call incoming.message (response incoming)).run
        world.send []).2 = .ok answer → ∃ reply, api.getBuffer answer = .ok reply) :
    ∃ calls result reply buffer,
      (stub.tried incoming.message).run world.send [] = (calls, result) ∧
        (∀ sent ∈ calls, sent.isRequest = true) ∧
        Carries (response incoming) result reply ∧ api.getBuffer reply = .ok buffer ∧
        answer receiver world incoming = (calls ++ [.response reply buffer], .ok ()) := by
  obtain ⟨calls, trace, requests⟩ :=
    Activity.run_trace world.send world.send_request (stub.tried incoming.message) []
  rw [stub.run_call] at defined serialized
  rcases StubObject.concluded_carries (response incoming)
    ((stub.tried incoming.message).run world.send []).2 with
    ⟨reply, concluded, carries⟩ | ⟨access, undefined⟩
  · obtain ⟨buffer, made⟩ := serialized reply concluded
    refine ⟨calls, _, reply, buffer, Prod.ext trace rfl, requests, carries, made, ?_⟩
    unfold answer
    rw [if_neg unique, bound]
    dsimp only
    rw [stub.run_call, concluded]
    dsimp only
    unfold publish
    rw [made, trace, opened]
    rfl
  · exact absurd undefined (defined access)

theorem answer_refused {receiver : Receiver api} {incoming : Incoming api} (world : World api)
    (refused : incoming.uuid ∈ receiver.responses ∨
      ∀ stub, receiver.stubs.lookup incoming.instanceId ≠ some (some stub)) :
    ∃ what, answer receiver world incoming = ([], refuse what) := by
  unfold answer
  split
  · exact ⟨_, rfl⟩
  · rename_i unique
    split
    · rename_i stub bound
      exact absurd bound ((refused.resolve_left unique) stub)
    · exact ⟨_, rfl⟩

end ProcessData

open ProcessData in
/-- On an open channel a request to a bound stub is answered once, with what the call ended
with, however that is. A request to no stub, or with the id of a stored response, is refused
and not answered. -/
theorem request_answered_or_refused (receiver : Receiver api) (world : World api)
    (buffer : List api.Symbol) (incoming : Incoming api)
    (request : IsRequest api buffer incoming)
    (opened : ∀ trace, (world.client trace).post = true) :
    (∀ stub, receiver.stubs.lookup incoming.instanceId = some (some stub) →
      incoming.uuid ∉ receiver.responses →
      (∀ access, ((stub.call incoming.message (response incoming)).run world.send []).2 ≠
        .error (.undefined access)) →
      (∀ answer, ((stub.call incoming.message (response incoming)).run world.send []).2 =
        .ok answer → ∃ reply, api.getBuffer answer = .ok reply) →
      ∃ calls result reply posted,
        (stub.tried incoming.message).run world.send [] = (calls, result) ∧
          (∀ sent ∈ calls, sent.isRequest = true) ∧
          Carries (response incoming) result reply ∧ api.getBuffer reply = .ok posted ∧
          processData receiver world buffer =
            ⟨calls ++ [.response reply posted], none, .ok ()⟩) ∧
      ((incoming.uuid ∈ receiver.responses ∨
          ∀ stub, receiver.stubs.lookup incoming.instanceId ≠ some (some stub)) →
        ∃ what, processData receiver world buffer = ⟨[], none, refuse what⟩) := by
  rw [processData_request request]
  constructor
  · intro stub bound unique defined serialized
    obtain ⟨calls, result, reply, posted, ran, requests, carries, made, answered⟩ :=
      answer_bound opened unique bound defined serialized
    refine ⟨calls, result, reply, posted, ran, requests, carries, made, ?_⟩
    rw [answered]
  · intro refused
    obtain ⟨what, answered⟩ := answer_refused world refused
    refine ⟨what, ?_⟩
    rw [answered]

open Mif.Reflection Mif.Serialization in
/-- A call that is written as JSON arrives as a request, with its parameters. -/
theorem json_call_isRequest {schema : Schema} {program : Program schema} {Symbol : Type}
    {boost : BoostJson (List Symbol)} {n : Nat} {types : Fin n → Ty}
    {params : ∀ index, Val schema (types index)} {uuid instanceId interfaceId method : String}
    (restored : ∀ index, Restored program (params index))
    (whole : ∀ text ∈ [uuid, instanceId, interfaceId, method], '\x00' ∉ text.toList)
    (named : uuid ≠ "" ∧ instanceId ≠ "" ∧ interfaceId ≠ "" ∧ method ≠ "")
    (faithful : ∀ serializer, Serialization.Json.Serializer.new program true uuid instanceId
      interfaceId method params = .ok serializer →
      Serialization.Json.Faithful boost serializer.value) :
    let api := Serialization.Json.format program boost
    ∃ call buffer message,
      api.request uuid instanceId interfaceId method ⟨n, types, params⟩ = .ok call ∧
        api.getBuffer call = .ok buffer ∧
        IsRequest api buffer ⟨message, uuid, instanceId, interfaceId, method⟩ ∧
        api.getParams message ⟨n, types⟩ = .ok ⟨n, types, params⟩ := by
  intro api
  obtain ⟨call, message, written, parsed, received, read⟩ :=
    Serialization.Json.call_received restored whole faithful
  refine ⟨call, call.getBuffer boost, message, written, rfl, ?_, ?_⟩
  · constructor
    · exact (faithful call written).filled
    · exact parsed
    · exact received.uuid
    · exact received.inst
    · exact received.interface
    · exact received.method
    · exact Serialization.Json.isResponse_of_isRequest received.type
    · exact named
  · change (message.getParamsIfExists program types >>= _) = _
    rw [read]
    rfl

/-- A process with one service behind the instance id `a`. -/
def sampleFormat : TSerializer :=
  Serialization.Boost.format
    (Serialization.Boost.itemArchive (Empty.elim : Empty → Type) .binary) EvalOrder.rightToLeft

/-- A method that throws something that is not a `std::exception`. -/
def sampleMethod : Method sampleFormat where
  name := "Hello"
  types := []
  Args := Unit
  Result := Unit
  cast := pure ()
  prepareParams _ := pure ()
  invoke _ := .raise (.thrown .unknown)
  packResult _ := pure none

def sampleStub : StubObject sampleFormat := ⟨["IHello", "IService"], [sampleMethod]⟩

def sampleReceiver : Receiver sampleFormat := ⟨[("a", some sampleStub)], []⟩

/-- The channel is open, and nobody answers. -/
def sampleWorld : World sampleFormat := ⟨fun _ => Net.Client.new, fun _ => .error (.thrown .unknown)⟩

def sampleRequest (instanceId : String) : Incoming sampleFormat :=
  ⟨⟨"u", "request", instanceId, "IHello", "Hello", none, [none]⟩, "u", instanceId, "IHello", "Hello"⟩

/-- The buffer of the request. -/
def sampleBuffer (instanceId : String) : List sampleFormat.Symbol :=
  (Serialization.Boost.Serializer.new true "u" instanceId "IHello" "Hello" Fin.elim0).getBuffer
    (Serialization.Boost.itemArchive (Empty.elim : Empty → Type) .binary) (EvalOrder.rightToLeft 0)

theorem sampleBuffer_isRequest {instanceId : String} (named : instanceId ≠ "") :
    IsRequest sampleFormat (sampleBuffer instanceId) (sampleRequest instanceId) where
  filled := List.cons_ne_nil _ _
  deserialized := Serialization.Boost.new_getBuffer
    (Serialization.Boost.itemArchive_sequential (Empty.elim : Empty → Type) .binary) _ _
  uuid := rfl
  instanceId := rfl
  interfaceId := rfl
  method := rfl
  type := rfl
  named :=
    ⟨(by decide : "u" ≠ ""), named, (by decide : "IHello" ≠ ""), (by decide : "Hello" ≠ "")⟩

theorem thrown_exception_is_answered :
    ∃ calls reply posted, (∀ sent ∈ calls, Sent.isRequest sent = true) ∧
      processData sampleReceiver sampleWorld (sampleBuffer "a") =
        ⟨calls ++ [.response reply posted], none, .ok ()⟩ := by
  obtain ⟨calls, _, reply, posted, _, requests, _, _, processed⟩ :=
    (request_answered_or_refused sampleReceiver sampleWorld (sampleBuffer "a")
      (sampleRequest "a") (sampleBuffer_isRequest (by decide)) (fun _ => rfl)).1
      sampleStub rfl (by decide) (by intro access undefined; cases undefined)
      (by intro answer _; exact ⟨_, rfl⟩)
  exact ⟨calls, reply, posted, requests, processed⟩

/-- A request to an unknown instance on an open channel gets no response, and
`ProcessData` throws. -/
theorem unknown_instance_is_not_answered :
    ¬ (∀ (api : TSerializer) (receiver : Receiver api) (world : World api)
        (buffer : List api.Symbol) (incoming : Incoming api), IsRequest api buffer incoming →
        (∀ trace, (world.client trace).post = true) →
        ∃ (calls : List (Sent api)) (reply : api.Serializer) (posted : List api.Symbol),
          (∀ sent ∈ calls, sent.isRequest = true) ∧
          processData receiver world buffer =
            ⟨calls ++ [.response reply posted], none, .ok ()⟩) ∧
      processData sampleReceiver sampleWorld (sampleBuffer "x") =
        ⟨[], none, throwing ("[Mif::Remote::PSClient::ProcessData] " ++
          "Instance \"x\" not found.")⟩ := by
  have refused : processData sampleReceiver sampleWorld (sampleBuffer "x") =
      ⟨[], none, throwing ("[Mif::Remote::PSClient::ProcessData] " ++
        "Instance \"x\" not found.")⟩ := by
    rw [ProcessData.processData_request (sampleBuffer_isRequest (by decide))]
    rfl
  refine ⟨?_, refused⟩
  intro all
  obtain ⟨calls, reply, posted, _, processed⟩ := all sampleFormat sampleReceiver sampleWorld
    (sampleBuffer "x") (sampleRequest "x") (sampleBuffer_isRequest (by decide)) (fun _ => rfl)
  have outcomes := congrArg Processed.outcome (refused.symm.trans processed)
  cases outcomes

end Mif.Remote
