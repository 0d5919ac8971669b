import Mathlib.Data.List.Basic
import Mathlib.Data.List.Perm.Basic
import Mif.Lib.Activity
import Mif.Lib.Assoc
import Mif.Lib.Transition
import Mif.Common.Fault
import Mif.Net.Client
import Mif.Remote.Serialization.Tag
import Mif.Remote.Serialization.Boost
import Mif.Remote.Serialization.Format
import Mif.Remote.ProcessData
import Mif.Remote.Responses

set_option autoImplicit false

/- A remote call from end to end: a `PSClient` whose threads call, the peer whose workers
serve, and the buffers between the two. -/
namespace Mif.Remote

variable {api : TSerializer}

/-- A request that was handed to the publisher. -/
structure Posted (api : TSerializer) where
  call : Outgoing api
  buffer : List api.Symbol

/-- What a worker of the peer finds: the tables of its `PSClient` and the rest of the process. -/
structure Peer (api : TSerializer) where
  receiver : Receiver api
  world : World api

/-- `ProcessData` of the peer. -/
def Peer.process (peer : Peer api) (buffer : List api.Symbol) : Processed api :=
  processData peer.receiver peer.world buffer

/-- What the execution of a request by a stub ends with, before a response is made of it. -/
def Peer.ended (peer : Peer api) (stub : StubObject api) (message : api.Deserializer) :
    Except Raised (Option api.Params) :=
  ((stub.tried message).run peer.world.send []).2

/-- A request that a worker of the peer has processed, at some moment. -/
structure Handled (api : TSerializer) where
  request : Posted api
  moment : Nat

def Sent.buffer : Sent api → List api.Symbol
  | .request _ buffer => buffer
  | .response _ buffer => buffer

/-- The buffer that `Proxy::RemoteCall` makes for a call. -/
def Outgoing.buffer (call : Outgoing api) : Outcome (List api.Symbol) :=
  (api.request call.uuid call.instanceId call.interfaceId call.method call.params).bind
    api.getBuffer

/-- Both ends of a connection. The workers of a `ParallelHandler` take the buffers that are
on their way in any order. `posted` and `handled` remember what the program forgets. -/
structure Exchange (api : TSerializer) where
  client : Correlator api
  requests : List (Posted api)
  responses : List (Sent api)
  posted : List (Outgoing api × Option api.Types)
  handled : List (Handled api)

namespace Exchange

def new (api : TSerializer) (timeout now : Int) : Exchange api :=
  ⟨.new api timeout now, [], [], [], []⟩

/-- A step of a thread at one of the ends. A worker posts what it posts before it is done
with its request; nothing else looks at the order. -/
inductive Event (api : TSerializer)
  | call (call : Outgoing api) (result : Option api.Types) (client : Net.Client)
  | handle (index moment : Nat)
  | deliver (index : Nat)
  | inside (event : Correlator.Event api)

/-- The steps of the caller that neither post nor receive. -/
def Event.quiet : Correlator.Event api → Bool
  | .send _ _ _ => false
  | .receive _ => false
  | _ => true

/-- The calling thread posts its buffer and waits. -/
def post (exchange : Exchange api) (call : Outgoing api) (result : Option api.Types)
    (buffer : List api.Symbol) (correlator : Correlator api) : Exchange api :=
  { exchange with
    client := correlator
    requests := exchange.requests ++ [⟨call, buffer⟩]
    posted := exchange.posted ++ [(call, result)] }

/-- The peer is as `peer` says at each moment. -/
def step (peer : Nat → Peer api) (exchange : Exchange api) : Event api → Option (Exchange api)
  | .call call result client =>
      match call.buffer with
      -- The serializer throws before `Send` is entered.
      | .error _ => some exchange
      | .ok buffer =>
          (exchange.client.step (.send call result client)).map fun correlator =>
            if client.post then exchange.post call result buffer correlator
            else { exchange with client := correlator }
  | .handle index moment =>
      (exchange.requests[index]?).map fun request =>
        { exchange with
          requests := exchange.requests.eraseIdx index
          responses := exchange.responses ++ ((peer moment).process request.buffer).posts
          handled := exchange.handled ++ [⟨request, moment⟩] }
  | .deliver index =>
      (exchange.responses[index]?).bind fun sent =>
        (exchange.client.step (.receive sent.buffer)).map fun correlator =>
          { exchange with
            client := correlator
            responses := exchange.responses.eraseIdx index }
  | .inside event =>
      if Event.quiet event then
        (exchange.client.step event).map fun correlator => { exchange with client := correlator }
      else none

/-- Request ids are used once. -/
def Fresh (exchange : Exchange api) : Event api → Prop
  | .call call _ _ => call.uuid ∉ exchange.client.sent
  | _ => True

instance (exchange : Exchange api) : (event : Event api) → Decidable (Fresh exchange event)
  | .call call _ _ => inferInstanceAs (Decidable (call.uuid ∉ exchange.client.sent))
  | .handle _ _ => isTrue trivial
  | .deliver _ => isTrue trivial
  | .inside _ => isTrue trivial

end Exchange

/- What the two ends rely on the serializer for. -/
section

variable (peer : Nat → Peer api) (typed : api.Params → api.Types → Prop)

/-- The buffer of a call is read as that call, with its parameters. -/
structure Outgoing.Arrives (call : Outgoing api) (buffer : List api.Symbol)
    (message : api.Deserializer) : Prop where
  request : IsRequest api buffer
    ⟨message, call.uuid, call.instanceId, call.interfaceId, call.method⟩
  params : ∀ types, typed call.params types → api.getParams message types = .ok call.params

/-- What a response says about the end of a call. -/
inductive Tells (message : api.Deserializer) : Except Raised (Option api.Params) → Prop
  | void (quiet : api.getException message = none) : Tells message (.ok none)
  | result (params : api.Params) (quiet : api.getException message = none)
      (read : ∀ types, typed params types → api.getParams message types = .ok params) :
      Tells message (.ok (some params))
  | exception (exception : Serialization.Exception)
      (thrown : api.getException message = some (.exception exception.message)) :
      Tells message (.error (.thrown exception))
  /-- The result could not be put into the response. -/
  | unpacked (params : api.Params) (what : String)
      (thrown : api.getException message = some (.exception what)) :
      Tells message (.ok (some params))

/-- The buffer of a response is read as the response to the request, with what it carries. -/
def Answers (incoming : Incoming api) (result : Except Raised (Option api.Params))
    (buffer : List api.Symbol) : Prop :=
  ∃ message, ProcessData.kept api buffer =
    some ⟨message, incoming.uuid, incoming.instanceId, incoming.interfaceId, incoming.method⟩ ∧
    Tells typed message result

/-- The serializer carries what the peer sends while it serves a buffer: a request of its
own is not taken for a response, and the response tells what the execution ended with. -/
structure Peer.Serves (peer : Peer api) (buffer : List api.Symbol) : Prop where
  callbacks : ∀ call asked, .request call asked ∈ (peer.process buffer).posts →
    ProcessData.kept api asked = none
  answers : ∀ incoming stub reply answer, IsRequest api buffer incoming →
    peer.receiver.stubs.lookup incoming.instanceId = some (some stub) →
    Carries (ProcessData.response incoming) (peer.ended stub incoming.message) reply →
    api.getBuffer reply = .ok answer →
    Answers typed incoming (peer.ended stub incoming.message) answer

/-- The serializer carries what is sent in a step. -/
def Exchange.Carried (exchange : Exchange api) : Exchange.Event api → Prop
  | .call call _ _ => ∀ buffer, call.buffer = .ok buffer → ∃ message, call.Arrives typed buffer message
  | .handle index moment => ∀ request, exchange.requests[index]? = some request →
      (peer moment).Serves typed request.buffer
  | _ => True

end

namespace ProcessData

theorem received_of_kept {buffer : List api.Symbol} {incoming : Incoming api}
    (stored : kept api buffer = some incoming) :
    receive api buffer = .ok incoming ∧ api.isResponse incoming.message = .ok true := by
  unfold kept at stored
  split at stored
  · cases stored
  · rename_i other received
    split at stored
    · rename_i typed
      cases stored
      exact ⟨received, typed⟩
    · cases stored

/-- The header that is kept is the one that the message has. -/
theorem header_of_receive {buffer : List api.Symbol} {incoming : Incoming api}
    (received : receive api buffer = .ok incoming) :
    api.deserializer buffer = .ok incoming.message ∧
      api.getInstance incoming.message = .ok incoming.instanceId ∧
      api.getInterface incoming.message = .ok incoming.interfaceId ∧
      api.getMethod incoming.message = .ok incoming.method := by
  unfold receive at received
  obtain ⟨_, _, received⟩ := ok_of_bind received
  obtain ⟨message, read, received⟩ := ok_of_bind received
  obtain ⟨_, _, received⟩ := ok_of_bind received
  obtain ⟨_, _, received⟩ := ok_of_bind received
  obtain ⟨instanceId, inst, received⟩ := ok_of_bind received
  obtain ⟨_, _, received⟩ := ok_of_bind received
  obtain ⟨interfaceId, interface, received⟩ := ok_of_bind received
  obtain ⟨_, _, received⟩ := ok_of_bind received
  obtain ⟨method, named, received⟩ := ok_of_bind received
  obtain ⟨_, _, received⟩ := ok_of_bind received
  cases received
  exact ⟨ok_of_wrapped read, ok_of_wrapped inst, ok_of_wrapped interface, ok_of_wrapped named⟩

/-- A response whose header is whole is kept. -/
theorem kept_of_header {incoming : Incoming api} {message : api.Deserializer}
    {buffer : List api.Symbol}
    (named : incoming.uuid ≠ "" ∧ incoming.instanceId ≠ "" ∧ incoming.interfaceId ≠ "" ∧
      incoming.method ≠ "")
    (filled : buffer ≠ []) (read : api.deserializer buffer = .ok message)
    (uuid : api.getUuid message = .ok incoming.uuid)
    (inst : api.getInstance message = .ok incoming.instanceId)
    (interface : api.getInterface message = .ok incoming.interfaceId)
    (method : api.getMethod message = .ok incoming.method)
    (type : api.isResponse message = .ok true) :
    kept api buffer =
      some ⟨message, incoming.uuid, incoming.instanceId, incoming.interfaceId, incoming.method⟩ := by
  have occupied : buffer.isEmpty = false := List.isEmpty_eq_false_iff.mpr filled
  have received : receive api buffer = .ok
      ⟨message, incoming.uuid, incoming.instanceId, incoming.interfaceId, incoming.method⟩ := by
    unfold receive
    simp only [occupied, read, uuid, inst, interface, method, named.1, named.2.1, named.2.2.1,
      named.2.2.2, wrapped, demand, bind, Except.bind, pure, Except.pure, ↓reduceIte,
      Bool.not_false, ne_eq, not_false_eq_true, decide_true]
  unfold kept
  rw [received]
  dsimp only
  rw [type]

/-- Whatever a worker posts is a request of its own, or the one response to its request, with
what the called method ended with. -/
theorem posts_of_answer {receiver : Receiver api} {world : World api} {incoming : Incoming api}
    {sent : Sent api} (member : sent ∈ (answer receiver world incoming).1) :
    sent.isRequest = true ∨ ∃ stub reply buffer, sent = .response reply buffer ∧
      receiver.stubs.lookup incoming.instanceId = some (some stub) ∧
      Carries (response incoming) ((stub.tried incoming.message).run world.send []).2 reply ∧
      api.getBuffer reply = .ok buffer := by
  unfold answer at member
  split at member
  · cases member
  · split at member
    · rename_i stub bound
      rw [stub.run_call] at member
      obtain ⟨calls, trace, requests⟩ :=
        Activity.run_trace world.send world.send_request (stub.tried incoming.message) []
      rw [List.nil_append] at trace
      rcases StubObject.concluded_carries (response incoming)
        ((stub.tried incoming.message).run world.send []).2 with
        ⟨reply, concluded, carries⟩ | ⟨access, undefined⟩
      · rw [concluded, trace] at member
        dsimp only at member
        unfold publish at member
        split at member
        · exact Or.inl (requests sent member)
        · rename_i buffer made
          split at member
          · rcases List.mem_append.mp member with early | last
            · exact Or.inl (requests sent early)
            · obtain rfl := List.mem_singleton.mp last
              exact Or.inr ⟨stub, reply, buffer, rfl, bound, carries, ok_of_wrapped made⟩
          · split at member
            · exact Or.inl (requests sent member)
            · exact Or.inl (requests sent member)
      · rw [undefined, trace] at member
        exact Or.inl (requests sent member)
    · cases member

end ProcessData

namespace Proxy

/-- The text of what `RemoteCall` throws. -/
def failure (call : Outgoing api) (what : String) : String :=
  text ("Failed to call remote method \"" ++ call.interfaceId ++ "::" ++ call.method ++
    "\" for instance with id \"" ++ call.instanceId ++ "\". Error: " ++ what)

/-- The caller asks for what the method gives: no result, or one of these types. -/
def Fits (typed : api.Params → api.Types → Prop) :
    Option api.Types → Option api.Params → Prop
  | none, none => True
  | some types, some params => typed params types
  | _, _ => False

/-- How a call ends for the caller, after what it ended with at the peer. Nothing is said of a
caller that asks for something else than the method gives. -/
inductive Ends (typed : api.Params → api.Types → Prop) (call : Outgoing api) :
    Option api.Types → Except Raised (Option api.Params) → Outcome (Option api.Params) → Prop
  | void : Ends typed call none (.ok none) (.ok none)
  | result (types : api.Types) (params : api.Params) (fits : typed params types) :
      Ends typed call (some types) (.ok (some params)) (.ok (some params))
  | thrown (types : Option api.Types) (exception : Serialization.Exception) :
      Ends typed call types (.error (.thrown exception))
        (throwing (failure call exception.message))
  | unpacked (types : Option api.Types) (params : api.Params) (what : String) :
      Ends typed call types (.ok (some params)) (throwing (failure call what))
  | unasked (types : Option api.Types) (params : Option api.Params)
      (outcome : Outcome (Option api.Params)) (unfit : ¬ Fits typed types params) :
      Ends typed call types (.ok params) outcome

/-- A response with the header of the call passes the checks, and the rest is what it says. -/
theorem received_of_header {call : Outgoing api} (types : Option api.Types)
    {message : api.Deserializer} (matched : Matches call message) :
    received call types message =
      match api.getException message with
      | some fault => .error fault
      | none => extractResult message types := by
  have type := matched.type
  unfold TSerializer.isResponse at type
  unfold received
  cases known : api.getType message with
  | error fault =>
      rw [known] at type
      cases type
  | ok name =>
      cases thrown : api.getException message with
      | some fault =>
          simp [matched.type, matched.inst, matched.interface, matched.method, demand, bind,
            Except.bind]
      | none =>
          simp [matched.type, matched.inst, matched.interface, matched.method, demand, bind,
            Except.bind]

/-- `RemoteCall` gives the caller what the response tells. -/
theorem ends_of_tells {typed : api.Params → api.Types → Prop} {call : Outgoing api}
    {types : Option api.Types} {message : api.Deserializer}
    {result : Except Raised (Option api.Params)} (matched : Matches call message)
    (tells : Tells typed message result) :
    Ends typed call types result (remoteCall call types message) := by
  have received := received_of_header types matched
  cases tells with
  | void quiet =>
      rw [quiet] at received
      cases types with
      | none =>
          have outcome : remoteCall call none message = .ok none := by
            rw [remoteCall, received]
            rfl
          rw [outcome]
          exact .void
      | some types => exact .unasked _ _ _ id
  | result params quiet read =>
      rw [quiet] at received
      cases types with
      | none => exact .unasked _ _ _ id
      | some types =>
          by_cases fits : typed params types
          · have outcome : remoteCall call (some types) message = .ok (some params) := by
              rw [remoteCall, received]
              simp only [extractResult, read types fits]
              rfl
            rw [outcome]
            exact .result types params fits
          · exact .unasked _ _ _ fits
  | exception exception thrown =>
      rw [thrown] at received
      rw [remoteCall, received]
      exact .thrown types exception
  | unpacked params what thrown =>
      rw [thrown] at received
      rw [remoteCall, received]
      exact .unpacked types params what

end Proxy

namespace Correlator

/-- What one step of the caller does to its responses: they move from the wire to the table,
and from the table to a thread that waits. -/
structure Moves (correlator next : Correlator api) (incoming : Option (Incoming api)) : Prop where
  receiving : ∀ arrival ∈ next.receiving,
    arrival ∈ correlator.receiving ∨ some arrival.incoming = incoming
  responses : ∀ item ∈ next.responses, item ∈ correlator.responses ∨
    ∃ arrival ∈ correlator.receiving, item = (arrival.incoming.uuid, arrival)
  waiting : ∀ sender ∈ next.waiting, sender ∈ correlator.waiting
  returned : ∀ item ∈ next.returned, item ∈ correlator.returned ∨
    ∃ sender ∈ correlator.waiting, ∃ arrival,
      (sender.call.uuid, arrival) ∈ correlator.responses ∧
        item = ⟨sender.call, arrival,
          Proxy.remoteCall sender.call sender.result arrival.incoming.message⟩
  sent : next.sent = correlator.sent

theorem Moves.same (correlator : Correlator api) (incoming : Option (Incoming api)) :
    Moves correlator correlator incoming where
  receiving _ member := Or.inl member
  responses _ member := Or.inl member
  waiting _ member := member
  returned _ member := Or.inl member
  sent := rfl

theorem moves_take {correlator : Correlator api} {sender : Sender api} {arrival : Arrival api}
    (member : sender ∈ correlator.waiting)
    (found : correlator.responses.lookup sender.call.uuid = some arrival) :
    Moves correlator (correlator.take sender arrival) none where
  receiving _ kept := Or.inl kept
  responses _ kept := Or.inl (List.mem_filter.mp (List.mem_filter.mp kept).1).1
  waiting _ kept := (List.mem_filter.mp kept).1
  returned item kept := by
    rcases List.mem_append.mp kept with old | new
    · exact Or.inl old
    · obtain rfl := List.mem_singleton.mp new
      exact Or.inr ⟨sender, member, arrival, Assoc.mem_of_lookup found, rfl⟩
  sent := rfl

theorem moves_insert {correlator : Correlator api} {arrival : Arrival api}
    (member : arrival ∈ correlator.receiving) : Moves correlator (correlator.insert arrival) none where
  receiving _ kept := Or.inl (List.mem_filter.mp kept).1
  responses item kept := by
    simp only [insert, Assoc.insert] at kept
    split at kept
    · exact Or.inl (List.mem_filter.mp kept).1
    · rcases List.mem_append.mp kept with old | new
      · exact Or.inl (List.mem_filter.mp old).1
      · exact Or.inr ⟨arrival, member, List.mem_singleton.mp new⟩
  waiting _ kept := kept
  returned _ kept := Or.inl kept
  sent := rfl

theorem moves_look {correlator : Correlator api} {sender : Sender api}
    (member : sender ∈ correlator.waiting) (timedOut : Bool) :
    Moves correlator (correlator.look sender timedOut) none := by
  have same := Moves.same correlator none
  unfold look
  split
  · exact { same with waiting := fun _ kept => (List.mem_filter.mp kept).1 }
  · split
    · rename_i arrival found
      exact moves_take member found
    · split
      · exact { same with responses := fun _ kept => Or.inl (List.mem_filter.mp kept).1 }
      · exact same

theorem moves_quiet {correlator next : Correlator api} {event : Event api}
    (quiet : Exchange.Event.quiet event = true) (taken : correlator.step event = some next) :
    Moves correlator next none := by
  have same := Moves.same correlator none
  cases event with
  | send call result client => cases quiet
  | receive buffer => cases quiet
  | wake requestId timedOut =>
      obtain ⟨sender, found, result⟩ := Option.map_eq_some_iff.mp taken
      rw [← result]
      exact moves_look (List.mem_of_find?_eq_some found) timedOut
  | expire requestId =>
      obtain ⟨sender, found, left⟩ := Option.bind_eq_some_iff.mp taken
      split at left
      · cases left
      · cases left
        exact { same with waiting := fun _ kept => (List.mem_filter.mp kept).1 }
  | store serial =>
      obtain ⟨arrival, found, result⟩ := Option.map_eq_some_iff.mp taken
      rw [← result]
      exact moves_insert (List.mem_of_find?_eq_some found)
  | clock now =>
      cases taken
      exact { same with }
  | close =>
      cases taken
      exact { same with }

theorem moves_receive {correlator next : Correlator api} {buffer : List api.Symbol}
    (taken : correlator.step (.receive buffer) = some next) :
    Moves correlator next (ProcessData.kept api buffer) := by
  have same := Moves.same correlator (ProcessData.kept api buffer)
  simp only [step] at taken
  split at taken
  · cases taken
    exact same
  · rename_i incoming stored
    cases taken
    refine { same with receiving := ?_ }
    intro arrival within
    rcases List.mem_append.mp within with old | new
    · exact Or.inl old
    · obtain rfl := List.mem_singleton.mp new
      exact Or.inr stored.symm

end Correlator

/-- The peer has run the method that the request names, on the parameters of the call. -/
def Handled.Ran (peer : Nat → Peer api) (typed : api.Params → api.Types → Prop)
    (handled : Handled api) (result : Except Raised (Option api.Params)) : Prop :=
  ∃ message stub, handled.request.call.Arrives typed handled.request.buffer message ∧
    (peer handled.moment).receiver.stubs.lookup handled.request.call.instanceId =
      some (some stub) ∧
    (peer handled.moment).ended stub message = result

namespace Exchange

variable (peer : Nat → Peer api) (typed : api.Params → api.Types → Prop)

/-- What was returned is how the one execution of the call ended. -/
def Executed (exchange : Exchange api) (item : Returned api) : Prop :=
  ∃ handled ∈ exchange.handled, ∃ types result,
    handled.request.call = item.call ∧ (item.call, types) ∈ exchange.posted ∧
      handled.Ran peer typed result ∧ Proxy.Ends typed item.call types result item.outcome

/-- Every posted request is on its way or was handled once, every call returns at most once,
and what it returns is what its execution at the peer gave. -/
structure Honest (exchange : Exchange api) : Prop where
  conserved : (exchange.posted.map Prod.fst).Perm
    (exchange.requests.map Posted.call ++ exchange.handled.map fun item => item.request.call)
  distinct : (exchange.posted.map fun item => item.1.uuid).Nodup
  correlated : exchange.client.Correlated
  executed : ∀ item ∈ exchange.client.returned, exchange.Executed peer typed item

/-- The response was made for a request that the peer has handled. -/
def Origin (exchange : Exchange api) (incoming : Incoming api) : Prop :=
  ∃ handled ∈ exchange.handled, ∃ result, handled.Ran peer typed result ∧
    Tells typed incoming.message result ∧ incoming.uuid = handled.request.call.uuid ∧
    Proxy.Matches handled.request.call incoming.message

structure Invariant (exchange : Exchange api) : Prop where
  client : exchange.client.Invariant
  conserved : (exchange.posted.map Prod.fst).Perm
    (exchange.requests.map Posted.call ++ exchange.handled.map fun item => item.request.call)
  distinct : (exchange.posted.map fun item => item.1.uuid).Nodup
  known : ∀ item ∈ exchange.posted, item.1.uuid ∈ exchange.client.sent
  arrives : ∀ request ∈ exchange.requests,
    ∃ message, request.call.Arrives typed request.buffer message
  flying : ∀ sent ∈ exchange.responses, ∀ incoming,
    ProcessData.kept api sent.buffer = some incoming → exchange.Origin peer typed incoming
  receiving : ∀ arrival ∈ exchange.client.receiving, exchange.Origin peer typed arrival.incoming
  stored : ∀ item ∈ exchange.client.responses,
    item.2.incoming.uuid = item.1 ∧ exchange.Origin peer typed item.2.incoming
  waiting : ∀ sender ∈ exchange.client.waiting, (sender.call, sender.result) ∈ exchange.posted
  returned : ∀ item ∈ exchange.client.returned, exchange.Executed peer typed item

variable {peer typed}

theorem invariant_new (timeout now : Int) : Invariant peer typed (new api timeout now) where
  client := Correlator.invariant_new timeout now
  conserved := List.Perm.refl _
  distinct := List.nodup_nil
  known _ member := by cases member
  arrives _ member := by cases member
  flying _ member := by cases member
  receiving _ member := by cases member
  stored _ member := by cases member
  waiting _ member := by cases member
  returned _ member := by cases member

section

variable {exchange next : Exchange api} (invariant : exchange.Invariant peer typed)

theorem Origin.mono (handled : ∀ item ∈ exchange.handled, item ∈ next.handled)
    {incoming : Incoming api} (origin : exchange.Origin peer typed incoming) :
    next.Origin peer typed incoming := by
  obtain ⟨item, member, rest⟩ := origin
  exact ⟨item, handled item member, rest⟩

theorem Executed.mono (handled : ∀ item ∈ exchange.handled, item ∈ next.handled)
    (posted : ∀ item ∈ exchange.posted, item ∈ next.posted) {item : Returned api}
    (executed : exchange.Executed peer typed item) : next.Executed peer typed item := by
  obtain ⟨ran, member, types, result, same, asked, rest⟩ := executed
  exact ⟨ran, handled ran member, types, result, same, posted _ asked, rest⟩

include invariant

/-- The thread that waits for an id has posted the very call that was handled under it. -/
theorem call_of_uuid {sender : Sender api} {handled : Handled api}
    (waits : sender ∈ exchange.client.waiting) (member : handled ∈ exchange.handled)
    (same : sender.call.uuid = handled.request.call.uuid) :
    handled.request.call = sender.call := by
  have within : handled.request.call ∈ exchange.posted.map Prod.fst := by
    rw [invariant.conserved.mem_iff]
    exact List.mem_append_right _
      (List.mem_map_of_mem (f := fun item : Handled api => item.request.call) member)
  obtain ⟨item, posted, first⟩ := List.mem_map.mp within
  have equal := List.inj_on_of_nodup_map invariant.distinct posted
    (invariant.waiting sender waits) (by rw [first, same])
  rw [← first, equal]

/-- A step of the caller that posts nothing. -/
theorem invariant_moves {correlator : Correlator api} {incoming : Option (Incoming api)}
    (moves : Correlator.Moves exchange.client correlator incoming)
    (known : ∀ item, some item = incoming → exchange.Origin peer typed item)
    (client : correlator.Invariant) (responses : List (Sent api))
    (fewer : ∀ sent ∈ responses, sent ∈ exchange.responses) :
    Invariant peer typed { exchange with client := correlator, responses := responses } where
  client := client
  conserved := invariant.conserved
  distinct := invariant.distinct
  known item member := by
    rw [moves.sent]
    exact invariant.known item member
  arrives := invariant.arrives
  flying sent member := invariant.flying sent (fewer sent member)
  receiving arrival member := by
    rcases moves.receiving arrival member with old | new
    · exact invariant.receiving arrival old
    · exact known _ new
  stored item member := by
    rcases moves.responses item member with old | ⟨arrival, within, rfl⟩
    · exact invariant.stored item old
    · exact ⟨rfl, invariant.receiving arrival within⟩
  waiting sender member := invariant.waiting sender (moves.waiting sender member)
  returned item member := by
    rcases moves.returned item member with old | ⟨sender, waits, arrival, within, rfl⟩
    · exact invariant.returned item old
    · obtain ⟨named, handled, done, result, ran, tells, uuid, matched⟩ :=
        invariant.stored _ within
      have same := call_of_uuid invariant waits done (named.symm.trans uuid)
      rw [same] at matched
      exact ⟨handled, done, sender.result, result, same, invariant.waiting sender waits, ran,
        Proxy.ends_of_tells matched tells⟩

/-- A call whose id is new is posted. -/
theorem invariant_post {call : Outgoing api} {result : Option api.Types}
    {buffer : List api.Symbol} {message : api.Deserializer}
    (fresh : call.uuid ∉ exchange.client.sent) (arrives : call.Arrives typed buffer message) :
    Invariant peer typed (exchange.post call result buffer
      { exchange.client with
        sent := exchange.client.sent ++ [call.uuid]
        waiting := exchange.client.waiting ++ [⟨call, result, exchange.client.now⟩] }) where
  client := Correlator.invariant_send invariant.client fresh result
  conserved := by
    simp only [post, List.map_append, List.map_cons, List.map_nil]
    have moved := invariant.conserved.append_right [call]
    refine moved.trans ?_
    rw [List.append_assoc, List.append_assoc]
    exact List.Perm.append_left _ List.perm_append_comm
  distinct := by
    simp only [post, List.map_append, List.map_cons, List.map_nil]
    refine List.nodup_append.mpr ⟨invariant.distinct, List.nodup_singleton _, ?_⟩
    intro uuid old other new same
    obtain ⟨item, member, first⟩ := List.mem_map.mp old
    apply fresh
    rw [← List.mem_singleton.mp new, ← same, ← first]
    exact invariant.known item member
  known item member := by
    rcases List.mem_append.mp member with old | new
    · exact List.mem_append_left _ (invariant.known item old)
    · rw [List.mem_singleton.mp new]
      exact List.mem_append_right _ (List.mem_singleton.mpr rfl)
  arrives request member := by
    rcases List.mem_append.mp member with old | new
    · exact invariant.arrives request old
    · rw [List.mem_singleton.mp new]
      exact ⟨message, arrives⟩
  flying := invariant.flying
  receiving := invariant.receiving
  stored := invariant.stored
  waiting sender member := by
    rcases List.mem_append.mp member with old | new
    · exact List.mem_append_left _ (invariant.waiting sender old)
    · rw [List.mem_singleton.mp new]
      exact List.mem_append_right _ (List.mem_singleton.mpr rfl)
  returned item member := by
    refine Executed.mono ?_ ?_ (invariant.returned item member)
    · exact fun _ within => within
    · exact fun _ within => List.mem_append_left _ within

/-- A request leaves the wire, and what the worker posts has its origin in it. -/
theorem invariant_handle {index moment : Nat} {request : Posted api}
    (there : exchange.requests[index]? = some request)
    (serves : (peer moment).Serves typed request.buffer) :
    Invariant peer typed { exchange with
      requests := exchange.requests.eraseIdx index
      responses := exchange.responses ++ ((peer moment).process request.buffer).posts
      handled := exchange.handled ++ [⟨request, moment⟩] } := by
  have grown : ∀ item ∈ exchange.handled,
      item ∈ exchange.handled ++ [(⟨request, moment⟩ : Handled api)] :=
    fun item member => List.mem_append_left _ member
  obtain ⟨bound, value⟩ := List.getElem?_eq_some_iff.mp there
  have member : request ∈ exchange.requests := value ▸ List.getElem_mem bound
  refine ⟨invariant.client, ?_, invariant.distinct, invariant.known, ?_, ?_, ?_, ?_,
    invariant.waiting, ?_⟩
  · refine invariant.conserved.trans ?_
    have taken : (request :: exchange.requests.eraseIdx index).Perm exchange.requests := by
      rw [← value]
      exact List.getElem_cons_eraseIdx_perm bound
    have calls := (taken.map Posted.call).symm.append_right
      (exchange.handled.map fun item => item.request.call)
    refine calls.trans ?_
    simp only [List.map_cons, List.map_append, List.map_nil, List.cons_append]
    rw [← List.append_assoc]
    exact (List.perm_append_singleton _ _).symm
  · intro other within
    exact invariant.arrives other (List.mem_of_mem_eraseIdx within)
  · intro sent within incoming kept
    rcases List.mem_append.mp within with old | new
    · exact (invariant.flying sent old incoming kept).mono grown
    · obtain ⟨message, arrives⟩ := invariant.arrives request member
      have posts := new
      rw [Peer.process, ProcessData.processData_request arrives.request] at new
      rcases ProcessData.posts_of_answer new with asked | ⟨stub, reply, buffer, rfl, bound, rest⟩
      · cases sent with
        | request call buffer =>
            have none := serves.callbacks call buffer posts
            cases none.symm.trans kept
        | response answer buffer => cases asked
      · obtain ⟨carries, made⟩ := rest
        obtain ⟨told, stored, tells⟩ :=
          serves.answers _ stub reply buffer arrives.request bound carries made
        obtain rfl := Option.some.inj (stored.symm.trans kept)
        obtain ⟨received, type⟩ := ProcessData.received_of_kept stored
        obtain ⟨_, inst, interface, method⟩ := ProcessData.header_of_receive received
        exact ⟨⟨request, moment⟩, List.mem_append_right _ (List.mem_singleton.mpr rfl),
          _, ⟨message, stub, arrives, bound, rfl⟩, tells, rfl, ⟨type, inst, interface, method⟩⟩
  · intro arrival within
    exact (invariant.receiving arrival within).mono grown
  · intro item within
    exact ⟨(invariant.stored item within).1, (invariant.stored item within).2.mono grown⟩
  · intro item within
    refine Executed.mono ?_ ?_ (invariant.returned item within)
    · exact grown
    · exact fun _ kept => kept

end

/-- One step at either end. -/
theorem invariant_step (exchange : Exchange api) (event : Event api) (next : Exchange api)
    (invariant : exchange.Invariant peer typed)
    (guarded : exchange.Fresh event ∧ exchange.Carried peer typed event)
    (taken : step peer exchange event = some next) : next.Invariant peer typed := by
  obtain ⟨fresh, carried⟩ := guarded
  cases event with
  | call call result client =>
      simp only [step] at taken
      split at taken
      · cases taken
        exact invariant
      · rename_i buffer made
        obtain ⟨message, arrives⟩ := carried buffer made
        obtain ⟨correlator, sent, same⟩ := Option.map_eq_some_iff.mp taken
        simp only [Correlator.step] at sent
        split at sent
        · rename_i posts
          rw [if_pos posts] at same
          cases sent
          rw [← same]
          exact invariant_post invariant fresh arrives
        · rename_i posts
          rw [if_neg posts] at same
          cases sent
          rw [← same]
          have client := Correlator.invariant_sent invariant.client call.uuid
          refine { invariant with client := client, known := ?_ }
          intro item member
          exact List.mem_append_left _ (invariant.known item member)
  | handle index moment =>
      obtain ⟨request, there, same⟩ := Option.map_eq_some_iff.mp taken
      rw [← same]
      exact invariant_handle invariant there (carried request there)
  | deliver index =>
      obtain ⟨sent, there, delivered⟩ := Option.bind_eq_some_iff.mp taken
      obtain ⟨correlator, received, same⟩ := Option.map_eq_some_iff.mp delivered
      rw [← same]
      refine invariant_moves invariant (Correlator.moves_receive received) ?_ ?_ _ ?_
      · intro incoming kept
        exact invariant.flying sent (List.mem_of_getElem? there) incoming kept.symm
      · exact Correlator.invariant_step _ (.receive sent.buffer) _ invariant.client trivial received
      · exact fun _ within => List.mem_of_mem_eraseIdx within
  | inside event =>
      simp only [step] at taken
      split at taken
      · rename_i quiet
        obtain ⟨correlator, moved, same⟩ := Option.map_eq_some_iff.mp taken
        rw [← same]
        refine invariant_moves invariant (Correlator.moves_quiet quiet moved) ?_ ?_ _ ?_
        · intro incoming none
          cases none
        · refine Correlator.invariant_step _ _ _ invariant.client ?_ moved
          cases event with
          | send call result client => cases quiet
          | _ => trivial
        · exact fun _ within => within
      · cases taken

end Exchange

/-- The requests among what a worker posts are made as all requests are. -/
theorem World.send_buffer (world : World api) (trace : List (Sent api)) (asked : Outgoing api) :
    ∀ sent ∈ (world.send trace asked).1, ∃ call buffer,
      sent = .request call buffer ∧ call.buffer = .ok buffer := by
  intro sent member
  unfold World.send at member
  dsimp only at member
  split at member
  · cases member
  · rename_i buffer made
    split at member
    · obtain rfl := List.mem_singleton.mp member
      exact ⟨asked, buffer, rfl, made⟩
    · split at member
      · cases member
      · cases member

theorem ProcessData.callbacks_of_answer {receiver : Receiver api} {world : World api}
    {incoming : Incoming api} {call : Outgoing api} {buffer : List api.Symbol}
    (member : .request call buffer ∈ (answer receiver world incoming).1) :
    call.buffer = .ok buffer := by
  unfold answer at member
  split at member
  · cases member
  · split at member
    · rename_i stub bound
      rw [stub.run_call] at member
      obtain ⟨calls, trace, requests⟩ :=
        Activity.run_trace world.send world.send_buffer (stub.tried incoming.message) []
      rw [List.nil_append] at trace
      have among : .request call buffer ∈ calls := by
        rw [trace] at member
        split at member
        · rename_i heard raised same
          obtain ⟨rfl, -⟩ := Prod.mk.inj same
          exact member
        · rename_i heard reply same
          obtain ⟨rfl, -⟩ := Prod.mk.inj same
          unfold publish at member
          split at member
          · exact member
          · split at member
            · rcases List.mem_append.mp member with early | last
              · exact early
              · cases List.mem_singleton.mp last
            · split at member
              · exact member
              · exact member
      obtain ⟨other, bytes, same, made⟩ := requests _ among
      cases same
      exact made
    · cases member

theorem callbacks_of_processData {receiver : Receiver api} {world : World api}
    {buffer bytes : List api.Symbol} {call : Outgoing api}
    (member : .request call bytes ∈ (processData receiver world buffer).posts) :
    call.buffer = .ok bytes := by
  unfold processData at member
  split at member
  · cases member
  · split at member
    · cases member
    · cases member
    · exact ProcessData.callbacks_of_answer member

/- The binary and the text archive carry everything, when the compiler evaluates arguments
from the last to the first. -/
section

open Mif.Remote.Serialization Mif.Remote.Serialization.Boost

variable {Other : Type} {Val : Other → Type} {archive : Archive Val} {predefined : Predefined}

/-- The types of the parameters. -/
def boostTyped (params : List (Param Val)) (types : List (Ty Other)) : Prop :=
  params.map Sigma.fst = types

theorem boost_getParams (sequential : archive.Sequential predefined) (unnamed : predefined ≠ .xml)
    {n : Nat} (serializer : Serializer Val n) (params : List (Param Val))
    (same : List.ofFn serializer.params = params) :
    ∃ message, Deserializer.new archive (serializer.getBuffer archive (.rightToLeft n)) =
        .ok message ∧
      message.uuid = serializer.uuid ∧ message.type = serializer.type ∧
      message.inst = serializer.instanceId ∧ message.interface = serializer.interfaceId ∧
      message.method = serializer.methodId ∧
      message.exception = serializer.exception.map Exception.message ∧
      ∀ types, boostTyped params types → message.getParams types = .ok params := by
  have trips := roundTrips_rightToLeft (n := n) sequential unnamed serializer
  have made := new_getBuffer sequential (.rightToLeft n) serializer
  refine ⟨_, made, rfl, rfl, rfl, rfl, rfl, rfl, ?_⟩
  intro types fits
  rw [made] at trips
  have listed : (List.ofFn fun index => (serializer.params index).1) = types := by
    rw [← fits, ← same, List.map_ofFn]
    rfl
  rw [listed, same] at trips
  exact trips

/-- The serializer over such an archive. -/
abbrev rightToLeftFormat (archive : Archive Val) : TSerializer :=
  Boost.format archive EvalOrder.rightToLeft

theorem boost_arrives (sequential : archive.Sequential predefined) (unnamed : predefined ≠ .xml)
    (call : Outgoing (rightToLeftFormat archive))
    (named : call.uuid ≠ "" ∧ call.instanceId ≠ "" ∧ call.interfaceId ≠ "" ∧ call.method ≠ "")
    {buffer : List archive.Symbol} (made : call.buffer = .ok buffer) :
    ∃ message, call.Arrives boostTyped buffer message := by
  obtain ⟨message, read, uuid, type, inst, interface, method, _, params⟩ :=
    boost_getParams sequential unnamed (Serializer.new true call.uuid call.instanceId
      call.interfaceId call.method (List.get call.params)) call.params (List.ofFn_get _)
  cases made
  refine ⟨message, ⟨?_, read, ?_, ?_, ?_, ?_, ?_, named⟩, params⟩
  · exact List.append_ne_nil_of_left_ne_nil sequential.nonempty _
  · exact congrArg Except.ok uuid
  · exact congrArg Except.ok inst
  · exact congrArg Except.ok interface
  · exact congrArg Except.ok method
  · change (Except.ok message.type).map (fun name => decide (name = Tag.response)) = _
    rw [type]
    rfl

/-- A message with the header of a response is kept as one. -/
theorem boost_kept {incoming : Incoming (rightToLeftFormat archive)}
    (named : incoming.uuid ≠ "" ∧ incoming.instanceId ≠ "" ∧ incoming.interfaceId ≠ "" ∧
      incoming.method ≠ "")
    {buffer : List archive.Symbol} {message : Deserializer archive} (filled : buffer ≠ [])
    (read : Deserializer.new archive buffer = .ok message) (uuid : message.uuid = incoming.uuid)
    (type : message.type = Tag.response) (inst : message.inst = incoming.instanceId)
    (interface : message.interface = incoming.interfaceId)
    (method : message.method = incoming.method) :
    ProcessData.kept (rightToLeftFormat archive) buffer = some
      ⟨message, incoming.uuid, incoming.instanceId, incoming.interfaceId, incoming.method⟩ := by
  have typed : (rightToLeftFormat archive).isResponse message = .ok true := by
    change (Except.ok message.type).map (fun name => decide (name = Tag.response)) = _
    rw [type]
    rfl
  apply ProcessData.kept_of_header named filled read _ _ _ _ typed
  · exact congrArg Except.ok uuid
  · exact congrArg Except.ok inst
  · exact congrArg Except.ok interface
  · exact congrArg Except.ok method

theorem boost_answers (sequential : archive.Sequential predefined) (unnamed : predefined ≠ .xml)
    {incoming : Incoming (rightToLeftFormat archive)}
    (named : incoming.uuid ≠ "" ∧ incoming.instanceId ≠ "" ∧ incoming.interfaceId ≠ "" ∧
      incoming.method ≠ "")
    {result : Except Raised (Option (rightToLeftFormat archive).Params)}
    {reply : (rightToLeftFormat archive).Serializer} {buffer : List archive.Symbol}
    (carries : Carries (ProcessData.response incoming) result reply)
    (made : (rightToLeftFormat archive).getBuffer reply = .ok buffer) :
    Answers boostTyped incoming result buffer := by
  cases made
  obtain ⟨message, read, uuid, type, inst, interface, method, exception, params⟩ :=
    boost_getParams sequential unnamed reply.2 _ rfl
  have filled : reply.2.getBuffer archive (.rightToLeft reply.1) ≠ [] :=
    List.append_ne_nil_of_left_ne_nil sequential.nonempty _
  cases carries with
  | void =>
      refine ⟨message, boost_kept named filled read uuid type inst interface method, .void ?_⟩
      exact congrArg (Option.map Fault.exception) exception
  | result put packed same =>
      cases same
      refine ⟨message, boost_kept named filled read uuid type inst interface method, ?_⟩
      refine .result put (congrArg (Option.map Fault.exception) exception) ?_
      intro types fits
      have values : List.ofFn (List.get put) = put := List.ofFn_get put
      have loaded := params types
      change boostTyped (List.ofFn (List.get put)) types →
        message.getParams types = .ok (List.ofFn (List.get put)) at loaded
      rw [values] at loaded
      exact loaded fits
  | exception thrown =>
      refine ⟨message, boost_kept named filled read uuid type inst interface method, ?_⟩
      exact .exception thrown (congrArg (Option.map Fault.exception) exception)
  | unpacked params left what failed => cases failed

end

namespace Exchange

/-- What a step asks of an archive that carries everything: no name is empty. -/
def Named {api : TSerializer} : Event api → Prop
  | .call call _ _ =>
      call.uuid ≠ "" ∧ call.instanceId ≠ "" ∧ call.interfaceId ≠ "" ∧ call.method ≠ ""
  | _ => True

instance {api : TSerializer} : (event : Event api) → Decidable (Named event)
  | .call call _ _ => inferInstanceAs (Decidable
      (call.uuid ≠ "" ∧ call.instanceId ≠ "" ∧ call.interfaceId ≠ "" ∧ call.method ≠ ""))
  | .handle _ _ => isTrue trivial
  | .deliver _ => isTrue trivial
  | .inside _ => isTrue trivial

open Mif.Remote.Serialization Mif.Remote.Serialization.Boost in
theorem boost_carried {Other : Type} {Val : Other → Type} {archive : Archive Val}
    {predefined : Predefined} (sequential : archive.Sequential predefined)
    (unnamed : predefined ≠ .xml) (peer : Nat → Peer (rightToLeftFormat archive))
    (exchange : Exchange (rightToLeftFormat archive))
    (event : Event (rightToLeftFormat archive)) (named : Named event) :
    exchange.Carried peer boostTyped event := by
  cases event with
  | call call result client =>
      intro buffer made
      exact boost_arrives sequential unnamed call named made
  | handle index moment =>
      intro request there
      constructor
      · intro call buffer member
        cases kept : ProcessData.kept (rightToLeftFormat archive) buffer with
        | none => rfl
        | some incoming =>
            obtain ⟨received, response⟩ := ProcessData.received_of_kept kept
            have read := (ProcessData.header_of_receive received).1
            cases callbacks_of_processData member
            obtain ⟨message, made, _, type, _⟩ := boost_getParams sequential unnamed
              (Serializer.new true call.uuid call.instanceId call.interfaceId call.method
                (List.get call.params)) _ rfl
            have same : message = incoming.message := Except.ok.inj (made.symm.trans read)
            -- A callback says that it is a request.
            change (Except.ok incoming.message.type).map
              (fun name => decide (name = Tag.response)) = .ok true at response
            rw [← same, type] at response
            cases response
      · intro incoming stub reply buffer request bound carries made
        exact boost_answers sequential unnamed request.named carries made
  | deliver index => trivial
  | inside event => trivial

variable {peer : Nat → Peer api} {typed : api.Params → api.Types → Prop}

theorem Invariant.honest {exchange : Exchange api} (invariant : exchange.Invariant peer typed) :
    exchange.Honest peer typed :=
  ⟨invariant.conserved, invariant.distinct, invariant.client.correlated, invariant.returned⟩

/-- Whatever the threads at both ends do and in whatever order they do it, every call is
executed once at most, and what it returns is what its own execution gave. -/
theorem calls_executed_once (timeout now : Int) (events : List (Event api))
    (last : Exchange api)
    (guarded : Transition.Along (step peer) (fun exchange event => exchange.Fresh event ∧
      exchange.Carried peer typed event) (new api timeout now) events)
    (reached : Transition.run (step peer) (new api timeout now) events = some last) :
    last.Honest peer typed := by
  have invariant := Transition.run_invariant invariant_step (invariant_new timeout now)
    guarded reached
  exact invariant.honest

/-- A method with a text as its parameter and as its result. -/
def greetMethod : Method sampleFormat where
  name := "Greet"
  types := [.string]
  Args := sampleFormat.Params
  Result := sampleFormat.Params
  cast := pure ()
  prepareParams params := pure params
  invoke params := pure params
  packResult params := pure (some params)

/-- At any moment the peer has one instance, and its channel is open. -/
def greetPeer (_ : Nat) : Peer sampleFormat :=
  ⟨⟨[("a", some ⟨["IHello", "IService"], [sampleMethod, greetMethod]⟩)], []⟩, sampleWorld⟩

def greetCall (uuid method : String) (params : sampleFormat.Params) : Outgoing sampleFormat :=
  ⟨uuid, "a", "IHello", method, params⟩

/-- Two calls that are handled in the other order; one returns a text, the other throws. -/
def greetEvents : List (Event sampleFormat) :=
  [.call (greetCall "u" "Greet" [⟨.string, "hi"⟩]) (some [.string]) Net.Client.new,
    .call (greetCall "v" "Hello" []) none Net.Client.new, .handle 1 0, .handle 0 1, .deliver 0,
    .deliver 0, .inside (.store 1), .inside (.store 0), .inside (.wake "u" false),
    .inside (.wake "v" false)]

theorem two_calls_executed_once :
    ∃ last, Transition.run (step greetPeer) (new sampleFormat 10 0) greetEvents = some last ∧
      last.Honest greetPeer boostTyped ∧
      last.client.returned.map Returned.outcome =
        [.ok (some [⟨.string, "hi"⟩]), throwing (Proxy.failure (greetCall "v" "Hello" [])
          "Unknown exception.")] := by
  have named : Transition.Along (step greetPeer)
      (fun exchange event => exchange.Fresh event ∧ Named event) (new sampleFormat 10 0)
      greetEvents := by
    decide
  have guarded : Transition.Along (step greetPeer) (fun exchange event =>
      exchange.Fresh event ∧ exchange.Carried greetPeer boostTyped event)
      (new sampleFormat 10 0) greetEvents := by
    refine Transition.along_mono ?_ named
    intro exchange event met
    exact ⟨met.1, boost_carried (Serialization.Boost.itemArchive_sequential
      (Empty.elim : Empty → Type) .binary) (by decide) greetPeer exchange event met.2⟩
  exact ⟨_, rfl, calls_executed_once 10 0 greetEvents _ guarded rfl, rfl⟩

end Exchange

end Mif.Remote
