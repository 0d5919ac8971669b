import Mathlib.Data.List.Basic
import Mathlib.Data.List.Perm.Basic
import Mif.Lib.Transition
import Mif.Common.Fault
import Mif.Net.Client
import Mif.Net.Frame
import Mif.Net.ArchivedFrame
import Mif.Remote.Serialization.Format
import Mif.Remote.ProcessData
import Mif.Remote.Responses
import Mif.Remote.Exchange
import Mif.Remote.JsonExchange

set_option autoImplicit false

/- Remote calls over a connection: the two `PSClient` at the ends of the chains of a
protocol. The buffers are packed, framed, cut into chunks by the sockets and put together
again, and this comes down to the exchange of calls. Both sessions write one buffer after
the other, as they do when no write overlaps another. -/
namespace Mif.Remote

open Mif.Net (Buffer Pipe Protocol)

variable {api : TSerializer}

/-- What can happen next at one of the ends, or on the way between them. -/
inductive Conversation.Event (api : TSerializer)
  | call (call : Outgoing api) (result : Option api.Types) (client : Net.Client)
  /-- The socket of the peer gives its reader so many bytes. -/
  | readRequests (count : Nat)
  /-- A worker of the peer takes a task, and what it unpacks is served. -/
  | handle (index moment : Nat)
  | readResponses (count : Nat)
  /-- A worker of the caller takes a task. -/
  | deliver (index : Nat)
  | inside (event : Correlator.Event api)

/-- Both ends of a connection. `posted` and `handled` remember what the program forgets. -/
structure Conversation (api : TSerializer) where
  client : Correlator api
  out : Pipe
  back : Pipe
  posted : List (Outgoing api × Option api.Types)
  handled : List (List api.Symbol × Nat)

namespace Conversation

def new (api : TSerializer) (timeout now : Int) : Conversation api :=
  ⟨.new api timeout now, .new, .new, [], []⟩

/- The serializer writes bytes, for a given protocol between the ends, and the peer is as
`peer` says at each moment. -/
section

variable (bytes : api.Symbol = UInt8) (protocol : Protocol) (peer : Nat → Peer api)

def toBytes (buffer : List api.Symbol) : Buffer := buffer.map (cast bytes)

def ofBytes (payload : Buffer) : List api.Symbol := payload.map (cast bytes.symm)

/-- The buffers that `TClient::ProcessData` has been given by a step of a pipe. -/
def arrived (before after : Pipe) : List (List api.Symbol) :=
  (after.delivered.drop before.delivered.length).map (ofBytes bytes)

/-- What the peer posts for the buffers that have arrived. -/
def posts (moment : Nat) (buffers : List (List api.Symbol)) : List Buffer :=
  buffers.flatMap fun buffer =>
    ((peer moment).process buffer).posts.map fun sent => toBytes bytes sent.buffer

def step (conversation : Conversation api) : Event api → Option (Conversation api)
  | .call call result client =>
      match call.buffer with
      -- the serializer throws before `Send` is entered
      | .error _ => some conversation
      | .ok buffer =>
          (conversation.client.step (.send call result client)).bind fun correlator =>
            if client.post then
              (Pipe.step protocol conversation.out (.post (toBytes bytes buffer))).map fun out =>
                { conversation with
                  client := correlator
                  out := out
                  posted := conversation.posted ++ [(call, result)] }
            else some { conversation with client := correlator }
  | .readRequests count =>
      (Pipe.step protocol conversation.out (.read count)).map fun out =>
        { conversation with out := out }
  | .handle index moment =>
      (Pipe.step protocol conversation.out (.work index)).bind fun out =>
        let buffers := arrived bytes conversation.out out
        (Transition.run (Pipe.step protocol) conversation.back
            ((posts bytes peer moment buffers).map .post)).map fun back =>
          { conversation with
            out := out
            back := back
            handled := conversation.handled ++ buffers.map fun buffer => (buffer, moment) }
  | .readResponses count =>
      (Pipe.step protocol conversation.back (.read count)).map fun back =>
        { conversation with back := back }
  | .deliver index =>
      (Pipe.step protocol conversation.back (.work index)).bind fun back =>
        (Transition.run Correlator.step conversation.client
            ((arrived bytes conversation.back back).map .receive)).map fun correlator =>
          { conversation with client := correlator, back := back }
  | .inside event =>
      if Exchange.Event.quiet event then
        (conversation.client.step event).map fun correlator =>
          { conversation with client := correlator }
      else none

/-- Request ids are used once. -/
def Fresh (conversation : Conversation api) : Event api → Prop
  | .call call _ _ => call.uuid ∉ conversation.client.sent
  | _ => True

/-- The size of the frame of a buffer fits its header. -/
def Framed (payload : Buffer) : Prop := (protocol.packed payload).length < 2 ^ 31

variable (typed : api.Params → api.Types → Prop)

/-- The serializer carries what is sent in a step, and the frames hold it. -/
def Carried (conversation : Conversation api) : Event api → Prop
  | .call call _ _ => ∀ buffer, call.buffer = .ok buffer →
      (∃ message, call.Arrives typed buffer message) ∧ Framed protocol (toBytes bytes buffer)
  | .handle index moment => ∀ out,
      Pipe.step protocol conversation.out (.work index) = some out →
      ∀ buffer ∈ arrived bytes conversation.out out, (peer moment).Serves typed buffer ∧
        ∀ payload ∈ posts bytes peer moment [buffer], Framed protocol payload
  | _ => True

/-- The payloads that a chain accepts. -/
def payloads (buffers : List (List api.Symbol)) : List Buffer :=
  (buffers.map fun buffer => Pipe.Event.post (toBytes bytes buffer)).filterMap
    Pipe.Event.accepted

/-- The conversation as an exchange of calls: what is under way in the pipes are the requests
and the responses between the two ends. -/
structure Reflects (conversation : Conversation api) (exchange : Exchange api) : Prop where
  client : exchange.client = conversation.client
  posted : exchange.posted = conversation.posted
  handled : (exchange.handled.map fun item => (item.request.buffer, item.moment)) =
    conversation.handled
  requests : conversation.out.Carrying protocol
    (payloads bytes (exchange.requests.map Posted.buffer))
  responses : conversation.back.Carrying protocol
    (payloads bytes (exchange.responses.map Sent.buffer))

end

section

variable {bytes : api.Symbol = UInt8}

theorem ofBytes_toBytes (buffer : List api.Symbol) : ofBytes bytes (toBytes bytes buffer) = buffer := by
  unfold ofBytes toBytes
  rw [List.map_map]
  refine (List.map_congr_left fun symbol _ => ?_).trans (List.map_id buffer)
  exact cast_cast _ _ _

theorem toBytes_ne_nil {buffer : List api.Symbol} (filled : buffer ≠ []) :
    toBytes bytes buffer ≠ [] := by
  unfold toBytes
  rw [ne_eq, List.map_eq_nil_iff]
  exact filled

theorem payloads_append (first second : List (List api.Symbol)) :
    payloads bytes (first ++ second) = payloads bytes first ++ payloads bytes second := by
  unfold payloads
  rw [List.map_append, List.filterMap_append]

theorem payloads_singleton (buffer : List api.Symbol) :
    payloads bytes [buffer] = (Pipe.Event.post (toBytes bytes buffer)).accepted.toList := by
  unfold payloads
  rw [List.map_cons, List.map_nil, List.filterMap_cons, List.filterMap_nil]
  cases (Pipe.Event.post (toBytes bytes buffer)).accepted with
  | none => rfl
  | some payload => rfl

/-- A payload is one of the buffers. -/
theorem exists_of_mem_payloads {payload : Buffer} {buffers : List (List api.Symbol)}
    (member : payload ∈ payloads bytes buffers) :
    ∃ index buffer, buffers[index]? = some buffer ∧ payload = toBytes bytes buffer ∧
      (payloads bytes buffers).Perm (payload :: payloads bytes (buffers.eraseIdx index)) := by
  obtain ⟨event, among, accepted⟩ := List.mem_filterMap.mp member
  obtain ⟨buffer, within, rfl⟩ := List.mem_map.mp among
  have same : payload = toBytes bytes buffer := by
    simp only [Pipe.Event.accepted] at accepted
    split at accepted
    · cases accepted
    · exact (Option.some.inj accepted).symm
  obtain ⟨index, found⟩ := List.mem_iff_getElem?.mp within
  obtain ⟨bound, value⟩ := List.getElem?_eq_some_iff.mp found
  refine ⟨index, buffer, found, same, ?_⟩
  have moved : (buffer :: buffers.eraseIdx index).Perm buffers := by
    rw [← value]
    exact List.getElem_cons_eraseIdx_perm bound
  have mapped := (moved.map fun buffer => Pipe.Event.post (toBytes bytes buffer)).filterMap
    Pipe.Event.accepted
  rw [List.map_cons, List.filterMap_cons, accepted] at mapped
  exact mapped.symm

end

/- Every step at the ends or between them is a step of the exchange, or leaves it alone. -/
section

variable {bytes : api.Symbol = UInt8} {protocol : Protocol} {peer : Nat → Peer api}
  {typed : api.Params → api.Types → Prop} {conversation next : Conversation api}
  {exchange : Exchange api} (lawful : ∀ codec ∈ protocol, codec.Lawful)
  (reflects : Reflects bytes protocol conversation exchange)
include reflects

theorem reflected_inside {event : Correlator.Event api}
    (taken : step bytes protocol peer conversation (.inside event) = some next) :
    ∃ following, Exchange.step peer exchange (.inside event) = some following ∧
      Reflects bytes protocol next following := by
  simp only [step] at taken
  split at taken
  · rename_i quiet
    obtain ⟨correlator, moved, same⟩ := Option.map_eq_some_iff.mp taken
    rw [← same]
    refine ⟨{ exchange with client := correlator }, ?_, { reflects with client := rfl }⟩
    simp only [Exchange.step, quiet, ↓reduceIte, reflects.client, moved, Option.map_some]
  · cases taken

include lawful

theorem reflected_call {call : Outgoing api} {result : Option api.Types} {client : Net.Client}
    (carried : conversation.Carried bytes protocol peer typed (.call call result client))
    (taken : step bytes protocol peer conversation (.call call result client) = some next) :
    ∃ following, Exchange.step peer exchange (.call call result client) = some following ∧
      Reflects bytes protocol next following := by
  simp only [step] at taken
  split at taken
  · rename_i fault made
    cases taken
    refine ⟨exchange, ?_, reflects⟩
    simp only [Exchange.step, made]
  · rename_i buffer made
    obtain ⟨correlator, sent, taken⟩ := Option.bind_eq_some_iff.mp taken
    split at taken
    · rename_i posts
      obtain ⟨out, posted, same⟩ := Option.map_eq_some_iff.mp taken
      rw [← same]
      refine ⟨exchange.post call result buffer correlator, ?_, ?_⟩
      · simp only [Exchange.step, made, reflects.client, sent, Option.map_some, posts, ↓reduceIte]
      · refine { reflects with client := rfl, posted := ?_, requests := ?_ }
        · simp only [Exchange.post, reflects.posted]
        · have carries := Pipe.post_carrying lawful conversation.out out _ _ reflects.requests
            (carried buffer made).2 posted
          rw [← payloads_singleton, ← payloads_append] at carries
          simp only [Exchange.post, List.map_append, List.map_cons, List.map_nil]
          exact carries
    · rename_i refused
      cases taken
      refine ⟨{ exchange with client := correlator }, ?_, { reflects with client := rfl }⟩
      simp only [Exchange.step, made, reflects.client, sent, Option.map_some, refused,
        Bool.false_eq_true, ↓reduceIte]

theorem reflected_handle {index moment : Nat}
    (carried : conversation.Carried bytes protocol peer typed (.handle index moment))
    (taken : step bytes protocol peer conversation (.handle index moment) = some next) :
    ∃ number following, Exchange.step peer exchange (.handle number moment) = some following ∧
      exchange.Carried peer typed (.handle number moment) ∧
      Reflects bytes protocol next following := by
  obtain ⟨out, worked, taken⟩ := Option.bind_eq_some_iff.mp taken
  obtain ⟨payload, given, member, rest⟩ :=
    Pipe.work_carrying lawful conversation.out out _ index reflects.requests worked
  obtain ⟨number, buffer, found, rfl, others⟩ := exists_of_mem_payloads member
  have came : arrived bytes conversation.out out = [buffer] := by
    unfold arrived
    rw [given, List.drop_left, List.map_cons, List.map_nil, ofBytes_toBytes]
  have fits := carried out worked
  rw [came] at taken fits
  obtain ⟨serves, framed⟩ := fits buffer (List.mem_singleton.mpr rfl)
  obtain ⟨back, posted, same⟩ := Option.map_eq_some_iff.mp taken
  rw [← same]
  rw [List.getElem?_map] at found
  obtain ⟨request, there, named⟩ := Option.map_eq_some_iff.mp found
  refine ⟨number, { exchange with
    requests := exchange.requests.eraseIdx number
    responses := exchange.responses ++ ((peer moment).process request.buffer).posts
    handled := exchange.handled ++ [⟨request, moment⟩] }, ?_, ?_, ?_⟩
  · simp only [Exchange.step, there, Option.map_some]
  · intro other same
    rw [Option.some.inj (same.symm.trans there), named]
    exact serves
  · refine { reflects with handled := ?_, requests := ?_, responses := ?_ }
    · simp only [List.map_append, reflects.handled, List.map_cons, List.map_nil, named]
    · simp only [← List.eraseIdx_map]
      exact rest _ others
    · have carries := Pipe.posts_carrying lawful _ conversation.back back _ reflects.responses
        framed posted
      simp only [List.map_append, payloads_append]
      simp only [posts, List.flatMap_cons, List.flatMap_nil, List.append_nil] at carries
      rw [named]
      simpa only [payloads, List.map_map, Function.comp_def] using carries

theorem reflected_deliver {index : Nat}
    (taken : step bytes protocol peer conversation (.deliver index) = some next) :
    ∃ number following, Exchange.step peer exchange (.deliver number) = some following ∧
      Reflects bytes protocol next following := by
  obtain ⟨back, worked, taken⟩ := Option.bind_eq_some_iff.mp taken
  obtain ⟨payload, given, member, rest⟩ :=
    Pipe.work_carrying lawful conversation.back back _ index reflects.responses worked
  obtain ⟨number, buffer, found, rfl, others⟩ := exists_of_mem_payloads member
  have came : arrived bytes conversation.back back = [buffer] := by
    unfold arrived
    rw [given, List.drop_left, List.map_cons, List.map_nil, ofBytes_toBytes]
  rw [came] at taken
  obtain ⟨correlator, received, same⟩ := Option.map_eq_some_iff.mp taken
  rw [List.map_cons, List.map_nil, Transition.run_cons] at received
  obtain ⟨following, stepped, last⟩ := Option.bind_eq_some_iff.mp received
  cases last
  rw [← same]
  rw [List.getElem?_map] at found
  obtain ⟨sent, there, named⟩ := Option.map_eq_some_iff.mp found
  refine ⟨number, { exchange with
    client := correlator, responses := exchange.responses.eraseIdx number }, ?_, ?_⟩
  · simp only [Exchange.step, there, Option.bind_some, reflects.client, named, stepped,
      Option.map_some]
  · refine { reflects with client := rfl, responses := ?_ }
    simp only [← List.eraseIdx_map]
    exact rest _ others

end

variable {bytes : api.Symbol = UInt8} {protocol : Protocol} {peer : Nat → Peer api}
  {typed : api.Params → api.Types → Prop}

/-- One step at the ends or between them. -/
theorem step_reflected (lawful : ∀ codec ∈ protocol, codec.Lawful)
    (conversation : Conversation api) (event : Event api) (next : Conversation api)
    (held : ∃ exchange, Reflects bytes protocol conversation exchange ∧
      exchange.Invariant peer typed)
    (guarded : conversation.Fresh event ∧ conversation.Carried bytes protocol peer typed event)
    (taken : step bytes protocol peer conversation event = some next) :
    ∃ exchange, Reflects bytes protocol next exchange ∧ exchange.Invariant peer typed := by
  obtain ⟨exchange, reflects, invariant⟩ := held
  obtain ⟨fresh, carried⟩ := guarded
  cases event with
  | call call result client =>
      obtain ⟨following, stepped, same⟩ := reflected_call lawful reflects carried taken
      refine ⟨following, same, Exchange.invariant_step _ _ _ invariant ⟨?_, ?_⟩ stepped⟩
      · change call.uuid ∉ exchange.client.sent
        rw [reflects.client]
        exact fresh
      · intro buffer made
        exact (carried buffer made).1
  | readRequests count =>
      obtain ⟨out, read, same⟩ := Option.map_eq_some_iff.mp taken
      rw [← same]
      have carries := Pipe.read_carrying lawful _ out _ count reflects.requests read
      exact ⟨exchange, { reflects with requests := carries }, invariant⟩
  | handle index moment =>
      obtain ⟨number, following, stepped, carries, same⟩ :=
        reflected_handle lawful reflects carried taken
      exact ⟨following, same, Exchange.invariant_step exchange (.handle number moment) following
        invariant ⟨trivial, carries⟩ stepped⟩
  | readResponses count =>
      obtain ⟨back, read, same⟩ := Option.map_eq_some_iff.mp taken
      rw [← same]
      have carries := Pipe.read_carrying lawful _ back _ count reflects.responses read
      exact ⟨exchange, { reflects with responses := carries }, invariant⟩
  | deliver index =>
      obtain ⟨number, following, stepped, same⟩ := reflected_deliver lawful reflects taken
      exact ⟨following, same, Exchange.invariant_step exchange (.deliver number) following
        invariant ⟨trivial, trivial⟩ stepped⟩
  | inside event =>
      obtain ⟨following, stepped, same⟩ := reflected_inside reflects taken
      exact ⟨following, same, Exchange.invariant_step exchange (.inside event) following
        invariant ⟨trivial, trivial⟩ stepped⟩

theorem new_reflects (timeout now : Int) :
    Reflects bytes protocol (new api timeout now) (Exchange.new api timeout now) where
  client := rfl
  posted := rfl
  handled := rfl
  requests := Pipe.new_carrying
  responses := Pipe.new_carrying

/-- No request is under way when nothing moves between the ends. -/
theorem requests_of_quiet {conversation : Conversation api} {exchange : Exchange api}
    (reflects : Reflects bytes protocol conversation exchange)
    (invariant : exchange.Invariant peer typed) (quiet : conversation.out.Quiet) :
    exchange.requests = [] := by
  obtain ⟨taken, pending, accounted⟩ := reflects.requests.accounted
  have delivered := Pipe.quiet_delivered _ taken pending accounted quiet
  have lengths := reflects.requests.all.length_eq.trans delivered.length_eq.symm
  rw [List.length_append] at lengths
  cases requests : exchange.requests with
  | nil => rfl
  | cons request rest =>
      obtain ⟨message, arrives⟩ := invariant.arrives request (by rw [requests]; simp)
      have filled := @toBytes_ne_nil api bytes request.buffer arrives.request.filled
      rw [requests, List.map_cons, ← List.singleton_append, payloads_append,
        payloads_singleton] at lengths
      simp only [Pipe.Event.accepted, filled, ↓reduceIte, Option.toList_some, List.length_append,
        List.length_singleton] at lengths
      omega

/-- Whatever the threads, the workers and the sockets at both ends do, and however the bytes
are cut, the conversation is an exchange of calls: every call is executed once at most, the
caller gets the result or the exception of that execution, and when no bytes are under way
every posted call was executed. -/
theorem calls_over_connection (bytes : api.Symbol = UInt8) (protocol : Protocol)
    (lawful : ∀ codec ∈ protocol, codec.Lawful) (peer : Nat → Peer api)
    (typed : api.Params → api.Types → Prop) (timeout now : Int) (events : List (Event api))
    (last : Conversation api)
    (guarded : Transition.Along (step bytes protocol peer) (fun conversation event =>
      conversation.Fresh event ∧ conversation.Carried bytes protocol peer typed event)
      (new api timeout now) events)
    (reached : Transition.run (step bytes protocol peer) (new api timeout now) events =
      some last) :
    ∃ exchange, Reflects bytes protocol last exchange ∧ exchange.Honest peer typed ∧
      (last.out.Quiet → (last.posted.map Prod.fst).Perm
        (exchange.handled.map fun item => item.request.call)) := by
  have start : ∃ exchange, Reflects bytes protocol (new api timeout now) exchange ∧
      exchange.Invariant peer typed :=
    ⟨_, new_reflects timeout now, Exchange.invariant_new timeout now⟩
  obtain ⟨exchange, reflects, invariant⟩ :=
    Transition.run_invariant (step_reflected lawful) start guarded reached
  refine ⟨exchange, reflects, invariant.honest, ?_⟩
  intro quiet
  have conserved := invariant.conserved
  rw [requests_of_quiet reflects invariant quiet, reflects.posted] at conserved
  exact conserved

open Exchange (locateFormat locateCall locatePeer locateText)

theorem locateBytes : locateFormat.Symbol = UInt8 := rfl

/-- A call whose request comes in two pieces. -/
def locateRequested : List (Event locateFormat) :=
  [.call locateCall (some ⟨1, fun _ => .struct 0⟩) Net.Client.new, .readRequests 10,
    .readRequests 77]

/-- The call is served, and its response comes in one piece. -/
def locateAnswered : List (Event locateFormat) :=
  [.handle 0 0, .readResponses 112, .deliver 0, .inside (.store 0), .inside (.wake "u" false)]

theorem located_over_connection : ∃ last exchange,
    Transition.run (step locateBytes Protocol.simpleFrame locatePeer) (new locateFormat 10 0)
      (locateRequested ++ locateAnswered) = some last ∧
    Reflects locateBytes Protocol.simpleFrame last exchange ∧ exchange.Honest locatePeer jsonTyped ∧
      last.client.returned.map (fun item => item.call.uuid) = ["u"] := by
  have guarded : Transition.Along (step locateBytes Protocol.simpleFrame locatePeer)
      (fun conversation event => conversation.Fresh event ∧
        conversation.Carried locateBytes Protocol.simpleFrame locatePeer jsonTyped event)
      (new locateFormat 10 0) (locateRequested ++ locateAnswered) := by
    apply Transition.along_append
    · refine ⟨⟨List.not_mem_nil, fun buffer made => ?_⟩, fun called _ =>
        ⟨⟨trivial, trivial⟩, fun read _ => ⟨⟨trivial, trivial⟩, fun _ _ => trivial⟩⟩⟩
      have text : locateCall.buffer = .ok locateText := rfl
      refine ⟨json_arrives Exchange.locate_sendable Exchange.locate_fits made, ?_⟩
      cases text.symm.trans made
      change locateText.length < 2 ^ 31
      decide +kernel
    · intro middle reached
      have came : (Transition.run (step locateBytes Protocol.simpleFrame locatePeer)
          (new locateFormat 10 0) locateRequested).map (fun conversation =>
            (Pipe.step Protocol.simpleFrame conversation.out (.work 0)).map fun out =>
              out.delivered.drop conversation.out.delivered.length) =
                some (some [toBytes locateBytes locateText]) := by
        decide +kernel
      rw [reached] at came
      refine ⟨⟨trivial, ?_⟩, fun handled _ => Transition.along_of_mem _ ?_ handled⟩
      · intro out worked buffer member
        rw [Option.map_some, worked, Option.map_some] at came
        have only : arrived locateBytes middle.out out = [locateText] := by
          unfold arrived
          rw [Option.some.inj (Option.some.inj came)]
          exact congrArg (fun first => [first]) (@ofBytes_toBytes locateFormat locateBytes locateText)
        change buffer ∈ arrived locateBytes middle.out out at member
        rw [only] at member
        rw [List.mem_singleton.mp member]
        refine ⟨(Exchange.locate_serves 0).serves, ?_⟩
        have small : ∀ payload ∈ posts locateBytes locatePeer 0 [locateText],
            payload.length < 2 ^ 31 := by
          decide +kernel
        exact small
      · intro event member state
        simp only [List.mem_cons, List.not_mem_nil, or_false] at member
        rcases member with rfl | rfl | rfl | rfl
        · exact ⟨trivial, trivial⟩
        · exact ⟨trivial, trivial⟩
        · exact ⟨trivial, trivial⟩
        · exact ⟨trivial, trivial⟩
  have reached : (Transition.run (step locateBytes Protocol.simpleFrame locatePeer)
      (new locateFormat 10 0) (locateRequested ++ locateAnswered)).map
        (fun last => last.client.returned.map fun item => item.call.uuid) = some ["u"] := by
    decide +kernel
  obtain ⟨last, run, same⟩ := Option.map_eq_some_iff.mp reached
  obtain ⟨exchange, reflects, honest, _⟩ := calls_over_connection locateBytes Protocol.simpleFrame
    (fun codec member => absurd member List.not_mem_nil) locatePeer jsonTyped 10 0 _ last guarded
    run
  exact ⟨last, exchange, run, reflects, honest, same⟩

end Conversation

end Mif.Remote
