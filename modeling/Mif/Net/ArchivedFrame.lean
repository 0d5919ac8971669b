import Mathlib.Data.List.InsertIdx
import Mathlib.Data.List.Perm.Basic
import Mif.Lib.Transition
import Mif.Net.FrameConservation

set_option autoImplicit false

/- The protocols `SimpleFrame` and `ArchivedFrame`: chains that pack and frame the
payloads of one side, and a chain that cuts the stream of the other side into frames,
hands each to a worker and unpacks it there. A session between them is a state of its
own, and posting, reading and working take turns in any order. -/
namespace Mif.Net

open FrameWriter (frame wire)

/-- What a client in the middle of a chain does: `ProcessData` posts one buffer or
throws. -/
structure Filter where
  client : Client
  processData : Buffer → Outcome Buffer

/-- `Holder::OnData` of the holders in turn, each one's `Publish` calling the next.
`last` is the handler behind them, and the result what came out of it. -/
def Filter.onData (last : Buffer → Outcome (List Buffer)) : List Filter → Buffer →
    Outcome (List Buffer)
  | [], buffer => last buffer
  | filter :: next, buffer =>
      match filter.client.onData buffer with
      | .ignored => .ok []
      | .refused what => throwing what
      | .processed => do
          let result ← filter.processData buffer
          if filter.client.post then onData last next result else .ok []

/-- A compressor and its decompressor, as the filters of the iostreams library behind
`GZipCompressor` and `GZipDecompressor`. -/
structure Codec where
  compress : Buffer → Outcome Buffer
  decompress : Buffer → Outcome Buffer

/-- What is documented for such a pair: data is packed into some bytes, which unpack to
the same data. -/
def Codec.Lawful (codec : Codec) : Prop :=
  ∀ buffer, buffer ≠ [] → ∃ packed,
    codec.compress buffer = .ok packed ∧ packed ≠ [] ∧ codec.decompress packed = .ok buffer

def gZipCompressor (codec : Codec) : Filter := ⟨.new, codec.compress⟩

def gZipDecompressor (codec : Codec) : Filter := ⟨.new, codec.decompress⟩

def frameWriter : Filter := ⟨.new, fun buffer => .ok (frame buffer)⟩

/-- The compressors a protocol has between its client and the frames. -/
abbrev Protocol := List Codec

namespace Protocol

/-- `Predefined::Protocol::SimpleFrame`. -/
def simpleFrame : Protocol := []

/-- `Predefined::Protocol::ArchivedFrame`. -/
def archivedFrame (gzip : Codec) : Protocol := [gzip]

variable (protocol : Protocol)

/-- The filters behind `TClient` in the list of the chain, which its `Post` goes through. -/
def outgoing : List Filter := protocol.map gZipCompressor ++ [frameWriter]

/-- The filters between `ParallelHandler` and `TClient`. -/
def incoming : List Filter := (protocol.map gZipDecompressor).reverse

/-- `ChainClient::OnData`: the chain posts the buffer to its session. -/
def toSession (buffer : Buffer) : Outcome (List Buffer) :=
  .ok (if Client.new.post then [buffer] else [])

/-- `TClient::OnData` up to its `ProcessData`. -/
def toClient (buffer : Buffer) : Outcome (List Buffer) :=
  match Client.new.onData buffer with
  | .ignored => .ok []
  | .refused what => throwing what
  | .processed => .ok [buffer]

/-- The bytes a payload is packed into, before they are framed. -/
def pack : Protocol → Buffer → Outcome Buffer
  | [], payload => .ok payload
  | codec :: next, payload => do
      let packed ← codec.compress payload
      pack next packed

/-- The packed bytes where packing succeeds. -/
def packed (payload : Buffer) : Buffer := ((protocol.pack payload).toOption).getD []

end Protocol

/-- Both ends of a connection in one direction: the payloads that were posted so far, the
bytes the socket has not delivered, the reader, the tasks of the thread pool, the
payloads `TClient::ProcessData` got and the exceptions thrown on the receiving side. The
session in between writes one buffer after the other. -/
structure Pipe where
  posted : List Buffer
  wire : Buffer
  reader : FrameReader
  tasks : List Buffer
  delivered : List Buffer
  faults : List Fault
  deriving DecidableEq, Repr

namespace Pipe

def new : Pipe := ⟨[], [], .new, [], [], []⟩

/-- What can happen next: `TClient` posts a payload, the socket delivers so many bytes, a
worker takes one of the tasks. -/
inductive Event
  | post (payload : Buffer)
  | read (count : Nat)
  | work (index : Nat)
  deriving DecidableEq, Repr

/-- What `ParallelHandler::OnData` throws into the reader's `Post`. -/
def refusal (payload : Buffer) : Option String :=
  match Client.new.onData payload with
  | .refused what => some what
  | _ => none

/-- One step. The exception of a payload that is not accepted goes to the one who posts
it. The task of a worker is `ParallelHandler::Post`, into the next holder. -/
def step (protocol : Protocol) (pipe : Pipe) : Event → Option Pipe
  | .post payload =>
      match Filter.onData Protocol.toSession protocol.outgoing payload with
      | .error _ => some pipe
      | .ok sent =>
          some { pipe with posted := pipe.posted ++ [payload], wire := pipe.wire ++ sent.flatten }
  | .read count =>
      if count = 0 ∨ pipe.wire.length < count then none
      else
        let effect := pipe.reader.onData refusal (pipe.wire.take count)
        some { pipe with
          wire := pipe.wire.drop count
          reader := effect.reader
          tasks := pipe.tasks ++ effect.posted.filter fun payload => (refusal payload).isNone
          faults := pipe.faults ++ effect.fault.toList }
  | .work index =>
      match pipe.tasks[index]? with
      | none => none
      | some task =>
          let left := pipe.tasks.eraseIdx index
          match Filter.onData Protocol.toClient protocol.incoming task with
          | .error fault => some { pipe with tasks := left, faults := pipe.faults ++ [fault] }
          | .ok got => some { pipe with tasks := left, delivered := pipe.delivered ++ got }

/-- The size of the frame of a posted payload fits its header. -/
def Sized (protocol : Protocol) (_ : Pipe) : Event → Prop
  | .post payload => (protocol.packed payload).length < 2 ^ 31
  | _ => True

instance (protocol : Protocol) (pipe : Pipe) : ∀ event, Decidable (Sized protocol pipe event)
  | .post payload =>
      inferInstanceAs (Decidable ((protocol.packed payload).length < 2 ^ 31))
  | .read _ => isTrue trivial
  | .work _ => isTrue trivial

/-- Nothing is on its way. -/
def Quiet (pipe : Pipe) : Prop := pipe.wire = [] ∧ pipe.reader.buffer = [] ∧ pipe.tasks = []

/-- The payload a chain accepts with an event. -/
def Event.accepted : Event → Option Buffer
  | .post payload => if payload = [] then none else some payload
  | _ => none

end Pipe

/-- A filter with data to work on hands its result to the next one. -/
theorem Filter.onData_cons (last : Buffer → Outcome (List Buffer)) (next : List Filter)
    (processData : Buffer → Outcome Buffer) (buffer result : Buffer) (nonempty : buffer ≠ [])
    (processed : processData buffer = .ok result) :
    Filter.onData last (⟨.new, processData⟩ :: next) buffer = Filter.onData last next result := by
  have admitted := Client.new_onData buffer nonempty
  rw [Filter.onData]
  simp only [admitted, processed]
  rfl

theorem Filter.onData_append (last : Buffer → Outcome (List Buffer)) (first second : List Filter)
    (buffer : Buffer) :
    Filter.onData last (first ++ second) buffer =
      Filter.onData (Filter.onData last second) first buffer := by
  induction first generalizing buffer with
  | nil => rfl
  | cons filter rest ih =>
      rw [List.cons_append, Filter.onData, Filter.onData]
      simp only [ih]

namespace Protocol

variable (protocol : Protocol)

/-- Packing goes through, and both directions of the chain follow it. The induction is on
the compressors, with the payload as the ones before have packed it. -/
theorem through (lawful : ∀ codec ∈ protocol, codec.Lawful) (payload : Buffer)
    (nonempty : payload ≠ []) :
    protocol.pack payload = .ok (protocol.packed payload) ∧ protocol.packed payload ≠ [] ∧
      (∀ last, Filter.onData last (protocol.map gZipCompressor) payload =
        last (protocol.packed payload)) ∧
      ∀ last, Filter.onData last protocol.incoming (protocol.packed payload) = last payload := by
  induction protocol generalizing payload with
  | nil => exact ⟨rfl, nonempty, fun _ => rfl, fun _ => rfl⟩
  | cons codec next ih =>
      obtain ⟨first, compressed, some, decompressed⟩ :=
        lawful codec List.mem_cons_self payload nonempty
      have rest := ih (fun other member => lawful other (List.mem_cons_of_mem _ member)) first some
      have packs : pack (codec :: next) payload = pack next first := by
        rw [pack, compressed]
        rfl
      have same : packed (codec :: next) payload = packed next first := by
        rw [packed, packs, ← packed]
      rw [same, packs]
      refine ⟨rest.1, rest.2.1, ?_, ?_⟩
      · intro last
        rw [List.map_cons, gZipCompressor,
          Filter.onData_cons last _ codec.compress payload first nonempty compressed]
        exact rest.2.2.1 last
      · intro last
        have order : incoming (codec :: next) = incoming next ++ [gZipDecompressor codec] := by
          rw [incoming, List.map_cons, List.reverse_cons, ← incoming]
        rw [order, Filter.onData_append, rest.2.2.2, gZipDecompressor,
          Filter.onData_cons last _ codec.decompress first payload some decompressed]
        rfl

/-- A payload leaves as the frame of its packed bytes. -/
theorem outgoing_posts (lawful : ∀ codec ∈ protocol, codec.Lawful) (payload : Buffer)
    (nonempty : payload ≠ []) :
    Filter.onData toSession protocol.outgoing payload = .ok [frame (protocol.packed payload)] := by
  have packs := through protocol lawful payload nonempty
  rw [outgoing, Filter.onData_append, packs.2.2.1, frameWriter,
    Filter.onData_cons _ _ _ _ (frame (protocol.packed payload)) packs.2.1 rfl]
  rfl

/-- The first filter refuses an empty payload. -/
theorem outgoing_refuses :
    ∃ fault, Filter.onData toSession protocol.outgoing [] = .error fault := by
  cases protocol with
  | nil => exact ⟨_, rfl⟩
  | cons codec next => exact ⟨_, rfl⟩

/-- The worker gives the client the payload that was packed. -/
theorem incoming_delivers (lawful : ∀ codec ∈ protocol, codec.Lawful) (payload : Buffer)
    (nonempty : payload ≠ []) :
    Filter.onData toClient protocol.incoming (protocol.packed payload) = .ok [payload] := by
  have packs := through protocol lawful payload nonempty
  rw [packs.2.2.2, toClient, Client.new_onData payload nonempty]

end Protocol

namespace FrameReader

/-- A call throws only what the publisher throws on the frame it got. -/
theorem onData_quiet (publish : Buffer → Option String) (held chunk : Buffer)
    (nonempty : chunk ≠ [])
    (defined : ∀ access, ((holding held).onData publish chunk).fault ≠ some (.undefined access))
    (silent : ∀ payload ∈ ((holding held).onData publish chunk).posted, publish payload = none) :
    ((holding held).onData publish chunk).fault = none := by
  have admitted : (holding held).client.onData chunk = .processed :=
    Client.new_onData chunk nonempty
  unfold onData at defined silent ⊢
  rw [admitted] at defined silent ⊢
  simp only at defined silent ⊢
  split
  · rfl
  · rename_i buffer access cutOut
    rw [cutOut] at defined
    exact absurd rfl (defined access)
  · rename_i buffer payload cutOut
    rw [cutOut] at silent
    have accepts := silent payload (List.mem_singleton.mpr rfl)
    simp only [accepts, ite_self, Option.map_none]

end FrameReader

namespace Pipe

open FrameReader (holding)

variable {protocol : Protocol}

/-- Where the payloads of a run are: some were given to the client or are with a worker,
the others are in the stream, in order. -/
structure Accounted (protocol : Protocol) (pipe : Pipe) (taken : Nat) (pending : List Buffer) :
    Prop where
  nonempty : ∀ payload ∈ pipe.posted, payload ≠ []
  sized : ∀ payload ∈ pipe.posted, (protocol.packed payload).length < 2 ^ 31
  within : taken ≤ pipe.posted.length
  held : pipe.reader = holding pipe.reader.buffer
  stream : pipe.reader.buffer ++ pipe.wire =
    FrameWriter.wire ((pipe.posted.drop taken).map protocol.packed)
  tasks : pipe.tasks = pending.map protocol.packed
  given : (pipe.delivered ++ pending).Perm (pipe.posted.take taken)
  silent : pipe.faults = []

theorem new_accounted : Accounted protocol new 0 [] :=
  ⟨by simp [new], by simp [new], Nat.le_refl _, rfl, rfl, rfl, List.Perm.nil, rfl⟩

theorem refusal_nonempty (payload : Buffer) (nonempty : payload ≠ []) : refusal payload = none := by
  rw [refusal, Client.new_onData payload nonempty]

/-- A payload that is posted goes to the end of the stream. -/
theorem post_accounted (lawful : ∀ codec ∈ protocol, codec.Lawful) (pipe next : Pipe)
    (taken : Nat) (pending : List Buffer) (payload : Buffer)
    (before : Accounted protocol pipe taken pending)
    (sized : (protocol.packed payload).length < 2 ^ 31)
    (stepped : step protocol pipe (.post payload) = some next) :
    Accounted protocol next taken pending ∧
      next.posted = pipe.posted ++ (Event.post payload).accepted.toList := by
  by_cases empty : payload = []
  · subst empty
    have refused := Protocol.outgoing_refuses protocol
    obtain ⟨fault, refused⟩ := refused
    rw [step, refused] at stepped
    cases stepped
    refine ⟨before, ?_⟩
    simp [Event.accepted]
  · rw [step, Protocol.outgoing_posts protocol lawful payload empty] at stepped
    cases stepped
    refine ⟨⟨?_, ?_, ?_, before.held, ?_, before.tasks, ?_, before.silent⟩, ?_⟩
    · intro other member
      rcases List.mem_append.mp member with old | last
      · exact before.nonempty other old
      · rw [List.mem_singleton.mp last]
        exact empty
    · intro other member
      rcases List.mem_append.mp member with old | last
      · exact before.sized other old
      · rw [List.mem_singleton.mp last]
        exact sized
    · have within := before.within
      simp only [List.length_append]
      omega
    · simp only [List.flatten_singleton]
      rw [← List.append_assoc, before.stream, List.drop_append_of_le_length before.within,
        List.map_append, FrameReader.wire_append]
      simp [FrameWriter.wire]
    · simp only
      rw [List.take_append_of_le_length before.within]
      exact before.given
    · simp only [Event.accepted, empty, ↓reduceIte, Option.toList_some]

/-- A chunk turns the first payload of the stream into a task, if it completes its frame. -/
theorem read_accounted (lawful : ∀ codec ∈ protocol, codec.Lawful) (pipe next : Pipe)
    (taken : Nat) (pending : List Buffer) (count : Nat)
    (before : Accounted protocol pipe taken pending)
    (stepped : step protocol pipe (.read count) = some next) :
    (∃ taken pending, Accounted protocol next taken pending) ∧ next.posted = pipe.posted := by
  unfold step at stepped
  simp only at stepped
  split at stepped
  · cases stepped
  · rename_i enabled
    have chunk : pipe.wire.take count ≠ [] := by
      apply List.ne_nil_of_length_pos
      rw [List.length_take]
      omega
    have sizes : ∀ payload ∈ (pipe.posted.drop taken).map protocol.packed,
        payload.length < 2 ^ 31 := by
      intro payload member
      obtain ⟨origin, later, rfl⟩ := List.mem_map.mp member
      exact before.sized origin (List.mem_of_mem_drop later)
    have begins : pipe.reader.buffer ++ pipe.wire.take count <+:
        FrameWriter.wire ((pipe.posted.drop taken).map protocol.packed) := by
      rw [← before.stream]
      exact (List.prefix_append_right_inj _).mpr (List.take_prefix _ _)
    have call := FrameReader.onData_accounts refusal _ pipe.reader.buffer _ sizes begins
    have accepts : ∀ payload ∈ ((holding pipe.reader.buffer).onData refusal
        (pipe.wire.take count)).posted, refusal payload = none := by
      intro payload member
      obtain ⟨origin, later, rfl⟩ := List.mem_map.mp (call.ordered.subset member)
      have nonempty := before.nonempty origin (List.mem_of_mem_drop later)
      exact refusal_nonempty _ (Protocol.through protocol lawful origin nonempty).2.1
    have quiet := FrameReader.onData_quiet refusal pipe.reader.buffer _ chunk call.defined accepts
    rw [← before.held] at call accepts quiet
    generalize pipe.reader.onData refusal (pipe.wire.take count) = effect
      at stepped call accepts quiet
    have posted := List.prefix_iff_eq_take.mp call.ordered
    have few := call.ordered.length_le
    rw [← List.map_take] at posted
    rw [List.length_map, List.length_drop] at few
    generalize effect.posted.length = cut at posted few
    obtain ⟨buffer, reader, kept⟩ := call.held
    have all : effect.posted.filter (fun payload => (refusal payload).isNone) = effect.posted := by
      apply List.filter_eq_self.mpr
      intro payload member
      rw [accepts payload member]
      rfl
    rw [all, quiet] at stepped
    cases stepped
    refine ⟨⟨taken + cut, pending ++ (pipe.posted.drop taken).take cut,
      before.nonempty, before.sized, ?_, ?_, ?_, ?_, ?_, ?_⟩, rfl⟩
    · have within := before.within
      simp only
      omega
    · simp only
      rw [reader]
      rfl
    · -- what the frame leaves of the stream is the stream of the later payloads
      have whole := before.stream
      rw [← List.take_append_drop count pipe.wire, ← List.append_assoc, ← kept,
        ← List.take_append_drop cut (pipe.posted.drop taken), List.map_append,
        FrameReader.wire_append, ← posted, List.append_assoc] at whole
      have rest := List.append_cancel_left whole
      simp only
      rw [reader, ← List.drop_drop]
      exact rest
    · simp only
      rw [before.tasks, posted, List.map_append]
    · simp only
      rw [← List.append_assoc, List.take_add]
      exact before.given.append_right _
    · simp only [before.silent, Option.toList_none, List.append_nil]

/-- A worker gives the client the payload of its task. -/
theorem work_accounted (lawful : ∀ codec ∈ protocol, codec.Lawful) (pipe next : Pipe)
    (taken : Nat) (pending : List Buffer) (index : Nat)
    (before : Accounted protocol pipe taken pending)
    (stepped : step protocol pipe (.work index) = some next) :
    (∃ pending, Accounted protocol next taken pending) ∧ next.posted = pipe.posted ∧
      ∃ payload, next.delivered = pipe.delivered ++ [payload] := by
  simp only [step, before.tasks, List.getElem?_map] at stepped
  cases found : pending[index]? with
  | none =>
      rw [found] at stepped
      cases stepped
  | some payload =>
      have known : payload ∈ pipe.posted := by
        have member := before.given.subset
          (List.mem_append_right pipe.delivered (List.mem_of_getElem? found))
        exact List.mem_of_mem_take member
      have delivered := Protocol.incoming_delivers protocol lawful payload
        (before.nonempty payload known)
      simp only [found, Option.map_some, delivered] at stepped
      cases stepped
      refine ⟨⟨pending.eraseIdx index, before.nonempty, before.sized, before.within, before.held,
        before.stream, ?_, ?_, before.silent⟩, rfl, payload, rfl⟩
      · simp only
        rw [List.eraseIdx_map]
      · have bound := (List.getElem?_eq_some_iff.mp found).1
        have same := (List.getElem?_eq_some_iff.mp found).2
        have moved : (payload :: pending.eraseIdx index).Perm pending := by
          rw [← same]
          exact List.getElem_cons_eraseIdx_perm bound
        simp only
        rw [List.append_assoc, List.singleton_append]
        exact (moved.append_left _).trans before.given

/-- One step keeps account of every payload. -/
theorem step_accounted (lawful : ∀ codec ∈ protocol, codec.Lawful) (pipe next : Pipe)
    (event : Event) (before : ∃ taken pending, Accounted protocol pipe taken pending)
    (sized : Sized protocol pipe event) (stepped : step protocol pipe event = some next) :
    (∃ taken pending, Accounted protocol next taken pending) ∧
      next.posted = pipe.posted ++ event.accepted.toList := by
  obtain ⟨taken, pending, before⟩ := before
  cases event with
  | post payload =>
      have after := post_accounted lawful pipe next taken pending payload before sized stepped
      exact ⟨⟨taken, pending, after.1⟩, after.2⟩
  | read count =>
      have after := read_accounted lawful pipe next taken pending count before stepped
      refine ⟨after.1, ?_⟩
      rw [after.2]
      simp [Event.accepted]
  | work index =>
      have after := work_accounted lawful pipe next taken pending index before stepped
      refine ⟨⟨taken, after.1⟩, ?_⟩
      rw [after.2.1]
      simp [Event.accepted]

/-- The payloads that were posted are the accepted ones of the run, in order. -/
theorem run_posted (lawful : ∀ codec ∈ protocol, codec.Lawful) (events : List Event)
    (pipe last : Pipe) (before : ∃ taken pending, Accounted protocol pipe taken pending)
    (sized : Transition.Along (step protocol) (Sized protocol) pipe events)
    (reached : Transition.run (step protocol) pipe events = some last) :
    (∃ taken pending, Accounted protocol last taken pending) ∧
      last.posted = pipe.posted ++ events.filterMap Event.accepted := by
  induction events generalizing pipe with
  | nil =>
      cases reached
      exact ⟨before, by simp⟩
  | cons event rest ih =>
      obtain ⟨next, stepped, reached⟩ :=
        (Transition.run_cons_eq_some _ pipe last event rest).mp reached
      have first := step_accounted lawful pipe next event before sized.1 stepped
      have later := ih next first.1 (sized.2 next stepped) reached
      refine ⟨later.1, ?_⟩
      rw [later.2, first.2, List.append_assoc, List.filterMap_cons]
      cases event.accepted with
      | none => rfl
      | some payload => rfl

/-- `underway` are the payloads that were posted and not yet given to the client, in some
order. -/
structure Carrying (protocol : Protocol) (pipe : Pipe) (underway : List Buffer) : Prop where
  accounted : ∃ taken pending, Accounted protocol pipe taken pending
  all : (pipe.delivered ++ underway).Perm pipe.posted

theorem new_carrying : Carrying protocol new [] :=
  ⟨⟨0, [], new_accounted⟩, List.Perm.nil⟩

theorem post_carrying (lawful : ∀ codec ∈ protocol, codec.Lawful) (pipe next : Pipe)
    (underway : List Buffer) (payload : Buffer) (before : Carrying protocol pipe underway)
    (sized : (protocol.packed payload).length < 2 ^ 31)
    (stepped : step protocol pipe (.post payload) = some next) :
    Carrying protocol next (underway ++ (Event.post payload).accepted.toList) := by
  have after := step_accounted lawful pipe next (.post payload) before.accounted sized stepped
  have kept : next.delivered = pipe.delivered := by
    simp only [step] at stepped
    split at stepped
    · cases stepped
      rfl
    · cases stepped
      rfl
  refine ⟨after.1, ?_⟩
  rw [kept, after.2, ← List.append_assoc]
  exact before.all.append_right _

theorem posts_carrying (lawful : ∀ codec ∈ protocol, codec.Lawful) (payloads : List Buffer)
    (pipe next : Pipe) (underway : List Buffer) (before : Carrying protocol pipe underway)
    (sized : ∀ payload ∈ payloads, (protocol.packed payload).length < 2 ^ 31)
    (reached : Transition.run (step protocol) pipe (payloads.map Event.post) = some next) :
    Carrying protocol next (underway ++ (payloads.map Event.post).filterMap Event.accepted) := by
  induction payloads generalizing pipe underway with
  | nil =>
      cases reached
      rw [List.map_nil, List.filterMap_nil, List.append_nil]
      exact before
  | cons payload rest ih =>
      obtain ⟨middle, stepped, reached⟩ :=
        (Transition.run_cons_eq_some _ pipe next (Event.post payload) _).mp reached
      have first := post_carrying lawful pipe middle underway payload before
        (sized payload List.mem_cons_self) stepped
      have later := ih middle _ first
        (fun other member => sized other (List.mem_cons_of_mem _ member)) reached
      rw [List.append_assoc] at later
      rw [List.map_cons, List.filterMap_cons]
      cases accepted : (Event.post payload).accepted with
      | none =>
          rw [accepted] at later
          exact later
      | some other =>
          rw [accepted] at later
          exact later

theorem read_carrying (lawful : ∀ codec ∈ protocol, codec.Lawful) (pipe next : Pipe)
    (underway : List Buffer) (count : Nat) (before : Carrying protocol pipe underway)
    (stepped : step protocol pipe (.read count) = some next) :
    Carrying protocol next underway := by
  have after := step_accounted lawful pipe next (.read count) before.accounted trivial stepped
  have kept : next.delivered = pipe.delivered := by
    simp only [step] at stepped
    split at stepped
    · cases stepped
    · cases stepped
      rfl
  have unposted : next.posted = pipe.posted := after.2.trans (List.append_nil _)
  refine ⟨after.1, ?_⟩
  rw [kept, unposted]
  exact before.all

/-- A worker gives the client one of the payloads that are under way. -/
theorem work_carrying (lawful : ∀ codec ∈ protocol, codec.Lawful) (pipe next : Pipe)
    (underway : List Buffer) (index : Nat) (before : Carrying protocol pipe underway)
    (stepped : step protocol pipe (.work index) = some next) :
    ∃ payload, next.delivered = pipe.delivered ++ [payload] ∧ payload ∈ underway ∧
      ∀ rest, underway.Perm (payload :: rest) → Carrying protocol next rest := by
  obtain ⟨taken, pending, accounted⟩ := before.accounted
  obtain ⟨⟨left, after⟩, same, payload, given⟩ :=
    work_accounted lawful pipe next taken pending index accounted stepped
  have parts : (pipe.delivered ++ underway).Perm
      (pipe.delivered ++ payload :: (left ++ pipe.posted.drop taken)) := by
    refine before.all.trans ?_
    have taking := after.given
    rw [given, same] at taking
    have whole := taking.symm.append_right (pipe.posted.drop taken)
    rw [List.take_append_drop] at whole
    simpa using whole
  have found := (List.perm_append_left_iff _).mp parts
  refine ⟨payload, given, found.mem_iff.mpr List.mem_cons_self, ?_⟩
  intro rest others
  refine ⟨⟨taken, left, after⟩, ?_⟩
  rw [given, same, List.append_assoc]
  exact (others.symm.append_left _).trans before.all

/-- Nothing is under way in a pipe where nothing moves any more. -/
theorem quiet_delivered (pipe : Pipe) (taken : Nat) (pending : List Buffer)
    (accounted : Accounted protocol pipe taken pending) (quiet : pipe.Quiet) :
    pipe.delivered.Perm pipe.posted := by
  obtain ⟨wire, reader, tasks⟩ := quiet
  have none : pending = [] := by
    have mapped := accounted.tasks
    rw [tasks] at mapped
    exact List.map_eq_nil_iff.mp mapped.symm
  have stream := accounted.stream
  rw [wire, reader] at stream
  have rest : pipe.posted.drop taken = [] := by
    cases later : pipe.posted.drop taken with
    | nil => rfl
    | cons payload others =>
        rw [later, List.map_cons, FrameReader.wire_cons] at stream
        have nothing := List.append_eq_nil_iff.mp stream.symm
        exact absurd nothing.1 (FrameWriter.frame_ne_nil _)
  have all : pipe.posted.take taken = pipe.posted := by
    apply List.take_of_length_le
    exact List.drop_eq_nil_iff.mp rest
  have given := accounted.given
  rw [none, List.append_nil, all] at given
  exact given

/-- Whatever the order of posts, chunks and workers, the receiving side throws nothing, and
the payloads that were given to the client, that are with a worker and that are in the
stream are together those that were posted, each once. When nothing is on its way, all of
them were given. -/
theorem payloads_delivered_once (protocol : Protocol) (events : List Event) (pipe : Pipe)
    (lawful : ∀ codec ∈ protocol, codec.Lawful)
    (sized : Transition.Along (step protocol) (Sized protocol) new events)
    (reached : Transition.run (step protocol) new events = some pipe) :
    pipe.posted = events.filterMap Event.accepted ∧
      (∃ taken pending, Accounted protocol pipe taken pending) ∧
      (pipe.Quiet → pipe.delivered.Perm pipe.posted) := by
  have run := run_posted lawful events new pipe ⟨0, [], new_accounted⟩ sized reached
  obtain ⟨taken, pending, accounted⟩ := run.1
  exact ⟨run.2, ⟨taken, pending, accounted⟩, quiet_delivered pipe taken pending accounted⟩

/-- The gzip file of the single byte `7`. -/
def zippedSeven : Buffer :=
  [31, 139, 8, 0, 0, 0, 0, 0, 0, 255, 99, 7, 0, 46, 122, 102, 76, 1, 0, 0, 0]

/-- Packs the byte `7` as gzip does. Other data gets a mark in front. -/
def sampleGzip : Codec where
  compress buffer := .ok (if buffer = [7] then zippedSeven else 0 :: buffer)
  decompress
    | 0 :: buffer => .ok buffer
    | packed => if packed = zippedSeven then .ok [7] else throwing "gzip error"

theorem sampleGzip_lawful : sampleGzip.Lawful := by
  intro buffer _
  by_cases seven : buffer = [7]
  · subst seven
    exact ⟨zippedSeven, rfl, by decide, rfl⟩
  · refine ⟨0 :: buffer, ?_, by simp, rfl⟩
    simp only [sampleGzip, seven, ↓reduceIte]

/-- Three payloads through `ArchivedFrame` and an empty one. Their frames come in pieces,
and the last task is taken first. -/
def sampleEvents : List Event :=
  [.post [7], .post [], .post [7], .read 10, .post [1, 2], .read 20, .read 20, .read 7, .work 2,
    .work 0, .work 0]

theorem archived_payloads_delivered_once : ∃ pipe,
    Transition.run (step (Protocol.archivedFrame sampleGzip)) new sampleEvents = some pipe ∧
      pipe.posted = [[7], [7], [1, 2]] ∧ pipe.delivered.Perm pipe.posted := by
  have lawful : ∀ codec ∈ Protocol.archivedFrame sampleGzip, codec.Lawful := by
    intro codec member
    rw [List.mem_singleton.mp member]
    exact sampleGzip_lawful
  refine ⟨⟨[[7], [7], [1, 2]], [], .new, [], [[1, 2], [7], [7]], []⟩, by decide, rfl, ?_⟩
  have once := payloads_delivered_once (Protocol.archivedFrame sampleGzip) sampleEvents
    ⟨[[7], [7], [1, 2]], [], .new, [], [[1, 2], [7], [7]], []⟩ lawful (by decide) (by decide)
  exact once.2.2 ⟨rfl, rfl, rfl⟩

end Pipe

end Mif.Net
