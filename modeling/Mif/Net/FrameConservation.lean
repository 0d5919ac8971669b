import Mif.Net.FrameDelivery

set_option autoImplicit false

/- No byte of a well-formed stream is lost between the socket and `Post`, whatever the
publisher throws. -/
namespace Mif.Net

open FrameWriter (frame wire)

namespace FrameReader

theorem wire_cons (payload : Buffer) (rest : List Buffer) :
    wire (payload :: rest) = frame payload ++ wire rest := by
  rw [wire, List.flatMap_cons, wire]

theorem wire_append (first second : List Buffer) :
    wire (first ++ second) = wire first ++ wire second := by
  rw [wire, List.flatMap_append, wire, wire]

/-- An empty chunk is refused before the reader looks at it. -/
theorem onData_empty (publish : Buffer → Option String) (held : Buffer) :
    (holding held).onData publish [] =
      ⟨holding held, [], some (.exception "[Mif::Net::Client::OnData] No data.")⟩ := rfl

/-- What a call accounts for: the frame it hands to `Post`, if any, and the bytes it
keeps are those it had and those it got. -/
structure Accounts (pending : List Buffer) (before : Buffer) (effect : Effect) : Prop where
  held : ∃ buffer, effect.reader = holding buffer ∧ wire effect.posted ++ buffer = before
  ordered : effect.posted <+: pending
  defined : ∀ access, effect.fault ≠ some (.undefined access)

/-- One chunk of the stream of the payloads that have not been posted. -/
theorem onData_accounts (publish : Buffer → Option String) (pending : List Buffer)
    (held chunk : Buffer) (sizes : ∀ payload ∈ pending, payload.length < 2 ^ 31)
    (stream : held ++ chunk <+: wire pending) :
    Accounts pending (held ++ chunk) ((holding held).onData publish chunk) := by
  by_cases empty : chunk = []
  · subst empty
    rw [onData_empty, List.append_nil]
    exact ⟨⟨held, rfl, rfl⟩, List.nil_prefix, by simp⟩
  · cases pending with
    | nil =>
        have nothing := List.prefix_nil.mp stream
        exact absurd (List.append_eq_nil_iff.mp nothing).2 empty
    | cons payload rest =>
        rw [wire_cons] at stream
        rw [onData_within publish held chunk payload (wire rest) empty
          (sizes payload List.mem_cons_self) stream]
        by_cases whole : (frame payload).length ≤ (held ++ chunk).length
        · have front : (held ++ chunk).take (frame payload).length = frame payload := by
            have within := List.prefix_iff_eq_take.mp stream
            rw [within, List.take_take, Nat.min_eq_left whole, List.take_left]
          simp only [whole, ↓reduceIte]
          refine ⟨⟨_, rfl, ?_⟩, ?_, ?_⟩
          · have split := List.take_append_drop (frame payload).length (held ++ chunk)
            rw [front] at split
            simpa [wire] using split
          · exact List.cons_prefix_cons.mpr ⟨rfl, List.nil_prefix⟩
          · intro access
            cases publish payload <;> simp
        · simp only [whole, ↓reduceIte]
          exact ⟨⟨_, rfl, rfl⟩, List.nil_prefix, by simp⟩

/-- The payloads behind those that were posted. -/
theorem rest_of_posted {pending posted : List Buffer} (ordered : posted <+: pending) :
    pending = posted ++ pending.drop posted.length := by
  have taken := List.prefix_iff_eq_take.mp ordered
  have split := List.take_append_drop posted.length pending
  rw [← taken] at split
  exact split.symm

/-- A chunk that arrives, and what the publisher throws on a buffer by then. -/
structure Arrival where
  chunk : Buffer
  publish : Buffer → Option String

/-- The bytes of the chunks. -/
def bytesOf (arrivals : List Arrival) : Buffer := arrivals.flatMap Arrival.chunk

/-- A call and those after it. Nothing is known after an undefined access. -/
def Effect.andThen (first last : Effect) : Effect :=
  match first.fault with
  | some (.undefined _) => first
  | _ => ⟨last.reader, first.posted ++ last.posted, last.fault⟩

/-- `feed` with a publisher that may answer each call differently. -/
def feedEach : FrameReader → List Arrival → Effect
  | reader, [] => ⟨reader, [], none⟩
  | reader, arrival :: rest =>
      let first := reader.onData arrival.publish arrival.chunk
      first.andThen (feedEach first.reader rest)

/-- With one answer for all calls it is `feed`. -/
theorem feedEach_same (publish : Buffer → Option String) (reader : FrameReader)
    (chunks : List Buffer) :
    reader.feedEach (chunks.map fun chunk => ⟨chunk, publish⟩) = reader.feed publish chunks := by
  induction chunks generalizing reader with
  | nil => rfl
  | cons chunk rest ih => exact congrArg (Effect.andThen _) (ih _)

/-- A whole run of chunks accounts for every byte. The induction is on the chunks; what
is carried is that the retained bytes begin the stream of the pending payloads. -/
theorem feedEach_accounts (arrivals : List Arrival) :
    ∀ (pending : List Buffer) (held : Buffer),
    (∀ payload ∈ pending, payload.length < 2 ^ 31) →
    held ++ bytesOf arrivals <+: wire pending →
    Accounts pending (held ++ bytesOf arrivals) ((holding held).feedEach arrivals) := by
  induction arrivals with
  | nil =>
      intro pending held sizes stream
      rw [bytesOf, List.flatMap_nil, List.append_nil]
      exact ⟨⟨held, rfl, rfl⟩, List.nil_prefix, by simp [feedEach]⟩
  | cons arrival rest ih =>
      intro pending held sizes stream
      rw [bytesOf, List.flatMap_cons, ← List.append_assoc, ← bytesOf] at stream ⊢
      have first := onData_accounts arrival.publish pending held arrival.chunk sizes
        ((List.prefix_append _ _).trans stream)
      obtain ⟨buffer, reader, kept⟩ := first.held
      have split := rest_of_posted first.ordered
      generalize pending.drop _ = later at split
      have behind : buffer ++ bytesOf rest <+: wire later := by
        rw [split, ← kept, wire_append, List.append_assoc] at stream
        exact (List.prefix_append_right_inj _).mp stream
      have last := ih later buffer
        (fun payload member => sizes payload (by rw [split]; simp [member])) behind
      obtain ⟨final, lastReader, lastKept⟩ := last.held
      have joined : (holding held).feedEach (arrival :: rest) =
          ⟨((holding buffer).feedEach rest).reader,
            ((holding held).onData arrival.publish arrival.chunk).posted ++
              ((holding buffer).feedEach rest).posted,
            ((holding buffer).feedEach rest).fault⟩ := by
        rw [feedEach, reader]
        unfold Effect.andThen
        split
        · rename_i access faulted
          exact absurd faulted (first.defined access)
        · rfl
      rw [joined]
      refine ⟨⟨final, lastReader, ?_⟩, ?_, last.defined⟩
      · rw [← kept, List.append_assoc, ← lastKept, wire_append, List.append_assoc]
      · rw [split]
        exact (List.prefix_append_right_inj _).mpr last.ordered

/-- After any number of chunks, the bytes received are the frames of the payloads handed
to `Post` followed by the retained bytes, whenever `Post` throws. -/
theorem bytes_conserved (payloads : List Buffer) (arrivals : List Arrival)
    (sizes : ∀ payload ∈ payloads, payload.length < 2 ^ 31)
    (stream : bytesOf arrivals = wire payloads) (count : Nat) :
    let effect := new.feedEach (arrivals.take count)
    bytesOf (arrivals.take count) = wire effect.posted ++ effect.reader.buffer ∧
      effect.posted <+: payloads ∧ ∀ access, effect.fault ≠ some (.undefined access) := by
  have begun : bytesOf (arrivals.take count) <+: wire payloads := by
    have split := congrArg bytesOf (List.take_append_drop count arrivals)
    rw [stream, bytesOf, List.flatMap_append] at split
    exact ⟨_, split⟩
  have run := feedEach_accounts (arrivals.take count) payloads [] sizes begun
  rw [List.nil_append] at run
  obtain ⟨buffer, reader, kept⟩ := run.held
  refine ⟨?_, run.ordered, run.defined⟩
  have retained : (new.feedEach (arrivals.take count)).reader.buffer = buffer :=
    congrArg FrameReader.buffer reader
  rw [retained]
  exact kept.symm

/-- The payload `7` twice and an empty one, with a publisher that throws on the first `7`
only. -/
def sampleArrivals : List Arrival :=
  [⟨[0, 0], fun _ => none⟩, ⟨[0, 1, 7, 0, 0], fun _ => some "busy"⟩,
    ⟨[0, 1, 7, 0], fun _ => none⟩, ⟨[0, 0, 0], fun _ => none⟩]

/-- Two frames were posted, and the first byte of the third is kept. -/
theorem conserved_split_frames :
    let effect := new.feedEach (sampleArrivals.take 3)
    bytesOf (sampleArrivals.take 3) = wire effect.posted ++ effect.reader.buffer ∧
      effect.posted <+: [[7], [7], []] ∧ ∀ access, effect.fault ≠ some (.undefined access) :=
  bytes_conserved [[7], [7], []] sampleArrivals (by decide) (by decide) 3

end FrameReader

end Mif.Net
