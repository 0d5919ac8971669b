import Mif.Lib.Framing
import Mif.Net.Frame

set_option autoImplicit false

namespace Mif.Net

open FrameWriter (frame wire)

namespace FrameWriter

@[simp] theorem frame_length (payload : Buffer) :
    (frame payload).length = headerBytes + payload.length := by
  simp only [frame, List.length_append, BigEndian.bytes_length]

theorem frame_ne_nil (payload : Buffer) : frame payload ≠ [] := by
  apply List.ne_nil_of_length_pos
  rw [frame_length, headerBytes]
  omega

/-- The header spells the payload size when the size fits the header. -/
theorem frame_header (payload rest : Buffer) (fits : payload.length < 2 ^ 31) :
    FrameReader.header (frame payload ++ rest) = BitVec.ofNat 32 payload.length := by
  have spelled : BigEndian.value (BigEndian.bytes headerBytes payload.length) =
      payload.length := by
    rw [BigEndian.value_bytes, headerBytes]
    omega
  have whole : (BitVec.ofNat 32 payload.length).toNat = payload.length := by
    rw [BitVec.toNat_ofNat]
    omega
  have front : (frame payload ++ rest).take headerBytes =
      BigEndian.bytes headerBytes payload.length := by
    rw [frame, whole, List.append_assoc]
    exact List.take_left' (BigEndian.bytes_length _ _)
  rw [FrameReader.header, front, spelled]

end FrameWriter

namespace FrameReader

theorem cut_buffer (held chunk : Buffer) :
    (if held.isEmpty then chunk else held ++ chunk) = held ++ chunk := by
  cases held with
  | nil => rfl
  | cons byte rest => rfl

theorem header_take (buffer : Buffer) (count : Nat) (enough : headerBytes ≤ count) :
    header (buffer.take count) = header buffer := by
  simp only [header, List.take_take, Nat.min_eq_left enough]

/-- The comparison of the source, for a length that is not negative. -/
theorem size_sum (size : Nat) (fits : size < 2 ^ 31) :
    ((BitVec.ofNat 32 size).signExtend 64 + BitVec.ofNat 64 headerBytes).toNat =
      headerBytes + size := by
  have positive : (BitVec.ofNat 32 size).msb = false := by
    rw [BitVec.msb_eq_false_iff_two_mul_lt, BitVec.toNat_ofNat]
    omega
  rw [BitVec.signExtend_eq_setWidth_of_msb_false positive]
  simp only [BitVec.toNat_add, BitVec.toNat_setWidth, BitVec.toNat_ofNat, headerBytes]
  omega

theorem signed_size (size : Nat) (fits : size < 2 ^ 31) :
    (BitVec.ofNat 32 size).toInt = size := by
  rw [BitVec.toInt_eq_toNat_of_lt (by rw [BitVec.toNat_ofNat]; omega), BitVec.toNat_ofNat]
  omega

/-- One call with a length that is not negative: the slice behind the header, when all
of it is there. -/
theorem cut_sized (held chunk : Buffer) (size : Nat) (fits : size < 2 ^ 31)
    (enough : headerBytes ≤ (held ++ chunk).length)
    (read : header (held ++ chunk) = BitVec.ofNat 32 size) :
    cut held chunk =
      if headerBytes + size ≤ (held ++ chunk).length then
        ((held ++ chunk).drop (headerBytes + size),
          .frame (((held ++ chunk).take (headerBytes + size)).drop headerBytes))
      else (held ++ chunk, .incomplete) := by
  unfold cut
  rw [cut_buffer]
  generalize held ++ chunk = buffer at enough read ⊢
  have readable : ¬ buffer.length < headerBytes := by omega
  simp only [readable, ↓reduceIte, read, size_sum _ fits, signed_size _ fits]
  by_cases whole : headerBytes + size ≤ buffer.length
  · have present : ¬ buffer.length < headerBytes + size := by omega
    have forward : ¬ (headerBytes : Int) + size < headerBytes := by omega
    have stop : ((headerBytes : Int) + size).toNat = headerBytes + size := by omega
    simp only [present, forward, stop, whole, ↓reduceIte]
    split
    · rename_i exact
      have nothing : buffer.drop (headerBytes + size) = [] :=
        List.drop_of_length_le (by omega)
      rw [nothing]
    · rfl
  · have waiting : buffer.length < headerBytes + size := by omega
    simp only [waiting, whole, ↓reduceIte]

/-- One call on a prefix of a well-formed stream cuts the first frame when all
of it is there, and keeps every other byte. -/
theorem cut_prefix (held chunk payload rest : Buffer) (fits : payload.length < 2 ^ 31)
    (stream : held ++ chunk <+: frame payload ++ rest) :
    cut held chunk =
      if (frame payload).length ≤ (held ++ chunk).length then
        ((held ++ chunk).drop (frame payload).length, .frame payload)
      else (held ++ chunk, .incomplete) := by
  have taken := List.prefix_iff_eq_take.mp stream
  by_cases short : (held ++ chunk).length < headerBytes
  · have missing : ¬ (frame payload).length ≤ (held ++ chunk).length := by
      rw [FrameWriter.frame_length]
      omega
    unfold cut
    rw [cut_buffer]
    simp only [short, missing, ↓reduceIte]
  · have read : header (held ++ chunk) = BitVec.ofNat 32 payload.length := by
      rw [taken, header_take _ _ (by omega), FrameWriter.frame_header payload rest fits]
    rw [cut_sized held chunk payload.length fits (by omega) read, FrameWriter.frame_length]
    by_cases whole : headerBytes + payload.length ≤ (held ++ chunk).length
    · have cutOut : ((held ++ chunk).take (headerBytes + payload.length)).drop headerBytes =
          payload := by
        rw [taken, List.take_take, Nat.min_eq_left whole, ← FrameWriter.frame_length,
          List.take_left, frame]
        exact List.drop_left' (BigEndian.bytes_length _ _)
      simp only [whole, ↓reduceIte, cutOut]
    · simp only [whole, ↓reduceIte]

/-- An open reader between two calls. -/
def holding (buffer : Buffer) : FrameReader := ⟨.new, buffer⟩

theorem onData_within (publish : Buffer → Option String) (held chunk payload rest : Buffer)
    (nonempty : chunk ≠ []) (fits : payload.length < 2 ^ 31)
    (stream : held ++ chunk <+: frame payload ++ rest) :
    (holding held).onData publish chunk =
      if (frame payload).length ≤ (held ++ chunk).length then
        ⟨holding ((held ++ chunk).drop (frame payload).length), [payload],
          (publish payload).map Fault.exception⟩
      else ⟨holding (held ++ chunk), [], none⟩ := by
  have admitted : (holding held).client.onData chunk = .processed :=
    Client.new_onData chunk nonempty
  have cutOut : cut (holding held).buffer chunk = _ := cut_prefix held chunk payload rest fits stream
  unfold onData
  rw [admitted]
  dsimp only
  rw [cutOut]
  by_cases whole : (frame payload).length ≤ (held ++ chunk).length
  · simp only [whole, ↓reduceIte]
    rfl
  · simp only [whole, ↓reduceIte]
    rfl

theorem feed_append (publish : Buffer → Option String) (reader : FrameReader)
    (first second : List Buffer) (defined : (reader.feed publish first).fault = none) :
    reader.feed publish (first ++ second) =
      let middle := reader.feed publish first
      let last := middle.reader.feed publish second
      ⟨last.reader, middle.posted ++ last.posted, last.fault⟩ := by
  induction first generalizing reader with
  | nil => rfl
  | cons chunk first ih =>
      unfold feed at defined
      simp only [List.cons_append]
      rw [feed, feed]
      cases faulted : (reader.onData publish chunk).fault with
      | none =>
          simp only [faulted] at defined
          simp only [ih _ defined, List.append_assoc]
      | some fault =>
          cases fault with
          | exception what =>
              simp only [faulted] at defined
              simp only [ih _ defined, List.append_assoc]
          | undefined access =>
              simp only [faulted, reduceCtorEq] at defined

theorem feed_singleton (publish : Buffer → Option String) (reader : FrameReader) (chunk : Buffer)
    (defined : ∀ access, (reader.onData publish chunk).fault ≠ some (.undefined access)) :
    reader.feed publish [chunk] =
      ⟨(reader.onData publish chunk).reader, (reader.onData publish chunk).posted, none⟩ := by
  unfold feed
  dsimp only
  split
  · rename_i access faulted
    exact absurd faulted (defined access)
  · simp only [feed, List.append_nil]

/-- How many bytes the first `count` chunks hold. -/
def received (chunks : List Buffer) (count : Nat) : Nat := (chunks.take count).flatten.length

/-- The payloads whose frames lie entirely in the first `count` chunks. -/
def arrived (payloads chunks : List Buffer) (count : Nat) : List Buffer :=
  Framing.within frame payloads (received chunks count)

/-- The reader that has received `bytes` bytes of the stream and has cut the
first `done` frames out of them. -/
def after (payloads : List Buffer) (bytes done : Nat) : FrameReader :=
  holding (((wire payloads).take bytes).drop ((payloads.take done).flatMap frame).length)

/-- The retained bytes followed by a chunk are a prefix of the stream of the
payloads that are not cut yet. -/
theorem after_append (payloads : List Buffer) (before total done : Nat) (chunk : Buffer)
    (lower : ((payloads.take done).flatMap frame).length ≤ before)
    (inside : before ≤ (wire payloads).length)
    (next : (wire payloads).take total = (wire payloads).take before ++ chunk) :
    (after payloads before done).buffer ++ chunk =
      ((wire payloads).take total).drop ((payloads.take done).flatMap frame).length := by
  rw [next, List.drop_append_of_le_length (by rw [List.length_take]; omega)]
  rfl

theorem drop_take_prefix (payloads : List Buffer) (total done : Nat) :
    ((wire payloads).take total).drop ((payloads.take done).flatMap frame).length <+:
      wire (payloads.drop done) := by
  rw [List.drop_take, wire, Framing.drop_frames]
  exact List.take_prefix _ _

/-- One chunk posts the next frame if it has arrived, and never a second one. -/
theorem onData_after (publish : Buffer → Option String) (payloads : List Buffer)
    (before total done : Nat) (chunk : Buffer)
    (sizes : ∀ payload ∈ payloads, payload.length < 2 ^ 31) (nonempty : chunk ≠ [])
    (lower : ((payloads.take done).flatMap frame).length ≤ before)
    (inside : total ≤ (wire payloads).length) (grows : before ≤ total)
    (next : (wire payloads).take total = (wire payloads).take before ++ chunk) :
    let effect := (after payloads before done).onData publish chunk
    if done < (Framing.within frame payloads total).length then
      effect.reader = after payloads total (done + 1) ∧
        effect.posted = (payloads.drop done).take 1 ∧ ∀ access, effect.fault ≠ some (.undefined access)
    else effect.reader = after payloads total done ∧ effect.posted = [] ∧ effect.fault = none := by
  have joined := after_append payloads before total done chunk lower (by omega) next
  have stream := drop_take_prefix payloads total done
  rw [← joined] at stream
  cases pending : payloads.drop done with
  | nil =>
      -- nothing is left to send, so there is no chunk either
      rw [pending] at stream
      have empty := List.prefix_nil.mp stream
      exact absurd (List.append_eq_nil_iff.mp empty).2 nonempty
  | cons payload rest =>
      rw [pending] at stream
      have member : payload ∈ payloads := List.mem_of_mem_drop (pending ▸ List.mem_cons_self)
      have short : done < payloads.length := by
        by_contra beyond
        rw [List.drop_of_length_le (by omega)] at pending
        cases pending
      have taken : payloads.take (done + 1) = payloads.take done ++ [payload] := by
        have split := List.take_add (l := payloads) (i := done) (j := 1)
        rw [pending] at split
        exact split
      have size : ((after payloads before done).buffer ++ chunk).length =
          total - ((payloads.take done).flatMap frame).length := by
        rw [joined, List.length_drop, List.length_take, Nat.min_eq_left inside]
      have called := onData_within publish (after payloads before done).buffer chunk payload
        (wire rest) nonempty (sizes payload member) stream
      have whole : (frame payload).length ≤ ((after payloads before done).buffer ++ chunk).length ↔
          done < (Framing.within frame payloads total).length := by
        rw [size, Framing.lt_within_length_iff, taken, List.flatMap_append, List.length_append,
          List.flatMap_singleton]
        omega
      have same : holding (after payloads before done).buffer = after payloads before done := rfl
      rw [same] at called
      dsimp only
      rw [called]
      by_cases ready : done < (Framing.within frame payloads total).length
      · simp only [whole.mpr ready, ready, ↓reduceIte]
        refine ⟨?_, rfl, ?_⟩
        · rw [joined, List.drop_drop, after, taken, List.flatMap_append, List.length_append,
            List.flatMap_singleton]
        · intro access
          cases publish payload <;> simp
      · have missing := ready
        rw [← whole] at missing
        simp only [missing, ready, ↓reduceIte, and_true]
        rw [joined]
        rfl

/-- The number of frames a reader has posted when each call posts at most one. -/
def posted (arrivals : Nat → Nat) : Nat → Nat
  | 0 => 0
  | count + 1 => min (posted arrivals count + 1) (arrivals (count + 1))

theorem posted_le (arrivals : Nat → Nat) (count : Nat) : posted arrivals count ≤ arrivals count := by
  cases count with
  | zero => exact Nat.zero_le _
  | succ count => exact Nat.min_le_right _ _

/-- One frame for each call keeps up exactly when at most one arrives with each. -/
theorem posted_eq_iff (arrivals : Nat → Nat) (none : arrivals 0 = 0) (calls : Nat) :
    (∀ count ≤ calls, posted arrivals count = arrivals count) ↔
      ∀ count < calls, arrivals (count + 1) ≤ arrivals count + 1 := by
  constructor
  · intro equal count bound
    have before := equal count (by omega)
    have behind := equal (count + 1) (by omega)
    rw [← before, ← behind]
    exact Nat.min_le_left _ _
  · intro single count
    induction count with
    | zero =>
        intro _
        exact none.symm
    | succ count ih =>
        intro bound
        have before := ih (by omega)
        have step := single count (by omega)
        rw [posted, before]
        exact Nat.min_eq_right step

section Stream

variable (publish : Buffer → Option String) (payloads chunks : List Buffer)
  (sizes : ∀ payload ∈ payloads, 1 ≤ payload.length ∧ payload.length ≤ 2 ^ 31 - 1)
  (nonempty : ∀ chunk ∈ chunks, chunk ≠ []) (stream : chunks.flatten = wire payloads)

theorem received_succ (count : Nat) (bound : count < chunks.length) :
    received chunks (count + 1) = received chunks count + (chunks[count]).length := by
  simp only [received, List.take_succ_eq_append_getElem bound, List.flatten_append,
    List.length_append, List.flatten_cons, List.flatten_nil, List.append_nil]

theorem arrived_mono (count : Nat) (bound : count < chunks.length) :
    (arrived payloads chunks count).length ≤ (arrived payloads chunks (count + 1)).length := by
  apply Framing.within_length_mono
  rw [received_succ chunks count bound]
  exact Nat.le_add_right _ _

@[simp] theorem arrived_zero : arrived payloads chunks 0 = [] :=
  Framing.within_zero frame payloads fun payload _ => FrameWriter.frame_ne_nil payload

include stream in
theorem take_received (count : Nat) :
    (wire payloads).take (received chunks count) = (chunks.take count).flatten := by
  have split : chunks.flatten = (chunks.take count).flatten ++ (chunks.drop count).flatten := by
    rw [← List.flatten_append, List.take_append_drop]
  rw [← stream, split]
  exact List.take_left

include stream in
theorem received_le (count : Nat) : received chunks count ≤ (wire payloads).length := by
  have size := congrArg List.length (take_received payloads chunks stream count)
  rw [List.length_take] at size
  change min _ _ = received chunks count at size
  omega

/-- The frames posted so far are among those that arrived. -/
theorem frames_le_received (count done : Nat)
    (few : done ≤ (arrived payloads chunks count).length) :
    ((payloads.take done).flatMap frame).length ≤ received chunks count := by
  cases done with
  | zero => exact Nat.zero_le _
  | succ done =>
      exact ((Framing.lt_within_length_iff frame payloads (received chunks count) done).mp few).2

/-- How many payloads the reader has posted after the first `count` chunks. -/
def handed (count : Nat) : Nat :=
  posted (fun index => (arrived payloads chunks index).length) count

/-- The state of the reader after any number of chunks. -/
structure Progress (effect : Effect) (bytes done : Nat) : Prop where
  reader : effect.reader = after payloads bytes done
  posted : effect.posted = payloads.take done
  fault : effect.fault = none

include sizes nonempty stream in
theorem feed_progress (count : Nat) (bound : count ≤ chunks.length) :
    Progress payloads (new.feed publish (chunks.take count)) (received chunks count)
      (handed payloads chunks count) := by
  induction count with
  | zero =>
      exact ⟨by simp [feed, after, received, new, holding], by simp [feed, handed, posted], rfl⟩
  | succ count ih =>
      have within : count < chunks.length := by omega
      obtain ⟨reader, given, fault⟩ := ih (by omega)
      have few : handed payloads chunks count ≤ (arrived payloads chunks count).length :=
        posted_le _ count
      have order := arrived_mono payloads chunks count within
      have least : handed payloads chunks (count + 1) =
          min (handed payloads chunks count + 1) (arrived payloads chunks (count + 1)).length := rfl
      have grown : (wire payloads).take (received chunks (count + 1)) =
          (wire payloads).take (received chunks count) ++ chunks[count] := by
        rw [take_received payloads chunks stream, take_received payloads chunks stream,
          List.take_succ_eq_append_getElem within, List.flatten_append, List.flatten_singleton]
      have called := onData_after publish payloads (received chunks count)
        (received chunks (count + 1)) (handed payloads chunks count) chunks[count]
        (fun payload member => by have := (sizes payload member).2; omega)
        (nonempty _ (List.getElem_mem within)) (frames_le_received payloads chunks count _ few)
        (received_le payloads chunks stream _)
        (by rw [received_succ chunks count within]; exact Nat.le_add_right _ _) grown
      rw [List.take_succ_eq_append_getElem within, feed_append publish new _ _ fault]
      dsimp only at called ⊢
      rw [reader, given]
      change if _ < (arrived payloads chunks (count + 1)).length then _ else _ at called
      by_cases ready : handed payloads chunks count < (arrived payloads chunks (count + 1)).length
      · rw [if_pos ready] at called
        obtain ⟨moved, cutOut, defined⟩ := called
        rw [least, Nat.min_eq_left ready, feed_singleton publish _ _ defined]
        exact ⟨moved, by rw [cutOut]; exact List.take_add.symm, rfl⟩
      · rw [if_neg ready] at called
        obtain ⟨moved, cutOut, defined⟩ := called
        have stays : handed payloads chunks (count + 1) = handed payloads chunks count := by omega
        rw [stays, feed_singleton publish _ _ (by simp [defined])]
        exact ⟨moved, by rw [cutOut, List.append_nil], rfl⟩

/-- After each chunk the reader has posted exactly the payloads that arrived. -/
def Delivers : Prop :=
  ∀ count ≤ chunks.length,
    (new.feed publish (chunks.take count)).posted = arrived payloads chunks count

/-- No chunk brings the end of more than one frame. -/
def OneFramePerChunk : Prop :=
  ∀ count < chunks.length,
    (arrived payloads chunks (count + 1)).length ≤ (arrived payloads chunks count).length + 1

include sizes nonempty stream in
theorem delivers_iff_handed :
    Delivers publish payloads chunks ↔
      ∀ count ≤ chunks.length, handed payloads chunks count =
        (arrived payloads chunks count).length := by
  refine forall₂_congr fun count bound => ?_
  have progress := feed_progress publish payloads chunks sizes nonempty stream count bound
  have few : handed payloads chunks count ≤ (arrived payloads chunks count).length :=
    posted_le _ count
  have all : (arrived payloads chunks count).length ≤ payloads.length :=
    (Framing.within_begins frame payloads (received chunks count)).length_le
  rw [progress.posted]
  constructor
  · intro equal
    rw [← equal, List.length_take]
    omega
  · intro equal
    rw [equal]
    exact (Framing.within_eq_take frame payloads (received chunks count)).symm

include stream in
/-- At the end of the stream everything has arrived. -/
theorem Delivers.all (delivered : Delivers publish payloads chunks) :
    (new.feed publish chunks).posted = payloads := by
  have last := delivered chunks.length (Nat.le_refl _)
  rw [List.take_length] at last
  rw [last]
  apply Framing.within_all
  rw [received, List.take_length, stream]
  exact Nat.le_refl _

end Stream

/-- Completeness of the delivery, for every payload list and every cutting of
its frames into chunks. A chunk that ends two frames leaves the second one
behind until a later chunk, or for ever. -/
theorem delivers_iff_one_frame_per_chunk (publish : Buffer → Option String)
    (payloads chunks : List Buffer)
    (sizes : ∀ payload ∈ payloads, 1 ≤ payload.length ∧ payload.length ≤ 2 ^ 31 - 1)
    (nonempty : ∀ chunk ∈ chunks, chunk ≠ []) (stream : chunks.flatten = wire payloads) :
    Delivers publish payloads chunks ↔ OneFramePerChunk payloads chunks := by
  rw [delivers_iff_handed publish payloads chunks sizes nonempty stream]
  exact posted_eq_iff (fun index => (arrived payloads chunks index).length)
    (by rw [arrived_zero]; rfl) chunks.length

/-- A header cut in two, then the rest of the frame with half of the next one. -/
theorem delivers_split_frames :
    ([[0, 0], [0, 1, 7, 0, 0], [0, 1, 8]] : List Buffer).flatten = wire [[7], [8]] ∧
      Delivers (fun _ => none) [[7], [8]] [[0, 0], [0, 1, 7, 0, 0], [0, 1, 8]] := by
  refine ⟨by decide, ?_⟩
  refine (delivers_iff_one_frame_per_chunk (fun _ => none) [[7], [8]]
    [[0, 0], [0, 1, 7, 0, 0], [0, 1, 8]] (by decide) (by decide) (by decide)).mpr ?_
  unfold OneFramePerChunk
  decide

/-- Two frames in one chunk: the second payload is not posted. -/
theorem joined_frames_lose_one :
    [wire [[7], [8]]].flatten = wire [[7], [8]] ∧
      (new.feed (fun _ => none) [wire [[7], [8]]]).posted = [[7]] ∧
      ¬ Delivers (fun _ => none) [[7], [8]] [wire [[7], [8]]] := by
  refine ⟨by decide, by decide, ?_⟩
  intro delivered
  have last := delivered 1 (by decide)
  revert last
  decide

end FrameReader

end Mif.Net
