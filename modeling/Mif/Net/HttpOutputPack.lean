import Mathlib.Algebra.Ring.Nat
import Mathlib.Data.List.Basic
import Mif.Common.Fault
import Mif.Net.Client

set_option autoImplicit false

/- `Http::Detail::OutputPack`: a body that goes out in portions of the chunk size. -/
namespace Mif.Net.Http

/-- A buffer in memory, with the address that `data()` gives. -/
structure Block where
  address : Nat
  bytes : Buffer
  inside : address + bytes.length < 2 ^ 64

/-- `buffer_body::value_type`. The address of `nullptr` is 0. -/
structure Body where
  data : Nat
  size : Nat
  more : Bool
  deriving DecidableEq, Repr

/-- `OutputPack` -/
structure OutputPack where
  /-- `m_chunkSize` -/
  chunkSize : Nat
  /-- `m_serializer` is set. -/
  serializer : Bool
  /-- `m_buffer` -/
  buffer : Option Block
  /-- `m_bufferPtr`, which `SetData` may leave in a buffer that is gone. -/
  bufferPtr : Nat
  /-- `m_data.body()` -/
  body : Body

namespace OutputPack

/-- The subtraction of `std::size_t`, and of two pointers converted to it. -/
def sizeSub (left right : Nat) : Nat := (left + (2 ^ 64 - right % 2 ^ 64)) % 2 ^ 64

/-- `m_buffer->size() - (m_bufferPtr - m_buffer->data())` -/
def remaining (pack : OutputPack) (block : Block) : Nat :=
  sizeSub block.bytes.length (sizeSub pack.bufferPtr block.address)

/-- `SetData`. An empty pointer is an empty buffer. -/
def setData (pack : OutputPack) (buffer : Option Block) : OutputPack :=
  match buffer with
  | none => { pack with serializer := true, buffer := none, body := ⟨0, 0, false⟩ }
  | some block =>
      if block.bytes = [] then
        { pack with serializer := true, buffer := some block, body := ⟨0, 0, false⟩ }
      else
        { pack with
          serializer := true
          buffer := some block
          bufferPtr := block.address
          body :=
            if block.bytes.length < pack.chunkSize then ⟨block.address, block.bytes.length, false⟩
            else ⟨0, 0, true⟩ }

/-- `GetData` -/
def getData (pack : OutputPack) : OutputPack :=
  if pack.serializer then pack else pack.setData none

/-- `GetNextPortion` -/
def getNextPortion (pack : OutputPack) : Outcome OutputPack :=
  if pack.serializer = false then
    throwing ("[Mif::Net::Http::Detail::OutputPack::GetNextPortion] " ++
      "There is no any portion of the data.")
  else if pack.body.more = false then
    throwing ("[Mif::Net::Http::Detail::OutputPack::GetNextPortion] " ++
      "There is no more data.")
  else
    match pack.buffer with
    | none => undefined .nullDereference
    | some block =>
        let size := min (pack.remaining block) pack.chunkSize
        .ok { pack with
          bufferPtr := pack.bufferPtr + size
          body := ⟨pack.bufferPtr, size, pack.remaining block > pack.chunkSize⟩ }

/-- The bytes that the serializer reads through the body. -/
def exposed (pack : OutputPack) : Outcome Buffer :=
  if pack.body.size = 0 then .ok []
  else
    match pack.buffer with
    | none => undefined .nullDereference
    | some block =>
        if block.address ≤ pack.body.data ∧
            pack.body.data + pack.body.size ≤ block.address + block.bytes.length then
          .ok ((block.bytes.drop (pack.body.data - block.address)).take pack.body.size)
        else undefined .outOfBounds

/-- A number of rounds of `Session::OnWrite` for `need_buffer`, with the bodies that they
expose. -/
def nextPortions (pack : OutputPack) : Nat → Outcome (List Buffer × OutputPack)
  | 0 => .ok ([], pack)
  | calls + 1 => do
      let next ← pack.getNextPortion
      let portion ← next.exposed
      let (portions, last) ← nextPortions next.getData calls
      return (portion :: portions, last)

/-- The bytes of what `SetData` was given. -/
def bytesOf : Option Block → Buffer
  | none => []
  | some block => block.bytes

/-- The first `sent` bytes of the buffer have been exposed. -/
structure Sent (chunkSize : Nat) (bytes : Buffer) (sent : Nat) (pack : OutputPack) : Prop where
  chunk : pack.chunkSize = chunkSize
  started : pack.serializer = true
  within : sent ≤ bytes.length
  more : pack.body.more = true ↔ sent < bytes.length
  pointer : pack.body.more = true →
    ∃ block, pack.buffer = some block ∧ block.bytes = bytes ∧
      pack.bufferPtr = block.address + sent

theorem sizeSub_of_le {left right : Nat} (ordered : right ≤ left) (small : left < 2 ^ 64) :
    sizeSub left right = left - right := by
  unfold sizeSub
  omega

theorem remaining_of_pointer {pack : OutputPack} {block : Block} {sent : Nat}
    (pointer : pack.bufferPtr = block.address + sent) (within : sent ≤ block.bytes.length) :
    pack.remaining block = block.bytes.length - sent := by
  have inside := block.inside
  have offset : sizeSub pack.bufferPtr block.address = sent := by
    rw [pointer, sizeSub_of_le (by omega) (by omega)]
    omega
  rw [remaining, offset, sizeSub_of_le within (by omega)]

theorem getData_of_serializer {pack : OutputPack} (started : pack.serializer = true) :
    pack.getData = pack := by
  rw [getData, if_pos started]

/-- What `SetData` exposes at once: a buffer below the chunk size, or nothing. -/
theorem setData_sent (pack : OutputPack) (buffer : Option Block) (positive : 1 ≤ pack.chunkSize) :
    ∃ first, (pack.setData buffer).exposed = .ok first ∧ first.length ≤ pack.chunkSize ∧
      first = (bytesOf buffer).take first.length ∧
      Sent pack.chunkSize (bytesOf buffer) first.length (pack.setData buffer) := by
  cases buffer with
  | none => exact ⟨[], rfl, by simp, rfl, rfl, rfl, by simp [bytesOf], by simp [setData, bytesOf],
      by simp [setData]⟩
  | some block =>
      by_cases empty : block.bytes = []
      · refine ⟨[], ?_, by simp, rfl, ?_⟩
        · simp [exposed, setData, empty]
        · constructor <;> simp [setData, bytesOf, empty]
      · have size : block.bytes.length ≠ 0 := by simpa using empty
        by_cases short : block.bytes.length < pack.chunkSize
        · refine ⟨block.bytes, ?_, by omega, by simp [bytesOf], ?_⟩
          · simp [exposed, setData, empty, short]
          · constructor <;> simp [setData, bytesOf, empty, short]
        · refine ⟨[], ?_, by simp, rfl, ?_⟩
          · simp [exposed, setData, empty, short]
          · constructor
            · simp [setData, empty]
            · simp [setData, empty]
            · simp
            · simp only [setData, empty, short, ↓reduceIte, bytesOf, List.length_nil, true_iff]
              omega
            · intro _
              exact ⟨block, by simp [setData, empty], rfl, by simp [setData, empty]⟩

/-- While the body has more, the next portion is there, and it is the next piece of the
buffer. -/
theorem getNextPortion_of_more {chunkSize : Nat} {bytes : Buffer} {sent : Nat}
    {pack : OutputPack} (positive : 1 ≤ chunkSize) (held : Sent chunkSize bytes sent pack)
    (more : pack.body.more = true) :
    ∃ next portion, pack.getNextPortion = .ok next ∧ next.exposed = .ok portion ∧
      portion = (bytes.drop sent).take chunkSize ∧ portion ≠ [] ∧
      Sent chunkSize bytes (sent + portion.length) next := by
  obtain ⟨block, buffer, rfl, pointer⟩ := held.pointer more
  have before := held.more.mp more
  have left := remaining_of_pointer pointer held.within
  have size : ((block.bytes.drop sent).take chunkSize).length =
      min (block.bytes.length - sent) chunkSize := by
    rw [List.length_take, List.length_drop, Nat.min_comm]
  have taken : pack.getNextPortion = .ok { pack with
      bufferPtr := pack.bufferPtr + min (block.bytes.length - sent) chunkSize
      body := ⟨pack.bufferPtr, min (block.bytes.length - sent) chunkSize,
        block.bytes.length - sent > chunkSize⟩ } := by
    simp [getNextPortion, held.started, more, buffer, left, held.chunk]
  refine ⟨_, (block.bytes.drop sent).take chunkSize, taken, ?_, rfl, ?_, ?_⟩
  · have some : min (block.bytes.length - sent) chunkSize ≠ 0 := by omega
    have bounds : block.address ≤ pack.bufferPtr ∧
        pack.bufferPtr + min (block.bytes.length - sent) chunkSize ≤
          block.address + block.bytes.length := by
      omega
    have offset : pack.bufferPtr - block.address = sent := by omega
    simp only [exposed, some, buffer, bounds, and_self, ↓reduceIte, offset]
    rw [Nat.min_comm, ← List.length_drop, ← List.take_take, List.take_length]
  · intro none
    rw [none, List.length_nil] at size
    omega
  · rw [size]
    refine ⟨held.chunk, held.started, by omega, ?_, ?_⟩
    · simp only [gt_iff_lt, decide_eq_true_eq]
      omega
    · intro again
      simp only [gt_iff_lt, decide_eq_true_eq] at again
      exact ⟨block, buffer, rfl, by simp only; omega⟩

theorem getNextPortion_of_sent {chunkSize : Nat} {bytes : Buffer} {sent : Nat}
    {pack next : OutputPack} (held : Sent chunkSize bytes sent pack)
    (returned : pack.getNextPortion = .ok next) : pack.body.more = true := by
  cases more : pack.body.more with
  | true => rfl
  | false => simp [getNextPortion, held.started, more] at returned

/-- One round of `OnWrite`. -/
theorem nextPortions_succ {chunkSize : Nat} {bytes : Buffer} {sent : Nat} {pack next : OutputPack}
    {portion : Buffer} (held : Sent chunkSize bytes sent next)
    (taken : pack.getNextPortion = .ok next) (read : next.exposed = .ok portion) (calls : Nat) :
    pack.nextPortions (calls + 1) =
      (next.nextPortions calls).map fun result => (portion :: result.1, result.2) := by
  rw [nextPortions, taken]
  simp only [bind, Except.bind, read, getData_of_serializer held.started]
  cases next.nextPortions calls <;> rfl

/-- However many portions have been taken, they are a prefix of what was left, and the
body has more as long as it is a proper one. -/
theorem nextPortions_sent {chunkSize : Nat} {bytes : Buffer} (positive : 1 ≤ chunkSize)
    (calls : Nat) {sent : Nat} {pack last : OutputPack} {portions : List Buffer}
    (held : Sent chunkSize bytes sent pack)
    (returned : pack.nextPortions calls = .ok (portions, last)) :
    (∀ portion ∈ portions, portion ≠ [] ∧ portion.length ≤ chunkSize) ∧
      portions.flatten = (bytes.drop sent).take portions.flatten.length ∧
      Sent chunkSize bytes (sent + portions.flatten.length) last := by
  induction calls generalizing sent pack portions with
  | zero =>
      cases returned
      exact ⟨by simp, by simp, held⟩
  | succ calls ih =>
      obtain ⟨next, taken, -⟩ := ok_of_bind returned
      have more := getNextPortion_of_sent held taken
      obtain ⟨next, portion, taken, read, piece, some, advanced⟩ :=
        getNextPortion_of_more positive held more
      rw [nextPortions_succ advanced taken read] at returned
      cases rest : next.nextPortions calls with
      | error fault =>
          rw [rest] at returned
          cases returned
      | ok result =>
          obtain ⟨others, final⟩ := result
          rw [rest] at returned
          cases returned
          obtain ⟨sizes, pieces, finished⟩ := ih advanced rest
          have length : portion.length ≤ chunkSize := by
            rw [piece, List.length_take]
            omega
          have front : portion = (bytes.drop sent).take portion.length := by
            apply List.prefix_iff_eq_take.mp
            rw [piece]
            exact List.take_prefix chunkSize _
          refine ⟨?_, ?_, ?_⟩
          · intro each member
            rcases List.mem_cons.mp member with rfl | member
            · exact ⟨some, length⟩
            · exact sizes each member
          · rw [List.flatten_cons, List.length_append, List.take_add, ← front, List.drop_drop,
              ← pieces]
          · rw [List.flatten_cons, List.length_append, ← Nat.add_assoc]
            exact finished

/-- The rounds come to an end, because each of them exposes a byte. -/
theorem nextPortions_finish {chunkSize : Nat} {bytes : Buffer} (positive : 1 ≤ chunkSize)
    {sent : Nat} {pack : OutputPack} (held : Sent chunkSize bytes sent pack) :
    ∃ calls portions last, pack.nextPortions calls = .ok (portions, last) ∧
      last.body.more = false := by
  induction left : bytes.length - sent using Nat.strongRecOn generalizing sent pack with
  | ind left ih =>
      cases more : pack.body.more with
      | false => exact ⟨0, [], pack, rfl, more⟩
      | true =>
          have before := held.more.mp more
          obtain ⟨next, portion, taken, read, -, some, advanced⟩ :=
            getNextPortion_of_more positive held more
          have progress : 0 < portion.length := List.length_pos_of_ne_nil some
          obtain ⟨calls, portions, last, returned, finished⟩ :=
            ih (bytes.length - (sent + portion.length)) (by omega) advanced rfl
          refine ⟨calls + 1, portion :: portions, last, ?_, finished⟩
          rw [nextPortions_succ advanced taken read, returned]
          rfl

/-- Whatever was done with the pack before, a body is sent whole: what `SetData` exposes and
the portions after it come to an end, none is longer than the chunk size, none of the
portions is empty, and the body has more until everything has been exposed. -/
theorem body_is_sent_whole (pack : OutputPack) (positive : 1 ≤ pack.chunkSize)
    (buffer : Option Block) :
    ∃ first, (pack.setData buffer).exposed = .ok first ∧ first.length ≤ pack.chunkSize ∧
      (∃ calls portions last, (pack.setData buffer).nextPortions calls = .ok (portions, last) ∧
        last.body.more = false ∧ first ++ portions.flatten = bytesOf buffer) ∧
      ∀ calls portions last, (pack.setData buffer).nextPortions calls = .ok (portions, last) →
        (∀ portion ∈ portions, portion ≠ [] ∧ portion.length ≤ pack.chunkSize) ∧
          first ++ portions.flatten <+: bytesOf buffer ∧
          (last.body.more = false ↔ first ++ portions.flatten = bytesOf buffer) := by
  obtain ⟨first, read, short, front, held⟩ := setData_sent pack buffer positive
  have every : ∀ calls portions last,
      (pack.setData buffer).nextPortions calls = .ok (portions, last) →
      (∀ portion ∈ portions, portion ≠ [] ∧ portion.length ≤ pack.chunkSize) ∧
        first ++ portions.flatten <+: bytesOf buffer ∧
        (last.body.more = false ↔ first ++ portions.flatten = bytesOf buffer) := by
    intro calls portions last returned
    obtain ⟨sizes, pieces, finished⟩ := nextPortions_sent positive calls held returned
    have together : first ++ portions.flatten =
        (bytesOf buffer).take (first.length + portions.flatten.length) := by
      rw [List.take_add, ← front, ← pieces]
    have whole : first ++ portions.flatten <+: bytesOf buffer := by
      rw [together]
      exact List.take_prefix _ _
    refine ⟨sizes, whole, ?_⟩
    rw [← Bool.not_eq_true, finished.more, Nat.not_lt]
    constructor
    · intro all
      rw [together, List.take_of_length_le all]
    · intro all
      rw [← all, List.length_append]
  obtain ⟨calls, portions, last, returned, finished⟩ := nextPortions_finish positive held
  exact ⟨first, read, short,
    ⟨calls, portions, last, returned, finished, (every calls portions last returned).2.2.mp finished⟩,
    every⟩

/-- Five bytes in portions of two, after a response that was set and never sent. -/
theorem body_is_sent_whole_five :
    ∃ first, ((OutputPack.mk 2 true none 77 ⟨9, 3, true⟩).setData
        (some ⟨100, [1, 2, 3, 4, 5], by decide⟩)).exposed = .ok first ∧ first.length ≤ 2 ∧
      ∃ calls portions last, ((OutputPack.mk 2 true none 77 ⟨9, 3, true⟩).setData
          (some ⟨100, [1, 2, 3, 4, 5], by decide⟩)).nextPortions calls = .ok (portions, last) ∧
        last.body.more = false ∧ first ++ portions.flatten = [1, 2, 3, 4, 5] := by
  obtain ⟨first, read, short, whole, -⟩ :=
    body_is_sent_whole ⟨2, true, none, 77, ⟨9, 3, true⟩⟩ (by decide)
      (some ⟨100, [1, 2, 3, 4, 5], by decide⟩)
  exact ⟨first, read, short, whole⟩

end OutputPack

end Mif.Net.Http
