import Mif.Lib.Transition
import Mif.Net.FrameDelivery

set_option autoImplicit false

/- The frame reader on streams that no frame writer has written: the length in a header
is any 32-bit value. -/
namespace Mif.Net.FrameReader

/-- The bytes that a call looks at. -/
def pending (reader : FrameReader) (chunk : Buffer) : Buffer := reader.buffer ++ chunk

/-- The call comes to a header. -/
def ReadsHeader (reader : FrameReader) (chunk : Buffer) : Prop :=
  reader.client.onData chunk = .processed ∧ headerBytes ≤ (reader.pending chunk).length

/-- The length in the header, as `std::int32_t`. -/
def frameBytes (reader : FrameReader) (chunk : Buffer) : Int :=
  (header (reader.pending chunk)).toInt

/-- The call throws and posts nothing. -/
def Rejected (effect : Effect) : Prop :=
  effect.posted = [] ∧ ∃ what, effect.fault = some (.exception what)

/-- What a call has to do with any bytes. -/
structure Safe (publish : Buffer → Option String) (reader : FrameReader) (chunk : Buffer) :
    Prop where
  /-- A payload is the slice behind the header, which lies in the buffer. -/
  inside : ReadsHeader reader chunk → ∀ payload ∈ (reader.onData publish chunk).posted,
    ∃ size : Nat, reader.frameBytes chunk = size ∧
      headerBytes + size ≤ (reader.pending chunk).length ∧
      payload = ((reader.pending chunk).take (headerBytes + size)).drop headerBytes
  /-- No range is formed whose end is before its begin. -/
  defined : ∀ access, (reader.onData publish chunk).fault ≠ some (.undefined access)
  rejected : ReadsHeader reader chunk → reader.frameBytes chunk < 0 →
    Rejected (reader.onData publish chunk)

/-- The header that the call comes to, if it does, holds no negative length. -/
def NotNegative (reader : FrameReader) (chunk : Buffer) : Prop :=
  ReadsHeader reader chunk → 0 ≤ reader.frameBytes chunk

/-- One received chunk. Nothing is known behind an undefined access. -/
def receive (publish : Buffer → Option String) (reader : FrameReader) (chunk : Buffer) :
    Option FrameReader :=
  match (reader.onData publish chunk).fault with
  | some (.undefined _) => none
  | _ => some (reader.onData publish chunk).reader

/-- Only a call that goes on to `cut` posts or performs an undefined access. -/
theorem onData_unprocessed {publish : Buffer → Option String} {reader : FrameReader}
    {chunk : Buffer} (idle : reader.client.onData chunk ≠ .processed) :
    (reader.onData publish chunk).posted = [] ∧
      ∀ access, (reader.onData publish chunk).fault ≠ some (.undefined access) := by
  unfold onData
  split
  · simp
  · simp
  · rename_i processed
    exact absurd processed idle

section

variable {publish : Buffer → Option String} {reader : FrameReader} {chunk held : Buffer}
  (processed : reader.client.onData chunk = .processed)
include processed

theorem onData_incomplete (result : cut reader.buffer chunk = (held, .incomplete)) :
    reader.onData publish chunk = ⟨{ reader with buffer := held }, [], none⟩ := by
  unfold onData
  rw [processed]
  dsimp only
  rw [result]

theorem onData_invalid {access : Undefined}
    (result : cut reader.buffer chunk = (held, .invalid access)) :
    reader.onData publish chunk =
      ⟨{ reader with buffer := held }, [], some (.undefined access)⟩ := by
  unfold onData
  rw [processed]
  dsimp only
  rw [result]

theorem onData_frame {payload : Buffer}
    (result : cut reader.buffer chunk = (held, .frame payload)) :
    (reader.onData publish chunk).posted = [payload] ∧
      ∀ access, (reader.onData publish chunk).fault ≠ some (.undefined access) := by
  unfold onData
  rw [processed]
  dsimp only
  rw [result]
  refine ⟨rfl, fun access => ?_⟩
  cases (if reader.client.post then publish payload else none) <;> simp

end

theorem cut_short {held chunk : Buffer} (short : (held ++ chunk).length < headerBytes) :
    cut held chunk = (held ++ chunk, .incomplete) := by
  unfold cut
  rw [cut_buffer]
  simp only [short, ↓reduceIte]

/-- A negative length makes the reader wait, or form a range that ends before it begins;
the wrapping sum decides. -/
theorem cut_negative {held chunk : Buffer} (enough : headerBytes ≤ (held ++ chunk).length)
    (negative : (header (held ++ chunk)).toInt < 0) :
    cut held chunk = (held ++ chunk, .incomplete) ∨
      cut held chunk = (held ++ chunk, .invalid .invalidRange) := by
  unfold cut
  rw [cut_buffer]
  have readable : ¬ (held ++ chunk).length < headerBytes := by omega
  have backward : (headerBytes : Int) + (header (held ++ chunk)).toInt < headerBytes := by omega
  simp only [readable, backward, ↓reduceIte]
  split
  · exact Or.inl rfl
  · exact Or.inr rfl

/-- A length that is not negative is the size that `cut_sized` speaks about. -/
theorem header_size {buffer : Buffer} (positive : 0 ≤ (header buffer).toInt) :
    ∃ size : Nat, size < 2 ^ 31 ∧ header buffer = BitVec.ofNat 32 size ∧
      (header buffer).toInt = size := by
  have small : 2 * (header buffer).toNat < 2 ^ 32 := by
    by_contra large
    rw [BitVec.toInt_eq_toNat_cond] at positive
    simp only [large, ↓reduceIte] at positive
    have width := (header buffer).isLt
    omega
  refine ⟨(header buffer).toNat, by omega, ?_, BitVec.toInt_eq_toNat_of_lt small⟩
  rw [BitVec.ofNat_toNat, BitVec.setWidth_eq]

section

variable {publish : Buffer → Option String} {reader : FrameReader} {chunk : Buffer}

/-- A call that posts nothing and stays defined, and that does not come to a negative
length. -/
theorem safe_of_silent (fine : reader.NotNegative chunk)
    (silent : (reader.onData publish chunk).posted = [])
    (defined : ∀ access, (reader.onData publish chunk).fault ≠ some (.undefined access)) :
    reader.Safe publish chunk := by
  refine ⟨?_, defined, ?_⟩
  · intro _ payload member
    rw [silent] at member
    cases member
  · intro reads negative
    have positive := fine reads
    omega

theorem safe_of_notNegative (fine : reader.NotNegative chunk) : reader.Safe publish chunk := by
  by_cases processed : reader.client.onData chunk = .processed
  · by_cases short : (reader.buffer ++ chunk).length < headerBytes
    · have waits : reader.onData publish chunk = _ := onData_incomplete processed (cut_short short)
      exact safe_of_silent fine (by rw [waits]) (by rw [waits]; simp)
    · have enough : headerBytes ≤ (reader.buffer ++ chunk).length := by omega
      obtain ⟨size, fits, read, signed⟩ := header_size (fine ⟨processed, enough⟩)
      have result := cut_sized reader.buffer chunk size fits enough read
      by_cases whole : headerBytes + size ≤ (reader.buffer ++ chunk).length
      · simp only [whole, ↓reduceIte] at result
        have posts : (reader.onData publish chunk).posted = _ ∧ _ := onData_frame processed result
        refine ⟨?_, posts.2, ?_⟩
        · intro _ payload member
          rw [posts.1, List.mem_singleton] at member
          exact ⟨size, signed, whole, member⟩
        · intro reads negative
          have positive := fine reads
          omega
      · simp only [whole, ↓reduceIte] at result
        have waits : reader.onData publish chunk = _ := onData_incomplete processed result
        exact safe_of_silent fine (by rw [waits]) (by rw [waits]; simp)
  · have idle : (reader.onData publish chunk).posted = [] ∧ _ := onData_unprocessed processed
    exact safe_of_silent fine idle.1 idle.2

theorem notNegative_of_safe (safe : reader.Safe publish chunk) : reader.NotNegative chunk := by
  intro reads
  by_contra negative
  have below : reader.frameBytes chunk < 0 := by omega
  have rejected := (safe.rejected reads below).2
  rcases cut_negative reads.2 below with waits | invalid
  · rw [onData_incomplete reads.1 waits] at rejected
    obtain ⟨what, impossible⟩ := rejected
    cases impossible
  · rw [onData_invalid reads.1 invalid] at rejected
    obtain ⟨what, impossible⟩ := rejected
    cases impossible

end

/-- For every stream and every cutting of it into chunks, each call is safe exactly when
no call comes to a header with a negative length. -/
theorem safe_along_iff (publish : Buffer → Option String) (chunks : List Buffer) :
    Transition.Along (receive publish) (Safe publish) new chunks ↔
      Transition.Along (receive publish) NotNegative new chunks := by
  have agree : ∀ (reader : FrameReader) (chunk : Buffer), True → True →
      (reader.Safe publish chunk ↔ reader.NotNegative chunk) :=
    fun reader chunk _ _ => ⟨notNegative_of_safe, safe_of_notNegative⟩
  exact Transition.along_congr agree (fun _ _ _ _ _ _ _ => trivial) chunks new trivial
    (Transition.along_of_mem chunks (fun _ _ _ => trivial) new)

/-- The length -1 makes the reader copy a range that ends before it begins. With the
length -5 it waits, whatever arrives. -/
theorem negative_lengths_are_not_rejected :
    (new.onData (fun _ => none) [255, 255, 255, 255]).fault = some (.undefined .invalidRange) ∧
      new.onData (fun _ => none) [255, 255, 255, 251, 1] =
        ⟨⟨.new, [255, 255, 255, 251, 1]⟩, [], none⟩ ∧
      ¬ Transition.Along (receive fun _ => none) (Safe fun _ => none) new
          [[255, 255, 255, 255]] ∧
      ¬ Transition.Along (receive fun _ => none) (Safe fun _ => none) new
          [[255, 255, 255, 251, 1]] := by
  have invalid : (new.onData (fun _ => none) [255, 255, 255, 255]).fault =
      some (.undefined .invalidRange) := by decide
  have waits : new.onData (fun _ => none) [255, 255, 255, 251, 1] =
      ⟨⟨.new, [255, 255, 255, 251, 1]⟩, [], none⟩ := by decide
  refine ⟨invalid, waits, ?_, ?_⟩
  · intro safe
    exact safe.1.defined _ invalid
  · intro safe
    have rejected := safe.1.rejected ⟨by decide, by decide⟩ (by decide)
    rw [waits] at rejected
    obtain ⟨_, what, impossible⟩ := rejected
    cases impossible

end Mif.Net.FrameReader
