import Mathlib.Algebra.Ring.Nat
import Mathlib.Data.List.Basic
import Mif.Lib.Crc

set_option autoImplicit false

/- `Common::Crc32`: the table that is made at compile time, and the checksums of literals and
of bytes in memory. -/
namespace Mif.Common

/-- `CalcCrc32K` -/
def calcCrc32K (c : UInt32) (k : Nat) : UInt32 :=
  if k < 8 then
    calcCrc32K (if c &&& 1 ≠ 0 then (0xedb88320 : UInt32) ^^^ (c >>> 1) else c >>> 1) (k + 1)
  else c
termination_by 8 - k

/-- `Crc32Table` -/
structure Crc32Table where
  data : List UInt32
  size : data.length = 256

/-- `CalcCrc32Table`, with the pack of its arguments. -/
def calcCrc32Table (n : UInt32) (t : List UInt32) (room : t.length ≤ 256) : Crc32Table :=
  if full : t.length = 256 then ⟨t, full⟩
  else
    calcCrc32Table (n + 1) (t ++ [calcCrc32K n 0]) (by
      rw [List.length_append, List.length_singleton]
      omega)
termination_by 256 - t.length
decreasing_by
  rw [List.length_append, List.length_singleton]
  omega

/-- `Crc32TableHolder::Table` -/
def crc32Table : Crc32Table := calcCrc32Table 0 [] (by simp)

/-- `m_data[value & 0xFF]` -/
def Crc32Table.entry (table : Crc32Table) (value : UInt32) : UInt32 :=
  table.data.get ⟨(value &&& 0xff).toNat, by
    have low : (value &&& 0xff).toNat ≤ 255 := by
      rw [UInt32.toNat_and]
      exact Nat.and_le_right
    rw [table.size]
    omega⟩

/-- A `char`, which is signed, as an operand of type `std::uint32_t`. -/
def promoted (char : UInt8) : UInt32 := UInt32.ofBitVec (char.toBitVec.signExtend 32)

namespace Detail

/-- `Detail::Crc32<I>`. The pointer has the characters that are read. -/
def crc32 : (i : Nat) → (str : List UInt8) → i ≤ str.length → UInt32 → UInt32
  | 0, _, _, crc => crc ^^^ 0xffffffff
  | i + 1, char :: rest, valid, crc =>
      crc32 i rest (Nat.le_of_succ_le_succ valid)
        ((crc >>> 8) ^^^ crc32Table.entry (crc ^^^ promoted char))

/-- The loop of the other `Crc32`. -/
def loop : (bytes : Nat) → (buf : List UInt8) → bytes ≤ buf.length → UInt32 → UInt32
  | 0, _, _, crc => crc
  | bytes + 1, byte :: rest, valid, crc =>
      loop bytes rest (Nat.le_of_succ_le_succ valid)
        (crc32Table.entry (crc ^^^ byte.toUInt32) ^^^ (crc >>> 8))

end Detail

/-- `Crc32(char const (&str)[N])`. The last character of the array is not read. -/
def crc32Array (str : List UInt8) (filled : 0 < str.length) : UInt32 :=
  Detail.crc32 (UInt32.ofNat str.length - 1).toNat str (by
    rw [UInt32.toNat_sub, UInt32.toNat_ofNat', UInt32.toNat_one]
    omega) 0xffffffff

theorem filled_append (str : List UInt8) (last : UInt8) : 0 < (str ++ [last]).length := by
  rw [List.length_append, List.length_singleton]
  exact Nat.succ_pos _

/-- `Crc32(void const *data, std::uint32_t bytes)` -/
def crc32 (data : List UInt8) (bytes : UInt32) (valid : bytes.toNat ≤ data.length) : UInt32 :=
  Detail.loop bytes.toNat data valid (0 ^^^ ~~~0) ^^^ ~~~0

theorem valid_length (str : List UInt8) : (UInt32.ofNat str.length).toNat ≤ str.length := by
  rw [UInt32.toNat_ofNat']
  exact Nat.mod_le _ _

/-- `Crc32str(std::string const &str)`. The length is converted to 32 bits. -/
def crc32str (str : List UInt8) : UInt32 :=
  crc32 str (UInt32.ofNat str.length) (valid_length str)

/-- The bits of the polynomial, the highest power last. -/
def polynomial : BitVec 32 := 0xedb88320

/-- The checksum by its definition, bit by bit. -/
def bitwiseCrc32 (str : List UInt8) : UInt32 :=
  UInt32.ofBitVec (Crc.absorb polynomial 0xffffffff (str.map UInt8.toBitVec) ^^^ 0xffffffff)

theorem odd_iff (c : UInt32) : c &&& 1 ≠ 0 ↔ c.toBitVec.getLsbD 0 = true := by
  have low : (c &&& 1).toBitVec = (BitVec.ofBool (c.toBitVec.getLsbD 0)).setWidth 32 := by
    rw [UInt32.toBitVec_and]
    exact BitVec.and_one_eq_setWidth_ofBool_getLsbD
  rw [ne_eq, ← UInt32.toBitVec_inj, low]
  cases c.toBitVec.getLsbD 0 with
  | false => simp
  | true => simp

theorem shifted_toBitVec (c : UInt32) :
    (if c &&& 1 ≠ 0 then (0xedb88320 : UInt32) ^^^ (c >>> 1) else c >>> 1).toBitVec =
      Crc.step polynomial c.toBitVec := by
  by_cases odd : c &&& 1 ≠ 0
  · rw [if_pos odd, Crc.step, (odd_iff c).mp odd, if_pos rfl, UInt32.toBitVec_xor, BitVec.xor_comm]
    rfl
  · have even : c.toBitVec.getLsbD 0 = false := by
      rw [odd_iff] at odd
      simpa using odd
    rw [if_neg odd, Crc.step_of_even polynomial even]
    rfl

/-- The recursion shifts as often as it is still called. -/
theorem calcCrc32K_toBitVec (left : Nat) (c : UInt32) {k : Nat} (calls : k + left = 8) :
    (calcCrc32K c k).toBitVec = Crc.steps polynomial left c.toBitVec := by
  induction left generalizing c k with
  | zero =>
      have last : ¬ k < 8 := by omega
      rw [calcCrc32K, if_neg last]
      rfl
  | succ left ih =>
      have further : k < 8 := by omega
      have next : k + 1 + left = 8 := by omega
      rw [calcCrc32K, if_pos further, ih _ next, shifted_toBitVec, ← Crc.steps_succ']

/-- The pack holds the entries that were computed so far. -/
theorem data_calcCrc32Table (left : Nat) {n : Nat} (calls : n + left = 256)
    (room : ((List.range n).map fun index => calcCrc32K (UInt32.ofNat index) 0).length ≤ 256) :
    (calcCrc32Table (UInt32.ofNat n)
        ((List.range n).map fun index => calcCrc32K (UInt32.ofNat index) 0) room).data =
      (List.range 256).map fun index => calcCrc32K (UInt32.ofNat index) 0 := by
  induction left generalizing n with
  | zero =>
      have all : n = 256 := by omega
      subst all
      rw [calcCrc32Table, dif_pos (by simp)]
  | succ left ih =>
      have further : ¬ ((List.range n).map
          fun index => calcCrc32K (UInt32.ofNat index) 0).length = 256 := by
        rw [List.length_map, List.length_range]
        omega
      have grown : ((List.range n).map fun index => calcCrc32K (UInt32.ofNat index) 0) ++
          [calcCrc32K (UInt32.ofNat n) 0] =
          (List.range (n + 1)).map fun index => calcCrc32K (UInt32.ofNat index) 0 := by
        rw [List.range_succ, List.map_append, List.map_singleton]
      have counted : UInt32.ofNat n + 1 = UInt32.ofNat (n + 1) := by
        apply UInt32.toNat_inj.mp
        simp
      have next : n + 1 + left = 256 := by omega
      rw [calcCrc32Table, dif_neg further]
      simp only [grown, counted]
      exact ih next _

theorem data_crc32Table :
    crc32Table.data = (List.range 256).map fun index => calcCrc32K (UInt32.ofNat index) 0 :=
  data_calcCrc32Table 256 rfl (by simp)

/-- The entry for a number is the one for its low byte. -/
theorem entry_crc32Table (value : UInt32) :
    (crc32Table.entry value).toBitVec =
      Crc.steps polynomial 8 (Crc.lowByte value.toBitVec) := by
  have found : crc32Table.entry value = calcCrc32K (value &&& 0xff) 0 := by
    rw [Crc32Table.entry, List.get_eq_getElem]
    simp only [data_crc32Table, List.getElem_map, List.getElem_range, UInt32.ofNat_toNat]
  rw [found, calcCrc32K_toBitVec 8 _ rfl]
  rfl

theorem lowByte_signExtend (register : BitVec 32) (char : BitVec 8) :
    Crc.lowByte (register ^^^ char.signExtend 32) =
      Crc.lowByte (register ^^^ char.setWidth 32) := by
  apply BitVec.eq_of_getLsbD_eq
  intro index inside
  rw [Crc.lowByte, Crc.lowByte, BitVec.getLsbD_and, BitVec.getLsbD_and,
    Crc.getLsbD_255 index (by decide), BitVec.getLsbD_xor, BitVec.getLsbD_xor,
    BitVec.getLsbD_signExtend, BitVec.getLsbD_setWidth]
  by_cases low : index < 8
  · simp [low]
  · simp [low]

/-- A step of the loop shifts the bits of a byte in. -/
theorem lookup_toBitVec (crc : UInt32) (byte : UInt8) :
    (crc32Table.entry (crc ^^^ byte.toUInt32) ^^^ (crc >>> 8)).toBitVec =
      (Crc.bits byte.toBitVec).foldl (Crc.shiftIn polynomial) crc.toBitVec := by
  rw [Crc.foldl_bits_eq_lookup polynomial _ _ (by decide), UInt32.toBitVec_xor, entry_crc32Table,
    BitVec.xor_comm]
  rfl

/-- The sign of a character is masked out. -/
theorem entry_promoted (crc : UInt32) (char : UInt8) :
    crc32Table.entry (crc ^^^ promoted char) = crc32Table.entry (crc ^^^ char.toUInt32) := by
  apply UInt32.toBitVec_inj.mp
  rw [entry_crc32Table, entry_crc32Table]
  exact congrArg _ (lowByte_signExtend crc.toBitVec char.toBitVec)

namespace Detail

theorem loop_toBitVec (buf : List UInt8) {bytes : Nat} (valid : bytes ≤ buf.length)
    (crc : UInt32) :
    (loop bytes buf valid crc).toBitVec =
      Crc.absorb polynomial crc.toBitVec ((buf.take bytes).map UInt8.toBitVec) := by
  induction bytes generalizing buf crc with
  | zero => rfl
  | succ bytes ih =>
      cases buf with
      | nil => cases valid
      | cons byte rest =>
          rw [loop, ih, lookup_toBitVec, List.take_succ_cons, List.map_cons, Crc.absorb_cons]

/-- The recursion over the pointer computes what the loop does. -/
theorem crc32_eq_loop (str : List UInt8) {i : Nat} (valid : i ≤ str.length) (crc : UInt32) :
    crc32 i str valid crc = loop i str valid crc ^^^ 0xffffffff := by
  induction i generalizing str crc with
  | zero => rfl
  | succ i ih =>
      cases str with
      | nil => cases valid
      | cons char rest => rw [crc32, loop, ih, entry_promoted, UInt32.xor_comm (crc >>> 8)]

end Detail

/-- The loop over memory is the checksum of the bytes that it reads. -/
theorem crc32_eq_bitwise (data : List UInt8) (bytes : UInt32)
    (valid : bytes.toNat ≤ data.length) :
    crc32 data bytes valid = bitwiseCrc32 (data.take bytes.toNat) := by
  apply UInt32.toBitVec_inj.mp
  rw [crc32, UInt32.toBitVec_xor, Detail.loop_toBitVec]
  rfl

theorem crc32str_eq_bitwise {str : List UInt8} (short : str.length < 2 ^ 32) :
    crc32str str = bitwiseCrc32 str := by
  have whole : (UInt32.ofNat str.length).toNat = str.length := by
    rw [UInt32.toNat_ofNat']
    exact Nat.mod_eq_of_lt short
  rw [crc32str, crc32_eq_bitwise, whole, List.take_length]

/-- An array of `char` ends with a character that is not read. -/
theorem crc32Array_eq_bitwise {str : List UInt8} (short : str.length < 2 ^ 32) (last : UInt8) :
    crc32Array (str ++ [last]) (filled_append str last) = bitwiseCrc32 str := by
  have read : (UInt32.ofNat (str ++ [last]).length - 1).toNat = str.length := by
    rw [List.length_append, List.length_singleton, UInt32.toNat_sub, UInt32.toNat_ofNat',
      UInt32.toNat_one]
    omega
  apply UInt32.toBitVec_inj.mp
  rw [crc32Array, Detail.crc32_eq_loop, UInt32.toBitVec_xor, Detail.loop_toBitVec, read,
    List.take_left' rfl]
  rfl

/-- The checksum of a literal, of bytes in memory and of a string is the one of the
definition, and the table holds what `CalcCrc32K` gives. -/
theorem crc32_paths_agree (str : List UInt8) (short : str.length < 2 ^ 32) (last : UInt8) :
    crc32Array (str ++ [last]) (filled_append str last) = bitwiseCrc32 str ∧
      crc32 str (UInt32.ofNat str.length) (valid_length str) = bitwiseCrc32 str ∧
      crc32str str = bitwiseCrc32 str ∧
      ∀ n < 256, crc32Table.data[n]? = some (calcCrc32K (UInt32.ofNat n) 0) := by
  refine ⟨crc32Array_eq_bitwise short last, crc32str_eq_bitwise short,
    crc32str_eq_bitwise short, ?_⟩
  intro n small
  rw [data_crc32Table, List.getElem?_map, List.getElem?_range small, Option.map_some]

/-- The text `123456789`, whose checksum is known. -/
theorem crc32_paths_agree_digits :
    crc32Array [0x31, 0x32, 0x33, 0x34, 0x35, 0x36, 0x37, 0x38, 0x39, 0] (by decide) =
        0xcbf43926 ∧
      crc32str [0x31, 0x32, 0x33, 0x34, 0x35, 0x36, 0x37, 0x38, 0x39] = 0xcbf43926 := by
  have known : bitwiseCrc32 [0x31, 0x32, 0x33, 0x34, 0x35, 0x36, 0x37, 0x38, 0x39] =
      0xcbf43926 := by
    decide +kernel
  obtain ⟨literal, -, text, -⟩ :=
    crc32_paths_agree [0x31, 0x32, 0x33, 0x34, 0x35, 0x36, 0x37, 0x38, 0x39] (by decide) 0
  exact ⟨literal.trans known, text.trans known⟩

end Mif.Common
