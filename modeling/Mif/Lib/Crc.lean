import Mathlib.Data.List.Basic

set_option autoImplicit false

/- Reflected cyclic redundancy checks: the shift register, and the table of bytes. -/
namespace Crc

variable {width : Nat} (polynomial : BitVec width)

/-- One shift of the register. -/
def step (register : BitVec width) : BitVec width :=
  if register.getLsbD 0 then (register >>> 1) ^^^ polynomial else register >>> 1

def steps : Nat → BitVec width → BitVec width
  | 0, register => register
  | count + 1, register => step polynomial (steps count register)

/-- One shift with a bit of the message. -/
def shiftIn (register : BitVec width) (bit : Bool) : BitVec width :=
  if register.getLsbD 0 ^^ bit then (register >>> 1) ^^^ polynomial else register >>> 1

/-- The bits of a byte, the lowest first. -/
def bits (byte : BitVec 8) : List Bool := (List.range 8).map byte.getLsbD

/-- The register after all bits of a message. -/
def absorb (register : BitVec width) (message : List (BitVec 8)) : BitVec width :=
  (message.flatMap bits).foldl (shiftIn polynomial) register

/-- A byte of the register as a word of its width. -/
def lowByte (register : BitVec width) : BitVec width := register &&& BitVec.ofNat width 255

theorem absorb_cons (register : BitVec width) (byte : BitVec 8) (rest : List (BitVec 8)) :
    absorb polynomial register (byte :: rest) =
      absorb polynomial ((bits byte).foldl (shiftIn polynomial) register) rest := by
  rw [absorb, List.flatMap_cons, List.foldl_append, ← absorb]

theorem step_of_even {register : BitVec width} (even : register.getLsbD 0 = false) :
    step polynomial register = register >>> 1 := by
  rw [step, even, if_neg Bool.false_ne_true]

/-- The shift is linear. -/
theorem step_xor (left right : BitVec width) :
    step polynomial (left ^^^ right) = step polynomial left ^^^ step polynomial right := by
  unfold step
  rw [BitVec.getLsbD_xor, BitVec.ushiftRight_xor_distrib]
  have twice : ∀ one two : BitVec width,
      (one ^^^ polynomial) ^^^ (two ^^^ polynomial) = one ^^^ two := by
    intro one two
    rw [BitVec.xor_assoc, ← BitVec.xor_assoc polynomial, BitVec.xor_comm polynomial two,
      BitVec.xor_assoc two, BitVec.xor_self, BitVec.xor_zero]
  cases left.getLsbD 0 with
  | false =>
      cases right.getLsbD 0 with
      | false => rfl
      | true => exact BitVec.xor_assoc _ _ _
  | true =>
      cases right.getLsbD 0 with
      | false =>
          show ((left >>> 1) ^^^ (right >>> 1)) ^^^ polynomial =
            ((left >>> 1) ^^^ polynomial) ^^^ (right >>> 1)
          rw [BitVec.xor_assoc, BitVec.xor_comm (right >>> 1), ← BitVec.xor_assoc]
      | true => exact (twice _ _).symm

theorem steps_xor (count : Nat) (left right : BitVec width) :
    steps polynomial count (left ^^^ right) =
      steps polynomial count left ^^^ steps polynomial count right := by
  induction count with
  | zero => rfl
  | succ count ih => rw [steps, ih, step_xor, ← steps, ← steps]

theorem steps_succ' (count : Nat) (register : BitVec width) :
    steps polynomial (count + 1) register = steps polynomial count (step polynomial register) := by
  induction count with
  | zero => rfl
  | succ count ih => rw [steps, ih, ← steps]

/-- A register whose low bits are clear is only moved. -/
theorem steps_of_clear {register : BitVec width} {count : Nat}
    (clear : ∀ index < count, register.getLsbD index = false) :
    steps polynomial count register = register >>> count := by
  induction count with
  | zero => rw [steps, BitVec.ushiftRight_zero]
  | succ count ih =>
      have earlier : ∀ index < count, register.getLsbD index = false :=
        fun index below => clear index (by omega)
      have even : (register >>> count).getLsbD 0 = false := by
        rw [BitVec.getLsbD_ushiftRight]
        exact clear _ (by omega)
      rw [steps, ih earlier, step_of_even polynomial even, ← BitVec.shiftRight_add]

/-- Nothing is left of a word that is moved past its end. -/
theorem setWidth_shiftRight {size : Nat} (word : BitVec size) :
    word.setWidth width >>> size = BitVec.ofNat width 0 := by
  apply BitVec.eq_of_getLsbD_eq
  intro index _
  rw [BitVec.getLsbD_ushiftRight, BitVec.getLsbD_setWidth, BitVec.getLsbD_of_ge _ _ (by omega)]
  simp

/-- A bit that is shifted in acts on the lowest bit of the register. -/
theorem shiftIn_eq (register : BitVec width) (bit : Bool) (wide : 0 < width) :
    shiftIn polynomial register bit =
      step polynomial (register ^^^ (BitVec.ofBool bit).setWidth width) := by
  have lowest : ((BitVec.ofBool bit).setWidth width).getLsbD 0 = bit := by
    rw [BitVec.getLsbD_setWidth]
    simp [wide]
  rw [shiftIn, step, BitVec.getLsbD_xor, lowest, BitVec.ushiftRight_xor_distrib,
    setWidth_shiftRight, BitVec.xor_zero]

/-- A bit of the word and what is left of the word above it. -/
theorem shiftRight_xor_bit (word : BitVec width) (count : Nat) :
    ((word >>> count) ^^^ (BitVec.ofBool (word.getLsbD count)).setWidth width) >>> 1 =
      word >>> (count + 1) := by
  rw [BitVec.ushiftRight_xor_distrib, setWidth_shiftRight, BitVec.xor_zero,
    ← BitVec.shiftRight_add]

/-- The bits of a word that are shifted in one by one may as well be there from the start. -/
theorem foldl_shiftIn (register word : BitVec width) (count : Nat) (inside : count ≤ width) :
    (List.range count).foldl (fun register index => shiftIn polynomial register (word.getLsbD index))
        register =
      steps polynomial count (register ^^^ word) ^^^ (word >>> count) := by
  induction count with
  | zero =>
      rw [List.range_zero, List.foldl_nil, steps, BitVec.ushiftRight_zero, BitVec.xor_assoc,
        BitVec.xor_self, BitVec.xor_zero]
  | succ count ih =>
      have wide : 0 < width := by omega
      have even : ((word >>> count) ^^^
          (BitVec.ofBool (word.getLsbD count)).setWidth width).getLsbD 0 = false := by
        rw [BitVec.getLsbD_xor, BitVec.getLsbD_ushiftRight, BitVec.getLsbD_setWidth]
        simp [wide]
      rw [List.range_succ, List.foldl_append, List.foldl_cons, List.foldl_nil, ih (by omega),
        shiftIn_eq polynomial _ _ wide, BitVec.xor_assoc, step_xor, ← steps,
        step_of_even polynomial even, shiftRight_xor_bit]

/-- A byte that is shifted in. -/
theorem foldl_bits (register : BitVec width) (byte : BitVec 8) (wide : 8 ≤ width) :
    (bits byte).foldl (shiftIn polynomial) register =
      steps polynomial 8 (register ^^^ byte.setWidth width) := by
  have same : ∀ index ∈ List.range 8, byte.getLsbD index = (byte.setWidth width).getLsbD index := by
    intro index member
    have below := List.mem_range.mp member
    have inside : index < width := by omega
    simp [inside]
  rw [bits, List.map_congr_left same, List.foldl_map, foldl_shiftIn polynomial _ _ _ wide,
    setWidth_shiftRight, BitVec.xor_zero]

theorem getLsbD_255 (index : Nat) (wide : 8 ≤ width) :
    (BitVec.ofNat width 255).getLsbD index = decide (index < 8) := by
  rw [BitVec.getLsbD_ofNat, show 255 = 2 ^ 8 - 1 from rfl, Nat.testBit_two_pow_sub_one]
  by_cases low : index < 8
  · have inside : index < width := by omega
    simp [low, inside]
  · simp [low]

/-- The low byte of the register is looked up in a table, and the rest is moved. -/
theorem steps_eight (register : BitVec width) (wide : 8 ≤ width) :
    steps polynomial 8 register =
      (register >>> 8) ^^^ steps polynomial 8 (lowByte register) := by
  have split : register = (register &&& ~~~ BitVec.ofNat width 255) ^^^ lowByte register := by
    apply BitVec.eq_of_getLsbD_eq
    intro index inside
    rw [lowByte, BitVec.getLsbD_xor, BitVec.getLsbD_and, BitVec.getLsbD_and, BitVec.getLsbD_not,
      getLsbD_255 index wide]
    by_cases low : index < 8
    · simp [low]
    · simp [low, inside]
  have clear : ∀ index < 8, (register &&& ~~~ BitVec.ofNat width 255).getLsbD index = false := by
    intro index low
    rw [BitVec.getLsbD_and, BitVec.getLsbD_not, getLsbD_255 index wide]
    simp [low]
  have moved : (register &&& ~~~ BitVec.ofNat width 255) >>> 8 = register >>> 8 := by
    apply BitVec.eq_of_getLsbD_eq
    intro index _
    rw [BitVec.getLsbD_ushiftRight, BitVec.getLsbD_ushiftRight, BitVec.getLsbD_and,
      BitVec.getLsbD_not, getLsbD_255 (8 + index) wide]
    by_cases inside : 8 + index < width
    · simp [inside]
    · simp [BitVec.getLsbD_of_ge register (8 + index) (by omega)]
  calc steps polynomial 8 register
      = steps polynomial 8 ((register &&& ~~~ BitVec.ofNat width 255) ^^^ lowByte register) := by
        rw [← split]
    _ = (register >>> 8) ^^^ steps polynomial 8 (lowByte register) := by
        rw [steps_xor, steps_of_clear polynomial clear, moved]

/-- One byte of a message by a lookup. -/
theorem foldl_bits_eq_lookup (register : BitVec width) (byte : BitVec 8) (wide : 8 ≤ width) :
    (bits byte).foldl (shiftIn polynomial) register =
      (register >>> 8) ^^^ steps polynomial 8 (lowByte (register ^^^ byte.setWidth width)) := by
  rw [foldl_bits polynomial register byte wide, steps_eight polynomial _ wide,
    BitVec.ushiftRight_xor_distrib, setWidth_shiftRight, BitVec.xor_zero]

end Crc
