import Mathlib.Algebra.Ring.Nat
import Mathlib.Algebra.Ring.Int.Defs
import Mif.Reflection.Schema

set_option autoImplicit false

/- The numbers of the fixed-width integer types. -/
namespace Mif.Reflection.IntKind

variable (kind : IntKind)

/-- The number that the bits stand for. -/
def value (bits : BitVec kind.width) : Int := if kind.signed then bits.toInt else bits.toNat

/-- `std::numeric_limits<T>::min()` -/
def least : Int := if kind.signed then -2 ^ (kind.width - 1) else 0

/-- `std::numeric_limits<T>::max()` -/
def greatest : Int := if kind.signed then 2 ^ (kind.width - 1) - 1 else 2 ^ kind.width - 1

/-- The number is a value of the type. -/
def InRange (number : Int) : Prop := kind.least ≤ number ∧ number ≤ kind.greatest

instance (number : Int) : Decidable (kind.InRange number) :=
  inferInstanceAs (Decidable (_ ∧ _))

theorem value_inRange (bits : BitVec kind.width) : kind.InRange (kind.value bits) := by
  have signedLow := BitVec.le_toInt bits
  have signedHigh := BitVec.toInt_lt (x := bits)
  have unsigned := bits.isLt
  cases kind <;> simp only [InRange, least, greatest, value, width, signed, Bool.false_eq_true,
    ↓reduceIte] at * <;> omega

@[simp] theorem ofInt_value (bits : BitVec kind.width) :
    BitVec.ofInt kind.width (kind.value bits) = bits := by
  unfold value
  split
  · exact BitVec.ofInt_toInt
  · rw [BitVec.ofInt_natCast, BitVec.ofNat_toNat, BitVec.setWidth_eq]

/-- A number is kept by the conversion to a type exactly when it is in its range. -/
theorem value_ofInt_iff (number : Int) :
    kind.value (BitVec.ofInt kind.width number) = number ↔ kind.InRange number := by
  constructor
  · intro same
    rw [← same]
    exact kind.value_inRange _
  · intro inside
    cases kind <;> simp only [InRange, least, greatest, value, width, signed, Bool.false_eq_true,
      ↓reduceIte, BitVec.toInt_ofInt, BitVec.toNat_ofInt, Int.bmod] at * <;> omega

/-- A conversion from a wider type keeps the low bits of the number. -/
theorem setWidth_eq_ofInt {wide : Nat} (narrow : Nat) (room : narrow ≤ wide) (bits : BitVec wide) :
    bits.setWidth narrow = BitVec.ofInt narrow bits.toInt ∧
      bits.setWidth narrow = BitVec.ofInt narrow bits.toNat := by
  have unsigned : bits.setWidth narrow = BitVec.ofInt narrow bits.toNat := by
    rw [BitVec.ofInt_natCast]
    exact (BitVec.ofNat_toNat narrow bits).symm
  refine ⟨?_, unsigned⟩
  rw [unsigned]
  apply BitVec.eq_of_toNat_eq
  rw [BitVec.toNat_ofInt, BitVec.toNat_ofInt, BitVec.toInt_eq_toNat_bmod]
  have divides : ((2 ^ narrow : Nat) : Int) ∣ ((2 ^ wide : Nat) : Int) :=
    Int.natCast_dvd_natCast.mpr (Nat.pow_dvd_pow 2 room)
  have residue : (bits.toNat : Int).bmod (2 ^ wide) % ((2 ^ narrow : Nat) : Int) =
      bits.toNat % ((2 ^ narrow : Nat) : Int) := by
    rw [← Int.emod_emod_of_dvd _ divides, Int.bmod_emod, Int.emod_emod_of_dvd _ divides]
  rw [residue]

end Mif.Reflection.IntKind
