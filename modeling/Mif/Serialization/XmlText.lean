import Mathlib.Algebra.Ring.Nat
import Mathlib.Data.List.TakeWhile
import Mif.Lib.Decimal
import Mif.Reflection.Schema
import Mif.Reflection.Integers
import Mif.Serialization.JsonValue

set_option autoImplicit false

/- The texts of simple values: `std::to_string`, and `stream >> object` over a stream that
holds the whole text. -/
namespace Mif.Serialization.XmlText

open Mif.Reflection (IntKind)

/-- `std::to_string` of an integer. -/
def ofInt (kind : IntKind) (value : BitVec kind.width) : String :=
  if kind.signed then toString value.toInt else toString value.toNat

/-- `std::to_string` of a `bool`, which is promoted to `int`. -/
def ofBool (value : Bool) : String := if value then "1" else "0"

/-- The white space in front is skipped. When nothing is left, the extraction ends before
it touches the object. -/
def skipSpace (text : String) : List Char := text.toList.dropWhile HexStream.isSpace

/-- A number that is out of range is stored as the nearest limit. A negative number wraps
around in an unsigned type. -/
def store (kind : IntKind) (negative : Bool) (magnitude : Nat) : BitVec kind.width :=
  if kind.signed then
    if negative then
      if 2 ^ (kind.width - 1) < magnitude then BitVec.intMin _ else -BitVec.ofNat _ magnitude
    else
      if 2 ^ (kind.width - 1) ≤ magnitude then BitVec.intMax _ else BitVec.ofNat _ magnitude
  else
    if 2 ^ kind.width ≤ magnitude then BitVec.allOnes _
    else if negative then -BitVec.ofNat _ magnitude else BitVec.ofNat _ magnitude

/-- A sign and the decimal digits after it. Without digits the number is zero. -/
def number (kind : IntKind) (text : List Char) : BitVec kind.width :=
  let (negative, body) := HexStream.sign text
  store kind negative (Nat.ofDigitChars 10 (body.takeWhile Char.isDigit) 0)

/-- The types with 8 bits are character types: the extraction takes one character. -/
def toInt (kind : IntKind) (text : String) (object : BitVec kind.width) : BitVec kind.width :=
  match skipSpace text with
  | [] => object
  | char :: rest =>
      if kind.width = 8 then BitVec.ofNat _ char.toNat else number kind (char :: rest)

/-- A number other than zero is stored as `true`. -/
def toBool (text : String) (object : Bool) : Bool :=
  match skipSpace text with
  | [] => object
  | char :: rest => number .int64 (char :: rest) != 0

theorem hexSign_eq (text : List Char) : HexStream.sign text = Decimal.sign text := by
  cases text with
  | nil => rfl
  | cons char rest =>
      by_cases minus : char = '-'
      · rw [minus]
        rfl
      · by_cases plus : char = '+'
        · rw [plus]
          rfl
        · simp [HexStream.sign, Decimal.sign, minus, plus]

/-- White space is no digit and no sign. -/
theorem skipSpace_of_head {text : String} {char : Char} {rest : List Char}
    (shape : text.toList = char :: rest)
    (solid : char = '-' ∨ char = '+' ∨ char.isDigit = true) :
    skipSpace text = char :: rest := by
  rw [skipSpace, shape]
  exact HexStream.dropWhile_isSpace_of_solid solid rest

section

variable {kind : IntKind}

/-- A number in range is stored as it is. -/
theorem store_of_inRange {negative : Bool} {magnitude : Nat}
    (inside : kind.InRange (Decimal.signed negative magnitude)) :
    store kind negative magnitude =
      BitVec.ofInt kind.width (Decimal.signed negative magnitude) := by
  obtain ⟨low, high⟩ := inside
  have positive : 0 < 2 ^ kind.width := Nat.two_pow_pos kind.width
  cases negative with
  | true =>
      have bits : BitVec.ofInt kind.width (Decimal.signed true magnitude) =
          -BitVec.ofNat kind.width magnitude := by
        rw [Decimal.signed, if_pos rfl, BitVec.ofInt_neg, BitVec.ofInt_natCast]
      simp only [IntKind.least, Decimal.signed, ↓reduceIte] at low
      cases sign : kind.signed with
      | true =>
          rw [sign, if_pos rfl] at low
          have small : ¬ 2 ^ (kind.width - 1) < magnitude := by
            have cast : ((2 ^ (kind.width - 1) : Nat) : Int) = 2 ^ (kind.width - 1) := by simp
            omega
          rw [bits]
          simp only [store, sign, small, ↓reduceIte]
      | false =>
          rw [sign, if_neg Bool.false_ne_true] at low
          have small : ¬ 2 ^ kind.width ≤ magnitude := by omega
          rw [bits]
          simp only [store, sign, small, Bool.false_eq_true, ↓reduceIte]
  | false =>
      have bits : BitVec.ofInt kind.width (Decimal.signed false magnitude) =
          BitVec.ofNat kind.width magnitude := by
        rw [Decimal.signed, if_neg Bool.false_ne_true, BitVec.ofInt_natCast]
      simp only [IntKind.greatest, Decimal.signed, Bool.false_eq_true, ↓reduceIte] at high
      cases sign : kind.signed with
      | true =>
          rw [sign, if_pos rfl] at high
          have small : ¬ 2 ^ (kind.width - 1) ≤ magnitude := by
            have cast : ((2 ^ (kind.width - 1) : Nat) : Int) = 2 ^ (kind.width - 1) := by simp
            omega
          rw [bits]
          simp only [store, sign, small, Bool.false_eq_true, ↓reduceIte]
      | false =>
          rw [sign, if_neg Bool.false_ne_true] at high
          have small : ¬ 2 ^ kind.width ≤ magnitude := by
            have cast : ((2 ^ kind.width : Nat) : Int) = 2 ^ kind.width := by simp
            omega
          rw [bits]
          simp only [store, sign, small, Bool.false_eq_true, ↓reduceIte]

/-- A literal of a value of the type is read as that value. -/
theorem number_of_literal {text : List Char} {value : Int}
    (read : Decimal.literal text = some value) (inside : kind.InRange value) :
    number kind text = BitVec.ofInt kind.width value := by
  have leading := Decimal.leading_of_literal read
  unfold Decimal.leading at leading
  split at leading
  · cases leading
  · cases leading
    rw [number, hexSign_eq]
    exact store_of_inRange inside

theorem toInt_of_literal (wide : kind.width ≠ 8) {text : String} {value : Int}
    (read : Decimal.literal text.toList = some value) (inside : kind.InRange value)
    (object : BitVec kind.width) : toInt kind text object = BitVec.ofInt kind.width value := by
  obtain ⟨char, rest, shape, solid⟩ := Decimal.head_of_literal read
  rw [toInt, skipSpace_of_head shape solid]
  simp only [wide, ↓reduceIte]
  rw [shape] at read
  exact number_of_literal read inside

theorem toList_ofInt (value : BitVec kind.width) :
    (ofInt kind value).toList = Decimal.print (kind.value value) := by
  unfold ofInt IntKind.value Decimal.print
  split <;> rfl

/-- Every integer of at least 16 bits is read back from its text. -/
theorem toInt_ofInt (value : BitVec kind.width) (wide : kind.width ≠ 8)
    (object : BitVec kind.width) : toInt kind (ofInt kind value) object = value := by
  have read : Decimal.literal (ofInt kind value).toList = some (kind.value value) := by
    rw [toList_ofInt, Decimal.literal_print]
  rw [toInt_of_literal wide read (kind.value_inRange value), kind.ofInt_value]

end

/-- A `bool` is read back from its text. -/
theorem toBool_ofBool (value object : Bool) : toBool (ofBool value) object = value := by
  cases value <;> rfl

end Mif.Serialization.XmlText
