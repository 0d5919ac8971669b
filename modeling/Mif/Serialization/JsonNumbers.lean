import Mathlib.Algebra.Ring.Nat
import Mathlib.Algebra.Ring.Int.Defs
import Mif.Common.Fault
import Mif.Reflection.Schema
import Mif.Reflection.Integers
import Mif.Serialization.JsonValue
import Mif.Serialization.JsonDecode
import Mif.Serialization.JsonRoundTrip

set_option autoImplicit false

/- The integers that `JsonToValue` stores, for each integer type and each kind of number. -/
namespace Mif.Serialization

open Mif.Reflection
open JsonToValue (simple)

variable {schema : Schema}

/-- The integer of a number of kind `int64` or `uint64`. -/
def Json.integer : Json → Option Int
  | .int64 value => some value.toInt
  | .uint64 value => some value.toNat
  | _ => none

namespace JsonValueConverter

/-- Whether the converter of the type looks at numbers of this kind. Those of the types with
8 and 16 bits ask the one of `int32_t`. -/
def takes (kind : IntKind) : Json → Bool
  | .int64 _ => true
  | .uint64 _ => kind = .uint32 ∨ kind = .uint64
  | _ => false

/-- A number of a kind that is taken is cut to the width of the type. -/
theorem toInt_of_takes {kind : IntKind} {json : Json} {number : Int}
    (integer : json.integer = some number) (taken : takes kind json = true) :
    toInt kind json = .ok (BitVec.ofInt kind.width number) := by
  cases json with
  | int64 value =>
      cases integer
      have cut : ∀ narrow, narrow ≤ 64 → value.setWidth narrow = BitVec.ofInt narrow value.toInt :=
        fun narrow room => (IntKind.setWidth_eq_ofInt narrow room value).1
      have twice : ∀ narrow, narrow ≤ 32 →
          (value.setWidth 32).setWidth narrow = BitVec.ofInt narrow value.toInt := by
        intro narrow room
        rw [BitVec.setWidth_setWidth_of_le value room, cut narrow (by omega)]
      have whole : value = BitVec.ofInt 64 value.toInt := BitVec.ofInt_toInt.symm
      cases kind with
      | int8 => exact congrArg Except.ok (twice 8 (by decide))
      | int16 => exact congrArg Except.ok (twice 16 (by decide))
      | int32 => exact congrArg Except.ok (cut 32 (by decide))
      | int64 => exact congrArg Except.ok whole
      | uint8 => exact congrArg Except.ok (twice 8 (by decide))
      | uint16 => exact congrArg Except.ok (twice 16 (by decide))
      | uint32 => exact congrArg Except.ok (cut 32 (by decide))
      | uint64 => exact congrArg Except.ok whole
  | uint64 value =>
      cases integer
      have cut := (IntKind.setWidth_eq_ofInt 32 (by decide) value).2
      have whole : value = BitVec.ofInt 64 value.toNat := by
        have same := (IntKind.setWidth_eq_ofInt 64 (by decide) value).2
        rwa [BitVec.setWidth_eq] at same
      simp only [takes, decide_eq_true_eq] at taken
      rcases taken with rfl | rfl
      · exact congrArg Except.ok cut
      · exact congrArg Except.ok whole
  | _ => cases integer

theorem toInt_of_not_takes {kind : IntKind} {json : Json} (refused : takes kind json = false) :
    ∃ what, toInt kind json = throwing what := by
  cases json with
  | int64 value => cases refused
  | uint64 value =>
      simp only [takes, decide_eq_false_iff_not, not_or] at refused
      cases kind with
      | uint32 => exact absurd rfl refused.1
      | uint64 => exact absurd rfl refused.2
      | _ => exact ⟨_, rfl⟩
  | _ => cases kind <;> exact ⟨_, rfl⟩

end JsonValueConverter

open JsonValueConverter (takes toInt_of_takes toInt_of_not_takes)

/-- A number is stored as it is or refused: `stored` is what holds the bits. -/
structure ExactOrRejected (kind : IntKind) {type : Ty}
    (stored : BitVec kind.width → Val schema type) (number : Int)
    (outcome : Outcome (Val schema type)) : Prop where
  exact : kind.InRange number → ∃ bits, outcome = .ok (stored bits) ∧ kind.value bits = number
  rejected : ¬ kind.InRange number → ∃ what, outcome = throwing what

theorem exactOrRejected_ok_iff {kind : IntKind} {type : Ty}
    (stored : BitVec kind.width → Val schema type) (number : Int) :
    ExactOrRejected kind stored number (.ok (stored (BitVec.ofInt kind.width number))) ↔
      kind.InRange number := by
  constructor
  · intro kept
    by_contra outside
    obtain ⟨what, thrown⟩ := kept.rejected outside
    cases thrown
  · intro inside
    exact ⟨fun _ => ⟨_, rfl, (kind.value_ofInt_iff number).mpr inside⟩,
      fun outside => absurd inside outside⟩

theorem exactOrRejected_throwing_iff {kind : IntKind} {type : Ty}
    (stored : BitVec kind.width → Val schema type) (number : Int) (what : String) :
    ExactOrRejected kind stored number (throwing what) ↔ ¬ kind.InRange number := by
  constructor
  · intro kept inside
    obtain ⟨bits, returned, -⟩ := kept.exact inside
    cases returned
  · intro outside
    exact ⟨fun inside => absurd inside outside, fun _ => ⟨what, rfl⟩⟩

theorem simple_of_integer {α : Type} {json : Json} {number : Int}
    (integer : json.integer = some number) (convert : Json → Outcome α) :
    simple convert json = convert json := by
  cases json with
  | null => cases integer
  | _ => rfl

/-- The overloads for integers and for enums without reflection. -/
theorem exactOrRejected_iff {kind : IntKind} {type : Ty}
    (stored : BitVec kind.width → Val schema type) {json : Json} {number : Int}
    (integer : json.integer = some number) :
    ExactOrRejected kind stored number
        ((simple (JsonValueConverter.toInt kind) json).map stored) ↔
      (kind.InRange number ↔ takes kind json = true) := by
  rw [simple_of_integer integer]
  cases taken : takes kind json with
  | true =>
      rw [toInt_of_takes integer taken, iff_true_right rfl]
      exact exactOrRejected_ok_iff stored number
  | false =>
      obtain ⟨what, thrown⟩ := toInt_of_not_takes taken
      rw [thrown, iff_false_right Bool.false_ne_true]
      exact exactOrRejected_throwing_iff stored number what

/-- `JsonToValue` stores an integer or refuses it as it should exactly when the number is in
the range of the type and of a kind that its converter takes, or neither. Outside the range
the bits are cut without a check; inside it a number of kind `uint64` is refused by all types
but `uint32_t` and `uint64_t`. -/
theorem json_integer_exact_iff (program : Program schema) (kind : IntKind) {json : Json}
    {number : Int} (integer : json.integer = some number) (old : Val schema (.int kind))
    (oldEnum : Val schema (.rawEnum kind)) :
    (ExactOrRejected kind Val.int number (jsonToValue program (.int kind) json old) ↔
        (kind.InRange number ↔ takes kind json = true)) ∧
      (ExactOrRejected kind Val.rawEnum number
          (jsonToValue program (.rawEnum kind) json oldEnum) ↔
        (kind.InRange number ↔ takes kind json = true)) := by
  rw [jsonToValue_int, jsonToValue_rawEnum]
  exact ⟨exactOrRejected_iff Val.int integer, exactOrRejected_iff Val.rawEnum integer⟩

/-- The number 200 for a `uint8_t`. -/
theorem json_integer_exact_200 :
    (Json.int64 200).integer = some 200 ∧
      ExactOrRejected .uint8 Val.int 200
        (jsonToValue pointProgram (.int .uint8) (.int64 200) (.int 0)) := by
  have integer : (Json.int64 200).integer = some 200 := rfl
  exact ⟨integer, (json_integer_exact_iff pointProgram .uint8 integer (.int 0)
    (.rawEnum 0)).1.mpr (by decide)⟩

/-- The number 300 for a `uint8_t` is stored as 44. -/
theorem json_integer_300 :
    jsonToValue pointProgram (.int .uint8) (.int64 300) (.int 0) = .ok (.int 44) ∧
      ¬ IntKind.uint8.InRange 300 ∧
      ¬ ExactOrRejected .uint8 Val.int 300
        (jsonToValue pointProgram (.int .uint8) (.int64 300) (.int 0)) := by
  have stored : jsonToValue pointProgram (.int .uint8) (.int64 300) (.int 0) = .ok (.int 44) := by
    rw [jsonToValue_int]
    rfl
  refine ⟨stored, by decide, ?_⟩
  intro kept
  rw [stored] at kept
  obtain ⟨what, thrown⟩ := kept.rejected (by decide)
  cases thrown

end Mif.Serialization
