import Mathlib.Algebra.Ring.Nat
import Mathlib.Data.List.Basic

set_option autoImplicit false

/- Fixed-width unsigned numbers as byte strings, most significant byte first. -/
namespace BigEndian

/-- The number a byte string spells. -/
def value (bytes : List UInt8) : Nat :=
  bytes.foldl (fun high byte => high * 256 + byte.toNat) 0

/-- The low `count` bytes of a number. -/
def bytes : Nat → Nat → List UInt8
  | 0, _ => []
  | count + 1, number => bytes count (number / 256) ++ [UInt8.ofNat number]

@[simp] theorem bytes_length (count number : Nat) : (bytes count number).length = count := by
  induction count generalizing number with
  | zero => rfl
  | succ count ih => simp only [bytes, List.length_append, List.length_singleton, ih]

theorem value_append_singleton (front : List UInt8) (last : UInt8) :
    value (front ++ [last]) = value front * 256 + last.toNat := by
  simp only [value, List.foldl_append, List.foldl_cons, List.foldl_nil]

/-- Reading back what was written keeps the number up to its width. -/
theorem value_bytes (count number : Nat) : value (bytes count number) = number % 256 ^ count := by
  induction count generalizing number with
  | zero => simp [bytes, value, Nat.mod_one]
  | succ count ih =>
      have low : (UInt8.ofNat number).toNat = number % 256 := UInt8.toNat_ofNat'
      have split : number % (256 * 256 ^ count) =
          number % 256 + 256 * (number / 256 % 256 ^ count) := Nat.mod_mul
      rw [bytes, value_append_singleton, ih, low, Nat.pow_succ', split]
      omega

end BigEndian
