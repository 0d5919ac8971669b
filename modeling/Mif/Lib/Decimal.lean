import Mathlib.Data.List.TakeWhile

set_option autoImplicit false

/- Decimal texts of integers. -/
namespace Decimal

/-- The sign in front of a text, whether it is a minus, and what follows it. -/
def sign : List Char → Bool × List Char
  | '-' :: rest => (true, rest)
  | '+' :: rest => (false, rest)
  | text => (false, text)

def signed (negative : Bool) (magnitude : Nat) : Int :=
  if negative then -(magnitude : Int) else magnitude

/-- The digits at the front of a text, behind a sign or none. -/
def digits (text : List Char) : List Char := (sign text).2.takeWhile Char.isDigit

/-- The number at the front of a text. -/
def leading (text : List Char) : Option Int :=
  if digits text = [] then none
  else some (signed (sign text).1 (Nat.ofDigitChars 10 (digits text) 0))

/-- The number of a text that has nothing behind its digits. -/
def literal (text : List Char) : Option Int :=
  if (sign text).2.all Char.isDigit then leading text else none

/-- A number as it is written. -/
def print (number : Int) : List Char := (toString number).toList

theorem sign_of_isDigit {char : Char} (digit : char.isDigit = true) (rest : List Char) :
    sign (char :: rest) = (false, char :: rest) := by
  unfold sign
  split
  · rename_i same
    cases same
    exact absurd digit (by decide)
  · rename_i same
    cases same
    exact absurd digit (by decide)
  · rfl

theorem leading_of_literal {text : List Char} {number : Int} (read : literal text = some number) :
    leading text = some number := by
  unfold literal at read
  split at read
  · exact read
  · cases read

/-- A text of digits is a literal. -/
theorem literal_of_sign {text body : List Char} {negative : Bool}
    (split : sign text = (negative, body)) (some : body ≠ [])
    (plain : ∀ char ∈ body, char.isDigit = true) :
    literal text = .some (signed negative (Nat.ofDigitChars 10 body 0)) := by
  have all : body.takeWhile Char.isDigit = body := by
    rw [List.takeWhile_eq_self_iff]
    exact plain
  have kept : digits text = body := by rw [digits, split, all]
  rw [literal, split, if_pos (List.all_eq_true.mpr plain), leading, kept, split, if_neg some]

theorem isDigit_toDigits (magnitude : Nat) :
    ∀ char ∈ Nat.toDigits 10 magnitude, char.isDigit = true :=
  fun _ member => Nat.isDigit_of_mem_toDigits (by decide) (by decide) member

theorem print_of_nonnegative {number : Int} (sign : 0 ≤ number) :
    print number = Nat.toDigits 10 number.toNat := by
  rw [print, Int.toString_eq_repr, Int.repr_eq_if, if_pos sign, Nat.toList_repr]

theorem print_of_negative {number : Int} (sign : number < 0) :
    print number = '-' :: Nat.toDigits 10 (-number).toNat := by
  have negative : ¬ 0 ≤ number := by omega
  rw [print, Int.toString_eq_repr, Int.repr_eq_if, if_neg negative, String.toList_append,
    Nat.toList_repr]
  rfl

/-- A printed number is a literal of itself. -/
theorem literal_print (number : Int) : literal (print number) = some number := by
  by_cases nonnegative : 0 ≤ number
  · rw [print_of_nonnegative nonnegative]
    have split : sign (Nat.toDigits 10 number.toNat) = (false, Nat.toDigits 10 number.toNat) := by
      obtain ⟨char, rest, shape⟩ := List.exists_cons_of_ne_nil
        (Nat.toDigits_ne_nil : Nat.toDigits 10 number.toNat ≠ [])
      rw [shape]
      exact sign_of_isDigit (isDigit_toDigits _ char (by rw [shape]; exact List.mem_cons_self)) rest
    rw [literal_of_sign split Nat.toDigits_ne_nil (isDigit_toDigits _),
      Nat.ofDigitChars_ten_toDigits]
    simp only [signed, Bool.false_eq_true, ↓reduceIte, Option.some.injEq]
    omega
  · have negative : number < 0 := by omega
    have split : sign ('-' :: Nat.toDigits 10 (-number).toNat) =
        (true, Nat.toDigits 10 (-number).toNat) := rfl
    rw [print_of_negative negative,
      literal_of_sign split Nat.toDigits_ne_nil (isDigit_toDigits _),
      Nat.ofDigitChars_ten_toDigits]
    simp only [signed, ↓reduceIte, Option.some.injEq]
    omega

/-- A literal begins with a sign or a digit. -/
theorem head_of_literal {text : List Char} {number : Int} (read : literal text = some number) :
    ∃ char rest, text = char :: rest ∧ (char = '-' ∨ char = '+' ∨ char.isDigit = true) := by
  cases text with
  | nil => cases read
  | cons char rest =>
      refine ⟨char, rest, rfl, ?_⟩
      by_cases minus : char = '-'
      · exact Or.inl minus
      · by_cases plus : char = '+'
        · exact Or.inr (Or.inl plus)
        · have unsigned : sign (char :: rest) = (false, char :: rest) := by
            simp [sign, minus, plus]
          unfold literal at read
          rw [unsigned] at read
          split at read
          · rename_i plain
            exact Or.inr (Or.inr (List.all_eq_true.mp plain char List.mem_cons_self))
          · cases read

theorem mem_print {number : Int} {char : Char} (member : char ∈ print number) :
    char = '-' ∨ char.isDigit = true := by
  by_cases nonnegative : 0 ≤ number
  · rw [print_of_nonnegative nonnegative] at member
    exact Or.inr (isDigit_toDigits _ char member)
  · rw [print_of_negative (by omega)] at member
    rcases List.mem_cons.mp member with minus | digit
    · exact Or.inl minus
    · exact Or.inr (isDigit_toDigits _ char digit)

/-- A printed number begins with a minus or a digit. -/
theorem head_of_print (number : Int) :
    ∃ char rest, print number = char :: rest ∧ (char = '-' ∨ char.isDigit = true) := by
  obtain ⟨char, rest, shape, -⟩ := head_of_literal (literal_print number)
  have member : char ∈ print number := by
    rw [shape]
    exact List.mem_cons_self
  exact ⟨char, rest, shape, mem_print member⟩

end Decimal
