import Mathlib.Algebra.Ring.Nat
import Mathlib.Data.List.TakeWhile
import Mif.Common.Fault
import Mif.Reflection.Schema
import Mif.Serialization.JsonValue
import Mif.Serialization.JsonDecode
import Mif.Serialization.JsonEncode
import Mif.Serialization.JsonRoundTrip

set_option autoImplicit false

/- The containers of `char` in JSON: what the decoder makes of what the encoder wrote. -/
namespace Mif.Serialization

open Mif.Reflection

namespace HexStream

theorem digits_append (value count : Nat) (text rest : List Char) :
    digits value count (text ++ ' ' :: rest) =
      ((digits value count text).1, (digits value count text).2.1,
        (digits value count text).2.2 ++ ' ' :: rest) := by
  induction text generalizing value count with
  | nil => rfl
  | cons char text ih =>
      simp only [List.cons_append, digits]
      cases digit char with
      | some next => exact ih _ _
      | none => rfl

theorem sign_append {text : List Char} (some : text ≠ []) (rest : List Char) :
    sign (text ++ rest) = ((sign text).1, (sign text).2 ++ rest) := by
  obtain ⟨char, text, rfl⟩ := List.exists_cons_of_ne_nil some
  rw [List.cons_append]
  by_cases minus : char = '-'
  · rw [minus]
    rfl
  · by_cases plus : char = '+'
    · rw [plus]
      rfl
    · simp [sign, minus, plus]

theorem leadingZero_append (text rest : List Char) :
    leadingZero (text ++ ' ' :: rest) =
      ((leadingZero text).1, (leadingZero text).2 ++ ' ' :: rest) := by
  cases text with
  | nil => rfl
  | cons char text =>
      by_cases zero : char = '0'
      · rw [zero]
        cases text with
        | nil => rfl
        | cons second text =>
            by_cases lower : second = 'x'
            · rw [lower]
              rfl
            · by_cases upper : second = 'X'
              · rw [upper]
                rfl
              · simp [leadingZero, lower, upper]
      · simp [leadingZero, zero]

theorem store_append (value : Int) (front back : List Char) :
    store value (front ++ back) =
      { store value front with rest := (store value front).rest ++ back } := by
  unfold store
  split
  · rfl
  · split <;> rfl

/-- A blank ends the number in front of it. -/
theorem extract_append {text : List Char} (some : text.dropWhile isSpace ≠ [])
    (rest : List Char) :
    extract (text ++ ' ' :: rest) =
      { extract text with rest := (extract text).rest ++ ' ' :: rest } := by
  have blanks : (text ++ ' ' :: rest).dropWhile isSpace =
      text.dropWhile isSpace ++ ' ' :: rest := by
    rw [List.dropWhile_append, if_neg (by simpa using some)]
  simp only [extract, blanks, sign_append some, leadingZero_append, digits_append]
  split
  · rfl
  · exact store_append _ _ _

theorem extract_blank (text : List Char) : extract (' ' :: text) = extract text := by
  have blank : isSpace ' ' = true := by decide
  simp only [extract, List.dropWhile_cons, blank, ↓reduceIte]

theorem bytes_blank (text : List Char) : bytes (' ' :: text) = bytes text := by
  rw [bytes, extract_blank, ← bytes]

end HexStream

open HexStream (extract isSpace)
open JsonToValue (notConverted hexToChars)
open ValueToJson (hexByte ofChars)

/-- The string in the array that `ofChars` makes. -/
def charsText (values : List (BitVec 8)) : String := String.ofList (values.flatMap hexByte)

/-- The overload of `JsonToValue` for containers of `char`, with the insertion of the
container. -/
def jsonToChars (insert : List (BitVec 8) → BitVec 8 → List (BitVec 8)) (json : Json) :
    Outcome (List (BitVec 8)) :=
  match json with
  | .string text => .ok ((hexToChars text).foldl insert [])
  | _ => throwing (notConverted "array")

/-- `Common::Buffer` and the other sequences. -/
theorem jsonToValue_chars {schema : Schema} (program : Program schema) (json : Json)
    (old : Val schema .chars) :
    jsonToValue program .chars json old =
      (jsonToChars (fun object value => object ++ [value]) json).map Val.chars := by
  cases json with
  | string text =>
      rw [jsonToValue, jsonToChars, foldl_of_appends fun _ _ _ _ => rfl]
      rfl
  | _ =>
      rw [jsonToValue]
      · rfl
      · intro text impossible
        cases impossible

/-- The digits of one byte, read alone: an `int` takes a byte below 128, and a negative
`char` was written with the eight digits of a number above its range. -/
theorem extract_hexByte (byte : BitVec 8) :
    ∃ digits, hexByte byte = digits ++ [' '] ∧ digits.dropWhile isSpace ≠ [] ∧
      '\x00' ∉ digits ∧
      extract digits = ⟨if byte.toNat < 128 then byte.toNat else 2147483647, byte.toNat < 128, []⟩ := by
  have all : ∀ number : Fin 256,
      let digits := Nat.toDigits 16 ((BitVec.ofFin number : BitVec 8).signExtend 32).toNat
      let text := List.replicate (2 - digits.length) '0' ++ digits
      text.dropWhile isSpace ≠ [] ∧ '\x00' ∉ text ∧
        extract text = ⟨if number.val < 128 then number.val else 2147483647, number.val < 128, []⟩ := by
    decide +kernel
  exact ⟨_, rfl, all byte.toFin⟩

/-- What the loop of the decoder makes of the bytes of the encoder: the blank at the end
gives one more byte, and a negative `char` is the last one that is read. -/
def charsReadBack : List (BitVec 8) → List (BitVec 8)
  | [] => [0]
  | byte :: rest => if byte.toNat < 128 then byte :: charsReadBack rest else [255]

theorem bytes_encoded (values : List (BitVec 8)) :
    HexStream.bytes (values.flatMap hexByte) = charsReadBack values := by
  induction values with
  | nil =>
      rw [HexStream.bytes]
      rfl
  | cons byte rest ih =>
      obtain ⟨digits, written, some, -, read⟩ := extract_hexByte byte
      have text : (byte :: rest).flatMap hexByte = digits ++ ' ' :: rest.flatMap hexByte := by
        rw [List.flatMap_cons, written, List.append_assoc]
        rfl
      rw [text, HexStream.bytes, HexStream.extract_append some, read, charsReadBack]
      by_cases low : byte.toNat < 128
      · simp only [low, decide_true, ↓reduceIte, List.nil_append, ne_eq, reduceCtorEq,
          not_false_eq_true, and_self, HexStream.bytes_blank, ih, BitVec.ofInt_natCast,
          BitVec.ofNat_toNat, BitVec.setWidth_eq]
      · simp only [low, decide_false, Bool.false_eq_true, false_and, ↓reduceIte]
        rfl

theorem hexToChars_charsText (values : List (BitVec 8)) :
    hexToChars (charsText values) = if values = [] then [] else charsReadBack values := by
  have whole : '\x00' ∉ (charsText values).toList := by
    rw [charsText, String.toList_ofList, List.mem_flatMap]
    rintro ⟨byte, -, member⟩
    obtain ⟨digits, written, -, plain, -⟩ := extract_hexByte byte
    rw [written] at member
    simp [plain] at member
  cases values with
  | nil => rfl
  | cons byte rest =>
      obtain ⟨digits, written, some, -, -⟩ := extract_hexByte byte
      have longer : (charsText (byte :: rest)).isEmpty = false := by
        rw [charsText, List.flatMap_cons, written]
        simp
      rw [hexToChars, longer, cStr_eq whole, charsText, String.toList_ofList, bytes_encoded]
      rfl

/-- Only a last byte 255 behind bytes below 128 is read back, because the byte that ends the
loop is 255 as well. -/
theorem charsReadBack_eq_iff (values : List (BitVec 8)) :
    charsReadBack values = values ↔
      ∃ low, values = low ++ [255] ∧ ∀ byte ∈ low, byte.toNat < 128 := by
  induction values with
  | nil => simp [charsReadBack]
  | cons byte rest ih =>
      rw [charsReadBack]
      by_cases low : byte.toNat < 128
      · rw [if_pos low, List.cons.injEq, ih]
        constructor
        · rintro ⟨-, front, rfl, below⟩
          exact ⟨byte :: front, rfl, by simpa [low] using below⟩
        · rintro ⟨front, split, below⟩
          cases front with
          | nil =>
              cases split
              exact absurd low (by decide)
          | cons first front =>
              cases split
              exact ⟨rfl, front, rfl, fun other member => below other (List.mem_cons_of_mem _ member)⟩
      · rw [if_neg low]
        constructor
        · intro same
          cases same
          exact ⟨[], rfl, by simp⟩
        · rintro ⟨front, split, below⟩
          cases front with
          | nil =>
              cases split
              rfl
          | cons first front =>
              cases split
              exact absurd (below byte (by simp)) low

/-- No container of `char` is read back: the encoder puts its string into an array and the
decoder wants the string. The string itself would be read back only from the empty container
and from bytes below 128 with one byte 255 behind them. -/
theorem chars_are_never_read_back (insert : List (BitVec 8) → BitVec 8 → List (BitVec 8))
    (values : List (BitVec 8)) :
    jsonToChars insert (ofChars values) ≠ .ok values ∧
      jsonToChars insert (ofChars values) = throwing (notConverted "array") ∧
      ofChars values = .array [.string (charsText values)] ∧
      (hexToChars (charsText values) = values ↔
        values = [] ∨ ∃ low, values = low ++ [255] ∧ ∀ byte ∈ low, byte.toNat < 128) := by
  refine ⟨throwing_ne_ok _ _, rfl, rfl, ?_⟩
  rw [hexToChars_charsText]
  by_cases empty : values = []
  · simp [empty]
  · simp only [empty, ↓reduceIte, false_or]
    exact charsReadBack_eq_iff values

/-- `Common::Buffer{'A'}` -/
theorem buffer_is_not_read_back :
    valueToJson pointProgram (Val.chars [0x41] : Val pointSchema .chars) =
        .ok (.array [.string "41 "]) ∧
      jsonToValue pointProgram .chars (.array [.string "41 "]) (.chars []) ≠
        .ok (.chars [0x41]) := by
  refine ⟨rfl, ?_⟩
  rw [jsonToValue_chars]
  exact throwing_ne_ok _ _

end Mif.Serialization
