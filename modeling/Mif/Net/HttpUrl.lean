import Mathlib.Data.List.Basic
import Mif.Common.Fault
import Mif.Net.Client
import Mif.Serialization.JsonValue

set_option autoImplicit false

/- `Http::Detail::Utility`: the coding of URLs and the parts of a request target. -/
namespace Mif.Net.Http.Utility

open Mif.Serialization (HexStream.extract)

/-- A `std::string` as an error message shows it. -/
def shown (text : Buffer) : String := String.ofList (text.map fun byte => Char.ofNat byte.toNat)

/-- `DecodeUrl`. The two characters behind a `%` are read by a stream, which may take only
one of them. -/
def decodeUrl : Buffer → Outcome Buffer
  | [] => .ok []
  | byte :: rest =>
      if byte = '%'.toUInt8 then
        match rest with
        | first :: second :: rest =>
            let code := HexStream.extract [Char.ofNat first.toNat, Char.ofNat second.toNat]
            if code.success then
              (decodeUrl rest).map ((UInt8.ofBitVec (BitVec.ofInt 8 code.value)) :: ·)
            else
              throwing ("[Mif::Net::Http::Detail::Utility::DecodeUrl] " ++
                "Failed to decode url. Error: failed to recognize the char.")
        | _ =>
            throwing ("[Mif::Net::Http::Detail::Utility::DecodeUrl] " ++
              "Failed to decode url. Error: bad encoding.")
      else if byte = '+'.toUInt8 then (decodeUrl rest).map (' '.toUInt8 :: ·)
      else (decodeUrl rest).map (byte :: ·)

/-- `std::isalnum` of the locale in use. For a `char` outside ASCII nothing is known. -/
structure CType where
  isAlnum : UInt8 → Bool
  ascii : ∀ byte : UInt8, byte < 128 →
    isAlnum byte = (Char.ofNat byte.toNat).isAlphanum

/-- The locale that a program starts with. -/
def CType.posix : CType where
  isAlnum byte := byte < 128 && (Char.ofNat byte.toNat).isAlphanum
  ascii := by
    intro byte small
    simp [small]

/-- A digit of a number written with `std::hex` and `std::uppercase`. -/
def hexDigit (value : Nat) : UInt8 :=
  if value < 10 then UInt8.ofNat ('0'.toNat + value) else UInt8.ofNat ('A'.toNat + value - 10)

/-- What `EncodeUrl` writes for one character. -/
def encodeChar (ctype : CType) (byte : UInt8) : Buffer :=
  if ctype.isAlnum byte ∨ byte ∈ ['-'.toUInt8, '_'.toUInt8, '.'.toUInt8, '~'.toUInt8] then [byte]
  else ['%'.toUInt8, hexDigit (byte.toNat / 16), hexDigit (byte.toNat % 16)]

/-- `EncodeUrl` -/
def encodeUrl (ctype : CType) (url : Buffer) : Buffer := url.flatMap (encodeChar ctype)

/-- `Target` -/
structure Target where
  path : Buffer
  query : Buffer
  deriving DecidableEq, Repr

namespace Target

/-- A character that ends the path. -/
def endsPath (byte : UInt8) : Bool := byte = '?'.toUInt8 || byte = '#'.toUInt8

/-- A character of the splitter. -/
def splits (byte : UInt8) : Bool := byte = '?'.toUInt8 || byte = '#'.toUInt8 || byte = '/'.toUInt8

/-- A character that the dot of the expression does not match. -/
def endsLine (byte : UInt8) : Bool := byte = '\n'.toUInt8 || byte = '\r'.toUInt8

/-- The constructor. The path takes as little as it can, up to a `?`, a `#` or the end; the
splitter takes as much as it can; the query is the rest. Every character has to be matched
by a dot or by one of the named ones, so a line break matches nowhere. -/
def new (url : Buffer) : Outcome Target :=
  if url.head? = some '/'.toUInt8 ∧ url.any endsLine = false then
    let rest := url.dropWhile fun byte => !endsPath byte
    .ok ⟨url.takeWhile fun byte => !endsPath byte, rest.dropWhile splits⟩
  else throwing ("Failed to parse url \"" ++ shown url ++ "\".")

end Target

theorem toNat_ofNat_byte (byte : UInt8) : (Char.ofNat byte.toNat).toNat = byte.toNat := by
  have bound := byte.toNat_lt
  have valid : byte.toNat.isValidChar := Or.inl (by omega)
  rw [Char.ofNat, dif_pos valid]
  rfl

theorem char_eq_iff (byte : UInt8) {char : Char} (small : char.toNat < 256) :
    Char.ofNat byte.toNat = char ↔ byte = char.toUInt8 := by
  have number : char.toUInt8.toNat = char.toNat := by
    rw [Char.toUInt8, UInt32.toNat_toUInt8]
    exact Nat.mod_eq_of_lt small
  have code := toNat_ofNat_byte byte
  rw [← UInt8.toNat_inj, ← Char.toNat_inj, number, code]

/-- A stream reads the two digits of a byte. -/
theorem extract_hexDigits (byte : UInt8) :
    (HexStream.extract [Char.ofNat (hexDigit (byte.toNat / 16)).toNat,
        Char.ofNat (hexDigit (byte.toNat % 16)).toNat]).success = true ∧
      UInt8.ofBitVec (BitVec.ofInt 8 (HexStream.extract
        [Char.ofNat (hexDigit (byte.toNat / 16)).toNat,
          Char.ofNat (hexDigit (byte.toNat % 16)).toNat]).value) = byte := by
  have all : ∀ number : Fin 256,
      (HexStream.extract [Char.ofNat (hexDigit (number.val / 16)).toNat,
          Char.ofNat (hexDigit (number.val % 16)).toNat]).success = true ∧
        UInt8.ofBitVec (BitVec.ofInt 8 (HexStream.extract
          [Char.ofNat (hexDigit (number.val / 16)).toNat,
            Char.ofNat (hexDigit (number.val % 16)).toNat]).value) =
          UInt8.ofNat number.val := by
    decide +kernel
  have this := all ⟨byte.toNat, byte.toNat_lt⟩
  rwa [UInt8.ofNat_toNat] at this

theorem decodeUrl_plain {byte : UInt8} (notPercent : byte ≠ '%'.toUInt8)
    (notPlus : byte ≠ '+'.toUInt8) (rest : Buffer) :
    decodeUrl (byte :: rest) = (decodeUrl rest).map (byte :: ·) := by
  conv_lhs => unfold decodeUrl
  simp only [notPercent, notPlus, ↓reduceIte]

/-- The characters that are written as they are mean nothing to `DecodeUrl`. -/
theorem kept_is_plain (ctype : CType) {byte : UInt8}
    (kept : ctype.isAlnum byte ∨
      byte ∈ ['-'.toUInt8, '_'.toUInt8, '.'.toUInt8, '~'.toUInt8]) :
    byte ≠ '%'.toUInt8 ∧ byte ≠ '+'.toUInt8 := by
  constructor
  · intro percent
    rw [percent, ctype.ascii '%'.toUInt8 (by decide)] at kept
    revert kept
    decide
  · intro plus
    rw [plus, ctype.ascii '+'.toUInt8 (by decide)] at kept
    revert kept
    decide

theorem decodeUrl_encodeChar (ctype : CType) (byte : UInt8) (rest : Buffer) :
    decodeUrl (encodeChar ctype byte ++ rest) = (decodeUrl rest).map (byte :: ·) := by
  unfold encodeChar
  split
  · rename_i kept
    obtain ⟨notPercent, notPlus⟩ := kept_is_plain ctype kept
    exact decodeUrl_plain notPercent notPlus rest
  · obtain ⟨success, value⟩ := extract_hexDigits byte
    simp only [List.cons_append, List.nil_append, decodeUrl, ↓reduceIte, success, value]

/-- An encoded text inside a longer one is decoded to itself. -/
theorem decodeUrl_encodeUrl_append (ctype : CType) (url rest : Buffer) :
    decodeUrl (encodeUrl ctype url ++ rest) = (decodeUrl rest).map (url ++ ·) := by
  induction url with
  | nil =>
      change decodeUrl rest = _
      cases decodeUrl rest <;> rfl
  | cons byte url ih =>
      have split : encodeUrl ctype (byte :: url) ++ rest =
          encodeChar ctype byte ++ (encodeUrl ctype url ++ rest) := by
        rw [encodeUrl, List.flatMap_cons, List.append_assoc, encodeUrl]
      rw [split, decodeUrl_encodeChar, ih]
      cases decodeUrl rest <;> rfl

end Mif.Net.Http.Utility
