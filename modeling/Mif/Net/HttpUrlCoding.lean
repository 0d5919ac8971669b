import Mathlib.Data.List.Basic
import Mif.Common.Fault
import Mif.Net.HttpUrl

set_option autoImplicit false

/- What one extraction makes of one or two characters. -/
namespace Mif.Serialization.HexStream

theorem digit_lt {char : Char} {value : Nat} (read : digit char = some value) : value < 16 := by
  unfold digit at read
  have nine : '9'.toNat = 57 := rfl
  have zero : '0'.toNat = 48 := rfl
  have lowerA : 'a'.toNat = 97 := rfl
  have lowerF : 'f'.toNat = 102 := rfl
  have upperA : 'A'.toNat = 65 := rfl
  have upperF : 'F'.toNat = 70 := rfl
  split at read
  · rename_i bounds
    cases read
    have high : char.toNat ≤ '9'.toNat := bounds.2
    omega
  · split at read
    · rename_i bounds
      cases read
      have high : char.toNat ≤ 'f'.toNat := bounds.2
      omega
    · split at read
      · rename_i bounds
        cases read
        have high : char.toNat ≤ 'F'.toNat := bounds.2
        omega
      · cases read

theorem not_isSpace_of_digit {char : Char} {value : Nat} (read : digit char = some value) :
    isSpace char = false := by
  rw [← Bool.not_eq_true]
  intro space
  rcases eq_of_isSpace space with rfl | rfl | rfl | rfl | rfl | rfl
  all_goals cases read

theorem not_sign_of_digit {char : Char} {value : Nat} (read : digit char = some value) :
    char ≠ '-' ∧ char ≠ '+' := by
  constructor
  · rintro rfl
    cases read
  · rintro rfl
    cases read

theorem store_byte {value : Int} (above : -256 < value) (below : value < 256)
    (rest : List Char) : store value rest = ⟨value, true, rest⟩ := by
  have notAbove : ¬ value > 2147483647 := by omega
  have notBelow : ¬ value < -2147483648 := by omega
  rw [store, if_neg notAbove, if_neg notBelow]

/-- A text with no blank and no sign in front. -/
theorem signed_of_plain {char : Char} (visible : isSpace char = false) (notMinus : char ≠ '-')
    (notPlus : char ≠ '+') (rest : List Char) :
    sign ((char :: rest).dropWhile isSpace) = (false, char :: rest) := by
  have kept : (char :: rest).dropWhile isSpace = char :: rest := by
    rw [List.dropWhile_cons_of_neg]
    simp [visible]
  rw [kept]
  simp [sign, notMinus, notPlus]

/-- The number behind blanks and sign. -/
theorem extract_of_signed {text body unsigned rest : List Char} {negative zero : Bool}
    {value count : Nat} (signed : sign (text.dropWhile isSpace) = (negative, body))
    (zeros : leadingZero body = (zero, unsigned))
    (taken : digits 0 0 unsigned = (value, count, rest)) :
    extract text =
      if count = 0 ∧ zero = false then ⟨0, false, rest⟩
      else store (if negative then -(value : Int) else value) rest := by
  simp only [extract, signed, zeros, taken]

/-- One character behind blanks and sign. -/
theorem success_of_one {text : List Char} {negative : Bool} {char : Char}
    (signed : sign (text.dropWhile isSpace) = (negative, [char])) :
    (extract text).success = (digit char).isSome := by
  by_cases zero : char = '0'
  · subst zero
    have taken : digits 0 0 [] = (0, 0, []) := rfl
    rw [extract_of_signed signed rfl taken, if_neg (by simp)]
    cases negative <;> rfl
  · have zeros : leadingZero [char] = (false, [char]) := by simp [leadingZero, zero]
    cases read : digit char with
    | some value =>
        have small := digit_lt read
        have taken : digits 0 0 [char] = (value, 1, []) := by simp [digits, read]
        rw [extract_of_signed signed zeros taken, if_neg (by simp),
          store_byte (by split <;> omega) (by split <;> omega)]
        rfl
    | none =>
        have taken : digits 0 0 [char] = (0, 0, [char]) := by simp [digits, read]
        rw [extract_of_signed signed zeros taken, if_pos (by simp)]
        rfl

/-- Nothing behind blanks and sign. -/
theorem success_of_none {text : List Char} {negative : Bool}
    (signed : sign (text.dropWhile isSpace) = (negative, [])) :
    (extract text).success = false := by
  have taken : digits 0 0 [] = (0, 0, []) := rfl
  rw [extract_of_signed signed rfl taken, if_pos (by simp)]

theorem success_single (char : Char) : (extract [char]).success = (digit char).isSome := by
  by_cases space : isSpace char = true
  · have skipped : [char].dropWhile isSpace = [] := by simp [space]
    rw [success_of_none (by rw [skipped]; rfl)]
    cases read : digit char with
    | some value =>
        rw [not_isSpace_of_digit read] at space
        cases space
    | none => rfl
  · by_cases minus : char = '-'
    · subst minus
      rfl
    · by_cases plus : char = '+'
      · subst plus
        rfl
      · exact success_of_one (signed_of_plain (by simpa using space) minus plus [])

/-- A digit in front that is not the zero of a `0x`. -/
theorem extract_digit {first second : Char} {high : Nat} (one : digit first = some high)
    (noPrefix : ¬ (first = '0' ∧ (second = 'x' ∨ second = 'X'))) :
    extract [first, second] =
      match digit second with
      | some low => ⟨(16 * high + low : Nat), true, []⟩
      | none => ⟨high, true, [second]⟩ := by
  have signed := signed_of_plain (not_isSpace_of_digit one) (not_sign_of_digit one).1
    (not_sign_of_digit one).2 [second]
  have highSmall := digit_lt one
  by_cases zero : first = '0'
  · subst zero
    cases one
    rw [not_and] at noPrefix
    have notPrefix := not_or.mp (noPrefix rfl)
    have zeros : leadingZero ['0', second] = (true, [second]) := by
      simp [leadingZero, notPrefix]
    cases two : digit second with
    | some low =>
        have lowSmall := digit_lt two
        have taken : digits 0 0 [second] = (low, 1, []) := by simp [digits, two]
        rw [extract_of_signed signed zeros taken, if_neg (by simp)]
        simp only [Bool.false_eq_true, ↓reduceIte]
        rw [store_byte (by omega) (by omega)]
        simp
    | none =>
        have taken : digits 0 0 [second] = (0, 0, [second]) := by simp [digits, two]
        rw [extract_of_signed signed zeros taken, if_neg (by simp)]
        rfl
  · have zeros : leadingZero [first, second] = (false, [first, second]) := by
      simp [leadingZero, zero]
    cases two : digit second with
    | some low =>
        have lowSmall := digit_lt two
        have taken : digits 0 0 [first, second] = (16 * high + low, 2, []) := by
          simp [digits, one, two]
        rw [extract_of_signed signed zeros taken, if_neg (by simp)]
        simp only [Bool.false_eq_true, ↓reduceIte]
        exact store_byte (by omega) (by omega) []
    | none =>
        have taken : digits 0 0 [first, second] = (high, 1, [second]) := by
          simp [digits, one, two]
        rw [extract_of_signed signed zeros taken, if_neg (by simp)]
        simp only [Bool.false_eq_true, ↓reduceIte]
        exact store_byte (by omega) (by omega) [second]

/-- A character in front that is no digit. -/
theorem success_of_not_digit {first : Char} (none : digit first = none) (second : Char) :
    (extract [first, second]).success =
      ((isSpace first || first = '+' || first = '-') && (digit second).isSome) := by
  by_cases space : isSpace first = true
  · have skipped : [first, second].dropWhile isSpace = [second].dropWhile isSpace := by
      rw [List.dropWhile_cons_of_pos space]
    have same : extract [first, second] = extract [second] := by
      simp only [extract, skipped]
    rw [same, success_single, space]
    simp
  · by_cases minus : first = '-'
    · subst minus
      rw [success_of_one (show sign _ = (true, [second]) from rfl)]
      simp
    · by_cases plus : first = '+'
      · subst plus
        rw [success_of_one (show sign _ = (false, [second]) from rfl)]
        simp
      · have notZero : first ≠ '0' := by
          rintro rfl
          cases none
        have signed := signed_of_plain (by simpa using space) minus plus [second]
        have zeros : leadingZero [first, second] = (false, [first, second]) := by
          simp [leadingZero, notZero]
        have taken : digits 0 0 [first, second] = (0, 0, [first, second]) := by
          simp [digits, none]
        rw [extract_of_signed signed zeros taken, if_pos (by simp)]
        simp [space, minus, plus]

end Mif.Serialization.HexStream

/- What `EncodeUrl` writes, and what `DecodeUrl` makes of any text. -/
namespace Mif.Net.Http.Utility

open Mif.Serialization (HexStream.extract HexStream.isSpace HexStream.digit
  HexStream.success_of_not_digit HexStream.extract_digit)

/-- Letters, digits, `-`, `_`, `.` and `~`. -/
def isUnreserved (byte : UInt8) : Bool :=
  (byte < 128 && (Char.ofNat byte.toNat).isAlphanum) ||
    byte ∈ ['-'.toUInt8, '_'.toUInt8, '.'.toUInt8, '~'.toUInt8]

def isUpperHex (byte : UInt8) : Bool :=
  ('0'.toUInt8 ≤ byte && byte ≤ '9'.toUInt8) || ('A'.toUInt8 ≤ byte && byte ≤ 'F'.toUInt8)

/-- A text of allowed characters and of percent signs with two hexadecimal digits each. -/
inductive Encoded (allowed : UInt8 → Prop) : Buffer → Prop
  | nil : Encoded allowed []
  | kept {byte : UInt8} {rest : Buffer} (plain : allowed byte) (more : Encoded allowed rest) :
      Encoded allowed (byte :: rest)
  | escape {high low : UInt8} {rest : Buffer} (first : isUpperHex high = true)
      (second : isUpperHex low = true) (more : Encoded allowed rest) :
      Encoded allowed ('%'.toUInt8 :: high :: low :: rest)

theorem isUpperHex_hexDigit {value : Nat} (small : value < 16) :
    isUpperHex (hexDigit value) = true := by
  have all : ∀ digit : Fin 16, isUpperHex (hexDigit digit.val) = true := by decide
  exact all ⟨value, small⟩

theorem Encoded.encodeChar {allowed : UInt8 → Prop} {ctype : CType} {byte : UInt8} {rest : Buffer}
    (plain : ctype.isAlnum byte ∨
      byte ∈ ['-'.toUInt8, '_'.toUInt8, '.'.toUInt8, '~'.toUInt8] → allowed byte)
    (more : Encoded allowed rest) : Encoded allowed (Utility.encodeChar ctype byte ++ rest) := by
  unfold Utility.encodeChar
  split
  · rename_i kept
    exact .kept (plain kept) more
  · have bound := byte.toNat_lt
    exact .escape (isUpperHex_hexDigit (by omega)) (isUpperHex_hexDigit (by omega)) more

theorem encoded_encodeUrl {allowed : UInt8 → Prop} {ctype : CType} {url : Buffer}
    (plain : ∀ byte ∈ url, ctype.isAlnum byte ∨
      byte ∈ ['-'.toUInt8, '_'.toUInt8, '.'.toUInt8, '~'.toUInt8] → allowed byte) :
    Encoded allowed (encodeUrl ctype url) := by
  induction url with
  | nil => exact .nil
  | cons byte rest ih =>
      rw [encodeUrl, List.flatMap_cons]
      apply Encoded.encodeChar (plain byte List.mem_cons_self)
      exact ih fun other member => plain other (List.mem_cons_of_mem _ member)

theorem unreserved_of_kept {ctype : CType} {byte : UInt8} (ascii : byte < 128)
    (kept : ctype.isAlnum byte ∨
      byte ∈ ['-'.toUInt8, '_'.toUInt8, '.'.toUInt8, '~'.toUInt8]) :
    isUnreserved byte = true := by
  rcases kept with alnum | named
  · rw [ctype.ascii byte ascii] at alnum
    simp [isUnreserved, ascii, alnum]
  · simp only [isUnreserved, decide_eq_true named, Bool.or_true]

/-- Every byte string is decoded from its encoding, whatever the locale says about bytes
outside ASCII; the encoding of an ASCII text has unreserved characters and escapes only, and
other encodings have at most bytes outside ASCII besides. -/
theorem url_round_trip (ctype : CType) (url : Buffer) :
    decodeUrl (encodeUrl ctype url) = .ok url ∧
      Encoded (fun byte => isUnreserved byte = true ∨ 128 ≤ byte) (encodeUrl ctype url) ∧
      ((∀ byte ∈ url, byte < 128) →
        Encoded (fun byte => isUnreserved byte = true) (encodeUrl ctype url)) := by
  refine ⟨?_, ?_, ?_⟩
  · have whole := decodeUrl_encodeUrl_append ctype url []
    simpa [decodeUrl, Except.map] using whole
  · apply encoded_encodeUrl
    intro byte _ kept
    by_cases ascii : byte < 128
    · exact Or.inl (unreserved_of_kept ascii kept)
    · exact Or.inr (UInt8.not_lt.mp ascii)
  · intro ascii
    apply encoded_encodeUrl
    exact fun byte member kept => unreserved_of_kept (ascii byte member) kept

/-- The text `a b`. -/
theorem url_round_trip_ascii :
    decodeUrl (encodeUrl .posix ['a'.toUInt8, ' '.toUInt8, 'b'.toUInt8]) =
        .ok ['a'.toUInt8, ' '.toUInt8, 'b'.toUInt8] ∧
      Encoded (fun byte => isUnreserved byte = true)
        (encodeUrl .posix ['a'.toUInt8, ' '.toUInt8, 'b'.toUInt8]) := by
  obtain ⟨decoded, -, encoded⟩ := url_round_trip .posix ['a'.toUInt8, ' '.toUInt8, 'b'.toUInt8]
  have ascii : ∀ byte ∈ ['a'.toUInt8, ' '.toUInt8, 'b'.toUInt8], byte < 128 := by
    intro byte member
    simp only [List.mem_cons, List.not_mem_nil, or_false] at member
    rcases member with rfl | rfl | rfl
    all_goals decide
  exact ⟨decoded, encoded ascii⟩

/-- The value of a hexadecimal digit. -/
def hexValue (byte : UInt8) : Option Nat := HexStream.digit (Char.ofNat byte.toNat)

/-- The decoding of a text in which every percent sign stands before two hexadecimal digits. -/
def wellFormed : Buffer → Option Buffer
  | [] => some []
  | byte :: rest =>
      if byte = '%'.toUInt8 then
        match rest with
        | first :: second :: rest =>
            match hexValue first, hexValue second with
            | some high, some low => (wellFormed rest).map (UInt8.ofNat (16 * high + low) :: ·)
            | _, _ => none
        | _ => none
      else if byte = '+'.toUInt8 then (wellFormed rest).map (' '.toUInt8 :: ·)
      else (wellFormed rest).map (byte :: ·)

/-- A text is decoded when its escapes are well formed, and otherwise refused. -/
def DecodedExactly (url : Buffer) : Prop :=
  match wellFormed url with
  | some text => decodeUrl url = .ok text
  | none => ∃ what, decodeUrl url = throwing what

/-- The two characters behind each percent sign that a scan from the left meets; there may be
less than two behind the last one. -/
def escapes : Buffer → List (Option (UInt8 × UInt8))
  | [] => []
  | byte :: rest =>
      if byte = '%'.toUInt8 then
        match rest with
        | first :: second :: rest => some (first, second) :: escapes rest
        | _ => [none]
      else escapes rest

/-- Two hexadecimal digits. -/
def isDigits : Option (UInt8 × UInt8) → Bool
  | some (first, second) => (hexValue first).isSome && (hexValue second).isSome
  | none => false

/-- What a stream takes for a hexadecimal number: a digit in front, if it is not the zero of a
`0x`, or one digit behind a blank or a sign. -/
def isReadable : Option (UInt8 × UInt8) → Bool
  | some (first, second) =>
      if (hexValue first).isSome then
        !(first = '0'.toUInt8 && (second = 'x'.toUInt8 || second = 'X'.toUInt8))
      else
        (HexStream.isSpace (Char.ofNat first.toNat) || first = '+'.toUInt8 ||
          first = '-'.toUInt8) && (hexValue second).isSome
  | none => false

theorem decodeUrl_plus (rest : Buffer) :
    decodeUrl ('+'.toUInt8 :: rest) = (decodeUrl rest).map (' '.toUInt8 :: ·) := by
  conv_lhs => unfold decodeUrl
  rfl

theorem escapes_plain {byte : UInt8} (notPercent : byte ≠ '%'.toUInt8) (rest : Buffer) :
    escapes (byte :: rest) = escapes rest := by
  conv_lhs => unfold escapes
  simp only [notPercent, ↓reduceIte]

/-- Less than two characters. -/
theorem cut_off {rest : Buffer}
    (short : ∀ first second more, rest = first :: second :: more → False) :
    rest = [] ∨ ∃ byte, rest = [byte] := by
  cases rest with
  | nil => exact Or.inl rfl
  | cons first rest =>
      cases rest with
      | nil => exact Or.inr ⟨first, rfl⟩
      | cons second more => exact (short first second more rfl).elim

theorem escapes_cut {rest : Buffer}
    (short : ∀ first second more, rest = first :: second :: more → False) :
    escapes ('%'.toUInt8 :: rest) = [none] := by
  rcases cut_off short with rfl | ⟨byte, rfl⟩
  · rfl
  · rfl

theorem wellFormed_plain {byte : UInt8} (notPercent : byte ≠ '%'.toUInt8) (rest : Buffer) :
    wellFormed (byte :: rest) = (wellFormed rest).map
      ((if byte = '+'.toUInt8 then ' '.toUInt8 else byte) :: ·) := by
  conv_lhs => unfold wellFormed
  by_cases plus : byte = '+'.toUInt8
  · simp only [plus, ↓reduceIte]
    rfl
  · simp only [notPercent, plus, ↓reduceIte]

/-- Every other character, the plus included, gives one character. -/
theorem decodeUrl_other {byte : UInt8} (notPercent : byte ≠ '%'.toUInt8) (rest : Buffer) :
    decodeUrl (byte :: rest) = (decodeUrl rest).map
      ((if byte = '+'.toUInt8 then ' '.toUInt8 else byte) :: ·) := by
  by_cases plus : byte = '+'.toUInt8
  · rw [plus, decodeUrl_plus, if_pos rfl]
  · rw [decodeUrl_plain notPercent plus, if_neg plus]

/-- The stream reads a pair that is readable. -/
theorem success_pair (first second : UInt8) :
    (HexStream.extract [Char.ofNat first.toNat, Char.ofNat second.toNat]).success =
      isReadable (some (first, second)) := by
  have zero := char_eq_iff first (show '0'.toNat < 256 by decide)
  have lower := char_eq_iff second (show 'x'.toNat < 256 by decide)
  have upper := char_eq_iff second (show 'X'.toNat < 256 by decide)
  have plus := char_eq_iff first (show '+'.toNat < 256 by decide)
  have minus := char_eq_iff first (show '-'.toNat < 256 by decide)
  rw [isReadable]
  rcases Option.eq_none_or_eq_some (hexValue first) with one | ⟨high, one⟩
  · rw [HexStream.success_of_not_digit one, if_neg (by simp [one])]
    simp only [plus, minus, hexValue]
  · rw [if_pos (by simp [one])]
    by_cases hexPrefix : Char.ofNat first.toNat = '0' ∧
        (Char.ofNat second.toNat = 'x' ∨ Char.ofNat second.toNat = 'X')
    · have fails : (HexStream.extract [Char.ofNat first.toNat,
          Char.ofNat second.toNat]).success = false := by
        rcases hexPrefix with ⟨isZero, isLower | isUpper⟩
        · rw [isZero, isLower]
          decide
        · rw [isZero, isUpper]
          decide
      rw [zero, lower, upper] at hexPrefix
      rw [fails, ← Bool.decide_or, ← Bool.decide_and, decide_eq_true hexPrefix]
      rfl
    · have read : (HexStream.extract [Char.ofNat first.toNat,
          Char.ofNat second.toNat]).success = true := by
        rw [HexStream.extract_digit one hexPrefix]
        cases HexStream.digit (Char.ofNat second.toNat) <;> rfl
      rw [zero, lower, upper] at hexPrefix
      rw [read, ← Bool.decide_or, ← Bool.decide_and, decide_eq_false hexPrefix]
      rfl

/-- The value of two digits. -/
theorem extract_digits {first second : UInt8} {high low : Nat} (one : hexValue first = some high)
    (two : hexValue second = some low) :
    HexStream.extract [Char.ofNat first.toNat, Char.ofNat second.toNat] =
      ⟨(16 * high + low : Nat), true, []⟩ := by
  rw [hexValue] at one two
  rw [HexStream.extract_digit one, two]
  rintro ⟨-, letter | letter⟩
  · rw [letter] at two
    cases two
  · rw [letter] at two
    cases two

theorem not_isDigits_of_not_isReadable {pair : Option (UInt8 × UInt8)}
    (refused : isReadable pair = false) : isDigits pair = false := by
  cases pair with
  | none => rfl
  | some bytes =>
      rw [← success_pair] at refused
      rw [← Bool.not_eq_true]
      intro digits
      simp only [isDigits, Bool.and_eq_true] at digits
      obtain ⟨high, one⟩ := Option.isSome_iff_exists.mp digits.1
      obtain ⟨low, two⟩ := Option.isSome_iff_exists.mp digits.2
      rw [extract_digits one two] at refused
      cases refused

/-- An escape that the stream refuses, or one that is cut off, ends the decoding. -/
theorem decodeUrl_refuses {url : Buffer} (bad : ∃ pair ∈ escapes url, isReadable pair = false) :
    ∃ what, decodeUrl url = throwing what := by
  induction url using escapes.induct with
  | case1 => simp [escapes] at bad
  | case2 first second rest ih =>
      by_cases reads : isReadable (some (first, second)) = true
      · have later : ∃ pair ∈ escapes rest, isReadable pair = false := by
          simpa [escapes, reads] using bad
        obtain ⟨what, throws⟩ := ih later
        refine ⟨what, ?_⟩
        simp only [decodeUrl, ↓reduceIte, success_pair, reads, throws]
        rfl
      · rw [← success_pair] at reads
        simp only [decodeUrl, ↓reduceIte, reads]
        exact ⟨_, rfl⟩
  | case3 rest short =>
      rcases cut_off short with rfl | ⟨byte, rfl⟩
      · exact ⟨_, rfl⟩
      · exact ⟨_, rfl⟩
  | case4 byte rest notPercent ih =>
      rw [escapes_plain notPercent] at bad
      obtain ⟨what, throws⟩ := ih bad
      rw [decodeUrl_other notPercent, throws]
      exact ⟨what, rfl⟩

/-- Without such an escape a text comes out. -/
theorem decodeUrl_accepts {url : Buffer} (good : ∀ pair ∈ escapes url, isReadable pair = true) :
    ∃ text, decodeUrl url = .ok text := by
  induction url using escapes.induct with
  | case1 => exact ⟨[], rfl⟩
  | case2 first second rest ih =>
      simp only [escapes, ↓reduceIte, List.forall_mem_cons] at good
      obtain ⟨text, decoded⟩ := ih good.2
      have success := (success_pair first second).trans good.1
      simp only [decodeUrl, ↓reduceIte, success, decoded]
      exact ⟨_, rfl⟩
  | case3 rest short =>
      have cut : none ∈ escapes ('%'.toUInt8 :: rest) := by simp [escapes_cut short]
      cases good none cut
  | case4 byte rest notPercent ih =>
      rw [escapes_plain notPercent] at good
      obtain ⟨text, decoded⟩ := ih good
      rw [decodeUrl_other notPercent, decoded]
      exact ⟨_, rfl⟩

theorem wellFormed_eq_none {url : Buffer} (bad : ∃ pair ∈ escapes url, isDigits pair = false) :
    wellFormed url = none := by
  induction url using escapes.induct with
  | case1 => simp [escapes] at bad
  | case2 first second rest ih =>
      obtain ⟨pair, member, broken⟩ := bad
      simp only [escapes, ↓reduceIte, List.mem_cons] at member
      simp only [wellFormed, ↓reduceIte]
      cases one : hexValue first with
      | none => rfl
      | some high =>
          cases two : hexValue second with
          | none => rfl
          | some low =>
              have later : pair ∈ escapes rest := by
                apply member.resolve_left
                rintro rfl
                simp [isDigits, one, two] at broken
              simp only [ih ⟨pair, later, broken⟩, Option.map_none]
  | case3 rest short =>
      rcases cut_off short with rfl | ⟨byte, rfl⟩
      · rfl
      · rfl
  | case4 byte rest notPercent ih =>
      rw [escapes_plain notPercent] at bad
      rw [wellFormed_plain notPercent, ih bad]
      rfl

/-- With two digits in every escape the text is decoded as it should be. -/
theorem decodeUrl_wellFormed {url : Buffer} (good : ∀ pair ∈ escapes url, isDigits pair = true) :
    ∃ text, wellFormed url = some text ∧ decodeUrl url = .ok text := by
  induction url using escapes.induct with
  | case1 => exact ⟨[], rfl, rfl⟩
  | case2 first second rest ih =>
      simp only [escapes, ↓reduceIte, List.forall_mem_cons, isDigits, Bool.and_eq_true] at good
      obtain ⟨⟨one, two⟩, later⟩ := good
      obtain ⟨high, one⟩ := Option.isSome_iff_exists.mp one
      obtain ⟨low, two⟩ := Option.isSome_iff_exists.mp two
      obtain ⟨text, meant, decoded⟩ := ih later
      refine ⟨UInt8.ofNat (16 * high + low) :: text, ?_, ?_⟩
      · simp only [wellFormed, ↓reduceIte, one, two, meant, Option.map_some]
      · simp only [decodeUrl, ↓reduceIte, extract_digits one two, decoded, BitVec.ofInt_natCast]
        rfl
  | case3 rest short =>
      have cut : none ∈ escapes ('%'.toUInt8 :: rest) := by simp [escapes_cut short]
      cases good none cut
  | case4 byte rest notPercent ih =>
      rw [escapes_plain notPercent] at good
      obtain ⟨text, meant, decoded⟩ := ih good
      refine ⟨(if byte = '+'.toUInt8 then ' '.toUInt8 else byte) :: text, ?_, ?_⟩
      · rw [wellFormed_plain notPercent, meant]
        rfl
      · rw [decodeUrl_other notPercent, decoded]
        rfl

/-- The decoder does what its grammar says when it refuses, and when every escape that the
scan meets has two digits. It does not when every escape can be read and one is no pair of
digits. -/
theorem decodedExactly_iff (url : Buffer) :
    DecodedExactly url ↔ (∃ pair ∈ escapes url, isReadable pair = false) ∨
      ∀ pair ∈ escapes url, isDigits pair = true := by
  constructor
  · intro exact
    by_contra neither
    rw [not_or] at neither
    obtain ⟨readable, broken⟩ := neither
    have accepted : ∃ text, decodeUrl url = .ok text := by
      apply decodeUrl_accepts
      simpa using readable
    have malformed : wellFormed url = none := by
      apply wellFormed_eq_none
      simpa using broken
    obtain ⟨text, decoded⟩ := accepted
    rw [DecodedExactly, malformed] at exact
    obtain ⟨what, throws⟩ := exact
    rw [decoded] at throws
    cases throws
  · rintro (unreadable | digits)
    · have malformed : wellFormed url = none := by
        apply wellFormed_eq_none
        obtain ⟨pair, member, refused⟩ := unreadable
        exact ⟨pair, member, not_isDigits_of_not_isReadable refused⟩
      rw [DecodedExactly, malformed]
      exact decodeUrl_refuses unreadable
    · obtain ⟨text, meant, decoded⟩ := decodeUrl_wellFormed digits
      rw [DecodedExactly, meant]
      exact decoded

/-- `%4G` becomes the byte 4. -/
theorem decodeUrl_stops_early : ¬ ∀ url, DecodedExactly url := by
  intro all
  have exact := all ['%'.toUInt8, '4'.toUInt8, 'G'.toUInt8]
  have malformed : wellFormed ['%'.toUInt8, '4'.toUInt8, 'G'.toUInt8] = none := by decide
  have decoded : decodeUrl ['%'.toUInt8, '4'.toUInt8, 'G'.toUInt8] = .ok [4] := by decide
  rw [DecodedExactly, malformed] at exact
  obtain ⟨what, throws⟩ := exact
  rw [decoded] at throws
  cases throws

end Mif.Net.Http.Utility
