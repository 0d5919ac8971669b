import Mif.Lib.Decimal
import Mif.Lib.Lexemes
import Mif.Serialization.JsonValue

set_option autoImplicit false

/- The pretty `Detail::Write` of a JSON value, against the compact text of the value. -/
namespace Mif.Serialization.JsonWriter

open Lexemes (Alphabet Inside Lexeme Plain Readable Spaced lex strip)

def indentSize : Nat := 4

/-- `indent` at a level. -/
def indent (level : Nat) : List Char := List.replicate (level * indentSize) ' '

/-- The line of the whole text ends, that of a value inside does not. -/
def lineEnd (level : Nat) : List Char := if level = 0 then ['\n'] else []

def ofBool (value : Bool) : List Char := if value then "true".toList else "false".toList

section

variable (serialize : String → List Char) (ofDouble : Float → List Char)

mutual

/-- `Detail::Write` with `MIF_PRETTY_JSON_WRITER`. Strings and keys are written with
`boost::json::serialize`. -/
def write : Json → Nat → List Char
  | .object members, level =>
      ['{', '\n'] ++ writeMembers members (level + 1) ++ ['\n'] ++ indent level ++ ['}'] ++
        lineEnd level
  | .array items, level =>
      ['[', '\n'] ++ writeItems items (level + 1) ++ ['\n'] ++ indent level ++ [']'] ++
        lineEnd level
  | .string text, level => serialize text ++ lineEnd level
  | .uint64 value, level => Decimal.print value.toNat ++ lineEnd level
  | .int64 value, level => Decimal.print value.toInt ++ lineEnd level
  | .double value, level => ofDouble value ++ lineEnd level
  | .bool value, level => ofBool value ++ lineEnd level
  | .null, level => "null".toList ++ lineEnd level

/-- The loop over an array, which breaks behind the last item. -/
def writeItems : List Json → Nat → List Char
  | [], _ => []
  | [item], level => indent level ++ write item level
  | item :: next :: rest, level =>
      indent level ++ write item level ++ [',', '\n'] ++ writeItems (next :: rest) level

/-- The loop over an object. -/
def writeMembers : List (String × Json) → Nat → List Char
  | [], _ => []
  | [(key, value)], level => indent level ++ serialize key ++ [':', ' '] ++ write value level
  | (key, value) :: next :: rest, level =>
      indent level ++ serialize key ++ [':', ' '] ++ write value level ++ [',', '\n'] ++
        writeMembers (next :: rest) level

end

mutual

/-- The lexemes that a value is written with. -/
def tokens : Json → List (List Char)
  | .object members => ['{'] :: (memberTokens members ++ [['}']])
  | .array items => ['['] :: (itemTokens items ++ [[']']])
  | .string text => [serialize text]
  | .uint64 value => [Decimal.print value.toNat]
  | .int64 value => [Decimal.print value.toInt]
  | .double value => [ofDouble value]
  | .bool value => [ofBool value]
  | .null => ["null".toList]

def itemTokens : List Json → List (List Char)
  | [] => []
  | [item] => tokens item
  | item :: next :: rest => tokens item ++ [','] :: itemTokens (next :: rest)

def memberTokens : List (String × Json) → List (List Char)
  | [] => []
  | [(key, value)] => serialize key :: [':'] :: tokens value
  | (key, value) :: next :: rest =>
      serialize key :: [':'] :: (tokens value ++ [','] :: memberTokens (next :: rest))

end

end

/-- The characters of JSON between string literals. -/
def alphabet : Alphabet Char where
  blank c := c = ' ' || c = '\t' || c = '\n' || c = '\r'
  mark c := c = '{' || c = '}' || c = '[' || c = ']' || c = ',' || c = ':'
  quote := '"'
  escape := '\\'
  markNotBlank := by
    intro c mark
    simp only [Bool.or_eq_true, decide_eq_true_eq, or_assoc] at mark
    rcases mark with rfl | rfl | rfl | rfl | rfl | rfl <;> decide
  quoteNotBlank := by decide
  quoteNotMark := by decide

/-- What is relied on of Boost.JSON: the text of a string is a literal in which quotes and
backslashes are escaped, and the text of a value is made of the texts of its parts, without
white space. -/
structure Documented (serializeValue : Json → List Char) (serialize : String → List Char) :
    Prop where
  literal : ∀ text, ∃ body, serialize text = '"' :: (body ++ ['"']) ∧
    Inside alphabet .literal body
  string : ∀ text, serializeValue (.string text) = serialize text
  uint64 : ∀ value, serializeValue (.uint64 value) = Decimal.print value.toNat
  int64 : ∀ value, serializeValue (.int64 value) = Decimal.print value.toInt
  bool : ∀ value, serializeValue (.bool value) = ofBool value
  null : serializeValue .null = "null".toList
  array : ∀ items, serializeValue (.array items) =
    '[' :: (List.intercalate [','] (items.map serializeValue) ++ [']'])
  object : ∀ members, serializeValue (.object members) =
    '{' :: (List.intercalate [','] (members.map fun member =>
      serialize member.1 ++ ':' :: serializeValue member.2) ++ ['}'])

/-- A value that has no `double` in it. -/
inductive WithoutDouble : Json → Prop
  | null : WithoutDouble .null
  | bool (value : Bool) : WithoutDouble (.bool value)
  | int64 (value : BitVec 64) : WithoutDouble (.int64 value)
  | uint64 (value : BitVec 64) : WithoutDouble (.uint64 value)
  | string (text : String) : WithoutDouble (.string text)
  | array {items : List Json} (all : ∀ item ∈ items, WithoutDouble item) :
      WithoutDouble (.array items)
  | object {members : List (String × Json)} (all : ∀ member ∈ members, WithoutDouble member.2) :
      WithoutDouble (.object members)

section

variable {serializeValue : Json → List Char} {serialize : String → List Char}
  {ofDouble : Float → List Char}

/- The pretty text consists of the lexemes of the value. -/
section

theorem blank_indent (level : Nat) : ∀ c ∈ indent level, alphabet.blank c = true := by
  intro c member
  rw [List.eq_of_mem_replicate member]
  decide

theorem blank_lineEnd (level : Nat) : ∀ c ∈ lineEnd level, alphabet.blank c = true := by
  intro c member
  unfold lineEnd at member
  split at member
  · rw [List.mem_singleton.mp member]
    decide
  · cases member

theorem spaced_indent (level : Nat) : Spaced alphabet [] (indent level) :=
  .nil (blank_indent level)

theorem spaced_lineEnd (level : Nat) : Spaced alphabet [] (lineEnd level) :=
  .nil (blank_lineEnd level)

/-- A lexeme at the end of the text or inside of it. -/
theorem spaced_line (lexeme : List Char) (level : Nat) :
    Spaced alphabet [lexeme] (lexeme ++ lineEnd level) :=
  (Spaced.one lexeme).append (spaced_lineEnd level)

theorem spaced_newline : Spaced alphabet [] ['\n'] := by
  apply Spaced.nil
  intro c member
  rw [List.mem_singleton.mp member]
  decide

/-- A mark with one blank behind it. -/
theorem spaced_mark {mark blank : Char} (white : alphabet.blank blank = true) :
    Spaced alphabet [[mark]] [mark, blank] := by
  apply (Spaced.one [mark]).append
  apply Spaced.nil
  intro c member
  rw [List.mem_singleton.mp member]
  exact white

theorem spaced_items {items : List Json}
    (all : ∀ item ∈ items, ∀ level,
      Spaced alphabet (tokens serialize ofDouble item) (write serialize ofDouble item level))
    (level : Nat) :
    Spaced alphabet (itemTokens serialize ofDouble items)
      (writeItems serialize ofDouble items level) := by
  induction items with
  | nil => exact Spaced.flatten []
  | cons item rest ih =>
      have first := (spaced_indent level).append (all item List.mem_cons_self level)
      cases rest with
      | nil => exact first
      | cons next rest =>
          have later := ih fun other member => all other (List.mem_cons_of_mem _ member)
          have comma : Spaced alphabet [[',']] [',', '\n'] := spaced_mark (by decide)
          have whole := (first.append comma).append later
          simpa [itemTokens, writeItems] using whole

theorem spaced_members {members : List (String × Json)}
    (all : ∀ member ∈ members, ∀ level, Spaced alphabet (tokens serialize ofDouble member.2)
      (write serialize ofDouble member.2 level))
    (level : Nat) :
    Spaced alphabet (memberTokens serialize ofDouble members)
      (writeMembers serialize ofDouble members level) := by
  induction members with
  | nil => exact Spaced.flatten []
  | cons member rest ih =>
      obtain ⟨key, value⟩ := member
      have colon : Spaced alphabet [[':']] [':', ' '] := spaced_mark (by decide)
      have named := ((spaced_indent level).append (Spaced.one (serialize key))).append colon
      have first := named.append (all (key, value) List.mem_cons_self level)
      cases rest with
      | nil => exact first
      | cons next rest =>
          have later := ih fun other member => all other (List.mem_cons_of_mem _ member)
          have comma : Spaced alphabet [[',']] [',', '\n'] := spaced_mark (by decide)
          have whole := (first.append comma).append later
          simpa [memberTokens, writeMembers] using whole

/-- One case for each kind of value; the text of a container is its lines one behind the
other. -/
theorem spaced_write {json : Json} (plain : WithoutDouble json) (level : Nat) :
    Spaced alphabet (tokens serialize ofDouble json) (write serialize ofDouble json level) := by
  induction plain generalizing level with
  | null => exact spaced_line "null".toList level
  | bool value => exact spaced_line (ofBool value) level
  | int64 value => exact spaced_line (Decimal.print value.toInt) level
  | uint64 value => exact spaced_line (Decimal.print value.toNat) level
  | string text => exact spaced_line (serialize text) level
  | array all ih =>
      have opened : Spaced alphabet [['[']] ['[', '\n'] := spaced_mark (by decide)
      have filled := (opened.append (spaced_items ih (level + 1))).append spaced_newline
      have closed := (filled.append (spaced_indent level)).append (Spaced.one [']'])
      have whole := closed.append (spaced_lineEnd level)
      simpa [tokens, write] using whole
  | object all ih =>
      have opened : Spaced alphabet [['{']] ['{', '\n'] := spaced_mark (by decide)
      have filled := (opened.append (spaced_members ih (level + 1))).append spaced_newline
      have closed := (filled.append (spaced_indent level)).append (Spaced.one ['}'])
      have whole := closed.append (spaced_lineEnd level)
      simpa [tokens, write] using whole

end

/- The lexemes make up the compact text. -/
section

theorem flatten_itemTokens {items : List Json}
    (all : ∀ item ∈ items, (tokens serialize ofDouble item).flatten = serializeValue item) :
    (itemTokens serialize ofDouble items).flatten =
      List.intercalate [','] (items.map serializeValue) := by
  induction items with
  | nil => rfl
  | cons item rest ih =>
      have first := all item List.mem_cons_self
      cases rest with
      | nil => rw [itemTokens, first, List.map_singleton, List.intercalate_singleton]
      | cons next rest =>
          have later := ih fun other member => all other (List.mem_cons_of_mem _ member)
          rw [itemTokens, List.flatten_append, List.flatten_cons, first, later]
          simp [List.intercalate_cons_cons]

theorem flatten_memberTokens {members : List (String × Json)}
    (all : ∀ member ∈ members,
      (tokens serialize ofDouble member.2).flatten = serializeValue member.2) :
    (memberTokens serialize ofDouble members).flatten =
      List.intercalate [','] (members.map fun member =>
        serialize member.1 ++ ':' :: serializeValue member.2) := by
  induction members with
  | nil => rfl
  | cons member rest ih =>
      obtain ⟨key, value⟩ := member
      have first := all (key, value) List.mem_cons_self
      cases rest with
      | nil =>
          rw [memberTokens, List.flatten_cons, List.flatten_cons, first, List.map_singleton,
            List.intercalate_singleton]
          rfl
      | cons next rest =>
          have later := ih fun other member => all other (List.mem_cons_of_mem _ member)
          rw [memberTokens, List.flatten_cons, List.flatten_cons, List.flatten_append,
            List.flatten_cons, first, later]
          simp [List.intercalate_cons_cons]

theorem flatten_tokens (documented : Documented serializeValue serialize) {json : Json}
    (plain : WithoutDouble json) :
    (tokens serialize ofDouble json).flatten = serializeValue json := by
  induction plain with
  | null => simp [tokens, documented.null]
  | bool value => simp [tokens, documented.bool]
  | int64 value => simp [tokens, documented.int64]
  | uint64 value => simp [tokens, documented.uint64]
  | string text => simp [tokens, documented.string]
  | array all ih => simp [tokens, documented.array, flatten_itemTokens ih]
  | object all ih => simp [tokens, documented.object, flatten_memberTokens ih]

end

/- The lexemes can be told apart. -/
section

theorem plain_of_letter {char : Char} (letter : char = '-' ∨ char.isAlphanum = true) :
    Plain alphabet char := by
  have different : ∀ other : Char, other ≠ '-' → other.isAlphanum = false → char ≠ other := by
    intro other minus sign same
    rw [same] at letter
    rcases letter with same | letter
    · exact minus same
    · rw [sign] at letter
      cases letter
  refine ⟨?_, ?_, different '"' (by decide) (by decide)⟩
  · simp [alphabet, different]
  · simp [alphabet, different]

/-- Texts of letters and digits, with a minus or none. -/
theorem lexeme_of_letters {text : List Char} (nonempty : text ≠ [])
    (letters : ∀ char ∈ text, char = '-' ∨ char.isAlphanum = true) : Lexeme alphabet text := by
  cases text with
  | nil => exact absurd rfl nonempty
  | cons char rest => exact .word fun other member => plain_of_letter (letters other member)

theorem lexeme_print (number : Int) : Lexeme alphabet (Decimal.print number) := by
  obtain ⟨char, rest, shape, -⟩ := Decimal.head_of_print number
  apply lexeme_of_letters
  · rw [shape]
    exact List.cons_ne_nil char rest
  · intro char member
    rcases Decimal.mem_print member with minus | digit
    · exact Or.inl minus
    · exact Or.inr (by rw [Char.isAlphanum, digit, Bool.or_true])

theorem lexeme_of_name {text : List Char} (nonempty : text ≠ [])
    (letters : text.all Char.isAlphanum = true) : Lexeme alphabet text :=
  lexeme_of_letters nonempty fun char member => Or.inr (List.all_eq_true.mp letters char member)

theorem lexeme_ofBool (value : Bool) : Lexeme alphabet (ofBool value) := by
  cases value with
  | true => exact lexeme_of_name (by decide) (by decide)
  | false => exact lexeme_of_name (by decide) (by decide)

theorem lexeme_null : Lexeme alphabet "null".toList := lexeme_of_name (by decide) (by decide)

theorem lexeme_serialize (documented : Documented serializeValue serialize) (text : String) :
    Lexeme alphabet (serialize text) := by
  obtain ⟨body, shape, inside⟩ := documented.literal text
  rw [shape]
  exact .literal inside

theorem readable_items {items : List Json}
    (all : ∀ item ∈ items, Readable alphabet (tokens serialize ofDouble item)) :
    Readable alphabet (itemTokens serialize ofDouble items) := by
  induction items with
  | nil => exact Readable.nil
  | cons item rest ih =>
      have first := all item List.mem_cons_self
      cases rest with
      | nil => exact first
      | cons next rest =>
          have later := ih fun other member => all other (List.mem_cons_of_mem _ member)
          exact first.append_mark (by decide) later

theorem readable_members (documented : Documented serializeValue serialize)
    {members : List (String × Json)}
    (all : ∀ member ∈ members, Readable alphabet (tokens serialize ofDouble member.2)) :
    Readable alphabet (memberTokens serialize ofDouble members) := by
  induction members with
  | nil => exact Readable.nil
  | cons member rest ih =>
      obtain ⟨key, value⟩ := member
      have named := Readable.one (lexeme_serialize documented key)
      have first : Readable alphabet
          (serialize key :: [':'] :: tokens serialize ofDouble value) :=
        named.append_mark (by decide) (all (key, value) List.mem_cons_self)
      cases rest with
      | nil => exact first
      | cons next rest =>
          have later := ih fun other member => all other (List.mem_cons_of_mem _ member)
          exact first.append_mark (by decide) later

theorem readable_tokens (documented : Documented serializeValue serialize) {json : Json}
    (plain : WithoutDouble json) : Readable alphabet (tokens serialize ofDouble json) := by
  induction plain with
  | null => exact Readable.one lexeme_null
  | bool value => exact Readable.one (lexeme_ofBool value)
  | int64 value => exact Readable.one (lexeme_print _)
  | uint64 value => exact Readable.one (lexeme_print _)
  | string text => exact Readable.one (lexeme_serialize documented text)
  | array all ih =>
      have closing : alphabet.mark ']' = true := by decide
      exact Readable.nil.append_mark (by decide)
        ((readable_items ih).append_mark closing Readable.nil)
  | object all ih =>
      have closing : alphabet.mark '}' = true := by decide
      exact Readable.nil.append_mark (by decide)
        ((readable_members documented ih).append_mark closing Readable.nil)

end

/-- Without the white space outside of strings the pretty text is the compact one; and a parser
to which that white space means nothing makes the same of both. -/
theorem pretty_agrees (documented : Documented serializeValue serialize)
    (ofDouble : Float → List Char) {json : Json} (plain : WithoutDouble json) (level : Nat) :
    strip alphabet .outside (write serialize ofDouble json level) = serializeValue json ∧
      ∀ {α : Type} (parse : List Char → α),
        (∀ one two, lex alphabet .outside one = lex alphabet .outside two →
          parse one = parse two) →
        parse (write serialize ofDouble json level) = parse (serializeValue json) := by
  have quoted : alphabet.quote ≠ alphabet.escape := by decide
  have pretty : Spaced alphabet (tokens serialize ofDouble json)
      (write serialize ofDouble json level) := spaced_write plain level
  have compact : Spaced alphabet (tokens serialize ofDouble json) (serializeValue json) := by
    rw [← flatten_tokens documented plain]
    exact Spaced.flatten _
  have readable : Readable alphabet (tokens serialize ofDouble json) :=
    readable_tokens documented plain
  constructor
  · rw [Lexemes.strip_of_spaced quoted pretty readable, flatten_tokens documented plain]
  · intro α parse blind
    apply blind
    rw [Lexemes.lex_of_spaced quoted pretty readable, Lexemes.lex_of_spaced quoted compact readable]

end

/-- A serializer for texts without control characters. -/
def escapeText (text : String) : List Char :=
  '"' :: (text.toList.flatMap escapeChar ++ ['"'])
where
  escapeChar (char : Char) : List Char :=
    if char = '"' ∨ char = '\\' then ['\\', char] else [char]

theorem inside_escapeText (text : List Char) :
    Inside alphabet .literal (text.flatMap escapeText.escapeChar) := by
  induction text with
  | nil => trivial
  | cons char rest ih =>
      rw [List.flatMap_cons, escapeText.escapeChar]
      by_cases special : char = '"' ∨ char = '\\'
      · rw [if_pos special]
        exact Or.inl ⟨rfl, ih⟩
      · rw [if_neg special]
        rw [not_or] at special
        exact Or.inr ⟨special.2, special.1, ih⟩

/-- The text of a value that is made of its lexemes. -/
def compactText (json : Json) : List Char := (tokens escapeText (fun _ => []) json).flatten

theorem documented_compactText : Documented compactText escapeText where
  literal text := ⟨_, rfl, inside_escapeText text.toList⟩
  string text := by simp [compactText, tokens]
  uint64 value := by simp [compactText, tokens]
  int64 value := by simp [compactText, tokens]
  bool value := by simp [compactText, tokens]
  null := by simp [compactText, tokens]
  array items := by
    have inner : (itemTokens escapeText (fun _ => []) items).flatten =
        List.intercalate [','] (items.map compactText) := flatten_itemTokens fun _ _ => rfl
    simp [compactText, tokens, inner]
  object members := by
    have inner : (memberTokens escapeText (fun _ => []) members).flatten =
        List.intercalate [','] (members.map fun member =>
          escapeText member.1 ++ ':' :: compactText member.2) :=
      flatten_memberTokens fun _ _ => rfl
    simp [compactText, tokens, inner]

/-- A member whose name has a blank in it, and an empty array. -/
def sample : Json := .object [("a b", .array []), ("c", .int64 7)]

theorem pretty_agrees_sample :
    strip alphabet .outside (write escapeText (fun _ => []) sample 0) =
      ['{', '"', 'a', ' ', 'b', '"', ':', '[', ']', ',', '"', 'c', '"', ':', '7', '}'] := by
  have plain : WithoutDouble sample := by
    apply WithoutDouble.object
    intro member listed
    simp only [List.mem_cons, List.not_mem_nil, or_false] at listed
    rcases listed with rfl | rfl
    · exact .array fun item impossible => absurd impossible List.not_mem_nil
    · exact .int64 7
  rw [(pretty_agrees documented_compactText (fun _ => []) plain 0).1]
  decide

end Mif.Serialization.JsonWriter
