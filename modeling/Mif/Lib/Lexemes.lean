import Mathlib.Data.List.Basic
import Mathlib.Data.List.Chain

set_option autoImplicit false

/- Texts of marks, quoted literals and words, with blanks between them. -/
namespace Lexemes

/-- Which characters are blanks and marks, and which ones quote and escape. -/
structure Alphabet (α : Type) where
  blank : α → Bool
  mark : α → Bool
  quote : α
  escape : α
  markNotBlank : ∀ c, mark c = true → blank c = false
  quoteNotBlank : blank quote = false
  quoteNotMark : mark quote = false

/-- Where a reader is in a text. -/
inductive Place
  | outside
  | word
  | literal
  | escaped
  deriving DecidableEq, Repr

variable {α : Type} [DecidableEq α] (alphabet : Alphabet α)

/-- Where the reader is behind a character. -/
def next : Place → α → Place
  | .outside, c => between c
  | .word, c => between c
  | .literal, c =>
      if c = alphabet.escape then .escaped else if c = alphabet.quote then .outside else .literal
  | .escaped, _ => .literal
where
  between (c : α) : Place :=
    if alphabet.blank c || alphabet.mark c then .outside
    else if c = alphabet.quote then .literal else .word

/-- The text without the blanks that are outside of literals. -/
def strip : Place → List α → List α
  | _, [] => []
  | .outside, c :: rest =>
      if alphabet.blank c then strip (next alphabet .outside c) rest
      else c :: strip (next alphabet .outside c) rest
  | .word, c :: rest =>
      if alphabet.blank c then strip (next alphabet .word c) rest
      else c :: strip (next alphabet .word c) rest
  | .literal, c :: rest => c :: strip (next alphabet .literal c) rest
  | .escaped, c :: rest => c :: strip .literal rest

/-- A character in front of the first lexeme. -/
def extend (c : α) : List (List α) → List (List α)
  | [] => [[c]]
  | first :: others => (c :: first) :: others

/-- A character that does not belong to the lexeme before it. -/
def start (c : α) (tail : List (List α)) : List (List α) :=
  if alphabet.blank c then tail else if alphabet.mark c then [c] :: tail else extend c tail

/-- The lexemes of a text. Inside of one, what is left of it comes first. -/
def lex : Place → List α → List (List α)
  | .outside, [] => []
  | _, [] => [[]]
  | .outside, c :: rest => start alphabet c (lex (next alphabet .outside c) rest)
  | .word, c :: rest =>
      if next alphabet .word c = .word then extend c (lex .word rest)
      else [] :: start alphabet c (lex (next alphabet .word c) rest)
  | .literal, c :: rest =>
      if next alphabet .literal c = .outside then [c] :: lex .outside rest
      else extend c (lex (next alphabet .literal c) rest)
  | .escaped, c :: rest => extend c (lex .literal rest)

omit [DecidableEq α] in
theorem flatten_extend (c : α) (lexemes : List (List α)) :
    (extend c lexemes).flatten = c :: lexemes.flatten := by
  cases lexemes with
  | nil => rfl
  | cons first others => rfl

omit [DecidableEq α] in
theorem flatten_start (c : α) (tail : List (List α)) :
    (start alphabet c tail).flatten =
      if alphabet.blank c then tail.flatten else c :: tail.flatten := by
  unfold start
  split
  · rfl
  · split
    · rfl
    · exact flatten_extend c tail

/-- What is left of a text without its blanks are its lexemes. -/
theorem strip_eq_flatten (place : Place) (text : List α) :
    strip alphabet place text = (lex alphabet place text).flatten := by
  induction text generalizing place with
  | nil => cases place <;> rfl
  | cons c rest ih =>
      cases place with
      | outside => rw [strip, lex, flatten_start, ih]
      | word =>
          rw [strip, lex]
          by_cases inside : next alphabet .word c = .word
          · have solid : ¬ alphabet.blank c = true := by
              intro blank
              simp [next, next.between, blank] at inside
            rw [if_neg solid, if_pos inside, flatten_extend, inside, ih]
          · rw [if_neg inside, List.flatten_cons, List.nil_append, flatten_start, ih]
      | literal =>
          rw [strip, lex]
          by_cases closed : next alphabet .literal c = .outside
          · rw [if_pos closed, closed, ih]
            rfl
          · rw [if_neg closed, flatten_extend, ih]
      | escaped => rw [strip, lex, flatten_extend, ih]

/-- A character that words consist of. -/
def Plain (c : α) : Prop :=
  alphabet.blank c = false ∧ alphabet.mark c = false ∧ c ≠ alphabet.quote

/-- The inside of a literal: a reader that starts inside does not leave it. -/
def Inside : Place → List α → Prop
  | .literal, [] => True
  | .literal, c :: rest =>
      (c = alphabet.escape ∧ Inside .escaped rest) ∨
        (c ≠ alphabet.escape ∧ c ≠ alphabet.quote ∧ Inside .literal rest)
  | .escaped, _ :: rest => Inside .literal rest
  | _, _ => False

inductive Lexeme : List α → Prop
  | mark {c : α} (mark : alphabet.mark c = true) : Lexeme [c]
  | literal {body : List α} (inside : Inside alphabet .literal body) :
      Lexeme (alphabet.quote :: (body ++ [alphabet.quote]))
  | word {c : α} {rest : List α} (plain : ∀ d ∈ c :: rest, Plain alphabet d) : Lexeme (c :: rest)

/-- A lexeme that ends only where another one begins. -/
def Word (lexeme : List α) : Prop := ∃ c ∈ lexeme.head?, Plain alphabet c

/-- The lexemes in this order, with any blanks around them. -/
inductive Spaced : List (List α) → List α → Prop
  | nil {blanks : List α} (blank : ∀ c ∈ blanks, alphabet.blank c = true) : Spaced [] blanks
  | cons {blanks lexeme text : List α} {lexemes : List (List α)}
      (blank : ∀ c ∈ blanks, alphabet.blank c = true) (rest : Spaced lexemes text) :
      Spaced (lexeme :: lexemes) (blanks ++ (lexeme ++ text))

/-- No two words stand side by side. -/
def Separated (lexemes : List (List α)) : Prop :=
  lexemes.IsChain fun one two => ¬ (Word alphabet one ∧ Word alphabet two)

/-- Lexemes that a reader can tell apart even without blanks. -/
structure Readable (lexemes : List (List α)) : Prop where
  valid : ∀ lexeme ∈ lexemes, Lexeme alphabet lexeme
  separated : Separated alphabet lexemes

variable {alphabet}

/- One lexeme at the front of a text. -/
section

theorem lex_blanks {blanks : List α} (blank : ∀ c ∈ blanks, alphabet.blank c = true)
    (text : List α) : lex alphabet .outside (blanks ++ text) = lex alphabet .outside text := by
  induction blanks with
  | nil => rfl
  | cons c rest ih =>
      have first := blank c List.mem_cons_self
      rw [List.cons_append, lex, start, if_pos first, next, next.between, first, Bool.true_or,
        if_pos rfl]
      exact ih fun d member => blank d (List.mem_cons_of_mem _ member)

theorem lex_mark {c : α} (mark : alphabet.mark c = true) (text : List α) :
    lex alphabet .outside (c :: text) = [c] :: lex alphabet .outside text := by
  rw [lex, start, alphabet.markNotBlank c mark, if_neg Bool.false_ne_true, if_pos mark, next,
    next.between, mark, Bool.or_true, if_pos rfl]

/-- The inside of a literal belongs to it up to the quote. -/
theorem lex_inside {place : Place} {body : List α} (inside : Inside alphabet place body)
    (quoted : alphabet.quote ≠ alphabet.escape) (text : List α) :
    lex alphabet place (body ++ alphabet.quote :: text) =
      (body ++ [alphabet.quote]) :: lex alphabet .outside text := by
  induction body generalizing place with
  | nil =>
      cases place with
      | literal =>
          have closed : next alphabet .literal alphabet.quote = .outside := by
            rw [next, if_neg quoted, if_pos rfl]
          rw [List.nil_append, lex, if_pos closed]
          rfl
      | _ => cases inside
  | cons c rest ih =>
      cases place with
      | literal =>
          rw [List.cons_append, lex]
          rcases inside with ⟨escape, further⟩ | ⟨plain, quote, further⟩
          · have escaped : next alphabet .literal c = .escaped := by
              rw [next, if_pos escape]
            rw [escaped, if_neg (by decide), ih further]
            rfl
          · have literal : next alphabet .literal c = .literal := by
              rw [next, if_neg plain, if_neg quote]
            rw [literal, if_neg (by decide), ih further]
            rfl
      | escaped =>
          rw [List.cons_append, lex, ih inside]
          rfl
      | outside => cases inside
      | word => cases inside

theorem lex_literal {body : List α} (inside : Inside alphabet .literal body)
    (quoted : alphabet.quote ≠ alphabet.escape) (text : List α) :
    lex alphabet .outside (alphabet.quote :: (body ++ [alphabet.quote]) ++ text) =
      (alphabet.quote :: (body ++ [alphabet.quote])) :: lex alphabet .outside text := by
  have opened : next alphabet .outside alphabet.quote = .literal := by
    simp [next, next.between, alphabet.quoteNotBlank, alphabet.quoteNotMark]
  have split : alphabet.quote :: (body ++ [alphabet.quote]) ++ text =
      alphabet.quote :: (body ++ alphabet.quote :: text) := by
    rw [List.cons_append, List.append_assoc]
    rfl
  rw [split, lex, opened, lex_inside inside quoted, start, alphabet.quoteNotBlank,
    alphabet.quoteNotMark, if_neg Bool.false_ne_true, if_neg Bool.false_ne_true]
  rfl

/-- The text does not go on with a character of a word. -/
def Ends (alphabet : Alphabet α) (text : List α) : Prop := ∀ c ∈ text.head?, ¬ Plain alphabet c

theorem next_word_of_plain {c : α} (plain : Plain alphabet c) : next alphabet .word c = .word := by
  obtain ⟨blank, mark, quote⟩ := plain
  simp [next, next.between, blank, mark, quote]

theorem plain_of_next_word {c : α} (inside : next alphabet .word c = .word) :
    Plain alphabet c := by
  rw [next, next.between] at inside
  split at inside
  · cases inside
  · rename_i solid
    split at inside
    · cases inside
    · rename_i quote
      rw [Bool.or_eq_true, not_or, Bool.not_eq_true, Bool.not_eq_true] at solid
      exact ⟨solid.1, solid.2, quote⟩

theorem lex_word_inside {word : List α} (plain : ∀ c ∈ word, Plain alphabet c) {text : List α}
    (ends : Ends alphabet text) :
    lex alphabet .word (word ++ text) = word :: lex alphabet .outside text := by
  induction word with
  | nil =>
      cases text with
      | nil => rfl
      | cons c rest =>
          have outside : ¬ next alphabet .word c = .word := by
            intro inside
            exact ends c rfl (plain_of_next_word inside)
          exact if_neg outside
  | cons c rest ih =>
      have inside := next_word_of_plain (plain c List.mem_cons_self)
      rw [List.cons_append, lex, if_pos inside,
        ih fun d member => plain d (List.mem_cons_of_mem _ member)]
      rfl

theorem lex_word {c : α} {rest : List α} (plain : ∀ d ∈ c :: rest, Plain alphabet d)
    {text : List α} (ends : Ends alphabet text) :
    lex alphabet .outside (c :: rest ++ text) = (c :: rest) :: lex alphabet .outside text := by
  have first := plain c List.mem_cons_self
  have inside : next alphabet .outside c = .word := next_word_of_plain first
  rw [List.cons_append, lex, inside, start, first.1, first.2.1, if_neg Bool.false_ne_true,
    if_neg Bool.false_ne_true,
    lex_word_inside (fun d member => plain d (List.mem_cons_of_mem _ member)) ends]
  rfl

end

/- Texts that consist of given lexemes. -/
section

variable {lexemes further : List (List α)} {text behind : List α}

omit [DecidableEq α] in
theorem Spaced.pad {blanks : List α} (blank : ∀ c ∈ blanks, alphabet.blank c = true)
    (spaced : Spaced alphabet lexemes text) : Spaced alphabet lexemes (blanks ++ text) := by
  have both : ∀ {more : List α}, (∀ c ∈ more, alphabet.blank c = true) →
      ∀ c ∈ blanks ++ more, alphabet.blank c = true := by
    intro more also c member
    rcases List.mem_append.mp member with first | second
    · exact blank c first
    · exact also c second
  cases spaced with
  | nil more => exact .nil (both more)
  | cons more rest =>
      rw [← List.append_assoc]
      exact .cons (both more) rest

omit [DecidableEq α] in
theorem Spaced.append (first : Spaced alphabet lexemes text)
    (second : Spaced alphabet further behind) :
    Spaced alphabet (lexemes ++ further) (text ++ behind) := by
  induction first with
  | nil blank => exact second.pad blank
  | cons blank rest ih =>
      rw [List.append_assoc, List.append_assoc]
      exact .cons blank ih

omit [DecidableEq α] in
theorem Spaced.one (lexeme : List α) : Spaced alphabet [lexeme] lexeme := by
  have spaced : Spaced alphabet [lexeme] ([] ++ (lexeme ++ [])) :=
    .cons (fun _ impossible => absurd impossible List.not_mem_nil)
      (.nil fun _ impossible => absurd impossible List.not_mem_nil)
  rwa [List.nil_append, List.append_nil] at spaced

omit [DecidableEq α] in
/-- The lexemes without any blanks. -/
theorem Spaced.flatten (lexemes : List (List α)) : Spaced alphabet lexemes lexemes.flatten := by
  induction lexemes with
  | nil => exact .nil fun _ impossible => absurd impossible List.not_mem_nil
  | cons lexeme rest ih => exact (Spaced.one lexeme).append ih

omit [DecidableEq α] in
theorem not_word_mark {c : α} (mark : alphabet.mark c = true) : ¬ Word alphabet [c] := by
  rintro ⟨d, first, plain⟩
  cases first
  rw [plain.2.1] at mark
  cases mark

omit [DecidableEq α] in
/-- A mark keeps what is on its sides apart. -/
theorem separated_mark {c : α} (mark : alphabet.mark c = true)
    (before : Separated alphabet lexemes) (behind : Separated alphabet further) :
    Separated alphabet (lexemes ++ [c] :: further) := by
  refine List.IsChain.append before (behind.cons ?_) ?_
  · intro other _ words
    exact not_word_mark mark words.1
  · intro other _ first same words
    cases same
    exact not_word_mark mark words.2

omit [DecidableEq α] in
theorem not_plain_of_blank {c : α} (blank : alphabet.blank c = true) : ¬ Plain alphabet c := by
  intro plain
  rw [plain.1] at blank
  cases blank

omit [DecidableEq α] in
/-- A blank ends a word, and so does a lexeme that is none. -/
theorem Spaced.ends (spaced : Spaced alphabet lexemes text)
    (solid : ∀ lexeme ∈ lexemes.head?, lexeme ≠ [] ∧ ¬ Word alphabet lexeme) :
    Ends alphabet text := by
  intro c first
  cases spaced with
  | nil blank => exact not_plain_of_blank (blank c (List.mem_of_mem_head? first))
  | @cons blanks lexeme text lexemes blank rest =>
      cases blanks with
      | cons d others =>
          cases first
          exact not_plain_of_blank (blank c List.mem_cons_self)
      | nil =>
          obtain ⟨nonempty, noWord⟩ := solid lexeme rfl
          cases lexeme with
          | nil => exact absurd rfl nonempty
          | cons d others =>
              cases first
              exact fun plain => noWord ⟨c, rfl, plain⟩

omit [DecidableEq α] in
theorem Lexeme.ne_nil {lexeme : List α} (valid : Lexeme alphabet lexeme) : lexeme ≠ [] := by
  cases valid <;> exact List.cons_ne_nil _ _

/-- However lexemes are spaced, they are what a reader finds. -/
theorem lex_of_spaced (quoted : alphabet.quote ≠ alphabet.escape)
    (spaced : Spaced alphabet lexemes text) (readable : Readable alphabet lexemes) :
    lex alphabet .outside text = lexemes := by
  obtain ⟨valid, separated⟩ := readable
  induction spaced with
  | nil blank =>
      have nothing := lex_blanks blank []
      rwa [List.append_nil] at nothing
  | @cons blanks lexeme text lexemes blank rest ih =>
      have later := ih (fun other member => valid other (List.mem_cons_of_mem _ member))
        separated.tail
      rw [lex_blanks blank]
      cases valid lexeme List.mem_cons_self with
      | mark mark => rw [List.singleton_append, lex_mark mark, later]
      | literal inside => rw [lex_literal inside quoted, later]
      | word plain =>
          rw [lex_word plain, later]
          apply rest.ends
          intro other first
          have listed : other ∈ lexemes := List.mem_of_mem_head? first
          refine ⟨(valid other (List.mem_cons_of_mem _ listed)).ne_nil, ?_⟩
          intro word
          have apart := (List.isChain_cons.mp separated).1 other first
          exact apart ⟨⟨_, rfl, plain _ List.mem_cons_self⟩, word⟩

omit [DecidableEq α] in
theorem Readable.one {lexeme : List α} (valid : Lexeme alphabet lexeme) :
    Readable alphabet [lexeme] where
  valid := by
    intro other member
    rw [List.mem_singleton.mp member]
    exact valid
  separated := List.isChain_singleton lexeme

omit [DecidableEq α] in
theorem Readable.nil : Readable alphabet ([] : List (List α)) where
  valid := fun _ impossible => absurd impossible List.not_mem_nil
  separated := List.isChain_nil

omit [DecidableEq α] in
/-- A mark between two lists of lexemes. -/
theorem Readable.append_mark {c : α} (before : Readable alphabet lexemes)
    (mark : alphabet.mark c = true) (behind : Readable alphabet further) :
    Readable alphabet (lexemes ++ [c] :: further) where
  valid := by
    intro other member
    rcases List.mem_append.mp member with first | second
    · exact before.valid other first
    · rcases List.mem_cons.mp second with same | last
      · rw [same]
        exact .mark mark
      · exact behind.valid other last
  separated := separated_mark mark before.separated behind.separated

/-- The blanks of a text are all that it has beside its lexemes. -/
theorem strip_of_spaced (quoted : alphabet.quote ≠ alphabet.escape)
    (spaced : Spaced alphabet lexemes text) (readable : Readable alphabet lexemes) :
    strip alphabet .outside text = lexemes.flatten := by
  rw [strip_eq_flatten, lex_of_spaced quoted spaced readable]

end

end Lexemes
