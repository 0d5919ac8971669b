import Mathlib.Data.List.Basic
import Mif.Common.Fault
import Mif.Lib.Decimal
import Mif.Lib.SortedSet
import Mif.Net.HttpUrl
import Mif.Reflection.Integers
import Mif.Serialization.JsonValue

set_option autoImplicit false

/- The parameters of a request as values: `Converter::Url::Param` and what gets them. -/
namespace Mif.Net.Http

open Mif.Reflection (IntKind)
open Mif.Serialization (HexStream.isSpace HexStream.dropWhile_isSpace_of_solid)

variable {α : Type}

namespace Param

/-- The bytes of a text as characters. -/
def chars (value : Buffer) : List Char := value.map fun byte => Char.ofNat byte.toNat

/-- The number that `strtoll` reads: behind blanks, and whatever follows its digits. -/
def number (value : Buffer) : Option Int :=
  Decimal.leading ((chars value).dropWhile HexStream.isSpace)

/-- `std::stoll`, which throws when there is no number and when it is out of range. -/
def stoll (value : Buffer) : Outcome Int :=
  match number value with
  | none => throwing "stoll"
  | some number => if IntKind.int64.InRange number then .ok number else throwing "stoll"

/-- `Convert<std::string>` -/
def convertString (value : Buffer) : Outcome Buffer := .ok value

/-- `Convert<T>` of an integral type. The cast keeps the low bits. -/
def convertIntegral (kind : IntKind) (value : Buffer) : Outcome (BitVec kind.width) := do
  let number ← stoll value
  return BitVec.ofInt kind.width number

/-- The set `items`, in the order of the loop. -/
def items (value : Buffer) : List Buffer := SortedSet.ofList (value.splitOn ';'.toUInt8)

/-- `Convert<T>` of a sequence, with the conversion of its elements. -/
def convertIterable (convert : Buffer → Outcome α) (value : Buffer) : Outcome (List α) :=
  (items value).mapM convert

end Param

/-- `PlainText::Convert` -/
def PlainText.convert (convert : Buffer → Outcome α) (buffer : Buffer) : Outcome α :=
  if buffer.isEmpty then
    throwing "[Mif::Net::Http::Converter::Content::PlainText] No content."
  else convert buffer

/-- `Detail::Prm` -/
structure Prm (α : Type) where
  name : Buffer
  value : Option α
  deriving DecidableEq, Repr

namespace Prm

/-- The constructor with a name and a text. -/
def new (convert : Buffer → Outcome α) (name value : Buffer) : Outcome (Prm α) := do
  let value ← convert value
  return ⟨name, some value⟩

def get (prm : Prm α) : Outcome α :=
  match prm.value with
  | some value => .ok value
  | none =>
      throwing ("[Mif::Net::Http::WebService::Prm] \"" ++ Utility.shown prm.name ++
        "\" has no value.")

end Prm

/-- `WebServiceHandler::GetPrm`: the first parameter whose name has the checksum `id`, and
without one an empty `Prm`. -/
def getPrm (crc32str : Buffer → UInt32) (id : UInt32) (convert : Buffer → Outcome α)
    (params : List (Buffer × Buffer)) : Outcome (Prm α) :=
  match params.find? fun param => crc32str param.1 = id with
  | some (name, value) => Prm.new convert name value
  | none => .ok ⟨[], none⟩

namespace ParamPack

/-- `GetParam` of a field that is not optional. -/
def getParam (convert : Buffer → Outcome α) (name : Buffer) (params : List (Buffer × Buffer)) :
    Outcome α :=
  match params.lookup name with
  | none =>
      throwing ("[Mif::Net::Http::Detail::ParamPack::GetParam] \"" ++ Utility.shown name ++
        "\" not found.")
  | some value => convert value

/-- `GetParam` of an optional field. -/
def getOptionalParam (convert : Buffer → Outcome α) (name : Buffer)
    (params : List (Buffer × Buffer)) : Outcome (Option α) :=
  match params.lookup name with
  | none => .ok none
  | some value => (convert value).map some

end ParamPack

/-- A place that receives the parameter with the text `value`. -/
inductive Receiver (value : Buffer)
  | parameter (crc32str : Buffer → UInt32) (id : UInt32) (params : List (Buffer × Buffer))
      (name : Buffer)
      (found : (params.find? fun param => crc32str param.1 = id) = some (name, value))
  | field (params : List (Buffer × Buffer)) (name : Buffer)
      (found : params.lookup name = some value)
  | optionalField (params : List (Buffer × Buffer)) (name : Buffer)
      (found : params.lookup name = some value)

/-- The place has an integer type and holds this value of it. -/
def Receiver.Gets (kind : IntKind) {value : Buffer} (bits : BitVec kind.width) :
    Receiver value → Prop
  | parameter crc32str id params _ _ =>
      ∃ prm, getPrm crc32str id (Param.convertIntegral kind) params = .ok prm ∧ prm.get = .ok bits
  | field params name _ =>
      ParamPack.getParam (Param.convertIntegral kind) name params = .ok bits
  | optionalField params name _ =>
      ParamPack.getOptionalParam (Param.convertIntegral kind) name params = .ok (some bits)

/-- The place holds a number exactly when the text is a decimal literal of a number in the
range of the type, and then this number. -/
def Receiver.ExactOrRejected (kind : IntKind) {value : Buffer} (receiver : Receiver value) :
    Prop :=
  ∀ number, (∃ bits, receiver.Gets kind bits ∧ kind.value bits = number) ↔
    Decimal.literal (Param.chars value) = some number ∧ kind.InRange number

/-- The text is a literal of a number that the type and `long long` have in common, or it is
no literal of the type and begins with no number of `long long`. -/
def Param.Unambiguous (kind : IntKind) (value : Buffer) : Prop :=
  (∃ number, Decimal.literal (chars value) = some number ∧ kind.InRange number ∧
      IntKind.int64.InRange number) ∨
    (∀ number, Decimal.literal (chars value) = some number → ¬ kind.InRange number) ∧
      ∀ front, number value = some front → ¬ IntKind.int64.InRange front

namespace Param

theorem stoll_eq_ok {value : Buffer} {result : Int} :
    stoll value = .ok result ↔ number value = some result ∧ IntKind.int64.InRange result := by
  unfold stoll
  cases read : number value with
  | none => simp
  | some found =>
      by_cases inside : IntKind.int64.InRange found
      · simp only [inside, ↓reduceIte, Except.ok.injEq, Option.some.injEq]
        constructor
        · rintro rfl
          exact ⟨rfl, inside⟩
        · exact And.left
      · simp only [inside, ↓reduceIte, Option.some.injEq]
        refine iff_of_false (throwing_ne_ok _ _) ?_
        rintro ⟨rfl, fits⟩
        exact inside fits

theorem convertIntegral_eq_ok {kind : IntKind} {value : Buffer} {bits : BitVec kind.width} :
    convertIntegral kind value = .ok bits ↔ ∃ result, number value = some result ∧
      IntKind.int64.InRange result ∧ BitVec.ofInt kind.width result = bits := by
  rw [convertIntegral, bind_eq_ok]
  apply exists_congr
  intro result
  rw [stoll_eq_ok, and_assoc]
  exact and_congr_right fun _ => and_congr_right fun _ => Iff.of_eq (Except.ok.injEq _ _)

/-- A literal has nothing in front of its number. -/
theorem number_of_literal {value : Buffer} {result : Int}
    (read : Decimal.literal (chars value) = some result) : number value = some result := by
  obtain ⟨char, rest, shape, solid⟩ := Decimal.head_of_literal read
  have skipped := HexStream.dropWhile_isSpace_of_solid solid rest
  rw [number, shape, skipped, ← shape]
  exact Decimal.leading_of_literal read

end Param

theorem Receiver.gets_iff {kind : IntKind} {value : Buffer} (receiver : Receiver value)
    (bits : BitVec kind.width) :
    receiver.Gets kind bits ↔ Param.convertIntegral kind value = .ok bits := by
  cases receiver with
  | parameter crc32str id params name found =>
      simp only [Gets, getPrm, found, Prm.new, bind_eq_ok]
      constructor
      · rintro ⟨prm, ⟨converted, read, made⟩, got⟩
        cases made
        cases got
        exact read
      · intro read
        exact ⟨_, ⟨bits, read, rfl⟩, rfl⟩
  | field params name found => simp only [Gets, ParamPack.getParam, found]
  | optionalField params name found =>
      simp only [Gets, ParamPack.getOptionalParam, found]
      cases Param.convertIntegral kind value with
      | error fault => simp [Except.map]
      | ok read => simp [Except.map]

/-- Wherever an integer parameter is received, it is exact or rejected for the literals of
the type that `long long` holds, and for the other texts without a number of `long long` in
front. -/
theorem integer_parameters_exact_iff (kind : IntKind) {value : Buffer} (receiver : Receiver value) :
    receiver.ExactOrRejected kind ↔ Param.Unambiguous kind value := by
  simp only [Receiver.ExactOrRejected, receiver.gets_iff, Param.convertIntegral_eq_ok]
  constructor
  · intro exact
    by_cases literal : ∃ number, Decimal.literal (Param.chars value) = some number ∧
        kind.InRange number
    · obtain ⟨number, read, inside⟩ := literal
      obtain ⟨bits, ⟨result, found, fits, -⟩, -⟩ := (exact number).mpr ⟨read, inside⟩
      rw [Param.number_of_literal read] at found
      cases found
      exact Or.inl ⟨number, read, inside, fits⟩
    · refine Or.inr ⟨fun number read inside => literal ⟨number, read, inside⟩, ?_⟩
      intro result found fits
      have got := (exact (kind.value (BitVec.ofInt kind.width result))).mp
        ⟨_, ⟨result, found, fits, rfl⟩, rfl⟩
      exact literal ⟨_, got⟩
  · rintro (⟨common, read, inside, fits⟩ | ⟨refused, unread⟩) number
    · constructor
      · rintro ⟨bits, ⟨result, found, -, cast⟩, same⟩
        rw [Param.number_of_literal read] at found
        cases found
        have kept := (kind.value_ofInt_iff common).mpr inside
        rw [cast, same] at kept
        rw [kept]
        exact ⟨read, inside⟩
      · rintro ⟨again, -⟩
        rw [read] at again
        cases again
        exact ⟨_, ⟨common, Param.number_of_literal read, fits, rfl⟩,
          (kind.value_ofInt_iff common).mpr inside⟩
    · constructor
      · rintro ⟨bits, ⟨result, found, fits, -⟩, -⟩
        exact (unread result found fits).elim
      · rintro ⟨read, inside⟩
        exact (refused number read inside).elim

/-- The text `300` becomes the `std::uint8_t` 44. -/
theorem parameter_wraps_around :
    ¬ ∀ (kind : IntKind) (value : Buffer) (receiver : Receiver value),
      receiver.ExactOrRejected kind := by
  intro all
  have exact := all .uint8 ['3'.toUInt8, '0'.toUInt8, '0'.toUInt8]
    (.field [([], ['3'.toUInt8, '0'.toUInt8, '0'.toUInt8])] [] rfl) 44
  have held := exact.mp ⟨BitVec.ofNat 8 44, rfl, by decide⟩
  revert held
  decide

namespace Param

/-- The texts of a list, with the separator between them. -/
def joined (texts : List Buffer) : Buffer := [';'.toUInt8].intercalate texts

/-- A number as a client writes it. -/
def printed (number : Int) : Buffer := (Decimal.print number).map Char.toUInt8

theorem chars_printed (number : Int) : chars (printed number) = Decimal.print number := by
  have same : ∀ char ∈ Decimal.print number,
      ((fun byte : UInt8 => Char.ofNat byte.toNat) ∘ Char.toUInt8) char = id char := by
    intro char member
    apply (Utility.char_eq_iff char.toUInt8 ?_).mpr rfl
    rcases Decimal.mem_print member with minus | digit
    · rw [minus]
      decide
    · rw [Char.isDigit, Bool.and_eq_true, decide_eq_true_eq, decide_eq_true_eq] at digit
      have nine : char.toNat ≤ 57 := digit.2
      omega
  rw [chars, printed, List.map_map, List.map_congr_left same, List.map_id]

theorem separator_notMem_printed (number : Int) : ';'.toUInt8 ∉ printed number := by
  intro member
  have inside : ';' ∈ chars (printed number) := List.mem_map_of_mem member
  rw [chars_printed] at inside
  rcases Decimal.mem_print inside with minus | digit
  · cases minus
  · cases digit

/-- A printed `std::int64_t` is read as itself. -/
theorem convertIntegral_printed (bits : BitVec IntKind.int64.width) :
    convertIntegral .int64 (printed (IntKind.int64.value bits)) = .ok bits := by
  rw [convertIntegral_eq_ok]
  refine ⟨IntKind.int64.value bits, ?_, IntKind.value_inRange _ bits, IntKind.ofInt_value _ bits⟩
  apply number_of_literal
  rw [chars_printed]
  exact Decimal.literal_print _

/-- The items of a joined list are its texts, each once and in their order. -/
theorem items_joined {texts : List Buffer} (filled : texts ≠ [])
    (plain : ∀ text ∈ texts, ';'.toUInt8 ∉ text) :
    items (joined texts) = SortedSet.ofList texts := by
  rw [items, joined, List.splitOn_intercalate _ plain filled]

theorem mapM_texts {convert : Buffer → Outcome α} {text : α → Buffer} {values : List α}
    (reads : ∀ value ∈ values, convert (text value) = .ok value) :
    (values.map text).mapM convert = .ok values := by
  induction values with
  | nil => rfl
  | cons value rest ih =>
      rw [List.forall_mem_cons] at reads
      rw [List.map_cons, List.mapM_cons, reads.1, ih reads.2]
      rfl

/-- Texts of values are the texts of a list of values. -/
theorem exists_values {text : α → Buffer} {values : List α} {texts : List Buffer}
    (covered : ∀ item ∈ texts, item ∈ values.map text) :
    ∃ result : List α, (∀ value ∈ result, value ∈ values) ∧ result.map text = texts := by
  induction texts with
  | nil => exact ⟨[], fun _ impossible => (List.not_mem_nil impossible).elim, rfl⟩
  | cons item rest ih =>
      rw [List.forall_mem_cons] at covered
      obtain ⟨value, member, shown⟩ := List.mem_map.mp covered.1
      obtain ⟨result, inside, texts⟩ := ih covered.2
      refine ⟨value :: result, ?_, ?_⟩
      · rw [List.forall_mem_cons]
        exact ⟨member, inside⟩
      · rw [List.map_cons, shown, texts]

section

variable {convert : Buffer → Outcome α} {text : α → Buffer} {values : List α}

/-- A list comes out with its texts in order and without repetitions. -/
theorem convertIterable_joined (filled : values ≠ [])
    (reads : ∀ value ∈ values, convert (text value) = .ok value)
    (plain : ∀ value ∈ values, ';'.toUInt8 ∉ text value) :
    ∃ result : List α, convertIterable convert (joined (values.map text)) = .ok result ∧
      (∀ value ∈ result, value ∈ values) ∧
      result.map text = SortedSet.ofList (values.map text) := by
  have texts : values.map text ≠ [] := by simpa using filled
  have separate : ∀ item ∈ values.map text, ';'.toUInt8 ∉ item := by simpa using plain
  have covered : ∀ item ∈ SortedSet.ofList (values.map text), item ∈ values.map text :=
    fun _ member => SortedSet.mem_ofList.mp member
  obtain ⟨result, inside, shown⟩ := exists_values covered
  refine ⟨result, ?_, inside, shown⟩
  rw [convertIterable, items_joined texts separate, ← shown]
  exact mapM_texts fun value member => reads value (inside value member)

/-- A text has an item, if only an empty one. -/
theorem convertIterable_ne_nil (convert : Buffer → Outcome α) (value : Buffer) :
    convertIterable convert value ≠ .ok [] := by
  have some : items value ≠ [] := by
    obtain ⟨first, rest, split⟩ :=
      List.exists_cons_of_ne_nil (List.splitOn_ne_nil ';'.toUInt8 value)
    have member : first ∈ items value := by
      rw [items, SortedSet.mem_ofList, split]
      exact List.mem_cons_self
    exact List.ne_nil_of_mem member
  obtain ⟨item, rest, shape⟩ := List.exists_cons_of_ne_nil some
  rw [convertIterable, shape, List.mapM_cons]
  intro none
  obtain ⟨first, -, none⟩ := bind_eq_ok.mp none
  obtain ⟨others, -, none⟩ := bind_eq_ok.mp none
  cases none

/-- The same list comes out exactly when its texts are strictly increasing. -/
theorem convertIterable_kept_iff (reads : ∀ value ∈ values, convert (text value) = .ok value)
    (plain : ∀ value ∈ values, ';'.toUInt8 ∉ text value) :
    convertIterable convert (joined (values.map text)) = .ok values ↔
      values ≠ [] ∧ (values.map text).Pairwise (· < ·) := by
  by_cases filled : values = []
  · rw [filled]
    exact iff_of_false (convertIterable_ne_nil _ _) fun both => both.1 rfl
  · obtain ⟨result, converted, inside, shown⟩ := convertIterable_joined filled reads plain
    rw [converted, Except.ok.injEq, ← SortedSet.ofList_eq_self_iff, ← shown]
    constructor
    · intro same
      rw [same]
      exact ⟨filled, rfl⟩
    · rintro ⟨-, same⟩
      -- The conversion tells values with one text apart.
      have kept : (result.map text).mapM convert = .ok result :=
        mapM_texts fun value member => reads value (inside value member)
      rw [same, mapM_texts reads] at kept
      exact (Except.ok.inj kept).symm

end

/-- A list of strings without separators, and a list of `std::int64_t`, come out as they went
in exactly when they are not empty and the texts of their items are strictly increasing. -/
theorem list_parameters_kept_iff (strings : List Buffer)
    (plain : ∀ string ∈ strings, ';'.toUInt8 ∉ string)
    (numbers : List (BitVec IntKind.int64.width)) :
    (convertIterable convertString (joined strings) = .ok strings ↔
      strings ≠ [] ∧ strings.Pairwise (· < ·)) ∧
    (convertIterable (convertIntegral .int64)
        (joined (numbers.map fun bits => printed (IntKind.int64.value bits))) = .ok numbers ↔
      numbers ≠ [] ∧
        (numbers.map fun bits => printed (IntKind.int64.value bits)).Pairwise (· < ·)) := by
  constructor
  · have reads : ∀ string ∈ strings, convertString (id string) = .ok string := fun _ _ => rfl
    have kept := convertIterable_kept_iff reads plain
    rwa [List.map_id] at kept
  · exact convertIterable_kept_iff (fun bits _ => convertIntegral_printed bits)
      fun bits _ => separator_notMem_printed _

/-- The strings `a` and `b`, and the number 7. -/
theorem list_parameters_kept_pair :
    convertIterable convertString (joined [['a'.toUInt8], ['b'.toUInt8]]) =
        .ok [['a'.toUInt8], ['b'.toUInt8]] ∧
      convertIterable (convertIntegral .int64)
          (joined ([BitVec.ofNat 64 7].map fun bits => printed (IntKind.int64.value bits))) =
        .ok [BitVec.ofNat 64 7] := by
  have plain : ∀ string ∈ [['a'.toUInt8], ['b'.toUInt8]], ';'.toUInt8 ∉ string := by
    intro string member
    simp only [List.mem_cons, List.not_mem_nil, or_false] at member
    rcases member with rfl | rfl
    all_goals decide
  have kept := list_parameters_kept_iff [['a'.toUInt8], ['b'.toUInt8]] plain
    [BitVec.ofNat 64 7]
  constructor
  · exact kept.1.mpr ⟨by decide, by decide⟩
  · exact kept.2.mpr ⟨by decide, List.pairwise_singleton _ _⟩

/-- One of two equal strings is lost. The text `10` comes before `9`, so that the numbers 9
and 10 are exchanged. -/
theorem list_parameters_are_sets :
    (¬ ∀ values : List Buffer, (∀ value ∈ values, ';'.toUInt8 ∉ value) →
      convertIterable convertString (joined values) = .ok values) ∧
    ¬ ∀ values : List (BitVec IntKind.int64.width),
      convertIterable (convertIntegral .int64)
        (joined (values.map fun bits => printed (IntKind.int64.value bits))) = .ok values := by
  constructor
  · intro all
    have kept := all [['a'.toUInt8], ['a'.toUInt8]]
    revert kept
    decide
  · intro all
    have kept := all [BitVec.ofNat 64 9, BitVec.ofNat 64 10]
    revert kept
    decide

/-- A list in the content of a request comes out as it went in when its text is not empty
and its items are strictly increasing. -/
theorem plainText_kept_iff {convert : Buffer → Outcome α} {text : α → Buffer} {values : List α}
    (reads : ∀ value ∈ values, convert (text value) = .ok value)
    (plain : ∀ value ∈ values, ';'.toUInt8 ∉ text value) :
    PlainText.convert (convertIterable convert) (joined (values.map text)) = .ok values ↔
      joined (values.map text) ≠ [] ∧ (values.map text).Pairwise (· < ·) := by
  unfold PlainText.convert
  by_cases empty : joined (values.map text) = []
  · rw [empty]
    exact iff_of_false (throwing_ne_ok _ _) fun both => both.1 rfl
  · have filled : values ≠ [] := by
      rintro rfl
      exact empty rfl
    have content : (joined (values.map text)).isEmpty = false := by simpa using empty
    rw [content, if_neg Bool.false_ne_true, convertIterable_kept_iff reads plain]
    simp only [ne_eq, empty, filled, not_false_eq_true, true_and]

end Param

end Mif.Net.Http
