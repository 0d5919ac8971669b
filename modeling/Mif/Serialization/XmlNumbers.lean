import Mathlib.Data.List.OfFn
import Mif.Lib.Decimal
import Mif.Lib.EvalOrder
import Mif.Lib.PropertyTree
import Mif.Common.Fault
import Mif.Reflection.Schema
import Mif.Reflection.Containers
import Mif.Reflection.Integers
import Mif.Serialization.XmlText
import Mif.Serialization.XmlDecode
import Mif.Serialization.XmlEncode
import Mif.Serialization.XmlRoundTrip

set_option autoImplicit false

/- The integral types in XML: which of their values are read back, and what is made of other
texts. -/
namespace Mif.Serialization.Xml

open Mif.Reflection
open PropertyTree (walkedKeys)

variable {schema : Schema}

/-- An integral type. A plain `char` is printed and read like `std::int8_t`. -/
inductive Integral
  | bool
  | int (kind : IntKind)

namespace Integral

def type : Integral → Ty
  | bool => .bool
  | int kind => .int kind

def InRange : Integral → Int → Prop
  | bool, number => number = 0 ∨ number = 1
  | int kind, number => kind.InRange number

/-- The types that a stream takes for characters. -/
def isNarrow : Integral → Bool
  | bool => false
  | int kind => kind.width = 8

def number : (integral : Integral) → Val schema integral.type → Int
  | bool, .bool value => if value then 1 else 0
  | int kind, .int value => kind.value value

end Integral

/-- The number of the first character of a text. -/
def firstCode (text : String) : Option Int := text.toList.head?.map fun char => (char.toNat : Int)

/-- An element with this text is read as the number that the text is a literal of, and is
refused when the text is no literal of a value of the type. -/
def TextExact (program : XmlProgram schema) (integral : Integral) (text : String) : Prop :=
  ∀ node item name object, node.getChild (walkedKeys name) = some item → item.data = text →
    (∀ number, Decimal.literal text.toList = some number → integral.InRange number →
      ∃ value, deserialize program integral.type node object name = .ok value ∧
        integral.number value = number) ∧
    ((∀ number, Decimal.literal text.toList = some number → ¬ integral.InRange number) →
      ∃ what, deserialize program integral.type node object name = throwing what)

/- The types with 8 bits. -/
section

variable {kind : IntKind}

/-- The extraction takes the first character of the digits. -/
theorem toInt_narrow (narrow : kind.width = 8) {text : String} {char : Char} {rest : List Char}
    (shape : text.toList = char :: rest)
    (solid : char = '-' ∨ char = '+' ∨ char.isDigit = true) (object : BitVec kind.width) :
    XmlText.toInt kind text object = BitVec.ofNat kind.width char.toNat := by
  rw [XmlText.toInt, XmlText.skipSpace_of_head shape solid]
  simp only [narrow, ↓reduceIte]

theorem code_of_solid {char : Char} (solid : char = '-' ∨ char = '+' ∨ char.isDigit = true) :
    43 ≤ char.toNat ∧ char.toNat ≤ 57 := by
  rcases solid with rfl | rfl | digit
  · decide
  · decide
  · rw [Char.isDigit, Bool.and_eq_true, decide_eq_true_eq, decide_eq_true_eq] at digit
    have low : '0'.toNat ≤ char.toNat := digit.1
    have high : char.toNat ≤ '9'.toNat := digit.2
    have zero : '0'.toNat = 48 := rfl
    have nine : '9'.toNat = 57 := rfl
    omega

theorem value_code (narrow : kind.width = 8) {code : Nat} (small : code ≤ 57) :
    kind.value (BitVec.ofNat kind.width code) = code := by
  have inside : kind.InRange code := by
    cases kind with
    | int8 => simp only [IntKind.InRange, IntKind.least, IntKind.greatest, IntKind.signed,
        IntKind.width, ↓reduceIte]; omega
    | uint8 => simp only [IntKind.InRange, IntKind.least, IntKind.greatest, IntKind.signed,
        IntKind.width, Bool.false_eq_true, ↓reduceIte]; omega
    | _ => cases narrow
  have same := (kind.value_ofInt_iff code).mpr inside
  rwa [BitVec.ofInt_natCast] at same

/-- What an integer becomes when its text is read. -/
def reread (kind : IntKind) (bits : BitVec kind.width) : BitVec kind.width :=
  XmlText.toInt kind (XmlText.ofInt kind bits) 0

theorem toInt_ofInt_narrow (narrow : kind.width = 8) (bits object : BitVec kind.width) :
    XmlText.toInt kind (XmlText.ofInt kind bits) object = reread kind bits ∧
      ∃ code, 43 ≤ code ∧ code ≤ 57 ∧ reread kind bits = BitVec.ofNat kind.width code := by
  obtain ⟨char, rest, shape, solid⟩ := Decimal.head_of_print (kind.value bits)
  rw [← XmlText.toList_ofInt] at shape
  have head : char = '-' ∨ char = '+' ∨ char.isDigit = true := by
    rcases solid with minus | digit
    · exact Or.inl minus
    · exact Or.inr (Or.inr digit)
  obtain ⟨low, high⟩ := code_of_solid head
  have read := toInt_narrow narrow shape head
  exact ⟨(read object).trans (read 0).symm, char.toNat, low, high, read 0⟩

/-- Whatever an integer was, reading back three times ends at the number 53, whose text begins
with the character of that number. -/
theorem reread_thrice (narrow : kind.width = 8) (bits : BitVec kind.width) :
    kind.value (reread kind (reread kind (reread kind bits))) = 53 := by
  obtain ⟨-, code, low, high, read⟩ := toInt_ofInt_narrow narrow bits 0
  rw [read]
  have all : ∀ number : Fin 58, 43 ≤ number.val →
      IntKind.int8.value (reread .int8 (reread .int8 (BitVec.ofNat 8 number.val))) = 53 ∧
        IntKind.uint8.value (reread .uint8 (reread .uint8 (BitVec.ofNat 8 number.val))) = 53 := by
    decide +kernel
  have this := all ⟨code, by omega⟩ low
  cases kind with
  | int8 => exact this.1
  | uint8 => exact this.2
  | _ => cases narrow

theorem reread_53 (narrow : kind.width = 8) {bits : BitVec kind.width}
    (value : kind.value bits = 53) : reread kind bits = bits := by
  have same : bits = BitVec.ofInt kind.width 53 := by rw [← value, kind.ofInt_value]
  rw [same]
  cases kind with
  | int8 => decide +kernel
  | uint8 => decide +kernel
  | _ => cases narrow

end

/- One number. -/
section

variable {program : XmlProgram schema}

/-- An integer is read back unless a stream takes its type for characters. -/
theorem survives_int_iff {kind : IntKind} (bits : BitVec kind.width) :
    Survives program (Val.int bits : Val schema (.int kind)) ↔
      (kind.width = 8 → kind.value bits = 53) := by
  constructor
  · rintro ⟨item, written, itself, read⟩ narrow
    cases written
    have reads := read _ "" (.int 0) itself
    rw [deserialize_int_of_some program itself] at reads
    have fixed : reread kind bits = bits := by
      injection reads with same
      injection same
    have thrice := reread_thrice narrow bits
    rwa [fixed, fixed, fixed] at thrice
  · intro kept
    by_cases narrow : kind.width = 8
    · refine ⟨.leaf (XmlText.ofInt kind bits), rfl, rfl, fun node name object found => ?_⟩
      cases object with
      | int object =>
          rw [deserialize_int_of_some program found]
          have read := (toInt_ofInt_narrow narrow bits object).1
          exact congrArg (Except.ok ∘ Val.int) (read.trans (reread_53 narrow (kept narrow)))
    · exact survives_int narrow bits

theorem survives_number_iff (integral : Integral) (value : Val schema integral.type) :
    Survives program value ↔ (integral.isNarrow = true → integral.number value = 53) := by
  cases integral with
  | bool =>
      cases value with
      | bool value => exact iff_of_true (survives_bool value) (fun narrow => by cases narrow)
  | int kind =>
      cases value with
      | int bits =>
          have narrow : (Integral.int kind).isNarrow = true ↔ kind.width = 8 := decide_eq_true_iff
          rw [narrow]
          exact survives_int_iff bits

/-- A literal of a value of the type is read as that value, or as its first character. -/
theorem deserialize_literal (integral : Integral) {node item : Ptree} {name : String}
    {number : Int} (found : node.getChild (walkedKeys name) = some item)
    (literal : Decimal.literal item.data.toList = some number) (inside : integral.InRange number)
    (object : Val schema integral.type) :
    ∃ value, deserialize program integral.type node object name = .ok value ∧
      some (integral.number value) =
        if integral.isNarrow then firstCode item.data else some number := by
  obtain ⟨char, rest, shape, solid⟩ := Decimal.head_of_literal literal
  cases integral with
  | bool =>
      cases object with
      | bool object =>
          refine ⟨_, deserialize_bool_of_some program found object, ?_⟩
          have wide : IntKind.int64.InRange number := by
            rcases inside with rfl | rfl <;> decide
          rw [shape] at literal
          rw [XmlText.toBool, XmlText.skipSpace_of_head shape solid]
          simp only [XmlText.number_of_literal literal wide]
          rcases inside with rfl | rfl <;> rfl
  | int kind =>
      cases object with
      | int object =>
          refine ⟨_, deserialize_int_of_some program found object, ?_⟩
          by_cases narrow : kind.width = 8
          · have first : firstCode item.data = some (char.toNat : Int) := by
              rw [firstCode, shape]
              rfl
            rw [toInt_narrow narrow shape solid, first]
            simp only [Integral.number, Integral.isNarrow, narrow, decide_true, ↓reduceIte]
            rw [value_code narrow (code_of_solid solid).2]
          · rw [XmlText.toInt_of_literal narrow literal inside]
            simp only [Integral.number, Integral.isNarrow, narrow, decide_false,
              Bool.false_eq_true, ↓reduceIte, Option.some.injEq]
            exact (kind.value_ofInt_iff number).mpr inside

/-- An element is read whatever its text is. -/
theorem deserialize_any (integral : Integral) {node item : Ptree} {name : String}
    (found : node.getChild (walkedKeys name) = some item) (object : Val schema integral.type) :
    ∃ value, deserialize program integral.type node object name = .ok value := by
  cases integral with
  | bool =>
      cases object with
      | bool object => exact ⟨_, deserialize_bool_of_some program found object⟩
  | int kind =>
      cases object with
      | int object => exact ⟨_, deserialize_int_of_some program found object⟩

/-- Some value of the type, to decode into. -/
def Integral.zero : (integral : Integral) → Val schema integral.type
  | .bool => .bool false
  | .int _ => .int 0

theorem textExact_iff (integral : Integral) (text : String) :
    TextExact program integral text ↔
      ∃ number, Decimal.literal text.toList = some number ∧ integral.InRange number ∧
        (integral.isNarrow = true → firstCode text = some number) := by
  constructor
  · intro exact
    have found : (PropertyTree.leaf text).getChild (walkedKeys "") = some (.leaf text) := rfl
    obtain ⟨reads, refuses⟩ := exact _ _ "" integral.zero found rfl
    obtain ⟨value, read⟩ : ∃ value, deserialize program integral.type (.leaf text) integral.zero "" =
        .ok value := deserialize_any integral found integral.zero
    by_cases literal : ∃ number, Decimal.literal text.toList = some number ∧ integral.InRange number
    · obtain ⟨number, literal, inside⟩ := literal
      refine ⟨number, literal, inside, fun narrow => ?_⟩
      obtain ⟨other, first, same⟩ := reads number literal inside
      obtain ⟨value, second, code⟩ := deserialize_literal integral found literal inside integral.zero
      cases first.symm.trans second
      rw [narrow, if_pos rfl, same] at code
      exact code.symm
    · obtain ⟨what, thrown⟩ :=
        refuses fun number literal' inside => literal ⟨number, literal', inside⟩
      cases read.symm.trans thrown
  · rintro ⟨number, literal, inside, code⟩ node item name object found rfl
    refine ⟨fun other literal' _ => ?_, fun refused => absurd inside (refused number literal)⟩
    cases literal.symm.trans literal'
    obtain ⟨value, read, same⟩ := deserialize_literal integral found literal inside object
    refine ⟨value, read, Option.some.inj (same.trans ?_)⟩
    split
    · rename_i narrow
      exact code narrow
    · rfl

end

/- Numbers in containers. -/
section

variable {program : XmlProgram schema}

/-- The elements that are read from a container of narrow integers. -/
theorem bits_of_survives (only : InsertsOnly program.toProgram) {kind : IntKind}
    (narrow : kind.width = 8) {container : Container} {size : Nat}
    {bits : Fin size → BitVec kind.width}
    (survives : Survives program (Val.iter size (fun index => .int (bits index)) :
      Val schema (.iter container (.int kind)))) (index : Fin size) :
    ∃ other, bits index = reread kind (bits other) := by
  obtain ⟨item, written, itself, read⟩ := survives
  have listed : content program (Val.iter size (fun index => .int (bits index)) :
      Val schema (.iter container (.int kind))) =
        .ok (.node "" (List.ofFn fun index =>
          (Xml.Tag.item, .leaf (XmlText.ofInt kind (bits index))))) :=
    content_iter fun _ => rfl
  cases listed.symm.trans written
  have each : ∀ index, deserialize program (.int kind)
      (.leaf (XmlText.ofInt kind (bits index))) (program.fresh (.int kind)) "" =
        .ok (.int (reread kind (bits index))) := by
    intro index
    cases program.fresh (.int kind) with
    | int object =>
        have found : (PropertyTree.leaf (XmlText.ofInt kind (bits index))).getChild
            (walkedKeys "") = some (.leaf (XmlText.ofInt kind (bits index))) := rfl
        rw [deserialize_int_of_some program found]
        exact congrArg (Except.ok ∘ Val.int) (toInt_ofInt_narrow narrow (bits index) object).1
  have whole := (read_iter itself each (.ofList [])).symm.trans (read _ "" _ itself)
  obtain ⟨other, same⟩ := only.inserts.exists_of_filled (Except.ok.inj whole) index
  injection same with _ equal
  exact ⟨other, equal.symm⟩

/-- A container of numbers is read back exactly when each of them would be. -/
theorem survives_numbers_iff (only : InsertsOnly program.toProgram) (integral : Integral)
    {container : Container} {size : Nat} (values : Fin size → Val schema integral.type)
    (rebuilt : Rebuilt program integral.type container values) :
    Survives program (Val.iter size values : Val schema (.iter container integral.type)) ↔
      ∀ index, integral.isNarrow = true → integral.number (values index) = 53 := by
  constructor
  · intro survives index narrow
    cases integral with
    | bool => cases narrow
    | int kind =>
        have eight : kind.width = 8 := of_decide_eq_true narrow
        let bits : Fin size → BitVec kind.width := fun index =>
          match values index with
          | .int bits => bits
        have shape : values = fun index => .int (bits index) := by
          funext index
          change values index = .int (match values index with | .int bits => bits)
          cases values index with
          | int bits => rfl
        rw [shape] at survives
        obtain ⟨second, one⟩ := bits_of_survives only eight survives index
        obtain ⟨third, two⟩ := bits_of_survives only eight survives second
        obtain ⟨fourth, three⟩ := bits_of_survives only eight survives third
        rw [shape]
        change kind.value (bits index) = 53
        rw [one, two, three]
        exact reread_thrice eight (bits fourth)
  · intro each
    exact survives_of_over (survivesOver_iter rebuilt fun index =>
      ((survives_number_iff integral _).mpr (each index)).over _)

/-- The children of a container of `char`. -/
def charEntries (values : List (BitVec 8)) : List (String × Ptree) :=
  values.map fun value => (Xml.Tag.item, .leaf (XmlText.ofInt .int8 value))

theorem content_chars (values : List (BitVec 8)) :
    content program (Val.chars values : Val schema .chars) =
      .ok (.node "" (charEntries values)) := by
  refine congrArg Except.ok (addAll_of_plain ?_ "" [])
  intro entry member
  obtain ⟨value, -, rfl⟩ := List.mem_map.mp member
  exact plain_item

theorem read_chars {values : List (BitVec 8)} {node : Ptree} {name : String}
    (found : node.getChild (walkedKeys name) = some (.node "" (charEntries values)))
    (object : Val schema .chars) :
    deserialize program .chars node object name = .ok (.chars (values.map (reread .int8))) := by
  rw [deserialize_chars_of_some program found]
  refine congrArg (Except.ok ∘ Val.chars) ?_
  refine List.map_map.trans (List.map_congr_left fun value _ => ?_)
  exact (@toInt_ofInt_narrow .int8 rfl value _).1

theorem survives_chars_iff (values : List (BitVec 8)) :
    Survives program (Val.chars values : Val schema .chars) ↔
      ∀ value ∈ values, IntKind.int8.value value = 53 := by
  constructor
  · rintro ⟨item, written, itself, read⟩ value member
    cases (content_chars values).symm.trans written
    have whole := (read_chars itself (.chars [])).symm.trans (read _ "" _ itself)
    have fixed : values.map (reread .int8) = values.map id := by
      rw [List.map_id]
      injection whole with same
      injection same
    have one : reread .int8 value = value := List.map_inj_left.mp fixed value member
    have thrice := @reread_thrice .int8 rfl value
    rwa [one, one, one] at thrice
  · intro each
    refine ⟨_, content_chars values, rfl, fun node name object found => ?_⟩
    rw [read_chars found]
    refine congrArg (Except.ok ∘ Val.chars) ?_
    conv_rhs => rw [← List.map_id values]
    exact List.map_congr_left fun value member => @reread_53 .int8 rfl value (each value member)

/-- The integral types in XML, with the exact conditions: a value alone and in containers, and
a text. No text is ever refused, and the types with 8 bits take the first character. -/
theorem numbers_exact_iff (program : XmlProgram schema) (only : InsertsOnly program.toProgram)
    (integral : Integral) :
    (∀ value : Val schema integral.type, Survives program value ↔
        (integral.isNarrow = true → integral.number value = 53)) ∧
      (∀ (container : Container) (size : Nat) (values : Fin size → Val schema integral.type),
        Rebuilt program integral.type container values →
        (Survives program (Val.iter size values : Val schema (.iter container integral.type)) ↔
          ∀ index, integral.isNarrow = true → integral.number (values index) = 53)) ∧
      (∀ values : List (BitVec 8), Survives program (Val.chars values : Val schema .chars) ↔
        ∀ value ∈ values, IntKind.int8.value value = 53) ∧
      ∀ text, TextExact program integral text ↔
        ∃ number, Decimal.literal text.toList = some number ∧ integral.InRange number ∧
          (integral.isNarrow = true → firstCode text = some number) :=
  ⟨survives_number_iff integral, fun _ _ => survives_numbers_iff only integral,
    survives_chars_iff, textExact_iff integral⟩

/-- The program of the reports and the type `std::int32_t`. -/
theorem numbers_exact_report :
    Survives reportXml (.int 7 : Val reportSchema (.int .int32)) ∧
      ¬ TextExact reportXml (.int .int32) "7x" := by
  obtain ⟨single, -, -, texts⟩ := numbers_exact_iff reportXml insertsOnly_report (.int .int32)
  refine ⟨(single (.int 7)).mpr (fun narrow => by cases narrow), fun exact => ?_⟩
  obtain ⟨number, literal, -⟩ := (texts "7x").mp exact
  have none : Decimal.literal "7x".toList = none := by decide
  cases none.symm.trans literal

/-- A `std::uint8_t` of 65 is printed as `65` and read as the character `6`, and an
`std::int32_t` with the text `7x` is read as 7. -/
theorem uint8_is_read_as_character :
    serialize reportXml (.int 65 : Val reportSchema (.int .uint8)) "n" (.leaf "") =
        .ok (.node "" [("n", .leaf "65")]) ∧
      deserialize reportXml (.int .uint8) (.node "" [("n", .leaf "65")]) (.int 0) "n" =
        .ok (.int 54) ∧
      deserialize reportXml (.int .int32) (.node "" [("n", .leaf "7x")]) (.int 0) "n" =
        .ok (.int 7) ∧
      ¬ Survives reportXml (.int 65 : Val reportSchema (.int .uint8)) := by
  refine ⟨rfl, ?_, ?_, fun survives => ?_⟩
  · rw [deserialize]
    rfl
  · rw [deserialize]
    rfl
  · exact absurd ((survives_int_iff (65 : BitVec IntKind.uint8.width)).mp survives rfl) (by decide)

end

end Mif.Serialization.Xml
