import Mathlib.Data.List.OfFn
import Mif.Lib.EvalOrder
import Mif.Lib.PropertyTree
import Mif.Common.Fault
import Mif.Reflection.Schema
import Mif.Serialization.XmlText
import Mif.Serialization.XmlDecode
import Mif.Serialization.XmlEncode
import Mif.Serialization.XmlRoundTrip
import Mif.Serialization.XmlNumbers

set_option autoImplicit false

/- The smart pointers in XML. A pointer is written like its target, and a null one like an
empty text; the decoder makes a target for every pointer. -/
namespace Mif.Serialization.Xml

open Mif.Reflection
open Mif.Serialization.Fragment (Distinct)
open PropertyTree (pathKeys walkedKeys)

variable {schema : Schema}

/-- The values of the fragment, with null pointers anywhere. -/
def UpToNull (program : XmlProgram schema) : {type : Ty} → Val schema type → Prop
  | .nullable .smartPointer type, .empty => isPair type = false
  | .nullable how type, .holds value =>
      how = .smartPointer ∧ isPair type = false ∧ UpToNull program value
  | .pair first second, .pair one two =>
      isPair first = false ∧ isPair second = false ∧ UpToNull program one ∧ UpToNull program two
  | .iter container type, .iter _ values =>
      Rebuilt program type container values ∧ ∀ index, UpToNull program (values index)
  | .struct id, .struct bases fields _ =>
      Distinct (elementNames program id) ∧
        (∀ index, isPair (schema.fieldType id index) = false) ∧
        (∀ index, UpToNull program (bases index)) ∧ ∀ index, UpToNull program (fields index)
  | _, value => InFragment program value

/-- A value of the fragment at the root of a document. -/
structure Serializable (program : XmlProgram schema) {type : Ty} (value : Val schema type)
    (root : String) : Prop where
  single : isPair type = false
  inside : UpToNull program value
  clear : NamesClear program type
  rooted : Rooted program type root

section

variable {program : XmlProgram schema}

theorem inFragment_of_noNull {type : Ty} {value : Val schema type} (inside : UpToNull program value)
    (noNull : NoNull value) : InFragment program value := by
  induction value with
  | @empty how type =>
      cases how with
      | smartPointer => cases noNull
      | optional => cases inside
  | @holds how type value ih =>
      have parts : how = .smartPointer ∧ isPair type = false ∧ UpToNull program value := by
        cases how <;> exact inside
      obtain ⟨rfl, single, target⟩ := parts
      exact ⟨rfl, single, ih target noNull⟩
  | pair one two ihOne ihTwo =>
      obtain ⟨singleFirst, singleSecond, first, second⟩ := inside
      exact ⟨singleFirst, singleSecond, ihOne first noNull.1, ihTwo second noNull.2⟩
  | iter size values ih =>
      exact ⟨inside.1, fun index => ih index (inside.2 index) (noNull index)⟩
  | struct bases fields rest ihBases ihFields _ =>
      obtain ⟨distinct, single, insideBases, insideFields⟩ := inside
      exact ⟨distinct, single, fun index => ihBases index (insideBases index) (noNull.1 index),
        fun index => ihFields index (insideFields index) (noNull.2 index)⟩
  | _ => exact inside

/-- A pointer is transparent: it is written like its target, and it is read where the target
would be read into a new object. -/
theorem deserialize_pointer_iff {type : Ty} (pointer object : Val schema (.nullable .smartPointer type))
    (node : Ptree) (name : String) :
    deserialize program (.nullable .smartPointer type) node object name = .ok pointer ↔
      ∃ target, pointer = .holds target ∧ content program pointer = content program target ∧
        deserialize program type node (program.initialOf type) name = .ok target := by
  rw [deserialize]
  constructor
  · intro read
    cases target : deserialize program type node (program.initialOf type) name with
    | error fault =>
        rw [target] at read
        cases read
    | ok value =>
        rw [target] at read
        cases read
        exact ⟨value, rfl, rfl, rfl⟩
  · rintro ⟨target, rfl, -, read⟩
    rw [read]
    rfl

theorem documentKept_of_noNull {type : Ty} {value object : Val schema type} {root : String}
    (serializable : Serializable program value root) (noNull : NoNull value)
    (reached : Reached program value object) : DocumentKept program value root object := by
  obtain ⟨single, inside, clear, rooted⟩ := serializable
  exact documentKept_of_over single rooted
    (survivesOver_of_reached (inFragment_of_noNull inside noNull) clear reached)

end

/-- The pointers that survive. At any place of a document a pointer is read back when it is
not null and its target is read back there; a value of the fragment with pointers anywhere in
it is read back when none of them is null and the reflection of its types reaches all of it, and
no other value ever is. -/
theorem pointers_survive_iff (program : XmlProgram schema) (only : InsertsOnly program.toProgram)
    (type : Ty) :
    (∀ (pointer object : Val schema (.nullable .smartPointer type)) (node : Ptree) (name : String),
        deserialize program (.nullable .smartPointer type) node object name = .ok pointer ↔
          ∃ target, pointer = .holds target ∧ content program pointer = content program target ∧
            deserialize program type node (program.initialOf type) name = .ok target) ∧
      ∀ (value object : Val schema type) (root : String),
        (NoNull value ∧ Reached program value object ∧ Serializable program value root →
            DocumentKept program value root object) ∧
          (DocumentKept program value root object →
            NoNull value ∧ Reached program value object) := by
  refine ⟨deserialize_pointer_iff, fun value object root => ⟨?_, ?_⟩⟩
  · rintro ⟨noNull, reached, serializable⟩
    exact documentKept_of_noNull serializable noNull reached
  · rintro ⟨doc, -, read⟩
    exact noNull_and_reached_of_deserialize only read

/-- A pointer to the text `x`. -/
theorem pointer_survives :
    DocumentKept reportXml
      (.holds (.string "x") : Val reportSchema (.nullable .smartPointer .string)) "p" .empty :=
  ((pointers_survive_iff reportXml insertsOnly_report _).2 _ _ "p").1 ⟨trivial, trivial,
    rfl, ⟨rfl, rfl, trivial⟩, namesClear_report _, rooted_of_plain _ _ ⟨by decide, by decide⟩⟩

/-- A null pointer to a text is read as a pointer to the empty text. -/
theorem null_pointer_is_lost :
    serialize reportXml (.empty : Val reportSchema (.nullable .smartPointer .string)) "p"
        (.leaf "") = .ok (.node "" [("p", .leaf "")]) ∧
      deserialize reportXml (.nullable .smartPointer .string) (.node "" [("p", .leaf "")]) .empty
        "p" = .ok (.holds (.string "")) ∧
      ¬ DocumentKept reportXml (.empty : Val reportSchema (.nullable .smartPointer .string)) "p"
        .empty := by
  have written : serialize reportXml
      (.empty : Val reportSchema (.nullable .smartPointer .string)) "p" (.leaf "") =
        .ok (.node "" [("p", .leaf "")]) := rfl
  have read : deserialize reportXml (.nullable .smartPointer .string)
      (.node "" [("p", .leaf "")]) .empty "p" = .ok (.holds (.string "")) := by
    rw [deserialize, deserialize]
    rfl
  refine ⟨written, read, ?_⟩
  rintro ⟨doc, encoded, decoded⟩
  cases written.symm.trans encoded
  cases read.symm.trans decoded

end Mif.Serialization.Xml
