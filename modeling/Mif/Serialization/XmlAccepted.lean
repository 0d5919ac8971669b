import Mif.Lib.EvalOrder
import Mif.Lib.PropertyTree
import Mif.Common.Fault
import Mif.Reflection.Schema
import Mif.Serialization.JsonSafety
import Mif.Serialization.XmlText
import Mif.Serialization.XmlDecode

set_option autoImplicit false

/- The nodes that a type is read from. -/
namespace Mif.Serialization.Xml

open Mif.Reflection
open PropertyTree (walkedKeys)

variable {schema : Schema}

/-- The types that take any text, and the byte containers, which take any children. -/
def takesAnything : Ty → Bool
  | .bool => true
  | .int _ => true
  | .double => true
  | .string => true
  | .chars => true
  | _ => false

/-- The nodes and names from which a type is read without an exception. -/
inductive Accepted (program : XmlProgram schema) : Ty → Ptree → String → Prop
  | simple {type : Ty} {node item : Ptree} {name : String} (any : takesAnything type = true)
      (found : node.getChild (walkedKeys name) = some item) : Accepted program type node name
  | enum {items : ReflectedEnum} {node item : Ptree} {name : String}
      (found : node.getChild (walkedKeys name) = some item)
      (known : item.data ∈ items.items.map fun item => staticStr item.1) :
      Accepted program (.enum items) node name
  | rawEnum {kind : IntKind} {node item : Ptree} {name : String}
      (found : node.getChild (walkedKeys name) = some item)
      (converted : (program.toRawEnum kind item.data).isSome) :
      Accepted program (.rawEnum kind) node name
  | pointer {type : Ty} {node : Ptree} {name : String} (target : Accepted program type node name) :
      Accepted program (.nullable .smartPointer type) node name
  | pair {first second : Ty} {node : Ptree} {name : String}
      (one : Accepted program first node Xml.Tag.id)
      (two : Accepted program second node Xml.Tag.value) :
      Accepted program (.pair first second) node name
  | iter {container : Container} {type : Ty} {node item : Ptree} {name : String}
      (found : node.getChild (walkedKeys name) = some item)
      (each : ∀ index, Accepted program type (item.children.get index).2 "") :
      Accepted program (.iter container type) node name
  | struct {id : Nat} {node item : Ptree} {name : String}
      (found : structNode program id node name = some item)
      (bases : ∀ index, Accepted program (.struct (schema.base id index)) item
        (program.baseFullName id index))
      (fields : ∀ index, Accepted program (schema.fieldType id index) item
        (program.fieldName id index)) :
      Accepted program (.struct id) node name

section

variable {program : XmlProgram schema}

/-- What is accepted is read, whatever the object held before. -/
theorem ok_of_accepted {type : Ty} {node : Ptree} {name : String}
    (accepted : Accepted program type node name) (object : Val schema type) :
    ∃ value, deserialize program type node object name = .ok value := by
  induction accepted with
  | @simple type node item name any found =>
      cases object with
      | bool object => exact ⟨_, deserialize_bool_of_some program found object⟩
      | int object => exact ⟨_, deserialize_int_of_some program found object⟩
      | double object => exact ⟨_, deserialize_double_of_some program found object⟩
      | string object => exact ⟨_, deserialize_string_of_some program found _⟩
      | chars object => exact ⟨_, deserialize_chars_of_some program found⟩
      | _ => cases any
  | @enum items node item name found known =>
      obtain ⟨value, read⟩ := (fromString_converts items item.data).1.mpr known
      refine ⟨.enum value, ?_⟩
      rw [deserialize_enum_of_some program found, read]
      rfl
  | @rawEnum kind node item name found converted =>
      obtain ⟨value, read⟩ := Option.isSome_iff_exists.mp converted
      refine ⟨.rawEnum value, ?_⟩
      rw [deserialize, getText_of_some found]
      simp only [bind, Except.bind, read]
      rfl
  | pointer target ih =>
      obtain ⟨value, read⟩ := ih (program.initialOf _)
      exact ⟨.holds value, by rw [deserialize, read]; rfl⟩
  | pair one two ihOne ihTwo =>
      cases object with
      | pair first second =>
          obtain ⟨one, readOne⟩ := ihOne first
          obtain ⟨two, readTwo⟩ := ihTwo second
          exact ⟨.pair one two, by rw [deserialize, readOne, readTwo]; rfl⟩
  | iter found each ih =>
      rw [deserialize_iter_of_some program found]
      obtain ⟨values, read⟩ := (EvalOrder.exists_evaluate_eq_ok (EvalOrder.leftToRight _) _).mpr
        fun index => ih index (program.fresh _)
      rw [read]
      exact ⟨_, rfl⟩
  | struct found bases fields ihBases ihFields =>
      cases object with
      | struct oldBases oldFields oldRest =>
          rw [deserialize_struct_of_some program found]
          obtain ⟨bases, readBases⟩ := (EvalOrder.exists_evaluate_eq_ok
            (EvalOrder.leftToRight _) _).mpr fun index => ihBases index (oldBases index)
          obtain ⟨fields, readFields⟩ := (EvalOrder.exists_evaluate_eq_ok
            (EvalOrder.leftToRight _) _).mpr fun index => ihFields index (oldFields index)
          rw [readBases]
          simp only [bind, Except.bind]
          rw [readFields]
          exact ⟨_, rfl⟩

/-- An overload that reads a text has found its node. -/
theorem found_of_getText {α : Type} {what : String} {node : Ptree} {name : String}
    {next : String → Outcome α} {value : α} (read : (getText what node name >>= next) = .ok value) :
    ∃ item, node.getChild (walkedKeys name) = some item ∧ next item.data = .ok value := by
  cases found : node.getChild (walkedKeys name) with
  | none =>
      rw [getText_of_none found] at read
      cases read
  | some item =>
      rw [getText_of_some found] at read
      exact ⟨item, rfl, read⟩

theorem accepted_of_getText {α : Type} {type : Ty} {what : String} {node : Ptree} {name : String}
    {next : String → Outcome α} {value : α} (any : takesAnything type = true)
    (read : (getText what node name >>= next) = .ok value) :
    Accepted program type node name := by
  obtain ⟨item, found, _⟩ := found_of_getText read
  exact .simple any found

/-- What is read is accepted. -/
theorem accepted_of_ok {type : Ty} {node : Ptree} {object : Val schema type} {name : String}
    {value : Val schema type} (read : deserialize program type node object name = .ok value) :
    Accepted program type node name := by
  induction type, node, object, name using deserialize.induct program with
  | case1 node object name =>
      rw [deserialize] at read
      exact accepted_of_getText rfl read
  | case2 kind node object name =>
      rw [deserialize] at read
      exact accepted_of_getText rfl read
  | case3 node object name =>
      rw [deserialize] at read
      exact accepted_of_getText rfl read
  | case4 node name object =>
      rw [deserialize] at read
      exact accepted_of_getText rfl read
  | case5 items node name object =>
      rw [deserialize] at read
      obtain ⟨item, found, rest⟩ := found_of_getText read
      obtain ⟨number, known, _⟩ := ok_of_bind rest
      exact .enum found ((fromString_converts items item.data).1.mp ⟨number, known⟩)
  | case6 kind node name object =>
      rw [deserialize] at read
      obtain ⟨item, found, rest⟩ := found_of_getText read
      refine .rawEnum found ?_
      cases converted : program.toRawEnum kind item.data with
      | some number => rfl
      | none =>
          rw [converted] at rest
          cases rest
  | case7 type node name object ih =>
      rw [deserialize] at read
      cases target : deserialize program type node (program.initialOf type) name with
      | error fault =>
          rw [target] at read
          cases read
      | ok inner => exact .pointer (ih target)
  | case8 first second node one two name ihOne ihTwo =>
      rw [deserialize] at read
      obtain ⟨first, readFirst, rest⟩ := ok_of_bind read
      obtain ⟨second, readSecond, _⟩ := ok_of_bind rest
      exact .pair (ihOne readFirst) (ihTwo readSecond)
  | case9 container type node name item found object ih =>
      have inside := getChild_of_getChildOptional found
      rw [deserialize_iter_of_some program inside] at read
      obtain ⟨values, each, _⟩ := ok_of_bind read
      rw [EvalOrder.evaluate_eq_ok] at each
      exact .iter inside fun index => ih index (each index)
  | case10 container type node name missing object =>
      rw [deserialize, missing] at read
      cases read
  | case11 node name item found object =>
      exact .simple rfl (getChild_of_getChildOptional found)
  | case12 node name missing object =>
      rw [deserialize, missing] at read
      cases read
  | case13 id node bases fields rest name ihBases ihFields =>
      cases found : structNode program id node name with
      | none =>
          rw [deserialize_struct_of_none program found] at read
          cases read
      | some item =>
          obtain ⟨within, _⟩ := structItem_of_some program found
          rw [deserialize_struct_of_some program found] at read
          obtain ⟨_, readBases, later⟩ := ok_of_bind read
          obtain ⟨_, readFields, _⟩ := ok_of_bind later
          rw [EvalOrder.evaluate_eq_ok] at readBases readFields
          exact .struct found (fun index => ihBases ⟨item, within⟩ index (readBases index))
            fun index => ihFields ⟨item, within⟩ index (readFields index)
  | case14 type node name object =>
      rw [deserialize] at read
      cases read
  | case15 size types node name object =>
      rw [deserialize] at read
      cases read
  | case16 size type node name object =>
      rw [deserialize] at read
      cases read

theorem accepted_iff {type : Ty} {node : Ptree} {name : String} (object : Val schema type) :
    Accepted program type node name ↔
      ∃ value, deserialize program type node object name = .ok value :=
  ⟨fun accepted => ok_of_accepted accepted object, fun ⟨_, read⟩ => accepted_of_ok read⟩

end

end Mif.Serialization.Xml
