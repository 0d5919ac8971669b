import Mif.Lib.EvalOrder
import Mif.Lib.PropertyTree
import Mif.Common.Fault
import Mif.Reflection.Schema
import Mif.Serialization.XmlText

set_option autoImplicit false

/- `Xml::Detail::Deserialize` and its overloads. -/
namespace Mif.Serialization.Xml

open Mif.Reflection
open PropertyTree (pathKeys walkedKeys)

/- The names of `Detail::Tag`. -/
namespace Tag

def item : String := "item"
def id : String := "id"
def value : String := "val"

end Tag

variable {schema : Schema}

/-- A name of the program text: it is not empty and has no dot. -/
def Plain (name : String) : Prop := name ≠ "" ∧ '.' ∉ name.toList

/-- What the XML serializer uses of a program: the names under which its structs are
registered, what a variable holds before it gets a value, and the conversions between texts
and the types `double` and enums without reflection. -/
structure XmlProgram (schema : Schema) extends Program schema where
  registered : Nat → String
  plainName : ∀ id, Plain (schema.struct id).name
  plainRegistered : ∀ id, Plain (registered id)
  plainField : ∀ id, ∀ field ∈ (schema.struct id).fields, Plain field.1
  fresh : (type : Ty) → Val schema type
  ofDouble : Float → String
  toDouble : String → Float → Float
  toRawEnum : (underlying : IntKind) → String → Option (BitVec underlying.width)

namespace XmlProgram

variable (program : XmlProgram schema) (id : Nat)

/-- `Reflect<T>::Name::Value` -/
def shortName (_ : XmlProgram schema) (id : Nat) : String := staticStr (schema.struct id).name

/-- `Reflect<Base>::FullName::Value` -/
def baseFullName (index : schema.BaseIndex id) : String :=
  staticStr (program.registered (schema.base id index))

/-- `Fields::Field<Index>::Name::Value` -/
def fieldName (_ : XmlProgram schema) (id : Nat) (index : schema.FieldIndex id) : String :=
  schema.fieldName id index

end XmlProgram

theorem plain_staticStr {name : String} (plain : Plain name) : Plain (staticStr name) := by
  obtain ⟨named, undotted⟩ := plain
  have kept : (staticStr name).toList = name.toList.take staticStrCapacity := by
    rw [staticStr, String.toList_ofList]
  constructor
  · intro empty
    rw [empty] at kept
    cases split : name.toList with
    | nil =>
        apply named
        rw [← @String.ofList_toList name, split]
    | cons char rest =>
        rw [split] at kept
        exact absurd kept (by simp [staticStrCapacity])
  · rw [kept]
    exact fun member => undotted (List.mem_of_mem_take member)

section

variable (program : XmlProgram schema) (id : Nat)

theorem plain_shortName : Plain (program.shortName id) :=
  plain_staticStr (program.plainName id)

theorem plain_baseFullName (index : schema.BaseIndex id) :
    Plain (program.baseFullName id index) :=
  plain_staticStr (program.plainRegistered _)

theorem plain_fieldName (index : schema.FieldIndex id) : Plain (program.fieldName id index) :=
  plain_staticStr (program.plainField id _ (List.get_mem _ index))

end

theorem plain_item : Plain Xml.Tag.item := ⟨by decide, by decide⟩

theorem plain_id : Plain Xml.Tag.id := ⟨by decide, by decide⟩

theorem plain_value : Plain Xml.Tag.value := ⟨by decide, by decide⟩

theorem getChild_of_plain {name : String} (plain : Plain name) (node : Ptree) :
    node.getChild (walkedKeys name) = node.find name := by
  rw [PropertyTree.walkedKeys_of_plain plain.2 plain.1, PropertyTree.getChild_singleton]

/-- How far a call on a node and a name may still go down. The empty name stays at the
node. -/
noncomputable def rank (node : Ptree) (name : String) : Nat :=
  2 * sizeOf node + if name = "" then 1 else 0

/-- A node below the one that a call was made for, or that node itself when the name is
empty. -/
abbrev Within (node : Ptree) (name : String) := { item : Ptree // 2 * sizeOf item < rank node name }

theorem rank_of_named {name : String} (named : name ≠ "") (node : Ptree) :
    rank node name = 2 * sizeOf node := by
  rw [rank, if_neg named, Nat.add_zero]

theorem rank_le_of_named {short : String} (named : short ≠ "") (node : Ptree) (name : String) :
    rank node short ≤ rank node name := by
  rw [rank_of_named named, rank]
  omega

theorem rank_of_getChild {node item : Ptree} {name : String}
    (found : node.getChild (walkedKeys name) = some item) : 2 * sizeOf item < rank node name := by
  have below := PropertyTree.sizeOf_getChild found
  unfold rank
  by_cases named : name = ""
  · subst named
    simp only [PropertyTree.walkedKeys_empty, ↓reduceIte] at below ⊢
    omega
  · rw [if_neg (PropertyTree.walkedKeys_ne_nil named)] at below
    rw [if_neg named]
    omega

/-- `node.get_child_optional(name)` -/
def getChildOptional (node : Ptree) (name : String) : Option (Within node name) :=
  (node.getChild (walkedKeys name)).pmap Subtype.mk fun _ => rank_of_getChild

theorem getChildOptional_of_some {node item : Ptree} {name : String}
    (found : node.getChild (walkedKeys name) = some item) :
    getChildOptional node name = some ⟨item, rank_of_getChild found⟩ := by
  simp only [getChildOptional, Option.pmap_eq_some_iff]
  exact ⟨item, rank_of_getChild found, found, rfl⟩

theorem getChild_of_getChildOptional {node : Ptree} {name : String} {item : Within node name}
    (found : getChildOptional node name = some item) :
    node.getChild (walkedKeys name) = some item.1 := by
  simp only [getChildOptional, Option.pmap_eq_some_iff] at found
  obtain ⟨other, _, inside, same⟩ := found
  rw [inside, same]

theorem getChildOptional_of_none {node : Ptree} {name : String}
    (missing : node.getChild (walkedKeys name) = none) : getChildOptional node name = none :=
  Option.pmap_eq_none_iff.mpr missing

def noNode (what name : String) : String :=
  "[Mif::Serialization::Xml::Detail::Deserialize] Failed to parse " ++ what ++ ". No node \"" ++
    name ++ "\"."

/-- `node.get_optional<std::string>(name)`, with the exception of the overload when there is
no such node. -/
def getText (what : String) (node : Ptree) (name : String) : Outcome String :=
  match node.getChild (walkedKeys name) with
  | some item => .ok item.data
  | none => throwing (noNode what name)

/-- The node of a reflected struct: a child with the name of the type comes before a child
with the name that was asked for. -/
def structItem (program : XmlProgram schema) (id : Nat) (node : Ptree) (name : String) :
    Outcome (Within node name) :=
  match getChildOptional node (program.shortName id) with
  | some item => .ok ⟨item.1,
      Nat.lt_of_lt_of_le item.2 (rank_le_of_named (plain_shortName program id).1 node name)⟩
  | none =>
      match getChildOptional node name with
      | some item => .ok item
      | none => throwing ("No such node (" ++ name ++ ")")

/-- The bits of a `char`. -/
def charOf : Val schema (.int .int8) → BitVec 8
  | .int value => value

/-- A call for which no overload of the source compiles. -/
def noOverload {α : Type} : Outcome α := throwing "no matching function"

theorem lex_of_le {first first' second second' : Nat} (outer : first ≤ first')
    (inner : second < second') :
    Prod.Lex (· < ·) (· < ·) (first, second) (first', second') := by
  rcases Nat.lt_or_eq_of_le outer with below | same
  · exact Prod.Lex.left _ _ below
  · subst same
    exact Prod.Lex.right _ inner

/-- `Deserialize(node, object, name)`: the value of the object when the call returns. For
`boost::optional`, tuples and arrays no overload compiles. -/
def deserialize (program : XmlProgram schema) :
    (type : Ty) → Ptree → Val schema type → String → Outcome (Val schema type)
  | .bool, node, .bool object, name => do
      let text ← getText "value" node name
      return .bool (XmlText.toBool text object)
  | .int kind, node, .int object, name => do
      let text ← getText "value" node name
      return .int (XmlText.toInt kind text object)
  | .double, node, .double object, name => do
      let text ← getText "value" node name
      return .double (program.toDouble text object)
  | .string, node, _, name => do
      let text ← getText "string" node name
      return .string text
  | .enum items, node, _, name => do
      let text ← getText "enum value" node name
      let value ← items.fromString text
      return .enum value
  | .rawEnum kind, node, _, name => do
      let text ← getText "enum value" node name
      match program.toRawEnum kind text with
      | some value => return .rawEnum value
      | none => throwing (noNode "enum value" name)
  | .nullable .smartPointer type, node, _, name =>
      (deserialize program type node (program.initialOf type) name).map .holds
  | .pair first second, node, .pair one two, _ => do
      let one ← deserialize program first node one Xml.Tag.id
      let two ← deserialize program second node two Xml.Tag.value
      return .pair one two
  | .iter container type, node, _, name =>
      match getChildOptional node name with
      | some items => do
          let values ← (EvalOrder.leftToRight items.1.children.length).evaluate fun index =>
            deserialize program type (items.1.children.get index).2 (program.fresh type) ""
          return .ofList ((List.ofFn values).foldl (program.insert type container) [])
      | none => throwing (noNode "container" name)
  | .chars, node, _, name =>
      match getChildOptional node name with
      | some items =>
          .ok (.chars (items.1.children.map fun item =>
            XmlText.toInt .int8 item.2.data (charOf (program.fresh (.int .int8)))))
      | none => throwing (noNode "container" name)
  | .struct id, node, .struct bases fields rest, name => do
      let item ← structItem program id node name
      let bases ← (EvalOrder.leftToRight _).evaluate fun index =>
        deserialize program (.struct (schema.base id index)) item.1 (bases index)
          (program.baseFullName id index)
      let fields ← (EvalOrder.leftToRight _).evaluate fun index =>
        deserialize program (schema.fieldType id index) item.1 (fields index)
          (program.fieldName id index)
      return .struct bases fields rest
  | .nullable .optional _, _, _, _ => noOverload
  | .tuple _, _, _, _ => noOverload
  | .array _ _, _, _, _ => noOverload
termination_by type node _ name => (rank node name, sizeOf type)
decreasing_by
  · exact Prod.Lex.right _ (by simp only [Ty.nullable.sizeOf_spec]; omega)
  · apply lex_of_le (rank_le_of_named (by decide) node _)
    simp only [Ty.pair.sizeOf_spec]
    omega
  · apply lex_of_le (rank_le_of_named (by decide) node _)
    simp only [Ty.pair.sizeOf_spec]
    omega
  · apply Prod.Lex.left
    have down := PropertyTree.sizeOf_child (List.get_mem items.1.children index)
    have within : 2 * sizeOf items.1 < rank node name := items.2
    calc
      rank (items.1.children.get index).2 "" = 2 * sizeOf (items.1.children.get index).2 + 1 := by
        rw [rank, if_pos rfl]
      _ < 2 * sizeOf items.1 := by omega
      _ < rank node name := within
  · apply Prod.Lex.left
    rw [rank_of_named (plain_baseFullName program id index).1]
    exact item.2
  · apply Prod.Lex.left
    rw [rank_of_named (plain_fieldName program id index).1]
    exact item.2

/- What the overloads do on the node that they find. -/
section

variable (program : XmlProgram schema) {node item : Ptree} {name : String}

attribute [local simp] deserialize

theorem getText_of_some {what : String} (found : node.getChild (walkedKeys name) = some item) :
    getText what node name = .ok item.data := by
  rw [getText, found]

theorem getText_of_none {what : String} (missing : node.getChild (walkedKeys name) = none) :
    getText what node name = throwing (noNode what name) := by
  rw [getText, missing]

theorem deserialize_bool_of_some (found : node.getChild (walkedKeys name) = some item)
    (object : Bool) :
    deserialize program .bool node (.bool object) name =
      .ok (.bool (XmlText.toBool item.data object)) := by
  simp [getText_of_some found, bind, Except.bind, pure, Except.pure]

theorem deserialize_int_of_some {kind : IntKind}
    (found : node.getChild (walkedKeys name) = some item) (object : BitVec kind.width) :
    deserialize program (.int kind) node (.int object) name =
      .ok (.int (XmlText.toInt kind item.data object)) := by
  simp [getText_of_some found, bind, Except.bind, pure, Except.pure]

theorem deserialize_double_of_some (found : node.getChild (walkedKeys name) = some item)
    (object : Float) :
    deserialize program .double node (.double object) name =
      .ok (.double (program.toDouble item.data object)) := by
  simp [getText_of_some found, bind, Except.bind, pure, Except.pure]

theorem deserialize_string_of_some (found : node.getChild (walkedKeys name) = some item)
    (object : Val schema .string) :
    deserialize program .string node object name = .ok (.string item.data) := by
  simp [getText_of_some found, bind, Except.bind, pure, Except.pure]

theorem deserialize_enum_of_some {items : ReflectedEnum}
    (found : node.getChild (walkedKeys name) = some item) (object : Val schema (.enum items)) :
    deserialize program (.enum items) node object name =
      (do let value ← items.fromString item.data
          return .enum value) := by
  simp [getText_of_some found, bind, Except.bind]

/-- The node that a reflected struct is read from. -/
def structNode (id : Nat) (node : Ptree) (name : String) : Option Ptree :=
  (node.getChild (walkedKeys (program.shortName id))).or (node.getChild (walkedKeys name))

theorem structNode_of_plain {id : Nat} (plain : Plain name) (node : Ptree) :
    structNode program id node name =
      (node.find (program.shortName id)).or (node.find name) := by
  rw [structNode, getChild_of_plain (plain_shortName program id), getChild_of_plain plain]

theorem structItem_of_some {id : Nat} (found : structNode program id node name = some item) :
    ∃ within, structItem program id node name = .ok ⟨item, within⟩ := by
  unfold structNode at found
  unfold structItem
  cases typed : node.getChild (walkedKeys (program.shortName id)) with
  | some other =>
      rw [typed] at found
      cases found
      rw [getChildOptional_of_some typed]
      exact ⟨_, rfl⟩
  | none =>
      rw [typed, Option.none_or] at found
      rw [getChildOptional_of_none typed, getChildOptional_of_some found]
      exact ⟨_, rfl⟩

theorem structItem_of_none {id : Nat} (missing : structNode program id node name = none) :
    structItem program id node name = throwing ("No such node (" ++ name ++ ")") := by
  rw [structNode, Option.or_eq_none_iff] at missing
  rw [structItem, getChildOptional_of_none missing.1, getChildOptional_of_none missing.2]

theorem deserialize_struct_of_some {id : Nat}
    {bases : ∀ index, Val schema (.struct (schema.base id index))}
    {fields : ∀ index, Val schema (schema.fieldType id index)}
    {rest : ∀ index, Val schema (schema.restType id index)}
    (found : structNode program id node name = some item) :
    deserialize program (.struct id) node (.struct bases fields rest) name = (do
      let bases ← (EvalOrder.leftToRight _).evaluate fun index =>
        deserialize program (.struct (schema.base id index)) item (bases index)
          (program.baseFullName id index)
      let fields ← (EvalOrder.leftToRight _).evaluate fun index =>
        deserialize program (schema.fieldType id index) item (fields index)
          (program.fieldName id index)
      return .struct bases fields rest) := by
  obtain ⟨within, read⟩ := structItem_of_some program found
  rw [deserialize, read]
  rfl

theorem deserialize_struct_of_none {id : Nat} {object : Val schema (.struct id)}
    (missing : structNode program id node name = none) :
    deserialize program (.struct id) node object name =
      throwing ("No such node (" ++ name ++ ")") := by
  cases object with
  | struct bases fields rest =>
      rw [deserialize, structItem_of_none program missing]
      rfl

variable {container : Container} {type : Ty}

theorem deserialize_iter_of_some {object : Val schema (.iter container type)}
    (found : node.getChild (walkedKeys name) = some item) :
    deserialize program (.iter container type) node object name = (do
      let values ← (EvalOrder.leftToRight item.children.length).evaluate fun index =>
        deserialize program type (item.children.get index).2 (program.fresh type) ""
      return .ofList ((List.ofFn values).foldl (program.insert type container) [])) := by
  rw [deserialize, getChildOptional_of_some found]

theorem deserialize_iter_of_none {object : Val schema (.iter container type)}
    (missing : node.getChild (walkedKeys name) = none) :
    deserialize program (.iter container type) node object name =
      throwing (noNode "container" name) := by
  rw [deserialize, getChildOptional_of_none missing]

theorem deserialize_chars_of_some {object : Val schema .chars}
    (found : node.getChild (walkedKeys name) = some item) :
    deserialize program .chars node object name =
      .ok (.chars (item.children.map fun item =>
        XmlText.toInt .int8 item.2.data (charOf (program.fresh (.int .int8))))) := by
  rw [deserialize, getChildOptional_of_some found]

theorem deserialize_chars_of_none {object : Val schema .chars}
    (missing : node.getChild (walkedKeys name) = none) :
    deserialize program .chars node object name = throwing (noNode "container" name) := by
  rw [deserialize, getChildOptional_of_none missing]

end

end Mif.Serialization.Xml
