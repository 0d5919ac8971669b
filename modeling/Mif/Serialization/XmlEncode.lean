import Mif.Lib.EvalOrder
import Mif.Lib.PropertyTree
import Mif.Common.Fault
import Mif.Reflection.Schema
import Mif.Serialization.XmlText
import Mif.Serialization.XmlDecode

set_option autoImplicit false

/- `Xml::Detail::Serialize` and its overloads. -/
namespace Mif.Serialization.Xml

open Mif.Reflection
open PropertyTree (pathKeys)

variable {schema : Schema}

/-- The calls of `node.add` for these names and items, one after the other. -/
def addAll (entries : List (String × Ptree)) (node : Ptree) : Ptree :=
  entries.foldl (fun node entry => PropertyTree.add "" entry.2 (pathKeys entry.1) node) node

/-- The name that an overload gives to its item. A struct that is given no name takes that
of its type. -/
def itemName (program : XmlProgram schema) : {type : Ty} → Val schema type → String → String
  | .struct id, .struct _ _ _, name => if name = "" then program.shortName id else name
  | .nullable .smartPointer _, .holds value, name => itemName program value name
  | _, _, name => name

/-- The item that an overload adds to its node, with all that is put into it. The overload
for tuples fills a copy of its item. For `boost::optional` no overload compiles. -/
def content (program : XmlProgram schema) : {type : Ty} → Val schema type → Outcome Ptree
  | _, .bool value => .ok (.leaf (XmlText.ofBool value))
  | .int kind, .int value => .ok (.leaf (XmlText.ofInt kind value))
  | _, .double value => .ok (.leaf (program.ofDouble value))
  | _, .string value => .ok (.leaf value)
  | .enum items, .enum value => (items.toString value).map .leaf
  | .rawEnum kind, .rawEnum value => .ok (.leaf (XmlText.ofInt kind value))
  | .nullable .smartPointer _, .empty => .ok (.leaf "")
  | .nullable .smartPointer _, .holds value => content program value
  | .nullable .optional _, _ => noOverload
  | _, .pair one two => do
      let id ← content program one
      let value ← content program two
      return addAll [(itemName program one Xml.Tag.id, id),
        (itemName program two Xml.Tag.value, value)] (.leaf "")
  | _, .tuple values => do
      let _ ← (EvalOrder.leftToRight _).evaluate fun index => content program (values index)
      return .leaf ""
  | _, .array values => do
      let items ← (EvalOrder.leftToRight _).evaluate fun index => content program (values index)
      return addAll (List.ofFn fun index =>
        (itemName program (values index) Xml.Tag.item, items index)) (.leaf "")
  | _, .iter _ values => do
      let items ← (EvalOrder.leftToRight _).evaluate fun index => content program (values index)
      return addAll (List.ofFn fun index =>
        (itemName program (values index) Xml.Tag.item, items index)) (.leaf "")
  | _, .chars values =>
      .ok (addAll (values.map fun value => (Xml.Tag.item, .leaf (XmlText.ofInt .int8 value)))
        (.leaf ""))
  | .struct id, .struct bases fields _ => do
      let baseItems ← (EvalOrder.leftToRight _).evaluate fun index => content program (bases index)
      let fieldItems ← (EvalOrder.leftToRight _).evaluate fun index =>
        content program (fields index)
      return addAll
        ((List.ofFn fun index =>
          (itemName program (bases index) (program.baseFullName id index), baseItems index)) ++
          List.ofFn fun index =>
            (itemName program (fields index) (program.fieldName id index), fieldItems index))
        (.leaf "")

/-- `Serialize(node, object, name)`: the node when the call returns. -/
def serialize (program : XmlProgram schema) {type : Ty} (value : Val schema type)
    (name : String) (node : Ptree) : Outcome Ptree := do
  let item ← content program value
  return PropertyTree.add "" item (pathKeys (itemName program value name)) node

/- The item of a value is made of those of its parts. -/
section

variable {program : XmlProgram schema}

theorem content_enum_of_ok {items : ReflectedEnum} {value : Int} {name : String}
    (named : items.toString value = .ok name) :
    content program (.enum value : Val schema (.enum items)) = .ok (.leaf name) := by
  change (items.toString value).map PropertyTree.leaf = _
  rw [named]
  rfl

theorem content_pair_of_ok {first second : Ty} {one : Val schema first} {two : Val schema second}
    {id value : Ptree} (writtenId : content program one = .ok id)
    (writtenValue : content program two = .ok value) :
    content program (.pair one two) =
      .ok (addAll [(itemName program one Xml.Tag.id, id),
        (itemName program two Xml.Tag.value, value)] (.leaf "")) :=
  bind_eq_ok.mpr ⟨id, writtenId, bind_eq_ok.mpr ⟨value, writtenValue, rfl⟩⟩

theorem content_iter_of_ok {container : Container} {size : Nat} {type : Ty}
    {values : Fin size → Val schema type} {items : Fin size → Ptree}
    (written : ∀ index, content program (values index) = .ok (items index)) :
    content program (.iter size values : Val schema (.iter container type)) =
      .ok (addAll (List.ofFn fun index =>
        (itemName program (values index) Xml.Tag.item, items index)) (.leaf "")) :=
  (EvalOrder.evaluate_bind_eq_ok _ _ _ _).mpr ⟨items, written, rfl⟩

theorem content_struct_of_ok {id : Nat} {baseItems : schema.BaseIndex id → Ptree}
    {fieldItems : schema.FieldIndex id → Ptree}
    {bases : ∀ index, Val schema (.struct (schema.base id index))}
    {fields : ∀ index, Val schema (schema.fieldType id index)}
    {rest : ∀ index, Val schema (schema.restType id index)}
    (writtenBases : ∀ index, content program (bases index) = .ok (baseItems index))
    (writtenFields : ∀ index, content program (fields index) = .ok (fieldItems index)) :
    content program (.struct bases fields rest) =
      .ok (addAll
        ((List.ofFn fun index =>
          (itemName program (bases index) (program.baseFullName id index), baseItems index)) ++
          List.ofFn fun index =>
            (itemName program (fields index) (program.fieldName id index), fieldItems index))
        (.leaf "")) := by
  refine bind_eq_ok.mpr ⟨baseItems, (EvalOrder.evaluate_eq_ok _ _ _).mpr writtenBases, ?_⟩
  exact (EvalOrder.evaluate_bind_eq_ok _ _ _ _).mpr ⟨fieldItems, writtenFields, rfl⟩

end

end Mif.Serialization.Xml
