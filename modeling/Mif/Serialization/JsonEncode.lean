import Mif.Lib.EvalOrder
import Mif.Common.Fault
import Mif.Reflection.Schema
import Mif.Serialization.JsonValue
import Mif.Serialization.JsonDecode

set_option autoImplicit false

/- `ValueToJson` and its overloads, and the entry points `Serialize` and `Deserialize`. -/
namespace Mif.Serialization

open Mif.Reflection

variable {schema : Schema}

namespace ValueToJson

/-- `boost::json::value_from` of an integer: a signed one is of kind `int64`, an unsigned
one of kind `uint64`. -/
def ofInt (kind : IntKind) (value : BitVec kind.width) : Json :=
  if kind.signed then .int64 (value.signExtend 64) else .uint64 (value.setWidth 64)

/-- `stream << std::hex << std::setw(2) << std::setfill('0') << static_cast<int>(i) << ' '` -/
def hexByte (byte : BitVec 8) : List Char :=
  let digits := Nat.toDigits 16 (byte.signExtend 32).toNat
  List.replicate (2 - digits.length) '0' ++ digits ++ [' ']

/-- The overload for containers of `char`: an array with one string. -/
def ofChars (bytes : List (BitVec 8)) : Json :=
  .array [.string (String.ofList (bytes.flatMap hexByte))]

/-- The assignments `object[name] = json`, one after the other. -/
def assignAll (entries : List (String × Json)) : List (String × Json) :=
  entries.foldl (fun members entry => Json.assign entry.1 entry.2 members) []

end ValueToJson

open ValueToJson (ofInt ofChars assignAll)

/-- `ValueToJson` -/
def valueToJson (program : Program schema) : {type : Ty} → Val schema type → Outcome Json
  | _, .bool value => .ok (.bool value)
  | .int kind, .int value => .ok (ofInt kind value)
  | _, .double value => .ok (.double value)
  | _, .string value => .ok (.string value)
  | .enum items, .enum value => (items.toString value).map .string
  | .rawEnum kind, .rawEnum value => .ok (ofInt kind value)
  | _, .empty => .ok .null
  | _, .holds value => valueToJson program value
  | _, .pair one two => do
      let id ← valueToJson program one
      let value ← valueToJson program two
      return .object (assignAll [(Tag.id, id), (Tag.value, value)])
  | .tuple types, .tuple values => do
      let items ← (program.order types).evaluate fun index => valueToJson program (values index)
      return .array (List.ofFn items)
  | _, .array values => do
      let items ← (EvalOrder.leftToRight _).evaluate fun index =>
        valueToJson program (values index)
      return .array (List.ofFn items)
  | _, .iter _ values => do
      let items ← (EvalOrder.leftToRight _).evaluate fun index =>
        valueToJson program (values index)
      return .array (List.ofFn items)
  | _, .chars values => .ok (ofChars values)
  | .struct id, .struct bases fields _ => do
      let baseItems ← (EvalOrder.leftToRight _).evaluate fun index =>
        valueToJson program (bases index)
      let fieldItems ← (EvalOrder.leftToRight _).evaluate fun index =>
        valueToJson program (fields index)
      return .object (assignAll
        ((List.ofFn fun index => (schema.baseName id index, baseItems index)) ++
          List.ofFn fun index => (schema.fieldName id index, fieldItems index)))

/- A value is written when its parts are. -/
section

variable {program : Program schema} {json : Json}

theorem valueToJson_enum_eq_ok {items : ReflectedEnum} {value : Int} :
    valueToJson program (.enum value : Val schema (.enum items)) = .ok json ↔
      ∃ name, items.toString value = .ok name ∧ .string name = json := by
  change (items.toString value).map Json.string = .ok json ↔ _
  cases items.toString value with
  | error fault => simp [Except.map]
  | ok name => simp [Except.map]

theorem valueToJson_pair_eq_ok {first second : Ty} {one : Val schema first}
    {two : Val schema second} :
    valueToJson program (.pair one two) = .ok json ↔
      ∃ id value, valueToJson program one = .ok id ∧ valueToJson program two = .ok value ∧
        .object (assignAll [(Tag.id, id), (Tag.value, value)]) = json := by
  constructor
  · intro written
    obtain ⟨id, writtenId, written⟩ := ok_of_bind written
    obtain ⟨value, writtenValue, written⟩ := ok_of_bind written
    exact ⟨id, value, writtenId, writtenValue, Except.ok.inj written⟩
  · rintro ⟨id, value, writtenId, writtenValue, built⟩
    exact bind_eq_ok.mpr ⟨id, writtenId,
      bind_eq_ok.mpr ⟨value, writtenValue, congrArg Except.ok built⟩⟩

theorem valueToJson_tuple_eq_ok {size : Nat} {types : Fin size → Ty}
    {values : ∀ index, Val schema (types index)} :
    valueToJson program (.tuple values) = .ok json ↔
      ∃ items : Fin size → Json,
        (∀ index, valueToJson program (values index) = .ok (items index)) ∧
        .array (List.ofFn items) = json :=
  EvalOrder.evaluate_bind_eq_ok _ _ _ _

theorem valueToJson_array_eq_ok {size : Nat} {type : Ty} {values : Fin size → Val schema type} :
    valueToJson program (.array values) = .ok json ↔
      ∃ items : Fin size → Json,
        (∀ index, valueToJson program (values index) = .ok (items index)) ∧
        .array (List.ofFn items) = json :=
  EvalOrder.evaluate_bind_eq_ok _ _ _ _

theorem valueToJson_iter_eq_ok {container : Container} {size : Nat} {type : Ty}
    {values : Fin size → Val schema type} :
    valueToJson program (.iter size values : Val schema (.iter container type)) = .ok json ↔
      ∃ items : Fin size → Json,
        (∀ index, valueToJson program (values index) = .ok (items index)) ∧
        .array (List.ofFn items) = json :=
  EvalOrder.evaluate_bind_eq_ok _ _ _ _

theorem valueToJson_struct_eq_ok {id : Nat}
    {bases : ∀ index, Val schema (.struct (schema.base id index))}
    {fields : ∀ index, Val schema (schema.fieldType id index)}
    {rest : ∀ index, Val schema (schema.restType id index)} :
    valueToJson program (.struct bases fields rest) = .ok json ↔
      ∃ (baseItems : schema.BaseIndex id → Json) (fieldItems : schema.FieldIndex id → Json),
        (∀ index, valueToJson program (bases index) = .ok (baseItems index)) ∧
        (∀ index, valueToJson program (fields index) = .ok (fieldItems index)) ∧
        .object (assignAll
          ((List.ofFn fun index => (schema.baseName id index, baseItems index)) ++
            List.ofFn fun index => (schema.fieldName id index, fieldItems index))) = json := by
  constructor
  · intro written
    obtain ⟨baseItems, writtenBases, written⟩ := ok_of_bind written
    obtain ⟨fieldItems, writtenFields, built⟩ :=
      (EvalOrder.evaluate_bind_eq_ok _ _ _ _).mp written
    rw [EvalOrder.evaluate_eq_ok] at writtenBases
    exact ⟨baseItems, fieldItems, writtenBases, writtenFields, built⟩
  · rintro ⟨baseItems, fieldItems, writtenBases, writtenFields, built⟩
    refine bind_eq_ok.mpr ⟨baseItems, (EvalOrder.evaluate_eq_ok _ _ _).mpr writtenBases, ?_⟩
    exact (EvalOrder.evaluate_bind_eq_ok _ _ _ _).mpr ⟨fieldItems, writtenFields, built⟩

/-- A reflected struct is written as an object. -/
theorem valueToJson_struct {id : Nat} {value : Val schema (.struct id)}
    (written : valueToJson program value = .ok json) : ∃ members, json = .object members := by
  cases value with
  | struct bases fields rest =>
      obtain ⟨baseItems, fieldItems, -, -, rfl⟩ := valueToJson_struct_eq_ok.mp written
      exact ⟨_, rfl⟩

end

/-- The writer and the parser of Boost.JSON over a type of texts. -/
structure BoostJson (Text : Type) where
  write : Json → Text
  parse : Text → Outcome Json

variable {Text : Type}

/-- The value that is written. A reflected struct is written as it is; another value may
be put under a root name. -/
def document (type : Ty) (rootName : String) (json : Json) : Json :=
  match type with
  | .struct _ => json
  | _ => if rootName = "" then json else .object [(rootName, json)]

/-- `Serialize(object, rootName)` -/
def serialize (program : Program schema) (boost : BoostJson Text) {type : Ty}
    (value : Val schema type) (rootName : String) : Outcome Text := do
  let json ← valueToJson program value
  return boost.write (document type rootName json)

/-- `root.as_object()[rootName]`, or the root itself without a root name. -/
def rootMember (rootName : String) (root : Json) : Outcome Json :=
  if rootName = "" then .ok root
  else
    match root with
    | .object members => .ok (Json.memberOrNull rootName members).1
    | _ => throwing "not an object"

/-- `Deserialize` for a reflected struct: without bases and fields nothing looks at the
root. -/
def deserializeStruct (program : Program schema) (id : Nat) (root : Json) :
    Outcome (Val schema (.struct id)) :=
  match root with
  | .object members => jsonToValue program (.struct id) (.object members) (program.initial id)
  | _ =>
      if (schema.struct id).bases = [] ∧ (schema.struct id).fields = [] then
        .ok (program.initial id)
      else throwing "not an object"

def readDocument (program : Program schema) (rootName : String) (root : Json) :
    (type : Ty) → Outcome (Val schema type)
  | .struct id => deserializeStruct program id root
  | type => do
      let json ← rootMember rootName root
      jsonToValue program type json (program.initialOf type)

/-- `Deserialize<T>(buffer, rootName)` -/
def deserialize (program : Program schema) (boost : BoostJson Text) (type : Ty)
    (text : Text) (rootName : String) : Outcome (Val schema type) := do
  let root ← boost.parse text
  readDocument program rootName root type

end Mif.Serialization
