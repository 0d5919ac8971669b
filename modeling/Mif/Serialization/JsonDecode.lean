import Mif.Lib.EvalOrder
import Mif.Common.Fault
import Mif.Reflection.Schema
import Mif.Serialization.JsonValue

set_option autoImplicit false

/- `JsonToValue` and its overloads. An overload that the language would not let a caller
instantiate (a pair, tuple or array directly under a nullable type or at the root) is
modelled like the others. -/
namespace Mif.Serialization

open Mif.Reflection

/- The names of `Detail::Tag`. -/
namespace Tag

def id : String := "id"
def value : String := "val"

end Tag

variable {schema : Schema}

namespace JsonToValue

def detail (text : String) : String :=
  "[Mif::Serialization::Json::Detail::JsonToValue] " ++ text

def failedToParse (type : String) : String :=
  detail ("Failed to parse pair. Value is null or json has no " ++ type ++ " type object.")

def notConverted (type : String) : String :=
  detail ("Failed to get value. Json element is invalid or is not converted to the " ++ type ++ ".")

/-- The overloads for simple types and enums. -/
def simple {α : Type} (convert : Json → Outcome α) (json : Json) : Outcome α :=
  if json.isNull then throwing (detail "Failed to get value from null.") else convert json

/-- The overload for containers of `char`. -/
def hexToChars (text : String) : List (BitVec 8) :=
  if text.isEmpty then [] else HexStream.bytes (JsonValueConverter.cStr text).toList

end JsonToValue

open JsonToValue (failedToParse notConverted simple hexToChars)

/-- `JsonToValue(root, object)`: the value of the object when the call returns. -/
def jsonToValue (program : Program schema) :
    (type : Ty) → Json → Val schema type → Outcome (Val schema type)
  | .bool, json, _ => (simple JsonValueConverter.toBool json).map .bool
  | .int kind, json, _ => (simple (JsonValueConverter.toInt kind) json).map .int
  | .double, json, _ => (simple JsonValueConverter.toDouble json).map .double
  | .string, json, _ => (simple JsonValueConverter.toString json).map .string
  | .enum items, json, _ =>
      (simple (fun json => JsonValueConverter.toString json >>= items.fromString) json).map .enum
  | .rawEnum kind, json, _ => (simple (JsonValueConverter.toInt kind) json).map .rawEnum
  | .nullable _ type, json, object =>
      if json.isNull then .ok object
      else (jsonToValue program type json (program.initialOf type)).map .holds
  | .pair first second, json, .pair one two =>
      match json with
      | .object members => do
          -- The guard of this overload holds for no object, so no key is checked.
          let id ← Json.dereference Tag.id members
          let one ← jsonToValue program first id.1 one
          let value ← Json.dereference Tag.value members
          let two ← jsonToValue program second value.1 two
          return .pair one two
      | _ => undefined .nullDereference
  | .tuple types, json, .tuple values =>
      match json with
      | .array items => do
          let values ← (program.order types).evaluate fun index => do
            let item ← Json.element index.val items
            jsonToValue program (types index) item.1 (values index)
          return .tuple values
      | _ => throwing (failedToParse "tuple")
  | .array size type, json, _ =>
      match json with
      | .array items => do
          let values ← (program.order fun _ : Fin size => type).evaluate fun index => do
            let item ← Json.element index.val items
            jsonToValue program type item.1 (program.initialOf type)
          return .array values
      | _ => throwing (failedToParse "array")
  | .iter container type, json, _ =>
      match json with
      | .array items => do
          let values ← (EvalOrder.leftToRight items.length).evaluate fun index =>
            jsonToValue program type (Json.visited items index).1 (program.initialOf type)
          return .ofList ((List.ofFn values).foldl (program.insert type container) [])
      | _ => throwing (notConverted "array")
  | .chars, json, _ =>
      match json with
      | .string text => .ok (.chars (hexToChars text))
      | _ => throwing (notConverted "array")
  | .struct id, json, .struct bases fields rest =>
      match json with
      | .object members => do
          let bases ← (EvalOrder.leftToRight _).evaluate fun index => do
            let item ← Json.atKey (schema.baseName id index) members
            jsonToValue program (.struct (schema.base id index)) item.1 (bases index)
          let fields ← (EvalOrder.leftToRight _).evaluate fun index =>
            jsonToValue program (schema.fieldType id index)
              (Json.memberOrNull (schema.fieldName id index) members).1 (fields index)
          return .struct bases fields rest
      | _ => throwing (notConverted "correct type")
termination_by type json => (sizeOf json, sizeOf type)
decreasing_by
  · exact Prod.Lex.right _ (by simp only [Ty.nullable.sizeOf_spec]; omega)
  · exact Prod.Lex.left _ _ id.2
  · exact Prod.Lex.left _ _ value.2
  · exact Prod.Lex.left _ _ item.2
  · exact Prod.Lex.left _ _ item.2
  · exact Prod.Lex.left _ _ (Json.visited items index).2
  · exact Prod.Lex.left _ _ item.2
  · exact Prod.Lex.left _ _ (Json.memberOrNull (schema.fieldName id index) members).2

/- The overloads that look at the whole of the document at once. -/
section

variable {program : Program schema} {json : Json}

attribute [local simp] jsonToValue

@[simp] theorem jsonToValue_bool (object : Val schema .bool) :
    jsonToValue program .bool json object =
      (simple JsonValueConverter.toBool json).map .bool := by
  simp

@[simp] theorem jsonToValue_int {kind : IntKind} (object : Val schema (.int kind)) :
    jsonToValue program (.int kind) json object =
      (simple (JsonValueConverter.toInt kind) json).map .int := by
  simp

@[simp] theorem jsonToValue_double (object : Val schema .double) :
    jsonToValue program .double json object =
      (simple JsonValueConverter.toDouble json).map .double := by
  simp

@[simp] theorem jsonToValue_string (object : Val schema .string) :
    jsonToValue program .string json object =
      (simple JsonValueConverter.toString json).map .string := by
  simp

@[simp] theorem jsonToValue_enum {items : ReflectedEnum} (object : Val schema (.enum items)) :
    jsonToValue program (.enum items) json object =
      (simple (fun json => JsonValueConverter.toString json >>= items.fromString) json).map
        .enum := by
  simp

@[simp] theorem jsonToValue_rawEnum {kind : IntKind} (object : Val schema (.rawEnum kind)) :
    jsonToValue program (.rawEnum kind) json object =
      (simple (JsonValueConverter.toInt kind) json).map .rawEnum := by
  simp

@[simp] theorem jsonToValue_nullable {how : Nullable} {type : Ty}
    (object : Val schema (.nullable how type)) :
    jsonToValue program (.nullable how type) json object =
      if json.isNull then .ok object
      else (jsonToValue program type json (program.initialOf type)).map .holds := by
  simp

end

end Mif.Serialization
