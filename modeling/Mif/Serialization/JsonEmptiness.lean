import Mathlib.Algebra.Ring.Nat
import Mathlib.Data.List.OfFn
import Mif.Lib.EvalOrder
import Mif.Common.Fault
import Mif.Reflection.Schema
import Mif.Reflection.Containers
import Mif.Reflection.EnumNames
import Mif.Serialization.JsonValue
import Mif.Serialization.JsonDecode
import Mif.Serialization.JsonEncode
import Mif.Serialization.JsonReadBack
import Mif.Serialization.JsonRoundTrip
import Mif.Serialization.JsonBytes

set_option autoImplicit false

/- The empty optionals and pointers of a value, and those of what is decoded from its
document. Null is the encoding of every empty level, and the decoder leaves its object
untouched on null. -/
namespace Mif.Serialization

open Mif.Reflection
open Fragment

variable {schema : Schema}

namespace Emptiness

/-- The types whose values have no parts. -/
def isFlat : Ty → Bool
  | .bool | .int _ | .double | .string | .enum _ | .rawEnum _ | .chars => true
  | _ => false

/-- Two values are empty at the same positions. -/
inductive Same : {type : Ty} → Val schema type → Val schema type → Prop
  | flat {type : Ty} (simple : isFlat type = true) (one two : Val schema type) : Same one two
  | empty {how : Nullable} {type : Ty} : Same (.empty : Val schema (.nullable how type)) .empty
  | holds {how : Nullable} {type : Ty} {one two : Val schema type} (inner : Same one two) :
      Same (.holds one : Val schema (.nullable how type)) (.holds two)
  | pair {first second : Ty} {one one' : Val schema first} {two two' : Val schema second}
      (left : Same one one') (right : Same two two') : Same (.pair one two) (.pair one' two')
  | tuple {size : Nat} {types : Fin size → Ty} {ones twos : ∀ index, Val schema (types index)}
      (each : ∀ index, Same (ones index) (twos index)) : Same (.tuple ones) (.tuple twos)
  | array {size : Nat} {type : Ty} {ones twos : Fin size → Val schema type}
      (each : ∀ index, Same (ones index) (twos index)) : Same (.array ones) (.array twos)
  | iter {container : Container} {size : Nat} {type : Ty} {ones twos : Fin size → Val schema type}
      (each : ∀ index, Same (ones index) (twos index)) :
      Same (.iter size ones : Val schema (.iter container type)) (.iter size twos)
  | struct {id : Nat} {bases bases' : ∀ index, Val schema (.struct (schema.base id index))}
      {fields fields' : ∀ index, Val schema (schema.fieldType id index)}
      {rest rest' : ∀ index, Val schema (schema.restType id index)}
      (eachBase : ∀ index, Same (bases index) (bases' index))
      (eachField : ∀ index, Same (fields index) (fields' index))
      (eachRest : ∀ index, Same (rest index) (rest' index)) :
      Same (.struct bases fields rest) (.struct bases' fields' rest')

theorem Same.refl {type : Ty} (value : Val schema type) : Same value value := by
  induction value with
  | empty => exact .empty
  | holds value ih => exact .holds ih
  | pair one two ihOne ihTwo => exact .pair ihOne ihTwo
  | tuple values ih => exact .tuple ih
  | array values ih => exact .array ih
  | iter size values ih => exact .iter ih
  | struct bases fields rest ihBases ihFields ihRest => exact .struct ihBases ihFields ihRest
  | _ => exact .flat rfl _ _

section

variable {type first second : Ty} {size : Nat}

end

/-- The key of a map's element. -/
def key {first second : Ty} : Val schema (.pair first second) → Val schema first
  | .pair one _ => one

/-- The element is read back as itself. -/
def ReadBack (program : Program schema) {type : Ty} (value : Val schema type) : Prop :=
  ReadAs program value (program.initialOf type) value

/-- Inserting these elements in order makes the container again. -/
def Rebuilt (program : Program schema) {type : Ty} (container : Container) {size : Nat}
    (values : Fin size → Val schema type) : Prop :=
  (List.ofFn values).foldl (program.insert type container) [] = List.ofFn values

/-- Inserting the elements in order makes the container again, also after their nullable
parts were read: whatever they are, as in a vector, because they are read back, as those of a
set, or because their keys are, as in a map. -/
inductive Refilled (program : Program schema) (container : Container) {size : Nat} :
    {type : Ty} → (Fin size → Val schema type) → Prop
  | anyway {type : Ty} {values : Fin size → Val schema type}
      (rebuilt : ∀ others : Fin size → Val schema type, Rebuilt program container others) :
      Refilled program container values
  | elements {type : Ty} {values : Fin size → Val schema type}
      (kept : ∀ index, ReadBack program (values index))
      (rebuilt : Rebuilt program container values) : Refilled program container values
  | keys {first second : Ty} {values : Fin size → Val schema (.pair first second)}
      (kept : ∀ index, ReadBack program (key (values index)))
      (rebuilt : ∀ others : Fin size → Val schema (.pair first second),
        (∀ index, key (others index) = key (values index)) → Rebuilt program container others) :
      Refilled program container values

section

variable {program : Program schema}

theorem refilled_sequence {type : Ty} {size : Nat} (values : Fin size → Val schema type) :
    Refilled program .sequence values :=
  .anyway fun _ => foldl_of_appends fun _ _ _ _ => rfl

/-- An empty container of any kind. -/
theorem refilled_empty {container : Container} {type : Ty} (values : Fin 0 → Val schema type) :
    Refilled program container values :=
  .elements (fun index => index.elim0) rfl

/-- A `std::map`, whose comparison looks at the keys only. -/
theorem refilled_map {order size : Nat} {first second : Ty}
    {values : Fin size → Val schema (.pair first second)}
    (byKey : ∀ one one' two two' : Val schema (.pair first second), key one = key one' →
      key two = key two' → program.less order (.pair first second) one two =
        program.less order (.pair first second) one' two')
    (arranged : Arranged program (.pair first second) (.ordered order) values)
    (kept : ∀ index, ReadBack program (key (values index))) :
    Refilled program (.ordered order) values := by
  refine .keys kept fun others same => ?_
  have increasing : Arranged program (.pair first second) (.ordered order) others := by
    intro before after earlier
    rw [byKey _ _ _ _ (same before) (same after), byKey _ _ _ _ (same after) (same before)]
    exact arranged before after earlier
  exact foldl_insert_of_arranged increasing

end

variable {Text : Type}

/-- The value is serialized, and its text is deserialized to one that is empty at the same
positions. -/
def DocumentKept (program : Program schema) (boost : BoostJson Text) {type : Ty}
    (value : Val schema type) (rootName : String) : Prop :=
  ∃ text result, serialize program boost value rootName = .ok text ∧
    deserialize program boost type text rootName = .ok result ∧ Same value result

end Emptiness

end Mif.Serialization
