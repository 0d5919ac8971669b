import Mathlib.Data.List.Nodup
import Mif.Lib.EvalOrder
import Mif.Common.Fault
import Mif.Reflection.MetaInfo

set_option autoImplicit false

/- The types that the serializers handle, with what `Reflect<T>` says about them,
and their values. -/
namespace Mif.Reflection

/-- The capacity of `MIF_STATIC_STR`. -/
def staticStrCapacity : Nat := 64

/-- `MIF_STATIC_STR`, which keeps the first characters of a name. -/
def staticStr (text : String) : String := String.ofList (text.toList.take staticStrCapacity)

theorem staticStr_of_length_le {text : String}
    (short : text.toList.length ≤ staticStrCapacity) : staticStr text = text := by
  rw [staticStr, List.take_of_length_le short, String.ofList_toList]

/-- The fixed-width integer types. -/
inductive IntKind
  | int8
  | int16
  | int32
  | int64
  | uint8
  | uint16
  | uint32
  | uint64
  deriving DecidableEq, Repr

namespace IntKind

def width : IntKind → Nat
  | int8 => 8
  | int16 => 16
  | int32 => 32
  | int64 => 64
  | uint8 => 8
  | uint16 => 16
  | uint32 => 32
  | uint64 => 64

def signed : IntKind → Bool
  | int8 => true
  | int16 => true
  | int32 => true
  | int64 => true
  | uint8 => false
  | uint16 => false
  | uint32 => false
  | uint64 => false

end IntKind

/-- An enum with the enumerators that are registered for it. A name of the program text has
no zero character. -/
structure ReflectedEnum where
  fields : List (String × Int)
  named : ∀ field ∈ fields, '\x00' ∉ field.1.toList
  compiles : (MetaInfo.reflect fields).isSome

namespace ReflectedEnum

/-- `Reflect<T>::Fields` -/
def items (enum : ReflectedEnum) : List (String × Int) :=
  MetaInfo.fieldsList ((MetaInfo.reflect enum.fields).get enum.compiles)

/-- `EnumValueToString<T, TItems, Index>` over the first items, the last one first. -/
def valueToString (value : Int) : List (String × Int) → Outcome String
  | [] => throwing ("[Mif::Reflection::Detail::EnumValueToString] " ++
      "Failed to get name for enum value \"" ++ toString value ++ "\"")
  | (name, item) :: before =>
      if item = value then .ok (staticStr name) else valueToString value before

/-- `StringToEnumValue<T, TItems, Index>` -/
def stringToValue (text : String) : List (String × Int) → Outcome Int
  | [] => throwing ("[Mif::Reflection::Detail::StringToEnumValue] " ++
      "Failed to get value from string \"" ++ text ++ "\".")
  | (name, item) :: before =>
      if text = staticStr name then .ok item else stringToValue text before

/-- `Reflection::ToString`. The last enumerator is tried first. -/
def toString (enum : ReflectedEnum) (value : Int) : Outcome String :=
  valueToString value enum.items.reverse

/-- `Reflection::FromString` -/
def fromString (enum : ReflectedEnum) (text : String) : Outcome Int :=
  stringToValue text enum.items.reverse

theorem items_eq (enum : ReflectedEnum) :
    enum.items = enum.fields.take Remote.fakeHierarchyLength :=
  MetaInfo.fieldsList_reflect enum.compiles

/-- The name of an item, as the program text has it. -/
theorem named_item (enum : ReflectedEnum) : ∀ item ∈ enum.items, '\x00' ∉ item.1.toList := by
  intro item member
  rw [items_eq] at member
  exact enum.named item (List.mem_of_mem_take member)

end ReflectedEnum

/-- `boost::optional` and the smart pointers. -/
inductive Nullable
  | optional
  | smartPointer
  deriving DecidableEq, Repr

/-- What an iterable container does with an inserted element: a vector, list or deque
appends it, a set or map keeps its elements in an order without equals, and any
other container has an insertion of its own. -/
inductive Container
  | sequence
  | ordered (order : Nat)
  | other (id : Nat)
  deriving DecidableEq, Repr

/-- The types. A map is a container of pairs, `chars` a sequence of `char`, and `rawEnum`
an enum without reflection. A reflected struct is known by a number. -/
inductive Ty
  | bool
  | int (kind : IntKind)
  | double
  | string
  | enum (items : ReflectedEnum)
  | rawEnum (underlying : IntKind)
  | nullable (how : Nullable) (type : Ty)
  | pair (first second : Ty)
  | tuple {size : Nat} (types : Fin size → Ty)
  | array (size : Nat) (type : Ty)
  | iter (container : Container) (type : Ty)
  | chars
  | struct (id : Nat)

/-- A reflected struct: its short name, its bases and the fields that are registered for it. -/
structure StructDef where
  name : String
  bases : List Nat
  members : List (String × Ty)
  compiles : (MetaInfo.reflect members).isSome

namespace StructDef

variable (struct : StructDef)

/-- `Reflect<T>::Fields` -/
def fields : List (String × Ty) :=
  MetaInfo.fieldsList ((MetaInfo.reflect struct.members).get struct.compiles)

/-- The registered fields that are not among those of `Reflect<T>`. -/
def rest : List (String × Ty) := struct.members.drop struct.fields.length

theorem fields_eq : struct.fields = struct.members.take Remote.fakeHierarchyLength :=
  MetaInfo.fieldsList_reflect struct.compiles

theorem mem_of_fields {field : String × Ty} (known : field ∈ struct.fields) :
    field ∈ struct.members := by
  rw [fields_eq] at known
  exact List.mem_of_mem_take known

theorem length_rest : struct.rest.length = struct.members.length - Remote.fakeHierarchyLength := by
  rw [rest, fields_eq, List.length_drop, List.length_take]
  omega

end StructDef

/-- The reflected structs of a program. Structs may refer to each other and to
themselves. -/
structure Schema where
  struct : Nat → StructDef

namespace Schema

variable (schema : Schema) (id : Nat)

abbrev BaseIndex : Type := Fin (schema.struct id).bases.length

abbrev FieldIndex : Type := Fin (schema.struct id).fields.length

abbrev RestIndex : Type := Fin (schema.struct id).rest.length

def base (index : schema.BaseIndex id) : Nat := (schema.struct id).bases.get index

def fieldType (index : schema.FieldIndex id) : Ty := ((schema.struct id).fields.get index).2

def restType (index : schema.RestIndex id) : Ty := ((schema.struct id).rest.get index).2

/-- With 100 registered fields or fewer there are no others. -/
theorem no_rest (few : (schema.struct id).members.length ≤ Remote.fakeHierarchyLength)
    (index : schema.RestIndex id) : False := by
  have inside := index.isLt
  have length := (schema.struct id).length_rest
  omega

/-- `Reflect<BaseType>::Name::Value` -/
def baseName (index : schema.BaseIndex id) : String :=
  staticStr (schema.struct (schema.base id index)).name

/-- `Fields::Field<Index>::Name::Value` -/
def fieldName (index : schema.FieldIndex id) : String :=
  staticStr ((schema.struct id).fields.get index).1

end Schema

/-- The values of a type. -/
inductive Val (schema : Schema) : Ty → Type
  | bool (value : Bool) : Val schema .bool
  | int {kind : IntKind} (value : BitVec kind.width) : Val schema (.int kind)
  | double (value : Float) : Val schema .double
  | string (value : String) : Val schema .string
  | enum {items : ReflectedEnum} (value : Int) : Val schema (.enum items)
  | rawEnum {underlying : IntKind} (value : BitVec underlying.width) :
      Val schema (.rawEnum underlying)
  | empty {how : Nullable} {type : Ty} : Val schema (.nullable how type)
  | holds {how : Nullable} {type : Ty} (value : Val schema type) :
      Val schema (.nullable how type)
  | pair {first second : Ty} (one : Val schema first) (two : Val schema second) :
      Val schema (.pair first second)
  | tuple {size : Nat} {types : Fin size → Ty} (values : ∀ index, Val schema (types index)) :
      Val schema (.tuple types)
  | array {size : Nat} {type : Ty} (values : Fin size → Val schema type) :
      Val schema (.array size type)
  | iter {container : Container} {type : Ty} (size : Nat) (values : Fin size → Val schema type) :
      Val schema (.iter container type)
  | chars (values : List (BitVec 8)) : Val schema .chars
  | struct {id : Nat} (bases : ∀ index, Val schema (.struct (schema.base id index)))
      (fields : ∀ index, Val schema (schema.fieldType id index))
      (rest : ∀ index, Val schema (schema.restType id index)) : Val schema (.struct id)

namespace Val

variable {schema : Schema}

/-- A container with these elements. -/
def ofList {container : Container} {type : Ty} (values : List (Val schema type)) :
    Val schema (.iter container type) :=
  .iter values.length values.get

theorem ofList_ofFn {container : Container} {type : Ty} {size : Nat}
    (values : Fin size → Val schema type) :
    (ofList (List.ofFn values) : Val schema (.iter container type)) = .iter size values := by
  have general : ∀ (list : List (Val schema type)) (length : list.length = size),
      (∀ index : Fin list.length, list.get index = values (index.cast length)) →
      (ofList list : Val schema (.iter container type)) = .iter size values := by
    intro list length same
    subst length
    exact congrArg (Val.iter list.length) (funext same)
  exact general _ List.length_ofFn (List.get_ofFn values)

end Val

/-- What a program supplies beside its reflected structs: their default constructors,
the comparisons of its sets and maps (for a map, of the keys), the insertions of its
other containers, and the order in which the compiler evaluates the arguments of the
calls made for the elements of a tuple or an array. -/
structure Program (schema : Schema) where
  initial : ∀ id, Val schema (.struct id)
  less : Nat → (type : Ty) → Val schema type → Val schema type → Bool
  insertOther : Nat → (type : Ty) → List (Val schema type) → Val schema type →
    List (Val schema type)
  order : {size : Nat} → (Fin size → Ty) → EvalOrder size

namespace Program

variable {schema : Schema}

/-- `T{}` -/
def initialOf (program : Program schema) : (type : Ty) → Val schema type
  | .bool => .bool false
  | .int _ => .int 0
  | .double => .double 0
  | .string => .string ""
  | .enum _ => .enum 0
  | .rawEnum _ => .rawEnum 0
  | .nullable _ _ => .empty
  | .pair first second => .pair (initialOf program first) (initialOf program second)
  | .tuple types => .tuple fun index => initialOf program (types index)
  | .array _ type => .array fun _ => initialOf program type
  | .iter _ _ => .ofList []
  | .chars => .chars []
  | .struct id => program.initial id

/-- An insertion into an ordered container without equals. -/
def insertOrdered {α : Type} (less : α → α → Bool) (value : α) : List α → List α
  | [] => [value]
  | item :: rest =>
      if less value item then value :: item :: rest
      else if less item value then item :: insertOrdered less value rest
      else item :: rest

/-- `*std::inserter(object, std::end(object)) = value` -/
def insert (program : Program schema) (type : Ty) (container : Container)
    (object : List (Val schema type)) (value : Val schema type) : List (Val schema type) :=
  match container with
  | .sequence => object ++ [value]
  | .ordered order => insertOrdered (program.less order type) value object
  | .other id => program.insertOther id type object value

end Program

end Mif.Reflection
