import Mathlib.Data.List.OfFn
import Mif.Lib.EvalOrder
import Mif.Common.Fault
import Mif.Reflection.MetaInfo
import Mif.Reflection.Schema
import Mif.Reflection.Containers
import Mif.Reflection.EnumNames
import Mif.Serialization.JsonValue
import Mif.Serialization.JsonDecode
import Mif.Serialization.JsonEncode
import Mif.Serialization.JsonReadBack

set_option autoImplicit false

/- `Deserialize` gives back what `Serialize` was given, as far as the reflection of the types
goes. -/
namespace Mif.Serialization

open Mif.Reflection

variable {schema : Schema}

/-- No nullable value that a decoder would keep holds something. The elements of arrays
and containers are made anew, so they do not count. -/
def Blank : {type : Ty} → Val schema type → Prop
  | _, .holds _ => False
  | _, .pair one two => Blank one ∧ Blank two
  | _, .tuple values => ∀ index, Blank (values index)
  | _, .struct bases fields _ => (∀ index, Blank (bases index)) ∧ ∀ index, Blank (fields index)
  | _, _ => True

namespace Fragment

def isNullable : Ty → Bool
  | .nullable _ _ => true
  | _ => false

/-- A vector, list or deque holds any elements; the elements of a set or map increase. -/
def Arranged (program : Program schema) (type : Ty) (container : Container) {size : Nat}
    (values : Fin size → Val schema type) : Prop :=
  match container with
  | .sequence => True
  | .ordered order => ∀ first second, first < second →
      program.less order type (values first) (values second) = true ∧
        program.less order type (values second) (values first) = false
  | .other _ => False

end Fragment

open Fragment

/-- The values that are to survive: of a type of the fragment, and within it. -/
def InFragment (program : Program schema) : {type : Ty} → Val schema type → Prop
  | _, .bool _ => True
  | _, .int _ => True
  | _, .double _ => False
  | _, .string value => '\x00' ∉ value.toList
  | .enum items, .enum value =>
      Distinct (items.items.map Prod.fst) ∧ value ∈ items.fields.map Prod.snd
  | _, .rawEnum _ => True
  | _, .empty => True
  | .nullable _ type, .holds value =>
      isNullable type = false ∧ Blank (program.initialOf type) ∧
        InFragment program value
  | _, .pair one two => InFragment program one ∧ InFragment program two
  | _, .tuple values => ∀ index, InFragment program (values index)
  | .array _ type, .array values =>
      Blank (program.initialOf type) ∧ ∀ index, InFragment program (values index)
  | .iter container type, .iter _ values =>
      Blank (program.initialOf type) ∧ Arranged program type container values ∧
        ∀ index, InFragment program (values index)
  | _, .chars _ => False
  | .struct id, .struct bases fields _ =>
      Distinct (memberNames schema id) ∧ (∀ index, InFragment program (bases index)) ∧
        ∀ index, InFragment program (fields index)

theorem toEnum_reparsed {items : ReflectedEnum} {value : Int}
    (distinct : Distinct (items.items.map Prod.fst))
    (registered : value ∈ items.items.map Prod.snd) :
    ∃ text, items.toString value = .ok text ∧
      (JsonValueConverter.toString (.string text) >>= items.fromString) = .ok value := by
  obtain ⟨name, listed, text, read⟩ := ReflectedEnum.fromString_toString distinct.1 distinct.2 registered
  refine ⟨staticStr name, text, ?_⟩
  have kept : staticStr name = name :=
    staticStr_of_length_le (distinct.1 name (List.mem_map.mpr ⟨_, listed, rfl⟩))
  have whole : JsonValueConverter.cStr (staticStr name) = staticStr name := by
    rw [kept, cStr_eq (items.named_item _ listed)]
  change items.fromString (JsonValueConverter.cStr (staticStr name)) = .ok value
  rw [whole]
  exact read

theorem foldl_insert_of_arranged {program : Program schema} {type : Ty} {container : Container}
    {size : Nat} {values : Fin size → Val schema type}
    (arranged : Arranged program type container values) :
    (List.ofFn values).foldl (program.insert type container) [] = List.ofFn values := by
  apply foldl_of_appends
  intro before value after split
  cases container with
  | sequence => rfl
  | ordered order =>
      have increasing : (List.ofFn values).Pairwise fun one two =>
          program.less order type one two = true ∧ program.less order type two one = false :=
        List.pairwise_ofFn.mpr arranged
      rw [split, List.pairwise_append] at increasing
      exact insertOrdered_of_greater fun item member =>
        increasing.2.2 item member value List.mem_cons_self
  | other id => cases arranged

/-- What the reflection of the types does not reach is as it should be before: an enumerator is
among the items that its enum knows, and the fields that a struct does not know hold what they
hold in the object that is decoded into. -/
def Reached (program : Program schema) : {type : Ty} → (value object : Val schema type) → Prop
  | .enum items, .enum value, _ => value ∈ items.items.map Prod.snd
  | .nullable _ type, .holds value, _ => Reached program value (program.initialOf type)
  | _, .pair one two, .pair oldOne oldTwo => Reached program one oldOne ∧ Reached program two oldTwo
  | _, .tuple values, .tuple olds => ∀ index, Reached program (values index) (olds index)
  | .array _ type, .array values, _ =>
      ∀ index, Reached program (values index) (program.initialOf type)
  | .iter _ type, .iter _ values, _ =>
      ∀ index, Reached program (values index) (program.initialOf type)
  | _, .struct bases fields rest, .struct oldBases oldFields oldRest =>
      (∀ index, Reached program (bases index) (oldBases index)) ∧
        (∀ index, Reached program (fields index) (oldFields index)) ∧
        ∀ index, rest index = oldRest index
  | _, _, _ => True

section

variable {program : Program schema}

theorem readAs_bool (value : Bool) (old : Val schema .bool) :
    ReadAs program (.bool value) old (.bool value) := by
  refine ⟨.bool value, rfl, ?_⟩
  rw [Json.reparsed, jsonToValue_bool]
  rfl

theorem readAs_int {kind : IntKind} (value : BitVec kind.width) (old : Val schema (.int kind)) :
    ReadAs program (.int value) old (.int value) := by
  refine ⟨ValueToJson.ofInt kind value, rfl, ?_⟩
  rw [jsonToValue_int, toInt_reparsed]
  rfl

theorem readAs_rawEnum {kind : IntKind} (value : BitVec kind.width)
    (old : Val schema (.rawEnum kind)) : ReadAs program (.rawEnum value) old (.rawEnum value) := by
  refine ⟨ValueToJson.ofInt kind value, rfl, ?_⟩
  rw [jsonToValue_rawEnum, toInt_reparsed]
  rfl

theorem readAs_string {text : String} (whole : '\x00' ∉ text.toList) (old : Val schema .string) :
    ReadAs program (.string text) old (.string text) := by
  refine ⟨.string text, rfl, ?_⟩
  rw [Json.reparsed, jsonToValue_string]
  change Except.ok (Val.string (JsonValueConverter.cStr text)) = _
  rw [cStr_eq whole]

/-- An enumerator with a name of its own is read as it is. -/
theorem readAs_enum_self {items : ReflectedEnum} {value : Int}
    (distinct : Distinct (items.items.map Prod.fst))
    (known : value ∈ items.items.map Prod.snd) (old : Val schema (.enum items)) :
    ReadAs program (.enum value) old (.enum value) := by
  obtain ⟨text, named, read⟩ := toEnum_reparsed distinct known
  refine ⟨.string text, valueToJson_enum_eq_ok.mpr ⟨text, named, rfl⟩, ?_⟩
  rw [Json.reparsed, jsonToValue_enum]
  change Except.map Val.enum (JsonValueConverter.toString (.string text) >>= items.fromString) = _
  rw [read]
  rfl

/-- Only an enumerator that the enum knows is written. -/
theorem known_of_readAs {items : ReflectedEnum} {value : Int}
    {object result : Val schema (.enum items)} (read : ReadAs program (.enum value) object result) :
    value ∈ items.items.map Prod.snd := by
  obtain ⟨json, written, -⟩ := read
  obtain ⟨text, named, -⟩ := valueToJson_enum_eq_ok.mp written
  obtain ⟨name, member, -⟩ := ReflectedEnum.mem_of_toString named
  exact List.mem_map.mpr ⟨_, member, rfl⟩

theorem isHollow_of_solid {type : Ty} (solid : isNullable type = false) (value : Val schema type) :
    isHollow value = false := by
  cases value with
  | empty => cases solid
  | holds value => cases solid
  | _ => rfl

theorem inserts_of_arranged {type : Ty} {container : Container} {size : Nat}
    {values : Fin size → Val schema type} (arranged : Arranged program type container values) :
    Inserts program type container := by
  cases container with
  | sequence => exact inserts_sequence
  | ordered order => exact inserts_ordered order
  | other id => cases arranged

/-- Whatever is read is reached: the decoder makes enumerators out of names, and leaves the
fields alone that it does not know. The induction is over the value that was written. -/
theorem reached_of_readAs {type : Ty} {value object result : Val schema type}
    (inside : InFragment program value) (blank : Blank object)
    (read : ReadAs program value object result) : Reached program result object := by
  induction value with
  | bool value =>
      cases result with
      | bool value => trivial
  | int value =>
      cases result with
      | int value => trivial
  | double value => cases inside
  | string text =>
      cases result with
      | string text => trivial
  | enum value =>
      have known := known_of_readAs read
      rw [read.unique (readAs_enum_self inside.1 known object)]
      exact known
  | rawEnum value =>
      cases result with
      | rawEnum value => trivial
  | empty =>
      rw [readAs_empty] at read
      subst read
      cases object with
      | empty => trivial
      | holds value => cases blank
  | holds value ih =>
      obtain ⟨solid, fresh, inside⟩ := inside
      obtain ⟨inner, readInner, rfl⟩ := (readAs_holds (isHollow_of_solid solid value) _ _).mp read
      exact ih inside fresh readInner
  | pair one two ihOne ihTwo =>
      cases object with
      | pair oldOne oldTwo =>
          obtain ⟨left, right, readLeft, readRight, rfl⟩ := (readAs_pair _ _ _ _ _).mp read
          exact ⟨ihOne inside.1 blank.1 readLeft, ihTwo inside.2 blank.2 readRight⟩
  | tuple values ih =>
      cases object with
      | tuple olds =>
          obtain ⟨results, each, rfl⟩ := (readAs_tuple _ _ _).mp read
          exact fun index => ih index (inside index) (blank index) (each index)
  | array values ih =>
      obtain ⟨results, each, rfl⟩ := (readAs_array _ _ _).mp read
      exact fun index => ih index (inside.2 index) inside.1 (each index)
  | iter size values ih =>
      obtain ⟨fresh, arranged, inside⟩ := inside
      obtain ⟨results, each, filled⟩ := (readAs_iter _ _ _).mp read
      cases result with
      | iter count elements =>
          intro index
          obtain ⟨place, same⟩ := (inserts_of_arranged arranged).exists_of_filled filled index
          rw [← same]
          exact ih place (inside place) fresh (each place)
  | chars values => cases inside
  | struct bases fields rest ihBases ihFields _ =>
      obtain ⟨distinct, insideBases, insideFields⟩ := inside
      cases object with
      | struct oldBases oldFields oldRest =>
          obtain ⟨newBases, newFields, readBases, readFields, rfl⟩ :=
            (readAs_struct distinct _ _ _ _ _ _ _).mp read
          exact ⟨fun index => ihBases index (insideBases index) (blank.1 index) (readBases index),
            fun index => ihFields index (insideFields index) (blank.2 index) (readFields index),
            fun _ => rfl⟩

/-- A value that is reached is read as it is. -/
theorem readAs_self {type : Ty} {value object : Val schema type}
    (inside : InFragment program value) (blank : Blank object)
    (reached : Reached program value object) : ReadAs program value object value := by
  induction value with
  | bool value => exact readAs_bool value object
  | int value => exact readAs_int value object
  | double value => cases inside
  | string text => exact readAs_string inside object
  | enum value => exact readAs_enum_self inside.1 reached object
  | rawEnum value => exact readAs_rawEnum value object
  | empty =>
      rw [readAs_empty]
      cases object with
      | empty => rfl
      | holds value => cases blank
  | holds value ih =>
      obtain ⟨solid, fresh, inside⟩ := inside
      exact (readAs_holds (isHollow_of_solid solid value) _ _).mpr
        ⟨value, ih inside fresh reached, rfl⟩
  | pair one two ihOne ihTwo =>
      cases object with
      | pair oldOne oldTwo =>
          exact (readAs_pair _ _ _ _ _).mpr ⟨one, two, ihOne inside.1 blank.1 reached.1,
            ihTwo inside.2 blank.2 reached.2, rfl⟩
  | tuple values ih =>
      cases object with
      | tuple olds =>
          exact (readAs_tuple _ _ _).mpr ⟨values,
            fun index => ih index (inside index) (blank index) (reached index), rfl⟩
  | array values ih =>
      exact (readAs_array _ _ _).mpr ⟨values,
        fun index => ih index (inside.2 index) inside.1 (reached index), rfl⟩
  | iter size values ih =>
      refine (readAs_iter _ _ _).mpr ⟨values,
        fun index => ih index (inside.2.2 index) inside.1 (reached index), ?_⟩
      rw [foldl_insert_of_arranged inside.2.1, Val.ofList_ofFn]
  | chars values => cases inside
  | struct bases fields rest ihBases ihFields _ =>
      obtain ⟨distinct, insideBases, insideFields⟩ := inside
      cases object with
      | struct oldBases oldFields oldRest =>
          obtain ⟨reachedBases, reachedFields, same⟩ := reached
          refine (readAs_struct distinct _ _ _ _ _ _ _).mpr ⟨bases, fields,
            fun index => ihBases index (insideBases index) (blank.1 index) (reachedBases index),
            fun index => ihFields index (insideFields index) (blank.2 index) (reachedFields index),
            ?_⟩
          rw [funext same]

end

/-- No enum in the type has more enumerators than its counter comes to. -/
def Few : Ty → Prop
  | .enum items => items.fields.length ≤ Remote.fakeHierarchyLength
  | .nullable _ type => Few type
  | .pair first second => Few first ∧ Few second
  | .tuple types => ∀ index, Few (types index)
  | .array _ type => Few type
  | .iter _ type => Few type
  | _ => True

/-- No reflected type of the program has more than 100 registered items. -/
def FewItems (schema : Schema) : Prop :=
  ∀ id, (schema.struct id).members.length ≤ Remote.fakeHierarchyLength ∧
    ∀ member ∈ (schema.struct id).members, Few member.2

theorem FewItems.field (few : FewItems schema) (id : Nat) (index : schema.FieldIndex id) :
    Few (schema.fieldType id index) :=
  (few id).2 _ ((schema.struct id).mem_of_fields (List.get_mem _ index))

/-- Where no type has more than 100 registered items, every value is reached. -/
theorem reached_of_few {program : Program schema} (few : FewItems schema) {type : Ty}
    (small : Few type) {value : Val schema type} (inside : InFragment program value)
    (object : Val schema type) : Reached program value object := by
  induction value with
  | bool value => trivial
  | int value => trivial
  | double value => cases inside
  | string text => trivial
  | @enum items value =>
      have all : items.items = items.fields := by
        rw [ReflectedEnum.items_eq, List.take_of_length_le small]
      rw [Reached, all]
      exact inside.2
  | rawEnum value => trivial
  | empty => trivial
  | holds value ih => exact ih small inside.2.2 _
  | pair one two ihOne ihTwo =>
      cases object with
      | pair oldOne oldTwo =>
          exact ⟨ihOne small.1 inside.1 oldOne, ihTwo small.2 inside.2 oldTwo⟩
  | tuple values ih =>
      cases object with
      | tuple olds => exact fun index => ih index (small index) (inside index) (olds index)
  | array values ih => exact fun index => ih index small (inside.2 index) _
  | iter size values ih => exact fun index => ih index small (inside.2.2 index) _
  | chars values => cases inside
  | @struct id bases fields rest ihBases ihFields _ =>
      cases object with
      | struct oldBases oldFields oldRest =>
          refine ⟨fun index => ihBases index trivial (inside.2.1 index) (oldBases index),
            fun index => ihFields index (few.field id index) (inside.2.2 index) (oldFields index),
            fun index => (schema.no_rest id (few id).1 index).elim⟩

/-- A value that JSON restores into a new object. -/
structure Restored (program : Program schema) {type : Ty} (value : Val schema type) : Prop where
  inside : InFragment program value
  initial : Blank (program.initialOf type)
  reached : Reached program value (program.initialOf type)

section

variable {program : Program schema}

theorem Restored.readAs {type : Ty} {value : Val schema type} (restored : Restored program value) :
    ReadAs program value (program.initialOf type) value :=
  readAs_self restored.inside restored.initial restored.reached

theorem Restored.tuple {size : Nat} {types : Fin size → Ty}
    {values : ∀ index, Val schema (types index)}
    (each : ∀ index, Restored program (values index)) : Restored program (Val.tuple values) where
  inside index := (each index).inside
  initial index := (each index).initial
  reached index := (each index).reached

end

section

variable {Text : Type}

/-- The document on the way is that of the value. -/
theorem deserialize_of_serialize {program : Program schema} {boost : BoostJson Text} {type : Ty}
    {value : Val schema type} {rootName : String}
    (undone : ∀ json, valueToJson program value = .ok json →
      boost.parse (boost.write (document type rootName json)) =
        .ok (document type rootName json).reparsed) (result : Val schema type) :
    (∃ text, serialize program boost value rootName = .ok text ∧
        deserialize program boost type text rootName = .ok result) ↔
      ReadAs program value (program.initialOf type) result := by
  constructor
  · rintro ⟨text, written, read⟩
    obtain ⟨json, encoded, same⟩ := ok_of_bind written
    cases same
    rw [deserialize, undone json encoded] at read
    exact ⟨json, encoded, (readDocument_document rootName encoded).symm.trans read⟩
  · rintro ⟨json, encoded, read⟩
    refine ⟨boost.write (document type rootName json), ?_, ?_⟩
    · rw [serialize, encoded]
      rfl
    · rw [deserialize, undone json encoded]
      exact (readDocument_document rootName encoded).trans read

/-- A value of the fragment is serialized, and its text deserialized to it, exactly when the
reflection of its types reaches all of it. Of the library it is used that its parser undoes its
writer on this document, up to the kinds of the integers. -/
theorem deserialize_serialize_iff (program : Program schema) (boost : BoostJson Text)
    {type : Ty} (value : Val schema type) (rootName : String)
    (inside : InFragment program value) (initial : Blank (program.initialOf type))
    (undone : ∀ json, valueToJson program value = .ok json →
      boost.parse (boost.write (document type rootName json)) =
        .ok (document type rootName json).reparsed) :
    (∃ text, serialize program boost value rootName = .ok text ∧
        deserialize program boost type text rootName = .ok value) ↔
      Reached program value (program.initialOf type) := by
  rw [deserialize_of_serialize undone]
  exact ⟨reached_of_readAs inside initial, readAs_self inside initial⟩

end

/-- `struct Point { std::uint16_t a; boost::optional<std::string> b; }` -/
def pointSchema : Schema :=
  ⟨fun _ => ⟨"Point", [], [("a", .int .uint16), ("b", .nullable .optional .string)], by decide⟩⟩

def pointOf (a : BitVec 16) (b : Val pointSchema (.nullable .optional .string)) (id : Nat) :
    Val pointSchema (.struct id) :=
  .struct (fun index => index.elim0)
    (fun index =>
      match index with
      | ⟨0, _⟩ => .int a
      | ⟨1, _⟩ => b)
    fun index => index.elim0

def pointProgram : Program pointSchema where
  initial id := pointOf 0 .empty id
  less _ _ _ _ := false
  insertOther _ _ object _ := object
  order _ := EvalOrder.leftToRight _

def pointText : String := "\x7b\"a\":7,\"b\":\"x\"\x7d"

/-- The library on the document of the point `(7, "x")`. -/
def pointJson : BoostJson String where
  write _ := pointText
  parse text :=
    if text = pointText then .ok (.object [("a", .int64 7), ("b", .string "x")])
    else throwing "syntax error"

theorem fewItems_point : FewItems pointSchema := by
  intro id
  refine ⟨by change 2 ≤ 100; omega, fun member listed => ?_⟩
  simp only [pointSchema, List.mem_cons, List.not_mem_nil, or_false] at listed
  rcases listed with rfl | rfl <;> trivial

/-- The point `(7, "x")`. -/
theorem restored_point : Restored pointProgram (pointOf 7 (.holds (.string "x")) 0) := by
  have inside : InFragment pointProgram (pointOf 7 (.holds (.string "x")) 0) := by
    refine ⟨⟨by decide, by decide⟩, fun index => index.elim0, fun index => ?_⟩
    match index with
    | ⟨0, _⟩ => trivial
    | ⟨1, _⟩ =>
        have whole : '\x00' ∉ "x".toList := by decide
        exact ⟨rfl, trivial, whole⟩
  have small : Few (.struct 0) := trivial
  refine ⟨inside, ⟨fun index => index.elim0, fun index => ?_⟩,
    reached_of_few fewItems_point small inside _⟩
  match index with
  | ⟨0, _⟩ => trivial
  | ⟨1, _⟩ => trivial

theorem deserialize_serialize_point :
    ∃ text, serialize pointProgram pointJson (pointOf 7 (.holds (.string "x")) 0) "" = .ok text ∧
      deserialize pointProgram pointJson (.struct 0) text "" =
        .ok (pointOf 7 (.holds (.string "x")) 0) := by
  have encoded : valueToJson pointProgram (pointOf 7 (.holds (.string "x")) 0) =
      .ok (.object [("a", .uint64 7), ("b", .string "x")]) := rfl
  refine (deserialize_serialize_iff pointProgram pointJson _ "" restored_point.inside
    restored_point.initial ?_).mpr restored_point.reached
  intro json written
  cases encoded.symm.trans written
  rfl

/-- A `bool` under each of these names. -/
def flagFields (names : List String) : List (String × Ty) := names.map fun name => (name, .bool)

/-- The library, with the documents themselves for its texts. -/
def treeJson : BoostJson Json where
  write json := json
  parse json := .ok json.reparsed

def flag {type : Ty} (same : .bool = type) (value : Bool) : Val schema type := same ▸ .bool value

section

variable {names : List String} (compiles : (MetaInfo.reflect (flagFields names)).isSome)

/-- `struct Flags`, with these fields. -/
def flagsSchema : Schema := ⟨fun _ => ⟨"Flags", [], flagFields names, compiles⟩⟩

theorem type_of_flagFields {field : String × Ty} (member : field ∈ flagFields names) :
    .bool = field.2 := by
  obtain ⟨name, -, rfl⟩ := List.mem_map.mp member
  rfl

theorem fieldType_flags (id : Nat) (index : (flagsSchema compiles).FieldIndex id) :
    .bool = (flagsSchema compiles).fieldType id index :=
  type_of_flagFields (((flagsSchema compiles).struct id).mem_of_fields (List.get_mem _ index))

theorem restType_flags (id : Nat) (index : (flagsSchema compiles).RestIndex id) :
    .bool = (flagsSchema compiles).restType id index :=
  type_of_flagFields (List.mem_of_mem_drop (List.get_mem _ index))

/-- The fields that the struct knows are `false`, and the others hold this value. -/
def flagsOf (others : Bool) (id : Nat) : Val (flagsSchema compiles) (.struct id) :=
  .struct (fun index => index.elim0) (fun index => flag (fieldType_flags compiles id index) false)
    fun index => flag (restType_flags compiles id index) others

def flagsProgram : Program (flagsSchema compiles) where
  initial := flagsOf compiles false
  less _ _ _ _ := false
  insertOther _ _ object _ := object
  order _ := EvalOrder.leftToRight _

theorem fieldNames_flags (id : Nat) :
    ((flagsSchema compiles).struct id).fields.map Prod.fst =
      names.take Remote.fakeHierarchyLength := by
  have members : ((flagsSchema compiles).struct id).members = flagFields names := rfl
  rw [StructDef.fields_eq, members, List.map_take, flagFields, List.map_map]
  exact congrArg _ (List.map_id names)

theorem Fragment.Distinct.take {names : List String} (distinct : Distinct names) (size : Nat) :
    Distinct (names.take size) :=
  ⟨fun name listed => distinct.1 name (List.mem_of_mem_take listed),
    distinct.2.sublist (List.take_sublist size names)⟩

variable {compiles}

theorem inFragment_flag {type : Ty} (same : .bool = type) (value : Bool) :
    InFragment (flagsProgram compiles) (flag same value) := by
  subst same
  trivial

theorem blank_flag {type : Ty} (same : .bool = type) (value : Bool) :
    Blank (flag same value : Val schema type) := by
  subst same
  trivial

theorem flag_injective {type : Ty} (same : .bool = type) {first second : Bool}
    (equal : (flag same first : Val schema type) = flag same second) : first = second := by
  subst same
  cases equal
  rfl

theorem reached_flag {type : Ty} (same : .bool = type) (value : Bool)
    (object : Val (flagsSchema compiles) type) :
    Reached (flagsProgram compiles) (flag same value) object := by
  subst same
  cases object with
  | bool other => trivial

theorem distinct_flags (distinct : Distinct names) (id : Nat) :
    Distinct (memberNames (flagsSchema compiles) id) := by
  have noBases : ((flagsSchema compiles).struct id).bases = [] := rfl
  rw [memberNames, noBases, fieldNames_flags]
  exact distinct.take _

theorem inFragment_flags (distinct : Distinct names) (others : Bool) :
    InFragment (flagsProgram compiles) (flagsOf compiles others 0) :=
  ⟨distinct_flags distinct 0, fun index => index.elim0, fun _ => inFragment_flag _ false⟩

theorem blank_flags : Blank ((flagsProgram compiles).initialOf (.struct 0)) :=
  ⟨fun index => index.elim0, fun _ => blank_flag _ false⟩

variable (compiles) in
theorem exists_rest (more : Remote.fakeHierarchyLength < names.length) :
    Nonempty ((flagsSchema compiles).RestIndex 0) := by
  have length : ((flagsSchema compiles).struct 0).members.length = names.length :=
    List.length_map _
  refine ⟨⟨0, ?_⟩⟩
  rw [StructDef.length_rest, length]
  omega

theorem not_reached_flags (more : Remote.fakeHierarchyLength < names.length) :
    ¬ Reached (flagsProgram compiles) (flagsOf compiles true 0)
      ((flagsProgram compiles).initialOf (.struct 0)) := by
  obtain ⟨index⟩ := exists_rest compiles more
  intro reached
  cases flag_injective (restType_flags compiles 0 index) (reached.2.2 index)

/-- The fields that the struct does not know are read as what the constructor gives them. -/
theorem readAs_flags (distinct : Distinct names) :
    ReadAs (flagsProgram compiles) (flagsOf compiles true 0)
      ((flagsProgram compiles).initialOf (.struct 0)) (flagsOf compiles false 0) := by
  refine (readAs_struct (distinct_flags distinct 0) _ _ _ _ _ _ _).mpr
    ⟨fun index => index.elim0, _, fun index => index.elim0, fun index => ?_, rfl⟩
  exact readAs_self (inFragment_flag _ false) (blank_flag _ false) (reached_flag _ false _)

/-- A struct with more registered fields than the counter comes to does not come back. -/
theorem rest_is_lost (distinct : Distinct names)
    (more : Remote.fakeHierarchyLength < names.length) :
    (∃ text, serialize (flagsProgram compiles) treeJson (flagsOf compiles true 0) "" = .ok text ∧
      deserialize (flagsProgram compiles) treeJson (.struct 0) text "" =
        .ok (flagsOf compiles false 0)) ∧
      ¬ ∃ text, serialize (flagsProgram compiles) treeJson (flagsOf compiles true 0) "" =
          .ok text ∧
        deserialize (flagsProgram compiles) treeJson (.struct 0) text "" =
          .ok (flagsOf compiles true 0) := by
  have undone : ∀ json, valueToJson (flagsProgram compiles) (flagsOf compiles true 0) = .ok json →
      treeJson.parse (treeJson.write (document (.struct 0) "" json)) =
        .ok (document (.struct 0) "" json).reparsed := fun _ _ => rfl
  rw [deserialize_of_serialize undone, deserialize_of_serialize undone]
  exact ⟨readAs_flags distinct, fun read => not_reached_flags more
    (reached_of_readAs (inFragment_flags distinct true) blank_flags read)⟩

end

/-- The names `f0`, `f1` and so on. -/
def flagName (index : Nat) : String := String.ofList ('f' :: Nat.toDigits 10 index)

/-- As many names as compile, one more than the counter comes to. -/
def flagNames : List String := (List.range (Remote.fakeHierarchyLength + 1)).map flagName

theorem flagName_injective : Function.Injective flagName := by
  intro first second same
  have digits := (List.cons.inj (String.ofList_injective same)).2
  have numbers := congrArg (fun text => Nat.ofDigitChars 10 text 0) digits
  simpa only [Nat.ofDigitChars_ten_toDigits] using numbers

theorem length_flagNames : flagNames.length = Remote.fakeHierarchyLength + 1 := by
  rw [flagNames, List.length_map, List.length_range]

theorem short_flagName {index : Nat} (inside : index < Remote.fakeHierarchyLength + 1) :
    (flagName index).toList.length ≤ staticStrCapacity := by
  have small : index < 10 ^ 3 := by
    unfold Remote.fakeHierarchyLength at inside
    omega
  have digits := (Nat.length_toDigits_le_iff (b := 10) (by decide) (by decide)).mpr small
  rw [flagName, String.toList_ofList, List.length_cons]
  unfold staticStrCapacity
  omega

theorem distinct_flagNames : Distinct flagNames := by
  refine ⟨fun name listed => ?_, List.nodup_range.map flagName_injective⟩
  obtain ⟨index, inside, rfl⟩ := List.mem_map.mp listed
  exact short_flagName (List.mem_range.mp inside)

theorem flagNames_compile : (MetaInfo.reflect (flagFields flagNames)).isSome := by
  have names : (flagFields flagNames).map Prod.fst = flagNames := by
    rw [flagFields, List.map_map]
    exact List.map_id flagNames
  refine MetaInfo.reflect_of_able ⟨?_, ?_⟩
  · rw [names]
    exact distinct_flagNames.2
  · rw [flagFields, List.length_map, length_flagNames]

/-- A struct with 101 registered fields comes back without the last one. -/
theorem last_field_is_lost :
    InFragment (flagsProgram flagNames_compile) (flagsOf flagNames_compile true 0) ∧
      Blank ((flagsProgram flagNames_compile).initialOf (.struct 0)) ∧
      (∃ text, serialize (flagsProgram flagNames_compile) treeJson
          (flagsOf flagNames_compile true 0) "" = .ok text ∧
        deserialize (flagsProgram flagNames_compile) treeJson (.struct 0) text "" =
          .ok (flagsOf flagNames_compile false 0)) ∧
      ¬ ∃ text, serialize (flagsProgram flagNames_compile) treeJson
          (flagsOf flagNames_compile true 0) "" = .ok text ∧
        deserialize (flagsProgram flagNames_compile) treeJson (.struct 0) text "" =
          .ok (flagsOf flagNames_compile true 0) := by
  have more : Remote.fakeHierarchyLength < flagNames.length := by rw [length_flagNames]; omega
  exact ⟨inFragment_flags distinct_flagNames true, blank_flags, rest_is_lost distinct_flagNames more⟩

end Mif.Serialization
