import Mathlib.Algebra.Ring.Nat
import Mathlib.Data.List.Induction
import Mathlib.Data.List.OfFn
import Mathlib.Data.List.TakeWhile
import Mif.Lib.EvalOrder
import Mif.Common.Fault
import Mif.Reflection.Schema
import Mif.Reflection.EnumNames
import Mif.Serialization.JsonValue
import Mif.Serialization.JsonDecode
import Mif.Serialization.JsonEncode

set_option autoImplicit false

/- What is read from the document of a value, part by part. -/
namespace Mif.Serialization

open Mif.Reflection

variable {schema : Schema}

namespace Json

mutual

/-- What the parser makes of the text of a value: an integer that fits `int64` is of that
kind, whatever its kind was. -/
def reparsed : Json → Json
  | .null => .null
  | .bool value => .bool value
  | .int64 value => .int64 value
  | .uint64 value => if value.toNat < 2 ^ 63 then .int64 value else .uint64 value
  | .double value => .double value
  | .string value => .string value
  | .array items => .array (reparsedItems items)
  | .object members => .object (reparsedMembers members)

def reparsedItems : List Json → List Json
  | [] => []
  | item :: rest => item.reparsed :: reparsedItems rest

def reparsedMembers : List (String × Json) → List (String × Json)
  | [] => []
  | (name, json) :: rest => (name, json.reparsed) :: reparsedMembers rest

end

theorem reparsedItems_eq_map (items : List Json) : reparsedItems items = items.map reparsed := by
  induction items with
  | nil => rfl
  | cons item rest ih => rw [reparsedItems, ih, List.map_cons]

theorem find_reparsedMembers (key : String) (members : List (String × Json)) :
    find key (reparsedMembers members) = (find key members).map reparsed := by
  induction members with
  | nil => rfl
  | cons member rest ih =>
      obtain ⟨name, json⟩ := member
      simp only [reparsedMembers, find]
      split
      · rfl
      · exact ih

theorem isNull_reparsed (json : Json) : json.reparsed.isNull = json.isNull := by
  cases json with
  | uint64 value =>
      unfold reparsed
      split <;> rfl
  | _ => simp [reparsed, isNull]

end Json

namespace Fragment

/-- Names that are kept whole and are different from each other. -/
def Distinct (names : List String) : Prop :=
  (∀ name ∈ names, name.toList.length ≤ staticStrCapacity) ∧ names.Nodup

/-- The short names of the bases and the names of the fields. -/
def memberNames (schema : Schema) (id : Nat) : List String :=
  ((schema.struct id).bases.map fun base => (schema.struct base).name) ++
    (schema.struct id).fields.map Prod.fst

end Fragment

open Fragment

section

open JsonToValue (simple)
open ValueToJson (ofInt)

/-- An unsigned integer of at most 32 bits is parsed as `int64`. -/
theorem reparsed_uint64_of_narrow {width : Nat} (narrow : width ≤ 32) (value : BitVec width) :
    (Json.uint64 (value.setWidth 64)).reparsed = .int64 (value.setWidth 64) := by
  have bound : (value.setWidth 64).toNat < 2 ^ 63 := by
    have power : 2 ^ width ≤ 2 ^ 32 := Nat.pow_le_pow_right (by decide) narrow
    have small : value.toNat < 2 ^ 32 := Nat.lt_of_lt_of_le value.isLt power
    rw [BitVec.toNat_setWidth]
    omega
  simp only [Json.reparsed, bound, ↓reduceIte]

theorem setWidth_signExtend {narrow : Nat} (middle : Nat) (value : BitVec narrow)
    (below : narrow ≤ middle) (room : middle ≤ 64) :
    (((value.signExtend 64).setWidth middle).setWidth narrow) = value := by
  ext index inside
  simp only [BitVec.getElem_setWidth, BitVec.getLsbD_setWidth, BitVec.getLsbD_signExtend]
  have first : index < middle := by omega
  have second : index < 64 := by omega
  simp [first, second, inside]

theorem setWidth_zeroExtend {narrow : Nat} (middle : Nat) (value : BitVec narrow)
    (below : narrow ≤ middle) (room : middle ≤ 64) :
    (((value.setWidth 64).setWidth middle).setWidth narrow) = value := by
  ext index inside
  simp only [BitVec.getElem_setWidth, BitVec.getLsbD_setWidth]
  have first : index < middle := by omega
  have second : index < 64 := by omega
  simp [first, second, inside]

/-- Each integer type reads back what it wrote, with the kind changed on the way. -/
theorem toInt_reparsed (kind : IntKind) (value : BitVec kind.width) :
    simple (JsonValueConverter.toInt kind) (ofInt kind value).reparsed = .ok value := by
  cases kind with
  | int8 => exact congrArg Except.ok (setWidth_signExtend 32 value (by decide) (by decide))
  | int16 => exact congrArg Except.ok (setWidth_signExtend 32 value (by decide) (by decide))
  | int32 => exact congrArg Except.ok (setWidth_signExtend 32 value (by decide) (by decide))
  | int64 => exact congrArg Except.ok (BitVec.signExtend_eq value)
  | uint8 =>
      rw [ofInt, if_neg (by decide), reparsed_uint64_of_narrow (by decide)]
      exact congrArg Except.ok (setWidth_zeroExtend 32 value (by decide) (by decide))
  | uint16 =>
      rw [ofInt, if_neg (by decide), reparsed_uint64_of_narrow (by decide)]
      exact congrArg Except.ok (setWidth_zeroExtend 32 value (by decide) (by decide))
  | uint32 =>
      rw [ofInt, if_neg (by decide), reparsed_uint64_of_narrow (by decide)]
      exact congrArg Except.ok (setWidth_zeroExtend 32 value (by decide) (by decide))
  | uint64 =>
      have same : value.setWidth 64 = value := BitVec.setWidth_eq value
      rw [ofInt, if_neg (by decide), Json.reparsed]
      split
      · exact congrArg Except.ok same
      · exact congrArg Except.ok same

end

theorem cStr_eq {text : String} (whole : '\x00' ∉ text.toList) :
    JsonValueConverter.cStr text = text := by
  have kept : text.toList.takeWhile (· ≠ '\x00') = text.toList := by
    rw [List.takeWhile_eq_self_iff]
    intro char member
    exact decide_eq_true fun zero => whole (zero ▸ member)
  rw [JsonValueConverter.cStr, kept, String.ofList_toList]

/- The keys of an object that was built by assignments to different keys. -/
section

open ValueToJson (assignAll)

variable {key : String} {json : Json} {members : List (String × Json)}

theorem assign_of_not_mem (fresh : key ∉ members.map Prod.fst) :
    Json.assign key json members = members ++ [(key, json)] := by
  induction members with
  | nil => rfl
  | cons member rest ih =>
      obtain ⟨name, old⟩ := member
      rw [List.map_cons, List.mem_cons, not_or] at fresh
      rw [Json.assign, if_neg (Ne.symm fresh.1), ih fresh.2, List.cons_append]

theorem assignAll_eq {entries : List (String × Json)} (distinct : (entries.map Prod.fst).Nodup) :
    assignAll entries = entries := by
  induction entries using List.reverseRecOn with
  | nil => rfl
  | append_singleton entries entry ih =>
      rw [List.map_append, List.nodup_append] at distinct
      obtain ⟨before, _, apart⟩ := distinct
      rw [assignAll, List.foldl_append, ← assignAll, ih before, List.foldl_cons, List.foldl_nil]
      refine assign_of_not_mem fun member => ?_
      exact apart _ member _ (by simp) rfl

theorem find_of_mem (distinct : (members.map Prod.fst).Nodup) (member : (key, json) ∈ members) :
    Json.find key members = some json := by
  induction members with
  | nil => cases member
  | cons first rest ih =>
      obtain ⟨name, value⟩ := first
      rw [List.map_cons, List.nodup_cons] at distinct
      rcases List.mem_cons.mp member with same | later
      · cases same
        rw [Json.find, if_pos rfl]
      · have different : name ≠ key := by
          rintro rfl
          exact distinct.1 (List.mem_map.mpr ⟨_, later, rfl⟩)
        rw [Json.find, if_neg different]
        exact ih distinct.2 later

end

/- What each overload reads is read for its parts. -/
section

variable {program : Program schema}

/-- An element of a tuple or an array. -/
theorem read_element {type : Ty} {items : List Json} {index : Nat} {item : Json}
    (found : items[index]? = some item) (old : Val schema type) :
    (do let item ← Json.element index items
        jsonToValue program type item.1 old) = jsonToValue program type item old := by
  have element : Json.element index items = .ok ⟨item, Json.sizeOf_item found⟩ :=
    (Json.require_eq_ok _ _ _ _).mpr found
  rw [element]
  rfl

theorem read_tuple {size : Nat} {types : Fin size → Ty} {items : List Json}
    {item : Fin size → Json} (found : ∀ index : Fin size, items[index.val]? = some (item index))
    (olds : ∀ index, Val schema (types index)) (value : Val schema (.tuple types)) :
    jsonToValue program (.tuple types) (.array items) (.tuple olds) = .ok value ↔
      ∃ values, (∀ index, jsonToValue program (types index) (item index) (olds index) =
        .ok (values index)) ∧ .tuple values = value := by
  rw [jsonToValue, EvalOrder.evaluate_bind_eq_ok]
  simp only [read_element (found _)]

theorem read_array {size : Nat} {type : Ty} {items : List Json} {item : Fin size → Json}
    (found : ∀ index : Fin size, items[index.val]? = some (item index))
    (old value : Val schema (.array size type)) :
    jsonToValue program (.array size type) (.array items) old = .ok value ↔
      ∃ values, (∀ index, jsonToValue program type (item index) (program.initialOf type) =
        .ok (values index)) ∧ .array values = value := by
  rw [jsonToValue, EvalOrder.evaluate_bind_eq_ok]
  simp only [read_element (found _)]

theorem read_iter {container : Container} {size : Nat} {type : Ty} {items : List Json}
    {item : Fin size → Json} (length : items.length = size)
    (found : ∀ index : Fin size, items[index.val]? = some (item index))
    (old value : Val schema (.iter container type)) :
    jsonToValue program (.iter container type) (.array items) old = .ok value ↔
      ∃ values : Fin size → Val schema type,
        (∀ index, jsonToValue program type (item index) (program.initialOf type) =
          .ok (values index)) ∧
        .ofList ((List.ofFn values).foldl (program.insert type container) []) = value := by
  subst length
  have same : ∀ index, (Json.visited items index).1 = item index := fun index =>
    Option.some.inj ((List.getElem?_eq_getElem index.isLt).symm.trans (found index))
  rw [jsonToValue, EvalOrder.evaluate_bind_eq_ok]
  simp only [same]

theorem read_pair {first second : Ty} {members : List (String × Json)} {id value : Json}
    (foundId : Json.find Tag.id members = some id)
    (foundValue : Json.find Tag.value members = some value)
    (oldOne : Val schema first) (oldTwo : Val schema second)
    (result : Val schema (.pair first second)) :
    jsonToValue program (.pair first second) (.object members) (.pair oldOne oldTwo) =
        .ok result ↔
      ∃ one two, jsonToValue program first id oldOne = .ok one ∧
        jsonToValue program second value oldTwo = .ok two ∧ .pair one two = result := by
  have idPart : Json.dereference Tag.id members = .ok ⟨id, Json.sizeOf_find foundId⟩ :=
    (Json.require_eq_ok _ _ _ _).mpr foundId
  have valuePart : Json.dereference Tag.value members = .ok ⟨value, Json.sizeOf_find foundValue⟩ :=
    (Json.require_eq_ok _ _ _ _).mpr foundValue
  have parts : jsonToValue program (.pair first second) (.object members) (.pair oldOne oldTwo) =
      (do let one ← jsonToValue program first id oldOne
          let two ← jsonToValue program second value oldTwo
          return .pair one two) := by
    rw [jsonToValue, idPart, valuePart]
    rfl
  rw [parts]
  constructor
  · intro returned
    obtain ⟨one, readOne, rest⟩ := ok_of_bind returned
    obtain ⟨two, readTwo, built⟩ := ok_of_bind rest
    exact ⟨one, two, readOne, readTwo, Except.ok.inj built⟩
  · rintro ⟨one, two, readOne, readTwo, rfl⟩
    rw [readOne, readTwo]
    rfl

theorem read_struct {id : Nat} {members : List (String × Json)}
    {baseItem : schema.BaseIndex id → Json} {fieldItem : schema.FieldIndex id → Json}
    (foundBases : ∀ index, Json.find (schema.baseName id index) members = some (baseItem index))
    (foundFields : ∀ index,
      Json.find (schema.fieldName id index) members = some (fieldItem index))
    (oldBases : ∀ index, Val schema (.struct (schema.base id index)))
    (oldFields : ∀ index, Val schema (schema.fieldType id index))
    (oldRest : ∀ index, Val schema (schema.restType id index)) (value : Val schema (.struct id)) :
    jsonToValue program (.struct id) (.object members) (.struct oldBases oldFields oldRest) =
        .ok value ↔
      ∃ bases fields,
        (∀ index, jsonToValue program (.struct (schema.base id index)) (baseItem index)
          (oldBases index) = .ok (bases index)) ∧
        (∀ index, jsonToValue program (schema.fieldType id index) (fieldItem index)
          (oldFields index) = .ok (fields index)) ∧ .struct bases fields oldRest = value := by
  have basePart : ∀ index, (do
      let item ← Json.atKey (schema.baseName id index) members
      jsonToValue program (.struct (schema.base id index)) item.1 (oldBases index)) =
        jsonToValue program (.struct (schema.base id index)) (baseItem index)
          (oldBases index) := by
    intro index
    rw [Json.atKey_of_find (foundBases index)]
    rfl
  have fieldPart : ∀ index, (Json.memberOrNull (schema.fieldName id index) members).1 =
      fieldItem index := fun index => Json.memberOrNull_of_find (foundFields index)
  rw [jsonToValue]
  simp only [basePart, fieldPart]
  constructor
  · intro returned
    obtain ⟨bases, readBases, rest⟩ := ok_of_bind returned
    obtain ⟨fields, readFields, built⟩ := (EvalOrder.evaluate_bind_eq_ok _ _ _ _).mp rest
    exact ⟨bases, fields, (EvalOrder.evaluate_eq_ok _ _ _).mp readBases, readFields, built⟩
  · rintro ⟨bases, fields, readBases, readFields, built⟩
    refine bind_eq_ok.mpr ⟨bases, (EvalOrder.evaluate_eq_ok _ _ _).mpr readBases, ?_⟩
    exact (EvalOrder.evaluate_bind_eq_ok _ _ _ _).mpr ⟨fields, readFields, built⟩

end

theorem storedNames_nodup {id : Nat} (distinct : Distinct (memberNames schema id)) :
    (List.ofFn (schema.baseName id) ++ List.ofFn (schema.fieldName id)).Nodup := by
  have bases : List.ofFn (schema.baseName id) =
      (schema.struct id).bases.map fun base => staticStr (schema.struct base).name :=
    List.ofFn_getElem_eq_map (schema.struct id).bases
      fun base => staticStr (schema.struct base).name
  have fields : List.ofFn (schema.fieldName id) =
      (schema.struct id).fields.map fun field => staticStr field.1 :=
    List.ofFn_getElem_eq_map (schema.struct id).fields fun field => staticStr field.1
  have stored : List.ofFn (schema.baseName id) ++ List.ofFn (schema.fieldName id) =
      (memberNames schema id).map staticStr := by
    rw [bases, fields, memberNames, List.map_append, List.map_map, List.map_map]
    rfl
  have kept : (memberNames schema id).map staticStr = memberNames schema id := by
    conv_rhs => rw [← List.map_id (memberNames schema id)]
    exact List.map_congr_left fun name member => staticStr_of_length_le (distinct.1 name member)
  rw [stored, kept]
  exact distinct.2

/-- The members of a struct in its document after the parser. -/
theorem find_members {id : Nat} (distinct : Distinct (memberNames schema id))
    (baseItems : schema.BaseIndex id → Json) (fieldItems : schema.FieldIndex id → Json) :
    let members := Json.reparsedMembers (ValueToJson.assignAll
      ((List.ofFn fun index => (schema.baseName id index, baseItems index)) ++
        List.ofFn fun index => (schema.fieldName id index, fieldItems index)))
    (∀ index, Json.find (schema.baseName id index) members = some (baseItems index).reparsed) ∧
      ∀ index, Json.find (schema.fieldName id index) members =
        some (fieldItems index).reparsed := by
  intro members
  let entries := (List.ofFn fun index => (schema.baseName id index, baseItems index)) ++
    List.ofFn fun index => (schema.fieldName id index, fieldItems index)
  have nodup : (entries.map Prod.fst).Nodup := by
    have names := storedNames_nodup distinct
    simpa [entries, List.map_ofFn, Function.comp_def] using names
  have found : ∀ {key json}, (key, json) ∈ entries → Json.find key members = some json.reparsed := by
    intro key json member
    change Json.find key (Json.reparsedMembers (ValueToJson.assignAll entries)) = _
    rw [assignAll_eq nodup, Json.find_reparsedMembers, find_of_mem nodup member]
    rfl
  constructor
  · intro index
    exact found (List.mem_append_left _ (List.mem_ofFn.mpr ⟨index, rfl⟩))
  · intro index
    exact found (List.mem_append_right _ (List.mem_ofFn.mpr ⟨index, rfl⟩))

theorem reparsedItems_ofFn {size : Nat} (items : Fin size → Json) (index : Fin size) :
    (Json.reparsedItems (List.ofFn items))[index.val]? = some (items index).reparsed := by
  simp [Json.reparsedItems_eq_map]

theorem length_reparsedItems_ofFn {size : Nat} (items : Fin size → Json) :
    (Json.reparsedItems (List.ofFn items)).length = size := by
  simp [Json.reparsedItems_eq_map]

/-- A chain of nullable values with nothing at its end, which is written as null. -/
def isHollow : {type : Ty} → Val schema type → Bool
  | _, .empty => true
  | _, .holds value => isHollow value
  | _, _ => false

/-- The value is written, and what was written is read over the object as another value. -/
def ReadAs (program : Program schema) {type : Ty} (value object result : Val schema type) : Prop :=
  ∃ json, valueToJson program value = .ok json ∧
    jsonToValue program type json.reparsed object = .ok result

section

open ValueToJson (ofInt assignAll)

variable {program : Program schema}

theorem isNull_ofInt (kind : IntKind) (value : BitVec kind.width) :
    (ofInt kind value).isNull = false := by
  unfold ofInt
  split <;> rfl

/-- The root of a document that is no struct is found again. -/
theorem rootMember_document {type : Ty} (plain : ∀ id, type ≠ .struct id) (rootName : String)
    (json : Json) :
    rootMember rootName (document type rootName json).reparsed = .ok json.reparsed := by
  have shape : document type rootName json =
      if rootName = "" then json else .object [(rootName, json)] := by
    cases type with
    | struct id => exact absurd rfl (plain id)
    | _ => rfl
  rw [shape]
  unfold rootMember
  split
  · rfl
  · rename_i named
    have found : Json.find rootName [(rootName, json.reparsed)] = some json.reparsed := by
      rw [Json.find, if_pos rfl]
    change Except.ok (Json.memberOrNull rootName [(rootName, json.reparsed)]).1 = _
    rw [Json.memberOrNull_of_find found]

/-- What is read from the document of a value. -/
theorem readDocument_document {type : Ty} {value : Val schema type} {json : Json}
    (rootName : String) (written : valueToJson program value = .ok json) :
    readDocument program rootName (document type rootName json).reparsed type =
      jsonToValue program type json.reparsed (program.initialOf type) := by
  cases type with
  | struct id =>
      obtain ⟨members, rfl⟩ := valueToJson_struct written
      simp only [readDocument, document, Json.reparsed, deserializeStruct, Program.initialOf]
  | _ =>
      simp only [readDocument]
      rw [rootMember_document (fun id => by simp) rootName json]
      rfl

theorem ReadAs.unique {type : Ty} {value object one two : Val schema type}
    (first : ReadAs program value object one) (second : ReadAs program value object two) :
    one = two := by
  obtain ⟨json, written, read⟩ := first
  obtain ⟨json', written', read'⟩ := second
  cases written.symm.trans written'
  exact Except.ok.inj (read.symm.trans read')

theorem readAs_pair {first second : Ty} (one oldOne : Val schema first)
    (two oldTwo : Val schema second) (result : Val schema (.pair first second)) :
    ReadAs program (.pair one two) (.pair oldOne oldTwo) result ↔
      ∃ left right, ReadAs program one oldOne left ∧ ReadAs program two oldTwo right ∧
        .pair left right = result := by
  constructor
  · rintro ⟨json, written, read⟩
    obtain ⟨id, value, writtenId, writtenValue, rfl⟩ := valueToJson_pair_eq_ok.mp written
    have members : jsonToValue program (.pair first second)
        (.object [(Tag.id, id.reparsed), (Tag.value, value.reparsed)]) (.pair oldOne oldTwo) =
          .ok result := read
    obtain ⟨left, right, readLeft, readRight, built⟩ :=
      (read_pair rfl rfl oldOne oldTwo result).mp members
    exact ⟨left, right, ⟨id, writtenId, readLeft⟩, ⟨value, writtenValue, readRight⟩, built⟩
  · rintro ⟨left, right, ⟨id, writtenId, readLeft⟩, ⟨value, writtenValue, readRight⟩, built⟩
    refine ⟨.object (assignAll [(Tag.id, id), (Tag.value, value)]), ?_, ?_⟩
    · exact valueToJson_pair_eq_ok.mpr ⟨id, value, writtenId, writtenValue, rfl⟩
    · exact (read_pair rfl rfl oldOne oldTwo result).mpr ⟨left, right, readLeft, readRight, built⟩

/-- What is written as an array of its parts, and read part by part. -/
theorem readAs_items {size : Nat} {types : Fin size → Ty} {type : Ty}
    {value object result : Val schema type} {values olds : ∀ index, Val schema (types index)}
    {build : (∀ index, Val schema (types index)) → Val schema type}
    (writes : ∀ json, valueToJson program value = .ok json ↔
      ∃ items, (∀ index, valueToJson program (values index) = .ok (items index)) ∧
        Json.array (List.ofFn items) = json)
    (reads : ∀ items : Fin size → Json,
      jsonToValue program type (Json.array (List.ofFn items)).reparsed object = .ok result ↔
        ∃ results, (∀ index, jsonToValue program (types index) (items index).reparsed
          (olds index) = .ok (results index)) ∧ build results = result) :
    ReadAs program value object result ↔
      ∃ results, (∀ index, ReadAs program (values index) (olds index) (results index)) ∧
        build results = result := by
  constructor
  · rintro ⟨json, written, read⟩
    obtain ⟨items, writtenItems, rfl⟩ := (writes json).mp written
    obtain ⟨results, readItems, built⟩ := (reads items).mp read
    exact ⟨results, fun index => ⟨items index, writtenItems index, readItems index⟩, built⟩
  · rintro ⟨results, each, built⟩
    choose items written read using each
    have whole := (writes _).mpr ⟨items, written, rfl⟩
    exact ⟨_, whole, (reads items).mpr ⟨results, read, built⟩⟩

theorem readAs_tuple {size : Nat} {types : Fin size → Ty}
    (values olds : ∀ index, Val schema (types index)) (result : Val schema (.tuple types)) :
    ReadAs program (.tuple values) (.tuple olds) result ↔
      ∃ results, (∀ index, ReadAs program (values index) (olds index) (results index)) ∧
        .tuple results = result := by
  apply readAs_items
  · exact fun json => valueToJson_tuple_eq_ok
  · intro items
    rw [Json.reparsed, read_tuple (reparsedItems_ofFn items)]

theorem readAs_array {size : Nat} {type : Ty} (values : Fin size → Val schema type)
    (object result : Val schema (.array size type)) :
    ReadAs program (.array values) object result ↔
      ∃ results, (∀ index,
        ReadAs program (values index) (program.initialOf type) (results index)) ∧
        .array results = result := by
  apply readAs_items
  · exact fun json => valueToJson_array_eq_ok
  · intro items
    rw [Json.reparsed, read_array (reparsedItems_ofFn items)]

theorem readAs_iter {container : Container} {size : Nat} {type : Ty}
    (values : Fin size → Val schema type) (object result : Val schema (.iter container type)) :
    ReadAs program (.iter size values) object result ↔
      ∃ results : Fin size → Val schema type, (∀ index,
        ReadAs program (values index) (program.initialOf type) (results index)) ∧
        .ofList ((List.ofFn results).foldl (program.insert type container) []) = result := by
  apply readAs_items
  · exact fun json => valueToJson_iter_eq_ok
  · intro items
    rw [Json.reparsed, read_iter (length_reparsedItems_ofFn items) (reparsedItems_ofFn items)]

/-- The members of a struct are found again under their names. What is not written stays as it
is in the object. -/
theorem readAs_struct {id : Nat} (distinct : Distinct (memberNames schema id))
    (bases oldBases : ∀ index, Val schema (.struct (schema.base id index)))
    (fields oldFields : ∀ index, Val schema (schema.fieldType id index))
    (rest oldRest : ∀ index, Val schema (schema.restType id index))
    (result : Val schema (.struct id)) :
    ReadAs program (.struct bases fields rest) (.struct oldBases oldFields oldRest) result ↔
      ∃ newBases newFields,
        (∀ index, ReadAs program (bases index) (oldBases index) (newBases index)) ∧
        (∀ index, ReadAs program (fields index) (oldFields index) (newFields index)) ∧
        .struct newBases newFields oldRest = result := by
  constructor
  · rintro ⟨json, written, read⟩
    obtain ⟨baseItems, fieldItems, writtenBases, writtenFields, rfl⟩ :=
      valueToJson_struct_eq_ok.mp written
    obtain ⟨foundBases, foundFields⟩ := find_members distinct baseItems fieldItems
    rw [Json.reparsed, read_struct foundBases foundFields] at read
    obtain ⟨newBases, newFields, readBases, readFields, built⟩ := read
    exact ⟨newBases, newFields,
      fun index => ⟨baseItems index, writtenBases index, readBases index⟩,
      fun index => ⟨fieldItems index, writtenFields index, readFields index⟩, built⟩
  · rintro ⟨newBases, newFields, eachBase, eachField, built⟩
    choose baseItems writtenBases readBases using eachBase
    choose fieldItems writtenFields readFields using eachField
    obtain ⟨foundBases, foundFields⟩ := find_members distinct baseItems fieldItems
    refine ⟨.object (assignAll
      ((List.ofFn fun index => (schema.baseName id index, baseItems index)) ++
        List.ofFn fun index => (schema.fieldName id index, fieldItems index))), ?_, ?_⟩
    · exact valueToJson_struct_eq_ok.mpr ⟨baseItems, fieldItems, writtenBases, writtenFields, rfl⟩
    · rw [Json.reparsed, read_struct foundBases foundFields]
      exact ⟨newBases, newFields, readBases, readFields, built⟩

/-- Null is written for a hollow value and for no other. -/
theorem isNull_eq_isHollow {type : Ty} {value : Val schema type} {json : Json}
    (written : valueToJson program value = .ok json) : json.isNull = isHollow value := by
  induction value generalizing json with
  | empty =>
      cases written
      rfl
  | holds value ih => exact ih written
  | @int kind value =>
      cases written
      exact isNull_ofInt kind value
  | @rawEnum kind value =>
      cases written
      exact isNull_ofInt kind value
  | @enum items value =>
      obtain ⟨name, -, rfl⟩ := valueToJson_enum_eq_ok.mp written
      rfl
  | pair one two =>
      obtain ⟨id, value, -, -, rfl⟩ := valueToJson_pair_eq_ok.mp written
      rfl
  | tuple values =>
      obtain ⟨items, -, rfl⟩ := valueToJson_tuple_eq_ok.mp written
      rfl
  | array values =>
      obtain ⟨items, -, rfl⟩ := valueToJson_array_eq_ok.mp written
      rfl
  | iter size values =>
      obtain ⟨items, -, rfl⟩ := valueToJson_iter_eq_ok.mp written
      rfl
  | struct bases fields rest =>
      obtain ⟨members, rfl⟩ := valueToJson_struct written
      rfl
  | _ =>
      cases written
      rfl

theorem readAs_empty {how : Nullable} {type : Ty} (object result : Val schema (.nullable how type)) :
    ReadAs program .empty object result ↔ object = result := by
  constructor
  · rintro ⟨json, written, read⟩
    cases written
    rw [Json.reparsed, jsonToValue_nullable] at read
    exact Except.ok.inj read
  · rintro rfl
    refine ⟨.null, rfl, ?_⟩
    rw [Json.reparsed, jsonToValue_nullable]
    rfl

theorem readAs_holds {how : Nullable} {type : Ty} {value : Val schema type}
    (solid : isHollow value = false) (object result : Val schema (.nullable how type)) :
    ReadAs program (.holds value) object result ↔
      ∃ inner, ReadAs program value (program.initialOf type) inner ∧ .holds inner = result := by
  have decoded : ∀ json, valueToJson program value = .ok json →
      jsonToValue program (.nullable how type) json.reparsed object =
        (jsonToValue program type json.reparsed (program.initialOf type)).map Val.holds := by
    intro json written
    have notNull : json.reparsed.isNull = false := by
      rw [Json.isNull_reparsed, isNull_eq_isHollow written, solid]
    rw [jsonToValue_nullable, if_neg (by rw [notNull]; exact Bool.false_ne_true)]
  constructor
  · rintro ⟨json, written, read⟩
    rw [decoded json written] at read
    cases inner : jsonToValue program type json.reparsed (program.initialOf type) with
    | error fault =>
        rw [inner] at read
        cases read
    | ok value =>
        rw [inner] at read
        exact ⟨value, ⟨json, written, inner⟩, Except.ok.inj read⟩
  · rintro ⟨inner, ⟨json, written, read⟩, rfl⟩
    refine ⟨json, written, ?_⟩
    rw [decoded json written, read]
    rfl

end

end Mif.Serialization
