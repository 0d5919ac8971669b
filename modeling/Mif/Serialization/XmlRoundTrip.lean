import Mathlib.Data.List.OfFn
import Mif.Lib.Assoc
import Mif.Lib.EvalOrder
import Mif.Lib.PropertyTree
import Mif.Common.Fault
import Mif.Reflection.MetaInfo
import Mif.Reflection.Schema
import Mif.Reflection.Containers
import Mif.Reflection.EnumNames
import Mif.Serialization.JsonRoundTrip
import Mif.Serialization.XmlText
import Mif.Serialization.XmlDecode
import Mif.Serialization.XmlEncode

set_option autoImplicit false

/- `Xml::Detail::Deserialize` gives back what `Xml::Detail::Serialize` was given, as far as the
reflection of the types goes. -/
namespace Mif.Serialization.Xml

open Mif.Reflection
open Mif.Serialization.Fragment (Distinct)
open PropertyTree (pathKeys walkedKeys)

variable {schema : Schema}

/-- The reflected structs that a type of the fragment is made of. -/
inductive Uses (schema : Schema) : Ty → Nat → Prop
  | self {id : Nat} : Uses schema (.struct id) id
  | target {how : Nullable} {type : Ty} {id : Nat} (inner : Uses schema type id) :
      Uses schema (.nullable how type) id
  | first {one two : Ty} {id : Nat} (inner : Uses schema one id) : Uses schema (.pair one two) id
  | second {one two : Ty} {id : Nat} (inner : Uses schema two id) : Uses schema (.pair one two) id
  | item {container : Container} {type : Ty} {id : Nat} (inner : Uses schema type id) :
      Uses schema (.iter container type) id
  | base {owner id : Nat} (index : schema.BaseIndex owner)
      (inner : Uses schema (.struct (schema.base owner index)) id) :
      Uses schema (.struct owner) id
  | field {owner id : Nat} (index : schema.FieldIndex owner)
      (inner : Uses schema (schema.fieldType owner index) id) : Uses schema (.struct owner) id

/-- The full names of the bases and the names of the fields. -/
def elementNames (program : XmlProgram schema) (id : Nat) : List String :=
  (schema.struct id).bases.map program.registered ++ (schema.struct id).fields.map Prod.fst

/-- No element below the root has the short name of a struct of the type. -/
structure NamesClear (program : XmlProgram schema) (type : Ty) : Prop where
  whole : ∀ id, Uses schema type id → (schema.struct id).name.toList.length ≤ staticStrCapacity
  members : ∀ owner id, Uses schema type owner → Uses schema type id →
    (schema.struct id).name ∉ elementNames program owner
  tags : ∀ id, Uses schema type id →
    (schema.struct id).name ∉ [Xml.Tag.item, Xml.Tag.id, Xml.Tag.value]

/-- A pair, also behind pointers. -/
def isPair : Ty → Bool
  | .nullable _ type => isPair type
  | .pair _ _ => true
  | _ => false

/-- Insertions of the elements in their order make the container again. A set or map holds
its elements in increasing order; of another container this is what its insertion does. -/
def Rebuilt (program : XmlProgram schema) (type : Ty) (container : Container) {size : Nat}
    (values : Fin size → Val schema type) : Prop :=
  match container with
  | .other _ => (List.ofFn values).foldl (program.insert type container) [] = List.ofFn values
  | _ => Fragment.Arranged program.toProgram type container values

/-- The values of the fragment. Pairs are elements of containers, as in maps. -/
def InFragment (program : XmlProgram schema) : {type : Ty} → Val schema type → Prop
  | _, .bool _ => True
  | .int kind, .int _ => kind.width ≠ 8
  | _, .double _ => False
  | _, .string _ => True
  | .enum items, .enum value =>
      Distinct (items.items.map Prod.fst) ∧ value ∈ items.fields.map Prod.snd
  | _, .rawEnum _ => False
  | _, .empty => False
  | .nullable how type, .holds value =>
      how = .smartPointer ∧ isPair type = false ∧ InFragment program value
  | .pair first second, .pair one two =>
      isPair first = false ∧ isPair second = false ∧ InFragment program one ∧
        InFragment program two
  | _, .tuple _ => False
  | _, .array _ => False
  | .iter container type, .iter _ values =>
      Rebuilt program type container values ∧ ∀ index, InFragment program (values index)
  | _, .chars _ => False
  | .struct id, .struct bases fields _ =>
      Distinct (elementNames program id) ∧
        (∀ index, isPair (schema.fieldType id index) = false) ∧
        (∀ index, InFragment program (bases index)) ∧ ∀ index, InFragment program (fields index)

/-- The type behind pointers. -/
def pointee : Ty → Ty
  | .nullable _ type => pointee type
  | type => type

/-- A path for the root: it does not end in a dot, and when it has several keys, the first
one is not the name of the struct at the root. A name without dots is such a path. -/
structure Rooted (program : XmlProgram schema) (type : Ty) (root : String) : Prop where
  ends : (pathKeys root).getLast? ≠ some ""
  apart : ∀ id rest, pointee type = .struct id → pathKeys root = program.shortName id :: rest →
    rest = []

theorem rooted_of_plain (program : XmlProgram schema) (type : Ty) {root : String}
    (plain : Plain root) : Rooted program type root := by
  have keys := PropertyTree.pathKeys_of_plain plain.2
  constructor
  · rw [keys]
    simpa using plain.1
  · intro id rest _ split
    rw [keys] at split
    cases split
    rfl

/- The names of the elements. -/
section

variable {program : XmlProgram schema} {type : Ty}

theorem NamesClear.mono {part : Ty} (clear : NamesClear program type)
    (uses : ∀ id, Uses schema part id → Uses schema type id) : NamesClear program part where
  whole id used := clear.whole id (uses id used)
  members owner id owned used := clear.members owner id (uses owner owned) (uses id used)
  tags id used := clear.tags id (uses id used)

theorem NamesClear.shortName_eq (clear : NamesClear program type) {id : Nat}
    (used : Uses schema type id) : program.shortName id = (schema.struct id).name :=
  staticStr_of_length_le (clear.whole id used)

/-- The names under which the bases and the fields are stored. -/
def storedNames (program : XmlProgram schema) (id : Nat) : List String :=
  List.ofFn (program.baseFullName id) ++ List.ofFn (program.fieldName id)

theorem storedNames_eq {id : Nat} (distinct : Distinct (elementNames program id)) :
    storedNames program id = elementNames program id := by
  have bases : List.ofFn (program.baseFullName id) =
      (schema.struct id).bases.map fun base => staticStr (program.registered base) :=
    List.ofFn_getElem_eq_map (schema.struct id).bases
      fun base => staticStr (program.registered base)
  have fields : List.ofFn (program.fieldName id) =
      (schema.struct id).fields.map fun field => staticStr field.1 :=
    List.ofFn_getElem_eq_map (schema.struct id).fields fun field => staticStr field.1
  have stored : storedNames program id = (elementNames program id).map staticStr := by
    rw [storedNames, bases, fields, elementNames, List.map_append, List.map_map, List.map_map]
    rfl
  rw [stored]
  conv_rhs => rw [← List.map_id (elementNames program id)]
  exact List.map_congr_left fun name member => staticStr_of_length_le (distinct.1 name member)

theorem itemName_of_named {name : String} (named : name ≠ "") (value : Val schema type) :
    itemName program value name = name := by
  induction value with
  | struct bases fields rest => rw [itemName, if_neg named]
  | @holds how type value ih =>
      cases how with
      | smartPointer => rw [itemName, ih]
      | optional => rfl
  | @empty how type =>
      cases how with
      | smartPointer => rfl
      | optional => rfl
  | _ => rfl

theorem addAll_of_plain {entries : List (String × Ptree)} (plain : ∀ entry ∈ entries, Plain entry.1)
    (data : String) (children : List (String × Ptree)) :
    addAll entries (.node data children) = .node data (children ++ entries) := by
  induction entries generalizing children with
  | nil => simp [addAll]
  | cons entry rest ih =>
      have first := (plain entry List.mem_cons_self).2
      have step : addAll (entry :: rest) (.node data children) =
          addAll rest (.node data (children ++ [entry])) := by
        rw [addAll, List.foldl_cons, PropertyTree.pathKeys_of_plain first,
          PropertyTree.add_singleton]
        rfl
      rw [step, ih fun other member => plain other (List.mem_cons_of_mem _ member),
        List.append_assoc, List.singleton_append]

end

/-- Where a type finds its item on a node. A pair takes the node for its item. -/
def Located (program : XmlProgram schema) : Ty → Ptree → String → Ptree → Prop
  | .pair _ _, node, _, item => node = item
  | .nullable _ type, node, name, item => Located program type node name item
  | .struct id, node, name, item => structNode program id node name = some item
  | _, node, name, item => node.getChild (walkedKeys name) = some item

section

variable {program : XmlProgram schema} {type : Ty} {node item : Ptree} {name : String}

/-- An item that was stored under a name is found there, if no child of the node is named
like a struct. -/
theorem located_of_find (single : isPair type = false) (plain : Plain name)
    (found : node.find name = some item)
    (apart : ∀ id, Uses schema type id → node.find (program.shortName id) = none) :
    Located program type node name item := by
  induction type with
  | nullable how type ih => exact ih single fun id used => apart id (.target used)
  | pair first second => cases single
  | struct id =>
      rw [Located, structNode_of_plain program plain, apart id .self, found]
      rfl
  | _ => exact (getChild_of_plain plain node).trans found

end

/-- The value is written, and it is read wherever its item is found; the item is found on
itself under the empty name. -/
def Survives (program : XmlProgram schema) {type : Ty} (value : Val schema type) : Prop :=
  ∃ item, content program value = .ok item ∧ Located program type item "" item ∧
    ∀ node name object, Located program type node name item →
      deserialize program type node object name = .ok value

/-- The same for one object to decode into. -/
def SurvivesOver (program : XmlProgram schema) {type : Ty} (value object : Val schema type) : Prop :=
  ∃ item, content program value = .ok item ∧ Located program type item "" item ∧
    ∀ node name, Located program type node name item →
      deserialize program type node object name = .ok value

theorem survives_of_over {program : XmlProgram schema} {type : Ty} {value : Val schema type}
    (anywhere : ∀ object, SurvivesOver program value object) : Survives program value := by
  obtain ⟨item, written, itself, -⟩ := anywhere (program.initialOf type)
  refine ⟨item, written, itself, fun node name object found => ?_⟩
  obtain ⟨other, written', -, read⟩ := anywhere object
  cases written.symm.trans written'
  exact read node name found

theorem Survives.over {program : XmlProgram schema} {type : Ty} {value : Val schema type}
    (survives : Survives program value) (object : Val schema type) :
    SurvivesOver program value object := by
  obtain ⟨item, written, itself, read⟩ := survives
  exact ⟨item, written, itself, fun node name => read node name object⟩

section

variable {program : XmlProgram schema} {type : Ty}

theorem survives_bool (value : Bool) : Survives program (Val.bool value : Val schema .bool) := by
  refine ⟨.leaf (XmlText.ofBool value), rfl, rfl, fun node name object found => ?_⟩
  cases object with
  | bool object =>
      rw [deserialize_bool_of_some program found]
      exact congrArg (Except.ok ∘ Val.bool) (XmlText.toBool_ofBool value object)

theorem survives_int {kind : IntKind} (wide : kind.width ≠ 8) (value : BitVec kind.width) :
    Survives program (Val.int value : Val schema (.int kind)) := by
  refine ⟨.leaf (XmlText.ofInt kind value), rfl, rfl, fun node name object found => ?_⟩
  cases object with
  | int object =>
      rw [deserialize_int_of_some program found]
      exact congrArg (Except.ok ∘ Val.int) (XmlText.toInt_ofInt value wide object)

theorem survives_string (text : String) :
    Survives program (Val.string text : Val schema .string) := by
  refine ⟨.leaf text, rfl, rfl, fun node name object found => ?_⟩
  rw [deserialize_string_of_some program found]
  rfl

theorem survives_enum {items : ReflectedEnum} {value : Int}
    (distinct : Distinct (items.items.map Prod.fst))
    (known : value ∈ items.items.map Prod.snd) :
    Survives program (Val.enum value : Val schema (.enum items)) := by
  obtain ⟨name, _, named, read⟩ :=
    ReflectedEnum.fromString_toString distinct.1 distinct.2 known
  refine ⟨.leaf (staticStr name), content_enum_of_ok named, rfl, fun node key object found => ?_⟩
  rw [deserialize_enum_of_some program found]
  change (items.fromString (staticStr name) >>= fun value => pure (Val.enum value)) = _
  rw [read]
  rfl

theorem survivesOver_pointer {value : Val schema type}
    (inner : SurvivesOver program value (program.initialOf type))
    (object : Val schema (.nullable .smartPointer type)) :
    SurvivesOver program (.holds value) object := by
  obtain ⟨item, written, itself, read⟩ := inner
  refine ⟨item, written, itself, fun node name found => ?_⟩
  rw [deserialize, read node name found]
  rfl

/-- A pair is read from its item: each component under its own name. -/
theorem survivesOver_pair {first second : Ty} {one oldOne : Val schema first}
    {two oldTwo : Val schema second}
    (singleFirst : isPair first = false) (singleSecond : isPair second = false)
    (clear : NamesClear program (.pair first second))
    (left : SurvivesOver program one oldOne) (right : SurvivesOver program two oldTwo) :
    SurvivesOver program (.pair one two) (.pair oldOne oldTwo) := by
  obtain ⟨id, writtenId, _, readId⟩ := left
  obtain ⟨value, writtenValue, _, readValue⟩ := right
  let item : Ptree := .node "" [(Xml.Tag.id, id), (Xml.Tag.value, value)]
  have written : content program (Val.pair one two) = .ok item := by
    rw [content_pair_of_ok writtenId writtenValue, itemName_of_named plain_id.1,
      itemName_of_named plain_value.1]
    refine congrArg Except.ok (addAll_of_plain ?_ "" [])
    simp only [List.mem_cons, List.not_mem_nil, or_false]
    rintro entry (rfl | rfl)
    · exact plain_id
    · exact plain_value
  have apart : ∀ id, Uses schema (.pair first second) id →
      item.find (program.shortName id) = none := by
    intro id used
    have different := clear.tags id used
    rw [← clear.shortName_eq used, List.mem_cons, not_or] at different
    exact PropertyTree.find_eq_none different.2
  refine ⟨item, written, rfl, fun node name found => ?_⟩
  obtain rfl : node = item := found
  have atId : Located program first item Xml.Tag.id id :=
    located_of_find singleFirst plain_id rfl fun id used => apart id (.first used)
  have atValue : Located program second item Xml.Tag.value value :=
    located_of_find singleSecond plain_value rfl fun id used => apart id (.second used)
  rw [deserialize, readId _ _ atId, readValue _ _ atValue]
  rfl

theorem foldl_insert_of_rebuilt {container : Container} {size : Nat}
    {values : Fin size → Val schema type} (rebuilt : Rebuilt program type container values) :
    (List.ofFn values).foldl (program.insert type container) [] = List.ofFn values := by
  cases container with
  | other id => exact rebuilt
  | sequence => exact foldl_insert_of_arranged rebuilt
  | ordered order => exact foldl_insert_of_arranged rebuilt

/-- The item of a container: a child for each element. -/
theorem content_iter {container : Container} {size : Nat} {values : Fin size → Val schema type}
    {items : Fin size → Ptree} (written : ∀ index, content program (values index) = .ok (items index)) :
    content program (Val.iter size values : Val schema (.iter container type)) =
      .ok (.node "" (List.ofFn fun index => (Xml.Tag.item, items index))) := by
  have plain : ∀ entry ∈ List.ofFn fun index => (Xml.Tag.item, items index), Plain entry.1 := by
    intro entry member
    obtain ⟨index, rfl⟩ := List.mem_ofFn.mp member
    exact plain_item
  have named : (List.ofFn fun index =>
      (itemName program (values index) Xml.Tag.item, items index)) =
        List.ofFn fun index => (Xml.Tag.item, items index) := by
    refine congrArg List.ofFn (funext fun index => ?_)
    rw [itemName_of_named plain_item.1]
  rw [content_iter_of_ok written, named]
  exact congrArg Except.ok (addAll_of_plain plain "" [])

/-- A container is read from its item: each element from a node of its own, which it takes
under the empty name. -/
theorem read_iter {container : Container} {size : Nat} {items : Fin size → Ptree}
    {results : Fin size → Val schema type} {node : Ptree} {name : String}
    (found : node.getChild (walkedKeys name) =
      some (.node "" (List.ofFn fun index => (Xml.Tag.item, items index))))
    (read : ∀ index,
      deserialize program type (items index) (program.fresh type) "" = .ok (results index))
    (object : Val schema (.iter container type)) :
    deserialize program (.iter container type) node object name =
      .ok (.ofList ((List.ofFn results).foldl (program.insert type container) [])) := by
  have general : ∀ (children : List (String × Ptree)) (length : children.length = size),
      (∀ index : Fin children.length,
        deserialize program type (children.get index).2 (program.fresh type) "" =
          .ok (results (index.cast length))) →
      node.getChild (walkedKeys name) = some (.node "" children) →
      deserialize program (.iter container type) node object name =
        .ok (.ofList ((List.ofFn results).foldl (program.insert type container) [])) := by
    intro children length each inside
    subst length
    rw [deserialize_iter_of_some program inside]
    exact (EvalOrder.evaluate_bind_eq_ok _ _ _ _).mpr ⟨results, each, rfl⟩
  refine general _ List.length_ofFn (fun index => ?_) found
  rw [List.get_ofFn]
  exact read _

theorem survivesOver_iter {container : Container} {size : Nat} {values : Fin size → Val schema type}
    (rebuilt : Rebuilt program type container values)
    (each : ∀ index, SurvivesOver program (values index) (program.fresh type))
    (object : Val schema (.iter container type)) :
    SurvivesOver program (.iter size values) object := by
  choose items written itself read using each
  refine ⟨_, content_iter written, rfl, fun node name found => ?_⟩
  rw [read_iter found (fun index => read index _ _ (itself index)),
    foldl_insert_of_rebuilt rebuilt, Val.ofList_ofFn]

/- The item of a struct. -/
section

variable (program) {id : Nat} (baseItems : schema.BaseIndex id → Ptree)
  (fieldItems : schema.FieldIndex id → Ptree)

/-- The children that hold the bases and the fields. -/
def memberEntries : List (String × Ptree) :=
  (List.ofFn fun index => (program.baseFullName id index, baseItems index)) ++
    List.ofFn fun index => (program.fieldName id index, fieldItems index)

theorem names_memberEntries :
    (memberEntries program baseItems fieldItems).map Prod.fst = storedNames program id := by
  simp [memberEntries, storedNames, List.map_ofFn, Function.comp_def]

theorem plain_memberEntries :
    ∀ entry ∈ memberEntries program baseItems fieldItems, Plain entry.1 := by
  intro entry member
  rcases List.mem_append.mp member with base | field
  · obtain ⟨index, rfl⟩ := List.mem_ofFn.mp base
    exact plain_baseFullName program id index
  · obtain ⟨index, rfl⟩ := List.mem_ofFn.mp field
    exact plain_fieldName program id index

variable {program baseItems fieldItems}
  {bases : ∀ index, Val schema (.struct (schema.base id index))}
  {fields : ∀ index, Val schema (schema.fieldType id index)}
  {rest : ∀ index, Val schema (schema.restType id index)}

theorem content_struct (writtenBases : ∀ index, content program (bases index) = .ok (baseItems index))
    (writtenFields : ∀ index, content program (fields index) = .ok (fieldItems index)) :
    content program (Val.struct bases fields rest : Val schema (.struct id)) =
      .ok (.node "" (memberEntries program baseItems fieldItems)) := by
  have named : (List.ofFn fun index =>
        (itemName program (bases index) (program.baseFullName id index), baseItems index)) ++
      (List.ofFn fun index =>
        (itemName program (fields index) (program.fieldName id index), fieldItems index)) =
      memberEntries program baseItems fieldItems := by
    have namedBase : ∀ index, itemName program (bases index) (program.baseFullName id index) =
        program.baseFullName id index :=
      fun index => itemName_of_named (plain_baseFullName program id index).1 _
    have namedField : ∀ index, itemName program (fields index) (program.fieldName id index) =
        program.fieldName id index :=
      fun index => itemName_of_named (plain_fieldName program id index).1 _
    simp only [memberEntries, namedBase, namedField]
  rw [content_struct_of_ok writtenBases writtenFields, named]
  exact congrArg Except.ok (addAll_of_plain (plain_memberEntries program _ _) "" [])

end

/-- A struct is read from its item: the bases and the fields under their names. The fields that
it does not know stay as they are. -/
theorem survivesOver_struct {id : Nat}
    {bases oldBases : ∀ index, Val schema (.struct (schema.base id index))}
    {fields oldFields : ∀ index, Val schema (schema.fieldType id index)}
    (rest : ∀ index, Val schema (schema.restType id index))
    (distinct : Distinct (elementNames program id))
    (single : ∀ index, isPair (schema.fieldType id index) = false)
    (clear : NamesClear program (.struct id))
    (basesSurvive : ∀ index, SurvivesOver program (bases index) (oldBases index))
    (fieldsSurvive : ∀ index, SurvivesOver program (fields index) (oldFields index)) :
    SurvivesOver program (.struct bases fields rest) (.struct oldBases oldFields rest) := by
  choose baseItems writtenBases _ readBases using basesSurvive
  choose fieldItems writtenFields _ readFields using fieldsSurvive
  let item : Ptree := .node "" (memberEntries program baseItems fieldItems)
  have names : (memberEntries program baseItems fieldItems).map Prod.fst =
      elementNames program id := by
    rw [names_memberEntries, storedNames_eq distinct]
  have nodup : ((memberEntries program baseItems fieldItems).map Prod.fst).Nodup := by
    rw [names]
    exact distinct.2
  have apart : ∀ part, Uses schema (.struct id) part →
      item.find (program.shortName part) = none := by
    intro part used
    apply PropertyTree.find_eq_none
    change _ ∉ (memberEntries program baseItems fieldItems).map Prod.fst
    rw [names, clear.shortName_eq used]
    exact clear.members id part .self used
  have atBase : ∀ index, Located program (.struct (schema.base id index)) item
      (program.baseFullName id index) (baseItems index) := by
    intro index
    refine located_of_find rfl (plain_baseFullName program id index) ?_
      fun part used => apart part (.base index used)
    exact Assoc.lookup_of_mem nodup (List.mem_append_left _ (List.mem_ofFn.mpr ⟨index, rfl⟩))
  have atField : ∀ index, Located program (schema.fieldType id index) item
      (program.fieldName id index) (fieldItems index) := by
    intro index
    refine located_of_find (single index) (plain_fieldName program id index) ?_
      fun part used => apart part (.field index used)
    exact Assoc.lookup_of_mem nodup (List.mem_append_right _ (List.mem_ofFn.mpr ⟨index, rfl⟩))
  refine ⟨item, content_struct writtenBases writtenFields, ?_, fun node name found => ?_⟩
  · rw [Located, structNode, getChild_of_plain (plain_shortName program id), apart id .self]
    rfl
  · rw [deserialize_struct_of_some program found, (EvalOrder.evaluate_eq_ok _ _ bases).mpr
      fun index => readBases index _ _ (atBase index)]
    simp only [bind, Except.bind]
    rw [(EvalOrder.evaluate_eq_ok _ _ fields).mpr
      fun index => readFields index _ _ (atField index)]
    rfl

end

/-- No smart pointer that is written with the value is null. -/
def NoNull : {type : Ty} → Val schema type → Prop
  | .nullable .smartPointer _, .empty => False
  | _, .holds value => NoNull value
  | _, .pair one two => NoNull one ∧ NoNull two
  | _, .tuple values => ∀ index, NoNull (values index)
  | _, .array values => ∀ index, NoNull (values index)
  | _, .iter _ values => ∀ index, NoNull (values index)
  | _, .struct bases fields _ => (∀ index, NoNull (bases index)) ∧ ∀ index, NoNull (fields index)
  | _, _ => True

/-- What the reflection of the types does not reach is as it should be before: an enumerator is
among the items that its enum knows, and the fields that a struct does not know hold what they
hold in the object that is decoded into. -/
def Reached (program : XmlProgram schema) : {type : Ty} → (value object : Val schema type) → Prop
  | .enum items, .enum value, _ => value ∈ items.items.map Prod.snd
  | .nullable _ type, .holds value, _ => Reached program value (program.initialOf type)
  | _, .pair one two, .pair oldOne oldTwo => Reached program one oldOne ∧ Reached program two oldTwo
  | .iter _ type, .iter _ values, _ => ∀ index, Reached program (values index) (program.fresh type)
  | _, .struct bases fields rest, .struct oldBases oldFields oldRest =>
      (∀ index, Reached program (bases index) (oldBases index)) ∧
        (∀ index, Reached program (fields index) (oldFields index)) ∧
        ∀ index, rest index = oldRest index
  | _, _, _ => True

section

variable {program : XmlProgram schema}

/-- A value that is reached is read back. The induction is over the value, and follows the
object that is decoded into. -/
theorem survivesOver_of_reached {type : Ty} {value object : Val schema type}
    (inside : InFragment program value) (clear : NamesClear program type)
    (reached : Reached program value object) : SurvivesOver program value object := by
  induction value with
  | bool value => exact (survives_bool value).over object
  | int value => exact (survives_int inside value).over object
  | double value => cases inside
  | string text => exact (survives_string text).over object
  | enum value => exact (survives_enum inside.1 reached).over object
  | rawEnum value => cases inside
  | empty => cases inside
  | holds value ih =>
      obtain ⟨rfl, _, target⟩ := inside
      exact survivesOver_pointer (ih target (clear.mono fun _ => .target) reached) object
  | pair one two ihOne ihTwo =>
      obtain ⟨singleFirst, singleSecond, first, second⟩ := inside
      cases object with
      | pair oldOne oldTwo =>
          exact survivesOver_pair singleFirst singleSecond clear
            (ihOne first (clear.mono fun _ => .first) reached.1)
            (ihTwo second (clear.mono fun _ => .second) reached.2)
  | tuple values => cases inside
  | array values => cases inside
  | iter size values ih =>
      exact survivesOver_iter inside.1 (fun index =>
        ih index (inside.2 index) (clear.mono fun _ => .item) (reached index)) object
  | chars values => cases inside
  | struct bases fields rest ihBases ihFields _ =>
      obtain ⟨distinct, single, insideBases, insideFields⟩ := inside
      cases object with
      | struct oldBases oldFields oldRest =>
          obtain ⟨reachedBases, reachedFields, same⟩ := reached
          rw [funext same]
          exact survivesOver_struct oldRest distinct single clear
            (fun index => ihBases index (insideBases index) (clear.mono fun _ => .base index)
              (reachedBases index))
            fun index => ihFields index (insideFields index) (clear.mono fun _ => .field index)
              (reachedFields index)

/-- Whatever is read has no null pointer anywhere and is reached: each call makes its own targets
and makes enumerators out of names, and it leaves the fields alone that a struct does not know. The
other values that the object held before are all replaced. -/
theorem noNull_and_reached_of_deserialize (only : InsertsOnly program.toProgram) {type : Ty}
    {node : Ptree} {object value : Val schema type} {name : String}
    (read : deserialize program type node object name = .ok value) :
    NoNull value ∧ Reached program value object := by
  induction type, node, object, name using deserialize.induct program with
  | case1 node object name =>
      cases value with
      | bool value => exact ⟨trivial, trivial⟩
  | case2 kind node object name =>
      cases value with
      | int value => exact ⟨trivial, trivial⟩
  | case3 node object name =>
      cases value with
      | double value => exact ⟨trivial, trivial⟩
  | case4 node name object =>
      cases value with
      | string value => exact ⟨trivial, trivial⟩
  | case5 items node name object =>
      rw [deserialize] at read
      obtain ⟨text, -, named⟩ := ok_of_bind read
      obtain ⟨number, known, built⟩ := ok_of_bind named
      cases built
      exact ⟨trivial, ReflectedEnum.known_of_fromString known⟩
  | case6 kind node name object =>
      cases value with
      | rawEnum value => exact ⟨trivial, trivial⟩
  | case7 type node name object ih =>
      rw [deserialize] at read
      cases target : deserialize program type node (program.initialOf type) name with
      | error fault =>
          rw [target] at read
          cases read
      | ok inner =>
          rw [target] at read
          cases read
          exact ih target
  | case8 first second node one two name ihOne ihTwo =>
      rw [deserialize] at read
      obtain ⟨first, readFirst, rest⟩ := ok_of_bind read
      obtain ⟨second, readSecond, built⟩ := ok_of_bind rest
      cases built
      exact ⟨⟨(ihOne readFirst).1, (ihTwo readSecond).1⟩,
        (ihOne readFirst).2, (ihTwo readSecond).2⟩
  | case9 container type node name item found object ih =>
      rw [deserialize_iter_of_some program (getChild_of_getChildOptional found),
        EvalOrder.evaluate_bind_eq_ok] at read
      obtain ⟨values, each, filled⟩ := read
      cases value with
      | iter size elements =>
          have element : ∀ index, NoNull (elements index) ∧
              Reached program (elements index) (program.fresh type) := by
            intro index
            obtain ⟨place, same⟩ := only.inserts.exists_of_filled filled index
            rw [← same]
            exact ih place (each place)
          exact ⟨fun index => (element index).1, fun index => (element index).2⟩
  | case10 container type node name missing object =>
      rw [deserialize, missing] at read
      cases read
  | case11 node name item found object =>
      cases value with
      | chars values => exact ⟨trivial, trivial⟩
  | case12 node name missing object =>
      cases value with
      | chars values => exact ⟨trivial, trivial⟩
  | case13 id node bases fields rest name ihBases ihFields =>
      cases found : structNode program id node name with
      | none =>
          rw [deserialize_struct_of_none program found] at read
          cases read
      | some item =>
          obtain ⟨within, _⟩ := structItem_of_some program found
          rw [deserialize_struct_of_some program found] at read
          obtain ⟨newBases, readBases, later⟩ := ok_of_bind read
          obtain ⟨newFields, readFields, rfl⟩ := (EvalOrder.evaluate_bind_eq_ok _ _ _ _).mp later
          rw [EvalOrder.evaluate_eq_ok] at readBases
          have base := fun index => ihBases ⟨item, within⟩ index (readBases index)
          have field := fun index => ihFields ⟨item, within⟩ index (readFields index)
          exact ⟨⟨fun index => (base index).1, fun index => (field index).1⟩,
            fun index => (base index).2, fun index => (field index).2, fun _ => rfl⟩
  | case14 type node name object =>
      rw [deserialize] at read
      cases read
  | case15 size types node name object =>
      rw [deserialize] at read
      cases read
  | case16 size type node name object =>
      rw [deserialize] at read
      cases read

end

theorem Rooted.walkedKeys_eq {program : XmlProgram schema} {type : Ty} {root : String}
    (rooted : Rooted program type root) : walkedKeys root = pathKeys root := by
  rw [walkedKeys, if_neg rooted.ends]

theorem Rooted.named {program : XmlProgram schema} {type : Ty} {root : String}
    (rooted : Rooted program type root) : root ≠ "" := by
  rintro rfl
  exact rooted.ends (by decide)

/-- The item is found again under the root. -/
theorem located_root {program : XmlProgram schema} {type : Ty} {root : String}
    (single : isPair type = false) (rooted : Rooted program type root) (item : Ptree) :
    Located program type (PropertyTree.add "" item (pathKeys root) (.leaf "")) root item := by
  have found : (PropertyTree.add "" item (pathKeys root) (.leaf "")).getChild (walkedKeys root) =
      some item := by
    rw [rooted.walkedKeys_eq]
    exact PropertyTree.getChild_add_leaf "" "" item (PropertyTree.pathKeys_ne_nil root)
  induction type with
  | nullable how type ih => exact ih single ⟨rooted.ends, rooted.apart⟩
  | pair first second => cases single
  | struct id =>
      obtain ⟨key, rest, keys⟩ := List.exists_cons_of_ne_nil (PropertyTree.pathKeys_ne_nil root)
      obtain ⟨child, only, below⟩ := PropertyTree.children_add_leaf "" "" item key rest
      rw [Located, structNode, found, getChild_of_plain (plain_shortName program id),
        PropertyTree.find, keys, only]
      by_cases same : program.shortName id = key
      · have none : rest = [] := rooted.apart id rest rfl (same ▸ keys)
        subst none
        cases below
        rw [same, List.lookup_cons_self]
        rfl
      · have missed : (program.shortName id == key) = false := by simpa using same
        rw [List.lookup_cons, missed]
        rfl
  | _ => exact found

/-- The document of the value is read back to it. -/
def DocumentKept (program : XmlProgram schema) {type : Ty} (value : Val schema type)
    (root : String) (object : Val schema type) : Prop :=
  ∃ doc, serialize program value root (.leaf "") = .ok doc ∧
    deserialize program type doc object root = .ok value

theorem serialize_root {program : XmlProgram schema} {type : Ty} {value : Val schema type}
    {root : String} {item : Ptree} (rooted : Rooted program type root)
    (written : content program value = .ok item) :
    serialize program value root (.leaf "") =
      .ok (PropertyTree.add "" item (pathKeys root) (.leaf "")) := by
  rw [serialize, written, itemName_of_named rooted.named]
  rfl

/-- The fields that a struct does not know are not written. -/
theorem serialize_rest (program : XmlProgram schema) {id : Nat}
    (bases : ∀ index, Val schema (.struct (schema.base id index)))
    (fields : ∀ index, Val schema (schema.fieldType id index))
    (rest rest' : ∀ index, Val schema (schema.restType id index)) (root : String) (node : Ptree) :
    serialize program (.struct bases fields rest) root node =
      serialize program (.struct bases fields rest') root node :=
  rfl

/-- What is read at its root is read from the whole document. -/
theorem documentKept_of_over {program : XmlProgram schema} {type : Ty}
    {value object : Val schema type} {root : String} (single : isPair type = false)
    (rooted : Rooted program type root) (survives : SurvivesOver program value object) :
    DocumentKept program value root object := by
  obtain ⟨item, written, _, read⟩ := survives
  exact ⟨_, serialize_root rooted written, read _ root (located_root single rooted item)⟩

/-- A value of the fragment is written, and its document is read back to it, exactly when the
reflection of its types reaches all of it. -/
theorem document_is_read_back_iff (program : XmlProgram schema)
    (only : InsertsOnly program.toProgram) {type : Ty} (value : Val schema type)
    (root : String) (single : isPair type = false) (inside : InFragment program value)
    (clear : NamesClear program type) (rooted : Rooted program type root)
    (object : Val schema type) :
    DocumentKept program value root object ↔ Reached program value object := by
  constructor
  · rintro ⟨doc, -, read⟩
    exact (noNull_and_reached_of_deserialize only read).2
  · intro reached
    exact documentKept_of_over single rooted (survivesOver_of_reached inside clear reached)

/-- Where no type has more than 100 registered items, every value is reached. -/
theorem reached_of_few {program : XmlProgram schema} (few : FewItems schema) {type : Ty}
    (small : Few type) {value : Val schema type} (inside : InFragment program value)
    (object : Val schema type) : Reached program value object := by
  induction value with
  | bool value => trivial
  | int value => trivial
  | double value => cases inside
  | string text => trivial
  | @enum items value =>
      have all : items.items = items.fields := by
        rw [ReflectedEnum.items_eq, List.take_of_length_le small]
      rw [Reached, all]
      exact inside.2
  | rawEnum value => cases inside
  | empty => cases inside
  | holds value ih => exact ih small inside.2.2 _
  | pair one two ihOne ihTwo =>
      cases object with
      | pair oldOne oldTwo =>
          exact ⟨ihOne small.1 inside.2.2.1 oldOne, ihTwo small.2 inside.2.2.2 oldTwo⟩
  | tuple values ih => cases inside
  | array values ih => cases inside
  | iter size values ih => exact fun index => ih index small (inside.2 index) _
  | chars values => cases inside
  | @struct id bases fields rest ihBases ihFields _ =>
      obtain ⟨-, -, insideBases, insideFields⟩ := inside
      cases object with
      | struct oldBases oldFields oldRest =>
          exact ⟨fun index => ihBases index trivial (insideBases index) (oldBases index),
            fun index => ihFields index (few.field id index) (insideFields index) (oldFields index),
            fun index => (schema.no_rest id (few id).1 index).elim⟩

/-- `struct Titled { std::string title; }` and
`struct Report : Titled { std::map<std::int32_t, bool> marks; }`, both in `App`. -/
def reportSchema : Schema where
  struct
    | 0 => ⟨"Titled", [], [("title", .string)], by decide⟩
    | _ + 1 =>
        ⟨"Report", [0], [("marks", .iter (.ordered 0) (.pair (.int .int32) .bool))], by decide⟩

def titled (title : String) : Val reportSchema (.struct 0) :=
  .struct (fun index => index.elim0)
    (fun index =>
      match index with
      | ⟨0, _⟩ => .string title)
    fun index => index.elim0

def report (title : String)
    (marks : Val reportSchema (.iter (.ordered 0) (.pair (.int .int32) .bool))) (id : Nat) :
    Val reportSchema (.struct (id + 1)) :=
  .struct
    (fun index =>
      match index with
      | ⟨0, _⟩ => titled title)
    (fun index =>
      match index with
      | ⟨0, _⟩ => marks)
    fun index => index.elim0

def reportProgram : Program reportSchema where
  initial
    | 0 => titled ""
    | id + 1 => report "" (.ofList []) id
  less _ _ _ _ := false
  insertOther _ _ object _ := object
  order _ := EvalOrder.leftToRight _

def reportXml : XmlProgram reportSchema where
  toProgram := reportProgram
  registered
    | 0 => "App::Titled"
    | _ + 1 => "App::Report"
  plainName
    | 0 => (⟨by decide, by decide⟩ : Plain "Titled")
    | _ + 1 => (⟨by decide, by decide⟩ : Plain "Report")
  plainRegistered
    | 0 => (⟨by decide, by decide⟩ : Plain "App::Titled")
    | _ + 1 => (⟨by decide, by decide⟩ : Plain "App::Report")
  plainField
    | 0, _, .head _ => (⟨by decide, by decide⟩ : Plain "title")
    | _ + 1, _, .head _ => (⟨by decide, by decide⟩ : Plain "marks")
  fresh := reportProgram.initialOf
  ofDouble := Float.toString
  toDouble _ object := object
  toRawEnum _ _ := none

theorem fewItems_report : FewItems reportSchema
  | 0 => by
      refine ⟨by change 1 ≤ 100; omega, fun member listed => ?_⟩
      rw [List.mem_singleton.mp listed]
      trivial
  | _ + 1 => by
      refine ⟨by change 1 ≤ 100; omega, fun member listed => ?_⟩
      rw [List.mem_singleton.mp listed]
      exact ⟨trivial, trivial⟩

theorem insertsOnly_report : InsertsOnly reportXml.toProgram :=
  fun _ _ _ _ _ member => Or.inl member

/-- A report with one mark. -/
def passed : Val reportSchema (.struct 1) :=
  report "x" (.iter 1 fun _ => .pair (.int 7) (.bool true)) 0

theorem inFragment_passed : InFragment reportXml passed := by
  refine ⟨⟨by decide, by decide⟩, fun index => ?_, fun index => ?_, fun index => ?_⟩
  · match index with
    | ⟨0, _⟩ => rfl
  · match index with
    | ⟨0, _⟩ =>
        refine ⟨⟨by decide, by decide⟩, fun index => ?_, fun index => index.elim0, fun index => ?_⟩
        · match index with
          | ⟨0, _⟩ => rfl
        · match index with
          | ⟨0, _⟩ => trivial
  · match index with
    | ⟨0, _⟩ =>
        have wide : IntKind.int32.width ≠ 8 := by decide
        refine ⟨fun first second below => ?_, fun _ => ⟨rfl, rfl, wide, trivial⟩⟩
        omega

theorem namesClear_report (type : Ty) : NamesClear reportXml type where
  whole
    | 0, _ => (by decide : "Titled".toList.length ≤ staticStrCapacity)
    | _ + 1, _ => (by decide : "Report".toList.length ≤ staticStrCapacity)
  members
    | 0, 0, _, _ => (by decide : "Titled" ∉ ["title"])
    | 0, _ + 1, _, _ => (by decide : "Report" ∉ ["title"])
    | _ + 1, 0, _, _ => (by decide : "Titled" ∉ ["App::Titled", "marks"])
    | _ + 1, _ + 1, _, _ => (by decide : "Report" ∉ ["App::Titled", "marks"])
  tags
    | 0, _ => (by decide : "Titled" ∉ ["item", "id", "val"])
    | _ + 1, _ => (by decide : "Report" ∉ ["item", "id", "val"])

theorem report_is_read_back :
    DocumentKept reportXml passed "report" (report "" (.ofList []) 0) := by
  have small : Few (.struct 1) := trivial
  exact (document_is_read_back_iff reportXml insertsOnly_report passed "report" rfl
    inFragment_passed (namesClear_report _) (rooted_of_plain _ _ ⟨by decide, by decide⟩) _).mpr
      (reached_of_few fewItems_report small inFragment_passed _)

section

variable {names : List String} (compiles : (MetaInfo.reflect (flagFields names)).isSome)
  (plain : ∀ name ∈ names, Plain name)

/-- The program of the flags. -/
def flagsXml : XmlProgram (flagsSchema compiles) where
  toProgram := flagsProgram compiles
  registered _ := "Flags"
  plainName _ := (⟨by decide, by decide⟩ : Plain "Flags")
  plainRegistered _ := (⟨by decide, by decide⟩ : Plain "Flags")
  plainField id field known := by
    obtain ⟨name, listed, rfl⟩ :=
      List.mem_map.mp (((flagsSchema compiles).struct id).mem_of_fields known)
    exact plain name listed
  fresh := (flagsProgram compiles).initialOf
  ofDouble := Float.toString
  toDouble _ object := object
  toRawEnum _ _ := none

theorem elementNames_flags (id : Nat) :
    elementNames (flagsXml compiles plain) id = names.take Remote.fakeHierarchyLength := by
  have noBases : ((flagsSchema compiles).struct id).bases = [] := rfl
  rw [elementNames, noBases, fieldNames_flags]
  rfl

variable {compiles plain}

theorem inFragment_flag {type : Ty} (same : .bool = type) (value : Bool) :
    InFragment (flagsXml compiles plain) (flag same value) := by
  subst same
  trivial

theorem isPair_of_bool {type : Ty} (same : .bool = type) : isPair type = false := by
  subst same
  rfl

theorem inFragment_flags (distinct : Distinct names) (others : Bool) :
    InFragment (flagsXml compiles plain) (flagsOf compiles others 0) := by
  refine ⟨?_, fun index => isPair_of_bool (fieldType_flags compiles 0 index),
    fun index => index.elim0, fun _ => inFragment_flag _ false⟩
  rw [elementNames_flags]
  exact distinct.take _

theorem namesClear_flags (other : "Flags" ∉ names) (type : Ty) :
    NamesClear (flagsXml compiles plain) type where
  whole _ _ := (by decide : "Flags".toList.length ≤ staticStrCapacity)
  members owner _ _ _ := by
    rw [elementNames_flags]
    exact fun listed => other (List.mem_of_mem_take listed)
  tags _ _ := (by decide : "Flags" ∉ ["item", "id", "val"])

theorem reached_flag {type : Ty} (same : .bool = type) (value : Bool)
    (object : Val (flagsSchema compiles) type) :
    Reached (flagsXml compiles plain) (flag same value) object := by
  subst same
  cases object with
  | bool other => trivial

theorem reached_flags :
    Reached (flagsXml compiles plain) (flagsOf compiles false 0) (flagsOf compiles false 0) :=
  ⟨fun index => index.elim0, fun _ => reached_flag _ false _, fun _ => rfl⟩

theorem not_reached_flags (more : Remote.fakeHierarchyLength < names.length) :
    ¬ Reached (flagsXml compiles plain) (flagsOf compiles true 0) (flagsOf compiles false 0) := by
  obtain ⟨index⟩ := exists_rest compiles more
  intro reached
  cases flag_injective (restType_flags compiles 0 index) (reached.2.2 index)

/-- The document of a struct with more registered fields than the counter comes to is not read
back to it. -/
theorem rest_is_not_read (distinct : Distinct names) (other : "Flags" ∉ names)
    (more : Remote.fakeHierarchyLength < names.length) {root : String}
    (rooted : Rooted (flagsXml compiles plain) (.struct 0) root) :
    (∃ doc, serialize (flagsXml compiles plain) (flagsOf compiles true 0) root (.leaf "") =
        .ok doc ∧
      deserialize (flagsXml compiles plain) (.struct 0) doc (flagsOf compiles false 0) root =
        .ok (flagsOf compiles false 0)) ∧
      ¬ DocumentKept (flagsXml compiles plain) (flagsOf compiles true 0) root
        (flagsOf compiles false 0) := by
  have only : InsertsOnly (flagsXml compiles plain).toProgram :=
    fun _ _ _ _ _ member => Or.inl member
  have shared : serialize (flagsXml compiles plain) (flagsOf compiles true 0) root (.leaf "") =
      serialize (flagsXml compiles plain) (flagsOf compiles false 0) root (.leaf "") :=
    serialize_rest _ _ _ _ _ _ _
  constructor
  · rw [shared]
    exact documentKept_of_over rfl rooted (survivesOver_of_reached
      (inFragment_flags distinct false) (namesClear_flags other _) reached_flags)
  · rintro ⟨doc, -, read⟩
    exact not_reached_flags more (noNull_and_reached_of_deserialize only read).2

end

theorem plain_flagName (index : Nat) : Plain (flagName index) := by
  constructor
  · intro none
    exact absurd (congrArg String.toList none) (by simp [flagName])
  · intro dotted
    rw [flagName, String.toList_ofList, List.mem_cons] at dotted
    rcases dotted with first | digit
    · exact absurd first (by decide)
    · exact absurd (Nat.isDigit_of_mem_toDigits (by decide) (by decide) digit) (by decide)

theorem plain_flagNames : ∀ name ∈ flagNames, Plain name := by
  intro name listed
  obtain ⟨index, -, rfl⟩ := List.mem_map.mp listed
  exact plain_flagName index

theorem flags_not_mem : "Flags" ∉ flagNames := by
  intro listed
  obtain ⟨index, -, same⟩ := List.mem_map.mp listed
  have letters := congrArg String.toList same
  rw [flagName, String.toList_ofList] at letters
  exact absurd (List.cons.inj letters).1 (by decide)

/-- A document of a struct with 101 registered fields comes back without the last one. -/
theorem document_loses_last_field :
    InFragment (flagsXml flagNames_compile plain_flagNames) (flagsOf flagNames_compile true 0) ∧
      NamesClear (flagsXml flagNames_compile plain_flagNames) (.struct 0) ∧
      Rooted (flagsXml flagNames_compile plain_flagNames) (.struct 0) "flags" ∧
      (∃ doc, serialize (flagsXml flagNames_compile plain_flagNames)
          (flagsOf flagNames_compile true 0) "flags" (.leaf "") = .ok doc ∧
        deserialize (flagsXml flagNames_compile plain_flagNames) (.struct 0) doc
          (flagsOf flagNames_compile false 0) "flags" = .ok (flagsOf flagNames_compile false 0)) ∧
      ¬ DocumentKept (flagsXml flagNames_compile plain_flagNames)
        (flagsOf flagNames_compile true 0) "flags" (flagsOf flagNames_compile false 0) := by
  have more : Remote.fakeHierarchyLength < flagNames.length := by rw [length_flagNames]; omega
  have rooted : Rooted (flagsXml flagNames_compile plain_flagNames) (.struct 0) "flags" :=
    rooted_of_plain _ _ ⟨by decide, by decide⟩
  exact ⟨inFragment_flags distinct_flagNames true, namesClear_flags flags_not_mem _, rooted,
    rest_is_not_read distinct_flagNames flags_not_mem more rooted⟩

end Mif.Serialization.Xml
