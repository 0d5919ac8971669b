import Mif.Lib.EvalOrder
import Mif.Lib.PropertyTree
import Mif.Common.Fault
import Mif.Reflection.Schema
import Mif.Serialization.XmlText
import Mif.Serialization.XmlDecode
import Mif.Serialization.XmlAccepted

set_option autoImplicit false

/- When a field is read from its own node alone. -/
namespace Mif.Serialization.Xml

open Mif.Reflection
open PropertyTree (walkedKeys)

variable {schema : Schema}

/-- The parts of a type that are read from one and the same node, with the names that they
are read under. A smart pointer passes its name on; a pair has names of its own. -/
def parts : Ty → String → List (Ty × String)
  | .nullable .smartPointer type, name => parts type name
  | .pair first second, _ => parts first Xml.Tag.id ++ parts second Xml.Tag.value
  | type, name => [(type, name)]

/-- The types that are read as a whole. -/
def isPart : Ty → Bool
  | .nullable .smartPointer _ => false
  | .pair _ _ => false
  | _ => true

section

theorem parts_pointer (type : Ty) (name : String) :
    parts (.nullable .smartPointer type) name = parts type name :=
  rfl

theorem parts_pair (first second : Ty) (name : String) :
    parts (.pair first second) name = parts first Xml.Tag.id ++ parts second Xml.Tag.value :=
  rfl

theorem parts_of_isPart {type : Ty} (single : isPart type = true) (name : String) :
    parts type name = [(type, name)] := by
  unfold isPart at single
  split at single
  · cases single
  · cases single
  · rename_i noPointer noPair
    rw [parts]
    · exact noPointer
    · exact noPair

/-- Pointers and pairs are taken apart, and what is left is a part. -/
theorem parts_induction {motive : Ty → String → Prop}
    (pointer : ∀ type name, motive type name → motive (.nullable .smartPointer type) name)
    (pair : ∀ first second name, motive first Xml.Tag.id → motive second Xml.Tag.value →
      motive (.pair first second) name)
    (part : ∀ type name, isPart type = true → motive type name) (type : Ty) (name : String) :
    motive type name := by
  induction type, name using parts.induct with
  | case1 type name ih => exact pointer type name ih
  | case2 first second name ihOne ihTwo => exact pair first second name ihOne ihTwo
  | case3 type name noPointer noPair =>
      apply part
      unfold isPart
      split
      · exact absurd rfl (noPointer _)
      · exact absurd rfl (noPair _ _)
      · rfl

theorem parts_ne_nil (type : Ty) (name : String) : parts type name ≠ [] := by
  induction type, name using parts_induction with
  | pointer type name ih => exact ih
  | pair first second name ihOne ihTwo =>
      rw [parts_pair]
      simp [ihOne]
  | part type name single =>
      rw [parts_of_isPart single]
      simp

theorem isPart_of_mem {type : Ty} {name : String} {part : Ty × String}
    (member : part ∈ parts type name) : isPart part.1 = true := by
  induction type, name using parts_induction with
  | pointer type name ih => exact ih member
  | pair first second name ihOne ihTwo =>
      rw [parts_pair, List.mem_append] at member
      exact member.elim ihOne ihTwo
  | part type name single =>
      rw [parts_of_isPart single, List.mem_singleton] at member
      rw [member]
      exact single

theorem plain_of_mem {type : Ty} {name : String} {part : Ty × String} (plain : Plain name)
    (member : part ∈ parts type name) : Plain part.2 := by
  induction type, name using parts_induction with
  | pointer type name ih => exact ih plain member
  | pair first second name ihOne ihTwo =>
      rw [parts_pair, List.mem_append] at member
      exact member.elim (ihOne plain_id) (ihTwo plain_value)
  | part type name single =>
      rw [parts_of_isPart single, List.mem_singleton] at member
      rw [member]
      exact plain

variable {program : XmlProgram schema}

/-- A type is accepted when each of its parts is. -/
theorem accepted_iff_parts {type : Ty} {node : Ptree} {name : String} :
    Accepted program type node name ↔
      ∀ part ∈ parts type name, Accepted program part.1 node part.2 := by
  induction type, name using parts_induction with
  | pointer type name ih =>
      rw [parts_pointer, ← ih]
      constructor
      · intro accepted
        cases accepted with
        | simple any _ => cases any
        | pointer target => exact target
      · exact .pointer
  | pair first second name ihOne ihTwo =>
      rw [parts_pair]
      simp only [List.mem_append, or_imp, forall_and]
      rw [← ihOne, ← ihTwo]
      constructor
      · intro accepted
        cases accepted with
        | simple any _ => cases any
        | pair one two => exact ⟨one, two⟩
      · rintro ⟨one, two⟩
        exact .pair one two
  | part type name single =>
      rw [parts_of_isPart single]
      simp

/-- The result of a type depends on the results of its parts. -/
theorem deserialize_congr {type : Ty} {name : String} {first second : Ptree}
    (same : ∀ part ∈ parts type name, ∀ object,
      deserialize program part.1 first object part.2 =
        deserialize program part.1 second object part.2) (object : Val schema type) :
    deserialize program type first object name = deserialize program type second object name := by
  induction type, name using parts_induction with
  | pointer type name ih =>
      rw [deserialize, deserialize, ih same]
  | pair one two name ihOne ihTwo =>
      rw [parts_pair] at same
      cases object with
      | pair left right =>
          rw [deserialize, deserialize,
            ihOne fun part member => same part (List.mem_append_left _ member),
            ihTwo fun part member => same part (List.mem_append_right _ member)]
  | part type name single =>
      rw [parts_of_isPart single] at same
      exact same _ List.mem_cons_self object

end

/-- The result of this part is that of the child under the key, if there is one. A struct
without bases and fields has but one value. -/
def Keeps (program : XmlProgram schema) (key : String) : Ty × String → Prop
  | (.struct id, name) => program.shortName id = key ∨
      (name = key ∧ (schema.struct id).bases = [] ∧ (schema.struct id).fields = [])
  | (_, name) => name = key

/-- This part is read from the child under the key and from no other one. -/
def Needs (program : XmlProgram schema) (key : String) : Ty × String → Prop
  | (.struct id, name) => name = key ∧ program.shortName id = key
  | (_, name) => name = key

/-- What is read under the key stands under the key. -/
def Clear (program : XmlProgram schema) (type : Ty) (key : String) : Prop :=
  (∀ part ∈ parts type key, Keeps program key part) ∧
    ∃ part ∈ parts type key, Needs program key part

/-- The call for a field, on the node of its struct. -/
def readField (program : XmlProgram schema) (id : Nat) (index : schema.FieldIndex id)
    (node : Ptree) (object : Val schema (schema.fieldType id index)) :
    Outcome (Val schema (schema.fieldType id index)) :=
  deserialize program (schema.fieldType id index) node object (program.fieldName id index)

/-- Nodes that agree on the child under the name of the field give it the same value, or
fail on it both. -/
def Local (program : XmlProgram schema) (id : Nat) (index : schema.FieldIndex id) : Prop :=
  ∀ first second : Ptree,
    first.find (program.fieldName id index) = second.find (program.fieldName id index) →
    ∀ object value, readField program id index first object = .ok value ↔
      readField program id index second object = .ok value

/- Parts that are no structs. -/
section

theorem struct_or_other (type : Ty) : (∃ id, type = .struct id) ∨ ∀ id, type ≠ .struct id := by
  by_cases struct : ∃ id, type = .struct id
  · exact .inl struct
  · exact .inr fun id same => struct ⟨id, same⟩

theorem keeps_iff {program : XmlProgram schema} {key name : String} {kind : Ty}
    (noStruct : ∀ id, kind ≠ .struct id) : Keeps program key (kind, name) ↔ name = key := by
  cases kind with
  | struct id => exact absurd rfl (noStruct id)
  | _ => exact Iff.rfl

theorem needs_iff {program : XmlProgram schema} {key name : String} {kind : Ty}
    (noStruct : ∀ id, kind ≠ .struct id) : Needs program key (kind, name) ↔ name = key := by
  cases kind with
  | struct id => exact absurd rfl (noStruct id)
  | _ => exact Iff.rfl

variable {program : XmlProgram schema} {type : Ty} {first second : Ptree} {name : String}

theorem getText_congr (what : String)
    (same : first.getChild (walkedKeys name) = second.getChild (walkedKeys name)) :
    getText what first name = getText what second name := by
  rw [getText, getText, same]

/-- They depend on the node under their name alone. -/
theorem deserialize_of_same (single : isPart type = true) (noStruct : ∀ id, type ≠ .struct id)
    (same : first.getChild (walkedKeys name) = second.getChild (walkedKeys name))
    (object : Val schema type) :
    deserialize program type first object name = deserialize program type second object name := by
  cases object with
  | bool object => rw [deserialize, deserialize, getText_congr _ same]
  | int object => rw [deserialize, deserialize, getText_congr _ same]
  | double object => rw [deserialize, deserialize, getText_congr _ same]
  | string object => rw [deserialize, deserialize, getText_congr _ same]
  | enum object => rw [deserialize, deserialize, getText_congr _ same]
  | rawEnum object => rw [deserialize, deserialize, getText_congr _ same]
  | @empty how target =>
      cases how with
      | optional => rw [deserialize, deserialize]
      | smartPointer => cases single
  | @holds how target object =>
      cases how with
      | optional => rw [deserialize, deserialize]
      | smartPointer => cases single
  | pair one two => cases single
  | tuple values => rw [deserialize, deserialize]
  | array values => rw [deserialize, deserialize]
  | iter size values =>
      cases found : second.getChild (walkedKeys name) with
      | none =>
          rw [deserialize_iter_of_none program found,
            deserialize_iter_of_none program (same.trans found)]
      | some item =>
          rw [deserialize_iter_of_some program found,
            deserialize_iter_of_some program (same.trans found)]
  | chars values =>
      cases found : second.getChild (walkedKeys name) with
      | none =>
          rw [deserialize_chars_of_none program found,
            deserialize_chars_of_none program (same.trans found)]
      | some item =>
          rw [deserialize_chars_of_some program found,
            deserialize_chars_of_some program (same.trans found)]
  | @struct id bases fields rest => exact absurd rfl (noStruct id)

theorem found_of_accepted (single : isPart type = true) (noStruct : ∀ id, type ≠ .struct id)
    (accepted : Accepted program type first name) :
    ∃ item, first.getChild (walkedKeys name) = some item := by
  cases accepted with
  | simple any found => exact ⟨_, found⟩
  | enum found known => exact ⟨_, found⟩
  | rawEnum found converted => exact ⟨_, found⟩
  | pointer target => cases single
  | pair one two => cases single
  | iter found each => exact ⟨_, found⟩
  | @struct id _ _ _ found bases fields => exact absurd rfl (noStruct id)

end

/- Structs. -/
section

variable {program : XmlProgram schema} {id : Nat} {node item : Ptree} {name : String}

/-- The bases and the fields of a struct are accepted on a node. -/
def MembersAccepted (program : XmlProgram schema) (id : Nat) (item : Ptree) : Prop :=
  (∀ index, Accepted program (.struct (schema.base id index)) item
    (program.baseFullName id index)) ∧
  ∀ index, Accepted program (schema.fieldType id index) item (program.fieldName id index)

theorem accepted_struct_iff : Accepted program (.struct id) node name ↔
    ∃ item, structNode program id node name = some item ∧ MembersAccepted program id item := by
  constructor
  · intro accepted
    cases accepted with
    | simple any _ => cases any
    | struct found bases fields => exact ⟨_, found, bases, fields⟩
  · rintro ⟨item, found, bases, fields⟩
    exact .struct found bases fields

theorem deserialize_struct_of_same {first second : Ptree}
    (same : structNode program id first name = structNode program id second name)
    (object : Val schema (.struct id)) :
    deserialize program (.struct id) first object name =
      deserialize program (.struct id) second object name := by
  cases found : structNode program id second name with
  | none =>
      rw [deserialize_struct_of_none program found,
        deserialize_struct_of_none program (same.trans found)]
  | some item =>
      cases object with
      | struct bases fields rest =>
          rw [deserialize_struct_of_some program found,
            deserialize_struct_of_some program (same.trans found)]

/-- A struct without bases and fields is the same on all nodes. -/
theorem deserialize_struct_of_bare {first second left right : Ptree}
    (noBases : (schema.struct id).bases = []) (noFields : (schema.struct id).fields = [])
    (foundLeft : structNode program id first name = some left)
    (foundRight : structNode program id second name = some right)
    (object : Val schema (.struct id)) :
    deserialize program (.struct id) first object name =
      deserialize program (.struct id) second object name := by
  have noBase : ∀ index : schema.BaseIndex id, False := by
    intro index
    have inside := index.isLt
    simp [noBases] at inside
  have noField : ∀ index : schema.FieldIndex id, False := by
    intro index
    have inside := index.isLt
    simp [noFields] at inside
  cases object with
  | struct bases fields rest =>
      have sameBases : (fun index => deserialize program (.struct (schema.base id index)) left
            (bases index) (program.baseFullName id index)) =
          fun index => deserialize program (.struct (schema.base id index)) right
            (bases index) (program.baseFullName id index) :=
        funext fun index => (noBase index).elim
      have sameFields : (fun index => deserialize program (schema.fieldType id index) left
            (fields index) (program.fieldName id index)) =
          fun index => deserialize program (schema.fieldType id index) right
            (fields index) (program.fieldName id index) :=
        funext fun index => (noField index).elim
      rw [deserialize_struct_of_some program foundLeft,
        deserialize_struct_of_some program foundRight, sameBases, sameFields]

end

/- Fields that read nothing but their own node. -/
section

variable {program : XmlProgram schema} {type : Ty} {key : String}

/-- Without its node, a part that needs it is not accepted. -/
theorem not_accepted_of_needs {node : Ptree} {part : Ty × String} (plain : Plain part.2)
    (single : isPart part.1 = true) (needs : Needs program key part)
    (missing : node.find key = none) : ¬ Accepted program part.1 node part.2 := by
  obtain ⟨kind, name⟩ := part
  intro accepted
  rcases struct_or_other kind with ⟨id, rfl⟩ | noStruct
  · obtain ⟨named, short⟩ : name = key ∧ program.shortName id = key := needs
    obtain ⟨item, found, _⟩ := accepted_struct_iff.mp accepted
    rw [structNode_of_plain program plain, named, short, missing] at found
    cases found
  · have named : name = key := (needs_iff noStruct).mp needs
    obtain ⟨item, found⟩ := found_of_accepted single noStruct accepted
    rw [getChild_of_plain plain, named, missing] at found
    cases found

/-- With its node, a part that keeps to it has the same result. -/
theorem deserialize_of_keeps {first second own : Ptree} {part : Ty × String}
    (plain : Plain part.2) (single : isPart part.1 = true) (keeps : Keeps program key part)
    (foundFirst : first.find key = some own) (foundSecond : second.find key = some own)
    (object : Val schema part.1) :
    deserialize program part.1 first object part.2 =
      deserialize program part.1 second object part.2 := by
  obtain ⟨kind, name⟩ := part
  rcases struct_or_other kind with ⟨id, rfl⟩ | noStruct
  · rcases keeps with short | ⟨named, noBases, noFields⟩
    · apply deserialize_struct_of_same
      rw [structNode_of_plain program plain, structNode_of_plain program plain, short,
        foundFirst, foundSecond]
      rfl
    · have located : ∀ node : Ptree, node.find key = some own →
          ∃ item, structNode program id node name = some item := by
        intro node found
        rw [structNode_of_plain program plain, named, found]
        cases node.find (program.shortName id) with
        | none => exact ⟨own, rfl⟩
        | some item => exact ⟨item, rfl⟩
      obtain ⟨left, foundLeft⟩ := located first foundFirst
      obtain ⟨right, foundRight⟩ := located second foundSecond
      exact deserialize_struct_of_bare noBases noFields foundLeft foundRight object
  · have named : name = key := (keeps_iff noStruct).mp keeps
    apply deserialize_of_same single noStruct
    rw [getChild_of_plain plain, getChild_of_plain plain, named, foundFirst, foundSecond]

/-- Nodes that agree on the child under the key give a clear type the same value. -/
theorem same_of_clear (plain : Plain key) (clear : Clear program type key) {first second : Ptree}
    (same : first.find key = second.find key) (object value : Val schema type) :
    deserialize program type first object key = .ok value ↔
      deserialize program type second object key = .ok value := by
  obtain ⟨keeps, part, member, needs⟩ := clear
  cases found : second.find key with
  | some own =>
      rw [deserialize_congr fun part inside object =>
        deserialize_of_keeps (plain_of_mem plain inside) (isPart_of_mem inside)
          (keeps part inside) (same.trans found) found object]
  | none =>
      have fails : ∀ node : Ptree, node.find key = none →
          ¬ deserialize program type node object key = .ok value := by
        intro node missing read
        have accepted := accepted_iff_parts.mp (accepted_of_ok read) part member
        exact not_accepted_of_needs (plain_of_mem plain member) (isPart_of_mem member) needs
          missing accepted
      exact iff_of_false (fails first (same.trans found)) (fails second found)

end

/- Fields that are read from other nodes too. -/
section

/-- A node with the same child under all of these keys. -/
def spread (keys : List String) (child : Ptree) : Ptree :=
  .node "" (keys.map fun key => (key, child))

theorem find_spread_of_mem {keys : List String} {key : String} (child : Ptree)
    (member : key ∈ keys) : (spread keys child).find key = some child := by
  induction keys with
  | nil => cases member
  | cons first rest ih =>
      by_cases same : key = first
      · subst same
        simp [spread, PropertyTree.find, PropertyTree.children]
      · have missed : (key == first) = false := by simpa using same
        have later : key ∈ rest := by simpa [same] using member
        have tail := ih later
        simp only [spread, PropertyTree.find, PropertyTree.children, List.map_cons,
          List.lookup_cons, missed] at tail ⊢
        exact tail

theorem find_spread_of_not_mem {keys : List String} {key : String} (child : Ptree)
    (absent : key ∉ keys) : (spread keys child).find key = none := by
  rw [spread, PropertyTree.find, PropertyTree.children, List.lookup_eq_none_iff]
  intro entry member
  obtain ⟨other, inside, rfl⟩ := List.mem_map.mp member
  simp only [ne_eq, bne_iff_ne]
  rintro rfl
  exact absent inside

variable {program : XmlProgram schema}

/-- A node without children has nothing to be read under a name. -/
theorem not_accepted_empty {type : Ty} {name data : String} (plain : Plain name) :
    ¬ Accepted program type (.leaf data) name := by
  intro accepted
  obtain ⟨part, member⟩ := List.exists_mem_of_ne_nil _ (parts_ne_nil type name)
  have inside := accepted_iff_parts.mp accepted part member
  have named := plain_of_mem plain member
  rcases struct_or_other part.1 with ⟨id, same⟩ | noStruct
  · rw [same] at inside
    obtain ⟨item, found, _⟩ := accepted_struct_iff.mp inside
    rw [structNode_of_plain program named] at found
    cases found
  · obtain ⟨item, found⟩ := found_of_accepted (isPart_of_mem member) noStruct inside
    rw [getChild_of_plain named] at found
    cases found

theorem members_of_empty {id : Nat} {data : String}
    (accepted : MembersAccepted program id (.leaf data)) :
    (schema.struct id).bases = [] ∧ (schema.struct id).fields = [] := by
  obtain ⟨bases, fields⟩ := accepted
  constructor
  · by_contra some
    exact not_accepted_empty (plain_baseFullName program id _)
      (bases ⟨0, List.length_pos_iff.mpr some⟩)
  · by_contra some
    exact not_accepted_empty (plain_fieldName program id _)
      (fields ⟨0, List.length_pos_iff.mpr some⟩)

theorem key_of_find_spread {key name : String} {own item : Ptree}
    (found : (spread [key] own).find name = some item) : name = key ∧ item = own := by
  by_cases same : name = key
  · rw [same, find_spread_of_mem own (by simp)] at found
    cases found
    exact ⟨same, rfl⟩
  · rw [find_spread_of_not_mem own (by simpa using same)] at found
    cases found

variable {type : Ty} {key : String}

theorem members_of_bare {id : Nat} (noBases : (schema.struct id).bases = [])
    (noFields : (schema.struct id).fields = []) (item : Ptree) :
    MembersAccepted program id item := by
  constructor
  · intro index
    have inside := index.isLt
    simp [noBases] at inside
  · intro index
    have inside := index.isLt
    simp [noFields] at inside

/-- Parts that keep to the key but do not need it are accepted without it, on a node with
the same child under all the other keys that they look for. -/
theorem accepted_elsewhere {own : Ptree} {keys : List String} (absent : key ∉ keys)
    {part : Ty × String} (named : Plain part.2) (keeps : Keeps program key part)
    (needless : ¬ Needs program key part) (nameKey : part.2 ≠ key → part.2 ∈ keys)
    (shortKey : ∀ id, part.1 = .struct id → program.shortName id ≠ key →
      program.shortName id ∈ keys)
    (accepted : Accepted program part.1 (spread [key] own) part.2) :
    Accepted program part.1 (spread keys own) part.2 := by
  obtain ⟨kind, name⟩ := part
  rcases struct_or_other kind with ⟨id, rfl⟩ | noStruct
  · rw [accepted_struct_iff, structNode_of_plain program named] at accepted ⊢
    rcases keeps with short | ⟨same, noBases, noFields⟩
    · have different : name ≠ key := fun same => needless ⟨same, short⟩
      rw [short, find_spread_of_mem own (by simp)] at accepted
      obtain ⟨item, found, members⟩ := accepted
      cases found
      rw [short, find_spread_of_not_mem own absent, find_spread_of_mem own (nameKey different)]
      exact ⟨own, rfl, members⟩
    · have different : program.shortName id ≠ key := fun short => needless ⟨same, short⟩
      rw [find_spread_of_mem own (shortKey id rfl different)]
      exact ⟨own, rfl, members_of_bare noBases noFields own⟩
  · rw [keeps_iff noStruct] at keeps
    exact absurd ((needs_iff noStruct).mpr keeps) needless

/-- The name of a part, and the short name of its struct. -/
def lookedFor (program : XmlProgram schema) : Ty × String → List String
  | (.struct id, name) => [name, program.shortName id]
  | (_, name) => [name]

theorem name_mem_lookedFor (part : Ty × String) : part.2 ∈ lookedFor program part := by
  obtain ⟨kind, name⟩ := part
  cases kind with
  | _ => simp [lookedFor]

/-- Whether a type is accepted depends on the child under the key alone. -/
def Isolated (program : XmlProgram schema) (type : Ty) (key : String) : Prop :=
  ∀ first second : Ptree, first.find key = second.find key →
    Accepted program type first key → Accepted program type second key

variable (isolated : Isolated program type key) (plain : Plain key)

include isolated plain

/-- Then it is accepted on that child alone. -/
theorem own_of_isolated {node : Ptree} (accepted : Accepted program type node key) :
    ∃ own, Accepted program type (spread [key] own) key := by
  cases found : node.find key with
  | none => exact absurd (isolated node (.leaf "") found accepted) (not_accepted_empty plain)
  | some own =>
      refine ⟨own, isolated node _ ?_ accepted⟩
      rw [found, find_spread_of_mem own (by simp)]

/-- Each part keeps to the key: beside the child under the key an empty child with the name
of a struct would be read in its place. -/
theorem keeps_of_isolated {own : Ptree} (accepted : Accepted program type (spread [key] own) key)
    {part : Ty × String} (member : part ∈ parts type key) : Keeps program key part := by
  have inside := accepted_iff_parts.mp accepted part member
  have named := plain_of_mem plain member
  have single := isPart_of_mem member
  obtain ⟨kind, name⟩ := part
  rcases struct_or_other kind with ⟨id, rfl⟩ | noStruct
  · by_cases short : program.shortName id = key
    · exact .inl short
    · obtain ⟨item, found, _⟩ := accepted_struct_iff.mp inside
      rw [structNode_of_plain program named, find_spread_of_not_mem own (by simpa using short),
        Option.none_or] at found
      obtain ⟨same, _⟩ := key_of_find_spread found
      let beside : Ptree := .node "" [(key, own), (program.shortName id, .leaf "")]
      have agree : (spread [key] own).find key = beside.find key := by
        rw [find_spread_of_mem own (by simp)]
        simp [beside, PropertyTree.find, PropertyTree.children]
      have typed : beside.find (program.shortName id) = some (.leaf "") := by
        have missed : (program.shortName id == key) = false := by simpa using short
        simp [beside, PropertyTree.find, PropertyTree.children, List.lookup_cons, missed]
      have again := accepted_iff_parts.mp (isolated _ beside agree accepted) _ member
      obtain ⟨other, located, members⟩ := accepted_struct_iff.mp again
      rw [structNode_of_plain program named, typed, Option.some_or] at located
      cases located
      exact .inr ⟨same, members_of_empty members⟩
  · obtain ⟨item, found⟩ := found_of_accepted single noStruct inside
    rw [getChild_of_plain named] at found
    obtain ⟨same, _⟩ := key_of_find_spread found
    exact (keeps_iff noStruct).mpr same

/-- Some part needs the key. -/
theorem needs_of_isolated {own : Ptree} (accepted : Accepted program type (spread [key] own) key) :
    ∃ part ∈ parts type key, Needs program key part := by
  by_contra none
  have needless : ∀ part ∈ parts type key, ¬ Needs program key part :=
    fun part member needs => none ⟨part, member, needs⟩
  let keys := ((parts type key).flatMap (lookedFor program)).filter (· ≠ key)
  have absent : key ∉ keys := by simp [keys]
  have listed : ∀ part ∈ parts type key, ∀ name ∈ lookedFor program part, name ≠ key →
      name ∈ keys := by
    intro part member name inside different
    simp only [keys, List.mem_filter, List.mem_flatMap, decide_eq_true_eq]
    exact ⟨⟨part, member, inside⟩, different⟩
  have elsewhere : Accepted program type (spread keys own) key := by
    rw [accepted_iff_parts]
    intro part member
    apply accepted_elsewhere absent (plain_of_mem plain member)
      (keeps_of_isolated isolated plain accepted member) (needless part member)
    · exact listed part member _ (name_mem_lookedFor part)
    · intro id same different
      apply listed part member _ _ different
      obtain ⟨kind, name⟩ := part
      cases same
      simp [lookedFor]
    · exact accepted_iff_parts.mp accepted part member
  have nowhere := isolated _ (.leaf "") (find_spread_of_not_mem own absent) elsewhere
  exact not_accepted_empty plain nowhere

theorem clear_of_isolated {node : Ptree} (accepted : Accepted program type node key) :
    Clear program type key := by
  obtain ⟨own, alone⟩ := own_of_isolated isolated plain accepted
  exact ⟨fun _ member => keeps_of_isolated isolated plain alone member,
    needs_of_isolated isolated plain alone⟩

end

/-- A field that the struct knows is read from its own node exactly when all its parts are, or
when it is read from no node at all. -/
theorem local_iff {program : XmlProgram schema} {id : Nat} (index : schema.FieldIndex id) :
    Local program id index ↔
      Clear program (schema.fieldType id index) (program.fieldName id index) ∨
        ∀ node, ¬ Accepted program (schema.fieldType id index) node
          (program.fieldName id index) := by
  have plain := plain_fieldName program id index
  constructor
  · intro isolated
    by_cases read : ∃ node, Accepted program (schema.fieldType id index) node
        (program.fieldName id index)
    · obtain ⟨node, accepted⟩ := read
      refine .inl (clear_of_isolated (fun first second same inside => ?_) plain accepted)
      obtain ⟨value, ok⟩ := ok_of_accepted inside (program.initialOf _)
      exact accepted_of_ok ((isolated first second same _ value).mp ok)
    · exact .inr fun node accepted => read ⟨node, accepted⟩
  · rintro (clear | never) first second same object value
    · exact same_of_clear plain clear same object value
    · have fails : ∀ node, ¬ readField program id index node object = .ok value :=
        fun node ok => never node (accepted_of_ok ok)
      exact iff_of_false (fails first) (fails second)

/-- The fields that a struct does not know are read from no node. -/
def RestUntouched (program : XmlProgram schema) (id : Nat) : Prop :=
  ∀ node name bases fields rest newBases newFields newRest,
    deserialize program (.struct id) node (.struct bases fields rest) name =
      .ok (.struct newBases newFields newRest) → newRest = rest

theorem restUntouched (program : XmlProgram schema) (id : Nat) : RestUntouched program id := by
  intro node name bases fields rest newBases newFields newRest read
  cases found : structNode program id node name with
  | none =>
      rw [deserialize_struct_of_none program found] at read
      cases read
  | some item =>
      rw [deserialize_struct_of_some program found] at read
      obtain ⟨_, -, later⟩ := ok_of_bind read
      obtain ⟨_, -, built⟩ := ok_of_bind later
      cases built
      rfl

/-- The fields of a struct. The siblings of a field that the struct knows have no influence on
it exactly under the condition, and they never have on the others. -/
theorem local_iff_clear (program : XmlProgram schema) (id : Nat) :
    (∀ index : schema.FieldIndex id, Local program id index ↔
      Clear program (schema.fieldType id index) (program.fieldName id index) ∨
        ∀ node, ¬ Accepted program (schema.fieldType id index) node
          (program.fieldName id index)) ∧
      RestUntouched program id :=
  ⟨local_iff, restUntouched program id⟩

/-- A field that is neither a pointer nor a pair is clear unless it is of a struct type with
another name. -/
theorem clear_iff_of_isPart {program : XmlProgram schema} {type : Ty} {key : String}
    (single : isPart type = true) :
    Clear program type key ↔ ∀ id, type = .struct id → program.shortName id = key := by
  rw [Clear, parts_of_isPart single]
  simp only [List.mem_singleton, forall_eq, exists_eq_left]
  cases type with
  | struct id =>
      constructor
      · rintro ⟨_, needs⟩ other same
        cases same
        exact needs.2
      · intro short
        exact ⟨.inl (short id rfl), rfl, short id rfl⟩
  | _ => simp [Keeps, Needs]

/-- `struct Order { std::pair<std::int32_t, std::int32_t> range; std::int32_t id, val; }` -/
def orderSchema : Schema :=
  ⟨fun _ => ⟨"Order", [], [("range", .pair (.int .int32) (.int .int32)), ("id", .int .int32),
    ("val", .int .int32)], by decide⟩⟩

def orderRange (id val : BitVec 32) : Val orderSchema (.pair (.int .int32) (.int .int32)) :=
  .pair (.int id) (.int val)

def orderProgram : Program orderSchema where
  initial _ := .struct (fun index => index.elim0)
    (fun index =>
      match index with
      | ⟨0, _⟩ => orderRange 0 0
      | ⟨1, _⟩ => .int 0
      | ⟨2, _⟩ => .int 0)
    fun index => index.elim0
  less _ _ _ _ := false
  insertOther _ _ object _ := object
  order _ := EvalOrder.leftToRight _

def orderXml : XmlProgram orderSchema where
  toProgram := orderProgram
  registered _ := "Order"
  plainName _ := (⟨by decide, by decide⟩ : Plain "Order")
  plainRegistered _ := ⟨by decide, by decide⟩
  plainField id := by
    intro field known
    have member := (orderSchema.struct id).mem_of_fields known
    simp only [orderSchema, List.mem_cons, List.not_mem_nil, or_false] at member
    rcases member with rfl | rfl | rfl
    all_goals exact ⟨by decide, by decide⟩
  fresh := orderProgram.initialOf
  ofDouble := Float.toString
  toDouble _ object := object
  toRawEnum _ _ := none

/-- An order with the range from 5 to 6. -/
def orderNode (id val : String) : Ptree :=
  .node "" [("range", .node "" [("id", .leaf "5"), ("val", .leaf "6")]), ("id", .leaf id),
    ("val", .leaf val)]

theorem readField_range (id val : String) :
    readField orderXml 0 ⟨0, by decide⟩ (orderNode id val) (orderRange 0 0) =
      .ok (orderRange (XmlText.toInt .int32 id 0) (XmlText.toInt .int32 val 0)) := by
  have first : (orderNode id val).getChild (walkedKeys Xml.Tag.id) = some (.leaf id) := by
    rw [getChild_of_plain plain_id]
    rfl
  have second : (orderNode id val).getChild (walkedKeys Xml.Tag.value) = some (.leaf val) := by
    rw [getChild_of_plain plain_value]
    rfl
  change deserialize orderXml (.pair (.int .int32) (.int .int32)) (orderNode id val)
    (.pair (.int 0) (.int 0)) _ = _
  rw [deserialize, deserialize, deserialize, getText_of_some first, getText_of_some second]
  rfl

/-- Two orders with the same range, which is read from the other fields. -/
theorem range_is_read_from_siblings :
    (orderNode "1" "2").find "range" = (orderNode "3" "4").find "range" ∧
      readField orderXml 0 ⟨0, by decide⟩ (orderNode "1" "2") (orderRange 0 0) =
        .ok (orderRange 1 2) ∧
      readField orderXml 0 ⟨0, by decide⟩ (orderNode "3" "4") (orderRange 0 0) =
        .ok (orderRange 3 4) ∧
      ¬ Local orderXml 0 ⟨0, by decide⟩ := by
  have same : (orderNode "1" "2").find "range" = (orderNode "3" "4").find "range" := rfl
  have first : readField orderXml 0 ⟨0, by decide⟩ (orderNode "1" "2") (orderRange 0 0) =
      .ok (orderRange 1 2) := readField_range "1" "2"
  have second : readField orderXml 0 ⟨0, by decide⟩ (orderNode "3" "4") (orderRange 0 0) =
      .ok (orderRange 3 4) := readField_range "3" "4"
  refine ⟨same, first, second, fun isolated => ?_⟩
  have other := (isolated _ _ same _ _).mp first
  rw [second] at other
  cases other

end Mif.Serialization.Xml
