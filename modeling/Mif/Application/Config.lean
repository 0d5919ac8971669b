import Mathlib.Data.List.OfFn
import Mathlib.Data.List.DropRight
import Mif.Lib.PropertyTree
import Mif.Common.Fault
import Mif.Serialization.JsonValue

set_option autoImplicit false

/- `IConfig` over a JSON value and over a property tree that was read from XML. -/
namespace Mif.Application

open Mif.Serialization (Json)
open PropertyTree (pathKeys walkedKeys)

/-- The methods of `IConfig`. `getConfig` may return a null pointer. -/
structure IConfig (Config : Type) where
  existsAt : Config → String → Bool
  getValue : Config → String → Outcome String
  getConfig : Config → String → Outcome (Option Config)

def badPath (method what path : String) : String :=
  "[Mif::Application::Detail::Config::" ++ method ++ "] Failed to get " ++ what ++
    ". Bad path \"" ++ path ++ "\""

/- `config/json.cpp` -/
namespace JsonConfig

/-- `boost::algorithm::trim` in the classic locale. -/
def trim (path : List Char) : List Char :=
  (path.dropWhile Serialization.HexStream.isSpace).rdropWhile Serialization.HexStream.isSpace

def pathToList (path : String) : List String :=
  ((trim path.toList).splitOn '.').map String.ofList

/-- The loop of `FindItem`, which ends with `item` and `level`, or returns null. -/
def descend (size : Nat) :
    List String → List (String × Json) → Nat → Option (List (String × Json) × Nat)
  | [], item, level => some (item, level)
  | i :: rest, item, level =>
      match Json.find i item with
      | some (.object obj) =>
          if size - level = 1 then some (item, level) else descend size rest obj (level + 1)
      | some _ => some (item, level)
      | none => none

def findItem (root : Json) (path : String) : Option Json :=
  match root with
  | .object members =>
      let list := pathToList path
      match descend list.length list members 0 with
      | some (item, level) =>
          if list.length - level = 1 then list.getLast?.bind fun back => Json.find back item
          else none
      | none => none
  | _ => none

/-- The value under the keys, one object inside the other. -/
def follow : Json → List String → Option Json
  | json, [] => some json
  | .object members, key :: rest => (Json.find key members).bind fun json => follow json rest
  | _, _ :: _ => none

@[simp] theorem follow_nil (json : Json) : follow json [] = some json := by
  cases json <;> rfl

/-- `std::to_string` of a `double` is `decimal`. -/
def getValue (decimal : Float → String) (root : Json) (path : String) : Outcome String :=
  match findItem root path with
  | none => throwing (badPath "GetValue" "value" path)
  | some .null => .ok ""
  | some (.bool val) => .ok (if val then "1" else "0")
  | some (.double val) => .ok (decimal val)
  | some (.int64 val) => .ok (toString val.toInt)
  | some (.uint64 val) => .ok (toString val.toNat)
  | some (.string val) => .ok val
  | some _ => throwing "std::bad_alloc"

def getConfig (root : Json) (path : String) : Outcome (Option Json) :=
  match findItem root path with
  | none => throwing (badPath "GetConfig" "config" path)
  | some .null => .ok none
  | some (.object members) => .ok (some (.object members))
  | some _ => throwing ("[Mif::Application::Detail::Config::GetConfig] " ++
      "Failed to get config by path \"" ++ path ++ "\". The value is not an object.")

end JsonConfig

def jsonConfig (decimal : Float → String) : IConfig Json where
  existsAt root path := (JsonConfig.findItem root path).isSome
  getValue := JsonConfig.getValue decimal
  getConfig := JsonConfig.getConfig

/- `config/xml.cpp`. The lookups of a property tree do not throw, so that the handlers
for exceptions are never entered. -/
namespace XmlConfig

/-- The tree of a config, from what `read_xml` gives. -/
def ofDocument (tree : Ptree) : Ptree :=
  (tree.getChild (walkedKeys "document")).getD (.leaf "")

def getValue (tree : Ptree) (path : String) : Outcome String :=
  match tree.getChild (walkedKeys path) with
  | some value => .ok value.data
  | none => throwing (badPath "GetValue" "value" path)

def getConfig (tree : Ptree) (path : String) : Outcome (Option Ptree) :=
  .ok (tree.getChild (walkedKeys path))

end XmlConfig

/-- `Exists` takes the path as one key. -/
def xmlConfig : IConfig Ptree where
  existsAt tree path := (tree.find path).isSome
  getValue := XmlConfig.getValue
  getConfig := XmlConfig.getConfig

/-- A tree of nested sections with texts at its leaves. The entries of a section have
different names, and between their elements stands some white space. -/
inductive Node
  | leaf (text : String)
  | section (space : String) (names : List String) (distinct : names.Nodup)
      (nodes : Fin names.length → Node)

namespace Node

/-- What `boost::json::parse` makes of the tree when it is written as JSON. -/
def toJson : Node → Json
  | leaf text => .string text
  | .section _ names _ nodes =>
      .object (List.ofFn fun index => (names.get index, (nodes index).toJson))

/-- What `read_xml` makes of the tree when it is written as an element. -/
def toXml : Node → Ptree
  | leaf text => .leaf text
  | .section space names _ nodes =>
      .node space (List.ofFn fun index => (names.get index, (nodes index).toXml))

/-- The entry of a section under a name. -/
def entry (key : String) : Node → Option Node
  | leaf _ => none
  | .section _ names _ nodes =>
      if inside : key ∈ names then
        some (nodes ⟨names.idxOf key, List.idxOf_lt_length_iff.mpr inside⟩)
      else none

/-- The node that a path of names resolves to. -/
def resolve : List String → Node → Option Node
  | [], node => some node
  | key :: rest, node => (node.entry key).bind (resolve rest)

end Node

/-- A whole configuration: the section at the root. -/
structure Document where
  space : String
  names : List String
  distinct : names.Nodup
  nodes : Fin names.length → Node

namespace Document

def root (document : Document) : Node :=
  .section document.space document.names document.distinct document.nodes

/-- The config of the JSON text. -/
def json (document : Document) : Json := document.root.toJson

/-- The config of the XML text, which has the root under `<document>`. -/
def xml (document : Document) : Ptree :=
  XmlConfig.ofDocument (.node "" [("document", document.root.toXml)])

end Document

/-- Both calls return related values, or both throw. -/
def Same {α β : Type} (relates : α → β → Prop) : Outcome α → Outcome β → Prop
  | .ok first, .ok second => relates first second
  | .error _, .error _ => True
  | _, _ => False

/-- Both pointers are null, or they point to related objects. -/
def SamePointer {α β : Type} (relates : α → β → Prop) : Option α → Option β → Prop
  | some first, some second => relates first second
  | none, none => True
  | _, _ => False

section

variable {First Second : Type} (one : IConfig First) (two : IConfig Second)

/-- The methods answer alike on a path; configs that they return are related by `again`. -/
structure AgreeAt (again : First → Second → Prop) (first : First) (second : Second)
    (path : String) : Prop where
  existsAt : one.existsAt first path = two.existsAt second path
  getValue : Same Eq (one.getValue first path) (two.getValue second path)
  getConfig : Same (SamePointer again) (one.getConfig first path) (two.getConfig second path)

/-- Two configs agree: on every path, and so do the configs that they return. -/
def Agree (first : First) (second : Second) : Prop :=
  ∃ relates : First → Second → Prop, relates first second ∧
    ∀ first second, relates first second →
      ∀ path, AgreeAt one two relates first second path

end

/-- The two implementations are consistent on a path of a document. -/
structure Consistent (decimal : Float → String) (document : Document) (path : String) : Prop where
  agree : AgreeAt (jsonConfig decimal) xmlConfig (Agree (jsonConfig decimal) xmlConfig)
    document.json document.xml path
  jsonExact : (jsonConfig decimal).existsAt document.json path = true ↔
    (document.root.resolve (pathKeys path)).isSome
  xmlExact : xmlConfig.existsAt document.xml path = true ↔
    (document.root.resolve (pathKeys path)).isSome

/- What the lookups of both implementations find in a document. -/
section

theorem find_eq_lookup (key : String) (members : List (String × Json)) :
    Json.find key members = members.lookup key := by
  induction members with
  | nil => rfl
  | cons member rest ih =>
      obtain ⟨name, json⟩ := member
      rw [Json.find, List.lookup_cons]
      by_cases same : name = key
      · subst same
        simp
      · have missed : (key == name) = false := by simpa using Ne.symm same
        rw [if_neg same, missed, ih]

theorem lookup_ofFn {α : Type} (key : String) (names : List String)
    (values : Fin names.length → α) :
    (List.ofFn fun index => (names.get index, values index)).lookup key =
      if inside : key ∈ names then
        some (values ⟨names.idxOf key, List.idxOf_lt_length_iff.mpr inside⟩)
      else none := by
  induction names with
  | nil => rfl
  | cons name rest ih =>
      have split : (List.ofFn fun index => ((name :: rest).get index, values index)) =
          (name, values 0) :: List.ofFn fun index => (rest.get index, values index.succ) :=
        List.ofFn_succ
      rw [split, List.lookup_cons]
      by_cases same : key = name
      · subst same
        simp
      · have missed : (key == name) = false := by simpa using same
        rw [missed, ih]
        by_cases inside : key ∈ rest
        · have further : (name :: rest).idxOf key = rest.idxOf key + 1 :=
            List.idxOf_cons_ne rest (Ne.symm same)
          simp [inside, same, further]
        · simp [inside, same]

namespace Node

theorem find_toXml (key : String) (node : Node) :
    node.toXml.find key = (node.entry key).map toXml := by
  cases node with
  | leaf text => rfl
  | «section» space names distinct nodes =>
      rw [entry, toXml, PropertyTree.find, PropertyTree.children,
        lookup_ofFn key names fun index => (nodes index).toXml]
      split
      · rfl
      · rfl

theorem getChild_toXml (keys : List String) (node : Node) :
    node.toXml.getChild keys = (node.resolve keys).map toXml := by
  induction keys generalizing node with
  | nil => rfl
  | cons key rest ih =>
      rw [PropertyTree.getChild, find_toXml, resolve]
      cases node.entry key with
      | none => rfl
      | some next => exact ih next

theorem find_toJson {key : String} {node : Node} {members : List (String × Json)}
    (object : node.toJson = .object members) :
    Json.find key members = (node.entry key).map toJson := by
  cases node with
  | leaf text => cases object
  | «section» space names distinct nodes =>
      cases object
      rw [entry, find_eq_lookup, lookup_ofFn key names fun index => (nodes index).toJson]
      split
      · rfl
      · rfl

end Node

namespace JsonConfig

/-- `item->if_contains(list.back())` after the loop. -/
def atBack (list : List String) (size : Nat) (found : Option (List (String × Json) × Nat)) :
    Option Json :=
  match found with
  | some (item, level) =>
      if size - level = 1 then list.getLast?.bind fun back => Json.find back item else none
  | none => none

/-- The loop keeps `size - level` equal to the number of components that are left, those of
`list`. It stops in front of the last one, and earlier only where the value is no object. -/
theorem atBack_descend {list : List String} {size level : Nat} (members : List (String × Json))
    (nonempty : list ≠ []) (left : size = level + list.length) :
    atBack list size (descend size list members level) = follow (.object members) list := by
  induction list generalizing level members with
  | nil => exact absurd rfl nonempty
  | cons i rest ih =>
      rw [List.length_cons] at left
      rw [descend, follow]
      cases found : Json.find i members with
      | none => rfl
      | some nested =>
          rw [Option.bind_some]
          cases rest with
          | nil =>
              have last : size - level = 1 := by
                rw [List.length_nil] at left
                omega
              have back : atBack [i] size (some (members, level)) = some nested := by
                simp [atBack, last, found]
              rw [follow_nil]
              cases nested with
              | object obj =>
                  simp only [last, ↓reduceIte]
                  exact back
              | _ => exact back
          | cons j rest =>
              have more : ¬ size - level = 1 := by
                rw [List.length_cons] at left
                omega
              cases nested with
              | object obj =>
                  have below : size = level + 1 + (j :: rest).length := by omega
                  simp only [more, ↓reduceIte]
                  exact ih obj (by simp) below
              | _ =>
                  simp only [atBack, more, ↓reduceIte]
                  rfl

theorem pathToList_ne_nil (path : String) : pathToList path ≠ [] := by
  simp [pathToList]

theorem findItem_object (members : List (String × Json)) (path : String) :
    findItem (.object members) path = follow (.object members) (pathToList path) := by
  have start : (pathToList path).length = 0 + (pathToList path).length := by omega
  exact atBack_descend members (pathToList_ne_nil path) start

/-- `FindItem` is the plain lookup of the components of the trimmed path, for every root. -/
theorem findItem_eq_follow (root : Json) (path : String) :
    findItem root path = follow root (pathToList path) := by
  cases root with
  | object members => exact findItem_object members path
  | _ =>
      cases components : pathToList path with
      | nil => exact absurd components (pathToList_ne_nil path)
      | cons key rest => rfl

theorem follow_toJson (keys : List String) (node : Node) :
    follow node.toJson keys = (node.resolve keys).map Node.toJson := by
  induction keys generalizing node with
  | nil => cases node <;> rfl
  | cons key rest ih =>
      cases node with
      | leaf text => rfl
      | «section» space names distinct nodes =>
          have found : Json.find key _ = _ :=
            @Node.find_toJson key (.section space names distinct nodes) _ rfl
          rw [Node.toJson, follow, found, Node.resolve]
          cases Node.entry key (.section space names distinct nodes) with
          | none => rfl
          | some next => exact ih next

/-- `FindItem` finds what the trimmed path resolves to. -/
theorem findItem_json (document : Document) (path : String) :
    findItem document.json path =
      (document.root.resolve (pathToList path)).map Node.toJson := by
  rw [← follow_toJson]
  exact findItem_object _ path

end JsonConfig

theorem xml_eq (document : Document) : document.xml = document.root.toXml := by
  have name : walkedKeys "document" = ["document"] := by decide
  rw [Document.xml, XmlConfig.ofDocument, name, PropertyTree.getChild_singleton]
  rfl

/-- `Exists` of the JSON config is right about the trimmed path. -/
theorem json_exists_iff (decimal : Float → String) (document : Document) (path : String) :
    (jsonConfig decimal).existsAt document.json path = true ↔
      (document.root.resolve (JsonConfig.pathToList path)).isSome := by
  have found := JsonConfig.findItem_json document path
  simp only [jsonConfig, found, Option.isSome_map]

/-- `Exists` of the XML config only knows the entries of the root, by their whole names. -/
theorem xml_exists_iff (document : Document) (path : String) :
    xmlConfig.existsAt document.xml path = true ↔ path ∈ document.names := by
  have found : document.xml.find path = (document.root.entry path).map Node.toXml := by
    rw [xml_eq, Node.find_toXml]
  simp only [xmlConfig, found, Option.isSome_map, Document.root, Node.entry]
  by_cases inside : path ∈ document.names
  · simp [inside]
  · simp [inside]

/-- `GetValue` of the JSON config gives the texts of leaves. -/
theorem json_getValue_iff (decimal : Float → String) (document : Document) (path text : String) :
    JsonConfig.getValue decimal document.json path = .ok text ↔
      document.root.resolve (JsonConfig.pathToList path) = some (.leaf text) := by
  rw [JsonConfig.getValue, JsonConfig.findItem_json]
  cases document.root.resolve (JsonConfig.pathToList path) with
  | none => simp
  | some node =>
      cases node with
      | leaf value => simp [Node.toJson]
      | «section» space names distinct nodes => simp [Node.toJson]

/-- `GetValue` of the XML config gives the data of any node, also of a section. -/
theorem xml_getValue_iff (document : Document) (path text : String) :
    XmlConfig.getValue document.xml path = .ok text ↔
      ∃ node, document.root.resolve (walkedKeys path) = some node ∧ node.toXml.data = text := by
  rw [XmlConfig.getValue, xml_eq, Node.getChild_toXml]
  cases document.root.resolve (walkedKeys path) with
  | none => simp
  | some node => simp

end

section

variable (decimal : Float → String) (again : Json → Ptree → Prop) (root : Json) (tree : Ptree)
  (path : String)

/-- `GetConfig` of the JSON config throws where it finds no section; that of the XML config
never throws. -/
theorem getConfig_differs (throws : ∃ fault, JsonConfig.getConfig root path = .error fault) :
    ¬ Same (SamePointer again) ((jsonConfig decimal).getConfig root path)
      (xmlConfig.getConfig tree path) := by
  obtain ⟨fault, thrown⟩ := throws
  simp only [jsonConfig, thrown, xmlConfig, XmlConfig.getConfig, Same, not_false_eq_true]

/-- Where `GetConfig` of the JSON config finds a section, `GetValue` throws there, and the
XML config either gives the text between the elements or finds no section. -/
theorem section_differs {members : List (String × Json)}
    (found : JsonConfig.findItem root path = some (.object members)) :
    ¬ AgreeAt (jsonConfig decimal) xmlConfig again root tree path := by
  intro agree
  cases resolved : tree.getChild (walkedKeys path) with
  | some node =>
      have values := agree.getValue
      simp only [jsonConfig, JsonConfig.getValue, found, xmlConfig, XmlConfig.getValue,
        resolved] at values
      exact values
  | none =>
      have configs := agree.getConfig
      simp only [jsonConfig, JsonConfig.getConfig, found, xmlConfig, XmlConfig.getConfig,
        resolved] at configs
      exact configs

/-- A null of a JSON value is a text without characters and a null pointer; a property tree
has no node that is both. -/
theorem null_differs (found : JsonConfig.findItem root path = some .null) :
    ¬ AgreeAt (jsonConfig decimal) xmlConfig again root tree path := by
  intro agree
  cases resolved : tree.getChild (walkedKeys path) with
  | some node =>
      have configs := agree.getConfig
      simp only [jsonConfig, JsonConfig.getConfig, found, xmlConfig, XmlConfig.getConfig,
        resolved] at configs
      exact configs
  | none =>
      have values := agree.getValue
      simp only [jsonConfig, JsonConfig.getValue, found, xmlConfig, XmlConfig.getValue,
        resolved] at values
      exact values

/-- No JSON config and no XML config agree on any path. -/
theorem not_agreeAt : ¬ AgreeAt (jsonConfig decimal) xmlConfig again root tree path := by
  have thrown : ∀ fault, JsonConfig.getConfig root path = .error fault →
      ¬ AgreeAt (jsonConfig decimal) xmlConfig again root tree path :=
    fun fault error agree =>
      getConfig_differs decimal again root tree path ⟨fault, error⟩ agree.getConfig
  cases found : JsonConfig.findItem root path with
  | none => exact thrown _ (by rw [JsonConfig.getConfig, found]; rfl)
  | some json =>
      cases json with
      | null => exact null_differs decimal again root tree path found
      | object members => exact section_differs decimal again root tree path found
      | _ => exact thrown _ (by rw [JsonConfig.getConfig, found]; rfl)

end

/-- The two implementations are consistent on no path of any document. -/
theorem never_consistent (decimal : Float → String) (document : Document) (path : String) :
    ¬ Consistent decimal document path :=
  fun consistent => not_agreeAt decimal _ document.json document.xml path consistent.agree

/-- `<document><http><port>80</port></http></document>` -/
def serverDocument : Document where
  space := ""
  names := ["http"]
  distinct := by decide
  nodes _ := .section "" ["port"] (by decide) fun _ => .leaf "80"

/-- Both configs have the value, but the XML config denies that it exists. -/
theorem nested_value_is_denied :
    JsonConfig.getValue Float.toString serverDocument.json "http.port" = .ok "80" ∧
      XmlConfig.getValue serverDocument.xml "http.port" = .ok "80" ∧
      (jsonConfig Float.toString).existsAt serverDocument.json "http.port" = true ∧
      xmlConfig.existsAt serverDocument.xml "http.port" = false ∧
      ¬ Consistent Float.toString serverDocument "http.port" := by
  have known : (jsonConfig Float.toString).existsAt serverDocument.json "http.port" = true := by
    decide
  have denied : xmlConfig.existsAt serverDocument.xml "http.port" = false := by decide
  refine ⟨by decide, by decide, known, denied, fun consistent => ?_⟩
  have same := consistent.agree.existsAt
  rw [known, denied] at same
  cases same

end Mif.Application
