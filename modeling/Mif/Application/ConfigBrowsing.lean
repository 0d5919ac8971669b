import Mathlib.Data.List.OfFn
import Mathlib.Data.List.DropRight
import Mif.Lib.PropertyTree
import Mif.Lib.Transition
import Mif.Common.Fault
import Mif.Serialization.JsonValue
import Mif.Application.Config

set_option autoImplicit false

/- How a program reads its settings: sections, values and collections, in any order of
calls, from JSON and from XML. -/
namespace Mif.Application

open Mif.Serialization (Json)
open PropertyTree (pathKeys walkedKeys)

/-- A `Collection`: its items, and those from `m_cur` to `m_end`. -/
@[ext] structure Collection (Item : Type) where
  array : List Item
  left : List Item
  inside : left <:+ array

namespace Collection

variable {Item Other : Type}

def new (array : List Item) : Collection Item := ⟨array, array, List.suffix_rfl⟩

/-- `Collection::Next`, and the collection after it. -/
def next (collection : Collection Item) : Bool × Collection Item :=
  (!collection.left.tail.isEmpty,
    ⟨collection.array, collection.left.tail,
      (List.tail_suffix collection.left).trans collection.inside⟩)

def isEmpty (collection : Collection Item) : Bool := collection.array.isEmpty

def reset (collection : Collection Item) : Collection Item := new collection.array

def get (collection : Collection Item) : Outcome Item :=
  match collection.isEmpty, collection.left with
  | false, item :: _ => .ok item
  | _, _ => throwing "[Mif::Application::Detail::Collection::Get] Failed to get item. No item."

theorem get_eq_ok_iff {collection : Collection Item} {item : Item} :
    collection.get = .ok item ↔ collection.left.head? = some item := by
  cases first : collection.left with
  | nil =>
      rw [get, first, List.head?_nil]
      constructor
      · intro got
        split at got
        · rename_i impossible
          cases impossible
        · cases got
      · intro found
        cases found
  | cons head rest =>
      -- an iterator in front of the end says that the array has items
      have filled : collection.isEmpty = false := by
        rw [isEmpty, List.isEmpty_eq_false_iff]
        intro empty
        have inside := collection.inside
        rw [first, empty, List.suffix_nil] at inside
        cases inside
      rw [get, filled, first, List.head?_cons]
      constructor
      · intro got
        cases got
        rfl
      · intro found
        cases found
        rfl

theorem more_next (collection : Collection Item) :
    collection.next.1 = !collection.left.tail.isEmpty := rfl

/-- The collection after some calls of `Next`. -/
def advanced (collection : Collection Item) : Nat → Collection Item
  | 0 => collection
  | times + 1 => (collection.advanced times).next.2

theorem left_advanced (array : List Item) (times : Nat) :
    ((new array).advanced times).left = array.drop times := by
  induction times with
  | zero => exact List.drop_zero.symm
  | succ times ih =>
      change ((new array).advanced times).left.tail = _
      rw [ih, List.tail_drop]

/-- A loop over a collection comes to the items in their order, and `Next` says whether there
is another one. -/
theorem items_in_order (array : List Item) (times : Nat) :
    (∀ item, ((new array).advanced times).get = .ok item ↔ array[times]? = some item) ∧
      ((new array).advanced times).next.1 = decide (times + 1 < array.length) := by
  constructor
  · intro item
    rw [get_eq_ok_iff, left_advanced, List.head?_drop]
  · rw [more_next, left_advanced, List.tail_drop]
    by_cases more : times + 1 < array.length
    · simp [more]
    · have beyond : array.length ≤ times + 1 := by omega
      simp [more, beyond]

/-- The items are seen in another way. -/
def map (change : Item → Other) (collection : Collection Item) : Collection Other :=
  ⟨collection.array.map change, collection.left.map change, collection.inside.map change⟩

variable (change : Item → Other) (collection : Collection Item)

theorem new_map (array : List Item) : new (array.map change) = (new array).map change := rfl

theorem next_map : (collection.map change).next =
    (collection.next.1, collection.next.2.map change) := by
  have tail : (collection.left.map change).tail = collection.left.tail.map change :=
    List.map_tail.symm
  apply Prod.ext
  · simp only [next, map, tail, List.isEmpty_map]
  · exact Collection.ext rfl tail

theorem isEmpty_map : (collection.map change).isEmpty = collection.isEmpty :=
  List.isEmpty_map

theorem reset_map : (collection.map change).reset = collection.reset.map change := rfl

theorem get_map {item : Item} (got : collection.get = .ok item) :
    (collection.map change).get = .ok (change item) := by
  rw [get_eq_ok_iff] at got ⊢
  simp only [map, List.head?_map, got, Option.map_some]

end Collection

/-- `GetCollection` of `config/json.cpp`. -/
def JsonConfig.getCollection (root : Json) (path : String) :
    Outcome (Option (Collection Json)) :=
  match findItem root path with
  | none => throwing (badPath "GetCollection" "collection" path)
  | some .null => .ok none
  | some (.array items) => .ok (some (.new items))
  | some _ => throwing ("[Mif::Application::Detail::Config::GetCollection] " ++
      "Failed to get config by path \"" ++ path ++ "\". The value is not an object.")

/-- `GetCollection` of `config/xml.cpp`. -/
def XmlConfig.getCollection (tree : Ptree) (path : String) :
    Outcome (Option (Collection (String × Ptree))) :=
  .ok ((tree.getChild (walkedKeys path)).map fun array => .new array.children)

/-- A path that is not empty, ends with no dot and has no white space around it. -/
structure Path where
  text : String
  trimmed : JsonConfig.trim text.toList = text.toList
  ended : (pathKeys text).getLast? ≠ some ""

namespace Path

def names (path : Path) : List String := pathKeys path.text

theorem pathToList_eq (path : Path) : JsonConfig.pathToList path.text = path.names := by
  rw [JsonConfig.pathToList, path.trimmed]
  rfl

theorem walkedKeys_eq (path : Path) : walkedKeys path.text = path.names :=
  if_neg path.ended

end Path

/-- What the calls of `IConfig` give a program that looks for a value, a section or a
collection, unless they throw or return a null pointer. -/
structure Source (Config Item : Type) where
  existsAt : Config → Path → Option Bool
  getValue : Config → Path → Option String
  getConfig : Config → Path → Option Config
  getCollection : Config → Path → Option (Collection Item)
  /-- the config that `Collection::Get` makes of an item -/
  item : Item → Config

def jsonSource (decimal : Float → String) : Source Json Json where
  existsAt root path := some ((jsonConfig decimal).existsAt root path.text)
  getValue root path := ((jsonConfig decimal).getValue root path.text).toOption
  getConfig root path := ((jsonConfig decimal).getConfig root path.text).toOption.join
  getCollection root path := (JsonConfig.getCollection root path.text).toOption.join
  item := id

def xmlSource : Source Ptree (String × Ptree) where
  existsAt tree path := some (xmlConfig.existsAt tree path.text)
  getValue tree path := (xmlConfig.getValue tree path.text).toOption
  getConfig tree path := (xmlConfig.getConfig tree path.text).toOption.join
  getCollection tree path := (XmlConfig.getCollection tree path.text).toOption.join
  item := Prod.snd

inductive Request
  | existsAt (config : Nat) (path : Path)
  | getValue (config : Nat) (path : Path)
  | getConfig (config : Nat) (path : Path)
  | getCollection (config : Nat) (path : Path)
  | isEmpty (collection : Nat)
  | next (collection : Nat)
  | reset (collection : Nat)
  | get (collection : Nat)

inductive Answer
  | flag (value : Bool)
  | text (value : String)
  deriving DecidableEq, Repr

/-- A program with the configs and the collections that it was given, and what it was
told. -/
structure Reader (Config Item : Type) where
  configs : List Config
  collections : List (Collection Item)
  answers : List Answer

namespace Reader

variable {Config Item : Type}

def new (config : Config) : Reader Config Item := ⟨[config], [], []⟩

def told (reader : Reader Config Item) (answer : Answer) : Reader Config Item :=
  { reader with answers := reader.answers ++ [answer] }

def given (reader : Reader Config Item) (config : Config) : Reader Config Item :=
  { reader with configs := reader.configs ++ [config] }

/-- The program makes one more call. -/
def step (source : Source Config Item) (reader : Reader Config Item) :
    Request → Option (Reader Config Item)
  | .existsAt config path =>
      (reader.configs[config]?.bind fun config => source.existsAt config path).map fun known =>
        reader.told (.flag known)
  | .getValue config path =>
      (reader.configs[config]?.bind fun config => source.getValue config path).map fun value =>
        reader.told (.text value)
  | .getConfig config path =>
      (reader.configs[config]?.bind fun config => source.getConfig config path).map reader.given
  | .getCollection config path =>
      (reader.configs[config]?.bind fun config => source.getCollection config path).map
        fun collection => { reader with collections := reader.collections ++ [collection] }
  | .isEmpty collection =>
      reader.collections[collection]?.map fun collection =>
        reader.told (.flag collection.isEmpty)
  | .next collection =>
      reader.collections[collection]?.map fun current =>
        { reader.told (.flag current.next.1) with
          collections := reader.collections.set collection current.next.2 }
  | .reset collection =>
      reader.collections[collection]?.map fun current =>
        { reader with collections := reader.collections.set collection current.reset }
  | .get collection =>
      (reader.collections[collection]?.bind fun current => current.get.toOption).map fun item =>
        reader.given (source.item item)

end Reader

/-- One source shows at least what another one does, with configs and items of its own. -/
structure Shows {Config Item Config' Item' : Type} (one : Source Config Item)
    (two : Source Config' Item') (config : Config → Config') (item : Item → Item') : Prop where
  existsAt : ∀ {held path known}, one.existsAt held path = some known →
    two.existsAt (config held) path = some known
  getValue : ∀ {held path value}, one.getValue held path = some value →
    two.getValue (config held) path = some value
  getConfig : ∀ {held path found}, one.getConfig held path = some found →
    two.getConfig (config held) path = some (config found)
  getCollection : ∀ {held path found}, one.getCollection held path = some found →
    two.getCollection (config held) path = some (found.map item)
  item : ∀ element, two.item (item element) = config (one.item element)

namespace Reader

variable {Config Item Config' Item' : Type} {one : Source Config Item}
  {two : Source Config' Item'} {config : Config → Config'} {item : Item → Item'}

/-- The same program with the configs and collections of another source. -/
def map (config : Config → Config') (item : Item → Item') (reader : Reader Config Item) :
    Reader Config' Item' :=
  ⟨reader.configs.map config, reader.collections.map (.map item), reader.answers⟩

theorem given_map (reader : Reader Config Item) (found : Config) :
    (reader.map config item).given (config found) = (reader.given found).map config item := by
  simp only [map, given, List.map_append, List.map_cons, List.map_nil]

theorem config_map {reader : Reader Config Item} {number : Nat} {held : Config}
    (known : reader.configs[number]? = some held) :
    (reader.map config item).configs[number]? = some (config held) := by
  simp only [map, List.getElem?_map, known, Option.map_some]

theorem collection_map {reader : Reader Config Item} {number : Nat}
    {current : Collection Item} (held : reader.collections[number]? = some current) :
    (reader.map config item).collections[number]? = some (current.map item) := by
  simp only [map, List.getElem?_map, held, Option.map_some]

/-- A call that one source answers is answered alike by a source that shows as much. -/
theorem step_shows (shows : Shows one two config item) {reader next : Reader Config Item}
    {request : Request} (taken : step one reader request = some next) :
    step two (reader.map config item) request = some (next.map config item) := by
  cases request with
  | existsAt number path =>
      obtain ⟨answer, asked, rfl⟩ := Option.map_eq_some_iff.mp taken
      obtain ⟨held, known, answered⟩ := Option.bind_eq_some_iff.mp asked
      rw [step, config_map known, Option.bind_some, shows.existsAt answered, Option.map_some]
      rfl
  | getValue number path =>
      obtain ⟨value, asked, rfl⟩ := Option.map_eq_some_iff.mp taken
      obtain ⟨held, known, answered⟩ := Option.bind_eq_some_iff.mp asked
      rw [step, config_map known, Option.bind_some, shows.getValue answered, Option.map_some]
      rfl
  | getConfig number path =>
      obtain ⟨found, asked, rfl⟩ := Option.map_eq_some_iff.mp taken
      obtain ⟨held, known, answered⟩ := Option.bind_eq_some_iff.mp asked
      rw [step, config_map known, Option.bind_some, shows.getConfig answered, Option.map_some,
        given_map]
  | getCollection number path =>
      obtain ⟨found, asked, rfl⟩ := Option.map_eq_some_iff.mp taken
      obtain ⟨held, known, answered⟩ := Option.bind_eq_some_iff.mp asked
      rw [step, config_map known, Option.bind_some, shows.getCollection answered,
        Option.map_some]
      simp only [map, List.map_append, List.map_cons, List.map_nil]
  | isEmpty number =>
      obtain ⟨current, held, rfl⟩ := Option.map_eq_some_iff.mp taken
      rw [step, collection_map held, Option.map_some, Collection.isEmpty_map]
      rfl
  | next number =>
      obtain ⟨current, held, rfl⟩ := Option.map_eq_some_iff.mp taken
      rw [step, collection_map held, Option.map_some, Collection.next_map]
      simp only [map, told, List.map_set]
  | reset number =>
      obtain ⟨current, held, rfl⟩ := Option.map_eq_some_iff.mp taken
      rw [step, collection_map held, Option.map_some, Collection.reset_map]
      simp only [map, List.map_set]
  | get number =>
      obtain ⟨element, asked, rfl⟩ := Option.map_eq_some_iff.mp taken
      obtain ⟨current, held, got⟩ := Option.bind_eq_some_iff.mp asked
      have same : (current.map item).get.toOption = some (item element) := by
        cases result : current.get with
        | error fault =>
            rw [result] at got
            cases got
        | ok value =>
            rw [result] at got
            cases got
            rw [Collection.get_map item current result]
            rfl
      rw [step, collection_map held, Option.bind_some, same, Option.map_some, shows.item, given_map]

end Reader

/-- What a configuration consists of: texts, sections whose entries have different names, and
lists of anything. Between the elements of the XML text stands some white space, and the
elements of a list have tags, which JSON has no use for. -/
inductive Setting
  | text (text : String)
  | group (space : String) (names : List String) (distinct : names.Nodup)
      (settings : Fin names.length → Setting)
  | list (space : String) (tags : List String) (items : Fin tags.length → Setting)

namespace Setting

/-- What `boost::json::parse` makes of the setting. -/
def toJson : Setting → Json
  | .text content => .string content
  | group _ names _ settings =>
      .object (List.ofFn fun index => (names.get index, (settings index).toJson))
  | list _ _ items => .array (List.ofFn fun index => (items index).toJson)

/-- What `read_xml` makes of the setting when it is written as an element. -/
def toXml : Setting → Ptree
  | .text content => .leaf content
  | group space names _ settings =>
      .node space (List.ofFn fun index => (names.get index, (settings index).toXml))
  | list space tags items =>
      .node space (List.ofFn fun index => (tags.get index, (items index).toXml))

/-- The setting of a section under a name. -/
def entry : Setting → String → Option Setting
  | group _ names _ settings, key =>
      if inside : key ∈ names then
        some (settings ⟨names.idxOf key, List.idxOf_lt_length_iff.mpr inside⟩)
      else none
  | _, _ => none

/-- The setting that a path of names leads to, through sections. -/
def resolve : List String → Setting → Option Setting
  | [], setting => some setting
  | key :: rest, setting => (setting.entry key).bind (resolve rest)

/-- A section is asked for its own entries. -/
def existsAt (setting : Setting) (path : Path) : Option Bool :=
  match setting with
  | group _ names _ _ =>
      if '.' ∈ path.text.toList then none else some (decide (path.text ∈ names))
  | _ => none

/-- The collection of a list, with the tags of its items. -/
def asCollection : Setting → Option (Collection (String × Setting))
  | list _ tags items => some (.new (List.ofFn fun index => (tags.get index, items index)))
  | _ => none

def asValue : Setting → Option String
  | .text content => some content
  | _ => none

def asSection : Setting → Option Setting
  | group space names distinct settings => some (group space names distinct settings)
  | _ => none

end Setting

/-- A configuration as it is meant: a value is a text, a section has entries, a collection
is a list. -/
def settingSource : Source Setting (String × Setting) where
  existsAt := Setting.existsAt
  getValue setting path := (setting.resolve path.names).bind Setting.asValue
  getConfig setting path := (setting.resolve path.names).bind Setting.asSection
  getCollection setting path := (setting.resolve path.names).bind Setting.asCollection
  item := Prod.snd

namespace Setting

/-- What a section has under a name is found there in every form of its entries. -/
theorem lookup_of_entry {α : Type} (form : Setting → α) {key space : String}
    {names : List String} {distinct : names.Nodup} {settings : Fin names.length → Setting}
    {found : Setting} (entry : (group space names distinct settings).entry key = some found) :
    (List.ofFn fun index => (names.get index, form (settings index))).lookup key =
      some (form found) := by
  rw [lookup_ofFn key names fun index => form (settings index)]
  simp only [Setting.entry] at entry
  split at entry
  · rename_i inside
    cases entry
    rw [dif_pos inside]
  · cases entry

theorem entry_toJson {key : String} {setting found : Setting}
    (entry : setting.entry key = some found) :
    ∃ members, setting.toJson = .object members ∧
      Json.find key members = some found.toJson := by
  cases setting with
  | text content => cases entry
  | list space tags items => cases entry
  | group space names distinct settings =>
      refine ⟨_, rfl, ?_⟩
      rw [find_eq_lookup]
      exact lookup_of_entry toJson entry

theorem entry_toXml {key : String} {setting found : Setting}
    (entry : setting.entry key = some found) : setting.toXml.find key = some found.toXml := by
  cases setting with
  | text content => cases entry
  | list space tags items => cases entry
  | group space names distinct settings => exact lookup_of_entry toXml entry

theorem follow_toJson {names : List String} {setting found : Setting}
    (resolved : setting.resolve names = some found) :
    JsonConfig.follow setting.toJson names = some found.toJson := by
  induction names generalizing setting with
  | nil =>
      cases resolved
      exact JsonConfig.follow_nil _
  | cons key rest ih =>
      obtain ⟨next, entry, further⟩ := Option.bind_eq_some_iff.mp resolved
      obtain ⟨members, object, first⟩ := entry_toJson entry
      rw [object, JsonConfig.follow, first, Option.bind_some]
      exact ih further

theorem getChild_toXml {names : List String} {setting found : Setting}
    (resolved : setting.resolve names = some found) :
    setting.toXml.getChild names = some found.toXml := by
  induction names generalizing setting with
  | nil =>
      cases resolved
      rfl
  | cons key rest ih =>
      obtain ⟨next, entry, further⟩ := Option.bind_eq_some_iff.mp resolved
      rw [PropertyTree.getChild, entry_toXml entry, Option.bind_some]
      exact ih further

theorem findItem_toJson {path : Path} {setting found : Setting}
    (resolved : setting.resolve path.names = some found) :
    JsonConfig.findItem setting.toJson path.text = some found.toJson := by
  rw [JsonConfig.findItem_eq_follow, path.pathToList_eq]
  exact follow_toJson resolved

theorem of_asValue {setting : Setting} {content : String}
    (asked : setting.asValue = some content) : setting = .text content := by
  cases setting with
  | text inner =>
      cases asked
      rfl
  | group space names distinct settings => cases asked
  | list space tags items => cases asked

theorem of_asSection {setting inner : Setting} (asked : setting.asSection = some inner) :
    inner = setting ∧ ∃ space names distinct settings,
      setting = group space names distinct settings := by
  cases setting with
  | text content => cases asked
  | group space names distinct settings =>
      cases asked
      exact ⟨rfl, space, names, distinct, settings, rfl⟩
  | list space tags items => cases asked

theorem of_asCollection {setting : Setting} {inner : Collection (String × Setting)}
    (asked : setting.asCollection = some inner) :
    ∃ space tags items, setting = list space tags items ∧
      inner = .new (List.ofFn fun index => (tags.get index, items index)) := by
  cases setting with
  | text content => cases asked
  | group space names distinct settings => cases asked
  | list space tags items =>
      cases asked
      exact ⟨space, tags, items, rfl, rfl⟩

/-- An own entry of a section, which both configs find by its name. -/
theorem existsAt_cases {setting : Setting} {path : Path} {known : Bool}
    (asked : setting.existsAt path = some known) :
    ∃ space names distinct settings, setting = group space names distinct settings ∧
      path.names = [path.text] ∧ known = decide (path.text ∈ names) := by
  cases setting with
  | text content => cases asked
  | list space tags items => cases asked
  | group space names distinct settings =>
      simp only [existsAt] at asked
      split at asked
      · cases asked
      · rename_i plain
        cases asked
        exact ⟨space, names, distinct, settings, rfl, PropertyTree.pathKeys_of_plain plain, rfl⟩

end Setting

theorem json_shows (decimal : Float → String) :
    Shows settingSource (jsonSource decimal) Setting.toJson fun item => item.2.toJson where
  existsAt {setting path known} asked := by
    obtain ⟨space, names, distinct, settings, rfl, single, rfl⟩ := Setting.existsAt_cases asked
    simp only [jsonSource, jsonConfig, JsonConfig.findItem_eq_follow, path.pathToList_eq, single,
      Setting.toJson, JsonConfig.follow, find_eq_lookup,
      lookup_ofFn path.text names fun index => (settings index).toJson]
    split
    · rename_i inside
      simp [inside]
    · rename_i outside
      simp [outside]
  getValue {setting path value} asked := by
    obtain ⟨found, resolved, text⟩ := Option.bind_eq_some_iff.mp asked
    cases Setting.of_asValue text
    simp only [jsonSource, jsonConfig, JsonConfig.getValue, Setting.findItem_toJson resolved,
      Setting.toJson]
    rfl
  getConfig {setting path inner} asked := by
    obtain ⟨found, resolved, entries⟩ := Option.bind_eq_some_iff.mp asked
    obtain ⟨rfl, space, names, distinct, settings, rfl⟩ := Setting.of_asSection entries
    simp only [jsonSource, jsonConfig, JsonConfig.getConfig, Setting.findItem_toJson resolved,
      Setting.toJson]
    rfl
  getCollection {setting path inner} asked := by
    obtain ⟨found, resolved, listed⟩ := Option.bind_eq_some_iff.mp asked
    obtain ⟨space, tags, items, rfl, rfl⟩ := Setting.of_asCollection listed
    simp only [jsonSource, JsonConfig.getCollection, Setting.findItem_toJson resolved,
      Setting.toJson]
    rw [← Collection.new_map, List.map_ofFn]
    rfl
  item _ := rfl

theorem xml_shows :
    Shows settingSource xmlSource Setting.toXml fun item => (item.1, item.2.toXml) where
  existsAt {setting path known} asked := by
    obtain ⟨space, names, distinct, settings, rfl, single, rfl⟩ := Setting.existsAt_cases asked
    simp only [xmlSource, xmlConfig, Setting.toXml, PropertyTree.find, PropertyTree.children,
      lookup_ofFn path.text names fun index => (settings index).toXml]
    split
    · rename_i inside
      simp [inside]
    · rename_i outside
      simp [outside]
  getValue {setting path value} asked := by
    obtain ⟨found, resolved, text⟩ := Option.bind_eq_some_iff.mp asked
    cases Setting.of_asValue text
    simp only [xmlSource, xmlConfig, XmlConfig.getValue, path.walkedKeys_eq,
      Setting.getChild_toXml resolved]
    rfl
  getConfig {setting path inner} asked := by
    obtain ⟨found, resolved, entries⟩ := Option.bind_eq_some_iff.mp asked
    obtain ⟨rfl, space, names, distinct, settings, rfl⟩ := Setting.of_asSection entries
    simp only [xmlSource, xmlConfig, XmlConfig.getConfig, path.walkedKeys_eq,
      Setting.getChild_toXml resolved]
    rfl
  getCollection {setting path inner} asked := by
    obtain ⟨found, resolved, listed⟩ := Option.bind_eq_some_iff.mp asked
    obtain ⟨space, tags, items, rfl, rfl⟩ := Setting.of_asCollection listed
    simp only [xmlSource, XmlConfig.getCollection, path.walkedKeys_eq,
      Setting.getChild_toXml resolved, Setting.toXml, PropertyTree.children]
    rw [← Collection.new_map, List.map_ofFn]
    rfl
  item _ := rfl

/-- Every run of calls on one source can be made on a source that shows as much, with the same
answers. -/
theorem run_shows {Config Item Config' Item' : Type} {one : Source Config Item}
    {two : Source Config' Item'} {config : Config → Config'} {item : Item → Item'}
    (shows : Shows one two config item) {requests : List Request} {root : Config}
    {last : Reader Config Item}
    (read : Transition.run (Reader.step one) (.new root) requests = some last) :
    ∃ other, Transition.run (Reader.step two) (.new (config root)) requests = some other ∧
      other.answers = last.answers := by
  have start : (Reader.new root).map config item = .new (config root) := rfl
  have simulated : ∀ (reader : Reader Config Item) (image : Reader Config' Item')
      (request : Request) (next : Reader Config Item), reader.map config item = image →
      Reader.step one reader request = some next →
      ∃ after, Reader.step two image request = some after ∧ next.map config item = after := by
    intro reader image request next same taken
    cases same
    exact ⟨_, Reader.step_shows shows taken, rfl⟩
  obtain ⟨other, reached, same⟩ := Transition.run_simulated simulated start read
  cases same
  exact ⟨_, reached, rfl⟩

/-- A program that asks a configuration for what is there is told the same by both of its
forms, whatever it asks and in whatever order. -/
theorem settings_read_alike (decimal : Float → String) (setting : Setting)
    {requests : List Request} {last : Reader Setting (String × Setting)}
    (read : Transition.run (Reader.step settingSource) (.new setting) requests = some last) :
    (∃ json, Transition.run (Reader.step (jsonSource decimal)) (.new setting.toJson) requests =
        some json ∧ json.answers = last.answers) ∧
      ∃ xml, Transition.run (Reader.step xmlSource)
          (.new (XmlConfig.ofDocument (.node "" [("document", setting.toXml)]))) requests =
        some xml ∧ xml.answers = last.answers := by
  have name : walkedKeys "document" = ["document"] := by decide
  have root : XmlConfig.ofDocument (.node "" [("document", setting.toXml)]) = setting.toXml := by
    rw [XmlConfig.ofDocument, name, PropertyTree.getChild_singleton]
    rfl
  rw [root]
  exact ⟨run_shows (json_shows decimal) read, run_shows xml_shows read⟩

/-- `<document><servers><server><host>a</host></server>...</servers></document>` -/
def serverSettings : Setting :=
  .group "" ["servers"] (by decide) fun _ =>
    .list "" ["server", "server"] fun index =>
      .group "" ["host"] (by decide) fun _ => .text (if index.val = 0 then "a" else "b")

/-- A program that reads the hosts of all servers. -/
def serverRequests : List Request :=
  [.getCollection 0 ⟨"servers", by decide, by decide⟩,
    .get 0, .getValue 1 ⟨"host", by decide, by decide⟩, .next 0,
    .get 0, .getValue 2 ⟨"host", by decide, by decide⟩, .next 0]

theorem servers_read_alike :
    (∃ json, Transition.run (Reader.step (jsonSource Float.toString))
        (.new serverSettings.toJson) serverRequests = some json ∧
      json.answers = [.text "a", .flag true, .text "b", .flag false]) ∧
      ∃ xml, Transition.run (Reader.step xmlSource)
          (.new (XmlConfig.ofDocument (.node "" [("document", serverSettings.toXml)])))
          serverRequests = some xml ∧
        xml.answers = [.text "a", .flag true, .text "b", .flag false] := by
  have facts : (Transition.run (Reader.step settingSource) (.new serverSettings)
      serverRequests).map Reader.answers =
        some [.text "a", .flag true, .text "b", .flag false] := by
    rfl
  obtain ⟨last, read, told⟩ := Option.map_eq_some_iff.mp facts
  rw [← told]
  exact settings_read_alike Float.toString serverSettings read

end Mif.Application
