import Mif.Lib.EvalOrder
import Mif.Common.Fault
import Mif.Reflection.Schema
import Mif.Reflection.EnumNames
import Mif.Serialization.JsonValue
import Mif.Serialization.JsonDecode

set_option autoImplicit false

/- For which values of which shape the decoder stays within the language. -/
namespace Mif.Serialization

open Mif.Reflection
open EvalOrder (InTurn)
open JsonToValue (simple)

variable {schema : Schema}

/-- No undefined access ends the call: it returns or throws. -/
def Defined {α : Type} (outcome : Outcome α) : Prop := ∀ access, outcome ≠ undefined access

/-- The kinds of values from which a simple type is converted. -/
def Convertible : Ty → Json → Prop
  | .bool, .bool _ => True
  | .bool, .int64 _ => True
  | .bool, .uint64 _ => True
  | .int _, .int64 _ => True
  | .int kind, .uint64 _ => kind = .uint32 ∨ kind = .uint64
  | .rawEnum _, .int64 _ => True
  | .rawEnum kind, .uint64 _ => kind = .uint32 ∨ kind = .uint64
  | .double, .double _ => True
  | .double, .int64 _ => True
  | .double, .uint64 _ => True
  | .string, .null => False
  | .string, .array _ => False
  | .string, .object _ => False
  | .string, _ => True
  | .enum items, json =>
      ∃ text, JsonValueConverter.toString json = .ok text ∧
        text ∈ items.items.map fun item => staticStr item.1
  | _, _ => False

/-- The values that a type is decoded from without an exception. -/
def Accepted (schema : Schema) : Ty → Json → Prop
  | .nullable _ type, json => json = .null ∨ Accepted schema type json
  | .pair first second, .object members =>
      (∃ id : Json.Part (.object members),
        Json.find Tag.id members = some id.1 ∧ Accepted schema first id.1) ∧
      ∃ value : Json.Part (.object members),
        Json.find Tag.value members = some value.1 ∧ Accepted schema second value.1
  | .tuple types, .array items =>
      ∀ index, ∃ item : Json.Part (.array items),
        items[index.val]? = some item.1 ∧ Accepted schema (types index) item.1
  | .array size type, .array items =>
      ∀ index : Fin size, ∃ item : Json.Part (.array items),
        items[index.val]? = some item.1 ∧ Accepted schema type item.1
  | .iter _ type, .array items =>
      ∀ index, Accepted schema type (Json.visited items index).1
  | .chars, .string _ => True
  | .struct id, .object members =>
      (∀ index, ∃ item : Json.Part (.object members),
        Json.find (schema.baseName id index) members = some item.1 ∧
          Accepted schema (.struct (schema.base id index)) item.1) ∧
      ∀ index, Accepted schema (schema.fieldType id index)
        (Json.memberOrNull (schema.fieldName id index) members).1
  | type, json => Convertible type json
termination_by type json => (sizeOf json, sizeOf type)
decreasing_by
  · exact Prod.Lex.right _ (by simp only [Ty.nullable.sizeOf_spec]; omega)
  · exact Prod.Lex.left _ _ id.2
  · exact Prod.Lex.left _ _ value.2
  · exact Prod.Lex.left _ _ item.2
  · exact Prod.Lex.left _ _ item.2
  · exact Prod.Lex.left _ _ (Json.visited items index).2
  · exact Prod.Lex.left _ _ item.2
  · exact Prod.Lex.left _ _ (Json.memberOrNull (schema.fieldName id index) members).2

/-- The element that is decoded into a tuple or an array exists and is accepted. -/
def ItemAccepted (schema : Schema) {size : Nat} (types : Fin size → Ty) (items : List Json)
    (index : Fin size) : Prop :=
  ∃ item : Json.Part (.array items),
    items[index.val]? = some item.1 ∧ Accepted schema (types index) item.1

/-- The base class has an entry, and it is accepted. -/
def BaseAccepted (schema : Schema) (id : Nat) (members : List (String × Json))
    (index : schema.BaseIndex id) : Prop :=
  ∃ item : Json.Part (.object members),
    Json.find (schema.baseName id index) members = some item.1 ∧
      Accepted schema (.struct (schema.base id index)) item.1

/-- Wherever the decoder arrives, before an exception ends it, a pair is an object with
both keys, and a tuple or an array has no fewer elements than its type. -/
def Shaped (program : Program schema) : Ty → Json → Prop
  | .nullable _ type, json => json = .null ∨ Shaped program type json
  | .pair first second, .object members =>
      ∃ id : Json.Part (.object members),
        Json.find Tag.id members = some id.1 ∧ Shaped program first id.1 ∧
          (Accepted schema first id.1 → ∃ value : Json.Part (.object members),
            Json.find Tag.value members = some value.1 ∧ Shaped program second value.1)
  | .pair _ _, _ => False
  | .tuple types, .array items =>
      InTurn (ItemAccepted schema types items)
        (fun index => ∃ item : Json.Part (.array items),
          items[index.val]? = some item.1 ∧ Shaped program (types index) item.1)
        (program.order types).indexes
  | .array size type, .array items =>
      InTurn (ItemAccepted schema (fun _ : Fin size => type) items)
        (fun index => ∃ item : Json.Part (.array items),
          items[index.val]? = some item.1 ∧ Shaped program type item.1)
        (program.order fun _ : Fin size => type).indexes
  | .iter _ type, .array items =>
      InTurn (fun index => Accepted schema type (Json.visited items index).1)
        (fun index => Shaped program type (Json.visited items index).1)
        (List.finRange items.length)
  | .struct id, .object members =>
      InTurn (BaseAccepted schema id members)
        (fun index => ∀ item : Json.Part (.object members),
          Json.find (schema.baseName id index) members = some item.1 →
            Shaped program (.struct (schema.base id index)) item.1)
        (List.finRange _) ∧
      ((∀ index, BaseAccepted schema id members index) →
        InTurn
          (fun index => Accepted schema (schema.fieldType id index)
            (Json.memberOrNull (schema.fieldName id index) members).1)
          (fun index => Shaped program (schema.fieldType id index)
            (Json.memberOrNull (schema.fieldName id index) members).1)
          (List.finRange _))
  | _, _ => True
termination_by type json => (sizeOf json, sizeOf type)
decreasing_by
  · exact Prod.Lex.right _ (by simp only [Ty.nullable.sizeOf_spec]; omega)
  · exact Prod.Lex.left _ _ id.2
  · exact Prod.Lex.left _ _ value.2
  · exact Prod.Lex.left _ _ item.2
  · exact Prod.Lex.left _ _ item.2
  · exact Prod.Lex.left _ _ (Json.visited items index).2
  · exact Prod.Lex.left _ _ item.2
  · exact Prod.Lex.left _ _ (Json.memberOrNull (schema.fieldName id index) members).2

section

variable {α β : Type}

@[simp] theorem defined_ok (value : α) : Defined (.ok value : Outcome α) :=
  ok_ne_undefined value

@[simp] theorem defined_throwing (what : String) : Defined (throwing what : Outcome α) :=
  throwing_ne_undefined what

@[simp] theorem not_defined_undefined (access : Undefined) :
    ¬ Defined (undefined access : Outcome α) :=
  fun defined => defined access rfl

theorem defined_map (change : α → β) (outcome : Outcome α) :
    Defined (outcome.map change) ↔ Defined outcome := by
  cases outcome with
  | ok value => exact iff_of_true (defined_ok _) (defined_ok value)
  | error fault => simp [Defined, Except.map, undefined]

theorem exists_map_ok (change : α → β) (outcome : Outcome α) :
    (∃ value, outcome.map change = .ok value) ↔ ∃ value, outcome = .ok value := by
  cases outcome with
  | ok value => simp [Except.map]
  | error fault => simp [Except.map]

theorem defined_bind (outcome : Outcome α) (next : α → Outcome β) :
    Defined (outcome >>= next) ↔
      Defined outcome ∧ ∀ value, outcome = .ok value → Defined (next value) := by
  cases outcome with
  | ok value => simp [bind, Except.bind]
  | error fault => simp [Defined, bind, Except.bind, undefined]

theorem exists_bind_ok (outcome : Outcome α) (next : α → Outcome β) :
    (∃ result, outcome >>= next = .ok result) ↔
      ∃ value, outcome = .ok value ∧ ∃ result, next value = .ok result := by
  cases outcome with
  | ok value => simp [bind, Except.bind]
  | error fault => simp [bind, Except.bind]

theorem defined_evaluate {n : Nat} {γ : Fin n → Type} (order : EvalOrder n)
    (arguments : ∀ index, Outcome (γ index)) :
    Defined (order.evaluate arguments) ↔
      InTurn (fun index => ∃ value, arguments index = .ok value)
        (fun index => Defined (arguments index)) order.indexes := by
  have meaning : ∀ {δ : Type} (outcome : Outcome δ), Defined outcome ↔
      ∀ fault, outcome = .error fault → ¬ ∃ access, fault = .undefined access := by
    intro δ outcome
    constructor
    · rintro defined _ failed ⟨access, rfl⟩
      exact defined access failed
    · intro avoids access failed
      exact avoids _ failed ⟨access, rfl⟩
  rw [meaning, order.evaluate_avoids]
  exact EvalOrder.inTurn_congr _ (fun _ _ => Iff.rfl) (fun _ _ => (meaning _).symm)

section

variable {whole : Json} (found : Option Json)
  (smaller : ∀ json, found = some json → sizeOf json < sizeOf whole)
  (next : Json.Part whole → Outcome β)

theorem exists_require_ok (fault : Fault) :
    (∃ result, Json.require fault found smaller >>= next = .ok result) ↔
      ∃ part : Json.Part whole, found = some part.1 ∧ ∃ result, next part = .ok result := by
  simp only [exists_bind_ok, Json.require_eq_ok]

/-- An unchecked access needs the value. -/
theorem defined_require_undefined (access : Undefined) :
    Defined (Json.require (.undefined access) found smaller >>= next) ↔
      ∃ part : Json.Part whole, found = some part.1 ∧ Defined (next part) := by
  cases found with
  | some json =>
      refine ⟨fun defined => ⟨⟨json, smaller json rfl⟩, rfl, defined⟩, ?_⟩
      rintro ⟨⟨_, _⟩, same, defined⟩
      cases same
      exact defined
  | none => simp [Json.require, Defined, undefined, bind, Except.bind]

/-- A checked access throws without it. -/
theorem defined_require_exception (what : String) :
    Defined (Json.require (.exception what) found smaller >>= next) ↔
      ∀ part : Json.Part whole, found = some part.1 → Defined (next part) := by
  cases found with
  | some json =>
      refine ⟨?_, fun defined => defined ⟨json, smaller json rfl⟩ rfl⟩
      rintro defined ⟨_, _⟩ same
      cases same
      exact defined
  | none => simp [Json.require, Defined, undefined, bind, Except.bind]

end

end

/-- What is to be shown of a type and a value: the decoder succeeds on the accepted
values, and it stays defined on the shaped ones. -/
def Exact (program : Program schema) (type : Ty) (json : Json) : Prop :=
  ∀ object,
    ((∃ value, jsonToValue program type json object = .ok value) ↔ Accepted schema type json) ∧
    (Defined (jsonToValue program type json object) ↔ Shaped program type json)

/-- The induction that follows the decoder: it descends into the value, or into the
type over the same value. -/
theorem decode_induction {motive : Ty → Json → Prop}
    (step : ∀ type json, (∀ other item, sizeOf item < sizeOf json → motive other item) →
      (∀ other, sizeOf other < sizeOf type → motive other json) → motive type json)
    (type : Ty) (json : Json) : motive type json :=
  step type json (fun other item _ => decode_induction step other item)
    (fun other _ => decode_induction step other json)
termination_by (sizeOf json, sizeOf type)
decreasing_by
  · exact Prod.Lex.left _ _ ‹_›
  · exact Prod.Lex.right _ ‹_›

section

variable {program : Program schema}

attribute [local simp] Convertible

theorem exact_of_throwing {type : Ty} {json : Json}
    (thrown : ∀ object, ∃ what, jsonToValue program type json object = throwing what)
    (rejected : ¬ Accepted schema type json) (shaped : Shaped program type json) :
    Exact program type json := by
  intro object
  obtain ⟨what, thrown⟩ := thrown object
  rw [thrown]
  exact ⟨by simp [rejected], by simp [shaped]⟩

theorem exact_of_undefined {type : Ty} {json : Json}
    (reached : ∀ object, ∃ access, jsonToValue program type json object = undefined access)
    (rejected : ¬ Accepted schema type json) (shapeless : ¬ Shaped program type json) :
    Exact program type json := by
  intro object
  obtain ⟨access, reached⟩ := reached object
  rw [reached]
  exact ⟨by simp [rejected], by simp [shapeless]⟩

theorem exact_nullable {how : Nullable} {type : Ty} {json : Json}
    (inner : Exact program type json) : Exact program (.nullable how type) json := by
  intro object
  have accepted := (inner (program.initialOf type)).1
  have shaped := (inner (program.initialOf type)).2
  rw [jsonToValue_nullable, Accepted, Shaped]
  cases json with
  | null => simp [Json.isNull]
  | _ =>
      simp only [Json.isNull, Bool.false_eq_true, ↓reduceIte, reduceCtorEq, false_or]
      rw [exists_map_ok, defined_map]
      exact ⟨accepted, shaped⟩

theorem exact_pair {first second : Ty} {json : Json}
    (smaller : ∀ other item, sizeOf item < sizeOf json → Exact program other item) :
    Exact program (.pair first second) json := by
  cases json with
  | object members =>
      intro object
      cases object with
      | pair one two =>
          have firsts := fun id : Json.Part (.object members) => smaller first id.1 id.2 one
          have seconds := fun value : Json.Part (.object members) =>
            smaller second value.1 value.2 two
          rw [jsonToValue, Accepted, Shaped, Json.dereference, Json.dereference]
          constructor
          · simp only [exists_require_ok, exists_bind_ok]
            constructor
            · rintro ⟨id, foundId, one, oneRead, value, foundValue, two, twoRead, _⟩
              exact ⟨⟨id, foundId, (firsts id).1.mp ⟨one, oneRead⟩⟩,
                value, foundValue, (seconds value).1.mp ⟨two, twoRead⟩⟩
            · rintro ⟨⟨id, foundId, oneAccepted⟩, value, foundValue, twoAccepted⟩
              obtain ⟨one, oneRead⟩ := (firsts id).1.mpr oneAccepted
              obtain ⟨two, twoRead⟩ := (seconds value).1.mpr twoAccepted
              exact ⟨id, foundId, one, oneRead, value, foundValue, two, twoRead, _, rfl⟩
          · rw [defined_require_undefined]
            refine exists_congr fun id => and_congr_right fun _ => ?_
            rw [defined_bind]
            refine and_congr (firsts id).2 ?_
            -- What follows the first element does not depend on its value.
            simp only [defined_require_undefined]
            simp only [defined_bind, Pure.pure, Except.pure, defined_ok, implies_true, and_true,
              fun value => (seconds value).2]
            rw [← (firsts id).1]
            constructor
            · rintro later ⟨one, oneRead⟩
              exact later one oneRead
            · intro later one oneRead
              exact later ⟨one, oneRead⟩
  | _ =>
      refine exact_of_undefined ?_ ?_ ?_
      · intro object
        cases object
        simp only [jsonToValue]
        exact ⟨_, rfl⟩
      · simp [Accepted]
      · simp [Shaped]

/-- A list of arguments of which each is known, and the object that is made of them. -/
theorem exact_evaluate {n : Nat} {γ : Fin n → Type} {δ : Type} (order : EvalOrder n)
    {arguments : ∀ index, Outcome (γ index)} (make : (∀ index, γ index) → δ)
    {accepted shaped : Fin n → Prop}
    (known : ∀ index, ((∃ value, arguments index = .ok value) ↔ accepted index) ∧
      (Defined (arguments index) ↔ shaped index)) :
    ((∃ value, (do let values ← order.evaluate arguments; return make values) = .ok value) ↔
      ∀ index, accepted index) ∧
    (Defined (do let values ← order.evaluate arguments; return make values) ↔
      InTurn accepted shaped order.indexes) := by
  constructor
  · rw [exists_bind_ok]
    simp only [Pure.pure, Except.pure, Except.ok.injEq, exists_eq', and_true]
    rw [EvalOrder.exists_evaluate_eq_ok]
    exact forall_congr' fun index => (known index).1
  · rw [defined_bind]
    simp only [Pure.pure, Except.pure, defined_ok, implies_true, and_true]
    rw [defined_evaluate]
    exact EvalOrder.inTurn_congr _ (fun index _ => (known index).1) (fun index _ => (known index).2)

/-- An element of a tuple or an array. -/
theorem exact_element {type : Ty} {items : List Json} {index : Nat} {object : Val schema type}
    (smaller : ∀ other item, sizeOf item < sizeOf (Json.array items) → Exact program other item) :
    ((∃ value, (do
        let item ← Json.element index items
        jsonToValue program type item.1 object) = .ok value) ↔
      ∃ item : Json.Part (.array items),
        items[index]? = some item.1 ∧ Accepted schema type item.1) ∧
    (Defined (do
        let item ← Json.element index items
        jsonToValue program type item.1 object) ↔
      ∃ item : Json.Part (.array items),
        items[index]? = some item.1 ∧ Shaped program type item.1) := by
  have inner := fun item : Json.Part (.array items) => smaller type item.1 item.2 object
  rw [Json.element, exists_require_ok, defined_require_undefined]
  exact ⟨exists_congr fun item => and_congr_right fun _ => (inner item).1,
    exists_congr fun item => and_congr_right fun _ => (inner item).2⟩

theorem exact_tuple {size : Nat} {types : Fin size → Ty} {json : Json}
    (smaller : ∀ other item, sizeOf item < sizeOf json → Exact program other item) :
    Exact program (.tuple types) json := by
  cases json with
  | array items =>
      intro object
      cases object with
      | tuple values =>
          rw [jsonToValue, Accepted, Shaped]
          exact exact_evaluate (program.order types) Val.tuple
            fun index => exact_element smaller
  | _ =>
      refine exact_of_throwing ?_ ?_ ?_
      · intro object
        cases object
        simp only [jsonToValue]
        exact ⟨_, rfl⟩
      · simp [Accepted]
      · simp [Shaped]

theorem exact_array {size : Nat} {type : Ty} {json : Json}
    (smaller : ∀ other item, sizeOf item < sizeOf json → Exact program other item) :
    Exact program (.array size type) json := by
  cases json with
  | array items =>
      intro object
      rw [jsonToValue, Accepted, Shaped]
      exact exact_evaluate (program.order fun _ : Fin size => type) Val.array
        fun index => exact_element smaller
  | _ =>
      refine exact_of_throwing ?_ ?_ ?_
      · intro object
        simp only [jsonToValue]
        exact ⟨_, rfl⟩
      · simp [Accepted]
      · simp [Shaped]

theorem exact_iter {container : Container} {type : Ty} {json : Json}
    (smaller : ∀ other item, sizeOf item < sizeOf json → Exact program other item) :
    Exact program (.iter container type) json := by
  cases json with
  | array items =>
      intro object
      rw [jsonToValue, Accepted, Shaped]
      exact exact_evaluate (EvalOrder.leftToRight items.length)
        (fun values => Val.ofList
          ((List.ofFn values).foldl (program.insert type container) []))
        fun index => smaller type (Json.visited items index).1 (Json.visited items index).2 _
  | _ =>
      refine exact_of_throwing ?_ ?_ ?_
      · intro object
        simp only [jsonToValue]
        exact ⟨_, rfl⟩
      · simp [Accepted]
      · simp [Shaped]

/-- The part of a base class. -/
theorem exact_base {members : List (String × Json)}
    (smaller : ∀ other item, sizeOf item < sizeOf (Json.object members) →
      Exact program other item) (id : Nat) (index : schema.BaseIndex id)
    (object : Val schema (.struct (schema.base id index))) :
    ((∃ value, (do
        let item ← Json.atKey (schema.baseName id index) members
        jsonToValue program (.struct (schema.base id index)) item.1 object) = .ok value) ↔
      BaseAccepted schema id members index) ∧
    (Defined (do
        let item ← Json.atKey (schema.baseName id index) members
        jsonToValue program (.struct (schema.base id index)) item.1 object) ↔
      ∀ item : Json.Part (.object members),
        Json.find (schema.baseName id index) members = some item.1 →
          Shaped program (.struct (schema.base id index)) item.1) := by
  have inner := fun item : Json.Part (.object members) =>
    smaller (.struct (schema.base id index)) item.1 item.2 object
  rw [Json.atKey, exists_require_ok, defined_require_exception]
  exact ⟨exists_congr fun item => and_congr_right fun _ => (inner item).1,
    forall_congr' fun item => imp_congr_right fun _ => (inner item).2⟩

theorem exact_struct {id : Nat} {json : Json}
    (smaller : ∀ other item, sizeOf item < sizeOf json → Exact program other item) :
    Exact program (.struct id) json := by
  cases json with
  | object members =>
      intro object
      cases object with
      | struct bases fields rest =>
          have baseKnown := fun index => exact_base smaller id index (bases index)
          have fieldKnown := fun index =>
            smaller (schema.fieldType id index)
              (Json.memberOrNull (schema.fieldName id index) members).1
              (Json.memberOrNull (schema.fieldName id index) members).2 (fields index)
          rw [jsonToValue, Accepted, Shaped]
          constructor
          · rw [exists_bind_ok]
            have later := fun read =>
              (exact_evaluate (EvalOrder.leftToRight _) (Val.struct read · rest) fieldKnown).1
            simp only [later, exists_and_right, EvalOrder.exists_evaluate_eq_ok]
            exact and_congr_left' (forall_congr' fun index => (baseKnown index).1)
          · rw [defined_bind, defined_evaluate]
            have later := fun read =>
              (exact_evaluate (EvalOrder.leftToRight _) (Val.struct read · rest) fieldKnown).2
            simp only [later]
            refine and_congr ?_ ?_
            · exact EvalOrder.inTurn_congr _ (fun index _ => (baseKnown index).1)
                (fun index _ => (baseKnown index).2)
            · rw [← forall_congr' fun index => (baseKnown index).1,
                ← EvalOrder.exists_evaluate_eq_ok (EvalOrder.leftToRight _)]
              constructor
              · rintro later ⟨read, success⟩
                exact later read success
              · intro later read success
                exact later ⟨read, success⟩
  | _ =>
      refine exact_of_throwing ?_ ?_ ?_
      · intro object
        cases object
        simp only [jsonToValue]
        exact ⟨_, rfl⟩
      · simp [Accepted]
      · simp [Shaped]

/-- A conversion that succeeds on the expected values and throws on the others. -/
def Converts {α : Type} (outcome : Outcome α) (expected : Prop) : Prop :=
  ((∃ value, outcome = .ok value) ↔ expected) ∧ Defined outcome

theorem converts_ok {α : Type} {value : α} {expected : Prop} (met : expected) :
    Converts (.ok value) expected :=
  ⟨iff_of_true ⟨value, rfl⟩ met, defined_ok value⟩

theorem converts_throwing {α : Type} {what : String} {expected : Prop} (missed : ¬ expected) :
    Converts (throwing what : Outcome α) expected :=
  ⟨iff_of_false (by simp) missed, defined_throwing what⟩

theorem converts_map {α β : Type} {outcome : Outcome α} {expected expected' : Prop}
    (change : α → β) (same : expected ↔ expected') (converts : Converts outcome expected) :
    Converts (outcome.map change) expected' :=
  ⟨(exists_map_ok change outcome).trans (converts.1.trans same),
    (defined_map change outcome).mpr converts.2⟩

/-- A simple type or an enum, through its converter. -/
theorem exact_of_converter {α : Type} {type : Ty} {json : Json} {convert : Json → Outcome α}
    {make : α → Val schema type}
    (decoded : ∀ object, jsonToValue program type json object = (simple convert json).map make)
    (accepted : Accepted schema type json ↔ Convertible type json)
    (shaped : Shaped program type json) (null : ¬ Convertible type .null)
    (converts : Converts (convert json) (Convertible type json)) : Exact program type json := by
  intro object
  rw [decoded, exists_map_ok, defined_map, accepted]
  cases json with
  | null => simp [-Convertible, simple, Json.isNull, null, shaped]
  | _ => exact ⟨converts.1, iff_of_true converts.2 shaped⟩

theorem toBool_converts (json : Json) :
    Converts (JsonValueConverter.toBool json) (Convertible .bool json) := by
  cases json with
  | bool => exact converts_ok trivial
  | int64 => exact converts_ok trivial
  | uint64 => exact converts_ok trivial
  | _ => exact converts_throwing id

theorem toDouble_converts (json : Json) :
    Converts (JsonValueConverter.toDouble json) (Convertible .double json) := by
  cases json with
  | double => exact converts_ok trivial
  | int64 => exact converts_ok trivial
  | uint64 => exact converts_ok trivial
  | _ => exact converts_throwing id

theorem toString_converts (json : Json) :
    Converts (JsonValueConverter.toString json) (Convertible .string json) := by
  cases json with
  | null => exact converts_throwing id
  | array => exact converts_throwing id
  | object => exact converts_throwing id
  | _ => exact converts_ok trivial

theorem toInt32_converts (json : Json) :
    Converts (JsonValueConverter.toInt32 json) (Convertible (.int .int32) json) := by
  cases json with
  | int64 => exact converts_ok trivial
  | uint64 => exact converts_throwing (by simp)
  | _ => exact converts_throwing id

theorem toInt_converts (kind : IntKind) (json : Json) :
    Converts (JsonValueConverter.toInt kind json) (Convertible (.int kind) json) := by
  have same : ∀ narrow, narrow ≠ .uint32 → narrow ≠ .uint64 →
      (Convertible (.int .int32) json ↔ Convertible (.int narrow) json) := by
    intro narrow notUInt32 notUInt64
    cases json <;> simp [notUInt32, notUInt64]
  cases kind with
  | int8 => exact converts_map _ (same .int8 (by decide) (by decide)) (toInt32_converts json)
  | int16 => exact converts_map _ (same .int16 (by decide) (by decide)) (toInt32_converts json)
  | uint8 => exact converts_map _ (same .uint8 (by decide) (by decide)) (toInt32_converts json)
  | uint16 => exact converts_map _ (same .uint16 (by decide) (by decide)) (toInt32_converts json)
  | int32 => exact toInt32_converts json
  | int64 =>
      cases json with
      | int64 => exact converts_ok trivial
      | uint64 => exact converts_throwing (by simp)
      | _ => exact converts_throwing id
  | uint32 =>
      cases json with
      | int64 => exact converts_ok trivial
      | uint64 => exact converts_ok (Or.inl rfl)
      | _ => exact converts_throwing id
  | uint64 =>
      cases json with
      | int64 => exact converts_ok trivial
      | uint64 => exact converts_ok (Or.inr rfl)
      | _ => exact converts_throwing id

theorem convertible_rawEnum (kind : IntKind) (json : Json) :
    Convertible (.rawEnum kind) json = Convertible (.int kind) json := by
  cases json <;> rfl

theorem fromString_converts (items : ReflectedEnum) (text : String) :
    Converts (items.fromString text) (text ∈ items.items.map fun item => staticStr item.1) := by
  by_cases stored : text ∈ items.items.map fun item => staticStr item.1
  · obtain ⟨value, read⟩ := ReflectedEnum.exists_fromString stored
    rw [read]
    exact converts_ok stored
  · obtain ⟨what, thrown⟩ := ReflectedEnum.fromString_throws stored
    rw [thrown]
    exact converts_throwing stored

theorem toEnum_converts (items : ReflectedEnum) (json : Json) :
    Converts (JsonValueConverter.toString json >>= items.fromString)
      (Convertible (.enum items) json) := by
  have named := fromString_converts items
  constructor
  · rw [exists_bind_ok]
    simp only [fun text => (named text).1, Convertible]
  · rw [defined_bind]
    exact ⟨(toString_converts json).2, fun text _ => (named text).2⟩

theorem exact_chars {json : Json} : Exact program .chars json := by
  cases json with
  | string text =>
      intro object
      simp [jsonToValue, Accepted, Shaped]
  | _ =>
      refine exact_of_throwing ?_ ?_ ?_
      · intro object
        simp only [jsonToValue]
        exact ⟨_, rfl⟩
      · simp [Accepted]
      · simp [Shaped]

/-- The decoder succeeds exactly on the accepted values and stays defined exactly on
the shaped ones. -/
theorem exact_all (program : Program schema) (type : Ty) (json : Json) :
    Exact program type json := by
  refine decode_induction ?_ type json
  intro type json smaller inner
  cases type with
  | bool =>
      exact exact_of_converter jsonToValue_bool (by simp [Accepted])
        (by simp [Shaped]) id (toBool_converts json)
  | int kind =>
      exact exact_of_converter jsonToValue_int (by simp [Accepted])
        (by simp [Shaped]) id (toInt_converts kind json)
  | double =>
      exact exact_of_converter jsonToValue_double (by simp [Accepted])
        (by simp [Shaped]) id (toDouble_converts json)
  | string =>
      exact exact_of_converter jsonToValue_string (by simp [Accepted])
        (by simp [Shaped]) id (toString_converts json)
  | enum items =>
      exact exact_of_converter jsonToValue_enum (by simp [Accepted])
        (by simp [Shaped]) (by simp [JsonValueConverter.toString,
          JsonValueConverter.failed]) (toEnum_converts items json)
  | rawEnum kind =>
      exact exact_of_converter jsonToValue_rawEnum (by simp [Accepted])
        (by simp [Shaped]) id (by rw [convertible_rawEnum]; exact toInt_converts kind json)
  | nullable how type =>
      exact exact_nullable (inner type (by simp only [Ty.nullable.sizeOf_spec]; omega))
  | pair first second => exact exact_pair smaller
  | tuple types => exact exact_tuple smaller
  | array size type => exact exact_array smaller
  | iter container type => exact exact_iter smaller
  | chars => exact exact_chars
  | struct id => exact exact_struct smaller

end

/-- The decoder returns or throws exactly on the shaped values. -/
theorem jsonToValue_defined_iff_shaped (program : Program schema) (type : Ty) (json : Json)
    (object : Val schema type) :
    Defined (jsonToValue program type json object) ↔ Shaped program type json :=
  (exact_all program type json object).2

/-- A program without reflected structs. -/
def plainSchema : Schema := ⟨fun _ => ⟨"", [], [], by decide⟩⟩

def plainProgram : Program plainSchema where
  initial _ := .struct (fun index => index.elim0) (fun index => index.elim0)
    (fun index => index.elim0)
  less _ _ _ _ := false
  insertOther _ _ object _ := object
  order _ := EvalOrder.leftToRight _

/-- `std::map<std::int32_t, std::int32_t>` -/
def intMap : Ty := .iter (.ordered 0) (.pair (.int .int32) (.int .int32))

/-- The parameters of a remote method with one parameter. -/
def oneParam : Ty := .tuple fun _ : Fin 1 => .int .int32

/-- A map element that is no object, a map element without a key, and too few
parameters of a remote call. -/
theorem malformed_values_are_accessed :
    jsonToValue plainProgram intMap (.array [.array [.int64 1]])
        (plainProgram.initialOf intMap) = undefined .nullDereference ∧
      jsonToValue plainProgram intMap (.array [.object [("id", .int64 1)]])
        (plainProgram.initialOf intMap) = undefined .nullDereference ∧
      jsonToValue plainProgram oneParam (.array []) (plainProgram.initialOf oneParam) =
        undefined .outOfBounds := by
  have pair : ∀ json, jsonToValue plainProgram (.pair (.int .int32) (.int .int32)) json
      (plainProgram.initialOf (.pair (.int .int32) (.int .int32))) =
        undefined .nullDereference →
      jsonToValue plainProgram intMap (.array [json]) (plainProgram.initialOf intMap) =
        undefined .nullDereference := by
    intro json reached
    rw [intMap, jsonToValue, EvalOrder.evaluate_eq_error _ _ (by
      simp only [EvalOrder.leftToRight, List.length_singleton, List.finRange_succ,
        EvalOrder.firstError, Json.visited, List.get]
      rw [reached]
      rfl)]
    rfl
  refine ⟨?_, ?_, ?_⟩
  · apply pair
    simp [Program.initialOf, jsonToValue]
  · apply pair
    simp only [Program.initialOf, jsonToValue, Json.dereference, Json.find, Tag.id, Tag.value,
      Json.require]
    rfl
  · simp only [oneParam, Program.initialOf, jsonToValue]
    rw [EvalOrder.evaluate_eq_error _ _ (by rfl)]
    rfl

end Mif.Serialization
