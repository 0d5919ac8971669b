import Mathlib.Data.List.Basic
import Mif.Common.Fault
import Mif.Reflection.Schema

set_option autoImplicit false

/- `boost::json::value` and the conversions of simple types from it. -/
namespace Mif.Serialization

open Mif.Reflection (IntKind)

/-- `boost::json::value`. A number is of one of three kinds. -/
inductive Json
  | null
  | bool (value : Bool)
  | int64 (value : BitVec 64)
  | uint64 (value : BitVec 64)
  | double (value : Float)
  | string (value : String)
  | array (items : List Json)
  | object (members : List (String × Json))

namespace Json

def isNull : Json → Bool
  | .null => true
  | _ => false

/-- `object::if_contains` -/
def find (key : String) : List (String × Json) → Option Json
  | [] => none
  | (name, json) :: rest => if name = key then some json else find key rest

/-- `object[key] = json` -/
def assign (key : String) (json : Json) : List (String × Json) → List (String × Json)
  | [] => [(key, json)]
  | (name, old) :: rest =>
      if name = key then (name, json) :: rest else (name, old) :: assign key json rest

theorem sizeOf_find {key : String} {members : List (String × Json)} {json : Json}
    (found : find key members = some json) : sizeOf json < sizeOf (Json.object members) := by
  have inside : sizeOf json < sizeOf members := by
    induction members with
    | nil => cases found
    | cons member rest ih =>
        obtain ⟨name, value⟩ := member
        unfold find at found
        split at found
        · cases found
          simp only [List.cons.sizeOf_spec, Prod.mk.sizeOf_spec]
          omega
        · have smaller := ih found
          simp only [List.cons.sizeOf_spec]
          omega
  simp only [Json.object.sizeOf_spec]
  omega

theorem sizeOf_item {items : List Json} {index : Nat} {json : Json}
    (found : items[index]? = some json) : sizeOf json < sizeOf (Json.array items) := by
  have inside := List.sizeOf_lt_of_mem (List.mem_of_getElem? found)
  simp only [Json.array.sizeOf_spec]
  omega

theorem sizeOf_null (members : List (String × Json)) :
    sizeOf Json.null < sizeOf (Json.object members) := by
  have positive : 0 < sizeOf members := by
    cases members
    · simp
    · simp only [List.cons.sizeOf_spec]
      omega
  simp only [Json.null.sizeOf_spec, Json.object.sizeOf_spec]
  omega

/-- A value that is smaller than another one, so that a recursion may go there. -/
abbrev Part (whole : Json) := { json : Json // sizeOf json < sizeOf whole }

/-- The value when there is one, and otherwise the fault of the access. -/
def require {whole : Json} (fault : Fault) (found : Option Json)
    (smaller : ∀ json, found = some json → sizeOf json < sizeOf whole) : Outcome (Part whole) :=
  match found, smaller with
  | some json, smaller => .ok ⟨json, smaller json rfl⟩
  | none, _ => .error fault

/-- The reference `*object.if_contains(key)`. -/
def dereference (key : String) (members : List (String × Json)) :
    Outcome (Part (.object members)) :=
  require (.undefined .nullDereference) (find key members) fun _ => sizeOf_find

/-- `object.at(key)` -/
def atKey (key : String) (members : List (String × Json)) : Outcome (Part (.object members)) :=
  require (.exception "out of range") (find key members) fun _ => sizeOf_find

/-- `array[index]`, which is not checked. -/
def element (index : Nat) (items : List Json) : Outcome (Part (.array items)) :=
  require (.undefined .outOfBounds) items[index]? fun _ => sizeOf_item

/-- `object.contains(key) ? object.at(key) : value{}` -/
def memberOrNull (key : String) (members : List (String × Json)) : Part (.object members) :=
  match found : find key members with
  | some json => ⟨json, sizeOf_find found⟩
  | none => ⟨.null, sizeOf_null members⟩

/-- An item that a loop over the array visits. -/
def visited (items : List Json) (index : Fin items.length) : Part (.array items) :=
  ⟨items.get index, sizeOf_item (List.getElem?_eq_getElem index.isLt)⟩

theorem require_eq_ok {whole : Json} (fault : Fault) (found : Option Json)
    (smaller : ∀ json, found = some json → sizeOf json < sizeOf whole) (part : Part whole) :
    require fault found smaller = .ok part ↔ found = some part.1 := by
  cases found with
  | some json => simp [require, Subtype.ext_iff]
  | none => simp [require]

theorem atKey_of_find {key : String} {members : List (String × Json)} {json : Json}
    (found : find key members = some json) :
    atKey key members = .ok ⟨json, sizeOf_find found⟩ :=
  (require_eq_ok _ _ _ _).mpr found

theorem memberOrNull_of_find {key : String} {members : List (String × Json)} {json : Json}
    (found : find key members = some json) : (memberOrNull key members).1 = json := by
  unfold memberOrNull
  split
  · rename_i other same
    exact Option.some.inj (same.symm.trans found)
  · rename_i missing
    cases missing.symm.trans found

end Json

/- `JsonValueConverter` -/
namespace JsonValueConverter

def failed {α : Type} (type : String) : Outcome α :=
  throwing ("[Mif::Serialization::Json::Detail::JsonValueConverter::Convert] " ++
    "Failed to convert to " ++ type ++ ".")

/-- The text up to the first zero character, as `c_str()` gives it. -/
def cStr (text : String) : String := String.ofList (text.toList.takeWhile (· ≠ '\x00'))

def toString : Json → Outcome String
  | .bool value => .ok (if value then "1" else "0")
  | .double value => .ok (Float.toString value)
  | .int64 value => .ok (ToString.toString value.toInt)
  | .string value => .ok (cStr value)
  | .uint64 value => .ok (ToString.toString value.toNat)
  | _ => failed "string"

def toDouble : Json → Outcome Float
  | .double value => .ok value
  | .int64 value => .ok (Float.ofInt value.toInt)
  | .uint64 value => .ok (Float.ofNat value.toNat)
  | _ => failed "double"

def toBool : Json → Outcome Bool
  | .bool value => .ok value
  | .int64 value => .ok (value != 0)
  | .uint64 value => .ok (value != 0)
  | _ => failed "bool"

def toInt64 : Json → Outcome (BitVec 64)
  | .int64 value => .ok value
  | _ => failed "int64"

def toUInt64 : Json → Outcome (BitVec 64)
  | .uint64 value => .ok value
  | .int64 value => .ok value
  | _ => failed "uint64"

def toInt32 : Json → Outcome (BitVec 32)
  | .int64 value => .ok (value.setWidth 32)
  | _ => failed "int32"

def toUInt32 : Json → Outcome (BitVec 32)
  | .uint64 value => .ok (value.setWidth 32)
  | .int64 value => .ok (value.setWidth 32)
  | _ => failed "uint32"

/-- The converters of the types with 8 and 16 bits. -/
def throughInt32 (width : Nat) (json : Json) : Outcome (BitVec width) :=
  (toInt32 json).map (·.setWidth width)

def toInt : (kind : IntKind) → Json → Outcome (BitVec kind.width)
  | .int8, json => throughInt32 8 json
  | .int16, json => throughInt32 16 json
  | .int32, json => toInt32 json
  | .int64, json => toInt64 json
  | .uint8, json => throughInt32 8 json
  | .uint16, json => throughInt32 16 json
  | .uint32, json => toUInt32 json
  | .uint64, json => toUInt64 json

end JsonValueConverter

/- The text of a byte container, read with `stream >> std::hex >> i`. -/
namespace HexStream

def isSpace (char : Char) : Bool :=
  char ∈ [' ', '\t', '\n', '\x0b', '\x0c', '\r']

def digit (char : Char) : Option Nat :=
  if '0' ≤ char ∧ char ≤ '9' then some (char.toNat - '0'.toNat)
  else if 'a' ≤ char ∧ char ≤ 'f' then some (char.toNat - 'a'.toNat + 10)
  else if 'A' ≤ char ∧ char ≤ 'F' then some (char.toNat - 'A'.toNat + 10)
  else none

/-- The digits at the front with the value that they add to, and what follows them. -/
def digits (value count : Nat) : List Char → Nat × Nat × List Char
  | [] => (value, count, [])
  | char :: rest =>
      match digit char with
      | some next => digits (16 * value + next) (count + 1) rest
      | none => (value, count, char :: rest)

def sign : List Char → Bool × List Char
  | '-' :: rest => (true, rest)
  | '+' :: rest => (false, rest)
  | text => (false, text)

/-- A zero in front, or a `0x`, which is no digit. -/
def leadingZero : List Char → Bool × List Char
  | '0' :: 'x' :: rest => (false, rest)
  | '0' :: 'X' :: rest => (false, rest)
  | '0' :: rest => (true, rest)
  | text => (false, text)

/-- One extraction of an `int`: the stored value, whether the extraction succeeded, and
the text that is left. -/
structure Extraction where
  value : Int
  success : Bool
  rest : List Char
  deriving DecidableEq, Repr

/-- A value out of the range of `int` is stored as the nearest limit and is a failure. -/
def store (value : Int) (rest : List Char) : Extraction :=
  if value > 2147483647 then ⟨2147483647, false, rest⟩
  else if value < -2147483648 then ⟨-2147483648, false, rest⟩
  else ⟨value, true, rest⟩

def extract (text : List Char) : Extraction :=
  let (negative, body) := sign (text.dropWhile isSpace)
  let (zero, body) := leadingZero body
  let (value, count, rest) := digits 0 0 body
  if count = 0 ∧ zero = false then ⟨0, false, rest⟩
  else store (if negative then -(value : Int) else value) rest

theorem length_digits (value count : Nat) (text : List Char) :
    (digits value count text).2.2.length + (digits value count text).2.1 =
      text.length + count := by
  induction text generalizing value count with
  | nil => rfl
  | cons char rest ih =>
      unfold digits
      split
      · rename_i next _
        rw [ih, List.length_cons]
        omega
      · rfl

theorem length_sign (text : List Char) : (sign text).2.length ≤ text.length := by
  unfold sign
  split <;> simp

theorem length_leadingZero (text : List Char) :
    (leadingZero text).2.length + (if (leadingZero text).1 then 1 else 0) ≤ text.length := by
  unfold leadingZero
  split
  · simp only [Bool.false_eq_true, ↓reduceIte, List.length_cons]
    omega
  · simp only [Bool.false_eq_true, ↓reduceIte, List.length_cons]
    omega
  · simp
  · simp

theorem store_rest (value : Int) (rest : List Char) : (store value rest).rest = rest := by
  unfold store
  split
  · rfl
  · split <;> rfl

/-- A successful extraction takes a character. -/
theorem extract_shorter {text : List Char} (success : (extract text).success = true) :
    (extract text).rest.length < text.length := by
  have spaces : (text.dropWhile isSpace).length ≤ text.length :=
    (List.dropWhile_suffix isSpace).length_le
  have signed := length_sign (text.dropWhile isSpace)
  rcases first : sign (text.dropWhile isSpace) with ⟨negative, body⟩
  have zeros := length_leadingZero body
  rcases second : leadingZero body with ⟨zero, unsigned⟩
  have counted := length_digits 0 0 unsigned
  rcases third : digits 0 0 unsigned with ⟨value, count, rest⟩
  simp only [first, second, third] at signed zeros counted
  simp only [extract, first, second, third] at success ⊢
  split at success
  · cases success
  · rename_i taken
    rw [if_neg taken, store_rest]
    cases zero with
    | true =>
        simp only [↓reduceIte] at zeros
        omega
    | false =>
        have some : count ≠ 0 := fun none => taken ⟨none, rfl⟩
        simp only [Bool.false_eq_true, ↓reduceIte] at zeros
        omega

theorem eq_of_isSpace {char : Char} (space : isSpace char = true) :
    char = ' ' ∨ char = '\t' ∨ char = '\n' ∨ char = '\x0b' ∨ char = '\x0c' ∨ char = '\r' := by
  simpa only [isSpace, decide_eq_true_eq, List.mem_cons, List.not_mem_nil, or_false] using space

/-- A number has no white space in front: not before its sign and not before its digits. -/
theorem dropWhile_isSpace_of_solid {char : Char}
    (solid : char = '-' ∨ char = '+' ∨ char.isDigit = true) (rest : List Char) :
    (char :: rest).dropWhile isSpace = char :: rest := by
  have visible : isSpace char = false := by
    rw [← Bool.not_eq_true]
    intro space
    rcases eq_of_isSpace space with rfl | rfl | rfl | rfl | rfl | rfl
    all_goals revert solid; decide
  rw [List.dropWhile_cons_of_neg]
  simpa using visible

/-- The loop while the stream is good. Each round appends a byte, also the round in
which the extraction fails. -/
def bytes (text : List Char) : List (BitVec 8) :=
  let extraction := extract text
  let byte := BitVec.ofInt 8 extraction.value
  if extraction.success = true ∧ extraction.rest ≠ [] then
    byte :: bytes extraction.rest
  else [byte]
termination_by text.length
decreasing_by exact extract_shorter (And.left ‹_›)

end HexStream

end Mif.Serialization
