import Mif.Common.Fault
import Mif.Reflection.Schema
import Mif.Serialization.JsonValue
import Mif.Serialization.JsonDecode
import Mif.Serialization.JsonSafety
import Mif.Serialization.JsonEncode
import Mif.Serialization.JsonRoundTrip
import Mif.Remote.Serialization.Tag

set_option autoImplicit false

/- The message format of `Remote::Serialization::Json`: one object whose members are the
header, the parameters and an exception. -/
namespace Mif.Remote.Serialization.Json

open Mif.Reflection
open Mif.Serialization (BoostJson Defined Shaped Restored valueToJson jsonToValue)
open Mif.Serialization.JsonValueConverter (cStr)
open Mif.Serialization.ValueToJson (assignAll)
open Mif.Serialization.Json (find assign atKey reparsed reparsedMembers)

variable {schema : Schema} {n : Nat} {types : Fin n → Ty} {Symbol : Type}

/-- The members of a `boost::json::object`. -/
abbrev Members := List (String × Mif.Serialization.Json)

/-- `object.erase(object.find(key))`. The order of the other members is never looked at. -/
def erase (key : String) (members : Members) : Members :=
  members.filter fun member => member.1 ≠ key

/-- `Serializer`, with its `m_value`. -/
structure Serializer where
  value : Members

namespace Serializer

def header (isRequest : Bool) (uuid instanceId interfaceId methodId : String) : Members :=
  [(Tag.uuid, .string uuid),
    (Tag.type, .string (if isRequest then Tag.request else Tag.response)),
    (Tag.inst, .string instanceId),
    (Tag.interface, .string interfaceId),
    (Tag.method, .string methodId)]

def putParams (program : Program schema) (serializer : Serializer)
    (params : ∀ index, Val schema (types index)) : Outcome Serializer := do
  let json ← valueToJson program (.tuple params)
  return ⟨assign Tag.param json (erase Tag.param serializer.value)⟩

def putParamsIfExists (program : Program schema) (serializer : Serializer)
    (params : ∀ index, Val schema (types index)) : Outcome Serializer :=
  if n = 0 then .ok serializer else serializer.putParams program params

/-- The constructor. -/
def new (program : Program schema) (isRequest : Bool)
    (uuid instanceId interfaceId methodId : String)
    (params : ∀ index, Val schema (types index)) : Outcome Serializer :=
  putParamsIfExists program
    ⟨assignAll (header isRequest uuid instanceId interfaceId methodId)⟩ params

def putException (serializer : Serializer) (exception : Exception) : Serializer :=
  ⟨assign Tag.exception (.string exception.message) (erase Tag.exception serializer.value)⟩

def getBuffer (boost : BoostJson (List Symbol)) (serializer : Serializer) : List Symbol :=
  boost.write (.object serializer.value)

end Serializer

/-- `Deserializer`, with its `m_value`. -/
structure Deserializer where
  value : Members

namespace Deserializer

def failure (text : String) : String :=
  "[Mif::Remote::Serialization::Json::Deserializer] " ++ text

/-- The constructor. -/
def new (boost : BoostJson (List Symbol)) (buffer : List Symbol) : Outcome Deserializer :=
  if buffer.isEmpty then throwing (failure "Empty buffer.")
  else do
    match ← boost.parse buffer with
    | .null => throwing (failure "Empty json object.")
    | .object members => return ⟨members⟩
    | _ => throwing (failure "Json is no object type.")

/-- `m_value.at(tag).as_string().c_str()` -/
def stringAt (deserializer : Deserializer) (tag : String) : Outcome String := do
  match (← atKey tag deserializer.value).1 with
  | .string text => return cStr text
  | _ => throwing "not a string"

def getUuid (deserializer : Deserializer) : Outcome String := deserializer.stringAt Tag.uuid

def getType (deserializer : Deserializer) : Outcome String := deserializer.stringAt Tag.type

def isRequest (deserializer : Deserializer) : Outcome Bool :=
  deserializer.getType.map fun type => type = Tag.request

def isResponse (deserializer : Deserializer) : Outcome Bool :=
  deserializer.getType.map fun type => type = Tag.response

def getInstance (deserializer : Deserializer) : Outcome String := deserializer.stringAt Tag.inst

def getInterface (deserializer : Deserializer) : Outcome String :=
  deserializer.stringAt Tag.interface

def getMethod (deserializer : Deserializer) : Outcome String := deserializer.stringAt Tag.method

def hasException (deserializer : Deserializer) : Bool :=
  (find Tag.exception deserializer.value).isSome

/-- The exception that is kept in the pointer: the one made of the message, or the one
that reading the message threw. -/
def getException (deserializer : Deserializer) : Option Fault :=
  if deserializer.hasException then
    match deserializer.stringAt Tag.exception with
    | .ok message => some (.exception message)
    | .error fault => some fault
  else none

def getParamsIfExists (program : Program schema) (deserializer : Deserializer)
    (types : Fin n → Ty) : Outcome (Val schema (.tuple types)) :=
  if n = 0 then .ok (program.initialOf (.tuple types))
  else do
    let json ← atKey Tag.param deserializer.value
    jsonToValue program (.tuple types) json.1
      (program.initialOf (.tuple types))

end Deserializer

/- What is found under a key after the two changes of an object. -/
section

variable (key : String) (members : Members)

theorem find_erase (tag : String) :
    find tag (erase key members) = if tag = key then none else find tag members := by
  induction members with
  | nil => simp [erase, find]
  | cons member rest ih =>
      obtain ⟨name, json⟩ := member
      by_cases erased : name = key
      · have dropped : erase key ((name, json) :: rest) = erase key rest := by
          simp [erase, erased]
        rw [dropped, ih]
        by_cases same : tag = key
        · rw [if_pos same, if_pos same]
        · have other : name ≠ tag := fun equal => same (equal.symm.trans erased)
          rw [if_neg same, if_neg same, find, if_neg other]
      · have kept : erase key ((name, json) :: rest) = (name, json) :: erase key rest := by
          simp [erase, erased]
        rw [kept, find, find, ih]
        by_cases found : name = tag
        · have other : tag ≠ key := fun equal => erased (found.trans equal)
          rw [if_pos found, if_neg other, if_pos found]
        · rw [if_neg found, if_neg found]

theorem find_assign (json : Mif.Serialization.Json) (tag : String) :
    find tag (assign key json members) = if tag = key then some json else find tag members := by
  induction members with
  | nil =>
      simp only [assign, find]
      by_cases same : key = tag
      · rw [if_pos same, if_pos same.symm]
      · rw [if_neg same, if_neg (Ne.symm same)]
  | cons member rest ih =>
      obtain ⟨name, old⟩ := member
      rw [assign]
      by_cases assigned : name = key
      · rw [if_pos assigned, find, find, assigned]
        by_cases same : key = tag
        · rw [if_pos same, if_pos same.symm]
        · rw [if_neg same, if_neg (Ne.symm same), if_neg same]
      · rw [if_neg assigned, find, find, ih]
        by_cases found : name = tag
        · have other : tag ≠ key := fun equal => assigned (found.trans equal)
          rw [if_pos found, if_neg other, if_pos found]
        · rw [if_neg found, if_neg found]

/-- A member that is erased and assigned again. -/
theorem find_replaced (json : Mif.Serialization.Json) (tag : String) :
    find tag (assign key json (erase key members)) =
      if tag = key then some json else find tag members := by
  rw [find_assign]
  split
  · rfl
  · rename_i other
    rw [find_erase, if_neg other]

end

/-- A request is no response. -/
theorem isResponse_of_isRequest {deserializer : Deserializer}
    (request : deserializer.isRequest = .ok true) : deserializer.isResponse = .ok false := by
  unfold Deserializer.isRequest at request
  unfold Deserializer.isResponse
  cases known : deserializer.getType with
  | error fault =>
      rw [known] at request
      cases request
  | ok type =>
      rw [known] at request
      have same : type = Tag.request := of_decide_eq_true (Except.ok.inj request)
      rw [same]
      rfl

/- The header is sent by every serializer and read by every deserializer. -/
section

variable {isRequest : Bool} {uuid instanceId interfaceId methodId : String}

/-- The header is among the members, whatever else has been put there. -/
def Serializer.Sends (serializer : Serializer) (header : Members) : Prop :=
  ∀ tag json, (tag, json) ∈ header → find tag serializer.value = some json

/-- The getters give this header. -/
structure Deserializer.Receives (deserializer : Deserializer) (isRequest : Bool)
    (uuid instanceId interfaceId methodId : String) : Prop where
  type : deserializer.isRequest = .ok isRequest
  uuid : deserializer.getUuid = .ok uuid
  inst : deserializer.getInstance = .ok instanceId
  interface : deserializer.getInterface = .ok interfaceId
  method : deserializer.getMethod = .ok methodId

theorem header_tags :
    (Serializer.header isRequest uuid instanceId interfaceId methodId).map Prod.fst =
      [Tag.uuid, Tag.type, Tag.inst, Tag.interface, Tag.method] := rfl

theorem header_nodup :
    ((Serializer.header isRequest uuid instanceId interfaceId methodId).map Prod.fst).Nodup := by
  rw [header_tags]
  decide

theorem header_only {tag : String} {json : Mif.Serialization.Json}
    (member : (tag, json) ∈ Serializer.header isRequest uuid instanceId interfaceId methodId) :
    tag ≠ Tag.param ∧ tag ≠ Tag.exception := by
  have named := List.mem_map_of_mem (f := Prod.fst) member
  rw [header_tags] at named
  have others : ∀ other ∈ [Tag.uuid, Tag.type, Tag.inst, Tag.interface, Tag.method],
      other ≠ Tag.param ∧ other ≠ Tag.exception := by decide
  exact others tag named

/-- A member of another key is put beside the header. -/
theorem sends_replaced {serializer : Serializer} {key : String} {json : Mif.Serialization.Json}
    (sends : serializer.Sends (Serializer.header isRequest uuid instanceId interfaceId methodId))
    (other : key = Tag.param ∨ key = Tag.exception) :
    Serializer.Sends ⟨assign key json (erase key serializer.value)⟩
      (Serializer.header isRequest uuid instanceId interfaceId methodId) := by
  intro tag sent member
  obtain ⟨notParam, notException⟩ := header_only member
  have different : tag ≠ key := by
    rcases other with rfl | rfl
    · exact notParam
    · exact notException
  rw [find_replaced, if_neg different]
  exact sends tag sent member

theorem sends_putParams {program : Program schema} {serializer next : Serializer}
    {params : ∀ index, Val schema (types index)}
    (sends : serializer.Sends (Serializer.header isRequest uuid instanceId interfaceId methodId))
    (put : serializer.putParams program params = .ok next) :
    next.Sends (Serializer.header isRequest uuid instanceId interfaceId methodId) := by
  unfold Serializer.putParams at put
  cases written : valueToJson program (.tuple params) with
  | error fault =>
      rw [written] at put
      cases put
  | ok json =>
      rw [written] at put
      cases put
      exact sends_replaced sends (Or.inl rfl)

theorem sends_new {program : Program schema} {serializer : Serializer}
    {params : ∀ index, Val schema (types index)}
    (built : Serializer.new program isRequest uuid instanceId interfaceId methodId params =
      .ok serializer) :
    serializer.Sends (Serializer.header isRequest uuid instanceId interfaceId methodId) := by
  have start : Serializer.Sends
      ⟨assignAll (Serializer.header isRequest uuid instanceId interfaceId methodId)⟩
      (Serializer.header isRequest uuid instanceId interfaceId methodId) := by
    intro tag json member
    rw [Mif.Serialization.assignAll_eq header_nodup]
    exact Mif.Serialization.find_of_mem header_nodup member
  unfold Serializer.new Serializer.putParamsIfExists at built
  split at built
  · cases built
    exact start
  · exact sends_putParams start built

theorem stringAt_of_find {deserializer : Deserializer} {tag text : String}
    (found : find tag deserializer.value = some (.string text))
    (whole : '\x00' ∉ text.toList) : deserializer.stringAt tag = .ok text := by
  unfold Deserializer.stringAt
  rw [Mif.Serialization.Json.atKey_of_find found]
  change Except.ok (cStr text) = .ok text
  rw [Mif.Serialization.cStr_eq whole]

/-- What was sent is received, texts up to their first zero character. -/
theorem receives_of_sends {serializer : Serializer}
    (sends : serializer.Sends (Serializer.header isRequest uuid instanceId interfaceId methodId))
    (whole : ∀ text ∈ [uuid, instanceId, interfaceId, methodId], '\x00' ∉ text.toList) :
    Deserializer.Receives ⟨reparsedMembers serializer.value⟩ isRequest uuid instanceId
      interfaceId methodId := by
  have read : ∀ tag text,
      (tag, .string text) ∈ Serializer.header isRequest uuid instanceId interfaceId methodId →
      '\x00' ∉ text.toList →
      Deserializer.stringAt ⟨reparsedMembers serializer.value⟩ tag = .ok text := by
    intro tag text member plain
    refine stringAt_of_find ?_ plain
    rw [Mif.Serialization.Json.find_reparsedMembers, sends tag _ member]
    rfl
  have typed := read Tag.type (if isRequest then Tag.request else Tag.response)
    (by simp [Serializer.header]) (by cases isRequest <;> decide)
  refine ⟨?_, ?_, ?_, ?_, ?_⟩
  · rw [Deserializer.isRequest, Deserializer.getType, typed]
    cases isRequest
    · rfl
    · rfl
  · exact read Tag.uuid uuid (by simp [Serializer.header]) (whole _ (by simp))
  · exact read Tag.inst instanceId (by simp [Serializer.header]) (whole _ (by simp))
  · exact read Tag.interface interfaceId (by simp [Serializer.header]) (whole _ (by simp))
  · exact read Tag.method methodId (by simp [Serializer.header]) (whole _ (by simp))

end

/-- What is relied on for one object: it is written as some text, and the parser undoes
the writer up to the kinds of the integers. -/
structure Faithful (boost : BoostJson (List Symbol)) (members : Members) : Prop where
  filled : boost.write (.object members) ≠ []
  undone : boost.parse (boost.write (.object members)) = .ok (.object (reparsedMembers members))

theorem new_getBuffer {boost : BoostJson (List Symbol)} {serializer : Serializer}
    (faithful : Faithful boost serializer.value) :
    Deserializer.new boost (serializer.getBuffer boost) =
      .ok ⟨reparsedMembers serializer.value⟩ := by
  have filled : (serializer.getBuffer boost).isEmpty = false := by
    rw [List.isEmpty_eq_false_iff]
    exact faithful.filled
  unfold Deserializer.new
  simp only [filled, Bool.false_eq_true, ↓reduceIte]
  rw [Serializer.getBuffer, faithful.undone]
  rfl

/-- The parameters of a remote call are decoded from any message without an access
outside it, exactly when there are none, they are missing, or they have the shape of the
tuple. -/
theorem getParamsIfExists_defined_iff (program : Program schema) (deserializer : Deserializer)
    (types : Fin n → Ty) :
    Defined (deserializer.getParamsIfExists program types) ↔
      n = 0 ∨ ∀ json, find Tag.param deserializer.value = some json →
        Shaped program (.tuple types) json := by
  unfold Deserializer.getParamsIfExists
  split
  · rename_i none
    exact iff_of_true (Mif.Serialization.defined_ok _) (Or.inl none)
  · rename_i some
    rw [atKey, Mif.Serialization.defined_require_exception]
    have shaped := fun json => (Mif.Serialization.exact_all program (.tuple types) json
      (program.initialOf (.tuple types))).2
    constructor
    · intro defined
      refine Or.inr fun json found => ?_
      exact (shaped json).mp (defined ⟨json, Mif.Serialization.Json.sizeOf_find found⟩ found)
    · rintro (none | shapes) part found
      · exact absurd none some
      · exact (shaped part.1).mpr (shapes part.1 found)

section

variable {program : Program schema} {params : ∀ index, Val schema (types index)}
  {serializer : Serializer}

/-- No parameters are read from any message. -/
theorem getParams_none (none : n = 0) (deserializer : Deserializer) :
    deserializer.getParamsIfExists program types = .ok (.tuple params) := by
  subst none
  exact congrArg (fun values => Except.ok (Val.tuple values)) (funext fun index => index.elim0)

/-- The parameters put last are read back. -/
theorem getParams_putParams {next : Serializer}
    (restored : ∀ index, Restored program (params index))
    (put : serializer.putParams program params = .ok next) :
    Deserializer.getParamsIfExists program ⟨reparsedMembers next.value⟩ types =
      .ok (.tuple params) := by
  obtain ⟨json, written, read⟩ := (Restored.tuple restored).readAs
  unfold Serializer.putParams at put
  rw [written] at put
  cases put
  have found : find Tag.param (reparsedMembers
      (assign Tag.param json (erase Tag.param serializer.value))) = some json.reparsed := by
    rw [Mif.Serialization.Json.find_reparsedMembers, find_replaced, if_pos rfl]
    rfl
  by_cases none : n = 0
  · exact getParams_none none _
  · unfold Deserializer.getParamsIfExists
    rw [if_neg none, Mif.Serialization.Json.atKey_of_find found]
    exact read

variable {isRequest : Bool} {uuid instanceId interfaceId methodId : String}

/-- Parameters that are restored can be sent. -/
theorem exists_new (restored : ∀ index, Restored program (params index)) :
    ∃ serializer, Serializer.new program isRequest uuid instanceId interfaceId methodId params =
      .ok serializer := by
  obtain ⟨json, written, -⟩ := (Restored.tuple restored).readAs
  unfold Serializer.new Serializer.putParamsIfExists
  split
  · exact ⟨_, rfl⟩
  · unfold Serializer.putParams
    rw [written]
    exact ⟨_, rfl⟩

theorem getParams_new (restored : ∀ index, Restored program (params index))
    (built : Serializer.new program isRequest uuid instanceId interfaceId methodId params =
      .ok serializer) :
    Deserializer.getParamsIfExists program ⟨reparsedMembers serializer.value⟩ types =
      .ok (.tuple params) := by
  unfold Serializer.new Serializer.putParamsIfExists at built
  split at built
  · rename_i none
    exact getParams_none none _
  · exact getParams_putParams restored built

/-- A call or its result arrives as it was sent: the header and the parameters. -/
theorem call_received {boost : BoostJson (List Symbol)}
    (restored : ∀ index, Restored program (params index))
    (whole : ∀ text ∈ [uuid, instanceId, interfaceId, methodId], '\x00' ∉ text.toList)
    (faithful : ∀ serializer, Serializer.new program isRequest uuid instanceId interfaceId
      methodId params = .ok serializer → Faithful boost serializer.value) :
    ∃ serializer deserializer,
      Serializer.new program isRequest uuid instanceId interfaceId methodId params =
        .ok serializer ∧
      Deserializer.new boost (serializer.getBuffer boost) = .ok deserializer ∧
      deserializer.Receives isRequest uuid instanceId interfaceId methodId ∧
      deserializer.getParamsIfExists program types = .ok (.tuple params) := by
  obtain ⟨serializer, built⟩ := exists_new restored
  refine ⟨serializer, ⟨reparsedMembers serializer.value⟩, built, ?_, ?_, ?_⟩
  · exact new_getBuffer (faithful serializer built)
  · exact receives_of_sends (sends_new built) whole
  · exact getParams_new restored built

/-- An exception arrives with its message, under the header of the call. -/
theorem exception_received {boost : BoostJson (List Symbol)} {exception : Exception}
    (sends : serializer.Sends (Serializer.header isRequest uuid instanceId interfaceId methodId))
    (whole : ∀ text ∈ [uuid, instanceId, interfaceId, methodId], '\x00' ∉ text.toList)
    (message : '\x00' ∉ exception.message.toList)
    (faithful : Faithful boost (serializer.putException exception).value) :
    ∃ deserializer,
      Deserializer.new boost ((serializer.putException exception).getBuffer boost) =
        .ok deserializer ∧
      deserializer.Receives isRequest uuid instanceId interfaceId methodId ∧
      deserializer.getException = some (.exception exception.message) := by
  have kept : (serializer.putException exception).Sends
      (Serializer.header isRequest uuid instanceId interfaceId methodId) :=
    sends_replaced sends (Or.inr rfl)
  have found : find Tag.exception
      (reparsedMembers (serializer.putException exception).value) =
        some (.string exception.message) := by
    rw [Mif.Serialization.Json.find_reparsedMembers, Serializer.putException, find_replaced,
      if_pos rfl]
    rfl
  refine ⟨_, new_getBuffer faithful, receives_of_sends kept whole, ?_⟩
  unfold Deserializer.getException Deserializer.hasException
  rw [found, Option.isSome_some, if_pos rfl, stringAt_of_find found message]

end

end Mif.Remote.Serialization.Json
