import Mathlib.Data.List.Basic
import Mif.Common.Fault
import Mif.Lib.EvalOrder
import Mif.Reflection.Schema
import Mif.Serialization.JsonValue
import Mif.Serialization.JsonEncode
import Mif.Serialization.JsonRoundTrip
import Mif.Net.HttpUrl
import Mif.Net.HttpRouting
import Mif.Net.WebService
import Mif.Net.WebServiceHandler
import Mif.Net.WebServiceCall

set_option autoImplicit false

/- Methods of a web service that take JSON as their content and return JSON. -/
namespace Mif.Net.Http.WebService

open Mif.Reflection
open Mif.Serialization (BoostJson Restored valueToJson document serialize deserialize
  deserialize_of_serialize pointSchema pointOf pointProgram restored_point)
open Utility (CType)
open Session (Params Chosen Fits handleRequest)

variable {schema : Schema} (program : Program schema) (boost : BoostJson Buffer)

/-- `Converter::Content::Json` -/
def convertJson (type : Ty) (buffer : Buffer) : Outcome (Val schema type) :=
  if buffer.isEmpty then
    throwing "[Mif::Net::Http::Converter::Content::Json] No content."
  else deserialize program boost type buffer ""

/-- `Serializer::Json::GetContentType` -/
def jsonContentType : Buffer := text "application/json; charset=UTF-8"

/-- A method with a `Content<T, Converter::Content::Json>` and a `Result<Serializer::Json>`. It
gets the content and runs on it. -/
def jsonMethod (argument result : Ty) (raised : Fault → Raised)
    (run : Val schema argument → Except Raised (Val schema result)) : Method where
  count := 1
  args _ := .content (Val schema argument) (convertJson program boost argument)
  order := .leftToRight 1
  raised := raised
  invoke values response := do
    let value ← (Content.get (values ⟨0, Nat.zero_lt_one⟩)).mapError raised
    let returned ← run value
    let written ← (serialize program boost returned "").mapError raised
    return (response, some (Result.new id written jsonContentType))

/-- A value whose text is read back. -/
structure Carried {type : Ty} (value : Val schema type) : Prop where
  restored : Restored program value
  undone : ∀ json, valueToJson program value = .ok json →
    boost.parse (boost.write (document type "" json)) = .ok (document type "" json).reparsed

variable {program boost}

theorem Carried.text {type : Ty} {value : Val schema type}
    (carried : Carried program boost value) :
    ∃ written, serialize program boost value "" = .ok written ∧
      deserialize program boost type written "" = .ok value :=
  (deserialize_of_serialize carried.undone value).mpr carried.restored.readAs

/-- The response with a result. -/
def jsonResponse (written : Buffer) : Response :=
  ⟨200, [], [(Result.contentType, jsonContentType)], some written⟩

section

variable {argument result : Ty} {raised : Fault → Raised}
  {run : Val schema argument → Except Raised (Val schema result)} {call : Call}
  {value : Val schema argument}

/-- The content arrives as the value that it was made of. -/
theorem content_read (nothing : ∀ json, boost.parse [] ≠ .ok json)
    (read : deserialize program boost argument call.data "" = .ok value) :
    Content.new (convertJson program boost argument) call.data = .ok ⟨some value⟩ := by
  have filled : call.data.isEmpty = false := by
    rw [List.isEmpty_eq_false_iff]
    intro empty
    rw [empty] at read
    obtain ⟨json, parsed, _⟩ := bind_eq_ok.mp read
    exact nothing json parsed
  rw [Content.new, filled, if_neg Bool.false_ne_true, convertJson, filled,
    if_neg Bool.false_ne_true, read]
  rfl

/-- The method runs on the value, and its result is written. -/
theorem direct_jsonMethod (nothing : ∀ json, boost.parse [] ≠ .ok json)
    (read : deserialize program boost argument call.data "" = .ok value) :
    (jsonMethod program boost argument result raised run).direct call = (do
      let returned ← run value
      let written ← (serialize program boost returned "").mapError raised
      return jsonResponse written) := by
  have arguments : (EvalOrder.leftToRight 1).evaluate (fun _ =>
      Content.new (convertJson program boost argument) call.data) =
      .ok fun _ => (⟨some value⟩ : Content (Val schema argument)) := by
    rw [EvalOrder.evaluate_eq_ok]
    intro index
    exact content_read nothing read
  unfold Method.direct Method.call
  change (Except.mapError raised ((EvalOrder.leftToRight 1).evaluate fun _ =>
    Content.new (convertJson program boost argument) call.data) >>= _) = _
  rw [arguments]
  simp only [jsonMethod, Content.get, Except.mapError, bind, Except.bind]
  cases run value with
  | error reason => rfl
  | ok returned =>
      dsimp only
      cases serialize program boost returned "" with
      | error fault => rfl
      | ok written => rfl

end

/-- A method that is called over HTTP with a value as JSON runs on this value, and the text of
the response is read back as the result. An exception of the method is answered as such. -/
theorem json_called_over_http (params : Params (Answer Response)) (verb : Verb) (ctype : CType)
    (call : Call) (added : List (Buffer × Method)) (key resource : Buffer) {argument result : Ty}
    (raised : Fault → Raised) (run : Val schema argument → Except Raised (Val schema result))
    (value : Val schema argument) (sound : call.Sound)
    (allowed : ∃ type ∈ params.allowedMethods, Utility.convertMethodType verb = .ok type)
    (chosen : Chosen params.handlers (Fits call.path) key)
    (mounted : params.handlers.lookup key = some (makeWebService added call.fields call.data))
    (selected : Selected (offered added call.fields call.data) call.path resource)
    (found : added.lookup resource = some (jsonMethod program boost argument result raised run))
    (nothing : ∀ json, boost.parse [] ≠ .ok json)
    (carried : Carried program boost value)
    (posted : serialize program boost value "" = .ok call.data)
    (returns : ∀ returned, run value = .ok returned → Carried program boost returned) :
    match run value with
    | .ok returned =>
        ∃ written, handleRequest params ⟨verb, call.target ctype⟩ =
            ⟨[key], .reply (.response (jsonResponse written))⟩ ∧
          deserialize program boost result written "" = .ok returned
    | .error reason =>
        handleRequest params ⟨verb, call.target ctype⟩ = ⟨[key], .reply (caught reason)⟩ := by
  have apart : ∀ index, ((jsonMethod program boost argument result raised run).args index).Apart
      call.items := fun _ => trivial
  have read : deserialize program boost argument call.data "" = .ok value := by
    obtain ⟨written, same, read⟩ := carried.text
    rw [Except.ok.inj (posted.symm.trans same)]
    exact read
  have answer : (onRequest (handlers (offered added call.fields call.data)) call.input).answer =
      answered ((jsonMethod program boost argument result raised run).handler call.fields
        call.data call.input) := onRequest_selected selected found
  rw [handler_eq_direct sound apart, direct_jsonMethod nothing read] at answer
  rw [handleRequest_mounted ctype sound allowed chosen mounted, answer]
  cases ran : run value with
  | error reason => rfl
  | ok returned =>
      obtain ⟨written, same, back⟩ := (returns returned ran).text
      refine ⟨written, ?_, back⟩
      simp only [bind, Except.bind, same, Except.mapError]
      rfl

/-- The text of the point `(7, "x")`, and the library on it. -/
def pointBytes : Buffer := text Mif.Serialization.pointText

def pointBoost : BoostJson Buffer where
  write _ := pointBytes
  parse written :=
    if written = pointBytes then .ok (.object [("a", .int64 7), ("b", .string "x")])
    else throwing "syntax error"

def point : Val pointSchema (.struct 0) := pointOf 7 (.holds (.string "x")) 0

/-- A method that returns the point it gets. -/
def echo : Method :=
  jsonMethod pointProgram pointBoost (.struct 0) (.struct 0) (fun _ => .standard "") .ok

def echoCall : Call := ⟨text "/site/echo", [], [], pointBytes⟩

def echoParams : Params (Answer Response) :=
  ⟨[.post], [(text "/site", makeWebService [(text "/echo", echo)] [] pointBytes)]⟩

theorem point_over_http :
    ∃ written, handleRequest echoParams ⟨.post, echoCall.target .posix⟩ =
        ⟨[text "/site"], .reply (.response (jsonResponse written))⟩ ∧
      deserialize pointProgram pointBoost (.struct 0) written "" = .ok point := by
  have encoded : valueToJson pointProgram point =
      .ok (.object [("a", .uint64 7), ("b", .string "x")]) := rfl
  have carried : Carried pointProgram pointBoost point := by
    refine ⟨restored_point, fun json written => ?_⟩
    cases encoded.symm.trans written
    rfl
  have sound : echoCall.Sound := by
    constructor
    · decide
    · decide +kernel
    · decide +kernel
    · decide
    · constructor
      · decide +kernel
      · decide +kernel
    · decide +kernel
  have chosen : Chosen echoParams.handlers (Fits echoCall.path) (text "/site") :=
    chosen_single _ (Or.inr ⟨by decide, by decide⟩)
  have selected : Selected (offered [(text "/echo", echo)] [] pointBytes) echoCall.path
      (text "/echo") := selected_single echo [] pointBytes (by decide) (by decide)
  have nothing : ∀ json, pointBoost.parse [] ≠ .ok json := by
    intro json parsed
    cases parsed
  have returns : ∀ returned, (.ok point : Except Raised (Val pointSchema (.struct 0))) =
      .ok returned → Carried pointProgram pointBoost returned := by
    intro returned ran
    cases ran
    exact carried
  exact json_called_over_http echoParams .post .posix echoCall _ (text "/site") (text "/echo")
    (fun _ => .standard "") .ok point sound ⟨.post, by decide, rfl⟩ chosen rfl selected rfl
    nothing carried rfl returns

end Mif.Net.Http.WebService
