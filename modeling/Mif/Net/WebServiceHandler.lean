import Mathlib.Data.List.Basic
import Mif.Lib.Assoc
import Mif.Lib.EvalOrder
import Mif.Lib.SortedMap
import Mif.Common.Crc32
import Mif.Common.Fault
import Mif.Net.HttpInputPack
import Mif.Net.HttpNames
import Mif.Net.HttpParam
import Mif.Net.HttpRouting
import Mif.Net.WebService

set_option autoImplicit false

/- `WebServiceHandler`: a method of a web service, called with what its parameters ask of a
request. -/
namespace Mif.Net.Http.WebService

open Mif.Common (crc32str)

/-- The bytes of a text of the source. -/
def text (characters : String) : Buffer := characters.toList.map Char.toUInt8

/-- A request as `IInputPack` shows it. -/
structure Received where
  input : InputPack
  /-- The fields of the message, in their order. -/
  fields : List (Buffer × Buffer)
  data : Buffer

namespace Received

def getParams (request : Received) : List (Buffer × Buffer) :=
  SortedMap.ofList request.input.getParams

def getHeaders (request : Received) : List (Buffer × Buffer) :=
  SortedMap.ofList (Assoc.insertAll [] request.fields)

end Received

/-- A response as `IOutputPack` shows it. The status is the one that `ConvertCode` gives. -/
structure Response where
  status : Nat
  reason : Buffer
  fields : List (Buffer × Buffer)
  data : Option Buffer
  deriving DecidableEq, Repr

namespace Response

def new : Response := ⟨200, [], [], none⟩

def lower (byte : UInt8) : UInt8 :=
  if 'A'.toUInt8 ≤ byte ∧ byte ≤ 'Z'.toUInt8 then byte + 32 else byte

/-- `SetHeader`. A field takes the place of all of its name, in upper or lower case. -/
def setHeader (response : Response) (key value : Buffer) : Response :=
  { response with
    fields := response.fields.filter (fun field => field.1.map lower ≠ key.map lower) ++
      [(key, value)] }

def setData (response : Response) (data : Buffer) : Response := { response with data := some data }

end Response

/-- `Detail::Content` -/
structure Content (α : Type) where
  value : Option α

namespace Content

variable {α : Type}

/-- The constructor with the content of a request. -/
def new (convert : Buffer → Outcome α) (value : Buffer) : Outcome (Content α) :=
  if value.isEmpty then .ok ⟨none⟩ else (convert value).map fun converted => ⟨some converted⟩

def get (content : Content α) : Outcome α :=
  match content.value with
  | some value => .ok value
  | none => throwing "[Mif::Net::Http::WebService::Content] No content."

end Content

/-- `Detail::Result` -/
structure Result where
  value : Buffer
  headers : List (Buffer × Buffer)

namespace Result

/-- `Constants::Header::Response::ContentType` -/
def contentType : Buffer := text "Content-Type"

variable {α : Type}

/-- The constructor with data, for a `TSerializer`. -/
def new (serialize : α → Buffer) (data : α) (type : Buffer) : Result :=
  ⟨serialize data, [(contentType, type)]⟩

/-- What `ProcessRequest` does with the result of a method. -/
def put (result : Result) (response : Response) : Response :=
  (result.headers.foldl (fun response header => response.setHeader header.1 header.2)
    response).setData result.value

end Result

/-- A field of the structure of a `ParamPack`, with the conversion to its type. -/
inductive Field : Type 1
  | required (name : Buffer) (α : Type) (convert : Buffer → Outcome α)
  | optional (name : Buffer) (α : Type) (convert : Buffer → Outcome α)

namespace Field

def Value : Field → Type
  | required _ α _ => α
  | optional _ α _ => Option α

/-- `ParamPack::GetParam` -/
def getParam (params : List (Buffer × Buffer)) : (field : Field) → Outcome field.Value
  | required name _ convert => ParamPack.getParam convert name params
  | optional name _ convert => ParamPack.getOptionalParam convert name params

end Field

/-- The type of a parameter of a method. -/
inductive Argument : Type 1
  /-- `Prm<T, Name("n"), TConverter>` -/
  | prm (literal : Literal) (α : Type) (convert : Buffer → Outcome α)
  /-- `ParamPack<T, TConverter>`, whose fields are converted in some order. -/
  | paramPack (size : Nat) (order : EvalOrder size) (fields : Fin size → Field)
  | params
  | headers
  /-- `IInputPack const &` -/
  | request
  /-- `IOutputPack &` -/
  | response
  /-- `Content<T, TConverter>` -/
  | content (α : Type) (convert : Buffer → Outcome α)

namespace Argument

def Value : Argument → Type
  | prm _ α _ => Prm α
  | paramPack _ _ fields => ∀ index, (fields index).Value
  | params => List (Buffer × Buffer)
  | headers => List (Buffer × Buffer)
  | request => Received
  | response => Unit
  | content α _ => Content α

/-- `GetPrm`. The response itself is handed to the method. -/
def getPrm (received : Received) (parameters headerMap : List (Buffer × Buffer))
    (data : Buffer) : (argument : Argument) → Outcome argument.Value
  | prm literal _ convert => Http.getPrm crc32str (name literal) convert parameters
  | paramPack _ order fields => order.evaluate fun index => (fields index).getParam parameters
  | params => .ok parameters
  | headers => .ok headerMap
  | request => .ok received
  | response => .ok ()
  | content _ convert => Content.new convert data

end Argument

/-- A method with its object, in the state that the object has when it is called. -/
structure Method where
  count : Nat
  args : Fin count → Argument
  /-- The order in which the arguments of the call are evaluated. -/
  order : EvalOrder count
  /-- The class of an exception that a converter throws. -/
  raised : Fault → Raised
  /-- The method with the response that it may get, and what the `Result<>` of its return
  value is. -/
  invoke : (∀ index, (args index).Value) → Response → Except Raised (Response × Option Result)

namespace Method

/-- The call of the method with these arguments, and what becomes of its result. -/
def call (method : Method) (arguments : ∀ index, Outcome (method.args index).Value)
    (response : Response) : Except Raised Response := do
  let values ← (method.order.evaluate arguments).mapError method.raised
  let (response, returned) ← method.invoke values response
  match returned with
  | none => return response
  | some result => return result.put response

/-- `ProcessRequest`, for methods with and without a result. -/
def processRequest (method : Method) (request : Received) (response : Response) :
    Except Raised Response :=
  let params := request.getParams
  let headers := request.getHeaders
  let content := request.data
  method.call (fun index => (method.args index).getPrm request params headers content) response

/-- The handler of a request with these fields and this content. -/
def handler (method : Method) (fields : List (Buffer × Buffer)) (data : Buffer) :
    Handler Response :=
  fun input => method.processRequest ⟨input, fields, data⟩ .new

end Method

/-- What `AddHandler` is called with, for a request. -/
def offered (added : List (Buffer × Method)) (fields : List (Buffer × Buffer)) (data : Buffer) :
    List (Buffer × Handler Response) :=
  added.map fun item => (item.1, item.2.handler fields data)

/-- `MakeWebService` -/
def makeWebService (added : List (Buffer × Method)) (fields : List (Buffer × Buffer))
    (data : Buffer) : ServerHandler (Answer Response) :=
  fun input => .ok (onRequest (handlers (offered added fields data)) input).answer

end Mif.Net.Http.WebService
