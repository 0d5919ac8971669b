import Mif.Lib.EvalOrder
import Mif.Common.Fault
import Mif.Reflection.Schema
import Mif.Serialization.JsonValue
import Mif.Remote.Serialization.Tag
import Mif.Remote.Serialization.Boost
import Mif.Remote.Serialization.Json

set_option autoImplicit false

/- The template parameter `TSerializer` of the remote calls, and the two families of
serializers that are written for it. -/
namespace Mif.Remote

open Mif.Remote.Serialization (Exception Tag.request Tag.response)

/-- `TSerializer`: a serializer and a deserializer, as the proxies, the stubs and
`PSClient` use them. -/
structure TSerializer where
  Symbol : Type
  Serializer : Type
  Deserializer : Type
  /-- The types of a list of parameters. -/
  Types : Type
  /-- A list of parameters. -/
  Params : Type
  /-- The constructor for a request with its parameters: uuid, instance, interface, method. -/
  request : String → String → String → String → Params → Outcome Serializer
  /-- The constructor for a response, which has no parameters yet. -/
  response : String → String → String → String → Serializer
  /-- What is left of the serializer when `PutParams` throws is there as well. -/
  putParams : Serializer → Params → Serializer × Outcome Unit
  putException : Serializer → Exception → Serializer
  getBuffer : Serializer → Outcome (List Symbol)
  /-- The constructor of the deserializer. -/
  deserializer : List Symbol → Outcome Deserializer
  getUuid : Deserializer → Outcome String
  getType : Deserializer → Outcome String
  getInstance : Deserializer → Outcome String
  getInterface : Deserializer → Outcome String
  getMethod : Deserializer → Outcome String
  getParams : Deserializer → Types → Outcome Params
  /-- `HasException` and `GetException` -/
  getException : Deserializer → Option Fault

/-- `IsResponse` -/
def TSerializer.isResponse (api : TSerializer) (message : api.Deserializer) : Outcome Bool :=
  (api.getType message).map fun type => type = Tag.response

namespace Serialization

/-- The serializers over the archives of Boost. -/
def Boost.format {Other : Type} {Val : Other → Type} (archive : Archive Val)
    (order : (n : Nat) → EvalOrder n) : TSerializer where
  Symbol := archive.Symbol
  Serializer := (n : Nat) × Serializer Val n
  Deserializer := Deserializer archive
  Types := List (Ty Other)
  Params := List (Param Val)
  request uuid instanceId interfaceId methodId params :=
    .ok ⟨params.length, .new true uuid instanceId interfaceId methodId params.get⟩
  response uuid instanceId interfaceId methodId :=
    ⟨0, .new false uuid instanceId interfaceId methodId Fin.elim0⟩
  putParams serializer params := (⟨params.length, serializer.2.putParams params.get⟩, .ok ())
  putException serializer exception :=
    ⟨serializer.1, serializer.2.putException (some exception)⟩
  getBuffer serializer := .ok (serializer.2.getBuffer archive (order serializer.1))
  deserializer := Deserializer.new archive
  getUuid message := .ok message.uuid
  getType message := .ok message.type
  getInstance message := .ok message.inst
  getInterface message := .ok message.interface
  getMethod message := .ok message.method
  getParams message types := message.getParams types
  getException message := message.exception.map Fault.exception

open Mif.Reflection in
/-- The serializer that writes JSON. -/
def Json.format {schema : Schema} (program : Program schema) {Symbol : Type}
    (boost : Mif.Serialization.BoostJson (List Symbol)) : TSerializer where
  Symbol := Symbol
  Serializer := Serializer
  Deserializer := Deserializer
  Types := (n : Nat) × (Fin n → Ty)
  Params := (n : Nat) × (types : Fin n → Ty) × (∀ index, Val schema (types index))
  request uuid instanceId interfaceId methodId params :=
    Serializer.new program true uuid instanceId interfaceId methodId params.2.2
  response uuid instanceId interfaceId methodId :=
    ⟨Mif.Serialization.ValueToJson.assignAll
      (Serializer.header false uuid instanceId interfaceId methodId)⟩
  putParams serializer params :=
    match serializer.putParams program params.2.2 with
    | .ok packed => (packed, .ok ())
    | .error fault => (⟨erase Tag.param serializer.value⟩, .error fault)
  putException := Serializer.putException
  getBuffer serializer := .ok (serializer.getBuffer boost)
  deserializer := Deserializer.new boost
  getUuid := Deserializer.getUuid
  getType := Deserializer.getType
  getInstance := Deserializer.getInstance
  getInterface := Deserializer.getInterface
  getMethod := Deserializer.getMethod
  getParams message types := do
    match types with
    | ⟨n, types⟩ =>
        match ← message.getParamsIfExists program types with
        | .tuple values => return ⟨n, types, values⟩
  getException := Deserializer.getException

end Serialization

end Mif.Remote
