import Mathlib.Data.List.Basic
import Mathlib.Data.List.Infix
import Mif.Lib.Assoc
import Mif.Lib.EvalOrder
import Mif.Lib.SortedMap
import Mif.Common.Crc32
import Mif.Common.Fault
import Mif.Net.HttpUrl
import Mif.Net.HttpInputPack
import Mif.Net.HttpNames
import Mif.Net.HttpParam
import Mif.Net.HttpRouting
import Mif.Net.WebService
import Mif.Net.WebServiceHandler

set_option autoImplicit false

/- A method of a web service that is called over HTTP: what a client writes into the target of
a request is what the method gets. -/
namespace Mif.Net.Http.WebService

open Mif.Common (crc32str)
open Utility (decodeUrl CType Target)
open Session (Params Chosen Fits pathOf Passes handleRequest)

/-- What a client asks for: a resource with named parameters, and a message around it. -/
structure Call where
  path : Buffer
  items : List (Buffer × Buffer)
  fields : List (Buffer × Buffer)
  data : Buffer

namespace Call

/-- The target of the request. -/
def target (ctype : CType) (call : Call) : Buffer :=
  call.path ++ '?'.toUInt8 :: ['&'.toUInt8].intercalate (call.items.map (QueryOf.encoded ctype))

/-- The target behind its escapes. -/
def url (call : Call) : Buffer := call.path ++ '?'.toUInt8 :: QueryOf.query call.items

/-- What the constructor of `InputPack` makes of the target. -/
def input (call : Call) : InputPack :=
  ⟨⟨call.path, (QueryOf.query call.items).dropWhile Target.splits⟩⟩

def received (call : Call) : Received := ⟨call.input, call.fields, call.data⟩

/-- The path is written as it is, the parameters survive, and the server takes the target for
one that stays below its root. -/
structure Sound (call : Call) : Prop where
  rooted : call.path.head? = some '/'.toUInt8
  unescaped : ∀ byte ∈ call.path, byte ≠ '%'.toUInt8 ∧ byte ≠ '+'.toUInt8
  whole : ∀ byte ∈ call.path, Target.endsPath byte = false ∧ Target.endsLine byte = false
  distinct : (call.items.map Prod.fst).Nodup
  harmless : Harmless call.items
  inside : ¬ ['.'.toUInt8, '.'.toUInt8] <:+: call.url

theorem decodeUrl_path {path : Buffer}
    (unescaped : ∀ byte ∈ path, byte ≠ '%'.toUInt8 ∧ byte ≠ '+'.toUInt8) (rest : Buffer) :
    decodeUrl (path ++ rest) = (decodeUrl rest).map (path ++ ·) := by
  induction path with
  | nil =>
      rw [List.nil_append]
      cases decodeUrl rest <;> rfl
  | cons byte path ih =>
      rw [List.forall_mem_cons] at unescaped
      rw [List.cons_append, Utility.decodeUrl_plain unescaped.1.1 unescaped.1.2, ih unescaped.2]
      cases decodeUrl rest <;> rfl

section

variable {call : Call} (sound : call.Sound)
include sound

theorem decodeUrl_target (ctype : CType) : decodeUrl (call.target ctype) = .ok call.url := by
  have mark : '?'.toUInt8 ≠ '%'.toUInt8 ∧ '?'.toUInt8 ≠ '+'.toUInt8 := by decide
  rw [target, decodeUrl_path sound.unescaped, Utility.decodeUrl_plain mark.1 mark.2,
    QueryOf.decodeUrl_query]
  rfl

/-- No line ends in the target. -/
theorem url_whole : call.url.any Target.endsLine = false := by
  have items : (QueryOf.query call.items).any Target.endsLine = false := by
    rw [QueryOf.any_query (by decide) (by decide)]
    intro item member
    have plain := sound.harmless.plain item member
    simp only [List.any_eq_false, reserved, Bool.or_eq_true, not_or] at plain ⊢
    exact ⟨fun byte inside => (plain.1 byte inside).2, fun byte inside => (plain.2 byte inside).2⟩
  have path : call.path.any Target.endsLine = false := by
    rw [List.any_eq_false]
    intro byte member
    simp [(sound.whole byte member).2]
  rw [url, List.any_append, path, List.any_cons, items]
  rfl

theorem not_endsPath : ∀ byte ∈ call.path, (!Target.endsPath byte) = true := by
  intro byte member
  simp [(sound.whole byte member).1]

theorem pathOf_url : pathOf call.url = call.path := by
  have stops : (!Target.endsPath '?'.toUInt8) = false := by decide
  rw [pathOf, url, List.takeWhile_append_of_pos (not_endsPath sound), List.takeWhile_cons, stops]
  simp

/-- The input pack that the server makes of the request. -/
theorem new_target (ctype : CType) : InputPack.new (call.target ctype) = .ok call.input := by
  have rooted : call.url.head? = some '/'.toUInt8 := by
    rw [url, List.head?_append, sound.rooted]
    rfl
  have stops : (!Target.endsPath '?'.toUInt8) = false := by decide
  have splits : Target.splits '?'.toUInt8 = true := by decide
  have behind : (call.url.dropWhile fun byte => !Target.endsPath byte).dropWhile Target.splits =
      (QueryOf.query call.items).dropWhile Target.splits := by
    rw [url, List.dropWhile_append_of_pos (not_endsPath sound), List.dropWhile_cons, stops,
      if_neg Bool.false_ne_true, List.dropWhile_cons, splits, if_pos rfl]
  have parts : Target.new call.url = .ok call.input.target := by
    rw [Target.new, if_pos ⟨rooted, url_whole sound⟩]
    change Except.ok (⟨pathOf call.url, (call.url.dropWhile fun byte =>
      !Target.endsPath byte).dropWhile Target.splits⟩ : Target) = _
    rw [behind, pathOf_url sound]
    rfl
  rw [InputPack.new, decodeUrl_target sound]
  change (Target.new call.url).bind _ = _
  rw [parts]
  rfl

theorem lookup_getParams (key : Buffer) :
    call.input.getParams.lookup key = call.items.lookup key := by
  have distinct := sound.distinct
  have harmless := sound.harmless
  unfold input
  cases items : call.items with
  | nil => rfl
  | cons item rest =>
      rw [items] at distinct harmless
      have kept : item.1.dropWhile Target.splits = item.1 := by
        cases start : item.1 with
        | nil => rfl
        | cons byte tail =>
            have stops := harmless.first item rfl byte (by rw [start]; rfl)
            rw [List.dropWhile_cons, stops, if_neg Bool.false_ne_true]
      rw [QueryOf.lookup_getParams, kept]
      exact Assoc.lookup_eq_of_mem_iff distinct
        (QueryOf.mem_entries (List.cons_ne_nil _ _) harmless.plain) key

/-- The parameters that the server reads are the map that the client wrote. -/
theorem getParams_received : call.received.getParams = SortedMap.ofList call.items := by
  have distinct : (call.input.getParams.map Prod.fst).Nodup := by
    unfold InputPack.getParams InputPack.parse
    split
    · exact List.nodup_nil
    · exact Assoc.keys_insertAll List.nodup_nil
  exact SortedMap.ofList_eq distinct sound.distinct (lookup_getParams sound)

theorem passes {params : Params (Answer Response)} {verb : Verb} (ctype : CType)
    (allowed : ∃ method ∈ params.allowedMethods,
      Utility.convertMethodType verb = .ok method) :
    Passes params ⟨verb, call.target ctype⟩ call.url where
  decoded := decodeUrl_target sound ctype
  rooted := by
    rw [url, List.head?_append, sound.rooted]
    rfl
  inside := sound.inside
  allowed := allowed

end

end Call

/- The parameters of a method, bound by their names. -/
namespace Argument

/-- What the parameter gets when a `Prm` is bound by its name. -/
def byName (received : Received) (parameters headerMap : List (Buffer × Buffer))
    (data : Buffer) : (argument : Argument) → Outcome argument.Value
  | prm literal _ convert =>
      match parameters.lookup literal.text with
      | some value => Prm.new convert literal.text value
      | none => .ok ⟨[], none⟩
  | argument => argument.getPrm received parameters headerMap data

/-- No other parameter of the request has the checksum of the name. -/
def Apart (items : List (Buffer × Buffer)) : Argument → Prop
  | prm literal _ _ =>
      ∀ item ∈ items, crc32str item.1 = crc32str literal.text → item.1 = literal.text
  | _ => True

theorem Apart.sorted {argument : Argument} {items : List (Buffer × Buffer)}
    (apart : argument.Apart items) : argument.Apart (SortedMap.ofList items) := by
  cases argument with
  | prm literal α convert => exact fun item member => apart item (SortedMap.mem_ofList.mp member)
  | paramPack size order fields => trivial
  | params => trivial
  | headers => trivial
  | request => trivial
  | response => trivial
  | content α convert => trivial

theorem getPrm_eq_byName {argument : Argument} {parameters : List (Buffer × Buffer)}
    (apart : argument.Apart parameters) (received : Received)
    (headerMap : List (Buffer × Buffer)) (data : Buffer) :
    argument.getPrm received parameters headerMap data =
      argument.byName received parameters headerMap data := by
  cases argument with
  | prm literal α convert =>
      rw [getPrm, byName, Http.getPrm, name_eq]
      cases found : parameters.find? fun param => crc32str param.1 = crc32str literal.text with
      | none =>
          rw [lookup_of_find_none found]
          rfl
      | some param =>
          obtain ⟨key, value⟩ := param
          have sum : crc32str key = crc32str literal.text := by
            simpa using List.find?_some found
          have own : key = literal.text := apart _ (List.mem_of_find?_eq_some found) sum
          subst own
          rw [lookup_of_find_some found]
  | paramPack size order fields => rfl
  | params => rfl
  | headers => rfl
  | request => rfl
  | response => rfl
  | content α convert => rfl

end Argument

/-- The call of the method by a client in the same program: the parameters get what the client
has under their names. -/
def Method.direct (method : Method) (call : Call) : Except Raised Response :=
  method.call (fun index => (method.args index).byName call.received
    (SortedMap.ofList call.items) call.received.getHeaders call.data) .new

/-- The answer for what came of a handler. -/
def answered : Except Raised Response → Answer Response
  | .ok response => .response response
  | .error raised => caught raised

/-- The request of the call runs the method as the direct call does. -/
theorem handler_eq_direct {method : Method} {call : Call} (sound : call.Sound)
    (apart : ∀ index, (method.args index).Apart call.items) :
    method.handler call.fields call.data call.input = method.direct call := by
  have same : call.received.getParams = SortedMap.ofList call.items :=
    Call.getParams_received sound
  have bound : (fun index => (method.args index).getPrm call.received call.received.getParams
      call.received.getHeaders call.received.data) =
      fun index => (method.args index).byName call.received (SortedMap.ofList call.items)
        call.received.getHeaders call.data := by
    funext index
    rw [same]
    exact Argument.getPrm_eq_byName (apart index).sorted _ _ _
  change method.call _ Response.new = _
  rw [Method.direct, ← bound]
  rfl

/- Which of the resources of a service gets the call. -/
section

variable {Out : Type}

theorem mem_find {table : List (Buffer × Handler Out)} {resource : Buffer}
    {item : Buffer × Handler Out} (found : find table resource = some item) :
    table.lookup item.1 = some item.2 := by
  obtain ⟨handler, lookup, same⟩ := Option.map_eq_some_iff.mp found
  cases same
  exact lookup

/-- The loop ends with an item of the table when it begins with one. -/
theorem foldl_compared_known {table : List (Buffer × Handler Out)} (path : Buffer)
    (list : List Buffer) {state : Option (Buffer × Handler Out) × Nat}
    (known : ∀ item, state.1 = some item → table.lookup item.1 = some item.2)
    {item : Buffer × Handler Out}
    (last : (list.foldl (compared table path) state).1 = some item) :
    table.lookup item.1 = some item.2 := by
  induction list generalizing state with
  | nil => exact known item last
  | cons resource rest ih =>
      apply ih _ last
      intro other taken
      unfold compared at taken
      split at taken
      · split at taken
        · split at taken
          · rename_i found
            cases taken
            exact mem_find found
          · cases taken
        · exact known other taken
      · exact known other taken

theorem lookup_of_select {table : List (Buffer × Handler Out)} {path resource : Buffer}
    {handler : Handler Out} (selected : select table path = some (resource, handler)) :
    table.lookup resource = some handler := by
  unfold select at selected
  split at selected
  · rename_i item found
    rw [selected] at found
    exact mem_find found
  · apply foldl_compared_known path (paths table) _ selected
    intro item impossible
    cases impossible

end

section

variable {added : List (Buffer × Method)} {fields : List (Buffer × Buffer)} {data : Buffer}

/-- The resource is the path itself, or failing it the one that leads. -/
def Selected (offer : List (Buffer × Handler Response)) (path resource : Buffer) : Prop :=
  (Added offer path ∧ resource = path) ∨ (¬ Added offer path ∧ Leads offer path resource)

theorem lookup_offered (resource : Buffer) :
    (handlers (offered added fields data)).lookup resource =
      (added.lookup resource).map fun method => method.handler fields data := by
  rw [handlers, Assoc.lookup_insertAll, List.lookup_nil, Option.none_or, offered]
  induction added with
  | nil => rfl
  | cons item rest ih =>
      rw [List.map_cons, List.lookup_cons, List.lookup_cons]
      cases resource == item.1 with
      | true => rfl
      | false => exact ih

/-- The selected resource answers with its method. -/
theorem onRequest_selected {input : InputPack} {resource : Buffer} {method : Method}
    (selected : Selected (offered added fields data) input.getPath resource)
    (found : added.lookup resource = some method) :
    (onRequest (handlers (offered added fields data)) input).answer =
      answered (method.handler fields data input) := by
  have chosen : select (handlers (offered added fields data)) input.getPath =
      some (resource, method.handler fields data) := by
    have known : (handlers (offered added fields data)).lookup resource =
        some (method.handler fields data) := by
      rw [lookup_offered, found]
      rfl
    rcases select_spec (offered added fields data) input.getPath with ⟨handler, own, present⟩ |
      ⟨absent, ⟨other, handler, leading, leads⟩ | ⟨_, low⟩⟩
    · rcases selected with ⟨_, same⟩ | ⟨missing, _⟩
      · subst same
        rw [own, Option.some.inj ((lookup_of_select own).symm.trans known)]
      · exact absurd present missing
    · rcases selected with ⟨present, _⟩ | ⟨_, leader⟩
      · exact absurd present absent
      · have same := leads_unique leads leader
        subst same
        rw [leading, Option.some.inj ((lookup_of_select leading).symm.trans known)]
    · rcases selected with ⟨present, _⟩ | ⟨_, leader⟩
      · exact absurd present absent
      · have slashed := leader.slashed
        rw [low resource leader.registered leader.occurs] at slashed
        cases slashed
  rw [onRequest, chosen]
  dsimp only
  cases method.handler fields data input with
  | ok response => rfl
  | error raised => rfl

end

/-- The server hands the call to the service that is mounted at the key. -/
theorem handleRequest_mounted {params : Params (Answer Response)} {verb : Verb} (ctype : CType)
    {call : Call} {added : List (Buffer × Method)} {key : Buffer} (sound : call.Sound)
    (allowed : ∃ type ∈ params.allowedMethods, Utility.convertMethodType verb = .ok type)
    (chosen : Chosen params.handlers (Fits call.path) key)
    (mounted : params.handlers.lookup key =
      some (makeWebService added call.fields call.data)) :
    handleRequest params ⟨verb, call.target ctype⟩ = ⟨[key],
      .reply (onRequest (handlers (offered added call.fields call.data)) call.input).answer⟩ := by
  have passes : Passes params ⟨verb, call.target ctype⟩ call.url :=
    Call.passes sound ctype allowed
  have filled : params.handlers ≠ [] := by
    intro empty
    rw [empty] at mounted
    cases mounted
  have rooted : call.input.getPath.head? = some '/'.toUInt8 := sound.rooted
  have routed := (Session.route_routes params.handlers call.input rooted).found key _ chosen mounted
  rw [Session.handleRequest_route passes filled (Call.new_target sound ctype), routed]
  rfl

/-- A call of a method over HTTP is the direct call of it: the method is called with what the
client has under the names of its parameters, once, and the client gets its response, or the
answer for the exception of the call. -/
theorem called_over_http (params : Params (Answer Response)) (verb : Verb) (ctype : CType)
    (call : Call) (added : List (Buffer × Method)) (key resource : Buffer) (method : Method)
    (sound : call.Sound)
    (allowed : ∃ type ∈ params.allowedMethods, Utility.convertMethodType verb = .ok type)
    (chosen : Chosen params.handlers (Fits call.path) key)
    (mounted : params.handlers.lookup key = some (makeWebService added call.fields call.data))
    (selected : Selected (offered added call.fields call.data) call.path resource)
    (found : added.lookup resource = some method)
    (apart : ∀ index, (method.args index).Apart call.items) :
    handleRequest params ⟨verb, call.target ctype⟩ =
      ⟨[key], .reply (answered (method.direct call))⟩ := by
  have answer : (onRequest (handlers (offered added call.fields call.data)) call.input).answer =
      answered (method.handler call.fields call.data call.input) :=
    onRequest_selected selected found
  rw [handler_eq_direct sound apart] at answer
  rw [handleRequest_mounted ctype sound allowed chosen mounted, answer]

/-- A server with one handler chooses it for what fits. -/
theorem chosen_single {path key : Buffer} (handler : ServerHandler (Answer Response))
    (fits : Fits path key) : Chosen [(key, handler)] (Fits path) key := by
  have own : ([(key, handler)] : List (Buffer × _)).lookup key = some handler :=
    List.lookup_cons_self
  refine ⟨⟨handler, own⟩, Or.inl ⟨fits, ?_⟩⟩
  intro other registered _
  obtain ⟨found, lookup⟩ := registered
  have member := Assoc.mem_of_lookup lookup
  have same : other = key := (Prod.mk.inj (List.mem_singleton.mp member)).1
  rw [same]

/-- A service with one resource selects it for the paths in which it occurs. -/
theorem selected_single {path resource : Buffer} (method : Method)
    (fields : List (Buffer × Buffer)) (data : Buffer) (occurs : resource <:+: path)
    (slashed : 0 < slashes resource) :
    Selected (offered [(resource, method)] fields data) path resource := by
  have only : ∀ other, Added (offered [(resource, method)] fields data) other →
      other = resource := fun other member => List.mem_singleton.mp member
  by_cases own : Added (offered [(resource, method)] fields data) path
  · exact Or.inl ⟨own, (only path own).symm⟩
  · refine Or.inr ⟨own, ?_⟩
    constructor
    · exact List.mem_singleton_self _
    · exact occurs
    · exact slashed
    · intro other member _
      rw [only other member]
    · intro other member _ _
      rw [only other member]
      exact List.le_refl _

/-- A page for the parameter `format`, which has to be there. -/
def mainPage : Method where
  count := 1
  args _ := .prm ⟨text "format", by decide⟩ Buffer Param.convertString
  order := .leftToRight 1
  raised _ := .standard ""
  invoke values response :=
    match (values 0 : Prm Buffer).value with
    | none => .error (.invalidArgument "No 'format'")
    | some format =>
        .ok (response, some (.new id (text "Title") (text "text/" ++ format)))

/-- The request `/site/main-page?format=%3Ctext%3E`, with the service at `/site`. -/
def pageCall : Call := ⟨text "/site/main-page", [(text "format", text "<text>")], [], []⟩

def siteParams : Params (Answer Response) :=
  ⟨[.get], [(text "/site", makeWebService [(text "/main-page", mainPage)] [] [])]⟩

theorem page_over_http :
    handleRequest siteParams ⟨.get, pageCall.target .posix⟩ =
      ⟨[text "/site"], .reply (.response ⟨200, [], [(text "Content-Type", text "text/<text>")],
        some (text "Title")⟩)⟩ := by
  have sound : pageCall.Sound := by
    constructor
    · decide
    · decide +kernel
    · decide +kernel
    · decide
    · constructor
      · decide +kernel
      · decide +kernel
    · decide +kernel
  have page : answered (mainPage.direct pageCall) = .response
      ⟨200, [], [(text "Content-Type", text "text/<text>")], some (text "Title")⟩ := by
    decide +kernel
  have chosen : Chosen siteParams.handlers (Fits pageCall.path) (text "/site") :=
    chosen_single _ (Or.inr ⟨by decide, by decide⟩)
  have selected : Selected (offered [(text "/main-page", mainPage)] [] []) pageCall.path
      (text "/main-page") := selected_single mainPage [] [] (by decide) (by decide)
  have apart : ∀ index, (mainPage.args index).Apart pageCall.items := by
    intro index item member _
    rw [List.mem_singleton.mp member]
  have called := called_over_http siteParams .get .posix pageCall _ (text "/site")
    (text "/main-page") mainPage sound ⟨.get, by decide, rfl⟩ chosen rfl selected rfl apart
  rw [page] at called
  exact called

end Mif.Net.Http.WebService
