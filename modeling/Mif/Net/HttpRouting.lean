import Mathlib.Data.List.Basic
import Mathlib.Data.List.Infix
import Mif.Lib.Assoc
import Mif.Net.HttpUrl
import Mif.Net.HttpInputPack

set_option autoImplicit false

/- `Session::HandleRequest`: which handler of the server gets a request. -/
namespace Mif.Net.Http

open Utility (decodeUrl Target)

/-- `boost::beast::http::verb`, as far as `ConvertMethodType` tells them apart. -/
inductive Verb
  | get | post | head | put | delete | options | trace | connect | patch | other
  deriving DecidableEq, Repr

/-- `Method::Type` -/
inductive Method
  | get | post | head | put | delete | options | trqce | connect | patch
  deriving DecidableEq, Repr

/-- `Utility::ConvertMethodType` -/
def Utility.convertMethodType : Verb → Outcome Method
  | .get => .ok .get
  | .post => .ok .post
  | .head => .ok .head
  | .put => .ok .put
  | .delete => .ok .delete
  | .options => .ok .options
  | .trace => .ok .trqce
  | .connect => .ok .connect
  | .patch => .ok .patch
  | .other => throwing ("[Mif::Net::Http::Detail::Utility::ConvertMethodType] " ++
      "Unknown method type.")

/-- `boost::beast::http::status` of an error that the session itself replies. -/
inductive Status
  | badRequest | methodNotAllowed | internalServerError
  deriving DecidableEq, Repr

/-- What the session posts: the response of a handler, or `ReplyError`. -/
inductive Answer (Out : Type)
  | reply (out : Out)
  | error (status : Status) (reason : String)
  deriving DecidableEq, Repr

/-- `ServerHandler`. It fills an `OutputPack` or throws. -/
abbrev ServerHandler (Out : Type) := InputPack → Outcome Out

namespace Session

/-- The members of `Session::Params` that `HandleRequest` reads. -/
structure Params (Out : Type) where
  allowedMethods : List Method
  /-- `ServerHandlers`, by resource. -/
  handlers : List (Buffer × ServerHandler Out)

structure Request where
  method : Verb
  target : Buffer
  deriving DecidableEq, Repr

/-- The resources whose handlers were called, and what is posted. -/
structure Handled (Out : Type) where
  invoked : List Buffer
  answer : Answer Out
  deriving DecidableEq, Repr

/-- `std::string::find_last_of` for one character. -/
def findLastOf (byte : UInt8) : Buffer → Option Nat
  | [] => none
  | first :: rest =>
      match findLastOf byte rest with
      | some position => some (position + 1)
      | none => if first = byte then some 0 else none

theorem findLastOf_lt {byte : UInt8} {url : Buffer} {position : Nat}
    (found : findLastOf byte url = some position) : position < url.length := by
  induction url generalizing position with
  | nil => cases found
  | cons first rest ih =>
      unfold findLastOf at found
      split at found
      · rename_i inside behind
        cases found
        exact Nat.succ_lt_succ (ih behind)
      · split at found
        · cases found
          exact Nat.zero_lt_succ _
        · cases found

variable {Out : Type}

/-- The lambda `process`: the handler of this resource, if there is one. -/
def process (handlers : List (Buffer × ServerHandler Out)) (input : InputPack) (path : Buffer) :
    List Buffer × Option (Outcome Out) :=
  match handlers.lookup path with
  | some handler => ([path], some (handler input))
  | none => ([], none)

/-- The loop of `HandleRequest`, which cuts the url at its last slash. -/
def cutting (handlers : List (Buffer × ServerHandler Out)) (input : InputPack) (url : Buffer) :
    List Buffer × Option (Outcome Out) :=
  match _ : findLastOf '/'.toUInt8 url with
  | none => ([], none)
  | some position =>
      let cut := url.take position
      let path := if cut.isEmpty then ['/'.toUInt8] else cut
      match process handlers input path with
      | (calls, some result) => (calls, some result)
      | (calls, none) =>
          let later := cutting handlers input cut
          (calls ++ later.1, later.2)
  termination_by url.length
  decreasing_by
    have shorter := findLastOf_lt ‹findLastOf '/'.toUInt8 url = some _›
    rw [List.length_take]
    omega

/-- The url that the loop begins with. -/
def extended (path : Buffer) : Buffer :=
  if path.isEmpty = false ∧ path.getLast? ≠ some '/'.toUInt8 then path ++ ['/'.toUInt8] else path

/-- The search for a handler. -/
def route (handlers : List (Buffer × ServerHandler Out)) (input : InputPack) :
    List Buffer × Option (Outcome Out) :=
  match process handlers input input.getPath with
  | (calls, some result) => (calls, some result)
  | (calls, none) =>
      let later := cutting handlers input (extended input.getPath)
      (calls ++ later.1, later.2)

/-- The target begins with a slash and does not leave the root. -/
def goodPath (path : Buffer) : Bool :=
  path.head? = some '/'.toUInt8 && !decide (['.'.toUInt8, '.'.toUInt8] <:+: path)

/-- What follows the `catch`. -/
def internalError (invoked : List Buffer) : Handled Out :=
  ⟨invoked, .error .internalServerError "An internal error has occurred."⟩

/-- `Session::HandleRequest` -/
def handleRequest (params : Params Out) (request : Request) : Handled Out :=
  match decodeUrl request.target with
  | .error _ => internalError []
  | .ok path =>
      if goodPath path = false then ⟨[], .error .badRequest "Bad path."⟩
      else
        match Utility.convertMethodType request.method with
        | .error _ => internalError []
        | .ok method =>
            if method ∉ params.allowedMethods then
              ⟨[], .error .methodNotAllowed "The method is not allowed."⟩
            else if params.handlers.isEmpty then
              ⟨[], .error .methodNotAllowed "There is no any method for handling the request."⟩
            else
              match InputPack.new request.target with
              | .error _ => internalError []
              | .ok input =>
                  match route params.handlers input with
                  | (calls, some (.ok out)) => ⟨calls, .reply out⟩
                  | (calls, some (.error _)) => internalError calls
                  | (calls, none) =>
                      ⟨calls, .error .methodNotAllowed
                        "Handler for the request processing was not found."⟩

theorem findLastOf_eq_none {byte : UInt8} {url : Buffer} (absent : byte ∉ url) :
    findLastOf byte url = none := by
  induction url with
  | nil => rfl
  | cons first rest ih =>
      have parts : byte ≠ first ∧ byte ∉ rest := by simpa using absent
      rw [findLastOf, ih parts.2, if_neg (Ne.symm parts.1)]

theorem findLastOf_append {byte : UInt8} (before : Buffer) {after : Buffer}
    (last : byte ∉ after) : findLastOf byte (before ++ byte :: after) = some before.length := by
  induction before with
  | nil =>
      rw [List.nil_append, findLastOf, findLastOf_eq_none last, if_pos rfl]
      rfl
  | cons first rest ih =>
      rw [List.cons_append, findLastOf, ih]
      rfl

theorem split_last {byte : UInt8} {url : Buffer} (member : byte ∈ url) :
    ∃ before after, url = before ++ byte :: after ∧ byte ∉ after := by
  obtain ⟨after, before, same, first⟩ :=
    List.eq_append_cons_of_mem (List.mem_reverse.mpr member)
  refine ⟨before.reverse, after.reverse, ?_, fun inside => first (List.mem_reverse.mp inside)⟩
  rw [← List.reverse_reverse url, same]
  simp

theorem cutting_nil (handlers : List (Buffer × ServerHandler Out)) (input : InputPack) :
    cutting handlers input [] = ([], none) := by
  rw [cutting]
  rfl

/-- One round of the loop. -/
theorem cutting_append (handlers : List (Buffer × ServerHandler Out)) (input : InputPack)
    (before : Buffer) {after : Buffer} (last : '/'.toUInt8 ∉ after) :
    cutting handlers input (before ++ '/'.toUInt8 :: after) =
      match process handlers input (if before.isEmpty then ['/'.toUInt8] else before) with
      | (calls, some result) => (calls, some result)
      | (calls, none) =>
          (calls ++ (cutting handlers input before).1, (cutting handlers input before).2) := by
  rw [cutting]
  split
  · rename_i none
    rw [findLastOf_append before last] at none
    cases none
  · rename_i position found
    rw [findLastOf_append before last] at found
    cases found
    rw [List.take_left]

/-- A handler is registered for the resource. -/
def Registered (handlers : List (Buffer × ServerHandler Out)) (key : Buffer) : Prop :=
  ∃ handler, handlers.lookup key = some handler

/-- The longest registered key that fits, and failing all of these the root. -/
def Chosen (handlers : List (Buffer × ServerHandler Out)) (fits : Buffer → Prop)
    (key : Buffer) : Prop :=
  Registered handlers key ∧
    ((fits key ∧ ∀ other, Registered handlers other → fits other → other.length ≤ key.length) ∨
      (key = ['/'.toUInt8] ∧ ∀ other, Registered handlers other → ¬ fits other))

/-- The key is not empty, and a part of the url that is followed by a slash. -/
def Under (url key : Buffer) : Prop := key ≠ [] ∧ key ++ ['/'.toUInt8] <+: url

/-- The search called the handler of the chosen key, or none if there is none. -/
structure Routes (handlers : List (Buffer × ServerHandler Out)) (input : InputPack)
    (fits : Buffer → Prop) (result : List Buffer × Option (Outcome Out)) : Prop where
  found : ∀ key handler, Chosen handlers fits key → handlers.lookup key = some handler →
    result = ([key], some (handler input))
  missing : (∀ key, ¬ Chosen handlers fits key) → result = ([], none)

section

variable {handlers : List (Buffer × ServerHandler Out)} {input : InputPack}
  {fits other : Buffer → Prop}

theorem chosen_congr (same : ∀ key, Registered handlers key → (fits key ↔ other key))
    (key : Buffer) : Chosen handlers fits key ↔ Chosen handlers other key := by
  unfold Chosen
  constructor
  · intro chosen
    refine ⟨chosen.1, ?_⟩
    rcases chosen.2 with ⟨fit, longest⟩ | ⟨root, none⟩
    · exact Or.inl ⟨(same key chosen.1).mp fit,
        fun later known fit => longest later known ((same later known).mpr fit)⟩
    · exact Or.inr ⟨root, fun later known fit => none later known ((same later known).mpr fit)⟩
  · intro chosen
    refine ⟨chosen.1, ?_⟩
    rcases chosen.2 with ⟨fit, longest⟩ | ⟨root, none⟩
    · exact Or.inl ⟨(same key chosen.1).mpr fit,
        fun later known fit => longest later known ((same later known).mp fit)⟩
    · exact Or.inr ⟨root, fun later known fit => none later known ((same later known).mp fit)⟩

theorem routes_congr (same : ∀ key, Registered handlers key → (fits key ↔ other key))
    {result : List Buffer × Option (Outcome Out)} (routes : Routes handlers input other result) :
    Routes handlers input fits result where
  found key handler chosen := routes.found key handler ((chosen_congr same key).mp chosen)
  missing none := routes.missing fun key chosen => none key ((chosen_congr same key).mpr chosen)

/-- A registered key that fits and is longer than all others is the one. -/
theorem routes_top {top : Buffer} {handler : ServerHandler Out}
    (registered : handlers.lookup top = some handler) (fit : fits top)
    (longest : ∀ key, fits key → key ≠ top → key.length < top.length) :
    Routes handlers input fits ([top], some (handler input)) := by
  have known : Registered handlers top := ⟨handler, registered⟩
  constructor
  · intro key found chosen lookup
    have same : key = top := by
      rcases chosen.2 with ⟨own, longer⟩ | ⟨_, none⟩
      · by_contra different
        have shorter := longest key own different
        have bound := longer top known fit
        omega
      · exact absurd fit (none top known)
    subst same
    rw [registered] at lookup
    cases lookup
    rfl
  · intro none
    refine absurd ⟨known, Or.inl ⟨fit, fun key _ own => ?_⟩⟩ (none top)
    by_cases same : key = top
    · rw [same]
    · exact Nat.le_of_lt (longest key own same)

/-- Where nothing fits, only the root is left. -/
theorem routes_root (nothing : ∀ key, ¬ fits key) :
    Routes handlers input fits (process handlers input ['/'.toUInt8]) := by
  constructor
  · intro key handler chosen lookup
    rcases chosen.2 with ⟨own, _⟩ | ⟨root, _⟩
    · exact absurd own (nothing key)
    · subst root
      rw [process, lookup]
  · intro none
    cases lookup : handlers.lookup ['/'.toUInt8] with
    | none => rw [process, lookup]
    | some handler =>
        exact absurd ⟨⟨handler, lookup⟩, Or.inr ⟨rfl, fun key _ => nothing key⟩⟩ (none _)

/-- The parts of a url that a slash follows: the one before the last slash, and those of
that one. -/
theorem under_append (before : Buffer) {after : Buffer} (last : '/'.toUInt8 ∉ after)
    (key : Buffer) :
    Under (before ++ '/'.toUInt8 :: after) key ↔
      (key = before ∧ before ≠ []) ∨ Under before key := by
  constructor
  · intro under
    have whole : before <+: before ++ '/'.toUInt8 :: after := List.prefix_append _ _
    have own : key <+: before ++ '/'.toUInt8 :: after :=
      (List.prefix_append key ['/'.toUInt8]).trans under.2
    rcases Nat.lt_trichotomy key.length before.length with shorter | same | longer
    · refine Or.inr ⟨under.1, List.prefix_of_prefix_length_le under.2 whole ?_⟩
      rw [List.length_append]
      exact shorter
    · have equal : key = before :=
        (List.prefix_of_prefix_length_le own whole (by omega)).eq_of_length same
      exact Or.inl ⟨equal, equal ▸ under.1⟩
    · obtain ⟨rest, joined⟩ := under.2
      have here : (before ++ '/'.toUInt8 :: after)[key.length]? = some '/'.toUInt8 := by
        rw [← joined, List.append_assoc, List.getElem?_append_right (Nat.le_refl _),
          Nat.sub_self]
        rfl
      rw [List.getElem?_append_right (by omega)] at here
      have behind : key.length - before.length = (key.length - before.length - 1) + 1 := by omega
      rw [behind, List.getElem?_cons_succ] at here
      exact absurd (List.mem_of_getElem? here) last
  · intro either
    rcases either with ⟨same, filled⟩ | under
    · subst same
      refine ⟨filled, ?_⟩
      rw [List.prefix_append_right_inj]
      exact ⟨after, rfl⟩
    · exact ⟨under.1, under.2.trans (List.prefix_append _ _)⟩

theorem under_length {url key : Buffer} (under : Under url key) : key.length < url.length := by
  have bound := under.2.length_le
  rw [List.length_append, List.length_singleton] at bound
  exact bound

theorem not_under_nil (key : Buffer) : ¬ Under [] key := by
  intro under
  have shorter := under_length under
  exact Nat.not_lt_zero _ shorter

theorem process_eq (handlers : List (Buffer × ServerHandler Out)) (input : InputPack)
    (path : Buffer) :
    process handlers input path = ([], none) ∧ ¬ Registered handlers path ∨
      ∃ handler, handlers.lookup path = some handler ∧
        process handlers input path = ([path], some (handler input)) := by
  cases lookup : handlers.lookup path with
  | none =>
      refine Or.inl ⟨by rw [process, lookup], fun registered => ?_⟩
      obtain ⟨handler, found⟩ := registered
      rw [lookup] at found
      cases found
  | some handler => exact Or.inr ⟨handler, rfl, by rw [process, lookup]⟩

/-- The loop on a url that begins with a slash, by induction on its length. -/
theorem cutting_routes (handlers : List (Buffer × ServerHandler Out)) (input : InputPack)
    (length : Nat) (url : Buffer) (bound : url.length ≤ length)
    (rooted : url.head? = some '/'.toUInt8) :
    Routes handlers input (Under url) (cutting handlers input url) := by
  induction length generalizing url with
  | zero =>
      have empty : url = [] := List.eq_nil_of_length_eq_zero (by omega)
      rw [empty] at rooted
      cases rooted
  | succ length ih =>
      obtain ⟨before, after, joined, last⟩ := split_last (List.mem_of_mem_head? rooted)
      subst joined
      rw [cutting_append handlers input before last]
      by_cases empty : before = []
      · subst empty
        have nothing : ∀ key, ¬ Under ([] ++ '/'.toUInt8 :: after) key := by
          intro key under
          rcases (under_append [] last key).mp under with ⟨_, filled⟩ | inside
          · exact filled rfl
          · exact not_under_nil key inside
        have root : Routes handlers input (Under ([] ++ '/'.toUInt8 :: after))
            (process handlers input ['/'.toUInt8]) := routes_root nothing
        rw [cutting_nil]
        rcases process_eq handlers input ['/'.toUInt8] with ⟨none, _⟩ | ⟨handler, _, called⟩
        · simpa [none] using root
        · simpa [called] using root
      · have start : before.head? = some '/'.toUInt8 := by
          rw [List.head?_append_of_ne_nil _ empty] at rooted
          exact rooted
        have filled : before.isEmpty = false := by simpa using empty
        rw [filled]
        rcases process_eq handlers input before with ⟨none, unknown⟩ | ⟨handler, known, called⟩
        · have inside := ih before (by simp at bound; omega) start
          have same : ∀ key, Registered handlers key →
              (Under (before ++ '/'.toUInt8 :: after) key ↔ Under before key) := by
            intro key registered
            rw [under_append before last key]
            refine or_iff_right fun equal => unknown (equal.1 ▸ registered)
          simpa [none] using routes_congr same inside
        · have top : Routes handlers input (Under (before ++ '/'.toUInt8 :: after))
              ([before], some (handler input)) := by
            apply routes_top known
            · exact (under_append before last before).mpr (Or.inl ⟨rfl, empty⟩)
            · intro key under different
              rcases (under_append before last key).mp under with ⟨same, _⟩ | inside
              · exact absurd same different
              · exact under_length inside
          simpa [called] using top

/-- The keys that a path leads to. -/
def Fits (path key : Buffer) : Prop := key = path ∨ Under (extended path) key

theorem under_extended {path key : Buffer} (under : Under (extended path) key)
    (different : key ≠ path) : key.length < path.length := by
  unfold extended at under
  split at under
  · rcases (under_append path List.not_mem_nil key).mp under with ⟨same, _⟩ | inside
    · exact absurd same different
    · exact under_length inside
  · exact under_length under

theorem extended_rooted {path : Buffer} (rooted : path.head? = some '/'.toUInt8) :
    (extended path).head? = some '/'.toUInt8 := by
  unfold extended
  split
  · rw [List.head?_append, rooted]
    rfl
  · exact rooted

/-- The search takes the longest key. -/
theorem route_routes (handlers : List (Buffer × ServerHandler Out)) (input : InputPack)
    (rooted : input.getPath.head? = some '/'.toUInt8) :
    Routes handlers input (Fits input.getPath) (route handlers input) := by
  unfold route
  rcases process_eq handlers input input.getPath with ⟨none, unknown⟩ | ⟨handler, known, called⟩
  · have inside := cutting_routes handlers input _ _ (Nat.le_refl _) (extended_rooted rooted)
    have same : ∀ key, Registered handlers key →
        (Fits input.getPath key ↔ Under (extended input.getPath) key) := by
      intro key registered
      exact or_iff_right fun equal => unknown (equal ▸ registered)
    simpa [none] using routes_congr same inside
  · have top : Routes handlers input (Fits input.getPath)
        ([input.getPath], some (handler input)) := by
      apply routes_top known (Or.inl rfl)
      intro key fits different
      rcases fits with same | under
      · exact absurd same different
      · exact under_extended under different
    simpa [called] using top

end

/-- The checks that come before the search for a handler. -/
structure Passes (params : Params Out) (request : Request) (url : Buffer) : Prop where
  decoded : decodeUrl request.target = .ok url
  rooted : url.head? = some '/'.toUInt8
  inside : ¬ ['.'.toUInt8, '.'.toUInt8] <:+: url
  allowed : ∃ method ∈ params.allowedMethods,
    Utility.convertMethodType request.method = .ok method

/-- The longest beginning of the target without a `?` and a `#`. -/
def pathOf (url : Buffer) : Buffer := url.takeWhile fun byte => !Target.endsPath byte

theorem pathOf_rooted {url : Buffer} (rooted : url.head? = some '/'.toUInt8) :
    (pathOf url).head? = some '/'.toUInt8 := by
  cases url with
  | nil => cases rooted
  | cons first rest =>
      cases rooted
      rfl

/-- What the session makes of the search. -/
def concluded : List Buffer × Option (Outcome Out) → Handled Out
  | (calls, some (.ok out)) => ⟨calls, .reply out⟩
  | (calls, some (.error _)) => internalError calls
  | (calls, none) =>
      ⟨calls, .error .methodNotAllowed "Handler for the request processing was not found."⟩

/-- Every request either passes the checks or comes to no handler. -/
theorem passes_or_uncalled (params : Params Out) (request : Request) :
    (∃ url, Passes params request url) ∨ (handleRequest params request).invoked = [] := by
  unfold handleRequest
  cases decoded : decodeUrl request.target with
  | error fault => exact Or.inr rfl
  | ok url =>
      dsimp only
      by_cases good : goodPath url = false
      · rw [if_pos good]
        exact Or.inr rfl
      · rw [if_neg good]
        cases converted : Utility.convertMethodType request.method with
        | error fault => exact Or.inr rfl
        | ok method =>
            dsimp only
            by_cases allowed : method ∉ params.allowedMethods
            · rw [if_pos allowed]
              exact Or.inr rfl
            · simp only [goodPath, Bool.not_eq_false, Bool.and_eq_true, decide_eq_true_eq,
                Bool.not_eq_true', decide_eq_false_iff_not] at good
              exact Or.inl ⟨url, decoded, good.1, good.2, method, by simpa using allowed, converted⟩

/-- A request that passes the checks, for a server without handlers. -/
theorem handleRequest_empty {params : Params Out} {request : Request} {url : Buffer}
    (passes : Passes params request url) (empty : params.handlers = []) :
    handleRequest params request =
      ⟨[], .error .methodNotAllowed "There is no any method for handling the request."⟩ := by
  obtain ⟨method, allowed, converted⟩ := passes.allowed
  simp [handleRequest, passes.decoded, goodPath, passes.rooted, passes.inside, converted, allowed,
    empty]

theorem inputPack_new {params : Params Out} {request : Request} {url : Buffer}
    (passes : Passes params request url) (line : url.any Target.endsLine = false) :
    ∃ input, InputPack.new request.target = .ok input ∧ input.getPath = pathOf url := by
  have target : Target.new url =
      .ok ⟨pathOf url, (url.dropWhile fun byte => !Target.endsPath byte).dropWhile
        Target.splits⟩ := by
    rw [Target.new, if_pos ⟨passes.rooted, line⟩]
    rfl
  refine ⟨⟨⟨pathOf url, (url.dropWhile fun byte => !Target.endsPath byte).dropWhile
    Target.splits⟩⟩, ?_, rfl⟩
  rw [InputPack.new, passes.decoded]
  change (Target.new url).bind _ = _
  rw [target]
  rfl

/-- A request that passes the checks, for a server with handlers. -/
theorem handleRequest_route {params : Params Out} {request : Request} {url : Buffer}
    (passes : Passes params request url) (filled : params.handlers ≠ []) {input : InputPack}
    (packed : InputPack.new request.target = .ok input) :
    handleRequest params request = concluded (route params.handlers input) := by
  obtain ⟨method, allowed, converted⟩ := passes.allowed
  have some : params.handlers.isEmpty = false := by simpa using filled
  simp only [handleRequest, passes.decoded, goodPath, passes.rooted, passes.inside, converted,
    allowed, packed, some, decide_true, decide_false, Bool.not_false, Bool.and_self,
    Bool.true_eq_false, not_true_eq_false, Bool.false_eq_true, ↓reduceIte]
  cases route params.handlers input with
  | mk calls result =>
      cases result with
      | none => rfl
      | some outcome =>
          cases outcome with
          | error fault => rfl
          | ok out => rfl

/-- A target that the expression of `Target` does not match. -/
theorem handleRequest_unpacked {params : Params Out} {request : Request} {url : Buffer}
    (passes : Passes params request url) (filled : params.handlers ≠ []) {fault : Fault}
    (refused : InputPack.new request.target = .error fault) :
    handleRequest params request = internalError [] := by
  obtain ⟨method, allowed, converted⟩ := passes.allowed
  have some : params.handlers.isEmpty = false := by simpa using filled
  simp only [handleRequest, passes.decoded, goodPath, passes.rooted, passes.inside, converted,
    allowed, refused, some, decide_true, decide_false, Bool.not_false, Bool.and_self,
    Bool.true_eq_false, not_true_eq_false, Bool.false_eq_true, ↓reduceIte]

theorem concluded_invoked (result : List Buffer × Option (Outcome Out)) :
    (concluded result).invoked = result.1 := by
  unfold concluded internalError
  split <;> rfl

/-- A handler that is called is one, and the first that the search comes to. -/
theorem process_calls (handlers : List (Buffer × ServerHandler Out)) (input : InputPack)
    (path : Buffer) :
    (process handlers input path).1.length ≤ 1 ∧
      ((process handlers input path).2 = none → (process handlers input path).1 = []) := by
  rcases process_eq handlers input path with ⟨none, _⟩ | ⟨handler, _, called⟩
  · rw [none]
    exact ⟨Nat.zero_le _, fun _ => rfl⟩
  · rw [called]
    exact ⟨Nat.le_refl _, fun nothing => nomatch nothing⟩

theorem cutting_calls (handlers : List (Buffer × ServerHandler Out)) (input : InputPack)
    (url : Buffer) : (cutting handlers input url).1.length ≤ 1 := by
  fun_induction cutting handlers input url with
  | case1 => exact Nat.zero_le _
  | case2 url position found cut path calls result called =>
      have one := (process_calls handlers input path).1
      rw [called] at one
      exact one
  | case3 url position found cut path calls missed later ih =>
      have nothing := (process_calls handlers input path).2
      rw [missed] at nothing
      have empty : calls = [] := nothing rfl
      rw [empty, List.nil_append]
      exact ih

theorem route_calls (handlers : List (Buffer × ServerHandler Out)) (input : InputPack) :
    (route handlers input).1.length ≤ 1 := by
  have once := process_calls handlers input input.getPath
  unfold route
  split
  · rename_i called
    rw [called] at once
    exact once.1
  · rename_i calls missed
    rw [missed] at once
    have empty : calls = [] := once.2 rfl
    rw [empty]
    exact cutting_calls handlers input _

/-- How a request is routed. -/
theorem request_is_routed (params : Params Out) (request : Request) :
    (handleRequest params request).invoked.length ≤ 1 ∧
      ((handleRequest params request).invoked ≠ [] → ∃ url, Passes params request url) ∧
      ∀ url, Passes params request url → url.any Target.endsLine = false →
        (∀ key handler, Chosen params.handlers (Fits (pathOf url)) key →
          params.handlers.lookup key = some handler →
          ∃ input, InputPack.new request.target = .ok input ∧
            handleRequest params request = concluded ([key], some (handler input))) ∧
        ((∀ key, ¬ Chosen params.handlers (Fits (pathOf url)) key) →
          ∃ reason, handleRequest params request = ⟨[], .error .methodNotAllowed reason⟩) := by
  have checked := passes_or_uncalled params request
  refine ⟨?_, ?_, ?_⟩
  · rcases checked with ⟨url, passes⟩ | uncalled
    · by_cases empty : params.handlers = []
      · rw [handleRequest_empty passes empty]
        exact Nat.zero_le _
      · cases packed : InputPack.new request.target with
        | ok input =>
            rw [handleRequest_route passes empty packed, concluded_invoked]
            exact route_calls params.handlers input
        | error fault =>
            rw [handleRequest_unpacked passes empty packed]
            exact Nat.zero_le _
    · rw [uncalled]
      exact Nat.zero_le _
  · intro called
    rcases checked with passes | uncalled
    · exact passes
    · exact absurd uncalled called
  · intro url passes line
    obtain ⟨input, packed, path⟩ := inputPack_new passes line
    have rooted : input.getPath.head? = some '/'.toUInt8 := by
      rw [path]
      exact pathOf_rooted passes.rooted
    have routes := route_routes params.handlers input rooted
    rw [path] at routes
    constructor
    · intro key handler chosen registered
      have filled : params.handlers ≠ [] := by
        intro empty
        rw [empty] at registered
        cases registered
      refine ⟨input, packed, ?_⟩
      rw [handleRequest_route passes filled packed, routes.found key handler chosen registered]
    · intro none
      by_cases empty : params.handlers = []
      · exact ⟨_, handleRequest_empty passes empty⟩
      · rw [handleRequest_route passes empty packed, routes.missing none]
        exact ⟨_, rfl⟩

/-- A server with handlers for `/a` and `/`, and the target `/a/b?x`. -/
def sampleParams : Params Unit :=
  ⟨[.get], [([47, 97], fun _ => .ok ()), ([47], fun _ => .ok ())]⟩

def sampleGet : Request := ⟨.get, [47, 97, 47, 98, 63, 120]⟩

theorem longest_key_is_called :
    ∃ input, InputPack.new sampleGet.target = .ok input ∧
      handleRequest sampleParams sampleGet = concluded ([[47, 97]], some (.ok ())) := by
  have passes : Passes sampleParams sampleGet sampleGet.target :=
    ⟨by decide, by decide, by decide, .get, by decide, rfl⟩
  have path : pathOf sampleGet.target = [47, 97, 47, 98] := by decide
  have under : Under (extended [47, 97, 47, 98]) [47, 97] := ⟨by decide, by decide⟩
  have chosen : Chosen sampleParams.handlers (Fits (pathOf sampleGet.target)) [47, 97] := by
    rw [path]
    refine ⟨⟨_, rfl⟩, Or.inl ⟨Or.inr under, fun other registered _ => ?_⟩⟩
    obtain ⟨handler, found⟩ := registered
    have member := Assoc.mem_of_lookup found
    rcases List.mem_cons.mp member with first | second
    · have same : other = [47, 97] := (Prod.mk.inj first).1
      subst same
      exact Nat.le_refl _
    · have same : other = [47] := (Prod.mk.inj (List.mem_singleton.mp second)).1
      subst same
      decide
  exact ((request_is_routed sampleParams sampleGet).2.2 _ passes (by decide)).1 _ _ chosen rfl

end Session

end Mif.Net.Http
