import Mathlib.Data.List.Dedup
import Mathlib.Data.List.Infix
import Mathlib.Data.List.Sort
import Mif.Lib.Assoc
import Mif.Lib.SortedSet
import Mif.Net.HttpInputPack

set_option autoImplicit false

/- `WebService::OnRequest`: which resource of a web service gets a request. -/
namespace Mif.Net.Http.WebService

/-- An exception, as the `catch` clauses of `OnRequest` tell them apart. -/
inductive Raised
  | invalidArgument (what : String)
  | standard (what : String)
  | unknown
  deriving DecidableEq, Repr

/-- The members of `Code` that `OnRequest` itself answers with. -/
inductive Code
  | badMethod | badRequest | internal
  deriving DecidableEq, Repr

/-- The response: what the handler put into it, or what `OnExceptionResponse` did. -/
inductive Answer (Out : Type)
  | response (out : Out)
  | exception (code : Code) (message : String)
  deriving DecidableEq, Repr

variable {Out : Type}

/-- `IWebServiceHandler::OnRequest` -/
abbrev Handler (Out : Type) := InputPack → Except Raised Out

/-- The calls of `AddHandler`, one after the other; `emplace` keeps the first of a
resource. -/
def handlers (added : List (Buffer × Handler Out)) : List (Buffer × Handler Out) :=
  Assoc.insertAll [] added

/-- `m_handlers.find(resource)` -/
def find (table : List (Buffer × Handler Out)) (resource : Buffer) :
    Option (Buffer × Handler Out) :=
  (table.lookup resource).map fun handler => (resource, handler)

/-- The set `paths`, in the order of the loop. -/
def paths (table : List (Buffer × Handler Out)) : List Buffer :=
  SortedSet.ofList (table.map Prod.fst)

/-- `std::count(..., '/')` -/
def slashes (resource : Buffer) : Nat := resource.count '/'.toUInt8

/-- One round of the loop over `paths`, for `iter` and `cntLen`. -/
def compared (table : List (Buffer × Handler Out)) (path : Buffer)
    (state : Option (Buffer × Handler Out) × Nat) (resource : Buffer) :
    Option (Buffer × Handler Out) × Nat :=
  if resource <:+: path then
    if state.2 < slashes resource then
      match find table resource with
      | some iter => (some iter, slashes resource)
      | none => (none, state.2)
    else state
  else state

/-- The handler that `iter` comes to, with its resource. -/
def select (table : List (Buffer × Handler Out)) (path : Buffer) :
    Option (Buffer × Handler Out) :=
  match find table path with
  | some iter => some iter
  | none => ((paths table).foldl (compared table path) (none, 0)).1

/-- The resource whose handler was called, and the response. -/
structure Handled (Out : Type) where
  called : Option Buffer
  answer : Answer Out
  deriving DecidableEq, Repr

/-- The `catch` clauses. -/
def caught : Raised → Answer Out
  | .invalidArgument what => .exception .badRequest what
  | .standard what => .exception .internal what
  | .unknown => .exception .internal "Unknown exception."

/-- `WebService::OnRequest`, with the hooks of `WebService` itself, which do nothing. -/
def onRequest (table : List (Buffer × Handler Out)) (request : InputPack) : Handled Out :=
  match select table request.getPath with
  | some (resource, handler) =>
      match handler request with
      | .ok out => ⟨some resource, .response out⟩
      | .error raised => ⟨some resource, caught raised⟩
  | none => ⟨none, .exception .badMethod "Handler not found."⟩

/-- The parts of a resource or a path between the slashes. -/
def segments (path : Buffer) : List Buffer :=
  (path.splitOn '/'.toUInt8).filter fun part => !part.isEmpty

/-- The resource is a beginning of the path, segment by segment. -/
def Encloses (resource path : Buffer) : Prop := segments resource <+: segments path

instance (resource path : Buffer) : Decidable (Encloses resource path) :=
  inferInstanceAs (Decidable (_ <+: _))

/-- The resource was added. -/
def Added (added : List (Buffer × Handler Out)) (resource : Buffer) : Prop :=
  resource ∈ added.map Prod.fst

/-- The path itself, or failing it a resource around it that has the most segments. -/
def MostSpecific (added : List (Buffer × Handler Out)) (path resource : Buffer) : Prop :=
  Added added resource ∧ (resource = path ∨ (¬ Added added path ∧ Encloses resource path ∧
    ∀ other, Added added other → Encloses other path →
      (segments other).length ≤ (segments resource).length))

/-- What a request has to come to. -/
structure Specific (added : List (Buffer × Handler Out)) (request : InputPack) : Prop where
  called : ∀ resource, (onRequest (handlers added) request).called = some resource →
    MostSpecific added request.getPath resource
  refused : (onRequest (handlers added) request).called = none →
    (onRequest (handlers added) request).answer = .exception .badMethod "Handler not found." ∧
      ∀ resource, Added added resource →
        resource ≠ request.getPath ∧ ¬ Encloses resource request.getPath

/-- A resource that occurs in the path, with more slashes than all others that do; among
those with equally many it is the first in the order of their bytes. -/
structure Leads (added : List (Buffer × Handler Out)) (path resource : Buffer) : Prop where
  registered : Added added resource
  occurs : resource <:+: path
  slashed : 0 < slashes resource
  most : ∀ other, Added added other → other <:+: path → slashes other ≤ slashes resource
  first : ∀ other, Added added other → other <:+: path → slashes other = slashes resource →
    resource ≤ other

/-- The path was added; or the leading resource encloses the path and has the most segments
of those that do; or none that occurs in the path has a slash and none encloses it. -/
def Clear (added : List (Buffer × Handler Out)) (path : Buffer) : Prop :=
  Added added path ∨
  (∃ resource, Leads added path resource ∧ Encloses resource path ∧
    ∀ other, Added added other → Encloses other path →
      (segments other).length ≤ (segments resource).length) ∨
  ∀ resource, Added added resource →
    ¬ Encloses resource path ∧ (resource <:+: path → slashes resource = 0)

theorem find_handlers (added : List (Buffer × Handler Out)) (resource : Buffer) :
    (find (handlers added) resource = none ∧ ¬ Added added resource) ∨
      ∃ handler, find (handlers added) resource = some (resource, handler) ∧
        Added added resource := by
  have same : (handlers added).lookup resource = added.lookup resource := by
    rw [handlers, Assoc.lookup_insertAll, List.lookup_nil, Option.none_or]
  cases found : added.lookup resource with
  | none =>
      refine Or.inl ⟨by rw [find, same, found]; rfl, fun member => ?_⟩
      obtain ⟨item, inside, named⟩ := List.mem_map.mp member
      have different := List.lookup_eq_none_iff.mp found item inside
      rw [named] at different
      simp at different
  | some handler =>
      exact Or.inr ⟨handler, by rw [find, same, found]; rfl,
        List.mem_map_of_mem (Assoc.mem_of_lookup found)⟩

theorem mem_paths (added : List (Buffer × Handler Out)) (resource : Buffer) :
    resource ∈ paths (handlers added) ↔ Added added resource := by
  have keys : resource ∈ paths (handlers added) ↔ resource ∈ (handlers added).map Prod.fst :=
    SortedSet.mem_ofList
  rw [keys]
  rcases find_handlers added resource with ⟨none, absent⟩ | ⟨handler, found, member⟩
  · refine iff_of_false (fun inside => ?_) absent
    obtain ⟨item, listed, named⟩ := List.mem_map.mp inside
    have lookup := Option.map_eq_none_iff.mp none
    have different := List.lookup_eq_none_iff.mp lookup item listed
    rw [named] at different
    simp at different
  · refine iff_of_true ?_ member
    obtain ⟨value, lookup, _⟩ := Option.map_eq_some_iff.mp found
    exact List.mem_map_of_mem (Assoc.mem_of_lookup lookup)

theorem sorted_paths (table : List (Buffer × Handler Out)) :
    (paths table).Pairwise (· ≤ ·) :=
  SortedSet.sorted_ofList _

/-- What is better than all that the loop has seen so far: it occurs in the path and has
the most slashes, and it is the first of those with equally many. -/
structure Best (list : List Buffer) (path : Buffer) (bound : Nat) (resource : Buffer) : Prop where
  listed : resource ∈ list
  occurs : resource <:+: path
  better : bound < slashes resource
  most : ∀ other ∈ list, other <:+: path → slashes other ≤ slashes resource
  first : ∀ other ∈ list, other <:+: path → slashes other = slashes resource → resource ≤ other

/-- What is best among the rest stays so in front of a resource with fewer slashes. -/
theorem Best.cons {head best path : Buffer} {rest : List Buffer} {bound further : Nat}
    (won : Best rest path further best) (least : bound ≤ further)
    (beaten : head <:+: path → slashes head < slashes best) :
    Best (head :: rest) path bound best where
  listed := List.mem_cons_of_mem _ won.listed
  occurs := won.occurs
  better := Nat.lt_of_le_of_lt least won.better
  most := by
    intro other member occurs
    rcases List.mem_cons.mp member with same | behind
    · rw [same] at occurs ⊢
      exact Nat.le_of_lt (beaten occurs)
    · exact won.most other behind occurs
  first := by
    intro other member occurs equal
    rcases List.mem_cons.mp member with same | behind
    · rw [same] at occurs equal
      exact absurd equal (Nat.ne_of_lt (beaten occurs))
    · exact won.first other behind occurs equal

/-- The loop, from any state on. -/
theorem foldl_compared (added : List (Buffer × Handler Out)) (path : Buffer)
    (list : List Buffer) (sorted : list.Pairwise (· ≤ ·))
    (known : ∀ resource ∈ list, Added added resource)
    (state : Option (Buffer × Handler Out) × Nat) :
    ((∀ resource ∈ list, resource <:+: path → slashes resource ≤ state.2) ∧
      list.foldl (compared (handlers added) path) state = state) ∨
    ∃ resource handler, Best list path state.2 resource ∧
      list.foldl (compared (handlers added) path) state =
        (some (resource, handler), slashes resource) := by
  induction list generalizing state with
  | nil => exact Or.inl ⟨fun _ member => absurd member List.not_mem_nil, rfl⟩
  | cons head rest ih =>
      have order := List.pairwise_cons.mp sorted
      have later := ih order.2 fun other member => known other (List.mem_cons_of_mem _ member)
      rw [List.foldl_cons]
      by_cases taken : head <:+: path ∧ state.2 < slashes head
      · -- the round takes `head`, and the rest is compared with it
        obtain ⟨handler, found⟩ : ∃ handler, find (handlers added) head = some (head, handler) := by
          rcases find_handlers added head with ⟨_, absent⟩ | ⟨handler, found, _⟩
          · exact absurd (known head List.mem_cons_self) absent
          · exact ⟨handler, found⟩
        have round : compared (handlers added) path state head =
            (some (head, handler), slashes head) := by
          rw [compared, if_pos taken.1, if_pos taken.2, found]
        rw [round]
        rcases later (some (head, handler), slashes head) with ⟨none, kept⟩ | ⟨best, other, won, kept⟩
        · refine Or.inr ⟨head, handler, ⟨List.mem_cons_self, taken.1, taken.2, ?_, ?_⟩, kept⟩
          · intro other member occurs
            rcases List.mem_cons.mp member with same | behind
            · exact Nat.le_of_eq (congrArg slashes same)
            · exact none other behind occurs
          · intro other member _ _
            rcases List.mem_cons.mp member with same | behind
            · rw [same]
              exact List.le_refl head
            · exact order.1 other behind
        · exact Or.inr ⟨best, other, won.cons (Nat.le_of_lt taken.2) fun _ => won.better, kept⟩
      · -- the round leaves the state as it is
        have round : compared (handlers added) path state head = state := by
          unfold compared
          split
          · rename_i occurs
            rw [if_neg fun more => taken ⟨occurs, more⟩]
          · rfl
        have less : head <:+: path → slashes head ≤ state.2 :=
          fun occurs => Nat.le_of_not_lt fun more => taken ⟨occurs, more⟩
        rw [round]
        rcases later state with ⟨none, kept⟩ | ⟨best, other, won, kept⟩
        · refine Or.inl ⟨fun resource member => ?_, kept⟩
          rcases List.mem_cons.mp member with same | behind
          · rw [same]
            exact less
          · exact none resource behind
        · have beaten : head <:+: path → slashes head < slashes best :=
            fun occurs => Nat.lt_of_le_of_lt (less occurs) won.better
          exact Or.inr ⟨best, other, won.cons (Nat.le_refl _) beaten, kept⟩

/-- What the search comes to when the path itself was not added. -/
theorem select_spec (added : List (Buffer × Handler Out)) (path : Buffer) :
    (∃ handler, select (handlers added) path = some (path, handler) ∧ Added added path) ∨
    (¬ Added added path ∧
      ((∃ resource handler, select (handlers added) path = some (resource, handler) ∧
          Leads added path resource) ∨
        (select (handlers added) path = none ∧
          ∀ resource, Added added resource → resource <:+: path → slashes resource = 0))) := by
  unfold select
  rcases find_handlers added path with ⟨none, absent⟩ | ⟨handler, found, member⟩
  · rw [none]
    refine Or.inr ⟨absent, ?_⟩
    have known : ∀ resource ∈ paths (handlers added), Added added resource :=
      fun resource => (mem_paths added resource).mp
    rcases foldl_compared added path _ (sorted_paths _) known (Option.none, 0) with
      ⟨low, kept⟩ | ⟨resource, handler, best, kept⟩
    · refine Or.inr ⟨by rw [kept], fun resource member occurs => ?_⟩
      exact Nat.le_zero.mp (low resource ((mem_paths added resource).mpr member) occurs)
    · refine Or.inl ⟨resource, handler, by rw [kept], ?_⟩
      exact ⟨known resource best.listed, best.occurs, best.better,
        fun other member => best.most other ((mem_paths added other).mpr member),
        fun other member => best.first other ((mem_paths added other).mpr member)⟩
  · rw [found]
    exact Or.inl ⟨handler, rfl, member⟩

theorem onRequest_some {table : List (Buffer × Handler Out)} {request : InputPack}
    {resource : Buffer} {handler : Handler Out}
    (found : select table request.getPath = some (resource, handler)) :
    (onRequest table request).called = some resource := by
  unfold onRequest
  rw [found]
  dsimp only
  split <;> rfl

theorem onRequest_none {table : List (Buffer × Handler Out)} {request : InputPack}
    (missing : select table request.getPath = none) :
    onRequest table request = ⟨none, .exception .badMethod "Handler not found."⟩ := by
  unfold onRequest
  rw [missing]

theorem leads_unique {added : List (Buffer × Handler Out)} {path left right : Buffer}
    (one : Leads added path left) (two : Leads added path right) : left = right := by
  have more := one.most right two.registered two.occurs
  have less := two.most left one.registered one.occurs
  have same : slashes right = slashes left := by omega
  exact List.le_antisymm (one.first right two.registered two.occurs same)
    (two.first left one.registered one.occurs same.symm)

/-- A service finds the most specific resource exactly when the slashes of the resources
that occur in the path lead it there. -/
theorem specific_iff_clear (added : List (Buffer × Handler Out)) (request : InputPack) :
    Specific added request ↔ Clear added request.getPath := by
  rcases select_spec added request.getPath with ⟨handler, found, own⟩ |
    ⟨absent, ⟨resource, handler, found, leads⟩ | ⟨missing, low⟩⟩
  · refine iff_of_true ⟨fun resource called => ?_, fun none => ?_⟩ (Or.inl own)
    · have same := (onRequest_some found).symm.trans called
      cases same
      exact ⟨own, Or.inl rfl⟩
    · rw [onRequest_some found] at none
      cases none
  · have called := onRequest_some found
    constructor
    · intro specific
      rcases (specific.called resource called).2 with same | ⟨_, encloses, most⟩
      · exact absurd (same ▸ leads.registered) absent
      · exact Or.inr (Or.inl ⟨resource, leads, encloses, most⟩)
    · intro clear
      refine ⟨fun other same => ?_, fun none => ?_⟩
      · cases called.symm.trans same
        rcases clear with own | ⟨first, other, encloses, most⟩ | low
        · exact absurd own absent
        · cases leads_unique leads other
          exact ⟨leads.registered, Or.inr ⟨absent, encloses, most⟩⟩
        · have slashed := leads.slashed
          rw [(low resource leads.registered).2 leads.occurs] at slashed
          cases slashed
      · rw [called] at none
        cases none
  · have refused := onRequest_none missing
    constructor
    · intro specific
      have nothing := (specific.refused (congrArg Handled.called refused)).2
      exact Or.inr (Or.inr fun resource member =>
        ⟨(nothing resource member).2, low resource member⟩)
    · intro clear
      refine ⟨fun resource called => ?_, fun _ => ⟨congrArg Handled.answer refused, ?_⟩⟩
      · rw [refused] at called
        cases called
      · intro resource member
        refine ⟨fun same => absent (same ▸ member), ?_⟩
        rcases clear with own | ⟨first, leads, _⟩ | low
        · exact absurd own absent
        · have slashed := leads.slashed
          rw [low first leads.registered leads.occurs] at slashed
          cases slashed
        · exact (low resource member).1

/-- A service with the resource `/b`, and a request for `/a/b`. -/
def sampleAdded : List (Buffer × Handler Unit) := [([47, 98], fun _ => .ok ())]

def sampleRequest : InputPack := ⟨[47, 97, 47, 98], []⟩

/-- The resource occurs in the path, and so its handler is called. -/
theorem inner_resource_is_called :
    (onRequest (handlers sampleAdded) sampleRequest).called = some [47, 98] ∧
      ¬ Encloses [47, 98] sampleRequest.getPath ∧ ¬ Specific sampleAdded sampleRequest := by
  have called : (onRequest (handlers sampleAdded) sampleRequest).called = some [47, 98] := by
    decide
  have outside : ¬ Encloses [47, 98] sampleRequest.getPath := by decide
  refine ⟨called, outside, fun specific => ?_⟩
  rcases (specific.called _ called).2 with same | ⟨_, encloses, _⟩
  · revert same
    decide
  · exact outside encloses

end Mif.Net.Http.WebService
