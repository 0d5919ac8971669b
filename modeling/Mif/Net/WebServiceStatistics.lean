import Mathlib.Algebra.Ring.Nat
import Mathlib.Data.List.Induction
import Mathlib.Data.List.Infix
import Mif.Lib.Assoc
import Mif.Net.WebService

set_option autoImplicit false

/- `WebService::OnRequest` with hooks that may throw, and the statistics that it keeps. -/
namespace Mif.Net.Http.WebService.Hooked

variable {Out : Type}

/-- `Statistics::ItemCounter` -/
structure ItemCounter where
  total : UInt64
  bad : UInt64
  deriving DecidableEq, Repr

namespace ItemCounter

def zero : ItemCounter := ⟨0, 0⟩

/-- `++total` -/
def request (counter : ItemCounter) : ItemCounter := { counter with total := counter.total + 1 }

/-- `++bad` -/
def failure (counter : ItemCounter) : ItemCounter := { counter with bad := counter.bad + 1 }

end ItemCounter

structure Statistics where
  general : ItemCounter
  resources : List (Buffer × ItemCounter)
  deriving DecidableEq, Repr

namespace Statistics

/-- What `AddHandler` leaves for these resources. -/
def initial (service : List Buffer) : Statistics where
  general := .zero
  resources := service.foldl (fun resources resource =>
    Assoc.modify resource .zero id resources) []

def request (statistics : Statistics) : Statistics :=
  { statistics with general := statistics.general.request }

def failure (statistics : Statistics) : Statistics :=
  { statistics with general := statistics.general.failure }

/-- A change of `resources[path]`. -/
def resource (path : Buffer) (change : ItemCounter → ItemCounter) (statistics : Statistics) :
    Statistics :=
  { statistics with resources := Assoc.modify path .zero change statistics.resources }

@[simp] theorem resource_general (path : Buffer) (change : ItemCounter → ItemCounter)
    (statistics : Statistics) :
    (statistics.resource path change).general = statistics.general := rfl

end Statistics

/-- A request, and what the hooks and the handlers of the resources do with it. -/
structure Call (Out : Type) where
  request : InputPack
  preProcessRequest : Except Raised Unit
  handler : Buffer → Except Raised Out
  postProcessResponse : Except Raised Unit

/-- `m_handlers`, for a service with these resources. -/
def Call.table (call : Call Out) (service : List Buffer) : List (Buffer × Handler Out) :=
  handlers (service.map fun resource => (resource, fun _ => call.handler resource))

/-- The resource whose handler was called, and all that was put into the response: by the
handler and by each `OnExceptionResponse`. -/
structure Served (Out : Type) where
  statistics : Statistics
  called : Option Buffer
  answers : List (Answer Out)
  deriving DecidableEq, Repr

/-- The outer `try` block of `WebService::OnRequest`. -/
def attempt (service : List Buffer) (statistics : Statistics) (call : Call Out) :
    Served Out × Except Raised Unit :=
  match call.preProcessRequest with
  | .error raised => (⟨statistics, none, []⟩, .error raised)
  | .ok () =>
      let counted := statistics.request
      let path := call.request.getPath
      match select (call.table service) path with
      | some (resource, handler) =>
          let started := counted.resource path ItemCounter.request
          match handler call.request with
          | .ok out => (⟨started, some resource, [.response out]⟩, call.postProcessResponse)
          | .error raised =>
              (⟨started.resource path ItemCounter.failure, some resource, []⟩, .error raised)
      | none =>
          (⟨counted.failure, none, [.exception .badMethod "Handler not found."]⟩,
            call.postProcessResponse)

/-- `WebService::OnRequest` -/
def onRequest (service : List Buffer) (statistics : Statistics) (call : Call Out) : Served Out :=
  match attempt service statistics call with
  | (served, .ok ()) => served
  | (served, .error raised) =>
      ⟨served.statistics.failure, served.called, served.answers ++ [caught raised]⟩

/-- An answer of `OnExceptionResponse`. -/
def isException : Answer Out → Bool
  | .response _ => false
  | .exception _ _ => true

/-- The request was answered through `OnExceptionResponse`. -/
def excepted (answers : List (Answer Out)) : Bool := answers.any isException

/-- The statistics after some requests, with the answers to each of them. -/
structure History (Out : Type) where
  statistics : Statistics
  answered : List (List (Answer Out))

def serve (service : List Buffer) (history : History Out) (call : Call Out) : History Out :=
  let served := onRequest service history.statistics call
  ⟨served.statistics, history.answered ++ [served.answers]⟩

def run (service : List Buffer) (calls : List (Call Out)) : History Out :=
  calls.foldl (serve service) ⟨Statistics.initial service, []⟩

/-- The counters agree with what was received and answered. -/
structure Consistent (history : History Out) : Prop where
  total : history.statistics.general.total.toNat = history.answered.length
  bad : history.statistics.general.bad.toNat = history.answered.countP excepted
  general : history.statistics.general.bad ≤ history.statistics.general.total
  resources : ∀ entry ∈ history.statistics.resources, entry.2.bad ≤ entry.2.total

/-- The hook before the request returns; and so does the one after it, unless a handler was
called. -/
def Steady (service : List Buffer) (call : Call Out) : Prop :=
  call.preProcessRequest = .ok () ∧
    (select (call.table service) call.request.getPath = none → call.postProcessResponse = .ok ())

/-- With hooks that return, the response is the one of `WebService` with its own hooks. -/
theorem onRequest_silent {service : List Buffer} {call : Call Out} (statistics : Statistics)
    (before : call.preProcessRequest = .ok ()) (after : call.postProcessResponse = .ok ()) :
    (onRequest service statistics call).called =
        (WebService.onRequest (call.table service) call.request).called ∧
      (onRequest service statistics call).answers =
        [(WebService.onRequest (call.table service) call.request).answer] := by
  unfold onRequest attempt WebService.onRequest
  rw [before]
  dsimp only
  cases select (call.table service) call.request.getPath with
  | none => simp [after]
  | some found =>
      obtain ⟨resource, handler⟩ := found
      dsimp only
      cases handler call.request with
      | ok out => simp [after]
      | error raised => simp

theorem isException_caught (raised : Raised) :
    isException (caught raised : Answer Out) = true := by
  cases raised with
  | invalidArgument what => rfl
  | standard what => rfl
  | unknown => rfl

/- What one request does to the statistics. -/
section

variable {service : List Buffer} (statistics : Statistics) {call : Call Out}

/-- A request with hooks that return is counted, and once more when it fails. -/
theorem onRequest_steady (steady : Steady service call) :
    (onRequest service statistics call).statistics.general =
      ⟨statistics.general.total + 1, statistics.general.bad +
        cond (excepted (onRequest service statistics call).answers) 1 0⟩ := by
  obtain ⟨before, after⟩ := steady
  unfold onRequest attempt
  rw [before]
  dsimp only
  cases found : select (call.table service) call.request.getPath with
  | none =>
      rw [after found]
      rfl
  | some iter =>
      obtain ⟨resource, handler⟩ := iter
      dsimp only
      cases handler call.request with
      | error raised =>
          simp [excepted, isException_caught, Statistics.failure, Statistics.request,
            ItemCounter.failure, ItemCounter.request]
      | ok out =>
          cases call.postProcessResponse with
          | ok done =>
              simp [excepted, isException, Statistics.request, ItemCounter.request]
          | error raised =>
              simp [excepted, isException_caught, Statistics.failure, Statistics.request,
                ItemCounter.failure, ItemCounter.request]

/-- A request that the first hook refuses is not counted. -/
theorem onRequest_refused {raised : Raised} (refused : call.preProcessRequest = .error raised) :
    (onRequest service statistics call).statistics.general.total = statistics.general.total := by
  unfold onRequest attempt
  rw [refused]
  rfl

/-- A request without a handler that the second hook refuses fails twice. -/
theorem onRequest_twice {raised : Raised} (before : call.preProcessRequest = .ok ())
    (missing : select (call.table service) call.request.getPath = none)
    (refused : call.postProcessResponse = .error raised) :
    (onRequest service statistics call).statistics.general.bad =
        statistics.general.bad + 1 + 1 ∧
      excepted (onRequest service statistics call).answers = true := by
  unfold onRequest attempt
  rw [before]
  dsimp only
  rw [missing, refused]
  exact ⟨rfl, rfl⟩

/-- The entry of the path is changed when a handler was called: its total is counted, and its
failure after that. -/
theorem onRequest_resources (service : List Buffer) (call : Call Out) :
    (onRequest service statistics call).statistics.resources = statistics.resources ∨
      ∃ change, (change = ItemCounter.request ∨ change = fun counter => counter.request.failure) ∧
        (onRequest service statistics call).statistics.resources =
          Assoc.modify call.request.getPath .zero change statistics.resources := by
  unfold onRequest attempt
  cases call.preProcessRequest with
  | error raised => exact Or.inl rfl
  | ok done =>
      dsimp only
      cases select (call.table service) call.request.getPath with
      | none =>
          cases call.postProcessResponse with
          | ok done => exact Or.inl rfl
          | error raised => exact Or.inl rfl
      | some iter =>
          obtain ⟨resource, handler⟩ := iter
          dsimp only
          cases handler call.request with
          | error raised =>
              refine Or.inr ⟨_, Or.inr rfl, ?_⟩
              exact Assoc.modify_modify _ _ _ _ _
          | ok out =>
              refine Or.inr ⟨_, Or.inl rfl, ?_⟩
              cases call.postProcessResponse with
              | ok done => rfl
              | error raised => rfl

end

/-- A counter that does not wrap around. -/
theorem toNat_add_one {counter : UInt64} (room : counter.toNat + 1 < 2 ^ 64) :
    (counter + 1).toNat = counter.toNat + 1 := by
  rw [UInt64.toNat_add, UInt64.toNat_one]
  exact Nat.mod_eq_of_lt room

/-- No failure is counted without its request, and so many requests at most. -/
def Balanced (limit : Nat) (counter : ItemCounter) : Prop :=
  counter.bad.toNat ≤ counter.total.toNat ∧ counter.total.toNat ≤ limit

namespace Balanced

variable {limit : Nat} {counter : ItemCounter}

theorem zero (limit : Nat) : Balanced limit .zero := ⟨Nat.le_refl 0, Nat.zero_le limit⟩

theorem succ (balanced : Balanced limit counter) : Balanced (limit + 1) counter :=
  ⟨balanced.1, Nat.le_succ_of_le balanced.2⟩

theorem request (balanced : Balanced limit counter) (room : limit + 1 < 2 ^ 64) :
    Balanced (limit + 1) counter.request := by
  obtain ⟨below, bound⟩ := balanced
  have counted : (counter.total + 1).toNat = counter.total.toNat + 1 :=
    toNat_add_one (by omega)
  constructor
  · show counter.bad.toNat ≤ (counter.total + 1).toNat
    omega
  · show (counter.total + 1).toNat ≤ limit + 1
    omega

theorem failed (balanced : Balanced limit counter) (room : limit + 1 < 2 ^ 64) :
    Balanced (limit + 1) counter.request.failure := by
  obtain ⟨below, bound⟩ := balanced
  have counted : (counter.total + 1).toNat = counter.total.toNat + 1 :=
    toNat_add_one (by omega)
  have failures : (counter.bad + 1).toNat = counter.bad.toNat + 1 := toNat_add_one (by omega)
  constructor
  · show (counter.bad + 1).toNat ≤ (counter.total + 1).toNat
    omega
  · show (counter.total + 1).toNat ≤ limit + 1
    omega

end Balanced

/-- The invariant of a run with hooks that return. -/
structure Sound (history : History Out) : Prop where
  total : history.statistics.general.total.toNat = history.answered.length
  bad : history.statistics.general.bad.toNat = history.answered.countP excepted
  resources : ∀ entry ∈ history.statistics.resources, Balanced history.answered.length entry.2

theorem Sound.consistent {history : History Out} (sound : Sound history) :
    Consistent history where
  total := sound.total
  bad := sound.bad
  general := by
    have fewer : history.answered.countP excepted ≤ history.answered.length :=
      List.countP_le_length
    rw [UInt64.le_iff_toNat_le, sound.total, sound.bad]
    exact fewer
  resources := by
    intro entry member
    rw [UInt64.le_iff_toNat_le]
    exact (sound.resources entry member).1

theorem sound_initial (service : List Buffer) :
    Sound (⟨Statistics.initial service, []⟩ : History Out) := by
  refine ⟨rfl, rfl, ?_⟩
  have general : ∀ resources : List (Buffer × ItemCounter),
      (∀ entry ∈ resources, Balanced 0 entry.2) →
      ∀ entry ∈ service.foldl (fun resources resource =>
        Assoc.modify resource .zero id resources) resources, Balanced 0 entry.2 := by
    induction service with
    | nil => exact fun resources all => all
    | cons resource rest ih =>
        intro resources all
        apply ih
        exact Assoc.forall_modify all (Balanced.zero 0) (fun _ kept => kept) fun _ kept => kept
  exact general [] fun entry impossible => absurd impossible List.not_mem_nil

/-- One request keeps the invariant, as long as the counters do not wrap around. -/
theorem Sound.serve {service : List Buffer} {history : History Out} {call : Call Out}
    (sound : Sound history) (room : history.answered.length + 1 < 2 ^ 64)
    (steady : Steady service call) : Sound (serve service history call) := by
  have fewer : history.answered.countP excepted ≤ history.answered.length :=
    List.countP_le_length
  have total := sound.total
  have bad := sound.bad
  have counted := onRequest_steady history.statistics steady
  refine ⟨?_, ?_, ?_⟩
  · rw [Hooked.serve, counted, List.length_append, List.length_singleton, ← total]
    exact toNat_add_one (by omega)
  · rw [Hooked.serve, counted, List.countP_append, List.countP_singleton, ← bad]
    cases excepted (onRequest service history.statistics call).answers with
    | true => exact toNat_add_one (by omega)
    | false => exact congrArg UInt64.toNat (UInt64.add_zero _)
  · rw [Hooked.serve, List.length_append, List.length_singleton]
    rcases onRequest_resources history.statistics service call with
      same | ⟨change, which, changed⟩
    · rw [same]
      exact fun entry member => (sound.resources entry member).succ
    · rw [changed]
      apply Assoc.forall_modify sound.resources (Balanced.zero _) (fun _ kept => kept.succ)
      intro counter kept
      rcases which with rfl | rfl
      · exact kept.request room
      · exact kept.failed room

theorem run_append (service : List Buffer) (calls : List (Call Out)) (call : Call Out) :
    run service (calls ++ [call]) = serve service (run service calls) call := by
  rw [run, List.foldl_append]
  rfl

theorem length_answered (service : List Buffer) (calls : List (Call Out)) :
    (run service calls).answered.length = calls.length := by
  induction calls using List.reverseRecOn with
  | nil => rfl
  | append_singleton calls call ih =>
      rw [run_append, serve, List.length_append, ih, List.length_append]
      rfl

theorem sound_run {service : List Buffer} {calls : List (Call Out)}
    (room : calls.length < 2 ^ 64) (steady : ∀ call ∈ calls, Steady service call) :
    Sound (run service calls) := by
  induction calls using List.reverseRecOn with
  | nil => exact sound_initial service
  | append_singleton calls call ih =>
      rw [List.length_append, List.length_singleton] at room
      rw [run_append]
      apply (ih (by omega) fun other member => steady other (List.mem_append_left _ member)).serve
      · rwa [length_answered]
      · exact steady call (List.mem_append_right _ (List.mem_singleton_self call))

/-- Where the statistics stay consistent over a request, its hooks returned. -/
theorem steady_of_consistent {service : List Buffer} {history : History Out} {call : Call Out}
    (before : Consistent history) (after : Consistent (serve service history call)) :
    Steady service call := by
  have total := before.total
  have bad := before.bad
  have totals := after.total
  have bads := after.bad
  rw [serve, List.length_append, List.length_singleton] at totals
  rw [serve, List.countP_append, List.countP_singleton] at bads
  cases first : call.preProcessRequest with
  | error raised =>
      rw [onRequest_refused history.statistics first] at totals
      omega
  | ok done =>
      refine ⟨first, ?_⟩
      intro missing
      cases second : call.postProcessResponse with
      | ok done => rfl
      | error raised =>
          obtain ⟨twice, answered⟩ :=
            onRequest_twice history.statistics first missing second
          rw [twice, if_pos answered, UInt64.toNat_add, UInt64.toNat_add, UInt64.toNat_one] at bads
          omega

/-- The statistics are consistent after every request of a run exactly when no counter wraps
around and no hook throws in a way that is counted wrong. -/
theorem consistent_iff (service : List Buffer) (calls : List (Call Out)) :
    (∀ before, before <+: calls → Consistent (run service before)) ↔
      calls.length < 2 ^ 64 ∧ ∀ call ∈ calls, Steady service call := by
  constructor
  · intro always
    constructor
    · have last := (always calls (List.prefix_refl calls)).total
      rw [length_answered] at last
      rw [← last]
      exact UInt64.toNat_lt _
    · intro call member
      obtain ⟨before, after, split⟩ := List.append_of_mem member
      have whole : before ++ [call] <+: calls := ⟨after, by rw [split, List.append_assoc]; rfl⟩
      have earlier : before <+: calls := ⟨call :: after, split.symm⟩
      have served := always _ whole
      rw [run_append] at served
      exact steady_of_consistent (always before earlier) served
  · rintro ⟨room, steady⟩ before ⟨after, rfl⟩
    rw [List.length_append] at room
    apply Sound.consistent
    exact sound_run (by omega) fun call member => steady call (List.mem_append_left _ member)

/-- A request that `PreProcessRequest` refuses. -/
def refusedCall : Call Unit where
  request := ⟨[47], []⟩
  preProcessRequest := .error (.invalidArgument "")
  handler _ := .ok ()
  postProcessResponse := .ok ()

/-- It is counted as bad, but not as a request. -/
theorem refused_request_is_not_counted :
    (run [] [refusedCall]).statistics.general = ⟨0, 1⟩ ∧
      ¬ ∀ before, before <+: [refusedCall] → Consistent (run [] before) := by
  have counters : (run [] [refusedCall]).statistics.general = ⟨0, 1⟩ := by decide
  refine ⟨counters, ?_⟩
  intro always
  have total := (always _ (List.prefix_refl _)).total
  rw [counters] at total
  revert total
  decide

end Mif.Net.Http.WebService.Hooked
