import Mathlib.Data.List.Nodup
import Mathlib.Logic.Function.Basic
import Mif.Lib.Assoc
import Mif.Lib.Transition

set_option autoImplicit false

/- The sessions of an HTTP `Servlet`: requests that look sessions up, make and remove them,
and the cleaner. Each region under `m_lock` is one step, and so is what a request does
between two of them. -/
namespace Mif.Net.Http.Servlet

/-- Where a request is in `OnRequest`. A request makes one session object at most, so the
object is known by the number of that request. -/
inductive Phase
  | idle
  /-- before the first `find` -/
  | looking (id : String)
  /-- nothing was found -/
  | creating (id : String)
  /-- the object is made and initialised -/
  | made (id : String)
  /-- `session` is set for good -/
  | serving (id : String) (object : Nat)
  /-- in a `catch` clause; `own` is the session that the request was using -/
  | failed (id : String) (own : Option Nat)
  | done
  deriving DecidableEq, Repr

/-- What happened to `m_sessions`, or was read from it. -/
inductive Event
  /-- a request has got its session -/
  | obtained (request : Nat) (id : String) (object : Nat)
  /-- `RemoveSession` of a request that failed -/
  | removed (request : Nat) (own : Option Nat) (id : String) (object : Nat)
  /-- `OnCleaner` -/
  | expired (id : String) (object : Nat)
  deriving DecidableEq, Repr

/-- How the request is processed once it has a session. -/
inductive Processing
  /-- `GetData` gives nothing -/
  | noData
  /-- `OnData` returns, at this time -/
  | served (now : Int)
  /-- the client throws: the session is closed and the exception is thrown again -/
  | threw
  deriving DecidableEq, Repr

inductive Action
  | arrive (request : Nat) (header : Option String)
  | find (request : Nat)
  | init (request : Nat) (now : Int) (succeeds : Bool)
  | emplace (request : Nat)
  | process (request : Nat) (processing : Processing)
  | removeSession (request : Nat)
  /-- a client of the session asks to close it -/
  | closeMe (object : Nat)
  | onCleaner (now : Int)
  deriving DecidableEq, Repr

/-- The servlet. `log` records what was done to the sessions, the latest first; the
program does not store it. -/
structure State where
  /-- `m_sessions` -/
  sessions : List (String × Nat)
  needForClose : Nat → Bool
  timestamp : Nat → Int
  phase : Nat → Phase
  log : List Event

namespace State

def new : State := ⟨[], fun _ => false, fun _ => 0, fun _ => .idle, []⟩

def goto (state : State) (request : Nat) (phase : Phase) : State :=
  { state with phase := Function.update state.phase request phase }

/-- The session is set, to one of `m_sessions`. -/
def take (state : State) (request : Nat) (id : String) (object : Nat) : State :=
  { state with
    phase := Function.update state.phase request (.serving id object)
    log := .obtained request id object :: state.log }

/-- The condition of `OnCleaner`. -/
def old (sessionTimeout : Nat) (state : State) (now : Int) (object : Nat) : Bool :=
  state.needForClose object || decide (sessionTimeout ≤ now - state.timestamp object)

/-- `Servlet::OnCleaner` -/
def clean (sessionTimeout : Nat) (state : State) (now : Int) : State :=
  { state with
    sessions := state.sessions.filter fun item => !state.old sessionTimeout now item.2
    log := (state.sessions.filter fun item => state.old sessionTimeout now item.2).map
      (fun item => .expired item.1 item.2) ++ state.log }

/-- `Servlet::RemoveSession` for a request that failed. -/
def remove (state : State) (request : Nat) (id : String) (own : Option Nat) : State :=
  if id = "" then state
  else
    match state.sessions.lookup id with
    | none => state
    | some object =>
        { state with
          sessions := state.sessions.filter fun item => item.1 ≠ id
          log := .removed request own id object :: state.log }

end State

open State in
/-- One step of a request, of a client or of the cleaner. A step that is not the next one of
its request does not exist. -/
def step (sessionTimeout : Nat) (state : State) : Action → Option State
  | .arrive request header =>
      match state.phase request, header with
      | .idle, none => some (state.goto request (.failed "" none))
      | .idle, some id =>
          if id = "" then some (state.goto request (.failed "" none))
          else some (state.goto request (.looking id))
      | _, _ => none
  | .find request =>
      match state.phase request with
      | .looking id =>
          match state.sessions.lookup id with
          | some object => some (state.take request id object)
          | none => some (state.goto request (.creating id))
      | _ => none
  | .init request now succeeds =>
      match state.phase request with
      | .creating id =>
          let stamped := { state with timestamp := Function.update state.timestamp request now }
          some (stamped.goto request (if succeeds then .made id else .failed id none))
      | _ => none
  | .emplace request =>
      match state.phase request with
      | .made id =>
          match state.sessions.lookup id with
          | some object => some (state.take request id object)
          | none =>
              some ({ state with sessions := state.sessions ++ [(id, request)] }.take
                request id request)
      | _ => none
  | .process request processing =>
      match state.phase request with
      | .serving id object =>
          match processing with
          | .noData => some (state.goto request (.failed id (some object)))
          | .served now =>
              some ({ state with
                timestamp := Function.update state.timestamp object now }.goto request .done)
          | .threw =>
              some ({ state with
                needForClose := Function.update state.needForClose object true }.goto
                  request (.failed id (some object)))
      | _ => none
  | .removeSession request =>
      match state.phase request with
      | .failed id own => some ((state.remove request id own).goto request .done)
      | _ => none
  | .closeMe object =>
      some { state with needForClose := Function.update state.needForClose object true }
  | .onCleaner now => some (state.clean sessionTimeout now)

namespace Event

/-- The event takes a session of this id out of `m_sessions`. -/
def Removes (id : String) : Event → Prop
  | obtained _ _ _ => False
  | removed _ _ other _ => other = id
  | expired other _ => other = id

/-- The event takes this session out of `m_sessions`. -/
def TakesOut (object : Nat) : Event → Prop
  | obtained _ _ _ => False
  | removed _ _ _ other => other = object
  | expired _ other => other = object

/-- A failed request takes out a session that is not the one it was using. -/
def Foreign : Event → Prop
  | removed _ own _ object => own ≠ some object
  | _ => False

end Event

/-- This session was taken out of `m_sessions`. -/
def TakenOut (log : List Event) (object : Nat) : Prop := ∃ event ∈ log, event.TakesOut object

/-- Two requests that get a session of one id get the same, if none of this id was taken
out between them. -/
def Shared (log : List Event) : Prop :=
  ∀ after between before first second id one two,
    log = after ++ .obtained second id two :: (between ++ .obtained first id one :: before) →
    (∀ event ∈ between, ¬ event.Removes id) → one = two

/-- What holds of a servlet that keeps its sessions apart. -/
structure Isolated (state : State) : Prop where
  unique : (state.sessions.map Prod.fst).Nodup
  shared : Shared state.log
  own : ∀ event ∈ state.log, ¬ event.Foreign

/-- A request that is about to remove the session of its id was using one that is still
there, or finds none. -/
def Current (state : State) : Action → Prop
  | .removeSession request =>
      ∀ id own, state.phase request = .failed id own → id ≠ "" →
        state.sessions.lookup id = none ∨
          ∃ object, own = some object ∧ ¬ TakenOut state.log object
  | _ => True

namespace Phase

/-- The request has no session yet. -/
def early : Phase → Bool
  | idle | looking _ | creating _ | made _ => true
  | serving _ _ | failed _ _ | done => false

/-- The session that the request is using, with its id. -/
def held : Phase → Option (String × Nat)
  | serving id object => some (id, object)
  | failed id own => own.map fun object => (id, object)
  | idle | looking _ | creating _ | made _ | done => none

end Phase

/-- The session of this id, as far as the log tells. -/
def latest (id : String) : List Event → Option Nat
  | [] => none
  | .obtained _ other object :: rest => if other = id then some object else latest id rest
  | .removed _ _ other _ :: rest => if other = id then none else latest id rest
  | .expired other _ :: rest => if other = id then none else latest id rest

/-- No request gets another session than the one that the log tells of. -/
def Agreeing : List Event → Prop
  | [] => True
  | .obtained _ id object :: rest =>
      (∀ other, latest id rest = some other → other = object) ∧ Agreeing rest
  | .removed _ _ _ _ :: rest => Agreeing rest
  | .expired _ _ :: rest => Agreeing rest

/-- What every step keeps. -/
structure Sound (state : State) : Prop where
  keys : (state.sessions.map Prod.fst).Nodup
  objects : (state.sessions.map Prod.snd).Nodup
  present : ∀ item ∈ state.sessions, ¬ TakenOut state.log item.2
  /-- A request without a session has not put its own object anywhere. -/
  early : ∀ request, (state.phase request).early = true →
    request ∉ state.sessions.map Prod.snd ∧ ¬ TakenOut state.log request
  /-- A session that is being used is registered, or was taken out. -/
  held : ∀ request id object, (state.phase request).held = some (id, object) →
    state.sessions.lookup id = some object ∨ TakenOut state.log object
  latest : ∀ id, state.sessions.lookup id = latest id state.log
  agreeing : Agreeing state.log

theorem latest_append {id : String} {between : List Event}
    (kept : ∀ event ∈ between, ¬ event.Removes id) {request object : Nat} {before : List Event}
    (agreeing : Agreeing (between ++ .obtained request id object :: before)) :
    latest id (between ++ .obtained request id object :: before) = some object := by
  induction between with
  | nil => rw [List.nil_append, latest, if_pos rfl]
  | cons event rest ih =>
      have later : ∀ event ∈ rest, ¬ event.Removes id :=
        fun other member => kept other (List.mem_cons_of_mem _ member)
      have here := kept event List.mem_cons_self
      rw [List.cons_append] at agreeing ⊢
      cases event with
      | obtained other name another =>
          have inner := ih later agreeing.2
          rw [latest, inner]
          by_cases same : name = id
          · subst same
            rw [if_pos rfl, ← agreeing.1 object inner]
          · rw [if_neg same]
      | removed other own name another =>
          have different : name ≠ id := here
          rw [latest, if_neg different, ih later agreeing]
      | expired name another =>
          have different : name ≠ id := here
          rw [latest, if_neg different, ih later agreeing]

theorem agreeing_of_append {after log : List Event} (agreeing : Agreeing (after ++ log)) :
    Agreeing log := by
  induction after with
  | nil => exact agreeing
  | cons event rest ih =>
      rw [List.cons_append] at agreeing
      cases event with
      | obtained request id object => exact ih agreeing.2
      | removed request own id object => exact ih agreeing
      | expired id object => exact ih agreeing

theorem shared_of_agreeing {log : List Event} (agreeing : Agreeing log) : Shared log := by
  intro after between before first second id one two split kept
  rw [split] at agreeing
  have inner := agreeing_of_append agreeing
  exact inner.1 one (latest_append kept inner.2)

/-- What one step can do. -/
inductive Effect (sessionTimeout : Nat) (state : State) : Action → State → Prop
  /-- The sessions are as they were, and no request has got one. -/
  | quiet (action : Action) (next : State) (sessions : next.sessions = state.sessions)
      (log : next.log = state.log)
      (early : ∀ request, (next.phase request).early = true → (state.phase request).early = true)
      (held : ∀ request, (next.phase request).held = none ∨
        (next.phase request).held = (state.phase request).held)
      (unfound : ∀ request id own, action = .removeSession request →
        state.phase request = .failed id own → id = "" ∨ state.sessions.lookup id = none) :
      Effect sessionTimeout state action next
  | found (action : Action) (request : Nat) (id : String) (object : Nat)
      (other : ∀ request, action ≠ .removeSession request)
      (listed : state.sessions.lookup id = some object) :
      Effect sessionTimeout state action (state.take request id object)
  | entered (request : Nat) (id : String) (phase : state.phase request = .made id)
      (absent : state.sessions.lookup id = none) :
      Effect sessionTimeout state (.emplace request)
        ({ state with sessions := state.sessions ++ [(id, request)] }.take request id request)
  | removed (request : Nat) (id : String) (own : Option Nat) (object : Nat)
      (phase : state.phase request = .failed id own) (named : id ≠ "")
      (listed : state.sessions.lookup id = some object) :
      Effect sessionTimeout state (.removeSession request)
        ({ state with
          sessions := state.sessions.filter fun item => item.1 ≠ id
          log := .removed request own id object :: state.log }.goto request .done)
  | cleaned (now : Int) :
      Effect sessionTimeout state (.onCleaner now) (state.clean sessionTimeout now)

section

variable {state : State} {request : Nat} {phase : Phase}

theorem early_goto (early : phase.early = true → (state.phase request).early = true) (other : Nat)
    (first : ((state.goto request phase).phase other).early = true) :
    (state.phase other).early = true := by
  change (Function.update state.phase request phase other).early = true at first
  rw [Function.update_apply] at first
  split at first
  · rename_i same
    rw [same]
    exact early first
  · exact first

theorem held_goto (held : phase.held = none ∨ phase.held = (state.phase request).held)
    (other : Nat) : ((state.goto request phase).phase other).held = none ∨
      ((state.goto request phase).phase other).held = (state.phase other).held := by
  change (Function.update state.phase request phase other).held = none ∨
    (Function.update state.phase request phase other).held = _
  rw [Function.update_apply]
  split
  · rename_i same
    rw [same]
    exact held
  · exact Or.inr rfl

end

/-- A step that only takes one request on. -/
theorem Effect.of_goto {sessionTimeout : Nat} {state middle : State} {action : Action}
    {request : Nat} {phase : Phase} (sessions : middle.sessions = state.sessions)
    (log : middle.log = state.log) (phases : middle.phase = state.phase)
    (early : phase.early = true → (state.phase request).early = true)
    (held : phase.held = none ∨ phase.held = (state.phase request).held)
    (unfound : ∀ request id own, action = .removeSession request →
      state.phase request = .failed id own → id = "" ∨ state.sessions.lookup id = none) :
    Effect sessionTimeout state action (middle.goto request phase) := by
  rw [← phases] at early held
  refine .quiet action (middle.goto request phase) sessions log ?_ ?_ unfound
  · rw [← phases]
    exact early_goto early
  · rw [← phases]
    exact held_goto held

theorem step_effect {sessionTimeout : Nat} {state next : State} {action : Action}
    (taken : step sessionTimeout state action = some next) :
    Effect sessionTimeout state action next := by
  cases action with
  | arrive request header =>
      simp only [step] at taken
      split at taken
      · rename_i idle
        cases taken
        exact .of_goto rfl rfl rfl (fun same => nomatch same) (Or.inl rfl)
          fun _ _ _ same => nomatch same
      · rename_i idle
        split at taken
        · cases taken
          exact .of_goto rfl rfl rfl (fun same => nomatch same) (Or.inl rfl)
            fun _ _ _ same => nomatch same
        · cases taken
          refine .of_goto rfl rfl rfl (fun _ => ?_) (Or.inl rfl) fun _ _ _ same => nomatch same
          rw [idle]
          rfl
      · cases taken
  | find request =>
      simp only [step] at taken
      split at taken
      · rename_i id looking
        split at taken
        · rename_i object listed
          cases taken
          exact .found _ request id object (fun _ same => nomatch same) listed
        · cases taken
          refine .of_goto rfl rfl rfl (fun _ => ?_) (Or.inl rfl) fun _ _ _ same => nomatch same
          rw [looking]
          rfl
      · cases taken
  | init request now succeeds =>
      simp only [step] at taken
      split at taken
      · rename_i id creating
        cases taken
        refine .of_goto rfl rfl rfl (fun _ => ?_) ?_ fun _ _ _ same => nomatch same
        · rw [creating]
          rfl
        · cases succeeds
          · exact Or.inl rfl
          · exact Or.inl rfl
      · cases taken
  | emplace request =>
      simp only [step] at taken
      split at taken
      · rename_i id made
        split at taken
        · rename_i object listed
          cases taken
          exact .found _ request id object (fun _ same => nomatch same) listed
        · rename_i absent
          cases taken
          exact .entered request id made absent
      · cases taken
  | process request processing =>
      simp only [step] at taken
      split at taken
      · rename_i id object serving
        have holds : (Phase.failed id (some object)).held = (state.phase request).held := by
          rw [serving]
          rfl
        cases processing with
        | noData =>
            cases taken
            exact .of_goto rfl rfl rfl (fun same => nomatch same) (Or.inr holds)
              fun _ _ _ same => nomatch same
        | served now =>
            cases taken
            exact .of_goto rfl rfl rfl (fun same => nomatch same) (Or.inl rfl)
              fun _ _ _ same => nomatch same
        | threw =>
            cases taken
            exact .of_goto rfl rfl rfl (fun same => nomatch same) (Or.inr holds)
              fun _ _ _ same => nomatch same
      · cases taken
  | removeSession request =>
      simp only [step] at taken
      split at taken
      · rename_i id own failed
        cases taken
        by_cases named : id = ""
        · rw [State.remove, if_pos named]
          refine .of_goto rfl rfl rfl (fun same => nomatch same) (Or.inl rfl) ?_
          intro other name held same phase
          cases same
          cases failed.symm.trans phase
          exact Or.inl named
        · rw [State.remove, if_neg named]
          cases listed : state.sessions.lookup id with
          | none =>
              refine .of_goto rfl rfl rfl (fun same => nomatch same) (Or.inl rfl) ?_
              intro other name held same phase
              cases same
              cases failed.symm.trans phase
              exact Or.inr listed
          | some object => exact .removed request id own object failed named listed
      · cases taken
  | closeMe object =>
      cases taken
      exact .quiet _ _ rfl rfl (fun _ => id) (fun _ => Or.inr rfl) fun _ _ _ same => nomatch same
  | onCleaner now =>
      cases taken
      exact .cleaned now

theorem takenOut_cons {event : Event} {log : List Event} {object : Nat} :
    TakenOut (event :: log) object ↔ event.TakesOut object ∨ TakenOut log object := by
  simp [TakenOut]

/-- A request takes a session that is registered, or that it registers itself. -/
theorem sound_take {state : State} (sound : Sound state) {request : Nat} {id : String}
    {object : Nat} {sessions : List (String × Nat)} (keys : (sessions.map Prod.fst).Nodup)
    (objects : (sessions.map Prod.snd).Nodup)
    (present : ∀ item ∈ sessions, ¬ TakenOut state.log item.2)
    (others : ∀ other, other ≠ request → (state.phase other).early = true →
      other ∉ sessions.map Prod.snd)
    (listed : sessions.lookup id = some object)
    (rest : ∀ name, name ≠ id → sessions.lookup name = state.sessions.lookup name)
    (before : ∀ other, state.sessions.lookup id = some other → other = object) :
    Sound ({ state with sessions := sessions }.take request id object) := by
  have removed : ∀ other, TakenOut (.obtained request id object :: state.log) other ↔
      TakenOut state.log other := by
    intro other
    rw [takenOut_cons]
    exact or_iff_right fun impossible => impossible
  refine ⟨keys, objects, ?_, ?_, ?_, ?_, ?_⟩
  · intro item member
    exact fun gone => present item member ((removed item.2).mp gone)
  · intro other
    change (Function.update state.phase request _ other).early = true → _
    rw [Function.update_apply]
    split
    · exact fun same => nomatch same
    · rename_i different
      intro early
      have own := sound.early other early
      exact ⟨others other different early, fun gone => own.2 ((removed other).mp gone)⟩
  · intro other name held
    change (Function.update state.phase request _ other).held = some (name, held) → _
    rw [Function.update_apply]
    split
    · intro same
      cases same
      exact Or.inl listed
    · intro holds
      rcases sound.held other name held holds with there | gone
      · apply Or.inl
        by_cases same : name = id
        · rw [same] at there ⊢
          exact listed.trans (congrArg some (before held there).symm)
        · exact (rest name same).trans there
      · exact Or.inr ((removed held).mpr gone)
  · intro name
    change sessions.lookup name = latest name (.obtained request id object :: state.log)
    rw [latest]
    split
    · rename_i same
      rw [← same, listed]
    · rename_i different
      rw [rest name (Ne.symm different), sound.latest name]
  · refine ⟨fun other told => ?_, sound.agreeing⟩
    rw [← sound.latest id] at told
    exact before other told

theorem sound_found {state : State} (sound : Sound state) {request : Nat} {id : String}
    {object : Nat} (listed : state.sessions.lookup id = some object) :
    Sound (state.take request id object) := by
  apply sound_take sound sound.keys sound.objects sound.present
  · exact fun other _ early => (sound.early other early).1
  · exact listed
  · exact fun _ _ => rfl
  · intro other found
    exact Option.some.inj (found.symm.trans listed)

theorem sound_entered {state : State} (sound : Sound state) {request : Nat} {id : String}
    (phase : state.phase request = .made id) (absent : state.sessions.lookup id = none) :
    Sound ({ state with sessions := state.sessions ++ [(id, request)] }.take request id request) := by
  have early : (state.phase request).early = true := by rw [phase]; rfl
  have fresh := sound.early request early
  have missing : id ∉ state.sessions.map Prod.fst := by
    intro member
    obtain ⟨item, inside, named⟩ := List.mem_map.mp member
    have different := List.lookup_eq_none_iff.mp absent item inside
    rw [named] at different
    simp at different
  apply sound_take sound
  · rw [List.map_append, List.map_singleton, ← List.concat_eq_append]
    exact sound.keys.concat missing
  · rw [List.map_append, List.map_singleton, ← List.concat_eq_append]
    exact sound.objects.concat fresh.1
  · intro item member
    rcases List.mem_append.mp member with known | new
    · exact sound.present item known
    · rw [List.mem_singleton.mp new]
      exact fresh.2
  · intro other different early member
    rw [List.map_append, List.mem_append, List.map_singleton, List.mem_singleton] at member
    rcases member with known | same
    · exact (sound.early other early).1 known
    · exact different same
  · rw [List.lookup_append, absent, Option.none_or, List.lookup_cons_self]
  · intro name different
    have unequal : (name == id) = false := beq_eq_false_iff_ne.mpr different
    simp [List.lookup_append, List.lookup_cons, unequal]
  · intro other found
    rw [absent] at found
    cases found

/-- The events of the cleaner. -/
theorem latest_expired (entries : List (String × Nat)) (log : List Event) (id : String) :
    latest id (entries.map (fun item => .expired item.1 item.2) ++ log) =
      if id ∈ entries.map Prod.fst then none else latest id log := by
  induction entries with
  | nil => simp
  | cons entry rest ih =>
      rw [List.map_cons, List.cons_append, latest, ih, List.map_cons]
      by_cases same : entry.1 = id
      · simp [same]
      · have later : id ∈ entry.1 :: rest.map Prod.fst ↔ id ∈ rest.map Prod.fst := by
          rw [List.mem_cons]
          exact or_iff_right (Ne.symm same)
        rw [if_neg same]
        simp only [later]

theorem agreeing_expired (entries : List (String × Nat)) {log : List Event}
    (agreeing : Agreeing log) :
    Agreeing (entries.map (fun item => .expired item.1 item.2) ++ log) := by
  induction entries with
  | nil => exact agreeing
  | cons entry rest ih => exact ih

theorem takenOut_expired (entries : List (String × Nat)) (log : List Event) (object : Nat) :
    TakenOut (entries.map (fun item => .expired item.1 item.2) ++ log) object ↔
      object ∈ entries.map Prod.snd ∨ TakenOut log object := by
  induction entries with
  | nil => simp
  | cons entry rest ih =>
      rw [List.map_cons, List.cons_append, takenOut_cons, ih, List.map_cons, List.mem_cons,
        or_assoc]
      exact or_congr_left eq_comm

/-- Sessions are taken out, and the log tells of each of them. -/
theorem sound_without {state next : State} (sound : Sound state) (kept : String × Nat → Bool)
    (sessions : next.sessions = state.sessions.filter kept)
    (gone : ∀ object, TakenOut next.log object ↔
      object ∈ (state.sessions.filter fun item => !kept item).map Prod.snd ∨
        TakenOut state.log object)
    (told : ∀ id, latest id next.log =
      if id ∈ (state.sessions.filter fun item => !kept item).map Prod.fst then none
      else latest id state.log)
    (agreeing : Agreeing next.log)
    (early : ∀ request, (next.phase request).early = true → (state.phase request).early = true)
    (held : ∀ request, (next.phase request).held = none ∨
      (next.phase request).held = (state.phase request).held) : Sound next := by
  have less : List.Sublist next.sessions state.sessions := by
    rw [sessions]
    exact List.filter_sublist
  have lost : ∀ item ∈ state.sessions, kept item = false →
      item ∈ state.sessions.filter fun item => !kept item := by
    intro item member out
    exact List.mem_filter.mpr ⟨member, by rw [out]; rfl⟩
  -- An entry that stays has another name and another object than those that are taken out.
  have apart : ∀ item ∈ state.sessions, kept item = true → ∀ other ∈ state.sessions.filter
      (fun item => !kept item), other.1 ≠ item.1 ∧ other.2 ≠ item.2 := by
    intro item member stays other inside
    have parts := List.mem_filter.mp inside
    have different : other ≠ item := by
      rintro rfl
      have out := parts.2
      rw [stays] at out
      cases out
    exact ⟨fun same => different (List.inj_on_of_nodup_map sound.keys parts.1 member same),
      fun same => different (List.inj_on_of_nodup_map sound.objects parts.1 member same)⟩
  refine ⟨sound.keys.sublist (less.map _), sound.objects.sublist (less.map _), ?_, ?_, ?_, ?_,
    agreeing⟩
  · intro item member taken
    rw [sessions] at member
    have parts := List.mem_filter.mp member
    rcases (gone item.2).mp taken with out | before
    · obtain ⟨other, inside, same⟩ := List.mem_map.mp out
      exact (apart item parts.1 parts.2 other inside).2 same
    · exact sound.present item parts.1 before
  · intro request first
    have own := sound.early request (early request first)
    refine ⟨fun member => own.1 ((less.map _).subset member), fun taken => ?_⟩
    rcases (gone request).mp taken with out | before
    · exact own.1 ((List.filter_sublist.map _).subset out)
    · exact own.2 before
  · intro request id object holds
    have holding : (state.phase request).held = some (id, object) := by
      rcases held request with none | same
      · rw [none] at holds
        cases holds
      · exact same ▸ holds
    rcases sound.held request id object holding with listed | before
    · cases stays : kept (id, object) with
      | true =>
          apply Or.inl
          rw [sessions, Assoc.lookup_filter sound.keys kept listed, stays]
          rfl
      | false =>
          apply Or.inr
          apply (gone object).mpr
          apply Or.inl
          exact List.mem_map_of_mem (lost _ (Assoc.mem_of_lookup listed) stays)
    · exact Or.inr ((gone object).mpr (Or.inr before))
  · intro id
    rw [told id, ← sound.latest id, sessions]
    cases listed : state.sessions.lookup id with
    | none =>
        have missing := List.lookup_eq_none_iff.mp listed
        have still : (state.sessions.filter kept).lookup id = none := by
          apply List.lookup_eq_none_iff.mpr
          exact fun item member => missing item (List.mem_of_mem_filter member)
        rw [still]
        split <;> rfl
    | some object =>
        have entry := Assoc.mem_of_lookup listed
        rw [Assoc.lookup_filter sound.keys kept listed]
        cases stays : kept (id, object) with
        | true =>
            have absent : id ∉ (state.sessions.filter fun item => !kept item).map Prod.fst := by
              intro member
              obtain ⟨other, inside, same⟩ := List.mem_map.mp member
              exact (apart _ entry stays other inside).1 same
            rw [if_neg absent, if_pos rfl]
        | false =>
            have out : id ∈ (state.sessions.filter fun item => !kept item).map Prod.fst :=
              List.mem_map_of_mem (lost _ entry stays)
            rw [if_pos out, if_neg (by decide)]

theorem sound_quiet {state next : State} (sound : Sound state)
    (sessions : next.sessions = state.sessions) (log : next.log = state.log)
    (early : ∀ request, (next.phase request).early = true → (state.phase request).early = true)
    (held : ∀ request, (next.phase request).held = none ∨
      (next.phase request).held = (state.phase request).held) : Sound next := by
  apply sound_without sound (fun _ => true) _ _ _ _ early held
  · rw [sessions, List.filter_true]
  · intro object
    simp [log]
  · intro id
    simp [log]
  · rw [log]
    exact sound.agreeing

/-- The entry of an id is the only one with that id. -/
theorem named_entries {state : State} (sound : Sound state) {id : String} {object : Nat}
    (listed : state.sessions.lookup id = some object) (item : String × Nat) :
    item ∈ (state.sessions.filter fun item => !decide (item.1 ≠ id)) ↔ item = (id, object) := by
  have entry := Assoc.mem_of_lookup listed
  rw [List.mem_filter]
  constructor
  · rintro ⟨member, named⟩
    have same : item.1 = id := by simpa using named
    exact List.inj_on_of_nodup_map sound.keys member entry same
  · rintro rfl
    exact ⟨entry, by simp⟩

/-- `RemoveSession` takes out what is registered under the id. -/
theorem sound_removed {state : State} (sound : Sound state) {request : Nat} {id : String}
    {own : Option Nat} {object : Nat} (listed : state.sessions.lookup id = some object) :
    Sound ({ state with
      sessions := state.sessions.filter fun item => item.1 ≠ id
      log := .removed request own id object :: state.log }.goto request .done) := by
  have entries := named_entries sound listed
  apply sound_without sound (fun item => decide (item.1 ≠ id)) rfl
  · intro other
    have out : other ∈ (state.sessions.filter fun item => !decide (item.1 ≠ id)).map Prod.snd ↔
        object = other := by
      simp only [List.mem_map, entries, exists_eq_left]
    rw [out]
    exact takenOut_cons
  · intro name
    have out : name ∈ (state.sessions.filter fun item => !decide (item.1 ≠ id)).map Prod.fst ↔
        id = name := by
      simp only [List.mem_map, entries, exists_eq_left]
    simp only [out]
    rfl
  · exact sound.agreeing
  · exact early_goto fun same => nomatch same
  · exact held_goto (Or.inl rfl)

theorem sound_cleaned {state : State} (sound : Sound state) (sessionTimeout : Nat) (now : Int) :
    Sound (state.clean sessionTimeout now) := by
  apply sound_without sound (fun item => !state.old sessionTimeout now item.2) rfl
  · intro object
    simp only [Bool.not_not]
    exact takenOut_expired _ _ _
  · intro id
    simp only [Bool.not_not]
    exact latest_expired _ _ _
  · exact agreeing_expired _ sound.agreeing
  · exact fun _ before => before
  · exact fun _ => Or.inr rfl

theorem sound_new : Sound State.new where
  keys := List.nodup_nil
  objects := List.nodup_nil
  present := fun _ member => absurd member List.not_mem_nil
  early := fun _ _ => ⟨List.not_mem_nil, fun gone => absurd gone.choose_spec.1 List.not_mem_nil⟩
  held := fun _ _ _ holds => nomatch holds
  latest := fun _ => rfl
  agreeing := trivial

theorem sound_step {sessionTimeout : Nat} {state next : State} {action : Action}
    (sound : Sound state) (taken : step sessionTimeout state action = some next) : Sound next := by
  cases step_effect taken with
  | quiet _ _ sessions log early held _ => exact sound_quiet sound sessions log early held
  | found _ request id object _ listed => exact sound_found sound listed
  | entered request id phase absent => exact sound_entered sound phase absent
  | removed request id own object _ _ listed => exact sound_removed sound listed
  | cleaned now => exact sound_cleaned sound sessionTimeout now

/-- No request has taken out a session of another. -/
def Own (log : List Event) : Prop := ∀ event ∈ log, ¬ event.Foreign

theorem own_cons {event : Event} {log : List Event} :
    Own (event :: log) ↔ ¬ event.Foreign ∧ Own log := by
  simp [Own]

theorem own_obtained (request : Nat) (id : String) (object : Nat) (log : List Event) :
    Own (.obtained request id object :: log) ↔ Own log := by
  rw [own_cons]
  exact and_iff_right fun impossible => impossible

theorem own_expired (entries : List (String × Nat)) (log : List Event) :
    Own (entries.map (fun item => .expired item.1 item.2) ++ log) ↔ Own log := by
  induction entries with
  | nil => exact Iff.rfl
  | cons entry rest ih =>
      rw [List.map_cons, List.cons_append, own_cons, ih]
      exact and_iff_right fun impossible => impossible

theorem current_of_other {state : State} {action : Action}
    (other : ∀ request, action ≠ .removeSession request) : Current state action := by
  cases action with
  | removeSession request => exact absurd rfl (other request)
  | _ => trivial

/-- A failed request removes its own session exactly when that is still registered. -/
theorem own_removed {state : State} (sound : Sound state) {request : Nat} {id : String}
    {own : Option Nat} {object : Nat} (phase : state.phase request = .failed id own)
    (named : id ≠ "") (listed : state.sessions.lookup id = some object) :
    own = some object ↔ Current state (.removeSession request) := by
  constructor
  · intro same name held there _
    cases phase.symm.trans there
    exact Or.inr ⟨object, same, sound.present _ (Assoc.mem_of_lookup listed)⟩
  · intro current
    rcases current id own phase named with none | ⟨held, same, there⟩
    · rw [listed] at none
      cases none
    · have holds : (state.phase request).held = some (id, held) := by
        rw [phase, same]
        rfl
      rcases sound.held request id held holds with found | gone
      · rw [same, ← found, listed]
      · exact absurd gone there

theorem own_next {sessionTimeout : Nat} {state next : State} {action : Action}
    (sound : Sound state) (taken : step sessionTimeout state action = some next) :
    Own next.log ↔ Own state.log ∧ Current state action := by
  cases step_effect taken with
  | quiet _ _ _ log _ _ unfound =>
      rw [log]
      refine (and_iff_left ?_).symm
      cases action with
      | removeSession request =>
          intro id own phase named
          exact Or.inl ((unfound request id own rfl phase).resolve_left named)
      | _ => trivial
  | found _ request id object other listed =>
      change Own (.obtained request id object :: state.log) ↔ _
      rw [own_obtained]
      exact (and_iff_left (current_of_other other)).symm
  | entered request id phase absent =>
      change Own (.obtained request id request :: state.log) ↔ _
      rw [own_obtained]
      exact (and_iff_left trivial).symm
  | removed request id own object phase named listed =>
      change Own (.removed request own id object :: state.log) ↔ _
      rw [own_cons, ← own_removed sound phase named listed, and_comm]
      exact and_congr_right fun _ => not_not
  | cleaned now =>
      change Own (_ ++ state.log) ↔ _
      rw [own_expired]
      exact (and_iff_left trivial).symm

theorem own_run {sessionTimeout : Nat} {actions : List Action} {state last : State}
    (sound : Sound state)
    (reached : Transition.run (step sessionTimeout) state actions = some last) :
    Own last.log ↔
      Own state.log ∧ Transition.Along (step sessionTimeout) Current state actions := by
  induction actions generalizing state with
  | nil =>
      cases reached
      exact (and_iff_left trivial).symm
  | cons action rest ih =>
      obtain ⟨next, taken, reached⟩ :=
        (Transition.run_cons_eq_some _ state last action rest).mp reached
      rw [ih (sound_step sound taken) reached, own_next sound taken, and_assoc]
      refine and_congr_right fun _ => and_congr_right fun _ => ?_
      constructor
      · intro later other same
        cases taken.symm.trans same
        exact later
      · intro later
        exact later next taken

theorem sound_run {sessionTimeout : Nat} {actions : List Action} {last : State}
    (reached : Transition.run (step sessionTimeout) State.new actions = some last) :
    Sound last :=
  Transition.run_invariant (fun _ _ _ sound _ taken => sound_step sound taken) sound_new
    (Transition.along_of_mem actions (fun _ _ _ => trivial) _) reached

/-- The sessions are isolated exactly when each request that fails was using a session
which is still registered, or finds none under its id. -/
theorem isolated_iff_current (sessionTimeout : Nat) (actions : List Action) (last : State)
    (reached : Transition.run (step sessionTimeout) State.new actions = some last) :
    Isolated last ↔ Transition.Along (step sessionTimeout) Current State.new actions := by
  have sound := sound_run reached
  have own := own_run sound_new reached
  have start : Own State.new.log := fun _ member => absurd member List.not_mem_nil
  rw [and_iff_right start] at own
  constructor
  · intro isolated
    exact own.mp isolated.own
  · intro current
    exact ⟨sound.keys, shared_of_agreeing sound.agreeing, own.mpr current⟩

/-- A request makes a session and its client throws. -/
def failingRun : List Action :=
  [.arrive 1 (some "s"), .find 1, .init 1 0 true, .emplace 1, .process 1 .threw, .removeSession 1]

theorem failing_request_is_isolated :
    ∃ last, Transition.run (step 30) State.new failingRun = some last ∧ Isolated last := by
  have reaches : ∃ last, Transition.run (step 30) State.new failingRun = some last ∧
      last.log = [.removed 1 (some 1) "s" 1, .obtained 1 "s" 1] := ⟨_, rfl, rfl⟩
  obtain ⟨last, reached, log⟩ := reaches
  have own : Own last.log := by
    rw [log, own_cons, own_obtained]
    exact ⟨fun foreign => foreign rfl, fun _ member => absurd member List.not_mem_nil⟩
  refine ⟨last, reached, (isolated_iff_current 30 failingRun last reached).mpr ?_⟩
  exact ((own_run sound_new reached).mp own).2

/-- The session of a slow request expires, another request makes a new one of the same id,
and then the slow one fails. -/
def staleRun : List Action :=
  [.arrive 1 (some "s"), .find 1, .init 1 0 true, .emplace 1, .onCleaner 60,
    .arrive 2 (some "s"), .find 2, .init 2 61 true, .emplace 2,
    .process 1 .threw, .removeSession 1]

theorem newer_session_is_removed :
    ∃ last, Transition.run (step 30) State.new staleRun = some last ∧
      .removed 1 (some 1) "s" 2 ∈ last.log ∧ ¬ Isolated last := by
  have event : ∃ last, Transition.run (step 30) State.new staleRun = some last ∧
      .removed 1 (some 1) "s" 2 ∈ last.log := ⟨_, rfl, List.mem_cons_self⟩
  obtain ⟨last, reached, member⟩ := event
  refine ⟨last, reached, member, fun isolated => isolated.own _ member ?_⟩
  show some 1 ≠ some 2
  decide

end Mif.Net.Http.Servlet
