import Mif.Net.Client
import Mif.Net.Servlet

set_option autoImplicit false

/- The sessions of `Http::Clients` and the servlet that answers them. A client session puts
its id into its requests and takes nothing from a response without it; the servlet has one
session for each id. Each region under a lock is one step, and so is each call out of one. -/
namespace Mif.Net.Http.Tunnel

/-- `Detail::Session` of the clients, with what the program does not store: whether
`RunClient` has stored it, how many calls of `CloseMe` have begun and where they are, and
the data given to the client with the requests they answer. -/
structure Session where
  id : String
  client : Option Client
  needForClose : Bool
  stored : Bool
  closings : Nat
  toNotify : Nat
  toMark : Nat
  delivered : List (Nat × Buffer)
  deriving DecidableEq, Repr

/-- A response on its way: the request it answers, the session header and the body. -/
structure Response where
  request : Nat
  header : Option String
  data : Buffer
  deriving DecidableEq, Repr

namespace Session

/-- `CloseMe` has begun. -/
def closing (session : Session) : Session :=
  { session with closings := session.closings + 1, toNotify := session.toNotify + 1 }

/-- `CloseMe` has called `OnClose`. -/
def notified (session : Session) (client : Client) : Session :=
  { session with
    client := some client.onClose.1
    toNotify := session.toNotify - 1
    toMark := session.toMark + 1 }

/-- `CloseMe` has set the mark. -/
def marked (session : Session) : Session :=
  { session with needForClose := true, toMark := session.toMark - 1 }

/-- The client has got the data of a response. -/
def given (session : Session) (request : Nat) (data : Buffer) : Session :=
  { session with delivered := session.delivered ++ [(request, data)] }

end Session

/-- `OnData` of a servlet session: the request, the session object, and what it answered
unless its client threw. -/
structure Handled where
  request : Nat
  object : Nat
  answer : Option Buffer
  deriving DecidableEq, Repr

/-- Both ends. A request is known by a number, and has an owner and data. -/
structure State where
  sessions : Nat → Option Session
  /-- the keys of `m_sessions` in `Clients::Impl` -/
  registered : List String
  requests : Nat → Option (Nat × Buffer)
  /-- `GetConnection` has returned, `MakeRequest` has not been called -/
  prepared : List Nat
  wire : List Nat
  servlet : Servlet.State
  handled : List Handled
  responses : List Response
  /-- a null `m_client` was used -/
  undefined : Bool

/-- What can happen next. -/
inductive Action
  /-- `RunClient` makes a session, whose connection is there -/
  | make (session : Nat) (id : String)
  /-- the factory returns the client -/
  | init (session : Nat)
  /-- `RunClient` stores the session and returns -/
  | emplace (session : Nat)
  /-- `Publish` up to `GetConnection` -/
  | publish (session request : Nat) (data : Buffer)
  /-- the rest of `Publish` -/
  | makeRequest (request : Nat) (succeeds : Bool)
  /-- `OnRequest` begins -/
  | arrive (request : Nat)
  /-- a step of the servlet that takes nothing from a request -/
  | servlet (action : Servlet.Action)
  /-- `OnRequest` with its session, which may answer -/
  | process (request : Nat) (processing : Servlet.Processing) (answer : Buffer)
  /-- the `catch` clauses of `OnRequest` -/
  | refuse (request : Nat) (what : Buffer)
  /-- a request or a response does not arrive -/
  | lose (request : Nat)
  /-- `OnRequestDone` -/
  | done (index : Nat) (throws : Bool)
  /-- the client calls `CloseMe` -/
  | closeMe (session : Nat)
  /-- `CloseMe` calls `OnClose` -/
  | notify (session : Nat)
  /-- `CloseMe` sets `m_needForClose` -/
  | mark (session : Nat)
  deriving DecidableEq, Repr

namespace State

def new : State := ⟨fun _ => none, [], fun _ => none, [], [], .new, [], [], false⟩

def put (state : State) (number : Nat) (session : Session) : State :=
  { state with sessions := Function.update state.sessions number (some session) }

/-- `CloseMe` up to the call of `OnClose`: `m_onCloseHandler` removes the session. -/
def close (state : State) (number : Nat) (session : Session) : State :=
  { state with registered := state.registered.filter (· ≠ session.id) }.put number session.closing

/-- The checks of `OnRequestDone`. -/
def accepts (session : Session) (response : Response) : Bool :=
  match response.header with
  | none => false
  | some id => id ≠ "" && id = session.id && !response.data.isEmpty

/-- `OnRequestDone` of the session that owns the connection. -/
def onRequestDone (state : State) (number : Nat) (session : Session) (response : Response)
    (throws : Bool) : State :=
  if accepts session response then
    match session.client with
    | none => { state with undefined := true }
    | some client =>
        match client.onData response.data with
        | .ignored => state
        | .refused _ => state.close number session
        | .processed =>
            let given := session.given response.request response.data
            if throws then state.close number given else state.put number given
  else state.close number session

/-- The session header of an answer, which a session that is to be closed does not get. -/
def header (servlet : Servlet.State) (id : String) (object : Nat) : Option String :=
  if servlet.needForClose object then none else some id

end State

/-- The steps of the servlet that need nothing of a request. -/
def inside : Servlet.Action → Bool
  | .arrive _ _ | .process _ _ | .removeSession _ => false
  | _ => true

/-- One step. A step that is not the next one does not exist. -/
def step (sessionTimeout : Nat) (state : State) : Action → Option State
  | .make number id =>
      match state.sessions number with
      | some _ => none
      | none => some (state.put number ⟨id, none, false, false, 0, 0, 0, []⟩)
  | .init number =>
      match state.sessions number with
      | some session =>
          if session.client.isSome then none
          else some (state.put number { session with client := some .new })
      | none => none
  | .emplace number =>
      match state.sessions number with
      | some session =>
          if session.stored = true ∨ session.client = none then none
          else
            some ({ state with
              registered := session.id :: state.registered.filter (· ≠ session.id) }.put number
                { session with stored := true })
      | none => none
  | .publish number request data =>
      match state.sessions number, state.requests request with
      | some session, none =>
          if session.needForClose then some (state.close number session)
          else
            some { state with
              requests := Function.update state.requests request (some (number, data))
              prepared := state.prepared ++ [request] }
      | _, _ => none
  | .makeRequest request succeeds =>
      if request ∈ state.prepared then
        let taken := { state with prepared := state.prepared.erase request }
        if succeeds then some { taken with wire := state.wire ++ [request] }
        else
          (state.requests request).bind fun sent =>
            (state.sessions sent.1).map fun session => taken.close sent.1 session
      else none
  | .arrive request =>
      if request ∈ state.wire then
        (state.requests request).bind fun sent =>
          (state.sessions sent.1).bind fun session =>
            (Servlet.step sessionTimeout state.servlet (.arrive request (some session.id))).map
              fun servlet =>
                { state with servlet := servlet, wire := state.wire.erase request }
      else none
  | .servlet action =>
      if inside action then
        (Servlet.step sessionTimeout state.servlet action).map fun servlet =>
          { state with servlet := servlet }
      else none
  | .process request processing answer =>
      match state.requests request, state.servlet.phase request with
      | some (_, data), .serving id object =>
          if processing = .noData ↔ data = [] then
            (Servlet.step sessionTimeout state.servlet (.process request processing)).map
              fun servlet =>
                let next := { state with servlet := servlet }
                match processing with
                | .noData => next
                | .threw => { next with handled := state.handled ++ [⟨request, object, none⟩] }
                | .served _ =>
                    { next with
                      handled := state.handled ++ [⟨request, object, some answer⟩]
                      responses := state.responses ++
                        [⟨request, State.header servlet id object, answer⟩] }
          else none
      | _, _ => none
  | .refuse request what =>
      (Servlet.step sessionTimeout state.servlet (.removeSession request)).map fun servlet =>
        { state with
          servlet := servlet
          responses := state.responses ++ [⟨request, none, what⟩] }
  | .lose request =>
      some { state with
        wire := state.wire.filter (· ≠ request)
        responses := state.responses.filter fun response => response.request ≠ request }
  | .done index throws =>
      (state.responses[index]?).bind fun response =>
        (state.requests response.request).bind fun sent =>
          (state.sessions sent.1).map fun session =>
            { state with responses := state.responses.eraseIdx index }.onRequestDone sent.1
              session response throws
  | .closeMe number => (state.sessions number).map fun session => state.close number session
  | .notify number =>
      (state.sessions number).bind fun session =>
        if session.toNotify = 0 then none
        else
          match session.client with
          | none => some { state with undefined := true }
          | some client => some (state.put number (session.notified client))
  | .mark number =>
      (state.sessions number).bind fun session =>
        if session.toMark = 0 then none
        else some (state.put number session.marked)

/-- Ids are given once, and a client uses its session when `RunClient` has returned it. -/
def Orderly (state : State) : Action → Prop
  | .make _ id => id ≠ "" ∧ ∀ number session, state.sessions number = some session → session.id ≠ id
  | .publish number _ _ | .closeMe number =>
      ∀ session, state.sessions number = some session → session.stored = true
  | _ => True

/-- The id that a request was sent with. -/
def idOf (state : State) (request : Nat) : Option String :=
  (state.requests request).bind fun sent => (state.sessions sent.1).map Session.id

/-- What holds of the sessions of the clients. -/
structure ClientsOk (state : State) : Prop where
  ids : ∀ number other session another, state.sessions number = some session →
    state.sessions other = some another → session.id = another.id → number = other
  ready : ∀ number session, state.sessions number = some session → session.stored = true →
    session.client ≠ none
  told : ∀ number session, state.sessions number = some session →
    0 < session.closings ∨ 0 < session.toNotify → session.stored = true
  listed : ∀ id ∈ state.registered, ∃ number session,
    state.sessions number = some session ∧ session.id = id
  registered : ∀ number session, state.sessions number = some session →
    (session.id ∈ state.registered ↔ session.stored = true ∧ session.closings = 0)
  owners : ∀ request sent, state.requests request = some sent →
    ∃ session, state.sessions sent.1 = some session ∧ session.stored = true
  defined : state.undefined = false

theorem new_clientsOk : ClientsOk .new where
  ids _ _ _ _ found := by cases found
  ready _ _ found := by cases found
  told _ _ found := by cases found
  listed _ member := by cases member
  registered _ _ found := by cases found
  owners _ _ found := by cases found
  defined := rfl

/-- Steps that do not concern the sessions. -/
theorem ClientsOk.same {state next : State} (ok : ClientsOk state)
    (sessions : next.sessions = state.sessions) (registered : next.registered = state.registered)
    (requests : next.requests = state.requests) (undefined : next.undefined = state.undefined) :
    ClientsOk next where
  ids := by rw [sessions]; exact ok.ids
  ready := by rw [sessions]; exact ok.ready
  told := by rw [sessions]; exact ok.told
  listed := by rw [sessions, registered]; exact ok.listed
  registered := by rw [sessions, registered]; exact ok.registered
  owners := by rw [sessions, requests]; exact ok.owners
  defined := by rw [undefined]; exact ok.defined

theorem put_sessions (state : State) (number other : Nat) (session : Session) :
    (state.put number session).sessions other =
      if other = number then some session else state.sessions other := by
  simp only [State.put, Function.update_apply]

/-- One session changes, and keeps its id. -/
theorem ClientsOk.alter {state next : State} (ok : ClientsOk state) {number : Nat}
    {old : Session} (session : Session) (found : state.sessions number = some old) (id : session.id = old.id)
    (ready : session.stored = true → session.client ≠ none)
    (told : 0 < session.closings ∨ 0 < session.toNotify → session.stored = true)
    (stored : old.stored = true → session.stored = true)
    (others : ∀ id, id ≠ old.id → (id ∈ next.registered ↔ id ∈ state.registered))
    (own : old.id ∈ next.registered ↔ session.stored = true ∧ session.closings = 0)
    (sessions : next.sessions = (state.put number session).sessions)
    (requests : next.requests = state.requests) (undefined : next.undefined = false) :
    ClientsOk next where
  ids first second one another foundFirst foundSecond same := by
    have olds : ∀ index found, next.sessions index = some found →
        ∃ before, state.sessions index = some before ∧ before.id = found.id := by
      intro index found' reached
      rw [sessions, put_sessions] at reached
      split at reached
      · rename_i here
        cases reached
        exact ⟨old, by rw [here]; exact found, id.symm⟩
      · exact ⟨found', reached, rfl⟩
    obtain ⟨before, foundBefore, idBefore⟩ := olds first one foundFirst
    obtain ⟨earlier, foundEarlier, idEarlier⟩ := olds second another foundSecond
    apply ok.ids first second before earlier foundBefore foundEarlier
    rw [idBefore, idEarlier, same]
  ready index found' reached := by
    rw [sessions, put_sessions] at reached
    split at reached
    · cases reached
      exact ready
    · exact ok.ready index found' reached
  told index found' reached := by
    rw [sessions, put_sessions] at reached
    split at reached
    · cases reached
      exact told
    · exact ok.told index found' reached
  listed name member := by
    by_cases here : name = old.id
    · refine ⟨number, session, ?_, ?_⟩
      · rw [sessions, put_sessions, if_pos rfl]
      · rw [id, here]
    · obtain ⟨index, other, reached, named⟩ := ok.listed name ((others name here).mp member)
      refine ⟨index, other, ?_, named⟩
      rw [sessions, put_sessions, if_neg ?_]
      · exact reached
      · intro same
        rw [same, found] at reached
        cases reached
        exact here named.symm
  registered index found' reached := by
    rw [sessions, put_sessions] at reached
    split at reached
    · cases reached
      rw [id]
      exact own
    · rename_i elsewhere
      have different : found'.id ≠ old.id := by
        intro same
        exact elsewhere (ok.ids index number found' old reached found same)
      rw [others found'.id different]
      exact ok.registered index found' reached
  owners request sent reached := by
    rw [requests] at reached
    obtain ⟨owner, foundOwner, storedOwner⟩ := ok.owners request sent reached
    rw [sessions, put_sessions]
    split
    · rename_i here
      rw [here, found] at foundOwner
      cases foundOwner
      exact ⟨session, rfl, stored storedOwner⟩
    · exact ⟨owner, foundOwner, storedOwner⟩
  defined := undefined

/-- A session that is given out is closed. -/
theorem ClientsOk.close {state : State} (ok : ClientsOk state) {number : Nat} {old : Session}
    (session : Session) (found : state.sessions number = some old) (id : session.id = old.id)
    (client : session.client = old.client) (stored : session.stored = true)
    (already : old.stored = true) : ClientsOk (state.close number session) := by
  refine ok.alter session.closing found id ?_ ?_ ?_ ?_ ?_ rfl rfl
    ok.defined
  · intro _
    show session.client ≠ none
    rw [client]
    exact ok.ready number old found already
  · exact fun _ => stored
  · exact fun _ => stored
  · intro name different
    rw [id.symm] at different
    simp [State.close, State.put, different]
  · rw [← id]
    simp [State.close, State.put, Session.closing]

/-- A new session is made under an id of its own. -/
theorem ClientsOk.make {state : State} (ok : ClientsOk state) {number : Nat} {id : String}
    (absent : state.sessions number = none)
    (unused : ∀ other session, state.sessions other = some session → session.id ≠ id) :
    ClientsOk (state.put number ⟨id, none, false, false, 0, 0, 0, []⟩) := by
  have unlisted : id ∉ state.registered := by
    intro member
    obtain ⟨other, session, found, named⟩ := ok.listed id member
    exact unused other session found named
  refine ⟨?_, ?_, ?_, ?_, ?_, ?_, ok.defined⟩
  · intro first second one another foundFirst foundSecond same
    rw [put_sessions] at foundFirst foundSecond
    split at foundFirst
    · split at foundSecond
      · omega
      · cases foundFirst
        exact absurd same.symm (unused second another foundSecond)
    · split at foundSecond
      · cases foundSecond
        exact absurd same (unused first one foundFirst)
      · exact ok.ids first second one another foundFirst foundSecond same
  · intro other session found stored
    rw [put_sessions] at found
    split at found
    · cases found
      cases stored
    · exact ok.ready other session found stored
  · intro other session found begun
    rw [put_sessions] at found
    split at found
    · cases found
      simp at begun
    · exact ok.told other session found begun
  · intro name member
    obtain ⟨other, session, found, named⟩ := ok.listed name member
    refine ⟨other, session, ?_, named⟩
    rw [put_sessions, if_neg ?_]
    · exact found
    · intro same
      rw [same, absent] at found
      cases found
  · intro other session found
    rw [put_sessions] at found
    split at found
    · cases found
      simpa [State.put] using unlisted
    · exact ok.registered other session found
  · intro request sent reached
    obtain ⟨session, found, stored⟩ := ok.owners request sent reached
    refine ⟨session, ?_, stored⟩
    rw [put_sessions, if_neg ?_]
    · exact found
    · intro same
      rw [same, absent] at found
      cases found

theorem onRequestDone_clientsOk {state : State} (ok : ClientsOk state) {number : Nat}
    {session : Session} (found : state.sessions number = some session)
    (stored : session.stored = true) (response : Response) (throws : Bool) :
    ClientsOk (state.onRequestDone number session response throws) := by
  unfold State.onRequestDone
  split
  · split
    · rename_i absent
      exact absurd absent (ok.ready number session found stored)
    · split
      · exact ok
      · exact ok.close session found rfl rfl stored stored
      · split
        · exact ok.close (session.given response.request response.data) found rfl rfl stored stored
        · exact ok.alter (session.given response.request response.data) found rfl
            (ok.ready number session found) (ok.told number session found) id
            (fun _ _ => Iff.rfl) (ok.registered number session found) rfl rfl ok.defined
  · exact ok.close session found rfl rfl stored stored

theorem clients_step (sessionTimeout : Nat) (state : State) (action : Action) (next : State)
    (ok : ClientsOk state) (orderly : Orderly state action)
    (taken : step sessionTimeout state action = some next) : ClientsOk next := by
  cases action with
  | make number id =>
      simp only [step] at taken
      split at taken
      · cases taken
      · rename_i absent
        cases taken
        exact ok.make absent orderly.2
  | init number =>
      simp only [step] at taken
      split at taken
      · rename_i session found
        split at taken
        · cases taken
        · cases taken
          exact ok.alter { session with client := some .new } found rfl
            (fun _ => Option.some_ne_none _) (ok.told number session found) id
            (fun _ _ => Iff.rfl) (ok.registered number session found) rfl rfl ok.defined
      · cases taken
  | emplace number =>
      simp only [step] at taken
      split at taken
      · rename_i session found
        split at taken
        · cases taken
        · rename_i enabled
          have unstored : session.stored ≠ true := fun stored => enabled (Or.inl stored)
          have present : session.client ≠ none := fun absent => enabled (Or.inr absent)
          have unclosed : session.closings = 0 := by
            by_contra begun
            exact unstored (ok.told number session found (Or.inl (by omega)))
          cases taken
          refine ok.alter { session with stored := true } found rfl
            (fun _ => present) (fun _ => rfl) (fun _ => rfl) ?_ ?_ rfl rfl ok.defined
          · intro id different
            simp [State.put, different]
          · simp [State.put, unclosed]
      · cases taken
  | publish number request data =>
      simp only [step] at taken
      split at taken
      · rename_i session found absent
        have stored := orderly session found
        split at taken
        · cases taken
          exact ok.close session found rfl rfl stored stored
        · cases taken
          refine ⟨ok.ids, ok.ready, ok.told, ok.listed, ok.registered, ?_, ok.defined⟩
          intro other sent reached
          simp only [Function.update_apply] at reached
          split at reached
          · cases reached
            exact ⟨session, found, stored⟩
          · exact ok.owners other sent reached
      · cases taken
  | makeRequest request succeeds =>
      simp only [step] at taken
      split at taken
      · split at taken
        · cases taken
          exact ok.same rfl rfl rfl rfl
        · obtain ⟨sent, known, taken⟩ := Option.bind_eq_some_iff.mp taken
          obtain ⟨session, found, rfl⟩ := Option.map_eq_some_iff.mp taken
          obtain ⟨owner, foundOwner, stored⟩ := ok.owners request sent known
          rw [found] at foundOwner
          cases foundOwner
          have kept : ClientsOk { state with prepared := state.prepared.erase request } :=
            ok.same rfl rfl rfl rfl
          exact kept.close session found rfl rfl stored stored
      · cases taken
  | arrive request =>
      simp only [step] at taken
      split at taken
      · obtain ⟨sent, known, taken⟩ := Option.bind_eq_some_iff.mp taken
        obtain ⟨session, found, taken⟩ := Option.bind_eq_some_iff.mp taken
        obtain ⟨servlet, stepped, rfl⟩ := Option.map_eq_some_iff.mp taken
        exact ok.same rfl rfl rfl rfl
      · cases taken
  | servlet action =>
      simp only [step] at taken
      split at taken
      · obtain ⟨servlet, stepped, rfl⟩ := Option.map_eq_some_iff.mp taken
        exact ok.same rfl rfl rfl rfl
      · cases taken
  | process request processing answer =>
      simp only [step] at taken
      split at taken
      · split at taken
        · obtain ⟨servlet, stepped, rfl⟩ := Option.map_eq_some_iff.mp taken
          cases processing with
          | noData => exact ok.same rfl rfl rfl rfl
          | served now => exact ok.same rfl rfl rfl rfl
          | threw => exact ok.same rfl rfl rfl rfl
        · cases taken
      · cases taken
  | refuse request what =>
      simp only [step] at taken
      obtain ⟨servlet, stepped, rfl⟩ := Option.map_eq_some_iff.mp taken
      exact ok.same rfl rfl rfl rfl
  | lose request =>
      cases taken
      exact ok.same rfl rfl rfl rfl
  | done index throws =>
      simp only [step] at taken
      obtain ⟨response, listed, taken⟩ := Option.bind_eq_some_iff.mp taken
      obtain ⟨sent, known, taken⟩ := Option.bind_eq_some_iff.mp taken
      obtain ⟨session, found, rfl⟩ := Option.map_eq_some_iff.mp taken
      obtain ⟨owner, foundOwner, stored⟩ := ok.owners response.request sent known
      rw [found] at foundOwner
      cases foundOwner
      have kept : ClientsOk { state with responses := state.responses.eraseIdx index } :=
        ok.same rfl rfl rfl rfl
      exact onRequestDone_clientsOk kept found stored response throws
  | closeMe number =>
      simp only [step] at taken
      obtain ⟨session, found, rfl⟩ := Option.map_eq_some_iff.mp taken
      have stored := orderly session found
      exact ok.close session found rfl rfl stored stored
  | notify number =>
      simp only [step] at taken
      obtain ⟨session, found, taken⟩ := Option.bind_eq_some_iff.mp taken
      split at taken
      · cases taken
      · rename_i waiting
        have stored := ok.told number session found (Or.inr (by omega))
        split at taken
        · rename_i absent
          exact absurd absent (ok.ready number session found stored)
        · rename_i client present
          cases taken
          exact ok.alter (session.notified client) found rfl
            (fun _ => Option.some_ne_none _) (fun _ => stored) id (fun _ _ => Iff.rfl)
            (ok.registered number session found) rfl rfl ok.defined
  | mark number =>
      simp only [step] at taken
      obtain ⟨session, found, taken⟩ := Option.bind_eq_some_iff.mp taken
      split at taken
      · cases taken
      · cases taken
        exact ok.alter session.marked found rfl
          (ok.ready number session found) (ok.told number session found) id
          (fun _ _ => Iff.rfl) (ok.registered number session found) rfl rfl ok.defined

end Mif.Net.Http.Tunnel
