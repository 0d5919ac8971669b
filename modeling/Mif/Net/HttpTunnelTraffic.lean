import Mathlib.Data.List.Perm.Subperm
import Mif.Net.HttpTunnel
import Mif.Net.ServletRequests

set_option autoImplicit false

/- The requests and responses between the sessions of the clients and a servlet: nothing is
handled or delivered twice, and no session gets what belongs to another. -/
namespace Mif.Net.Http.Tunnel

open Servlet (Belongs belongs_step rank step_phase process_phase removeSession_phase)

/-- The numbers of the responses on their way. -/
def answering (state : State) : List Nat := state.responses.map Response.request

/-- What holds of the requests and of what became of them. -/
structure TrafficOk (state : State) : Prop where
  fresh : ∀ request, state.requests request = none → state.servlet.phase request = .idle
  waiting : ∀ request ∈ state.prepared ++ state.wire,
    state.servlet.phase request = .idle ∧ state.requests request ≠ none
  distinct : (state.prepared ++ state.wire).Nodup
  belongs : Belongs (idOf state) state.servlet
  worked : ∀ work ∈ state.handled, 4 < rank (state.servlet.phase work.request) ∧
    ∃ id, idOf state work.request = some id ∧ idOf state work.object = some id
  workedOnce : (state.handled.map Handled.request).Nodup
  responded : ∀ request ∈ answering state, state.servlet.phase request = .done
  respondedOnce : (answering state).Nodup
  answers : ∀ response ∈ state.responses, response.header ≠ none →
    ∃ object, ⟨response.request, object, some response.data⟩ ∈ state.handled
  delivered : ∀ number session, state.sessions number = some session →
    ∀ item ∈ session.delivered, state.servlet.phase item.1 = .done ∧
      item.1 ∉ answering state ∧ (∃ data, state.requests item.1 = some (number, data)) ∧
      ∃ object, ⟨item.1, object, some item.2⟩ ∈ state.handled
  deliveredOnce : ∀ number session, state.sessions number = some session →
    (session.delivered.map Prod.fst).Nodup

theorem new_trafficOk : TrafficOk .new where
  fresh _ _ := rfl
  waiting _ member := by cases member
  distinct := List.nodup_nil
  belongs := by
    refine ⟨?_, ?_, ?_⟩
    · intro request id same
      cases same
    · intro item member
      cases member
    · intro request id object same
      cases same
  worked _ member := by cases member
  workedOnce := List.nodup_nil
  responded _ member := by cases member
  respondedOnce := List.nodup_nil
  answers _ member := by cases member
  delivered _ _ found := by cases found
  deliveredOnce _ _ found := by cases found

/-- Only the sessions of the clients change, and nothing is delivered. -/
theorem TrafficOk.clients {state next : State} (ok : TrafficOk state)
    (requests : next.requests = state.requests)
    (prepared : next.prepared = state.prepared) (wire : next.wire = state.wire)
    (servlet : next.servlet = state.servlet) (handled : next.handled = state.handled)
    (responses : next.responses = state.responses) (ids : idOf next = idOf state)
    (sessions : ∀ number session, next.sessions number = some session → session.delivered = [] ∨
      ∃ old, state.sessions number = some old ∧ session.delivered = old.delivered) :
    TrafficOk next where
  fresh := by rw [requests, servlet]; exact ok.fresh
  waiting := by rw [prepared, wire, servlet, requests]; exact ok.waiting
  distinct := by rw [prepared, wire]; exact ok.distinct
  belongs := by rw [ids, servlet]; exact ok.belongs
  worked := by rw [handled, servlet, ids]; exact ok.worked
  workedOnce := by rw [handled]; exact ok.workedOnce
  responded := by rw [answering, responses, servlet]; exact ok.responded
  respondedOnce := by rw [answering, responses]; exact ok.respondedOnce
  answers := by rw [responses, handled]; exact ok.answers
  delivered number session found item member := by
    rw [servlet, requests, handled, answering, responses]
    rcases sessions number session found with none | ⟨old, foundOld, same⟩
    · rw [none] at member
      cases member
    · rw [same] at member
      exact ok.delivered number old foundOld item member
  deliveredOnce number session found := by
    rcases sessions number session found with none | ⟨old, foundOld, same⟩
    · rw [none]
      exact List.nodup_nil
    · rw [same]
      exact ok.deliveredOnce number old foundOld

theorem idOf_put (state : State) {number : Nat} {old : Session} (session : Session)
    (found : state.sessions number = some old) (id : session.id = old.id) :
    idOf (state.put number session) = idOf state := by
  funext request
  unfold idOf
  show (state.requests request).bind _ = _
  cases state.requests request with
  | none => rfl
  | some sent =>
      simp only [Option.bind_some, put_sessions]
      split
      · rename_i here
        rw [here, found]
        simp only [Option.map_some, id]
      · rfl

/-- A session changes, and keeps its id and what was delivered to it. -/
theorem TrafficOk.put {state : State} (ok : TrafficOk state) {number : Nat} {old : Session}
    (session : Session) (found : state.sessions number = some old) (id : session.id = old.id)
    (delivered : session.delivered = old.delivered) : TrafficOk (state.put number session) := by
  refine ok.clients rfl rfl rfl rfl rfl rfl (idOf_put state session found id) ?_
  intro other session' reached
  rw [put_sessions] at reached
  split at reached
  · rename_i here
    cases reached
    exact Or.inr ⟨old, by rw [here]; exact found, delivered⟩
  · exact Or.inr ⟨session', reached, rfl⟩

theorem TrafficOk.register {state : State} (ok : TrafficOk state) (registered : List String) :
    TrafficOk { state with registered := registered } :=
  ⟨ok.fresh, ok.waiting, ok.distinct, ok.belongs, ok.worked, ok.workedOnce, ok.responded,
    ok.respondedOnce, ok.answers, ok.delivered, ok.deliveredOnce⟩

theorem TrafficOk.close {state : State} (ok : TrafficOk state) {number : Nat} {old : Session}
    (session : Session) (found : state.sessions number = some old) (id : session.id = old.id)
    (delivered : session.delivered = old.delivered) : TrafficOk (state.close number session) :=
  (ok.register _).put session.closing found id delivered

/-- Some requests and responses are gone. -/
theorem TrafficOk.fewer {state next : State} (ok : TrafficOk state)
    (sessions : next.sessions = state.sessions) (requests : next.requests = state.requests)
    (servlet : next.servlet = state.servlet) (handled : next.handled = state.handled)
    (waiting : (next.prepared ++ next.wire).Subperm (state.prepared ++ state.wire))
    (responses : next.responses.Sublist state.responses) : TrafficOk next := by
  have ids : idOf next = idOf state := by
    funext request
    rw [idOf, requests, sessions, ← idOf]
  have fewer : (answering next).Sublist (answering state) := responses.map _
  refine ⟨?_, ?_, ?_, ?_, ?_, ?_, ?_, ?_, ?_, ?_, ?_⟩
  · rw [requests, servlet]
    exact ok.fresh
  · intro request member
    rw [servlet, requests]
    exact ok.waiting request (List.Subperm.subset waiting member)
  · obtain ⟨order, same, sub⟩ := waiting
    exact same.nodup_iff.mp (ok.distinct.sublist sub)
  · rw [ids, servlet]
    exact ok.belongs
  · rw [handled, servlet, ids]
    exact ok.worked
  · rw [handled]
    exact ok.workedOnce
  · intro request member
    rw [servlet]
    exact ok.responded request (fewer.subset member)
  · exact ok.respondedOnce.sublist fewer
  · intro response member
    rw [handled]
    exact ok.answers response (responses.subset member)
  · intro number session found item member
    rw [sessions] at found
    rw [servlet, requests, handled]
    have held := ok.delivered number session found item member
    exact ⟨held.1, fun within => held.2.1 (fewer.subset within), held.2.2⟩
  · rw [sessions]
    exact ok.deliveredOnce

/-- A request is made for its data. -/
theorem TrafficOk.publish {state : State} (ok : TrafficOk state) {number request : Nat}
    {data : Buffer} (absent : state.requests request = none) :
    TrafficOk { state with
      requests := Function.update state.requests request (some (number, data))
      prepared := state.prepared ++ [request] } := by
  have idle := ok.fresh request absent
  have kept : ∀ other sent, state.requests other = some sent →
      Function.update state.requests request (some (number, data)) other = some sent := by
    intro other sent known
    rw [Function.update_of_ne ?_]
    · exact known
    · intro same
      rw [same, absent] at known
      cases known
  have more : ∀ other id, idOf state other = some id → idOf { state with
      requests := Function.update state.requests request (some (number, data))
      prepared := state.prepared ++ [request] } other = some id := by
    intro other id known
    obtain ⟨sent, reached, named⟩ := Option.bind_eq_some_iff.mp known
    exact Option.bind_eq_some_iff.mpr ⟨sent, kept other sent reached, named⟩
  have unsent : request ∉ state.prepared ++ state.wire := fun member =>
    (ok.waiting request member).2 absent
  have moved : (state.prepared ++ [request] ++ state.wire).Perm
      (request :: (state.prepared ++ state.wire)) := by
    rw [List.append_assoc]
    exact List.perm_middle
  refine ⟨?_, ?_, ?_, ok.belongs.mono more, ?_, ok.workedOnce, ok.responded, ok.respondedOnce,
    ok.answers, ?_, ok.deliveredOnce⟩
  · intro other missing
    simp only [Function.update_apply] at missing
    split at missing
    · cases missing
    · exact ok.fresh other missing
  · intro other member
    rcases List.mem_cons.mp (moved.subset member) with same | before
    · rw [same]
      exact ⟨idle, by simp⟩
    · have waits := ok.waiting other before
      refine ⟨waits.1, ?_⟩
      simp only [Function.update_apply]
      split
      · exact Option.some_ne_none _
      · exact waits.2
  · exact moved.nodup_iff.mpr (List.nodup_cons.mpr ⟨unsent, ok.distinct⟩)
  · intro work member
    have held := ok.worked work member
    obtain ⟨id, own, object⟩ := held.2
    exact ⟨held.1, id, more _ id own, more _ id object⟩
  · intro other session found item member
    have held := ok.delivered other session found item member
    obtain ⟨data', known⟩ := held.2.2.1
    exact ⟨held.1, held.2.1, ⟨data', kept _ _ known⟩, held.2.2.2⟩

/-- The servlet makes a step. A request that arrives was under way, and is not any more. -/
theorem TrafficOk.serve {state : State} (ok : TrafficOk state) {sessionTimeout : Nat}
    {action : Servlet.Action} {servlet : Servlet.State}
    (taken : Servlet.step sessionTimeout state.servlet action = some servlet)
    (arrives : ∀ request header, action = .arrive request header →
      request ∉ state.prepared ++ state.wire ∧ idOf state request = header ∧ header ≠ none) :
    TrafficOk { state with servlet := servlet } := by
  have phases := step_phase taken
  have stays : ∀ request, state.servlet.phase request = .done →
      servlet.phase request = .done := by
    intro request done
    rcases phases request with same | ⟨further, _⟩
    · rw [same, done]
    · rw [done] at further
      cases reached : servlet.phase request with
      | done => rfl
      | _ =>
          rw [reached] at further
          simp [rank] at further
  have begins : ∀ request, state.servlet.phase request = .idle →
      (∀ header, action ≠ .arrive request header) → servlet.phase request = .idle := by
    intro request idle other
    rcases phases request with same | ⟨_, begun⟩
    · rw [same, idle]
    · obtain ⟨header, arrival⟩ := begun idle
      exact absurd arrival (other header)
  refine ⟨?_, ?_, ok.distinct, ?_, ?_, ok.workedOnce, ?_, ok.respondedOnce, ok.answers, ?_,
    ok.deliveredOnce⟩
  · intro request absent
    apply begins request (ok.fresh request absent)
    intro header arrival
    have known := arrives request header arrival
    rw [idOf, absent] at known
    exact known.2.2 known.2.1.symm
  · intro request member
    have waits := ok.waiting request member
    refine ⟨?_, waits.2⟩
    apply begins request waits.1
    intro header arrival
    exact (arrives request header arrival).1 member
  · refine belongs_step ok.belongs ?_ taken
    intro request id arrival
    exact (arrives request (some id) arrival).2.1
  · intro work member
    have held := ok.worked work member
    refine ⟨?_, held.2⟩
    rcases phases work.request with same | ⟨further, _⟩
    · show 4 < rank (servlet.phase work.request)
      rw [same]
      exact held.1
    · have before := held.1
      show 4 < rank (servlet.phase work.request)
      omega
  · intro request member
    exact stays request (ok.responded request member)
  · intro number session found item member
    have held := ok.delivered number session found item member
    exact ⟨stays item.1 held.1, held.2⟩

/-- A request has been handled by a session of its id. -/
theorem TrafficOk.work {state : State} (ok : TrafficOk state) (work : Handled)
    (further : 4 < rank (state.servlet.phase work.request))
    (own : ∃ id, idOf state work.request = some id ∧ idOf state work.object = some id)
    (once : work.request ∉ state.handled.map Handled.request) :
    TrafficOk { state with handled := state.handled ++ [work] } := by
  refine ⟨ok.fresh, ok.waiting, ok.distinct, ok.belongs, ?_, ?_, ok.responded, ok.respondedOnce,
    ?_, ?_, ok.deliveredOnce⟩
  · intro other member
    rcases List.mem_append.mp member with before | last
    · exact ok.worked other before
    · rw [List.mem_singleton.mp last]
      exact ⟨further, own⟩
  · show ((state.handled ++ [work]).map Handled.request).Nodup
    rw [List.map_append, List.nodup_append_comm]
    exact List.nodup_cons.mpr ⟨once, ok.workedOnce⟩
  · intro response member headed
    obtain ⟨object, handled⟩ := ok.answers response member headed
    exact ⟨object, List.mem_append_left _ handled⟩
  · intro number session found item member
    have held := ok.delivered number session found item member
    obtain ⟨object, handled⟩ := held.2.2.2
    exact ⟨held.1, held.2.1, held.2.2.1, object, List.mem_append_left _ handled⟩

/-- A request that is done is answered. -/
theorem TrafficOk.respond {state : State} (ok : TrafficOk state) (response : Response)
    (done : state.servlet.phase response.request = .done)
    (unanswered : response.request ∉ answering state)
    (undelivered : ∀ number session, state.sessions number = some session →
      response.request ∉ session.delivered.map Prod.fst)
    (answers : response.header ≠ none →
      ∃ object, ⟨response.request, object, some response.data⟩ ∈ state.handled) :
    TrafficOk { state with responses := state.responses ++ [response] } := by
  refine ⟨ok.fresh, ok.waiting, ok.distinct, ok.belongs, ok.worked, ok.workedOnce, ?_, ?_, ?_, ?_,
    ok.deliveredOnce⟩
  · intro request member
    rw [answering, List.map_append] at member
    rcases List.mem_append.mp member with before | last
    · exact ok.responded request before
    · rw [List.mem_singleton.mp last]
      exact done
  · rw [answering, List.map_append, List.nodup_append_comm]
    exact List.nodup_cons.mpr ⟨unanswered, ok.respondedOnce⟩
  · intro other member headed
    rcases List.mem_append.mp member with before | last
    · exact ok.answers other before headed
    · rw [List.mem_singleton.mp last] at headed ⊢
      exact answers headed
  · intro number session found item member
    have held := ok.delivered number session found item member
    refine ⟨held.1, ?_, held.2.2⟩
    rw [answering, List.map_append]
    intro within
    rcases List.mem_append.mp within with before | last
    · exact held.2.1 before
    · have here := undelivered number session found
      rw [← List.mem_singleton.mp last] at here
      exact here (List.mem_map_of_mem member)

/-- The client of the session that owns the connection gets the data of a response. -/
theorem TrafficOk.give {state : State} (ok : TrafficOk state) {index number : Nat}
    {response : Response} {session : Session} {data : Buffer}
    (listed : state.responses[index]? = some response)
    (known : state.requests response.request = some (number, data))
    (found : state.sessions number = some session) (headed : response.header ≠ none) :
    TrafficOk ({ state with responses := state.responses.eraseIdx index }.put number
      (session.given response.request response.data)) := by
  have bound := (List.getElem?_eq_some_iff.mp listed).1
  have here := (List.getElem?_eq_some_iff.mp listed).2
  have split : (response :: state.responses.eraseIdx index).Perm state.responses := by
    rw [← here]
    exact List.getElem_cons_eraseIdx_perm bound
  have member : response ∈ state.responses := split.subset List.mem_cons_self
  have answered : response.request ∈ answering state := List.mem_map_of_mem member
  have others := (split.map Response.request).nodup_iff.mpr ok.respondedOnce
  rw [List.map_cons, List.nodup_cons] at others
  have fewer : TrafficOk { state with responses := state.responses.eraseIdx index } :=
    ok.fewer rfl rfl rfl rfl (List.Perm.refl _).subperm (List.eraseIdx_sublist _ _)
  obtain ⟨object, handled⟩ := ok.answers response member headed
  have unseen : ∀ other another, state.sessions other = some another →
      response.request ∉ another.delivered.map Prod.fst := by
    intro other another reached within
    obtain ⟨item, inside, same⟩ := List.mem_map.mp within
    have held := ok.delivered other another reached item inside
    rw [same] at held
    exact held.2.1 answered
  have ids := idOf_put { state with responses := state.responses.eraseIdx index }
    (session.given response.request response.data) found rfl
  refine ⟨fewer.fresh, fewer.waiting, fewer.distinct, ?_, ?_, fewer.workedOnce, fewer.responded,
    fewer.respondedOnce, fewer.answers, ?_, ?_⟩
  · rw [ids]
    exact fewer.belongs
  · rw [ids]
    exact fewer.worked
  · intro other another reached item inside
    rw [put_sessions] at reached
    split at reached
    · rename_i same
      cases reached
      rcases List.mem_append.mp inside with before | last
      · rw [same]
        exact fewer.delivered number session found item before
      · rw [List.mem_singleton.mp last]
        exact ⟨ok.responded _ answered, others.1, ⟨data, by rw [same]; exact known⟩, object, handled⟩
    · exact fewer.delivered other another reached item inside
  · intro other another reached
    rw [put_sessions] at reached
    split at reached
    · cases reached
      rw [Session.given, List.map_append, List.nodup_append_comm]
      exact List.nodup_cons.mpr ⟨unseen number session found, ok.deliveredOnce number session found⟩
    · exact fewer.deliveredOnce other another reached

theorem onRequestDone_trafficOk {state : State} (ok : TrafficOk state) {index number : Nat}
    {response : Response} {session : Session} {data : Buffer}
    (listed : state.responses[index]? = some response)
    (known : state.requests response.request = some (number, data))
    (found : state.sessions number = some session) (throws : Bool) :
    TrafficOk ({ state with responses := state.responses.eraseIdx index }.onRequestDone number
      session response throws) := by
  have fewer : TrafficOk { state with responses := state.responses.eraseIdx index } :=
    ok.fewer rfl rfl rfl rfl (List.Perm.refl _).subperm (List.eraseIdx_sublist _ _)
  have closed := fewer.close session found rfl rfl
  unfold State.onRequestDone
  split
  · rename_i accepted
    have headed : response.header ≠ none := by
      intro absent
      rw [State.accepts, absent] at accepted
      cases accepted
    have given := ok.give listed known found headed
    split
    · exact fewer.clients rfl rfl rfl rfl rfl rfl rfl fun other another reached =>
        Or.inr ⟨another, reached, rfl⟩
    · split
      · exact fewer
      · exact closed
      · split
        · have present : ({ state with responses := state.responses.eraseIdx index }.put number
              (session.given response.request response.data)).sessions number =
              some (session.given response.request response.data) := by
            rw [put_sessions, if_pos rfl]
          have after := given.close (session.given response.request response.data)
            present rfl rfl
          have same : ({ state with responses := state.responses.eraseIdx index }.put number
              (session.given response.request response.data)).close number
                (session.given response.request response.data) =
              { state with responses := state.responses.eraseIdx index }.close number
                (session.given response.request response.data) := by
            simp [State.close, State.put]
          rw [same] at after
          exact after
        · exact given
  · exact closed

/-- Processing uses up the session that the request has, and answers it once. -/
theorem process_trafficOk {state : State} (ok : TrafficOk state) {sessionTimeout request : Nat}
    {processing : Servlet.Processing} {id : String} {object : Nat} {servlet : Servlet.State}
    (serving : state.servlet.phase request = .serving id object)
    (taken : Servlet.step sessionTimeout state.servlet (.process request processing) = some servlet)
    (answer : Buffer) :
    TrafficOk { state with servlet := servlet } ∧
      (∀ result, TrafficOk { state with
        servlet := servlet, handled := state.handled ++ [⟨request, object, result⟩] }) ∧
      ∀ now, processing = .served now → ∀ header, TrafficOk { state with
        servlet := servlet
        handled := state.handled ++ [⟨request, object, some answer⟩]
        responses := state.responses ++ [⟨request, header, answer⟩] } := by
  have served : TrafficOk { state with servlet := servlet } :=
    ok.serve taken (by intro other header same; cases same)
  have further := process_phase taken
  have undone : ¬ 4 < rank (state.servlet.phase request) := by
    rw [serving]
    simp [rank]
  have own := ok.belongs.brought request id (by rw [serving]; rfl)
  have belongs := ok.belongs.serving request id object serving
  have unworked : request ∉ state.handled.map Handled.request := by
    intro member
    obtain ⟨work, inside, same⟩ := List.mem_map.mp member
    have held := (ok.worked work inside).1
    rw [same] at held
    exact undone held
  have worked : ∀ result, TrafficOk { state with
      servlet := servlet, handled := state.handled ++ [⟨request, object, result⟩] } :=
    fun result => served.work ⟨request, object, result⟩ further.1 ⟨id, own, belongs⟩ unworked
  refine ⟨served, worked, ?_⟩
  intro now same header
  have unanswered : request ∉ answering state := by
    intro member
    have done := ok.responded request member
    rw [serving] at done
    cases done
  have undelivered : ∀ number session, state.sessions number = some session →
      request ∉ session.delivered.map Prod.fst := by
    intro number session found member
    obtain ⟨item, inside, same⟩ := List.mem_map.mp member
    have held := ok.delivered number session found item inside
    rw [same, serving] at held
    cases held.1
  exact (worked (some answer)).respond ⟨request, header, answer⟩ (further.2 now same)
    unanswered undelivered fun _ => ⟨object, by simp⟩

theorem traffic_step (sessionTimeout : Nat) (state : State) (action : Action) (next : State)
    (clients : ClientsOk state) (ok : TrafficOk state)
    (taken : step sessionTimeout state action = some next) : TrafficOk next := by
  cases action with
  | make number id =>
      simp only [step] at taken
      split at taken
      · cases taken
      · rename_i absent
        cases taken
        refine ok.clients rfl rfl rfl rfl rfl rfl ?_ ?_
        · funext request
          unfold idOf
          show (state.requests request).bind _ = _
          cases known : state.requests request with
          | none => rfl
          | some sent =>
              obtain ⟨owner, found, _⟩ := clients.owners request sent known
              simp only [Option.bind_some, put_sessions]
              rw [if_neg ?_]
              intro same
              rw [same, absent] at found
              cases found
        · intro other session reached
          rw [put_sessions] at reached
          split at reached
          · cases reached
            exact Or.inl rfl
          · exact Or.inr ⟨session, reached, rfl⟩
  | init number =>
      simp only [step] at taken
      split at taken
      · rename_i session found
        split at taken
        · cases taken
        · cases taken
          exact ok.put { session with client := some .new } found rfl rfl
      · cases taken
  | emplace number =>
      simp only [step] at taken
      split at taken
      · rename_i session found
        split at taken
        · cases taken
        · cases taken
          exact (ok.register _).put { session with stored := true } found rfl rfl
      · cases taken
  | publish number request data =>
      simp only [step] at taken
      split at taken
      · rename_i session found absent
        split at taken
        · cases taken
          exact ok.close session found rfl rfl
        · cases taken
          exact ok.publish absent
      · cases taken
  | makeRequest request succeeds =>
      simp only [step] at taken
      split at taken
      · rename_i member
        have erased := (List.perm_cons_erase member).symm
        split at taken
        · cases taken
          refine ok.fewer rfl rfl rfl rfl ?_ (List.Sublist.refl _)
          have moved : (state.prepared.erase request ++ (state.wire ++ [request])).Perm
              (state.prepared ++ state.wire) := by
            rw [← List.append_assoc]
            refine List.perm_append_comm.trans ?_
            exact erased.append_right state.wire
          exact moved.subperm
        · obtain ⟨sent, known, taken⟩ := Option.bind_eq_some_iff.mp taken
          obtain ⟨session, found, rfl⟩ := Option.map_eq_some_iff.mp taken
          have fewer : TrafficOk { state with prepared := state.prepared.erase request } := by
            refine ok.fewer rfl rfl rfl rfl ?_ (List.Sublist.refl _)
            exact (List.erase_sublist.append_right state.wire).subperm
          exact fewer.close session found rfl rfl
      · cases taken
  | arrive request =>
      simp only [step] at taken
      split at taken
      · rename_i member
        obtain ⟨sent, known, taken⟩ := Option.bind_eq_some_iff.mp taken
        obtain ⟨session, found, taken⟩ := Option.bind_eq_some_iff.mp taken
        obtain ⟨servlet, stepped, rfl⟩ := Option.map_eq_some_iff.mp taken
        have fewer : TrafficOk { state with wire := state.wire.erase request } := by
          refine ok.fewer rfl rfl rfl rfl ?_ (List.Sublist.refl _)
          exact (List.erase_sublist.append_left state.prepared).subperm
        apply fewer.serve stepped
        intro other header same
        cases same
        refine ⟨?_, ?_, Option.some_ne_none _⟩
        · have distinct := List.nodup_append.mp ok.distinct
          intro within
          rcases List.mem_append.mp within with first | second
          · exact distinct.2.2 request first request member rfl
          · exact (List.Nodup.not_mem_erase distinct.2.1) second
        · rw [idOf]
          show (state.requests request).bind _ = _
          rw [known]
          show (state.sessions sent.1).map Session.id = _
          rw [found]
          rfl
      · cases taken
  | servlet action =>
      simp only [step] at taken
      split at taken
      · rename_i internal
        obtain ⟨servlet, stepped, rfl⟩ := Option.map_eq_some_iff.mp taken
        apply ok.serve stepped
        intro request header same
        rw [same] at internal
        cases internal
      · cases taken
  | process request processing answer =>
      simp only [step] at taken
      split at taken
      · rename_i number data id object known serving
        split at taken
        · obtain ⟨servlet, stepped, rfl⟩ := Option.map_eq_some_iff.mp taken
          have kept := process_trafficOk ok serving stepped answer
          cases processing with
          | noData => exact kept.1
          | threw => exact kept.2.1 none
          | served now => exact kept.2.2 now rfl _
        · cases taken
      · cases taken
  | refuse request what =>
      simp only [step] at taken
      obtain ⟨servlet, stepped, rfl⟩ := Option.map_eq_some_iff.mp taken
      have phases := removeSession_phase stepped
      have served := ok.serve stepped (by intro other header same; cases same)
      have undone : state.servlet.phase request ≠ .done := by
        intro done
        rw [done] at phases
        cases phases.1
      apply served.respond ⟨request, none, what⟩ phases.2
      · exact fun member => undone (ok.responded request member)
      · intro number session found member
        obtain ⟨item, inside, same⟩ := List.mem_map.mp member
        have held := (ok.delivered number session found item inside).1
        rw [same] at held
        exact undone held
      · exact fun headed => absurd rfl headed
  | lose request =>
      cases taken
      refine ok.fewer rfl rfl rfl rfl ?_ List.filter_sublist
      exact (List.filter_sublist.append_left state.prepared).subperm
  | done index throws =>
      simp only [step] at taken
      obtain ⟨response, listed, taken⟩ := Option.bind_eq_some_iff.mp taken
      obtain ⟨⟨number, data⟩, known, taken⟩ := Option.bind_eq_some_iff.mp taken
      obtain ⟨session, found, rfl⟩ := Option.map_eq_some_iff.mp taken
      exact onRequestDone_trafficOk ok listed known found throws
  | closeMe number =>
      simp only [step] at taken
      obtain ⟨session, found, rfl⟩ := Option.map_eq_some_iff.mp taken
      exact ok.close session found rfl rfl
  | notify number =>
      simp only [step] at taken
      obtain ⟨session, found, taken⟩ := Option.bind_eq_some_iff.mp taken
      split at taken
      · cases taken
      · split at taken
        · cases taken
          exact ok.clients rfl rfl rfl rfl rfl rfl rfl fun other another reached =>
            Or.inr ⟨another, reached, rfl⟩
        · rename_i client present
          cases taken
          exact ok.put (session.notified client) found rfl rfl
  | mark number =>
      simp only [step] at taken
      obtain ⟨session, found, taken⟩ := Option.bind_eq_some_iff.mp taken
      split at taken
      · cases taken
      · cases taken
        exact ok.put session.marked found rfl rfl

/-- The request was made by this session. -/
def OwnedBy (state : State) (number request : Nat) : Prop :=
  ∃ data, state.requests request = some (number, data)

/-- What the two ends promise each other. -/
structure Kept (state : State) : Prop where
  /-- no null pointer is used -/
  defined : state.undefined = false
  /-- `m_sessions` has the sessions that no `CloseMe` has closed -/
  registered : ∀ number session, state.sessions number = some session →
    (session.id ∈ state.registered ↔ session.stored = true ∧ session.closings = 0)
  /-- data for a client answers a request of its own -/
  own : ∀ number session, state.sessions number = some session → ∀ item ∈ session.delivered,
    OwnedBy state number item.1 ∧ ∃ object, ⟨item.1, object, some item.2⟩ ∈ state.handled
  once : ∀ number session, state.sessions number = some session →
    (session.delivered.map Prod.fst).Nodup
  handledOnce : (state.handled.map Handled.request).Nodup
  /-- a session of the servlet serves one client session only -/
  apart : ∀ first ∈ state.handled, ∀ second ∈ state.handled, first.object = second.object →
    ∃ number, OwnedBy state number first.request ∧ OwnedBy state number second.request

theorem kept_of_ok {state : State} (clients : ClientsOk state) (traffic : TrafficOk state) :
    Kept state where
  defined := clients.defined
  registered := clients.registered
  own number session found item member := by
    have held := traffic.delivered number session found item member
    exact held.2.2
  once := traffic.deliveredOnce
  handledOnce := traffic.workedOnce
  apart first memberFirst second memberSecond same := by
    obtain ⟨_, id, own, object⟩ := traffic.worked first memberFirst
    obtain ⟨_, name, another, objectAgain⟩ := traffic.worked second memberSecond
    rw [same, objectAgain] at object
    cases object
    obtain ⟨⟨number, data⟩, known, found⟩ := Option.bind_eq_some_iff.mp own
    obtain ⟨⟨other, more⟩, knownAgain, foundAgain⟩ := Option.bind_eq_some_iff.mp another
    obtain ⟨one, sessionOne, idOne⟩ := Option.map_eq_some_iff.mp found
    obtain ⟨two, sessionTwo, idTwo⟩ := Option.map_eq_some_iff.mp foundAgain
    have equal := clients.ids number other one two sessionOne sessionTwo (by rw [idOne, idTwo])
    exact ⟨number, ⟨data, known⟩, more, by rw [equal]; exact knownAgain⟩

/-- The invariant of both ends. -/
def Ok (state : State) : Prop := ClientsOk state ∧ TrafficOk state

theorem ok_step (sessionTimeout : Nat) (state : State) (action : Action) (next : State)
    (ok : Ok state) (orderly : Orderly state action)
    (taken : step sessionTimeout state action = some next) : Ok next :=
  ⟨clients_step sessionTimeout state action next ok.1 orderly taken,
    traffic_step sessionTimeout state action next ok.1 ok.2 taken⟩

/-- In every order of the steps of all sessions, of the servlet and of the network, which may
lose what it likes, the sessions are kept apart. -/
theorem sessions_kept_apart (sessionTimeout : Nat) (actions : List Action) (state : State)
    (orderly : Transition.Along (step sessionTimeout) Orderly .new actions)
    (reached : Transition.run (step sessionTimeout) .new actions = some state) : Kept state := by
  have start : Ok .new := ⟨new_clientsOk, new_trafficOk⟩
  have ok : Ok state := Transition.run_invariant (ok_step sessionTimeout) start orderly reached
  exact kept_of_ok ok.1 ok.2

/-- A test for the steps of sessions that are there. -/
def Given (state : State) : Action → Bool
  | .make _ _ => false
  | .publish number _ _ | .closeMe number => (state.sessions number).all Session.stored
  | _ => true

theorem orderly_of_given (state : State) (action : Action) (given : Given state action = true) :
    Orderly state action := by
  have stored : ∀ number, (state.sessions number).all Session.stored = true →
      ∀ session, state.sessions number = some session → session.stored = true := by
    intro number all session found
    rw [found] at all
    exact all
  cases action with
  | make number id => cases given
  | publish number request data => exact stored number given
  | closeMe number => exact stored number given
  | _ => trivial

/-- Two sessions send a request each. The one of the second is answered first, the client
of the first throws at its answer. -/
def sampleActions : List Action :=
  [.make 0 "a", .make 1 "b", .init 0, .init 1, .emplace 1, .emplace 0, .publish 0 0 [1],
    .publish 1 1 [2], .makeRequest 1 true, .makeRequest 0 true, .arrive 0, .arrive 1,
    .servlet (.find 1), .servlet (.find 0), .servlet (.init 0 5 true), .servlet (.init 1 5 true),
    .servlet (.emplace 1), .servlet (.emplace 0), .process 1 (.served 6) [20],
    .process 0 (.served 6) [10], .done 0 false, .done 0 true, .notify 0, .mark 0]

theorem two_sessions_kept_apart : ∃ state,
    Transition.run (step 60) .new sampleActions = some state ∧ Kept state ∧
      (state.sessions 0).map Session.delivered = some [(0, [10])] ∧
      (state.sessions 1).map Session.delivered = some [(1, [20])] ∧ state.registered = ["b"] := by
  have facts : (Transition.run (step 60) .new sampleActions).map (fun state =>
      ((state.sessions 0).map Session.delivered, (state.sessions 1).map Session.delivered,
        state.registered)) = some (some [(0, [10])], some [(1, [20])], ["b"]) := by
    rfl
  obtain ⟨state, reached, seen⟩ := Option.map_eq_some_iff.mp facts
  simp only [Prod.mk.injEq] at seen
  have orderly : Transition.Along (step 60) Orderly .new sampleActions := by
    refine ⟨⟨by decide, by intro _ _ found; cases found⟩, ?_⟩
    intro first made
    cases made
    refine ⟨⟨by decide, ?_⟩, ?_⟩
    · intro number session found
      rw [put_sessions] at found
      split at found
      · cases found
        decide
      · cases found
    · intro second made
      cases made
      have given : Transition.Along (step 60) (fun state action => Given state action = true)
          ((State.new.put 0 ⟨"a", none, false, false, 0, 0, 0, []⟩).put 1
            ⟨"b", none, false, false, 0, 0, 0, []⟩) (sampleActions.drop 2) := by decide
      exact Transition.along_mono orderly_of_given given
  exact ⟨state, reached, sessions_kept_apart 60 sampleActions state orderly reached, seen⟩

end Mif.Net.Http.Tunnel
