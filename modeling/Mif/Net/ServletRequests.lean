import Mif.Net.Servlet

set_option autoImplicit false

/- The requests of a servlet: how far they are, and that each is served by a session of the
id it was sent with, whatever these ids are. -/
namespace Mif.Net.Http.Servlet

section

variable {sessionTimeout : Nat} {sent : Nat → Option String}

/-- The id that a request brought, until it fails. -/
def brought : Phase → Option String
  | .looking id | .creating id | .made id | .serving id _ => some id
  | .idle | .failed _ _ | .done => none

/-- How far a request is. -/
def rank : Phase → Nat
  | .idle => 0
  | .looking _ => 1
  | .creating _ => 2
  | .made _ => 3
  | .serving _ _ => 4
  | .failed _ _ => 5
  | .done => 6

/-- The servlet has its sessions by the ids of the requests that made them, and a request
is served by a session of its own id. -/
structure Belongs (sent : Nat → Option String) (servlet : State) : Prop where
  brought : ∀ request id, brought (servlet.phase request) = some id → sent request = some id
  listed : ∀ item ∈ servlet.sessions, sent item.2 = some item.1
  serving : ∀ request id object, servlet.phase request = .serving id object →
    sent object = some id

/-- One request goes on. -/
theorem Belongs.goto {servlet : State} (belongs : Belongs sent servlet) {request : Nat}
    {phase : Phase} (own : ∀ id, Servlet.brought phase = some id → sent request = some id)
    (object : ∀ id object, phase = .serving id object → sent object = some id) :
    Belongs sent (servlet.goto request phase) where
  brought other id reached := by
    simp only [State.goto, Function.update_apply] at reached
    split at reached
    · rename_i same
      rw [same]
      exact own id reached
    · exact belongs.brought other id reached
  listed := belongs.listed
  serving other id number reached := by
    simp only [State.goto, Function.update_apply] at reached
    split at reached
    · exact object id number reached
    · exact belongs.serving other id number reached

/-- One request ends, well or not. -/
theorem Belongs.rest {servlet : State} (belongs : Belongs sent servlet) {request : Nat}
    {phase : Phase} (rests : Servlet.brought phase = none) :
    Belongs sent (servlet.goto request phase) := by
  apply belongs.goto
  · intro id same
    rw [rests] at same
    cases same
  · intro id object same
    rw [same] at rests
    cases rests

/-- A request is served by a session of the id that it brought. -/
theorem Belongs.take {servlet : State} (belongs : Belongs sent servlet) {request object : Nat}
    {id : String} (own : sent request = some id) (listed : sent object = some id) :
    Belongs sent (servlet.take request id object) := by
  have moved : Belongs sent (servlet.goto request (.serving id object)) := by
    apply belongs.goto
    · intro other same
      cases same
      exact own
    · intro other number same
      cases same
      exact listed
  exact ⟨moved.brought, moved.listed, moved.serving⟩

/-- Sessions are removed, or the request's own one is added. -/
theorem Belongs.list {servlet next : State} (belongs : Belongs sent servlet)
    (phases : next.phase = servlet.phase)
    (sessions : ∀ item ∈ next.sessions, item ∈ servlet.sessions ∨ sent item.2 = some item.1) :
    Belongs sent next where
  brought request id reached := belongs.brought request id (by rw [← phases]; exact reached)
  listed item member := by
    rcases sessions item member with old | own
    · exact belongs.listed item old
    · exact own
  serving request id object reached :=
    belongs.serving request id object (by rw [← phases]; exact reached)

theorem belongs_step {servlet next : State} {action : Action}
    (belongs : Belongs sent servlet)
    (arrives : ∀ request id, action = .arrive request (some id) → sent request = some id)
    (taken : step sessionTimeout servlet action = some next) : Belongs sent next := by
  cases action with
  | arrive request header =>
      simp only [step] at taken
      split at taken
      · cases taken
        exact belongs.rest rfl
      · rename_i id idle
        split at taken
        · cases taken
          exact belongs.rest rfl
        · cases taken
          apply belongs.goto
          · intro other same
            cases same
            exact arrives request id rfl
          · intro other object same
            cases same
      · cases taken
  | find request =>
      simp only [step] at taken
      split at taken
      · rename_i id looking
        have own := belongs.brought request id (by rw [looking]; rfl)
        split at taken
        · rename_i object found
          cases taken
          exact belongs.take own (belongs.listed (id, object) (Assoc.mem_of_lookup found))
        · cases taken
          apply belongs.goto
          · intro other same
            cases same
            exact own
          · intro other object same
            cases same
      · cases taken
  | init request now succeeds =>
      simp only [step] at taken
      split at taken
      · rename_i id creating
        have own := belongs.brought request id (by rw [creating]; rfl)
        cases taken
        have stamped : Belongs sent { servlet with
            timestamp := Function.update servlet.timestamp request now } :=
          belongs.list rfl fun item member => Or.inl member
        apply stamped.goto
        · intro other same
          split at same
          · cases same
            exact own
          · cases same
        · intro other number same
          split at same
          · cases same
          · cases same
      · cases taken
  | emplace request =>
      simp only [step] at taken
      split at taken
      · rename_i id made
        have own := belongs.brought request id (by rw [made]; rfl)
        split at taken
        · rename_i object found
          cases taken
          exact belongs.take own (belongs.listed (id, object) (Assoc.mem_of_lookup found))
        · cases taken
          have added : Belongs sent { servlet with
              sessions := servlet.sessions ++ [(id, request)] } := by
            refine Belongs.list belongs rfl ?_
            intro item member
            rcases List.mem_append.mp member with old | last
            · exact Or.inl old
            · rw [List.mem_singleton.mp last]
              exact Or.inr own
          exact added.take own own
      · cases taken
  | process request processing =>
      simp only [step] at taken
      split at taken
      · rename_i id object serving
        cases processing with
        | noData =>
            cases taken
            exact belongs.rest rfl
        | served now =>
            cases taken
            have stamped : Belongs sent { servlet with
                timestamp := Function.update servlet.timestamp object now } :=
              belongs.list rfl fun item member => Or.inl member
            exact stamped.rest rfl
        | threw =>
            cases taken
            have closed : Belongs sent { servlet with
                needForClose := Function.update servlet.needForClose object true } :=
              belongs.list rfl fun item member => Or.inl member
            exact closed.rest rfl
      · cases taken
  | removeSession request =>
      simp only [step] at taken
      split at taken
      · rename_i id own failed
        cases taken
        have removed : Belongs sent (servlet.remove request id own) := by
          unfold State.remove
          split
          · exact belongs
          · split
            · exact belongs
            · exact belongs.list rfl fun item member => Or.inl (List.mem_of_mem_filter member)
        exact removed.rest rfl
      · cases taken
  | closeMe object =>
      cases taken
      exact belongs.list rfl fun item member => Or.inl member
  | onCleaner now =>
      cases taken
      exact belongs.list rfl fun item member => Or.inl (List.mem_of_mem_filter member)

/-- A step that takes one request on, and may do other things. -/
theorem moves_goto {servlet middle : State} {action : Action} {request : Nat}
    {phase : Phase} (phases : middle.phase = servlet.phase)
    (further : rank (servlet.phase request) < rank phase)
    (begins : servlet.phase request = .idle → ∃ header, action = .arrive request header)
    (other : Nat) :
    (middle.goto request phase).phase other = servlet.phase other ∨
      (rank (servlet.phase other) < rank ((middle.goto request phase).phase other) ∧
        (servlet.phase other = .idle → ∃ header, action = .arrive other header)) := by
  simp only [State.goto, Function.update_apply, phases]
  split
  · rename_i same
    subst same
    exact Or.inr ⟨further, begins⟩
  · exact Or.inl rfl

/-- A request only goes on, and it begins with its arrival. -/
theorem step_phase {servlet next : State} {action : Action}
    (taken : step sessionTimeout servlet action = some next) (other : Nat) :
    next.phase other = servlet.phase other ∨
      (rank (servlet.phase other) < rank (next.phase other) ∧
        (servlet.phase other = .idle → ∃ header, action = .arrive other header)) := by
  cases action with
  | arrive request header =>
      simp only [step] at taken
      split at taken
      · rename_i idle
        cases taken
        exact moves_goto rfl (by simp [rank, idle]) (fun _ => ⟨none, rfl⟩) other
      · rename_i id idle
        split at taken
        · cases taken
          exact moves_goto rfl (by simp [rank, idle]) (fun _ => ⟨_, rfl⟩) other
        · cases taken
          exact moves_goto rfl (by simp [rank, idle]) (fun _ => ⟨_, rfl⟩) other
      · cases taken
  | find request =>
      simp only [step] at taken
      split at taken
      · rename_i id looking
        split at taken
        · cases taken
          exact moves_goto rfl (by simp [rank, looking]) (by simp [looking]) other
        · cases taken
          exact moves_goto rfl (by simp [rank, looking]) (by simp [looking]) other
      · cases taken
  | init request now succeeds =>
      simp only [step] at taken
      split at taken
      · rename_i id creating
        cases taken
        cases succeeds with
        | false => exact moves_goto rfl (by simp [rank, creating]) (by simp [creating]) other
        | true => exact moves_goto rfl (by simp [rank, creating]) (by simp [creating]) other
      · cases taken
  | emplace request =>
      simp only [step] at taken
      split at taken
      · rename_i id made
        split at taken
        · cases taken
          exact moves_goto rfl (by simp [rank, made]) (by simp [made]) other
        · cases taken
          exact moves_goto rfl (by simp [rank, made]) (by simp [made]) other
      · cases taken
  | process request processing =>
      simp only [step] at taken
      split at taken
      · rename_i id object serving
        cases processing with
        | noData =>
            cases taken
            exact moves_goto rfl (by simp [rank, serving]) (by simp [serving]) other
        | served now =>
            cases taken
            exact moves_goto rfl (by simp [rank, serving]) (by simp [serving]) other
        | threw =>
            cases taken
            exact moves_goto rfl (by simp [rank, serving]) (by simp [serving]) other
      · cases taken
  | removeSession request =>
      simp only [step] at taken
      split at taken
      · rename_i id own failed
        have phases : (servlet.remove request id own).phase = servlet.phase := by
          unfold State.remove
          split
          · rfl
          · split
            · rfl
            · rfl
        cases taken
        exact moves_goto phases (by simp [rank, failed]) (by simp [failed]) other
      · cases taken
  | closeMe object =>
      cases taken
      exact Or.inl rfl
  | onCleaner now =>
      cases taken
      exact Or.inl rfl

/-- A request that was served, or has failed, is behind its session. -/
theorem process_phase {servlet next : State} {request : Nat}
    {processing : Processing}
    (taken : step sessionTimeout servlet (.process request processing) = some next) :
    4 < rank (next.phase request) ∧
      ∀ now, processing = .served now → next.phase request = .done := by
  simp only [step] at taken
  split at taken
  · cases processing with
    | noData =>
        cases taken
        exact ⟨by simp [State.goto, rank], by intro now same; cases same⟩
    | served now =>
        cases taken
        exact ⟨by simp [State.goto, rank], fun _ _ => by simp [State.goto]⟩
    | threw =>
        cases taken
        exact ⟨by simp [State.goto, rank], by intro now same; cases same⟩
  · cases taken

/-- A failed request is done when its session is removed. -/
theorem removeSession_phase {servlet next : State} {request : Nat}
    (taken : step sessionTimeout servlet (.removeSession request) = some next) :
    rank (servlet.phase request) = 5 ∧ next.phase request = .done := by
  simp only [step] at taken
  split at taken
  · rename_i id own failed
    cases taken
    exact ⟨by simp [rank, failed], by simp [State.goto]⟩
  · cases taken

theorem Belongs.mono {first second : Nat → Option String} {servlet : State}
    (belongs : Belongs first servlet)
    (more : ∀ request id, first request = some id → second request = some id) :
    Belongs second servlet where
  brought request id reached := more request id (belongs.brought request id reached)
  listed item member := more item.2 item.1 (belongs.listed item member)
  serving request id object reached := more object id (belongs.serving request id object reached)

end

end Mif.Net.Http.Servlet
