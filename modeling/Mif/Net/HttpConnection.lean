import Mathlib.Logic.Function.Basic
import Mif.Lib.Tally
import Mif.Lib.Transition
import Mif.Common.Fault

set_option autoImplicit false

/- The client side `Http::Connection`: its sessions, each with a stream of its own, and the
asynchronous operations on them. Asio completes each operation exactly once, in one worker
thread. -/
namespace Mif.Net.Http

/-- A request of `MakeRequest`, with its number. -/
structure Request where
  serial : Nat
  target : String
  deriving DecidableEq, Repr

inductive Phase
  | connecting
  | writing
  | reading
  deriving DecidableEq, Repr

/-- An operation that has not completed, with the request that its handler gets. -/
structure Operation where
  session : Nat
  phase : Phase
  request : Request
  deriving DecidableEq, Repr

/-- `Session` of the client. -/
structure ClientSession where
  /-- `m_isClosed` -/
  isClosed : Bool
  /-- The connect of the stream has succeeded. -/
  connected : Bool
  /-- What was written to the stream and has no response, the oldest first. -/
  unanswered : List Request
  deriving DecidableEq, Repr

def ClientSession.new : ClientSession := ⟨false, false, []⟩

/-- `Connection`. The lists at the end record what happened. -/
structure Connection where
  sessions : Nat → ClientSession
  /-- The sessions so far; `m_session` is the last of them. -/
  created : Nat
  made : Nat
  /-- The caller of `MakeRequest` has seen that the session is open. -/
  calling : Option Request
  /-- The worker is in `OnRead` of this session, between the handler and `Close`. -/
  handling : Option Nat
  operations : List Operation
  /-- The requests for which an operation was started. -/
  accepted : List Nat
  /-- For each request written, whether the stream was connected. -/
  starts : List Bool
  /-- The requests that were answered, with the target that `ClientHandler` got. -/
  deliveries : List (Request × String)
  /-- The requests whose last operation failed and had the `OnClose` handler called. -/
  notified : List Nat

/-- How a write completes. -/
inductive Written
  | done
  | needBuffer
  | failed
  deriving DecidableEq, Repr

namespace Connection

/-- A step of the caller, or the handler of an operation. `OnRead` is two steps: what runs
between them is the `ClientHandler`, or the caller. -/
inductive Event
  | makeRequest (target : String)
  | post
  | connect (serial : Nat) (succeeds : Bool)
  | write (serial : Nat) (written : Written)
  | read (serial : Nat) (succeeds : Bool)
  | close
  deriving DecidableEq, Repr

def new : Connection := ⟨fun _ => .new, 0, 0, none, none, [], [], [], [], []⟩

/-- `!m_session || m_session->IsClosed()` does not hold. -/
def isOpen (connection : Connection) : Bool :=
  match connection.created with
  | 0 => false
  | last + 1 => !(connection.sessions last).isClosed

def setSession (connection : Connection) (number : Nat) (session : ClientSession) : Connection :=
  { connection with sessions := Function.update connection.sessions number session }

def accept (connection : Connection) (request : Request) : Connection :=
  { connection with accepted := connection.accepted ++ [request.serial] }

/-- A new session and `Session::Run` -/
def run (connection : Connection) (request : Request) : Connection :=
  { connection.setSession connection.created .new with
    created := connection.created + 1
    operations := connection.operations ++ [⟨connection.created, .connecting, request⟩] }

/-- `Session::Post` of an open session. -/
def post (connection : Connection) (number : Nat) (request : Request) : Connection :=
  let session := connection.sessions number
  { connection.setSession number
      { session with unanswered := session.unanswered ++ [request] } with
    operations := connection.operations ++ [⟨number, .writing, request⟩]
    starts := connection.starts ++ [session.connected] }

/-- An operation that completes. -/
def find (connection : Connection) (serial : Nat) (phase : Phase) : Option Operation :=
  if connection.handling.isSome then none
  else connection.operations.find? fun item => item.request.serial = serial ∧ item.phase = phase

def complete (connection : Connection) (serial : Nat) : Connection :=
  { connection with
    operations := connection.operations.filter fun item => item.request.serial ≠ serial }

/-- `Session::OnClose`, up to the call of the handler. -/
def markClosed (connection : Connection) (number : Nat) : Connection :=
  connection.setSession number { connection.sessions number with isClosed := true }

/-- `Session::OnConnect` -/
def onConnect (connection : Connection) (item : Operation) (succeeds : Bool) : Connection :=
  let completed := connection.complete item.request.serial
  if succeeds then
    (completed.setSession item.session
      { connection.sessions item.session with isClosed := false, connected := true }).post
        item.session item.request
  else completed.markClosed item.session

/-- An operation fails and the session is closed. -/
def fail (connection : Connection) (item : Operation) : Connection :=
  { (connection.complete item.request.serial).markClosed item.session with
    notified := connection.notified ++ [item.request.serial] }

/-- `Session::OnWrite` -/
def onWrite (connection : Connection) (item : Operation) : Written → Connection
  | .done => { connection.complete item.request.serial with
      operations := (connection.complete item.request.serial).operations ++
        [⟨item.session, .reading, item.request⟩] }
  | .needBuffer => connection
  | .failed => connection.fail item

/-- `Session::OnRead`, up to `Close`. The response is the one to the oldest request on the
stream that has none. -/
def onRead (connection : Connection) (item : Operation) (succeeds : Bool) : Option Connection :=
  if succeeds then
    match (connection.sessions item.session).unanswered with
    | [] => none
    | first :: rest => some
        { (connection.complete item.request.serial).setSession item.session
            { connection.sessions item.session with unanswered := rest } with
          deliveries := connection.deliveries ++ [(first, item.request.target)]
          handling := some item.session }
  else some (connection.fail item)

def step (connection : Connection) : Event → Option Connection
  | .makeRequest target =>
      if connection.calling.isSome then none
      else
        let request : Request := ⟨connection.made, target⟩
        let next := { connection with made := connection.made + 1 }
        if connection.isOpen then some { next with calling := some request }
        else some ((next.accept request).run request)
  | .post =>
      match connection.calling, connection.created with
      | some request, last + 1 =>
          let next := { connection with calling := none }
          -- `std::logic_error` for the caller
          if (connection.sessions last).isClosed then some next
          else some ((next.accept request).post last request)
      | _, _ => none
  | .connect serial succeeds =>
      (connection.find serial .connecting).map fun item => connection.onConnect item succeeds
  | .write serial written =>
      (connection.find serial .writing).map fun item => connection.onWrite item written
  | .read serial succeeds =>
      (connection.find serial .reading).bind fun item => connection.onRead item succeeds
  | .close =>
      connection.handling.map fun number =>
        { connection.markClosed number with handling := none }

open Tally (tally)

/-- The exchanges in progress on a stream. -/
def exchanges (connection : Connection) (number : Nat) : Nat :=
  tally Operation.session (connection.operations.filter fun item => item.phase ≠ .connecting)
    number

def operationSerial (item : Operation) : Nat := item.request.serial

def deliverySerial (item : Request × String) : Nat := item.1.serial

/-- How often a request is there: in an operation, answered, or closed. -/
def copies (connection : Connection) (serial : Nat) : Nat :=
  tally operationSerial connection.operations serial +
    tally deliverySerial connection.deliveries serial +
    tally id connection.notified serial

/-- Requests are written to connected streams, one at a time on each; a response is delivered
with the target of its request; and a request that has no operation left was answered, or the
`OnClose` handler was called. -/
structure Sound (connection : Connection) : Prop where
  opened : ∀ start ∈ connection.starts, start = true
  single : ∀ number, connection.exchanges number ≤ 1
  answered : ∀ item ∈ connection.deliveries, item.2 = item.1.target
  settled : ∀ serial ∈ connection.accepted, 1 ≤ connection.copies serial

/-- The step leads to a sound state. -/
def Keeps (connection : Connection) (event : Event) : Prop :=
  ∀ next, connection.step event = some next → next.Sound

/-- No connect fails, and nothing is posted to an open session that has an operation. -/
def Orderly (connection : Connection) : Event → Prop
  | .post => ∀ last, connection.calling.isSome → connection.created = last + 1 →
      (connection.sessions last).isClosed = false →
      ∀ item ∈ connection.operations, item.session ≠ last
  | .connect serial succeeds => succeeds = true ∨ connection.find serial .connecting = none
  | _ => True

/-- What holds as long as the run is orderly. -/
structure Invariant (connection : Connection) : Prop where
  once : ∀ serial, tally id connection.accepted serial ≤ 1
  balanced : ∀ serial, connection.copies serial = tally id connection.accepted serial
  known : ∀ serial ∈ connection.accepted, serial < connection.made
  called : ∀ request ∈ connection.calling,
    request.serial < connection.made ∧ request.serial ∉ connection.accepted
  single : ∀ number, tally Operation.session connection.operations number ≤ 1
  created : ∀ item ∈ connection.operations, item.session < connection.created
  connecting : ∀ item ∈ connection.operations, item.phase = .connecting →
    connection.sessions item.session = .new
  exchanging : ∀ item ∈ connection.operations, item.phase ≠ .connecting →
    (connection.sessions item.session).connected = true ∧
      (connection.sessions item.session).unanswered = [item.request]
  idle : ∀ number < connection.created, (connection.sessions number).isClosed = false →
    (∀ item ∈ connection.operations, item.session ≠ number) →
    (connection.sessions number).connected = true ∧ (connection.sessions number).unanswered = []
  handled : ∀ number ∈ connection.handling,
    number < connection.created ∧ (connection.sessions number).connected = true
  opened : ∀ start ∈ connection.starts, start = true
  answered : ∀ item ∈ connection.deliveries, item.2 = item.1.target

theorem invariant_new : Invariant new := by
  constructor <;> simp [new, copies]

theorem Invariant.sound {connection : Connection} (invariant : connection.Invariant) :
    connection.Sound where
  opened := invariant.opened
  single number := Nat.le_trans (Tally.tally_filter_le _ _ _ _) (invariant.single number)
  answered := invariant.answered
  settled := by
    intro serial member
    have counted : 1 ≤ tally id connection.accepted serial :=
      Tally.one_le_tally id member
    rw [invariant.balanced serial]
    exact counted

section

variable {connection : Connection} (invariant : connection.Invariant)
include invariant

/-- A request has one operation. -/
theorem once_operation (serial : Nat) :
    tally operationSerial connection.operations serial ≤ 1 := by
  have counted := invariant.balanced serial
  have once := invariant.once serial
  unfold copies at counted
  omega

/-- The operations of other requests are on other streams. -/
theorem other_session {item other : Operation} (member : item ∈ connection.operations)
    (kept : other ∈ connection.operations.filter fun entry =>
      entry.request.serial ≠ item.request.serial) : other.session ≠ item.session := by
  intro same
  have within := List.mem_filter.mp kept
  have equal := Tally.eq_of_tally (invariant.single item.session) member within.1 same
  subst equal
  simp at within

/-- An operation that completes, and may start the next one for its request. -/
theorem invariant_complete {next : Connection} {item : Operation}
    (member : item ∈ connection.operations) (started : List Operation) (session : ClientSession)
    (operations : next.operations = (connection.operations.filter fun entry =>
      entry.request.serial ≠ item.request.serial) ++ started)
    (sessions : next.sessions = Function.update connection.sessions item.session session)
    (created : next.created = connection.created) (made : next.made = connection.made)
    (calling : next.calling = connection.calling)
    (accepted : next.accepted = connection.accepted)
    (few : started.length ≤ 1)
    (exchanging : ∀ other ∈ started, other.session = item.session ∧ other.phase ≠ .connecting ∧
      session.connected = true ∧ session.unanswered = [other.request])
    (idle : started = [] → session.isClosed = false →
      session.connected = true ∧ session.unanswered = [])
    (balanced : ∀ serial, next.copies serial = connection.copies serial)
    (handled : ∀ number ∈ next.handling,
      number < next.created ∧ (next.sessions number).connected = true)
    (opened : ∀ start ∈ next.starts, start = true)
    (answered : ∀ delivery ∈ next.deliveries, delivery.2 = delivery.1.target) :
    next.Invariant := by
  have elsewhere : ∀ other ∈ connection.operations.filter fun entry =>
      entry.request.serial ≠ item.request.serial,
      next.sessions other.session = connection.sessions other.session := by
    intro other kept
    rw [sessions, Function.update_of_ne (other_session invariant member kept)]
  have here : next.sessions item.session = session := by
    rw [sessions, Function.update_self]
  refine ⟨?_, ?_, ?_, ?_, ?_, ?_, ?_, ?_, ?_, handled, opened, answered⟩
  · rw [accepted]
    exact invariant.once
  · intro serial
    rw [balanced, accepted]
    exact invariant.balanced serial
  · rw [accepted, made]
    exact invariant.known
  · rw [calling, accepted, made]
    exact invariant.called
  · intro number
    have removed := @Tally.tally_filter_add _ _ _ Operation.session number
      (fun entry => entry.request.serial ≠ item.request.serial) connection.operations item member
      (by simp)
    have before := invariant.single number
    have added : tally Operation.session started number ≤
        tally Operation.session [item] number := by
      match started, few, exchanging with
      | [], _, _ => exact Nat.zero_le _
      | [other], _, exchanging =>
          have same := (exchanging other List.mem_cons_self).1
          simp [tally, same]
    rw [operations, Tally.tally_append]
    omega
  · intro other kept
    rw [created]
    rw [operations] at kept
    rcases List.mem_append.mp kept with old | new
    · exact invariant.created other (List.mem_filter.mp old).1
    · rw [(exchanging other new).1]
      exact invariant.created item member
  · intro other kept phase
    rw [operations] at kept
    rcases List.mem_append.mp kept with old | new
    · rw [elsewhere other old]
      exact invariant.connecting other (List.mem_filter.mp old).1 phase
    · exact absurd phase (exchanging other new).2.1
  · intro other kept phase
    rw [operations] at kept
    rcases List.mem_append.mp kept with old | new
    · rw [elsewhere other old]
      exact invariant.exchanging other (List.mem_filter.mp old).1 phase
    · obtain ⟨same, _, connected, unanswered⟩ := exchanging other new
      rw [same, here]
      exact ⟨connected, unanswered⟩
  · intro number below isOpen none
    rw [created] at below
    rw [operations] at none
    by_cases same : number = item.session
    · subst same
      rw [here] at isOpen ⊢
      apply idle _ isOpen
      cases started with
      | nil => rfl
      | cons other rest =>
          have clash := none other (List.mem_append_right _ List.mem_cons_self)
          exact absurd (exchanging other List.mem_cons_self).1 clash
    · have unchanged : next.sessions number = connection.sessions number := by
        rw [sessions, Function.update_of_ne same]
      rw [unchanged] at isOpen ⊢
      apply invariant.idle number below isOpen
      intro other within
      by_cases removed : other.request.serial = item.request.serial
      · have equal := @Tally.eq_of_tally _ _ _ operationSerial _ item other
          (once_operation invariant _) member within removed
        subst equal
        exact Ne.symm same
      · exact none other (List.mem_append_left _ (List.mem_filter.mpr ⟨within, by simpa using removed⟩))

/-- The operation that completes is taken off the count. -/
theorem tally_completed {item : Operation} (member : item ∈ connection.operations)
    (serial : Nat) :
    tally operationSerial (connection.operations.filter fun entry =>
        entry.request.serial ≠ item.request.serial) serial +
      tally operationSerial [item] serial = tally operationSerial connection.operations serial := by
  by_cases same : operationSerial item = serial
  · subst same
    have none : tally operationSerial (connection.operations.filter fun entry =>
        entry.request.serial ≠ item.request.serial) (operationSerial item) = 0 :=
      Tally.tally_remove_self connection.operations (operationSerial item)
    have one := Tally.tally_single operationSerial item
    have least := Tally.one_le_tally operationSerial member
    have most := once_operation invariant (operationSerial item)
    omega
  · have kept : tally operationSerial (connection.operations.filter fun entry =>
        entry.request.serial ≠ item.request.serial) serial =
        tally operationSerial connection.operations serial :=
      Tally.tally_remove_ne (Ne.symm same) connection.operations
    rw [kept, Tally.tally_single_ne same]
    rfl

omit invariant in
/-- Outside `OnRead` there is nothing to say about it. -/
theorem handled_of_free {next : Connection} (free : next.handling = none) :
    ∀ number ∈ next.handling, number < next.created ∧ (next.sessions number).connected = true := by
  intro number handling
  rw [free] at handling
  cases handling

theorem invariant_fail {item : Operation} (member : item ∈ connection.operations)
    (free : connection.handling = none) : (connection.fail item).Invariant := by
  refine invariant_complete invariant member []
    { connection.sessions item.session with isClosed := true }
    (List.append_nil _).symm rfl rfl rfl rfl rfl (Nat.zero_le _) ?_ ?_ ?_ ?_ invariant.opened
    invariant.answered
  · intro other impossible
    cases impossible
  · intro _ isOpen
    cases isOpen
  · intro serial
    have counted := tally_completed invariant member serial
    have moved : tally id [item.request.serial] serial = tally operationSerial [item] serial := rfl
    simp only [copies, fail, markClosed, setSession, complete, Tally.tally_append, moved]
    omega
  · exact handled_of_free free

/-- `OnConnect` of a stream that is connected writes the request. -/
theorem invariant_connected {item : Operation} (member : item ∈ connection.operations)
    (phase : item.phase = .connecting) (free : connection.handling = none) :
    (connection.onConnect item true).Invariant := by
  have fresh := invariant.connecting item member phase
  refine invariant_complete invariant member [⟨item.session, .writing, item.request⟩]
    ⟨false, true, [item.request]⟩ rfl ?_ rfl rfl rfl rfl (Nat.le_refl _) ?_ ?_ ?_ ?_
    ?_ invariant.answered
  · simp [onConnect, post, setSession, complete, fresh, ClientSession.new]
  · intro other within
    obtain rfl := List.mem_singleton.mp within
    exact ⟨rfl, by simp, rfl, rfl⟩
  · intro impossible
    cases impossible
  · intro serial
    have counted := tally_completed invariant member serial
    have moved : tally operationSerial [⟨item.session, .writing, item.request⟩] serial =
        tally operationSerial [item] serial := rfl
    simp only [copies, onConnect, ↓reduceIte, post, setSession, complete, Tally.tally_append, moved]
    omega
  · exact handled_of_free free
  · intro start within
    rcases List.mem_append.mp within with old | new
    · exact invariant.opened start old
    · obtain rfl := List.mem_singleton.mp new
      simp [setSession, complete]

/-- `OnWrite` of the whole request reads the response. -/
theorem invariant_written {item : Operation} (member : item ∈ connection.operations)
    (phase : item.phase = .writing) (free : connection.handling = none) :
    (connection.onWrite item .done).Invariant := by
  have exchange := invariant.exchanging item member (by rw [phase]; simp)
  refine invariant_complete invariant member [⟨item.session, .reading, item.request⟩]
    (connection.sessions item.session) rfl ?_ rfl rfl rfl rfl (Nat.le_refl _) ?_ ?_ ?_ ?_
    invariant.opened invariant.answered
  · simp [onWrite, complete]
  · intro other within
    obtain rfl := List.mem_singleton.mp within
    exact ⟨rfl, by simp, exchange.1, exchange.2⟩
  · intro impossible
    cases impossible
  · intro serial
    have counted := tally_completed invariant member serial
    have moved : tally operationSerial [⟨item.session, .reading, item.request⟩] serial =
        tally operationSerial [item] serial := rfl
    simp only [copies, onWrite, complete, Tally.tally_append, moved]
    omega
  · exact handled_of_free free

/-- `OnRead` of a response delivers it with the target of its request. -/
theorem invariant_read {item : Operation} (member : item ∈ connection.operations)
    (phase : item.phase = .reading) {next : Connection}
    (taken : connection.onRead item true = some next) : next.Invariant := by
  have exchange := invariant.exchanging item member (by rw [phase]; simp)
  simp only [onRead, ↓reduceIte, exchange.2] at taken
  cases taken
  refine invariant_complete invariant member []
    { connection.sessions item.session with unanswered := [] }
    (List.append_nil _).symm rfl rfl rfl rfl rfl (Nat.zero_le _) ?_ ?_ ?_ ?_ invariant.opened ?_
  · intro other impossible
    cases impossible
  · intro _ _
    exact ⟨exchange.1, rfl⟩
  · intro serial
    have counted := tally_completed invariant member serial
    have moved : tally deliverySerial [(item.request, item.request.target)] serial =
        tally operationSerial [item] serial := rfl
    simp only [copies, setSession, complete, Tally.tally_append, moved]
    omega
  · intro number handling
    cases handling
    refine ⟨invariant.created item member, ?_⟩
    simp [setSession, exchange.1]
  · intro delivery within
    rcases List.mem_append.mp within with old | new
    · exact invariant.answered delivery old
    · obtain rfl := List.mem_singleton.mp new
      rfl

/-- A new request on a stream that has no operation. -/
theorem invariant_start {next : Connection} {request : Request} (operation : Operation)
    (session : ClientSession) (same : operation.request = request)
    (unused : tally id connection.accepted request.serial = 0)
    (free : ∀ item ∈ connection.operations, item.session ≠ operation.session)
    (operations : next.operations = connection.operations ++ [operation])
    (sessions : next.sessions = Function.update connection.sessions operation.session session)
    (created : ∀ number, number < connection.created ∨ number = operation.session ↔
      number < next.created)
    (accepted : next.accepted = connection.accepted ++ [request.serial])
    (known : ∀ serial ∈ next.accepted, serial < next.made) (called : next.calling = none)
    (deliveries : next.deliveries = connection.deliveries)
    (notified : next.notified = connection.notified)
    (connecting : operation.phase = .connecting → session = .new)
    (exchanging : operation.phase ≠ .connecting →
      session.connected = true ∧ session.unanswered = [request])
    (handled : ∀ number ∈ next.handling,
      number < next.created ∧ (next.sessions number).connected = true)
    (opened : ∀ start ∈ next.starts, start = true) : next.Invariant := by
  subst same
  have elsewhere : ∀ item ∈ connection.operations,
      next.sessions item.session = connection.sessions item.session := by
    intro item within
    rw [sessions, Function.update_of_ne (free item within)]
  have here : next.sessions operation.session = session := by
    rw [sessions, Function.update_self]
  refine ⟨?_, ?_, known, ?_, ?_, ?_, ?_, ?_, ?_, handled, opened, ?_⟩
  · intro serial
    rw [accepted, Tally.tally_append]
    exact Tally.add_single_le id invariant.once unused serial
  · intro serial
    have before := invariant.balanced serial
    have moved : tally operationSerial [operation] serial =
        tally id [operation.request.serial] serial := rfl
    unfold copies at before ⊢
    rw [operations, accepted, deliveries, notified, Tally.tally_append, Tally.tally_append, moved]
    omega
  · intro other impossible
    rw [called] at impossible
    cases impossible
  · intro number
    rw [operations, Tally.tally_append]
    exact Tally.add_single_le Operation.session invariant.single (Tally.tally_eq_zero free) number
  · intro item within
    rw [operations] at within
    apply (created _).mp
    rcases List.mem_append.mp within with old | new
    · exact Or.inl (invariant.created item old)
    · obtain rfl := List.mem_singleton.mp new
      exact Or.inr rfl
  · intro item within phase
    rw [operations] at within
    rcases List.mem_append.mp within with old | new
    · rw [elsewhere item old]
      exact invariant.connecting item old phase
    · obtain rfl := List.mem_singleton.mp new
      rw [here]
      exact connecting phase
  · intro item within phase
    rw [operations] at within
    rcases List.mem_append.mp within with old | new
    · rw [elsewhere item old]
      exact invariant.exchanging item old phase
    · obtain rfl := List.mem_singleton.mp new
      rw [here]
      exact exchanging phase
  · intro number below isOpen none
    rw [operations] at none
    have different : number ≠ operation.session := by
      intro same
      exact none operation (List.mem_append_right _ List.mem_cons_self) same.symm
    have unchanged : next.sessions number = connection.sessions number := by
      rw [sessions, Function.update_of_ne different]
    rw [unchanged] at isOpen ⊢
    have before := ((created number).mpr below).resolve_right different
    exact invariant.idle number before isOpen fun item within =>
      none item (List.mem_append_left _ within)
  · rw [deliveries]
    exact invariant.answered

theorem invariant_close {number : Nat} (handling : connection.handling = some number) :
    Invariant { connection.markClosed number with handling := none } := by
  have connected := (invariant.handled number handling).2
  have kept : ∀ other, ((connection.markClosed number).sessions other).connected =
      (connection.sessions other).connected ∧
      ((connection.markClosed number).sessions other).unanswered =
        (connection.sessions other).unanswered := by
    intro other
    simp only [markClosed, setSession]
    by_cases same : other = number
    · subst same
      rw [Function.update_self]
      exact ⟨rfl, rfl⟩
    · rw [Function.update_of_ne same]
      exact ⟨rfl, rfl⟩
  refine ⟨invariant.once, invariant.balanced, invariant.known, invariant.called,
    invariant.single, invariant.created, ?_, ?_, ?_, ?_, invariant.opened, invariant.answered⟩
  · intro item within phase
    have fresh := invariant.connecting item within phase
    have different : item.session ≠ number := by
      intro same
      rw [← same, fresh] at connected
      cases connected
    simp only [markClosed, setSession]
    rw [Function.update_of_ne different]
    exact fresh
  · intro item within phase
    have exchange := invariant.exchanging item within phase
    rw [(kept item.session).1, (kept item.session).2]
    exact exchange
  · intro other below isOpen none
    have before : (connection.sessions other).isClosed = false := by
      simp only [markClosed, setSession] at isOpen
      by_cases same : other = number
      · subst same
        rw [Function.update_self] at isOpen
        cases isOpen
      · rwa [Function.update_of_ne same] at isOpen
    rw [(kept other).1, (kept other).2]
    exact invariant.idle other below before none
  · intro other impossible
    cases impossible

/-- `MakeRequest` with no open session. -/
theorem invariant_run (idle : connection.calling = none) (target : String) :
    ((accept { connection with made := connection.made + 1 } ⟨connection.made, target⟩).run
      ⟨connection.made, target⟩).Invariant := by
  refine invariant_start invariant ⟨connection.created, .connecting, ⟨connection.made, target⟩⟩
    .new rfl ?_ ?_ rfl rfl ?_ rfl ?_ idle rfl rfl (fun _ => rfl) ?_ ?_ invariant.opened
  · apply Tally.tally_absent
    intro within
    exact Nat.lt_irrefl _ (invariant.known _ within)
  · intro item within same
    have below := invariant.created item within
    have equal : item.session = connection.created := same
    omega
  · intro number
    change number < connection.created ∨ number = connection.created ↔
      number < connection.created + 1
    omega
  · intro serial within
    change serial < connection.made + 1
    rcases List.mem_append.mp within with old | new
    · have below := invariant.known serial old
      omega
    · rw [List.mem_singleton.mp new]
      exact Nat.lt_succ_self _
  · intro impossible
    exact absurd rfl impossible
  · intro number handling
    obtain ⟨below, connected⟩ := invariant.handled number handling
    have different : number ≠ connection.created := by omega
    refine ⟨Nat.lt_succ_of_lt below, ?_⟩
    simp only [run, setSession, accept]
    rw [Function.update_of_ne different]
    exact connected

/-- `MakeRequest` with an open session that has no operation. -/
theorem invariant_post {request : Request} (calling : connection.calling = some request)
    {last : Nat} (created : connection.created = last + 1)
    (isOpen : (connection.sessions last).isClosed = false)
    (free : ∀ item ∈ connection.operations, item.session ≠ last) :
    ((accept { connection with calling := none } request).post last request).Invariant := by
  obtain ⟨below, unused⟩ := invariant.called request calling
  obtain ⟨connected, unanswered⟩ := invariant.idle last (by omega) isOpen free
  refine invariant_start invariant ⟨last, .writing, request⟩
    { connection.sessions last with unanswered := [request] } rfl ?_ free rfl ?_ ?_ rfl ?_ rfl rfl
    rfl ?_ (fun _ => ⟨connected, rfl⟩) ?_ ?_
  · exact Tally.tally_absent unused
  · simp [post, setSession, accept, unanswered]
  · intro number
    change number < connection.created ∨ number = last ↔ number < connection.created
    omega
  · intro serial within
    rcases List.mem_append.mp within with old | new
    · exact invariant.known serial old
    · rw [List.mem_singleton.mp new]
      exact below
  · intro impossible
    cases impossible
  · intro number handling
    obtain ⟨below, connected⟩ := invariant.handled number handling
    refine ⟨below, ?_⟩
    simp only [post, setSession, accept]
    by_cases same : number = last
    · subst same
      rw [Function.update_self]
      exact connected
    · rw [Function.update_of_ne same]
      exact connected
  · intro start within
    rcases List.mem_append.mp within with old | new
    · exact invariant.opened start old
    · rw [List.mem_singleton.mp new]
      exact connected

end

theorem find_some {connection : Connection} {serial : Nat} {phase : Phase} {item : Operation}
    (found : connection.find serial phase = some item) :
    item ∈ connection.operations ∧ item.phase = phase ∧ connection.handling = none := by
  unfold find at found
  split at found
  · cases found
  · rename_i free
    have same : item.request.serial = serial ∧ item.phase = phase := by
      simpa using List.find?_some found
    exact ⟨List.mem_of_find?_eq_some found, same.2, by simpa using free⟩

/-- An orderly step. -/
theorem invariant_step {connection next : Connection} {event : Event}
    (invariant : connection.Invariant) (orderly : connection.Orderly event)
    (taken : connection.step event = some next) : next.Invariant := by
  cases event with
  | makeRequest target =>
      simp only [step] at taken
      split at taken
      · cases taken
      · rename_i idle
        have none : connection.calling = none := by simpa using idle
        split at taken
        · cases taken
          refine ⟨invariant.once, invariant.balanced, ?_, ?_, invariant.single, invariant.created,
            invariant.connecting, invariant.exchanging, invariant.idle, invariant.handled,
            invariant.opened, invariant.answered⟩
          · intro serial within
            exact Nat.lt_succ_of_lt (invariant.known serial within)
          · intro request called
            cases called
            refine ⟨Nat.lt_succ_self _, ?_⟩
            intro within
            exact absurd (invariant.known _ within) (Nat.lt_irrefl _)
        · cases taken
          exact invariant_run invariant none target
  | post =>
      simp only [step] at taken
      split at taken
      · rename_i request last calling created
        split at taken
        · cases taken
          exact ⟨invariant.once, invariant.balanced, invariant.known,
            (by intro request impossible; cases impossible), invariant.single, invariant.created,
            invariant.connecting, invariant.exchanging, invariant.idle, invariant.handled,
            invariant.opened, invariant.answered⟩
        · rename_i isOpen
          cases taken
          have unclosed : (connection.sessions last).isClosed = false := by simpa using isOpen
          exact invariant_post invariant calling created unclosed
            (orderly last (by simp [calling]) created unclosed)
      · cases taken
  | connect serial succeeds =>
      obtain ⟨item, found, same⟩ := Option.map_eq_some_iff.mp taken
      obtain ⟨member, phase, free⟩ := find_some found
      rcases orderly with success | missing
      · rw [← same, success]
        exact invariant_connected invariant member phase free
      · rw [missing] at found
        cases found
  | write serial written =>
      obtain ⟨item, found, same⟩ := Option.map_eq_some_iff.mp taken
      obtain ⟨member, phase, free⟩ := find_some found
      rw [← same]
      cases written with
      | done => exact invariant_written invariant member phase free
      | needBuffer => exact invariant
      | failed => exact invariant_fail invariant member free
  | read serial succeeds =>
      obtain ⟨item, found, taken⟩ := Option.bind_eq_some_iff.mp taken
      obtain ⟨member, phase, free⟩ := find_some found
      cases succeeds with
      | true => exact invariant_read invariant member phase taken
      | false =>
          cases taken
          exact invariant_fail invariant member free
  | close =>
      obtain ⟨number, handling, same⟩ := Option.map_eq_some_iff.mp taken
      rw [← same]
      exact invariant_close invariant handling

section

variable {connection : Connection} (invariant : connection.Invariant)
include invariant

/-- A request that is posted to an open session with an operation is written to a stream that
is not connected yet, or is written beside another one. -/
theorem unsound_post (request : Request) {last : Nat} {item : Operation}
    (member : item ∈ connection.operations) (same : item.session = last) :
    ¬ ((accept { connection with calling := none } request).post last request).Sound := by
  intro sound
  by_cases phase : item.phase = .connecting
  · have fresh := invariant.connecting item member phase
    rw [same] at fresh
    have started := sound.opened (connection.sessions last).connected
      (List.mem_append_right _ List.mem_cons_self)
    rw [fresh] at started
    cases started
  · have kept : item ∈ connection.operations.filter fun entry => entry.phase ≠ .connecting :=
      List.mem_filter.mpr ⟨member, by simpa using phase⟩
    have before := Tally.one_le_tally Operation.session kept
    rw [same] at before
    have after := sound.single last
    have one : tally Operation.session [⟨last, .writing, request⟩] last = 1 :=
      Tally.tally_single Operation.session ⟨last, .writing, request⟩
    simp only [exchanges, post, accept, setSession, List.filter_append, Tally.tally_append] at after
    rw [List.filter_cons_of_pos (by simp), List.filter_nil] at after
    omega

/-- The request of a connect that fails is not heard of again. -/
theorem unsound_refused {item : Operation} (member : item ∈ connection.operations) :
    ¬ (connection.onConnect item false).Sound := by
  intro sound
  have counted := tally_completed invariant member item.request.serial
  have one : tally operationSerial [item] item.request.serial = 1 := Tally.tally_single operationSerial item
  have balanced := invariant.balanced item.request.serial
  have once := invariant.once item.request.serial
  have accepted : item.request.serial ∈ connection.accepted := by
    by_contra absent
    have none : tally id connection.accepted item.request.serial = 0 := Tally.tally_absent absent
    simp only [copies] at balanced
    omega
  have settled := sound.settled item.request.serial accepted
  simp only [copies, onConnect, Bool.false_eq_true, ↓reduceIte, markClosed, setSession,
    complete] at settled balanced
  omega

theorem keeps_iff_orderly (event : Event) :
    connection.Keeps event ↔ connection.Orderly event := by
  constructor
  · intro keeps
    cases event with
    | post =>
        intro last calling created isOpen item member same
        obtain ⟨request, called⟩ := Option.isSome_iff_exists.mp calling
        apply unsound_post invariant request member same
        apply keeps
        simp [step, called, created, isOpen]
    | connect serial succeeds =>
        cases found : connection.find serial .connecting with
        | none => exact Or.inr found
        | some item =>
            cases succeeds with
            | true => exact Or.inl rfl
            | false =>
                have taken : connection.step (.connect serial false) =
                    some (connection.onConnect item false) := by
                  simp [step, found]
                exact absurd (keeps _ taken) (unsound_refused invariant (find_some found).1)
    | makeRequest target => trivial
    | write serial written => trivial
    | read serial succeeds => trivial
    | close => trivial
  · intro orderly next taken
    exact (invariant_step invariant orderly taken).sound

end

/-- A run keeps requests apart and loses none exactly when it is orderly. -/
theorem requests_kept_iff_orderly (events : List Event) :
    Transition.Along step Keeps new events ↔ Transition.Along step Orderly new events := by
  have preserved : ∀ (connection : Connection) (event : Event) (next : Connection),
      connection.Invariant → True → connection.Keeps event →
      connection.step event = some next → next.Invariant := by
    intro connection event next invariant _ keeps taken
    exact invariant_step invariant ((keeps_iff_orderly invariant event).mp keeps) taken
  have always : Transition.Along step (fun _ _ => True) new events :=
    Transition.along_of_mem events (fun _ _ _ => trivial) new
  exact Transition.along_congr (fun connection event invariant _ =>
    keeps_iff_orderly invariant event) preserved events new invariant_new always

/-- Two requests, the second before the first is connected; and one request whose connect
fails. -/
theorem hasty_request_is_written_unconnected :
    ¬ Transition.Along step Keeps new [.makeRequest "/a", .makeRequest "/b", .post] ∧
      ¬ Transition.Along step Keeps new [.makeRequest "/a", .connect 0 false] := by
  constructor
  · intro along
    have sound := ((along.2 _ rfl).2 _ rfl).1 _ rfl
    have started := sound.opened false (by decide)
    cases started
  · intro along
    have sound := (along.2 _ rfl).1 _ rfl
    have settled := sound.settled 0 (by decide)
    revert settled
    decide

end Connection

end Mif.Net.Http
