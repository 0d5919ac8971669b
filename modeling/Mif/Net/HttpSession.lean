import Mif.Lib.Transition
import Mif.Common.Fault

set_option autoImplicit false

/- The request and response cycle of `Http::Detail::Session` on one connection.
Beast completes each outstanding read or write exactly once; a write asks for
another buffer while the body has more portions. -/
namespace Mif.Net.Http

/-- A request together with the response the session makes for it: whether both
keep the connection alive, and how many further portions the body has. -/
structure Exchange where
  id : Nat
  upgrade : Bool
  keepAlive : Bool
  portions : Nat
  deriving DecidableEq, Repr

/-- `resp.need_eof()` of a chunked response. -/
def Exchange.needEof (exchange : Exchange) : Bool := !exchange.keepAlive

/-- The session with its queue of responses. `handled` and `answered` record the
requests read and the responses written so far. -/
structure Session where
  /-- `m_queue->m_limit` -/
  limit : Nat
  /-- `m_queue->m_tasks`, the response being written first. -/
  tasks : List Exchange
  /-- What the peer has still to send. -/
  incoming : List Exchange
  /-- An `async_read` is outstanding. -/
  reading : Bool
  /-- An `async_write` is outstanding, with the portions that follow it. -/
  writing : Option Nat
  /-- `Close` has shut the connection down. -/
  closed : Bool
  handled : List Exchange
  answered : List Exchange
  deriving DecidableEq, Repr

/-- How an outstanding operation completes. -/
inductive Completion
  | read
  | readEndOfStream
  | readError
  | write
  | writeError
  deriving DecidableEq, Repr

namespace Session

/-- The session after `Run`, which starts the first read. -/
def new (pipelineLimit : Nat) (requests : List Exchange) : Session :=
  ⟨max pipelineLimit 1, [], requests, true, none, false, [], []⟩

/-- `Session::Read` -/
def read (session : Session) : Session := { session with reading := true }

/-- `Session::Close` -/
def close (session : Session) : Session := { session with closed := true }

/-- `Queue::IsFull` -/
def isFull (session : Session) : Bool := session.limit ≤ session.tasks.length

/-- The front task of the queue: `async_write` of the response. -/
def startFront (session : Session) : Session :=
  match session.tasks with
  | [] => session
  | exchange :: _ => { session with writing := some exchange.portions }

/-- `Queue::Post` -/
def post (session : Session) (exchange : Exchange) : Session :=
  let queued := { session with tasks := session.tasks ++ [exchange] }
  if queued.tasks.length = 1 then queued.startFront else queued

/-- `Queue::Pop`: whether the queue was full before the front was removed. -/
def pop (session : Session) : Outcome (Session × Bool) :=
  match session.tasks with
  | [] => throwing "[Mif::Net::Http::Detail::Session::Queue::Pop] Empty queue."
  | _ :: rest => .ok ({ session with tasks := rest }.startFront, session.isFull)

/-- `Session::OnRead`. Every branch of `HandleRequest` posts exactly one
response, by `Reply` or by `ReplyError`. -/
def onRead (session : Session) (exchange : Exchange) : Session :=
  if exchange.upgrade then session.close
  else { session with handled := session.handled ++ [exchange] }.post exchange

/-- `Session::OnWrite` without an error, for the front response. -/
def onWrite (session : Session) (exchange : Exchange) : Session :=
  if exchange.needEof then session.close
  else
    match session.pop with
    | .error _ => session
    | .ok (popped, wasFull) => if wasFull then popped.read else popped

/-- One completion. Nothing completes that is not outstanding, and a read
delivers the next request of the peer. -/
def step (session : Session) : Completion → Option Session
  | .read =>
      match session.reading, session.incoming with
      | true, exchange :: rest =>
          some ({ session with reading := false, incoming := rest }.onRead exchange)
      | _, _ => none
  | .readEndOfStream => if session.reading then some { session with reading := false }.close else none
  | .readError => if session.reading then some { session with reading := false } else none
  | .write =>
      match session.writing, session.tasks with
      -- `need_buffer`: `GetNextPortion` and `async_write` again
      | some (portions + 1), _ => some { session with writing := some portions }
      | some 0, exchange :: _ =>
          some ({ session with
            writing := none, answered := session.answered ++ [exchange] }.onWrite exchange)
      | _, _ => none
  | .writeError => if session.writing.isSome then some { session with writing := none } else none

/-- The connection is open and nothing is outstanding on it: no handler will
ever run again. -/
def Stalled (session : Session) : Prop :=
  session.closed = false ∧ session.reading = false ∧ session.writing = none

/-- What a keep-alive connection owes the requests of its peer. -/
structure Serves (requests : List Exchange) (session : Session) : Prop where
  alive : ¬ session.Stalled
  idleReads : session.tasks = [] → session.reading = true
  readInOrder : session.handled ++ session.incoming = requests
  answeredInOrder : session.answered ++ session.tasks = session.handled
  complete : session.step .read = none → session.step .write = none → session.answered = requests

/-- No read and no write fails. -/
def FaultFree (completions : List Completion) : Prop :=
  ∀ completion ∈ completions, completion = .read ∨ completion = .write

/-- Every request gets a response that keeps the connection alive. -/
def KeptAlive (requests : List Exchange) : Prop :=
  ∀ exchange ∈ requests, exchange.upgrade = false ∧ exchange.keepAlive = true

/-- The whole connection is served, whatever the order of the completions. -/
def NeverStalls (pipelineLimit : Nat) (requests : List Exchange) : Prop :=
  ∀ completions session, FaultFree completions →
    Transition.run step (new pipelineLimit requests) completions = some session →
    session.Serves requests

/-- A queue of one response: the session either waits for a request or writes
the response to the last one. -/
inductive Cycle (requests : List Exchange) (session : Session) : Prop
  | waiting (tasks : session.tasks = []) (reading : session.reading = true)
      (writing : session.writing = none) (answered : session.answered = session.handled)
  | replying (exchange : Exchange) (portions : Nat) (tasks : session.tasks = [exchange])
      (reading : session.reading = false) (writing : session.writing = some portions)
      (answered : session.answered ++ [exchange] = session.handled)

structure Invariant (requests : List Exchange) (session : Session) : Prop where
  single : session.limit = 1
  opened : session.closed = false
  order : session.handled ++ session.incoming = requests
  cycle : session.Cycle requests

theorem new_invariant (requests : List Exchange) : (new 1 requests).Invariant requests :=
  ⟨rfl, rfl, rfl, .waiting rfl rfl rfl rfl⟩

theorem read_invariant (requests : List Exchange) (kept : KeptAlive requests)
    (session next : Session) (held : session.Invariant requests)
    (taken : session.step .read = some next) : next.Invariant requests := by
  obtain ⟨single, opened, order, cycle⟩ := held
  cases cycle with
  | replying exchange portions tasks reading writing answered =>
      simp only [step, reading] at taken
      cases taken
  | waiting tasks reading writing answered =>
      simp only [step, reading] at taken
      cases pending : session.incoming with
      | nil =>
          rw [pending] at taken
          cases taken
      | cons exchange rest =>
          rw [pending] at taken order
          cases taken
          have plain := (kept exchange (by rw [← order]; simp)).1
          have replied : { session with reading := false, incoming := rest }.onRead exchange =
              { session with
                reading := false, incoming := rest, handled := session.handled ++ [exchange],
                tasks := [exchange], writing := some exchange.portions } := by
            simp [onRead, plain, post, tasks, startFront]
          rw [replied]
          exact ⟨single, opened, by simpa using order,
            .replying exchange exchange.portions rfl rfl rfl (by rw [answered])⟩

theorem write_invariant (requests : List Exchange) (kept : KeptAlive requests)
    (session next : Session) (held : session.Invariant requests)
    (taken : session.step .write = some next) : next.Invariant requests := by
  obtain ⟨single, opened, order, cycle⟩ := held
  cases cycle with
  | waiting tasks reading writing answered =>
      simp only [step, writing] at taken
      cases taken
  | replying exchange portions tasks reading writing answered =>
      cases portions with
      | succ portions =>
          simp only [step, writing] at taken
          cases taken
          exact ⟨single, opened, order, .replying exchange portions tasks reading rfl answered⟩
      | zero =>
          simp only [step, writing, tasks] at taken
          cases taken
          have member : exchange ∈ requests := by
            rw [← order, ← answered]
            simp
          have alive := (kept exchange member).2
          -- the queue is full with its only response, so `Pop` asks for the next read
          have popped : { session with
                tasks := [exchange], writing := none,
                answered := session.answered ++ [exchange] }.onWrite exchange =
              { session with
                writing := none, answered := session.answered ++ [exchange], tasks := [],
                reading := true } := by
            simp [onWrite, Exchange.needEof, alive, pop, isFull, single, startFront, read]
          rw [popped]
          exact ⟨single, opened, order, .waiting rfl rfl rfl answered⟩

theorem Invariant.serves {requests : List Exchange} {session : Session}
    (held : session.Invariant requests) : session.Serves requests := by
  obtain ⟨single, opened, order, cycle⟩ := held
  cases cycle with
  | waiting tasks reading writing answered =>
      refine ⟨?_, fun _ => reading, order, by rw [tasks, List.append_nil, answered], ?_⟩
      · rintro ⟨-, quiet, -⟩
        rw [reading] at quiet
        cases quiet
      · intro unread _
        have finished : session.incoming = [] := by
          cases pending : session.incoming with
          | nil => rfl
          | cons exchange rest => simp [step, reading, pending] at unread
        rw [answered, ← order, finished, List.append_nil]
  | replying exchange portions tasks reading writing answered =>
      refine ⟨?_, ?_, order, by rw [tasks, answered], ?_⟩
      · rintro ⟨-, -, quiet⟩
        rw [writing] at quiet
        cases quiet
      · intro empty
        rw [tasks] at empty
        cases empty
      · intro _ unwritten
        cases portions <;> simp [step, writing, tasks] at unwritten

theorem step_invariant (requests : List Exchange) (kept : KeptAlive requests)
    (session : Session) (completion : Completion) (next : Session)
    (held : session.Invariant requests) (faultFree : completion = .read ∨ completion = .write)
    (taken : session.step completion = some next) : next.Invariant requests := by
  rcases faultFree with rfl | rfl
  · exact read_invariant requests kept session next held taken
  · exact write_invariant requests kept session next held taken

/-- Every state of a connection with a queue of one response. -/
theorem single_serves (requests : List Exchange) (kept : KeptAlive requests) :
    NeverStalls 1 requests := by
  intro completions session faultFree reached
  have guarded : Transition.Along step
      (fun _ completion => completion = .read ∨ completion = .write)
      (new 1 requests) completions :=
    Transition.along_of_mem completions (fun completion member _ => faultFree completion member) _
  exact (Transition.run_invariant (step_invariant requests kept) (new_invariant requests)
    guarded reached).serves

/-- A silent peer leaves the first read outstanding. -/
theorem silent_serves (pipelineLimit : Nat) : NeverStalls pipelineLimit [] := by
  intro completions session faultFree reached
  cases completions with
  | nil =>
      cases reached
      refine ⟨?_, fun _ => rfl, rfl, rfl, fun _ _ => rfl⟩
      rintro ⟨-, quiet, -⟩
      cases quiet
  | cons completion rest =>
      rcases faultFree completion (by simp) with rfl | rfl
      · cases reached
      · cases reached

/-- The portions of a body go out one after the other. -/
theorem run_portions (session : Session) (portions : Nat)
    (writing : session.writing = some portions) :
    Transition.run step session (List.replicate portions .write) =
      some { session with writing := some 0 } := by
  induction portions generalizing session with
  | zero =>
      rw [← writing]
      rfl
  | succ portions ih =>
      rw [List.replicate_succ, Transition.run_cons]
      have taken : session.step .write = some { session with writing := some portions } := by
        simp only [step, writing]
      rw [taken, Option.bind_some]
      exact ih _ rfl

/-- With a longer queue the first response is written from a queue that is not
full, and nobody starts the next read. -/
theorem first_response_stalls (pipelineLimit : Nat) (long : 2 ≤ pipelineLimit)
    (exchange : Exchange) (rest : List Exchange) (plain : exchange.upgrade = false)
    (alive : exchange.keepAlive = true) :
    ∃ session, Transition.run step (new pipelineLimit (exchange :: rest))
        (.read :: List.replicate exchange.portions .write ++ [.write]) = some session ∧
      session.Stalled ∧ session.answered = [exchange] ∧ session.incoming = rest := by
  have limit : max pipelineLimit 1 = pipelineLimit := by omega
  have roomy : ¬ pipelineLimit ≤ 1 := by omega
  have started : (new pipelineLimit (exchange :: rest)).step .read =
      some ⟨pipelineLimit, [exchange], rest, false, some exchange.portions, false,
        [exchange], []⟩ := by
    simp [step, new, onRead, plain, post, startFront, limit]
  rw [List.cons_append, Transition.run_cons, started, Option.bind_some, Transition.run_append,
    run_portions _ exchange.portions rfl, Option.bind_some, Transition.run_cons]
  refine ⟨⟨pipelineLimit, [], rest, false, none, false, [exchange], [exchange]⟩, ?_,
    ⟨rfl, rfl, rfl⟩, rfl, rfl⟩
  simp [step, onWrite, Exchange.needEof, alive, pop, isFull, startFront, roomy]

/-- A keep-alive connection is served to the end exactly when the queue holds
one response. `Pop` restarts reading only from a full queue, and no other call
starts a read after the first one. -/
theorem neverStalls_iff (pipelineLimit : Nat) (positive : 1 ≤ pipelineLimit)
    (requests : List Exchange) (kept : KeptAlive requests) :
    NeverStalls pipelineLimit requests ↔ pipelineLimit = 1 ∨ requests = [] := by
  constructor
  · intro serves
    by_contra neither
    obtain ⟨long, some⟩ := not_or.mp neither
    obtain ⟨exchange, rest, rfl⟩ := List.exists_cons_of_ne_nil some
    obtain ⟨plain, alive⟩ := kept exchange (by simp)
    obtain ⟨session, reached, stalled, -⟩ :=
      first_response_stalls pipelineLimit (by omega) exchange rest plain alive
    refine (serves _ session ?_ reached).alive stalled
    intro completion member
    simp only [List.cons_append, List.mem_cons, List.mem_append, List.mem_replicate,
      List.not_mem_nil, or_false] at member
    rcases member with rfl | ⟨-, rfl⟩ | rfl
    · exact Or.inl rfl
    · exact Or.inr rfl
    · exact Or.inr rfl
  · rintro (rfl | rfl)
    · exact single_serves requests kept
    · exact silent_serves pipelineLimit

/-- Two requests through a queue of one response. -/
theorem neverStalls_single :
    KeptAlive [⟨1, false, true, 2⟩, ⟨2, false, true, 0⟩] ∧
      NeverStalls 1 [⟨1, false, true, 2⟩, ⟨2, false, true, 0⟩] := by
  have kept : KeptAlive [⟨1, false, true, 2⟩, ⟨2, false, true, 0⟩] := by
    unfold KeptAlive
    decide
  exact ⟨kept, (neverStalls_iff 1 (by decide) _ kept).mpr (Or.inl rfl)⟩

/-- The default limit: the second request is never read. -/
theorem default_limit_stalls :
    (∃ session, Transition.run step (new 8 [⟨1, false, true, 0⟩, ⟨2, false, true, 0⟩])
        [.read, .write] = some session ∧
      session.Stalled ∧ session.answered = [⟨1, false, true, 0⟩] ∧
      session.incoming = [⟨2, false, true, 0⟩]) ∧
    ¬ NeverStalls 8 [⟨1, false, true, 0⟩, ⟨2, false, true, 0⟩] := by
  have stalls : ∃ session, Transition.run step
      (new 8 [⟨1, false, true, 0⟩, ⟨2, false, true, 0⟩]) [.read, .write] = some session ∧
      session.Stalled ∧ session.answered = [⟨1, false, true, 0⟩] ∧
      session.incoming = [⟨2, false, true, 0⟩] :=
    ⟨_, rfl, ⟨rfl, rfl, rfl⟩, rfl, rfl⟩
  refine ⟨stalls, fun serves => ?_⟩
  obtain ⟨session, reached, stalled, -⟩ := stalls
  exact (serves [.read, .write] session (by unfold FaultFree; decide) reached).alive stalled

end Session

end Mif.Net.Http
