import Mif.Lib.Transition
import Mif.Net.Client

set_option autoImplicit false

/- The writing side of `Tcp::Detail::Session`. `Publish` may be called from any
thread and only posts a task; the executor runs the tasks one at a time, and
each starts a composed write that is a loop of partial transfers. -/
namespace Mif.Net.Tcp

/-- The part of a session that concerns its output. `executed` and `wire` record
what has happened: the buffers in the order in which their tasks ran, and the
bytes given to the peer. -/
structure Session where
  /-- Posted write tasks that have not run yet. -/
  tasks : List Buffer
  /-- What is left of the composed writes in progress. -/
  writes : List Buffer
  /-- A transfer has failed before its buffer was complete. -/
  failed : Bool
  /-- `CloseMe` has posted its task. -/
  closing : Bool
  /-- `m_socket.close()` has run. -/
  closed : Bool
  executed : List Buffer
  wire : Buffer
  deriving DecidableEq, Repr

inductive Action
  /-- `Publish` from any thread. -/
  | publish (buffer : Buffer)
  /-- The executor runs a posted write task. -/
  | execute (index : Nat)
  /-- One `async_write_some` of a composed write moves `count` bytes. -/
  | transfer (index count : Nat)
  /-- One `async_write_some` of a composed write fails. -/
  | fail (index : Nat)
  /-- `CloseMe`, from the write handler, the read handler or a client. -/
  | closeMe
  /-- The executor runs the task of `CloseMe`. -/
  | close
  deriving DecidableEq, Repr

namespace Session

def new : Session := ⟨[], [], false, false, false, [], []⟩

/-- The task of `Publish`: `async_write`, which has nothing to do for an empty
buffer and fails at once on a closed socket. -/
def asyncWrite (session : Session) (buffer : Buffer) : Session :=
  if session.closed then { session with executed := session.executed ++ [buffer], closing := true }
  else if buffer.isEmpty then { session with executed := session.executed ++ [buffer] }
  else { session with
    executed := session.executed ++ [buffer], writes := session.writes ++ [buffer] }

def step (session : Session) : Action → Option Session
  | .publish buffer => some { session with tasks := session.tasks ++ [buffer] }
  | .execute index =>
      session.tasks[index]?.map fun buffer =>
        { session with tasks := session.tasks.eraseIdx index }.asyncWrite buffer
  | .transfer index count =>
      session.writes[index]?.bind fun left =>
        if session.closed then none
        else if 1 ≤ count ∧ count ≤ left.length then
          some { session with
            wire := session.wire ++ left.take count
            writes := if count = left.length then session.writes.eraseIdx index
              else session.writes.set index (left.drop count) }
        else none
  | .fail index =>
      session.writes[index]?.map fun _ =>
        { session with
          writes := session.writes.eraseIdx index, failed := true, closing := true }
  | .closeMe => some { session with closing := true }
  | .close =>
      -- closing the socket aborts every composed write
      if session.closing then some { session with closed := true, writes := [] } else none

/-- The bytes sent are a prefix of the buffers in the order their tasks ran. -/
def InOrder (session : Session) : Prop := session.wire <+: session.executed.flatten

/-- A write task runs only when every composed write before it is complete. -/
def Serialised (session : Session) : Action → Prop
  | .execute _ => session.closed = true ∨ (session.writes = [] ∧ session.failed = false)
  | _ => True

/-- The state of the output when composed writes do not overlap. -/
inductive Orderly (session : Session) : Prop
  | idle (none : session.writes = []) (sent : session.executed.flatten = session.wire)
  | busy (left : Buffer) (one : session.writes = [left])
      (rest : session.executed.flatten = session.wire ++ left)
  | broken (none : session.writes = []) (ended : session.closed = true ∨ session.failed = true)
      (order : session.InOrder)

theorem Orderly.inOrder {session : Session} (orderly : session.Orderly) : session.InOrder := by
  cases orderly with
  | idle none sent => exact ⟨[], by rw [List.append_nil, sent]⟩
  | busy left one rest => exact ⟨left, rest.symm⟩
  | broken none ended order => exact order

/-- The invariant of the guarded runs. -/
structure Invariant (session : Session) : Prop where
  orderly : session.Orderly
  aborted : session.closed = true → session.writes = []

theorem new_invariant : new.Invariant := ⟨.idle rfl rfl, fun _ => rfl⟩

theorem asyncWrite_invariant (session : Session) (buffer : Buffer) (held : session.Invariant)
    (serialised : session.closed = true ∨ (session.writes = [] ∧ session.failed = false)) :
    (session.asyncWrite buffer).Invariant := by
  have flattened : (session.executed ++ [buffer]).flatten =
      session.executed.flatten ++ buffer := by
    rw [List.flatten_append, List.flatten_singleton]
  unfold asyncWrite
  split
  · rename_i closed
    refine ⟨.broken (held.aborted closed) (Or.inl closed) ?_, held.aborted⟩
    change session.wire <+: (session.executed ++ [buffer]).flatten
    rw [flattened]
    exact held.orderly.inOrder.trans (List.prefix_append _ _)
  · rename_i opened
    obtain ⟨none, unbroken⟩ := serialised.resolve_left opened
    have sent : session.executed.flatten = session.wire := by
      cases held.orderly with
      | idle _ sent => exact sent
      | busy left one rest =>
          rw [none] at one
          cases one
      | broken _ ended order =>
          rcases ended with closed | failed
          · exact absurd closed opened
          · rw [unbroken] at failed
            cases failed
    split
    · rename_i empty
      refine ⟨.idle none ?_, held.aborted⟩
      change (session.executed ++ [buffer]).flatten = session.wire
      rw [flattened, List.isEmpty_iff.mp empty, List.append_nil, sent]
    · refine ⟨.busy buffer (by rw [none, List.nil_append]) ?_, fun closed => absurd closed opened⟩
      change (session.executed ++ [buffer]).flatten = session.wire ++ buffer
      rw [flattened, sent]

/-- With one composed write in progress a transfer continues its buffer. -/
theorem transfer_invariant (session next : Session) (index count : Nat) (held : session.Invariant)
    (taken : session.step (.transfer index count) = some next) : next.Invariant := by
  simp only [step, Option.bind_eq_some_iff] at taken
  obtain ⟨left, found, taken⟩ := taken
  split at taken
  · cases taken
  rename_i opened
  split at taken
  · rename_i range
    cases taken
    cases held.orderly with
    | idle none sent =>
        rw [none] at found
        cases found
    | broken none ended order =>
        rw [none] at found
        cases found
    | busy only one rest =>
        rw [one] at found
        obtain ⟨rfl, rfl⟩ : index = 0 ∧ only = left := by
          cases index with
          | zero => exact ⟨rfl, Option.some.inj found⟩
          | succ index => cases found
        refine ⟨?_, fun closed => absurd closed opened⟩
        by_cases complete : count = only.length
        · refine .idle (by simp [complete, one]) ?_
          change session.executed.flatten = session.wire ++ only.take count
          rw [rest, complete, List.take_length]
        · refine .busy (only.drop count) (by simp [complete, one]) ?_
          change session.executed.flatten = session.wire ++ only.take count ++ only.drop count
          rw [rest, List.append_assoc, List.take_append_drop]
  · cases taken

theorem fail_invariant (session next : Session) (index : Nat) (held : session.Invariant)
    (taken : session.step (.fail index) = some next) : next.Invariant := by
  simp only [step, Option.map_eq_some_iff] at taken
  obtain ⟨left, found, rfl⟩ := taken
  have last : session.writes.eraseIdx index = [] := by
    cases held.orderly with
    | idle none sent => rw [none, List.eraseIdx_nil]
    | broken none ended order => rw [none, List.eraseIdx_nil]
    | busy only one rest =>
        rw [one] at found ⊢
        cases index with
        | zero => rfl
        | succ index => cases found
  exact ⟨.broken last (Or.inr rfl) held.orderly.inOrder, fun _ => last⟩

theorem Orderly.congr {session next : Session} (orderly : session.Orderly)
    (writes : next.writes = session.writes) (executed : next.executed = session.executed)
    (wire : next.wire = session.wire) (failed : next.failed = session.failed)
    (closed : next.closed = session.closed) : next.Orderly := by
  cases orderly with
  | idle none sent => exact .idle (writes.trans none) (by rw [executed, wire, sent])
  | busy left one rest => exact .busy left (writes.trans one) (by rw [executed, wire, rest])
  | broken none ended order =>
      refine .broken (writes.trans none) (by rw [closed, failed]; exact ended) ?_
      unfold InOrder
      rw [executed, wire]
      exact order

theorem step_invariant (session : Session) (action : Action) (next : Session)
    (held : session.Invariant) (serialised : session.Serialised action)
    (taken : session.step action = some next) : next.Invariant := by
  cases action with
  | publish buffer =>
      cases taken
      exact ⟨held.orderly.congr rfl rfl rfl rfl rfl, held.aborted⟩
  | execute index =>
      simp only [step, Option.map_eq_some_iff] at taken
      obtain ⟨buffer, -, rfl⟩ := taken
      refine asyncWrite_invariant _ buffer ?_ serialised
      exact ⟨held.orderly.congr rfl rfl rfl rfl rfl, held.aborted⟩
  | transfer index count => exact transfer_invariant session next index count held taken
  | fail index => exact fail_invariant session next index held taken
  | closeMe =>
      cases taken
      exact ⟨held.orderly.congr rfl rfl rfl rfl rfl, held.aborted⟩
  | close =>
      simp only [step] at taken
      split at taken
      · cases taken
        exact ⟨.broken rfl (Or.inl rfl) held.orderly.inOrder, fun _ => rfl⟩
      · cases taken

/-- Frames stay whole and in order in every run, from any threads and with any
partial transfers, in which composed writes do not overlap. -/
theorem inOrder_of_serialised (actions : List Action) (session : Session)
    (serialised : Transition.Along step Serialised new actions)
    (reached : Transition.run step new actions = some session) : session.InOrder :=
  (Transition.run_invariant step_invariant new_invariant serialised reached).orderly.inOrder

/-- Two buffers, the second one executed after the first is complete. -/
theorem inOrder_two_buffers :
    ∃ session, Transition.run step new [.publish [1, 2], .publish [3], .execute 0, .transfer 0 1,
        .transfer 0 1, .execute 0, .transfer 0 1] = some session ∧
      session.wire = [1, 2, 3] ∧ session.InOrder := by
  refine ⟨_, rfl, rfl, ?_⟩
  refine inOrder_of_serialised [.publish [1, 2], .publish [3], .execute 0, .transfer 0 1,
    .transfer 0 1, .execute 0, .transfer 0 1] _ ?_ rfl
  simp [Transition.Along, Serialised, step, asyncWrite, new]

/-- Two buffers published together: a partial transfer of the first one is
followed by the second one. -/
theorem overlapping_writes_interleave :
    ∃ session, Transition.run step new [.publish [1, 2], .publish [3], .execute 0, .execute 0,
        .transfer 0 1, .transfer 1 1] = some session ∧
      session.executed = [[1, 2], [3]] ∧ session.wire = [1, 3] ∧ ¬ session.InOrder := by
  refine ⟨_, rfl, rfl, rfl, ?_⟩
  unfold InOrder
  decide

end Session

end Mif.Net.Tcp
