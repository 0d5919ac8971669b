import Mathlib.Data.List.Basic
import Mathlib.Logic.Function.Basic
import Mif.Lib.Transition
import Mif.Net.Client

set_option autoImplicit false

/- The `Session` of a servlet: `OnData` on the threads of the requests, and `Publish` on
whatever thread the chain of clients calls it. Each region under `m_lock` is one step. -/
namespace Mif.Net.Http.ServletSession

/-- A buffer in `m_responses`, with the request whose data the chain was handling when it
published it; the program does not store the latter. -/
structure Parked where
  request : Nat
  buffer : Buffer
  deriving DecidableEq, Repr

/-- Where a thread is. A thread of the chain that handles no request is idle. -/
inductive Thread
  | idle
  /-- inside `m_client->OnData` -/
  | handling (request : Nat)
  /-- behind the `try` of `OnData`, before the scope exit -/
  | leaving (request : Nat) (res : Buffer)
  /-- `OnData` has returned -/
  | returning (request : Nat) (res : Buffer)
  deriving DecidableEq, Repr

/-- The body of the response: what `OnData` returned, or the text of the exception. -/
inductive Answer
  | data (body : Buffer)
  | exception (what : String)
  deriving DecidableEq, Repr

/-- The session. The maps by thread id are functions. `owner`, `published` and `answers`
record the thread of each request, what the chain published for it and its response. -/
structure State where
  /-- `m_responses` -/
  responses : Nat → Option Parked
  /-- `m_exceptions`, with null pointers -/
  exceptions : Nat → Option (Option String)
  /-- `m_needForClose` -/
  needForClose : Bool
  threads : Nat → Thread
  owner : Nat → Option Nat
  published : Nat → List Buffer
  answers : Nat → Option Answer

inductive Action
  /-- `OnRequest` calls `OnData` -/
  | onData (thread request : Nat)
  /-- the chain publishes while it handles the data of the request -/
  | publish (thread request : Nat) (buffer : Buffer)
  | closeMe
  /-- `m_client->OnData` returns -/
  | returned (thread : Nat)
  /-- `m_client->OnData` throws a `std::exception`; what else may be thrown leaves `OnData`
  without `CloseMe`, and is not here -/
  | threw (thread : Nat) (what : String)
  /-- the scope exit -/
  | cleanResponse (thread : Nat)
  /-- the rest of `OnRequest` -/
  | respond (thread : Nat)
  deriving DecidableEq, Repr

namespace State

def new : State :=
  ⟨fun _ => none, fun _ => none, false, fun _ => .idle, fun _ => none, fun _ => [], fun _ => none⟩

/-- `m_responses.emplace`, which keeps an entry that is there. -/
def emplace (state : State) (thread : Nat) (parked : Parked) : Nat → Option Parked :=
  match state.responses thread with
  | some _ => state.responses
  | none => Function.update state.responses thread (some parked)

/-- The response that `OnRequest` makes of the returned buffer. -/
def answer (state : State) (thread : Nat) (res : Buffer) : Answer :=
  match state.needForClose, state.exceptions thread with
  | true, some (some what) => .exception what
  | _, _ => .data res

end State

theorem State.emplace_none {state : State} {thread : Nat} {parked : Parked}
    (empty : state.responses thread = none) : state.emplace thread parked thread = some parked := by
  rw [State.emplace, empty]
  exact Function.update_self ..

theorem State.emplace_some {state : State} {thread : Nat} {parked there : Parked}
    (taken : state.responses thread = some there) :
    state.emplace thread parked thread = some there := by
  rw [State.emplace, taken]
  exact taken

theorem State.emplace_other {state : State} {thread other : Nat} (different : other ≠ thread)
    (parked : Parked) : state.emplace thread parked other = state.responses other := by
  unfold State.emplace
  cases state.responses thread with
  | some there => rfl
  | none => exact Function.update_of_ne different ..

/-- One step. A request begins once, on a thread that is not in `OnRequest`; a thread inside
`OnData` itself publishes nothing. -/
def step (state : State) : Action → Option State
  | .onData thread request =>
      match state.threads thread, state.owner request with
      | .idle, none =>
          some { state with
            responses := Function.update state.responses thread none
            exceptions := Function.update state.exceptions thread none
            threads := Function.update state.threads thread (.handling request)
            owner := Function.update state.owner request (some thread) }
      | _, _ => none
  | .publish thread request buffer =>
      match state.threads thread, state.owner request with
      | .leaving _ _, _ => none
      | .returning _ _, _ => none
      | _, none => none
      | _, some _ =>
          some { state with
            responses := state.emplace thread ⟨request, buffer⟩
            published := Function.update state.published request
              (state.published request ++ [buffer]) }
  | .closeMe => some { state with needForClose := true }
  | .returned thread =>
      match state.threads thread with
      | .handling request =>
          match state.responses thread with
          | some parked =>
              some { state with
                responses := Function.update state.responses thread (some { parked with buffer := [] })
                threads := Function.update state.threads thread (.leaving request parked.buffer) }
          | none =>
              some { state with
                threads := Function.update state.threads thread (.leaving request []) }
      | _ => none
  | .threw thread what =>
      match state.threads thread with
      | .handling request =>
          some { state with
            exceptions :=
              if (state.exceptions thread).isSome then state.exceptions
              else Function.update state.exceptions thread (some (some what))
            needForClose := true
            threads := Function.update state.threads thread (.leaving request []) }
      | _ => none
  | .cleanResponse thread =>
      match state.threads thread with
      | .leaving request res =>
          some { state with
            responses := Function.update state.responses thread none
            threads := Function.update state.threads thread (.returning request res) }
      | _ => none
  | .respond thread =>
      match state.threads thread with
      | .returning request res =>
          some { state with
            exceptions :=
              if state.needForClose && (state.exceptions thread).isSome then
                Function.update state.exceptions thread (some none)
              else state.exceptions
            threads := Function.update state.threads thread .idle
            answers := Function.update state.answers request (some (state.answer thread res)) }
      | _ => none

/-- Each request that was answered with data got what was published for it, all of it and in
order, and none of its buffers is left in `m_responses`. -/
structure Complete (state : State) : Prop where
  whole : ∀ request body, state.answers request = some (.data body) →
    body = (state.published request).flatten
  nothingLeft : ∀ request, (state.answers request).isSome →
    ∀ thread parked, state.responses thread = some parked → parked.request ≠ request

/-- A buffer is published on the thread that handles the request, and it is the first one
for this request, or empty. -/
def Prompt (state : State) : Action → Prop
  | .publish thread request buffer =>
      state.threads thread = .handling request ∧ (state.published request = [] ∨ buffer = [])
  | _ => True

instance (state : State) (action : Action) : Decidable (Prompt state action) :=
  match action with
  | .publish _ _ _ => inferInstanceAs (Decidable (_ ∧ _))
  | .onData _ _ | .closeMe | .returned _ | .threw _ _ | .cleanResponse _ | .respond _ => isTrue trivial

/-- The thread has the request, and the request is not answered. -/
structure Has (state : State) (thread request : Nat) : Prop where
  owner : state.owner request = some thread
  open_ : state.answers request = none

/-- What `OnData` returns: everything that was published, unless the client threw. -/
def Returns (state : State) (thread request : Nat) (res : Buffer) : Prop :=
  (state.exceptions thread = none ∧ res = (state.published request).flatten) ∨
    (state.needForClose = true ∧ ∃ what, state.exceptions thread = some (some what))

/-- What holds of a thread, wherever it is. -/
def ThreadOk (state : State) (thread : Nat) : Thread → Prop
  | .idle => state.responses thread = none
  | .handling request =>
      Has state thread request ∧ state.exceptions thread = none ∧
        ((state.responses thread = none ∧ state.published request = []) ∨
          (state.responses thread = some ⟨request, (state.published request).flatten⟩ ∧
            state.published request ≠ []))
  | .leaving request res =>
      Has state thread request ∧ Returns state thread request res ∧
        ∀ parked, state.responses thread = some parked → parked.request = request
  | .returning request res =>
      Has state thread request ∧ Returns state thread request res ∧
        state.responses thread = none

/-- What every prompt step keeps. -/
structure Sound (state : State) : Prop where
  threads : ∀ thread, ThreadOk state thread (state.threads thread)
  fresh : ∀ request, state.owner request = none →
    state.published request = [] ∧ state.answers request = none
  whole : ∀ request body, state.answers request = some (.data body) →
    body = (state.published request).flatten

/-- A step on one thread leaves the others as they are. -/
theorem threadOk_frame {state next : State} {thread : Nat} {place : Thread}
    (responses : next.responses thread = state.responses thread)
    (exceptions : next.exceptions thread = state.exceptions thread)
    (closing : state.needForClose = true → next.needForClose = true)
    (own : ∀ request, state.owner request = some thread →
      next.owner request = state.owner request ∧ next.answers request = state.answers request ∧
        next.published request = state.published request)
    (ok : ThreadOk state thread place) : ThreadOk next thread place := by
  have has : ∀ request, Has state thread request → Has next thread request := by
    intro request held
    have same := own request held.owner
    exact ⟨same.1.trans held.owner, same.2.1.trans held.open_⟩
  have returns : ∀ request res, Has state thread request → Returns state thread request res →
      Returns next thread request res := by
    intro request res held returned
    have same := own request held.owner
    unfold Returns
    rw [exceptions, same.2.2]
    exact returned.imp id (And.imp_left closing)
  cases place with
  | idle => exact responses.trans ok
  | handling request =>
      have same := own request ok.1.owner
      refine ⟨has request ok.1, exceptions.trans ok.2.1, ?_⟩
      rw [responses, same.2.2]
      exact ok.2.2
  | leaving request res =>
      refine ⟨has request ok.1, returns request res ok.1 ok.2.1, ?_⟩
      rw [responses]
      exact ok.2.2
  | returning request res =>
      exact ⟨has request ok.1, returns request res ok.1 ok.2.1, responses.trans ok.2.2⟩

/-- A buffer in `m_responses` belongs to a request that is not answered. -/
theorem complete_of_sound {state : State} (sound : Sound state) : Complete state := by
  refine ⟨sound.whole, fun request answered thread parked found same => ?_⟩
  have ok := sound.threads thread
  have unanswered : state.answers parked.request = none := by
    cases place : state.threads thread with
    | idle =>
        rw [place] at ok
        cases ok.symm.trans found
    | handling other =>
        rw [place] at ok
        rcases ok.2.2 with ⟨none, _⟩ | ⟨there, _⟩
        · cases none.symm.trans found
        · cases there.symm.trans found
          exact ok.1.open_
    | leaving other res =>
        rw [place] at ok
        rw [ok.2.2 parked found]
        exact ok.1.open_
    | returning other res =>
        rw [place] at ok
        cases ok.2.2.symm.trans found
  rw [same] at unanswered
  rw [unanswered] at answered
  cases answered

/-- A step that takes one thread to a place. -/
theorem sound_update {state next : State} {thread : Nat} {place : Thread} (sound : Sound state)
    (threads : next.threads = Function.update state.threads thread place)
    (here : ThreadOk next thread place)
    (maps : ∀ other, other ≠ thread → next.responses other = state.responses other ∧
      next.exceptions other = state.exceptions other)
    (closing : state.needForClose = true → next.needForClose = true)
    (requests : ∀ other, other ≠ thread → ∀ request, state.owner request = some other →
      next.owner request = state.owner request ∧ next.answers request = state.answers request ∧
        next.published request = state.published request)
    (fresh : ∀ request, next.owner request = none →
      next.published request = [] ∧ next.answers request = none)
    (whole : ∀ request body, next.answers request = some (.data body) →
      body = (next.published request).flatten) : Sound next := by
  refine ⟨fun other => ?_, fresh, whole⟩
  rw [threads, Function.update_apply]
  split
  · rename_i same
    rw [same]
    exact here
  · rename_i different
    exact threadOk_frame (maps other different).1 (maps other different).2 closing
      (requests other different) (sound.threads other)

/-- A response of data has everything that was published. -/
theorem answer_whole {state : State} {thread request : Nat} {res body : Buffer}
    (returns : Returns state thread request res)
    (answer : state.answer thread res = .data body) :
    body = (state.published request).flatten := by
  unfold State.answer at answer
  rcases returns with ⟨none, whole⟩ | ⟨closing, what, thrown⟩
  · rw [none] at answer
    have same : Answer.data res = .data body := by
      cases closing : state.needForClose with
      | true =>
          rw [closing] at answer
          exact answer
      | false =>
          rw [closing] at answer
          exact answer
    cases same
    exact whole
  · rw [closing, thrown] at answer
    cases answer

section

variable {state : State} (sound : Sound state) {thread request : Nat}

include sound

theorem Sound.at {place : Thread} (there : state.threads thread = place) :
    ThreadOk state thread place := by
  have ok := sound.threads thread
  rwa [there] at ok

theorem sound_onData (unknown : state.owner request = none) :
    Sound { state with
      responses := Function.update state.responses thread none
      exceptions := Function.update state.exceptions thread none
      threads := Function.update state.threads thread (.handling request)
      owner := Function.update state.owner request (some thread) } := by
  have new := sound.fresh request unknown
  apply sound_update sound rfl
  · exact ⟨⟨Function.update_self .., new.2⟩, Function.update_self ..,
      Or.inl ⟨Function.update_self .., new.1⟩⟩
  · exact fun other different =>
      ⟨Function.update_of_ne different .., Function.update_of_ne different ..⟩
  · exact id
  · intro other _ older owned
    refine ⟨?_, rfl, rfl⟩
    apply Function.update_of_ne
    intro same
    rw [same, unknown] at owned
    cases owned
  · intro older
    change Function.update state.owner request (some thread) older = none → _
    rw [Function.update_apply]
    split
    · exact fun same => nomatch same
    · exact sound.fresh older
  · exact sound.whole

theorem sound_publish {buffer : Buffer} (there : state.threads thread = .handling request)
    (prompt : state.published request = [] ∨ buffer = []) :
    Sound { state with
      responses := state.emplace thread ⟨request, buffer⟩
      published := Function.update state.published request
        (state.published request ++ [buffer]) } := by
  have ok := sound.at there
  have held := ok.1
  have now : Function.update state.published request (state.published request ++ [buffer])
      request = state.published request ++ [buffer] := Function.update_self ..
  have before : ∀ other, other ≠ request → Function.update state.published request
      (state.published request ++ [buffer]) other = state.published other :=
    fun other different => Function.update_of_ne different ..
  apply @sound_update state _ thread (.handling request) sound
  · rw [← there, Function.update_eq_self]
  · refine ⟨⟨held.owner, held.open_⟩, ok.2.1, Or.inr ⟨?_, ?_⟩⟩
    · dsimp only
      rw [now]
      rcases ok.2.2 with ⟨empty, first⟩ | ⟨parked, some⟩
      · rw [State.emplace_none empty, first]
        simp
      · have silent := prompt.resolve_left some
        rw [State.emplace_some parked, silent]
        simp
    · dsimp only
      rw [now]
      exact List.append_ne_nil_of_right_ne_nil _ (List.cons_ne_nil _ _)
  · exact fun other different => ⟨State.emplace_other different _, rfl⟩
  · exact id
  · intro other different older owned
    refine ⟨rfl, rfl, before older fun same => different ?_⟩
    rw [same, held.owner] at owned
    exact (Option.some.inj owned).symm
  · intro older unknown
    have new := sound.fresh older unknown
    refine ⟨(before older fun same => ?_).trans new.1, new.2⟩
    rw [same, held.owner] at unknown
    cases unknown
  · intro older body answered
    have whole := sound.whole older body answered
    rw [whole]
    refine congrArg List.flatten (before older fun same => ?_).symm
    rw [same, held.open_] at answered
    cases answered

theorem sound_closeMe : Sound { state with needForClose := true } := by
  refine ⟨fun thread => ?_, sound.fresh, sound.whole⟩
  apply @threadOk_frame state
  · rfl
  · rfl
  · exact fun _ => rfl
  · exact fun _ _ => ⟨rfl, rfl, rfl⟩
  · exact sound.threads thread

/-- The client has returned, and `res` is swapped with the parked buffer. -/
theorem sound_returned {parked : Parked} (there : state.threads thread = .handling request)
    (found : state.responses thread = some parked) :
    Sound { state with
      responses := Function.update state.responses thread (some { parked with buffer := [] })
      threads := Function.update state.threads thread (.leaving request parked.buffer) } := by
  have ok := sound.at there
  have whole : parked = ⟨request, (state.published request).flatten⟩ := by
    rcases ok.2.2 with ⟨none, _⟩ | ⟨same, _⟩
    · cases none.symm.trans found
    · exact Option.some.inj (found.symm.trans same)
  apply sound_update sound rfl
  · refine ⟨⟨ok.1.owner, ok.1.open_⟩, Or.inl ⟨ok.2.1, congrArg Parked.buffer whole⟩, ?_⟩
    intro other
    dsimp only
    rw [Function.update_self]
    intro same
    cases same
    exact congrArg Parked.request whole
  · exact fun other different => ⟨Function.update_of_ne different .., rfl⟩
  · exact id
  · exact fun _ _ _ _ => ⟨rfl, rfl, rfl⟩
  · exact sound.fresh
  · exact sound.whole

/-- The client has returned, and nothing is parked for the thread. -/
theorem sound_returned_none (there : state.threads thread = .handling request)
    (missing : state.responses thread = none) :
    Sound { state with
      threads := Function.update state.threads thread (.leaving request []) } := by
  have ok := sound.at there
  have silent : state.published request = [] := by
    rcases ok.2.2 with ⟨_, empty⟩ | ⟨some, _⟩
    · exact empty
    · cases missing.symm.trans some
  apply sound_update sound rfl
  · refine ⟨⟨ok.1.owner, ok.1.open_⟩, Or.inl ⟨ok.2.1, ?_⟩, ?_⟩
    · dsimp only
      rw [silent]
      rfl
    · intro parked found
      cases missing.symm.trans found
  · exact fun _ _ => ⟨rfl, rfl⟩
  · exact id
  · exact fun _ _ _ _ => ⟨rfl, rfl, rfl⟩
  · exact sound.fresh
  · exact sound.whole

theorem sound_threw (there : state.threads thread = .handling request) (what : String) :
    Sound { state with
      exceptions :=
        if (state.exceptions thread).isSome then state.exceptions
        else Function.update state.exceptions thread (some (some what))
      needForClose := true
      threads := Function.update state.threads thread (.leaving request []) } := by
  have ok := sound.at there
  rw [ok.2.1, Option.isSome_none, if_neg Bool.false_ne_true]
  apply sound_update sound rfl
  · refine ⟨⟨ok.1.owner, ok.1.open_⟩, Or.inr ⟨rfl, what, Function.update_self ..⟩, ?_⟩
    intro parked found
    rcases ok.2.2 with ⟨none, _⟩ | ⟨same, _⟩
    · cases none.symm.trans found
    · cases same.symm.trans found
      rfl
  · exact fun other different => ⟨rfl, Function.update_of_ne different ..⟩
  · exact fun _ => rfl
  · exact fun _ _ _ _ => ⟨rfl, rfl, rfl⟩
  · exact sound.fresh
  · exact sound.whole

theorem sound_cleanResponse {res : Buffer}
    (there : state.threads thread = .leaving request res) :
    Sound { state with
      responses := Function.update state.responses thread none
      threads := Function.update state.threads thread (.returning request res) } := by
  have ok := sound.at there
  apply sound_update sound rfl
  · exact ⟨⟨ok.1.owner, ok.1.open_⟩, ok.2.1, Function.update_self ..⟩
  · exact fun other different => ⟨Function.update_of_ne different .., rfl⟩
  · exact id
  · exact fun _ _ _ _ => ⟨rfl, rfl, rfl⟩
  · exact sound.fresh
  · exact sound.whole

theorem sound_respond {res : Buffer} (there : state.threads thread = .returning request res) :
    Sound { state with
      exceptions :=
        if state.needForClose && (state.exceptions thread).isSome then
          Function.update state.exceptions thread (some none)
        else state.exceptions
      threads := Function.update state.threads thread .idle
      answers := Function.update state.answers request (some (state.answer thread res)) } := by
  have ok := sound.at there
  have held := ok.1
  have before : ∀ other, other ≠ request → Function.update state.answers request
      (some (state.answer thread res)) other = state.answers other :=
    fun other different => Function.update_of_ne different ..
  apply sound_update sound rfl
  · exact ok.2.2
  · refine fun other different => ⟨rfl, ?_⟩
    dsimp only
    split
    · exact Function.update_of_ne different ..
    · rfl
  · exact id
  · intro other different older owned
    refine ⟨rfl, before older fun same => different ?_, rfl⟩
    rw [same, held.owner] at owned
    exact (Option.some.inj owned).symm
  · intro older unknown
    have new := sound.fresh older unknown
    refine ⟨new.1, (before older fun same => ?_).trans new.2⟩
    rw [same, held.owner] at unknown
    cases unknown
  · intro older body
    change Function.update state.answers request (some (state.answer thread res)) older = _ → _
    rw [Function.update_apply]
    split
    · rename_i same
      intro answered
      have whole := answer_whole ok.2.1 (Option.some.inj answered)
      rw [same]
      exact whole
    · exact sound.whole older body

end

theorem sound_new : Sound State.new where
  threads := fun _ => rfl
  fresh := fun _ _ => ⟨rfl, rfl⟩
  whole := fun _ _ answered => nomatch answered

theorem sound_step {state next : State} {action : Action} (sound : Sound state)
    (prompt : Prompt state action) (taken : step state action = some next) : Sound next := by
  cases action with
  | onData thread request =>
      simp only [step] at taken
      split at taken
      · rename_i unknown
        cases taken
        exact sound_onData sound unknown
      · cases taken
  | publish thread request buffer =>
      have owned := (sound.at prompt.1).1.owner
      simp only [step, prompt.1, owned, Option.some.injEq] at taken
      rw [← taken]
      exact sound_publish sound prompt.1 prompt.2
  | closeMe =>
      cases taken
      exact sound_closeMe sound
  | returned thread =>
      simp only [step] at taken
      split at taken
      · rename_i request there
        split at taken
        · rename_i parked found
          cases taken
          exact sound_returned sound there found
        · rename_i missing
          cases taken
          exact sound_returned_none sound there missing
      · cases taken
  | threw thread what =>
      simp only [step] at taken
      split at taken
      · rename_i request there
        cases taken
        exact sound_threw sound there what
      · cases taken
  | cleanResponse thread =>
      simp only [step] at taken
      split at taken
      · rename_i request res there
        cases taken
        exact sound_cleanResponse sound there
      · cases taken
  | respond thread =>
      simp only [step] at taken
      split at taken
      · rename_i request res there
        cases taken
        exact sound_respond sound there
      · cases taken

/-- In a run whose buffers are all published promptly, every request gets all of its
buffers, and none is left behind. -/
theorem complete_of_prompt (actions : List Action) (last : State)
    (prompt : Transition.Along step Prompt State.new actions)
    (reached : Transition.run step State.new actions = some last) : Complete last :=
  complete_of_sound (Transition.run_invariant
    (fun _ _ _ sound prompt taken => sound_step sound prompt taken) sound_new prompt reached)

/-- One request, and one buffer on its thread. -/
def promptRun : List Action :=
  [.onData 1 7, .publish 1 7 [1, 2], .returned 1, .cleanResponse 1, .respond 1]

theorem prompt_buffer_is_returned :
    ∃ last, Transition.run step State.new promptRun = some last ∧
      last.answers 7 = some (.data [1, 2]) ∧ Complete last := by
  have reaches : ∃ last, Transition.run step State.new promptRun = some last ∧
      last.answers 7 = some (.data [1, 2]) := ⟨_, rfl, rfl⟩
  obtain ⟨last, reached, answered⟩ := reaches
  exact ⟨last, reached, answered, complete_of_prompt promptRun last (by decide) reached⟩

/-- Two buffers on the thread of the request, and one on another thread of the chain. -/
def crowdedRun : List Action :=
  [.onData 1 7, .publish 1 7 [1], .publish 1 7 [2], .publish 2 7 [3], .returned 1,
    .cleanResponse 1, .respond 1]

theorem later_buffers_are_lost :
    ∃ last, Transition.run step State.new crowdedRun = some last ∧
      last.published 7 = [[1], [2], [3]] ∧ last.answers 7 = some (.data [1]) ∧
      last.responses 2 = some ⟨7, [3]⟩ ∧ ¬ Complete last := by
  have reaches : ∃ last, Transition.run step State.new crowdedRun = some last ∧
      last.published 7 = [[1], [2], [3]] ∧ last.answers 7 = some (.data [1]) ∧
      last.responses 2 = some ⟨7, [3]⟩ := ⟨_, rfl, rfl, rfl, rfl⟩
  obtain ⟨last, reached, published, answered, parked⟩ := reaches
  refine ⟨last, reached, published, answered, parked, fun complete => ?_⟩
  have whole := complete.whole 7 [1] answered
  rw [published] at whole
  revert whole
  decide

end Mif.Net.Http.ServletSession
