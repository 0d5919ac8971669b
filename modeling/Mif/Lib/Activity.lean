import Mathlib.Data.List.Basic

set_option autoImplicit false

/-- A computation that asks the world outside and goes on with what it answers. It ends
with a value or with an error. -/
inductive Activity (question answer ε α : Type)
  | done (result : Except ε α)
  | ask (asked : question) (resume : answer → Activity question answer ε α)

namespace Activity

variable {question answer ε α β τ : Type}

/-- What follows a computation, whether it ends with a value or with an error. -/
def after (activity : Activity question answer ε α)
    (next : Except ε α → Activity question answer ε β) : Activity question answer ε β :=
  match activity with
  | done result => next result
  | ask asked resume => ask asked fun reply => (resume reply).after next

/-- What follows a value. An error ends the computation. -/
def andThen (activity : Activity question answer ε α)
    (next : α → Activity question answer ε β) : Activity question answer ε β :=
  activity.after fun result =>
    match result with
    | .ok value => next value
    | .error error => done (.error error)

instance : Monad (Activity question answer ε) where
  pure value := done (.ok value)
  bind := andThen

/-- The computation in a world that keeps a trace: it may write to the trace before it
answers, and its answer may depend on the trace. -/
def run (reply : List τ → question → List τ × answer) :
    List τ → Activity question answer ε α → List τ × Except ε α
  | trace, done result => (trace, result)
  | trace, ask asked resume =>
      run reply (trace ++ (reply trace asked).1) (resume (reply trace asked).2)

variable (reply : List τ → question → List τ × answer)

theorem run_after (activity : Activity question answer ε α)
    (next : Except ε α → Activity question answer ε β) (trace : List τ) :
    run reply trace (activity.after next) =
      run reply (run reply trace activity).1 (next (run reply trace activity).2) := by
  induction activity generalizing trace with
  | done result => rfl
  | ask asked resume ih => exact ih _ _

/-- What holds of everything that the world writes holds of what a computation adds to the
trace. -/
theorem run_trace {written : τ → Prop}
    (writes : ∀ trace asked, ∀ event ∈ (reply trace asked).1, written event)
    (activity : Activity question answer ε α) (trace : List τ) :
    ∃ events, (run reply trace activity).1 = trace ++ events ∧ ∀ event ∈ events, written event := by
  induction activity generalizing trace with
  | done result =>
      refine ⟨[], by simp [run], ?_⟩
      intro event member
      cases member
  | ask asked resume ih =>
      obtain ⟨events, added, held⟩ :=
        ih (reply trace asked).2 (trace ++ (reply trace asked).1)
      refine ⟨(reply trace asked).1 ++ events, ?_, ?_⟩
      · rw [run, added, List.append_assoc]
      · intro event member
        rcases List.mem_append.mp member with early | late
        · exact writes trace asked event early
        · exact held event late

end Activity
