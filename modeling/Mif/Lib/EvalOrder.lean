import Mathlib.Data.List.FinRange

set_option autoImplicit false

/-- An order in which the arguments of one call are evaluated. Each of the `n`
arguments is evaluated once. -/
structure EvalOrder (n : Nat) where
  indexes : List (Fin n)
  complete : indexes.Perm (List.finRange n)

namespace EvalOrder

variable {n : Nat}

def leftToRight (n : Nat) : EvalOrder n := ⟨List.finRange n, List.Perm.refl _⟩

def rightToLeft (n : Nat) : EvalOrder n :=
  ⟨(List.finRange n).reverse, List.reverse_perm (List.finRange n)⟩

@[simp] theorem length_indexes (order : EvalOrder n) : order.indexes.length = n := by
  rw [order.complete.length_eq, List.length_finRange]

theorem mem_indexes (order : EvalOrder n) (index : Fin n) : index ∈ order.indexes :=
  order.complete.mem_iff.mpr (List.mem_finRange index)

theorem ext_indexes {first second : EvalOrder n} (same : first.indexes = second.indexes) :
    first = second := by
  cases first
  cases second
  cases same
  rfl

variable {ε : Type} {α : Fin n → Type}

/-- The error that ends the evaluation of these arguments. -/
def firstError (arguments : ∀ index, Except ε (α index)) : List (Fin n) → Option ε
  | [] => none
  | index :: rest =>
      match arguments index with
      | .error reason => some reason
      | .ok _ => firstError arguments rest

theorem firstError_eq_none (arguments : ∀ index, Except ε (α index)) (indexes : List (Fin n)) :
    firstError arguments indexes = none ↔
      ∀ index ∈ indexes, ∃ value, arguments index = .ok value := by
  induction indexes with
  | nil => simp [firstError]
  | cons index rest ih =>
      cases result : arguments index with
      | error reason => simp [firstError, result]
      | ok value => simp [firstError, result, ih]

/-- The value of a result that is not an error. -/
def valueOf {β : Type} (result : Except ε β) (success : ∃ value, result = .ok value) : β :=
  match result, success with
  | .ok value, _ => value
  | .error _, failure => absurd failure (by simp)

theorem valueOf_eq {β : Type} {result : Except ε β} {value : β} (same : result = .ok value)
    (success : ∃ value, result = .ok value) : valueOf result success = value := by
  subst same
  rfl

/-- All arguments, evaluated in this order; the first error ends the evaluation. -/
def evaluate (order : EvalOrder n) (arguments : ∀ index, Except ε (α index)) :
    Except ε (∀ index, α index) :=
  match failed : firstError arguments order.indexes with
  | some reason => .error reason
  | none => .ok fun index => valueOf (arguments index)
      ((firstError_eq_none arguments order.indexes).mp failed index (order.mem_indexes index))

theorem evaluate_eq_ok (order : EvalOrder n) (arguments : ∀ index, Except ε (α index))
    (values : ∀ index, α index) :
    order.evaluate arguments = .ok values ↔ ∀ index, arguments index = .ok (values index) := by
  unfold evaluate
  split
  · rename_i reason failed
    refine ⟨fun impossible => (nomatch impossible), fun success => ?_⟩
    have none := (firstError_eq_none arguments order.indexes).mpr
      fun index _ => ⟨values index, success index⟩
    cases none.symm.trans failed
  · rename_i failed
    have success := (firstError_eq_none arguments order.indexes).mp failed
    constructor
    · intro same index
      obtain ⟨value, result⟩ := success index (order.mem_indexes index)
      rw [← Except.ok.inj same, result]
      exact congrArg Except.ok (valueOf_eq result _).symm
    · intro same
      refine congrArg Except.ok (funext fun index => ?_)
      exact valueOf_eq (same index) _

/-- A result that is built from all arguments. -/
theorem evaluate_bind_eq_ok {β : Type} (order : EvalOrder n)
    (arguments : ∀ index, Except ε (α index)) (build : (∀ index, α index) → β) (result : β) :
    (order.evaluate arguments >>= fun values => pure (build values)) = .ok result ↔
      ∃ values, (∀ index, arguments index = .ok (values index)) ∧ build values = result := by
  cases evaluated : order.evaluate arguments with
  | error reason =>
      refine ⟨fun impossible => (nomatch impossible), ?_⟩
      rintro ⟨values, success, -⟩
      cases evaluated.symm.trans ((evaluate_eq_ok order arguments values).mpr success)
  | ok values =>
      have success := (evaluate_eq_ok order arguments values).mp evaluated
      constructor
      · intro built
        exact ⟨values, success, Except.ok.inj built⟩
      · rintro ⟨others, same, rfl⟩
        have equal : values = others :=
          funext fun index => Except.ok.inj ((success index).symm.trans (same index))
        rw [equal]
        rfl

theorem evaluate_eq_error (order : EvalOrder n) (arguments : ∀ index, Except ε (α index))
    {reason : ε} (failed : firstError arguments order.indexes = some reason) :
    order.evaluate arguments = .error reason := by
  unfold evaluate
  split
  · rename_i other same
    rw [Option.some.inj (same.symm.trans failed)]
  · rename_i none
    cases none.symm.trans failed

theorem exists_evaluate_eq_ok (order : EvalOrder n) (arguments : ∀ index, Except ε (α index)) :
    (∃ values, order.evaluate arguments = .ok values) ↔
      ∀ index, ∃ value, arguments index = .ok value := by
  constructor
  · rintro ⟨values, success⟩ index
    exact ⟨values index, (evaluate_eq_ok order arguments values).mp success index⟩
  · intro success
    refine ⟨fun index => valueOf (arguments index) (success index), ?_⟩
    rw [evaluate_eq_ok]
    intro index
    obtain ⟨value, result⟩ := success index
    rw [valueOf_eq result, result]

/-- Each item meets `demand` unless an item before it does not `pass`. -/
def InTurn {β : Type} (passes demand : β → Prop) : List β → Prop
  | [] => True
  | item :: rest => demand item ∧ (passes item → InTurn passes demand rest)

theorem inTurn_congr {β : Type} {passes passes' demand demand' : β → Prop} (items : List β)
    (samePasses : ∀ item ∈ items, (passes item ↔ passes' item))
    (sameDemand : ∀ item ∈ items, (demand item ↔ demand' item)) :
    InTurn passes demand items ↔ InTurn passes' demand' items := by
  induction items with
  | nil => exact Iff.rfl
  | cons item rest ih =>
      have tail := ih (fun other member => samePasses other (List.mem_cons_of_mem _ member))
        (fun other member => sameDemand other (List.mem_cons_of_mem _ member))
      simp only [InTurn, samePasses item List.mem_cons_self, sameDemand item List.mem_cons_self,
        tail]

/-- An evaluation avoids the errors that each argument avoids when its turn comes. -/
theorem evaluate_avoids (order : EvalOrder n) (arguments : ∀ index, Except ε (α index))
    (bad : ε → Prop) :
    (∀ reason, order.evaluate arguments = .error reason → ¬ bad reason) ↔
      InTurn (fun index => ∃ value, arguments index = .ok value)
        (fun index => ∀ reason, arguments index = .error reason → ¬ bad reason)
        order.indexes := by
  have first : ∀ indexes : List (Fin n),
      (∀ reason, firstError arguments indexes = some reason → ¬ bad reason) ↔
        InTurn (fun index => ∃ value, arguments index = .ok value)
          (fun index => ∀ reason, arguments index = .error reason → ¬ bad reason) indexes := by
    intro indexes
    induction indexes with
    | nil => simp [firstError, InTurn]
    | cons index rest ih =>
        cases result : arguments index with
        | error reason => simp [firstError, InTurn, result]
        | ok value => simp [firstError, InTurn, result, ih]
  rw [← first order.indexes]
  unfold evaluate
  split
  · rename_i reason failed
    simp [failed]
  · rename_i failed
    simp [failed]

end EvalOrder
