import Mathlib.Data.List.Perm.Basic
import Mif.Lib.Transition

set_option autoImplicit false

/- `Db::Transaction`: objects that begin, end and hand over the transactions of a
connection. -/
namespace Mif.Db

/-- An `IConnectionPtr` that is not empty. -/
abbrev Connection := Nat

/-- What a transaction gives to `ExecuteDirect`. -/
inductive Statement
  | begin
  | commit
  | rollback
  deriving DecidableEq, Repr

def Statement.text : Statement → String
  | begin => "BEGIN;"
  | commit => "COMMIT;"
  | rollback => "ROLLBACK;"

/-- `Transaction::State` -/
inductive State
  | unknown
  | init
  | begin
  | commit
  | rollback
  deriving DecidableEq, Repr

structure Transaction where
  connection : Option Connection
  state : State
  deriving DecidableEq, Repr

/-- `IConnection::ExecuteDirect` of each connection, with the exception it throws. -/
abbrev ExecuteDirect := Connection → String → Except String Unit

/-- What a member function did: the object, the statements that were executed, and the
exception. -/
structure Effect where
  object : Transaction
  executed : List (Connection × Statement)
  thrown : Option String
  deriving DecidableEq, Repr

namespace Transaction

def failure (method text : String) : String :=
  "[Mif::Db::Transaction::" ++ method ++ "] " ++ text

/-- `Begin`, `Commit` and `Rollback` differ in their texts, in the state they need and in
the state they leave. -/
def change (method verb : String) (needed : State) (statement : Statement) (left : State)
    (executeDirect : ExecuteDirect) (transaction : Transaction) : Effect :=
  match transaction.connection with
  | none => ⟨transaction, [], some (failure method "Empty transaction pointer.")⟩
  | some connection =>
      if transaction.state ≠ needed then
        ⟨transaction, [], some (failure method "Bad transaction state.")⟩
      else
        match executeDirect connection statement.text with
        | .error what =>
            ⟨transaction, [],
              some (failure method ("Failed to " ++ verb ++ " transaction. Error: " ++ what))⟩
        | .ok _ => ⟨{ transaction with state := left }, [(connection, statement)], none⟩

def begin : ExecuteDirect → Transaction → Effect := change "Begin" "start" .init .begin .begin

def commit : ExecuteDirect → Transaction → Effect :=
  change "Commit" "commit" .begin .commit .commit

def rollback : ExecuteDirect → Transaction → Effect :=
  change "Rollback" "rollback" .begin .rollback .rollback

/-- The constructor from a connection. An object whose constructor throws does not exist. -/
def new (executeDirect : ExecuteDirect) (connection : Option Connection) (opens : Bool) :
    Except String Effect :=
  match connection with
  | none => .error "[Mif::Db::Transaction] Empty transaction pointer."
  | some connection =>
      if opens then
        let effect := begin executeDirect ⟨some connection, .init⟩
        match effect.thrown with
        | some what => .error what
        | none => .ok effect
      else .ok ⟨⟨some connection, .init⟩, [], none⟩

/-- What a move leaves in its source. -/
def movedFrom : Transaction := ⟨none, .unknown⟩

/-- The destructor: the statements that are executed. -/
def destroy (executeDirect : ExecuteDirect) (transaction : Transaction) :
    List (Connection × Statement) :=
  if transaction.connection = none ∨ transaction.state ≠ .begin then []
  else (rollback executeDirect transaction).executed

end Transaction

/-- The objects of a program by their number, none for a destroyed one, and all statements
executed so far. -/
structure Program where
  objects : List (Option Transaction)
  log : List (Connection × Statement)
  deriving DecidableEq, Repr

inductive Action
  | construct (connection : Option Connection) (opens : Bool)
  | begin (object : Nat)
  | commit (object : Nat)
  | rollback (object : Nat)
  | moveConstruct (source : Nat)
  | moveAssign (target source : Nat)
  | destroy (object : Nat)
  deriving DecidableEq, Repr

namespace Program

def new : Program := ⟨[], []⟩

/-- The object with this number, when it is alive. -/
def object (program : Program) (index : Nat) : Option Transaction := (program.objects[index]?).join

def put (program : Program) (index : Nat) (object : Option Transaction) : Program :=
  { program with objects := program.objects.set index object }

def add (program : Program) (object : Transaction) : Program :=
  { program with objects := program.objects ++ [some object] }

def record (program : Program) (executed : List (Connection × Statement)) : Program :=
  { program with log := program.log ++ executed }

/-- A call of a member function that may execute a statement. -/
def call (program : Program) (index : Nat) (method : Transaction → Effect) : Option Program :=
  (program.object index).map fun transaction =>
    let effect := method transaction
    (program.put index (some effect.object)).record effect.executed

def step (executeDirect : ExecuteDirect) (program : Program) : Action → Option Program
  | .construct connection opens =>
      match Transaction.new executeDirect connection opens with
      | .error _ => some program
      | .ok effect =>
          some ((program.add effect.object).record effect.executed)
  | .begin index => program.call index (Transaction.begin executeDirect)
  | .commit index => program.call index (Transaction.commit executeDirect)
  | .rollback index => program.call index (Transaction.rollback executeDirect)
  | .moveConstruct source =>
      (program.object source).map fun transaction =>
        (program.put source (some Transaction.movedFrom)).add transaction
  | .moveAssign target source =>
      (program.object target).bind fun _ =>
        (program.object source).map fun transaction =>
          -- the two members are assigned before the source is reset, also when both are one
          (program.put target (some transaction)).put source (some Transaction.movedFrom)
  | .destroy index =>
      (program.object index).map fun transaction =>
        (program.put index none).record (transaction.destroy executeDirect)

def executed (program : Program) (connection : Connection) (statement : Statement) : Nat :=
  program.log.count (connection, statement)

/-- Every transaction that was begun on a connection was ended there. -/
def Balanced (program : Program) : Prop :=
  ∀ connection, program.executed connection .begin =
    program.executed connection .commit + program.executed connection .rollback

def AllDestroyed (program : Program) : Prop := ∀ object ∈ program.objects, object = none

instance (program : Program) : Decidable program.AllDestroyed :=
  inferInstanceAs (Decidable (∀ object ∈ program.objects, object = none))

/-- The object is in a transaction. -/
def isOpen (program : Program) (index : Nat) : Bool :=
  match program.object index with
  | some transaction => transaction.connection.isSome && transaction.state = .begin
  | none => false

/-- A move assignment does not go to an object that is in a transaction. -/
def KeepsOpen (program : Program) : Action → Prop
  | .moveAssign target _ => program.isOpen target = false
  | _ => True

instance (program : Program) : (action : Action) → Decidable (program.KeepsOpen action)
  | .moveAssign target _ => inferInstanceAs (Decidable (program.isOpen target = false))
  | .construct _ _ => isTrue trivial
  | .begin _ => isTrue trivial
  | .commit _ => isTrue trivial
  | .rollback _ => isTrue trivial
  | .moveConstruct _ => isTrue trivial
  | .destroy _ => isTrue trivial

/-- How many objects are in a transaction of the connection. -/
def opened (program : Program) (connection : Connection) : Nat :=
  program.objects.count (some ⟨some connection, .begin⟩)

/-- Transactions that were begun, are not ended, and are in no object. -/
def lost (program : Program) (connection : Connection) : Int :=
  program.executed connection .begin - program.executed connection .commit -
    program.executed connection .rollback - program.opened connection

theorem count_set_add {α : Type} [BEq α] {items : List α} {index : Nat} {old : α}
    (found : items[index]? = some old) (new item : α) :
    (items.set index new).count item + (if old == item then 1 else 0) =
      items.count item + (if new == item then 1 else 0) := by
  induction items generalizing index with
  | nil => cases found
  | cons first rest ih =>
      cases index with
      | zero =>
          cases found
          simp only [List.set_cons_zero, List.count_cons]
          omega
      | succ index =>
          have later := ih found
          simp only [List.set_cons_succ, List.count_cons]
          omega

theorem getElem?_of_object {program : Program} {index : Nat} {transaction : Transaction}
    (alive : program.object index = some transaction) :
    program.objects[index]? = some (some transaction) := by
  unfold object at alive
  cases found : program.objects[index]? with
  | none =>
      rw [found] at alive
      cases alive
  | some slot =>
      rw [found] at alive
      exact congrArg some alive

/-- What an object owes to a connection. -/
def owes (connection : Connection) (object : Option Transaction) : Nat :=
  if object == some ⟨some connection, .begin⟩ then 1 else 0

theorem opened_put {program : Program} {index : Nat} {transaction : Transaction}
    (alive : program.object index = some transaction) (object : Option Transaction)
    (connection : Connection) :
    (program.put index object).opened connection + owes connection (some transaction) =
      program.opened connection + owes connection object :=
  count_set_add (getElem?_of_object alive) object (some ⟨some connection, .begin⟩)

theorem opened_add (program : Program) (object : Transaction) (connection : Connection) :
    (program.add object).opened connection =
      program.opened connection + owes connection (some object) := by
  simp only [opened, add, List.count_append, List.count_singleton, owes]

/-- What statements add to the transactions that were begun and not ended. -/
def begun (connection : Connection) (log : List (Connection × Statement)) : Int :=
  log.count (connection, .begin) - log.count (connection, .commit) -
    log.count (connection, .rollback)

theorem begun_append (connection : Connection) (first second : List (Connection × Statement)) :
    begun connection (first ++ second) = begun connection first + begun connection second := by
  simp only [begun, List.count_append]
  omega

/-- A call of one of the three functions does nothing, or it executes its statement and
moves the object between the two states. -/
theorem change_cases (method verb : String) (needed : State) (statement : Statement)
    (left : State) (executeDirect : ExecuteDirect) (transaction : Transaction) :
    (let effect := Transaction.change method verb needed statement left executeDirect transaction
     (effect.object = transaction ∧ effect.executed = []) ∨
      ∃ connection, transaction = ⟨some connection, needed⟩ ∧
        effect.object = ⟨some connection, left⟩ ∧
        effect.executed = [(connection, statement)]) := by
  unfold Transaction.change
  dsimp only
  split
  · exact Or.inl ⟨rfl, rfl⟩
  · rename_i connection same
    split
    · exact Or.inl ⟨rfl, rfl⟩
    · rename_i ready
      split
      · exact Or.inl ⟨rfl, rfl⟩
      · right
        have state : transaction.state = needed := not_not.mp ready
        refine ⟨connection, ?_, ?_, rfl⟩
        · rw [← same, ← state]
        · rw [← same]

theorem begun_single (connection other : Connection) (statement : Statement) :
    begun connection [(other, statement)] =
      if other = connection then (if statement = .begin then 1 else -1) else 0 := by
  by_cases same : other = connection
  · subst same
    cases statement <;> simp [begun]
  · simp [begun, same]

theorem owes_some (connection : Connection) (other : Option Connection) (state : State) :
    owes connection (some ⟨other, state⟩) =
      if other = some connection ∧ state = .begin then 1 else 0 := by
  by_cases same : other = some connection ∧ state = .begin
  · obtain ⟨rfl, rfl⟩ := same
    simp [owes]
  · have different : (some (⟨other, state⟩ : Transaction) ==
        some ⟨some connection, .begin⟩) = false := by
      rw [beq_eq_false_iff_ne]
      intro equal
      cases equal
      exact same ⟨rfl, rfl⟩
    simp [owes, different, same]

/-- A function that ends in the state of an open transaction, or leaves it, executes the
statement for that. -/
theorem change_settles (method verb : String) {needed left : State} {statement : Statement}
    (worth : (if left = .begin then 1 else 0) - (if needed = .begin then 1 else 0) =
      (if statement = .begin then 1 else -1 : Int))
    (executeDirect : ExecuteDirect) (transaction : Transaction) (connection : Connection) :
    let effect := Transaction.change method verb needed statement left executeDirect transaction
    begun connection effect.executed =
      owes connection (some effect.object) - owes connection (some transaction) := by
  have cases := change_cases method verb needed statement left executeDirect transaction
  dsimp only at cases ⊢
  rcases cases with ⟨same, nothing⟩ | ⟨other, before, after, one⟩
  · rw [same, nothing]
    simp [begun]
  · rw [before] at after one ⊢
    rw [after, one, begun_single, owes_some, owes_some]
    by_cases equal : other = connection
    · simp only [equal, true_and, ↓reduceIte]
      rw [← worth]
      split <;> split <;> simp
    · simp [equal]

/-- A member function that pays for what it does to its object. -/
def Settles (method : Transaction → Effect) : Prop :=
  ∀ transaction connection, begun connection (method transaction).executed =
    owes connection (some (method transaction).object) - owes connection (some transaction)

section

variable (executeDirect : ExecuteDirect)

theorem begin_settles : Settles (Transaction.begin executeDirect) :=
  change_settles "Begin" "start" (by decide) executeDirect

theorem commit_settles : Settles (Transaction.commit executeDirect) :=
  change_settles "Commit" "commit" (by decide) executeDirect

theorem rollback_settles : Settles (Transaction.rollback executeDirect) :=
  change_settles "Rollback" "rollback" (by decide) executeDirect

theorem new_settles {connection : Option Connection} {opens : Bool} {effect : Effect}
    (built : Transaction.new executeDirect connection opens = .ok effect) (other : Connection) :
    begun other effect.executed = owes other (some effect.object) := by
  unfold Transaction.new at built
  cases connection with
  | none => cases built
  | some connection =>
      have nothing : owes other (some ⟨some connection, .init⟩) = 0 := by
        rw [owes_some]
        simp
      dsimp only at built
      split at built
      · have paid := begin_settles executeDirect ⟨some connection, .init⟩ other
        split at built
        · cases built
        · cases built
          rw [paid, nothing]
          simp
      · cases built
        rw [nothing]
        rfl

/-- A destroyed object owes nothing, when its rollback succeeds. -/
theorem destroy_settles (succeeds : ∀ connection text, executeDirect connection text = .ok ())
    (transaction : Transaction) (connection : Connection) :
    begun connection (transaction.destroy executeDirect) =
      - owes connection (some transaction) := by
  obtain ⟨other, state⟩ := transaction
  rw [owes_some]
  unfold Transaction.destroy
  split
  · rename_i closed
    have nothing : ¬ (other = some connection ∧ state = .begin) := by
      intro opened
      rw [opened.1, opened.2] at closed
      simp at closed
    simp [nothing, begun]
  · rename_i opened
    rw [not_or, not_not] at opened
    have began : state = .begin := opened.2
    obtain ⟨own, found⟩ := Option.ne_none_iff_exists'.mp opened.1
    have pointer : other = some own := found
    have rolled : (Transaction.rollback executeDirect ⟨other, state⟩).executed =
        [(own, .rollback)] := by
      simp [Transaction.rollback, Transaction.change, pointer, began, succeeds]
    rw [rolled, begun_single, pointer, began]
    by_cases same : own = connection
    · simp [same]
    · simp [same]

end

theorem lost_eq (program : Program) (connection : Connection) :
    program.lost connection = begun connection program.log - program.opened connection := rfl

theorem lost_record (program : Program) (executed : List (Connection × Statement))
    (connection : Connection) :
    (program.record executed).lost connection =
      program.lost connection + begun connection executed := by
  have same : (program.record executed).opened connection = program.opened connection := rfl
  rw [lost_eq, lost_eq, same, record, begun_append]
  omega

theorem lost_put {program : Program} {index : Nat} {transaction : Transaction}
    (alive : program.object index = some transaction) (object : Option Transaction)
    (connection : Connection) :
    (program.put index object).lost connection =
      program.lost connection + owes connection (some transaction) - owes connection object := by
  have counted := opened_put alive object connection
  have same : (program.put index object).log = program.log := rfl
  rw [lost_eq, lost_eq, same]
  omega

theorem lost_add (program : Program) (object : Transaction) (connection : Connection) :
    (program.add object).lost connection =
      program.lost connection - owes connection (some object) := by
  have counted := opened_add program object connection
  have same : (program.add object).log = program.log := rfl
  rw [lost_eq, lost_eq, same]
  omega

/-- What a step loses: the transaction of an object to which another one is assigned. -/
def overwritten (program : Program) (action : Action) (connection : Connection) : Nat :=
  match action with
  | .moveAssign target _ => owes connection (program.object target)
  | _ => 0

theorem lost_call {program next : Program} {index : Nat} {method : Transaction → Effect}
    (settles : Settles method) (taken : program.call index method = some next)
    (connection : Connection) : next.lost connection = program.lost connection := by
  obtain ⟨transaction, alive, rfl⟩ := Option.map_eq_some_iff.mp taken
  rw [lost_record, lost_put alive, settles transaction connection]
  omega

/-- The source of an assignment holds what it held when its target has been written. -/
theorem object_put {program : Program} {target source : Nat} {old transaction : Transaction}
    (written : program.object target = some old)
    (alive : program.object source = some transaction) :
    (program.put target (some transaction)).object source = some transaction := by
  by_cases same : target = source
  · subst same
    have inside := getElem?_of_object written
    have bound := (List.getElem?_eq_some_iff.mp inside).1
    simp [object, put, bound]
  · simp only [object, put, List.getElem?_set_ne same]
    exact alive

theorem lost_step (executeDirect : ExecuteDirect)
    (succeeds : ∀ connection text, executeDirect connection text = .ok ())
    (program : Program) (action : Action) (next : Program)
    (taken : program.step executeDirect action = some next) (connection : Connection) :
    next.lost connection =
      program.lost connection + program.overwritten action connection := by
  have nothing : owes connection (some Transaction.movedFrom) = 0 := by
    rw [Transaction.movedFrom, owes_some]
    simp
  cases action with
  | construct pointer opens =>
      simp only [step] at taken
      split at taken
      · cases taken
        simp [overwritten]
      · rename_i effect built
        cases taken
        rw [lost_record, lost_add, new_settles executeDirect built]
        simp [overwritten]
  | begin index =>
      rw [lost_call (begin_settles executeDirect) taken]
      simp [overwritten]
  | commit index =>
      rw [lost_call (commit_settles executeDirect) taken]
      simp [overwritten]
  | rollback index =>
      rw [lost_call (rollback_settles executeDirect) taken]
      simp [overwritten]
  | moveConstruct source =>
      obtain ⟨transaction, alive, rfl⟩ := Option.map_eq_some_iff.mp taken
      rw [lost_add, lost_put alive, nothing]
      simp [overwritten]
  | moveAssign target source =>
      obtain ⟨old, written, taken⟩ := Option.bind_eq_some_iff.mp taken
      obtain ⟨transaction, alive, rfl⟩ := Option.map_eq_some_iff.mp taken
      rw [lost_put (object_put written alive), lost_put written, nothing, overwritten, written]
      simp
  | destroy index =>
      obtain ⟨transaction, alive, rfl⟩ := Option.map_eq_some_iff.mp taken
      have gone : owes connection none = 0 := rfl
      have free : program.overwritten (.destroy index) connection = 0 := rfl
      rw [lost_record, lost_put alive, destroy_settles executeDirect succeeds, gone, free]
      omega

theorem keepsOpen_iff (program : Program) (action : Action) :
    (∀ connection, program.overwritten action connection = 0) ↔ program.KeepsOpen action := by
  cases action with
  | moveAssign target source =>
      unfold overwritten KeepsOpen isOpen
      dsimp only
      cases alive : program.object target with
      | none => simp [owes]
      | some transaction =>
          obtain ⟨pointer, state⟩ := transaction
          simp only [owes_some]
          cases pointer with
          | none => simp
          | some own =>
              constructor
              · intro free
                have paid := free own
                simpa using paid
              · intro closed connection
                have state : state ≠ .begin := by simpa using closed
                simp [state]
  | _ => simp [overwritten, KeepsOpen]

theorem opened_of_destroyed {program : Program} (destroyed : program.AllDestroyed)
    (connection : Connection) : program.opened connection = 0 := by
  apply List.count_eq_zero.mpr
  intro member
  cases destroyed _ member

/-- Once all objects are destroyed, every transaction begun on a connection was ended
there exactly when no object in a transaction was the target of a move assignment. -/
theorem balanced_iff_keepsOpen (executeDirect : ExecuteDirect)
    (succeeds : ∀ connection text, executeDirect connection text = .ok ())
    (actions : List Action) (last : Program)
    (reached : Transition.run (step executeDirect) new actions = some last)
    (destroyed : last.AllDestroyed) :
    last.Balanced ↔ Transition.Along (step executeDirect) KeepsOpen new actions := by
  have always : Transition.Along (step executeDirect) (fun _ _ => True) new actions :=
    Transition.along_of_mem actions (fun _ _ _ => trivial) new
  have raised : ∀ program action next, True → True → step executeDirect program action = some next →
      ∀ connection, next.lost connection =
        program.lost connection + program.overwritten action connection :=
    fun program action next _ _ taken => lost_step executeDirect succeeds program action next taken
  have free := Transition.along_free_iff raised (fun _ _ _ _ _ _ => trivial) actions new last
    trivial always reached
  simp only [keepsOpen_iff] at free
  rw [← free]
  apply forall_congr'
  intro connection
  have none := opened_of_destroyed destroyed connection
  have start : new.lost connection = 0 := rfl
  rw [start, lost, none]
  omega

/-- One transaction is handed to an object that has ended its own. -/
def handOver : List Action :=
  [.construct (some 1) true, .construct (some 2) true, .commit 0, .moveAssign 0 1, .destroy 1,
    .destroy 0]

theorem balanced_hand_over :
    ∃ last, Transition.run (step fun _ _ => .ok ()) new handOver = some last ∧
      last.AllDestroyed ∧ last.Balanced := by
  have reached : Transition.run (step fun _ _ => .ok ()) new handOver =
      some ⟨[none, none], [(1, .begin), (2, .begin), (1, .commit), (2, .rollback)]⟩ := by decide
  refine ⟨_, reached, by decide, ?_⟩
  exact (balanced_iff_keepsOpen (fun _ _ => .ok ()) (fun _ _ => rfl) handOver _ reached
    (by decide)).mpr (by decide)

/-- A move assignment to an object in a transaction, and one of such an object to itself. -/
theorem overwritten_transaction_is_lost :
    (∃ last, Transition.run (step fun _ _ => .ok ()) new
        [.construct (some 1) true, .construct (some 2) true, .moveAssign 0 1, .destroy 1,
          .destroy 0] = some last ∧
      last.AllDestroyed ∧ last.log = [(1, .begin), (2, .begin), (2, .rollback)] ∧
      ¬ last.Balanced) ∧
    ∃ last, Transition.run (step fun _ _ => .ok ()) new
        [.construct (some 1) true, .moveAssign 0 0, .destroy 0] = some last ∧
      last.AllDestroyed ∧ last.log = [(1, .begin)] ∧ ¬ last.Balanced := by
  refine ⟨⟨⟨[none, none], [(1, .begin), (2, .begin), (2, .rollback)]⟩, by decide, by decide, rfl,
    ?_⟩, ⟨⟨[none], [(1, .begin)]⟩, by decide, by decide, rfl, ?_⟩⟩
  · intro balanced
    have first := balanced 1
    revert first
    decide
  · intro balanced
    have first := balanced 1
    revert first
    decide

end Program

end Mif.Db
