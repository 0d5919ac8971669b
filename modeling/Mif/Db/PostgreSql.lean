import Mif.Lib.RefCountRest
import Mif.Service.PerThreadPool

set_option autoImplicit false

/- `Db::PostgreSql`: connections, the statements prepared on them and the recordsets these
return. They hold one another by counted pointers, and use the connection of `libpq` by a
plain one. -/
namespace Mif.Db.PostgreSql

open Mif.Service

/-- A call to `libpq`. A connection is known by the object that opened it, and a prepared
statement by the object whose name it has. -/
inductive Pq
  | connectdb (connection : Instance)
  | exec (connection : Instance)
  | prepare (connection statement : Instance) (done : Bool)
  | execPrepared (connection statement : Instance)
  | deallocate (connection statement : Instance) (done : Bool)
  | finish (connection : Instance)
  deriving DecidableEq, Repr

/-- What is open and prepared after some calls. `left` are the prepared statements whose
`DEALLOCATE` failed. -/
structure Usage where
  opened : List Instance
  prepared : List (Instance × Instance)
  left : List (Instance × Instance)
  finished : List Instance
  deriving DecidableEq, Repr

namespace Usage

def none : Usage := ⟨[], [], [], []⟩

/-- The calls that `libpq` and the server allow: a connection is used between its opening
and its end, a prepared statement between its preparation and the call that is to deallocate it,
and this call was made for all statements when a connection ends. The server gives up with the
connection what could not be deallocated. -/
def accept (usage : Usage) : Pq → Option Usage
  | .connectdb connection =>
      if connection ∉ usage.opened ∧ connection ∉ usage.finished then
        some { usage with opened := connection :: usage.opened }
      else Option.none
  | .exec connection => if connection ∈ usage.opened then some usage else Option.none
  | .prepare connection statement done =>
      if connection ∈ usage.opened ∧ statement ∉ usage.prepared.map Prod.fst ∧
          statement ∉ usage.left.map Prod.fst then
        some
          { usage with
            prepared := if done then (statement, connection) :: usage.prepared else usage.prepared }
      else Option.none
  | .execPrepared connection statement =>
      if connection ∈ usage.opened ∧ (statement, connection) ∈ usage.prepared then some usage
      else Option.none
  | .deallocate connection statement done =>
      if connection ∈ usage.opened ∧ (statement, connection) ∈ usage.prepared then
        some
          { usage with
            prepared := usage.prepared.filter fun entry => entry.1 ≠ statement
            left := if done then usage.left else (statement, connection) :: usage.left }
      else Option.none
  | .finish connection =>
      if connection ∈ usage.opened ∧ connection ∉ usage.prepared.map Prod.snd then
        some
          { usage with
            opened := usage.opened.filter fun other => other ≠ connection
            left := usage.left.filter fun entry => entry.2 ≠ connection
            finished := connection :: usage.finished }
      else Option.none

def acceptAll (usage : Usage) : List Pq → Option Usage
  | [] => some usage
  | call :: rest => (usage.accept call).bind fun next => next.acceptAll rest

end Usage

/-- The objects: `Connection`, `Statement` with its `m_connection`, and `Recordset` with its
statement. -/
inductive Kind
  | connection
  | statement (connection : Instance)
  | recordset (statement : Instance)
  deriving DecidableEq, Repr

/-- `m_holder` of a statement is its connection, and that of a recordset its statement. -/
def Kind.members : Kind → List Instance
  | .connection => []
  | .statement holder => [holder]
  | .recordset holder => [holder]

/-- What the destructor of an object calls. `~Statement` only logs when the call fails. -/
def Kind.atEnd (name : Instance) (done : Bool) : Kind → List Pq
  | .connection => [.finish name]
  | .statement holder => [.deallocate holder name done]
  | .recordset _ => []

/-- The objects, their kinds, the names that were used for objects and statements, and the
calls to `libpq` so far. -/
structure World where
  heap : RefCount.Heap ThreadId Instance
  kinds : List (Instance × Kind)
  used : List Instance
  calls : List Pq
  deriving DecidableEq, Repr

/-- What a thread does with the pointers it has. `done` says whether `libpq` does what it
is asked for. A pointer may be copied from another thread. -/
inductive Action
  | connect (thread : ThreadId) (name : Instance) (done : Bool)
  | executeDirect (thread : ThreadId) (connection : Instance)
  | createStatement (thread : ThreadId) (connection name : Instance) (done : Bool)
  | execute (thread : ThreadId) (statement name : Instance) (done : Bool)
  | share (thread source : ThreadId) (name : Instance)
  | drop (thread : ThreadId) (name : Instance)
  | delete (thread : ThreadId) (name : Instance) (done : Bool)
  deriving DecidableEq, Repr

namespace World

def new : World := ⟨.empty, [], [], []⟩

/-- `Make` of an object that was constructed. It has a copy of `holder` as a member. -/
def make (world : World) (thread : ThreadId) (name : Instance) (kind : Kind) (calls : List Pq) :
    Option World :=
  let copied := match kind.members with
    | [] => some world.heap
    | holder :: _ => world.heap.step (.copy thread holder [])
  (copied.bind fun heap => heap.step (.create thread name kind.members)).map fun heap =>
    { heap := heap
      kinds := (name, kind) :: world.kinds
      used := name :: world.used
      calls := world.calls ++ calls }

/-- A constructor that throws leaves nothing behind but its calls. -/
def fail (world : World) (name : Instance) (calls : List Pq) : World :=
  { world with used := name :: world.used, calls := world.calls ++ calls }

def step (world : World) : Action → Option World
  | .connect thread name done =>
      if name ∉ world.used then
        if done then world.make thread name .connection [.connectdb name]
        else some (world.fail name [.connectdb name, .finish name])
      else none
  | .executeDirect thread connection =>
      if (thread, connection) ∈ world.heap.held ∧ (connection, .connection) ∈ world.kinds then
        some { world with calls := world.calls ++ [.exec connection] }
      else none
  | .createStatement thread connection name done =>
      if (thread, connection) ∈ world.heap.held ∧ (connection, .connection) ∈ world.kinds ∧
          name ∉ world.used then
        if done then
          world.make thread name (.statement connection) [.prepare connection name true]
        else some (world.fail name [.prepare connection name false])
      else none
  | .execute thread statement name done =>
      if (thread, statement) ∈ world.heap.held ∧ name ∉ world.used then
        match world.kinds.lookup statement with
        | some (.statement connection) =>
            if done then
              world.make thread name (.recordset statement) [.execPrepared connection statement]
            else some (world.fail name [.execPrepared connection statement])
        | _ => none
      else none
  | .share thread source name =>
      (world.heap.step (.share thread source name)).map fun heap => { world with heap := heap }
  | .drop thread name =>
      (world.heap.step (.drop thread name)).map fun heap => { world with heap := heap }
  | .delete thread name done =>
      (world.heap.step (.delete thread name)).bind fun heap =>
        (world.kinds.lookup name).map fun kind =>
          { world with
            heap := heap
            kinds := world.kinds.filter fun entry => entry.1 ≠ name
            calls := world.calls ++ kind.atEnd name done }

end World

def connections (kinds : List (Instance × Kind)) : List Instance :=
  kinds.filterMap fun
    | (name, .connection) => some name
    | _ => none

def statements (kinds : List (Instance × Kind)) : List (Instance × Instance) :=
  kinds.filterMap fun
    | (name, .statement holder) => some (name, holder)
    | _ => none

section

variable {kinds : List (Instance × Kind)}

theorem mem_connections {name : Instance} :
    name ∈ connections kinds ↔ (name, .connection) ∈ kinds := by
  rw [connections, List.mem_filterMap]
  constructor
  · rintro ⟨⟨other, kind⟩, member, same⟩
    cases kind with
    | connection =>
        cases same
        exact member
    | statement holder => cases same
    | recordset holder => cases same
  · intro member
    exact ⟨(name, .connection), member, rfl⟩

theorem mem_statements {name holder : Instance} :
    (name, holder) ∈ statements kinds ↔ (name, .statement holder) ∈ kinds := by
  rw [statements, List.mem_filterMap]
  constructor
  · rintro ⟨⟨other, kind⟩, member, same⟩
    cases kind with
    | statement holder =>
        cases same
        exact member
    | connection => cases same
    | recordset holder => cases same
  · intro member
    exact ⟨(name, .statement holder), member, rfl⟩

theorem connections_remove (name : Instance) :
    connections (kinds.filter fun entry => entry.1 ≠ name) =
      (connections kinds).filter fun other => other ≠ name := by
  induction kinds with
  | nil => rfl
  | cons entry rest ih =>
      obtain ⟨other, kind⟩ := entry
      by_cases same : other = name
      · cases kind <;> simp_all [connections]
      · cases kind <;> simp_all [connections]

theorem statements_remove (name : Instance) :
    statements (kinds.filter fun entry => entry.1 ≠ name) =
      (statements kinds).filter fun entry => entry.1 ≠ name := by
  induction kinds with
  | nil => rfl
  | cons entry rest ih =>
      obtain ⟨other, kind⟩ := entry
      by_cases same : other = name
      · cases kind <;> simp_all [statements]
      · cases kind <;> simp_all [statements]

end

theorem acceptAll_append (usage : Usage) (first second : List Pq) :
    usage.acceptAll (first ++ second) =
      (usage.acceptAll first).bind fun next => next.acceptAll second := by
  induction first generalizing usage with
  | nil => rfl
  | cons call first ih =>
      rw [List.cons_append, Usage.acceptAll, Usage.acceptAll, Option.bind_assoc]
      congr 1
      funext next
      exact ih next

/-- The connections that were finished and the statements that were left behind. Their names are
used up, and a connection that a statement was left on is still there. -/
structure Past (kinds : List (Instance × Kind)) (used finished : List Instance)
    (left : List (Instance × Instance)) : Prop where
  closed : ∀ name ∈ finished, name ∈ used ∧ (name, .connection) ∉ kinds
  named : ∀ name holder, (name, holder) ∈ left → name ∈ used
  open_on : ∀ name holder, (name, holder) ∈ left → (holder, .connection) ∈ kinds

/-- The objects are of their kinds and hold what these say, and the calls so far are allowed
and left open what there are objects for. -/
structure Orderly (world : World) : Prop where
  counted : world.heap.Counted
  shape : world.heap.shape = world.kinds.map fun entry => (entry.1, entry.2.members)
  prepared_on : ∀ name holder, (name, .statement holder) ∈ world.kinds →
    (holder, .connection) ∈ world.kinds
  returned_by : ∀ name holder, (name, .recordset holder) ∈ world.kinds →
    ∃ connection, (holder, .statement connection) ∈ world.kinds
  used : ∀ name ∈ world.kinds.map Prod.fst, name ∈ world.used
  gone : ∀ name ∈ world.heap.deleted, name ∈ world.used
  calls : ∃ finished left, Usage.none.acceptAll world.calls =
    some ⟨connections world.kinds, statements world.kinds, left, finished⟩ ∧
      Past world.kinds world.used finished left

theorem new_orderly : Orderly World.new := by
  constructor
  case counted => exact RefCount.Heap.empty_counted
  case shape => rfl
  case prepared_on => exact fun _ _ member => by cases member
  case returned_by => exact fun _ _ member => by cases member
  case used => exact fun _ member => by cases member
  case gone => exact fun _ member => by cases member
  case calls =>
    refine ⟨[], [], rfl, ?_, ?_, ?_⟩
    · exact fun _ member => by cases member
    · exact fun _ _ member => by cases member
    · exact fun _ _ member => by cases member

namespace Orderly

variable {world : World}

theorem keys (orderly : Orderly world) :
    world.heap.cells.map Prod.fst = world.kinds.map Prod.fst := by
  have same := congrArg (List.map Prod.fst) orderly.shape
  rw [RefCount.Heap.shape, List.map_map, List.map_map] at same
  exact same

theorem distinct (orderly : Orderly world) : (world.kinds.map Prod.fst).Nodup :=
  orderly.keys ▸ orderly.counted.distinct

/-- What holds an object is a pointer to it. -/
theorem member_pointer (orderly : Orderly world) {name holder : Instance} {kind : Kind}
    (member : (name, kind) ∈ world.kinds) (holds : holder ∈ kind.members) :
    holder ∈ world.heap.pointers := by
  have shaped : (name, kind.members) ∈ world.heap.shape := by
    rw [orderly.shape]
    exact List.mem_map.mpr ⟨(name, kind), member, rfl⟩
  obtain ⟨entry, inside, same⟩ := List.mem_map.mp shaped
  apply List.mem_append_right
  apply List.mem_flatMap.mpr
  exact ⟨entry, inside, (Prod.mk.inj same).2 ▸ holds⟩

/-- A step that leaves the objects as they are. -/
theorem touched (orderly : Orderly world) {heap : RefCount.Heap ThreadId Instance}
    (counted : heap.Counted) (shape : heap.shape = world.heap.shape)
    (deleted : heap.deleted = world.heap.deleted) : Orderly { world with heap := heap } where
  counted := counted
  shape := shape.trans orderly.shape
  prepared_on := orderly.prepared_on
  returned_by := orderly.returned_by
  used := orderly.used
  gone := fun name member => orderly.gone name (deleted ▸ member)
  calls := orderly.calls

/-- A call that opens and closes nothing. -/
theorem called (orderly : Orderly world) {calls : List Pq} (names : List Instance)
    (finished : List Instance)
    (allowed : ∀ before left, Past world.kinds world.used before left →
      Usage.acceptAll ⟨connections world.kinds, statements world.kinds, left, before⟩ calls =
        some ⟨connections world.kinds, statements world.kinds, left, finished ++ before⟩)
    (new : ∀ name ∈ finished, name ∈ names ∧ name ∉ world.used) :
    Orderly { world with used := names ++ world.used, calls := world.calls ++ calls } where
  counted := orderly.counted
  shape := orderly.shape
  prepared_on := orderly.prepared_on
  returned_by := orderly.returned_by
  used := fun name member => List.mem_append_right _ (orderly.used name member)
  gone := fun name member => List.mem_append_right _ (orderly.gone name member)
  calls := by
    obtain ⟨before, left, accepted, past⟩ := orderly.calls
    refine ⟨finished ++ before, left, ?_, ?_, ?_, past.open_on⟩
    · rw [acceptAll_append, accepted]
      exact allowed before left past
    · intro name member
      rcases List.mem_append.mp member with here | earlier
      · refine ⟨List.mem_append_left _ (new name here).1, fun key => (new name here).2 ?_⟩
        exact orderly.used name (List.mem_map_of_mem key)
      · obtain ⟨used, closed⟩ := past.closed name earlier
        exact ⟨List.mem_append_right _ used, closed⟩
    · intro name holder member
      exact List.mem_append_right _ (past.named name holder member)

/-- An object is made. -/
theorem made (orderly : Orderly world) {thread : ThreadId} {name : Instance} {kind : Kind}
    {calls : List Pq} {next : World} (fresh : name ∉ world.used)
    (prepared_on : ∀ holder, kind = .statement holder → (holder, .connection) ∈ world.kinds)
    (returned_by : ∀ holder, kind = .recordset holder →
      ∃ connection, (holder, .statement connection) ∈ world.kinds)
    (allowed : ∀ before left, Past world.kinds world.used before left →
      Usage.acceptAll ⟨connections world.kinds, statements world.kinds, left, before⟩ calls =
        some ⟨connections ((name, kind) :: world.kinds), statements ((name, kind) :: world.kinds),
          left, before⟩)
    (taken : world.make thread name kind calls = some next) : Orderly next := by
  unfold World.make at taken
  obtain ⟨heap, stepped, same⟩ := Option.map_eq_some_iff.mp taken
  obtain ⟨copied, first, create⟩ := Option.bind_eq_some_iff.mp stepped
  have before : copied.Counted ∧ copied.shape = world.heap.shape ∧
      copied.deleted = world.heap.deleted := by
    cases members : kind.members with
    | nil =>
        rw [members] at first
        cases first
        exact ⟨orderly.counted, rfl, rfl⟩
    | cons holder rest =>
        rw [members] at first
        exact ⟨RefCount.Heap.step_counted orderly.counted first,
          RefCount.Heap.touch_shape first (.inl ⟨thread, holder, [], rfl⟩)⟩
  have after := RefCount.Heap.create_shape create
  subst same
  constructor
  case counted => exact RefCount.Heap.step_counted before.1 create
  case shape =>
    rw [after.1, before.2.1, orderly.shape]
    rfl
  case prepared_on =>
    intro other holder member
    rcases List.mem_cons.mp member with here | old
    · exact List.mem_cons_of_mem _ (prepared_on holder (Prod.mk.inj here).2.symm)
    · exact List.mem_cons_of_mem _ (orderly.prepared_on other holder old)
  case returned_by =>
    intro other holder member
    have there : ∃ connection, (holder, .statement connection) ∈ world.kinds := by
      rcases List.mem_cons.mp member with here | old
      · exact returned_by holder (Prod.mk.inj here).2.symm
      · exact orderly.returned_by other holder old
    obtain ⟨connection, statement⟩ := there
    exact ⟨connection, List.mem_cons_of_mem _ statement⟩
  case used =>
    intro other member
    rcases List.mem_cons.mp member with here | old
    · exact here ▸ List.mem_cons_self
    · exact List.mem_cons_of_mem _ (orderly.used other old)
  case gone =>
    intro other member
    rw [after.2, before.2.2] at member
    exact List.mem_cons_of_mem _ (orderly.gone other member)
  case calls =>
    obtain ⟨finished, left, accepted, past⟩ := orderly.calls
    refine ⟨finished, left, ?_, ?_, ?_, ?_⟩
    · rw [acceptAll_append, accepted]
      exact allowed finished left past
    · intro other member
      obtain ⟨used, closed⟩ := past.closed other member
      refine ⟨List.mem_cons_of_mem _ used, fun key => ?_⟩
      rcases List.mem_cons.mp key with here | before
      · exact fresh ((Prod.mk.inj here).1 ▸ used)
      · exact closed before
    · exact fun other holder member => List.mem_cons_of_mem _ (past.named other holder member)
    · exact fun other holder member => List.mem_cons_of_mem _ (past.open_on other holder member)

/-- An object is deleted: nothing that holds it is left. -/
theorem deleted (orderly : Orderly world) {thread : ThreadId} {name : Instance} {kind : Kind}
    {done : Bool} {heap : RefCount.Heap ThreadId Instance}
    (taken : world.heap.step (.delete thread name) = some heap)
    (found : world.kinds.lookup name = some kind) :
    Orderly
      { world with
        heap := heap
        kinds := world.kinds.filter fun entry => entry.1 ≠ name
        calls := world.calls ++ kind.atEnd name done } := by
  have after := RefCount.Heap.delete_shape orderly.counted taken
  have here := Assoc.mem_of_lookup found
  -- what holds an object has another name
  have free : ∀ other (held : Kind), (other, held) ∈ world.kinds → name ∉ held.members := by
    intro other held member holds
    exact after.2.2 (orderly.member_pointer member holds)
  have stays : ∀ {other : Instance} {held : Kind}, (other, held) ∈ world.kinds → other ≠ name →
      (other, held) ∈ world.kinds.filter fun entry => entry.1 ≠ name := by
    intro other held member different
    exact List.mem_filter.mpr ⟨member, by simpa using different⟩
  constructor
  case counted => exact RefCount.Heap.step_counted orderly.counted taken
  case shape =>
    rw [after.1, orderly.shape, List.filter_map]
    rfl
  case prepared_on =>
    intro other holder member
    have old := (List.mem_filter.mp member).1
    apply stays (orderly.prepared_on other holder old)
    intro same
    exact free other (.statement holder) old (by simp [Kind.members, same])
  case returned_by =>
    intro other holder member
    have old := (List.mem_filter.mp member).1
    obtain ⟨connection, statement⟩ := orderly.returned_by other holder old
    refine ⟨connection, stays statement ?_⟩
    intro same
    exact free other (.recordset holder) old (by simp [Kind.members, same])
  case used =>
    intro other member
    exact orderly.used other ((List.filter_sublist.map Prod.fst).subset member)
  case gone =>
    intro other member
    dsimp only at member
    rw [after.2.1] at member
    rcases List.mem_cons.mp member with same | old
    · exact orderly.used other (same ▸ List.mem_map_of_mem here)
    · exact orderly.gone other old
  case calls =>
    obtain ⟨finished, left, accepted, past⟩ := orderly.calls
    dsimp only
    rw [acceptAll_append, accepted, connections_remove, statements_remove, Option.bind_some]
    -- of each name there is one object
    have only : ∀ {held : Kind}, (name, held) ∈ world.kinds → held = kind := by
      intro held member
      have same := Assoc.lookup_of_mem orderly.distinct member
      rw [found] at same
      exact (Option.some.inj same).symm
    have closed : ∀ other ∈ finished, other ∈ world.used ∧
        (other, .connection) ∉ world.kinds.filter fun entry => entry.1 ≠ name := by
      intro other member
      obtain ⟨used, gone⟩ := past.closed other member
      exact ⟨used, fun key => gone (List.mem_filter.mp key).1⟩
    have other_connections : kind ≠ .connection →
        (connections world.kinds).filter (fun other => other ≠ name) =
          connections world.kinds := by
      intro different
      apply List.filter_eq_self.mpr
      intro other member
      have named : other ≠ name := by
        intro same
        exact different (only (same ▸ mem_connections.mp member)).symm
      simpa using named
    have other_statements : (∀ holder, kind ≠ .statement holder) →
        (statements world.kinds).filter (fun entry => entry.1 ≠ name) =
          statements world.kinds := by
      intro different
      apply List.filter_eq_self.mpr
      intro entry member
      obtain ⟨other, holder⟩ := entry
      have named : other ≠ name := by
        intro same
        exact different holder (only (same ▸ mem_statements.mp member)).symm
      simpa using named
    -- a connection stays unless it is the object
    have open_on : ∀ {holder : Instance}, holder ≠ name → (holder, .connection) ∈ world.kinds →
        (holder, .connection) ∈ world.kinds.filter fun entry => entry.1 ≠ name :=
      fun different member => stays member different
    cases kind with
    | connection =>
        have opened := mem_connections.mpr here
        have unprepared : name ∉ (statements world.kinds).map Prod.snd := by
          intro member
          obtain ⟨⟨other, holder⟩, inside, same⟩ := List.mem_map.mp member
          exact free other (.statement holder) (mem_statements.mp inside)
            (by simpa [Kind.members] using same.symm)
        rw [other_statements (by simp)]
        refine ⟨name :: finished, left.filter fun entry => entry.2 ≠ name, ?_, ?_, ?_, ?_⟩
        · rw [Kind.atEnd, Usage.acceptAll, Usage.accept, if_pos ⟨opened, unprepared⟩]
          rfl
        · intro other member
          rcases List.mem_cons.mp member with same | before
          · refine ⟨orderly.used other (same ▸ List.mem_map_of_mem here), ?_⟩
            rw [same]
            simp
          · exact closed other before
        · exact fun other holder member => past.named other holder (List.mem_filter.mp member).1
        · intro other holder member
          obtain ⟨before, different⟩ := List.mem_filter.mp member
          exact open_on (by simpa using different) (past.open_on other holder before)
    | statement holder =>
        have prepared := mem_statements.mpr here
        have connection := orderly.prepared_on name holder here
        have apart : ∀ {other : Instance}, (other, .connection) ∈ world.kinds → other ≠ name := by
          intro other member same
          cases only (same ▸ member)
        rw [other_connections (by simp)]
        refine ⟨finished, if done then left else (name, holder) :: left, ?_, closed, ?_, ?_⟩
        · rw [Kind.atEnd, Usage.acceptAll, Usage.accept,
            if_pos ⟨mem_connections.mpr connection, prepared⟩]
          rfl
        · intro other owner member
          split at member
          · exact past.named other owner member
          · rcases List.mem_cons.mp member with same | before
            · cases same
              exact orderly.used _ (List.mem_map_of_mem here)
            · exact past.named other owner before
        · intro other owner member
          have there : (owner, .connection) ∈ world.kinds := by
            split at member
            · exact past.open_on other owner member
            · rcases List.mem_cons.mp member with same | before
              · cases same
                exact connection
              · exact past.open_on other owner before
          exact open_on (apart there) there
    | recordset holder =>
        have apart : ∀ {other : Instance}, (other, .connection) ∈ world.kinds → other ≠ name := by
          intro other member same
          cases only (same ▸ member)
        rw [other_connections (by simp), other_statements (by simp)]
        refine ⟨finished, left, rfl, closed, past.named, fun other owner member => ?_⟩
        have there := past.open_on other owner member
        exact open_on (apart there) there

theorem stepped (orderly : Orderly world) {action : Action} {next : World}
    (taken : world.step action = some next) : Orderly next := by
  cases action with
  | connect thread name done =>
      simp only [World.step] at taken
      split at taken
      · rename_i fresh
        have unopened : name ∉ connections world.kinds := fun opened =>
          fresh (orderly.used name (List.mem_map_of_mem (mem_connections.mp opened)))
        have closed : ∀ before left, Past world.kinds world.used before left →
            name ∉ connections world.kinds ∧ name ∉ before :=
          fun before left past => ⟨unopened, fun member => fresh (past.closed name member).1⟩
        split at taken
        · apply orderly.made fresh (by simp) (by simp) _ taken
          intro before left past
          rw [Usage.acceptAll, Usage.accept, if_pos (closed before left past)]
          rfl
        · cases taken
          apply orderly.called [name] [name] _ (by simpa using fresh)
          intro before left past
          have new := closed before left past
          have unprepared : name ∉ (statements world.kinds).map Prod.snd := by
            intro member
            obtain ⟨⟨other, holder⟩, inside, same⟩ := List.mem_map.mp member
            have statement := mem_statements.mp inside
            apply new.1
            rw [mem_connections, ← same]
            exact orderly.prepared_on other holder statement
          have others : (connections world.kinds).filter (fun other => other ≠ name) =
              connections world.kinds := by
            apply List.filter_eq_self.mpr
            intro other member
            have named : other ≠ name := fun same => new.1 (same ▸ member)
            simpa using named
          have stays : left.filter (fun entry => entry.2 ≠ name) = left := by
            apply List.filter_eq_self.mpr
            intro entry member
            have there := mem_connections.mpr (past.open_on entry.1 entry.2 member)
            have named : entry.2 ≠ name := fun same => new.1 (same ▸ there)
            simpa using named
          rw [Usage.acceptAll, Usage.accept, if_pos new, Option.bind_some, Usage.acceptAll,
            Usage.accept, if_pos ⟨List.mem_cons_self, unprepared⟩, Option.bind_some, Usage.acceptAll]
          dsimp only
          rw [List.filter_cons_of_neg (by simp), others, stays]
          rfl
      · cases taken
  | executeDirect thread connection =>
      simp only [World.step] at taken
      split at taken
      · rename_i allowed
        cases taken
        apply orderly.called [] [] _ (by simp)
        intro before left _
        rw [Usage.acceptAll, Usage.accept, if_pos (mem_connections.mpr allowed.2)]
        rfl
      · cases taken
  | createStatement thread connection name done =>
      simp only [World.step] at taken
      split at taken
      · rename_i allowed
        have opened := mem_connections.mpr allowed.2.1
        have unprepared : name ∉ (statements world.kinds).map Prod.fst := by
          intro member
          obtain ⟨⟨other, holder⟩, inside, same⟩ := List.mem_map.mp member
          apply allowed.2.2
          rw [← same]
          exact orderly.used other (List.mem_map_of_mem (mem_statements.mp inside))
        have never : ∀ before left, Past world.kinds world.used before left →
            name ∉ left.map Prod.fst := by
          intro before left past member
          obtain ⟨⟨other, holder⟩, inside, same⟩ := List.mem_map.mp member
          apply allowed.2.2
          rw [← same]
          exact past.named other holder inside
        split at taken
        · apply orderly.made allowed.2.2 _ (by simp) _ taken
          · intro holder same
            cases same
            exact allowed.2.1
          · intro before left past
            rw [Usage.acceptAll, Usage.accept,
              if_pos ⟨opened, unprepared, never before left past⟩]
            rfl
        · cases taken
          apply orderly.called [name] [] _ (by simp)
          intro before left past
          rw [Usage.acceptAll, Usage.accept, if_pos ⟨opened, unprepared, never before left past⟩]
          rfl
      · cases taken
  | execute thread statement name done =>
      simp only [World.step] at taken
      split at taken
      · rename_i allowed
        split at taken
        · rename_i connection found
          have there := Assoc.mem_of_lookup found
          have prepared := mem_statements.mpr there
          have opened := mem_connections.mpr (orderly.prepared_on statement connection there)
          split at taken
          · apply orderly.made allowed.2 (by simp) _ _ taken
            · intro holder same
              cases same
              exact ⟨connection, there⟩
            · intro before left _
              rw [Usage.acceptAll, Usage.accept, if_pos ⟨opened, prepared⟩]
              rfl
          · cases taken
            apply orderly.called [name] [] _ (by simp)
            intro before left _
            rw [Usage.acceptAll, Usage.accept, if_pos ⟨opened, prepared⟩]
            rfl
        · cases taken
      · cases taken
  | share thread source name =>
      obtain ⟨heap, stepped, same⟩ := Option.map_eq_some_iff.mp taken
      subst same
      have kept := RefCount.Heap.touch_shape stepped (.inr (.inl ⟨thread, source, name, rfl⟩))
      exact orderly.touched (RefCount.Heap.step_counted orderly.counted stepped) kept.1 kept.2
  | drop thread name =>
      obtain ⟨heap, stepped, same⟩ := Option.map_eq_some_iff.mp taken
      subst same
      have kept := RefCount.Heap.touch_shape stepped (.inr (.inr ⟨thread, name, rfl⟩))
      exact orderly.touched (RefCount.Heap.step_counted orderly.counted stepped) kept.1 kept.2
  | delete thread name done =>
      obtain ⟨heap, stepped, removed⟩ := Option.bind_eq_some_iff.mp taken
      obtain ⟨kind, found, same⟩ := Option.map_eq_some_iff.mp removed
      subst same
      exact orderly.deleted stepped found

end Orderly

theorem run_orderly {actions : List Action} {world last : World} (orderly : Orderly world)
    (reached : Transition.run World.step world actions = some last) : Orderly last := by
  apply Transition.run_invariant _ orderly _ reached
  · exact fun _ _ => True
  · intro state action next holds _ taken
    exact holds.stepped taken
  · exact Transition.along_of_mem actions (fun _ _ _ => trivial) world

/-- A recordset holds a statement, and a statement a connection. -/
def Kind.rank : Kind → Nat
  | .connection => 0
  | .statement _ => 1
  | .recordset _ => 2

def World.rank (world : World) (name : Instance) : Nat :=
  match world.kinds.lookup name with
  | some kind => kind.rank
  | none => 0

end Mif.Db.PostgreSql
