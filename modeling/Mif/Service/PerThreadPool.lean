import Mif.Lib.Assoc
import Mif.Lib.Interleaving

set_option autoImplicit false

/- `Service::Detail::PerThreadPool`. A call of `GetService` takes the lock for the search,
for the removal and for the insertion, and asks the service and the factory without it.
Each of these is a step, and the steps of the calling threads take turns in any order. -/
namespace Mif.Service

/-- `std::thread::id`, of threads whose ids are not used again when they have ended: the
entries of the map stay, and a later thread with such an id would get its services. -/
abbrev ThreadId := Nat

/-- A service object, by the order in which objects came to be. -/
abbrev Instance := Nat

namespace PerThreadPool

/-- What comes of asking a service whether it is good: it is not `ICheckable`, `IsGood`
returns, or something is thrown that is a `std::exception` or not. -/
inductive Answer
  | notCheckable
  | isGood (good : Bool)
  | throws
  | escapes
  deriving DecidableEq, Repr

/-- How a call ends: with the pointer it returns, which may be empty, or an exception. -/
inductive Result
  | returned (service : Option Instance)
  | thrown
  deriving DecidableEq, Repr

/-- Where a call is. -/
inductive Stage
  | finding
  | checking (service : Instance)
  | erasing (answer : Answer)
  | creating (answer : Answer)
  | storing (answer : Answer) (service : Option Instance)
  deriving DecidableEq, Repr

/-- A call that has ended, with what the service answered and the factory created. -/
structure Call where
  answer : Answer
  made : Option (Option Instance)
  result : Result
  deriving DecidableEq, Repr

/-- The steps of a call. The factory returns a pointer or throws. -/
inductive Action
  | call
  | find
  | check (answer : Answer)
  | erase
  | create (made : Option (Option Instance))
  | store
  deriving DecidableEq, Repr

end PerThreadPool

/-- `m_services`, the calls that are running, and what happened so far: the objects the
factory created, and the calls that have ended. -/
structure PerThreadPool where
  services : List (ThreadId × Option Instance)
  stages : List (ThreadId × PerThreadPool.Stage)
  made : List (ThreadId × Instance)
  calls : List (ThreadId × PerThreadPool.Call)
  deriving DecidableEq, Repr

namespace PerThreadPool

def new : PerThreadPool := ⟨[], [], [], []⟩

/-- The call of a thread goes on. -/
def goOn (pool : PerThreadPool) (thread : ThreadId) (stage : Stage) : PerThreadPool :=
  { pool with stages := (thread, stage) :: pool.stages.filter fun entry => entry.1 ≠ thread }

/-- The call of a thread ends. -/
def finish (pool : PerThreadPool) (thread : ThreadId) (call : Call) : PerThreadPool :=
  { pool with
    stages := pool.stages.filter fun entry => entry.1 ≠ thread
    calls := pool.calls ++ [(thread, call)] }

/-- `PerThreadPool::GetService`, one step of the call of a thread. -/
def step (pool : PerThreadPool) : ThreadId × Action → Option PerThreadPool
  | (thread, action) =>
      match pool.stages.lookup thread, action with
      | none, .call => some (pool.goOn thread .finding)
      | some .finding, .find =>
          match pool.services.lookup thread with
          | some (some service) => some (pool.goOn thread (.checking service))
          | _ => some (pool.goOn thread (.creating .notCheckable))
      | some (.checking service), .check answer =>
          match answer with
          | .notCheckable | .isGood true =>
              some (pool.finish thread ⟨answer, none, .returned (some service)⟩)
          | .isGood false | .throws => some (pool.goOn thread (.erasing answer))
          | .escapes => some (pool.finish thread ⟨answer, none, .thrown⟩)
      | some (.erasing answer), .erase =>
          let services := pool.services.filter fun entry => entry.1 ≠ thread
          some ({ pool with services := services }.goOn thread (.creating answer))
      | some (.creating answer), .create none =>
          some (pool.finish thread ⟨answer, none, .thrown⟩)
      | some (.creating answer), .create (some service) =>
          let made := pool.made ++ service.toList.map fun created => (thread, created)
          some ({ pool with made := made }.goOn thread (.storing answer service))
      | some (.storing answer service), .store =>
          -- `emplace` keeps the entry that is there
          let services := Assoc.insert thread service pool.services
          some ({ pool with services := services }.finish thread
            ⟨answer, some service, .returned service⟩)
      | _, _ => none

/-- The object the factory creates is a new one. -/
def Fresh (pool : PerThreadPool) : ThreadId × Action → Prop
  | (_, .create (some (some service))) => service ∉ pool.made.map Prod.snd
  | _ => True

instance (pool : PerThreadPool) : ∀ event, Decidable (pool.Fresh event)
  | (_, .create (some (some service))) =>
      inferInstanceAs (Decidable (service ∉ pool.made.map Prod.snd))
  | (_, .create (some none)) => isTrue trivial
  | (_, .create none) => isTrue trivial
  | (_, .call) => isTrue trivial
  | (_, .find) => isTrue trivial
  | (_, .check _) => isTrue trivial
  | (_, .erase) => isTrue trivial
  | (_, .store) => isTrue trivial

/-- The calls of a thread that have ended. -/
def callsOf (pool : PerThreadPool) (thread : ThreadId) : List Call :=
  Interleaving.own thread pool.calls

/-- The pool of a program with one thread: its entry, the call, and what happened. -/
structure Alone where
  entry : Option (Option Instance)
  stage : Option Stage
  made : List Instance
  calls : List Call
  deriving DecidableEq, Repr

/-- The same steps without other threads. -/
def Alone.step (alone : Alone) (action : Action) : Option Alone :=
  match alone.stage, action with
  | none, .call => some { alone with stage := some .finding }
  | some .finding, .find =>
      match alone.entry with
      | some (some service) => some { alone with stage := some (.checking service) }
      | _ => some { alone with stage := some (.creating .notCheckable) }
  | some (.checking service), .check answer =>
      match answer with
      | .notCheckable | .isGood true =>
          let call : Call := ⟨answer, none, .returned (some service)⟩
          some { alone with stage := none, calls := alone.calls ++ [call] }
      | .isGood false | .throws => some { alone with stage := some (.erasing answer) }
      | .escapes =>
          some { alone with stage := none, calls := alone.calls ++ [⟨answer, none, .thrown⟩] }
  | some (.erasing answer), .erase =>
      some { alone with entry := none, stage := some (.creating answer) }
  | some (.creating answer), .create none =>
      some { alone with stage := none, calls := alone.calls ++ [⟨answer, none, .thrown⟩] }
  | some (.creating answer), .create (some service) =>
      some { alone with stage := some (.storing answer service), made := alone.made ++ service.toList }
  | some (.storing answer service), .store =>
      let call : Call := ⟨answer, some service, .returned service⟩
      some { alone with
        entry := alone.entry.or (some service), stage := none, calls := alone.calls ++ [call] }
  | _, _ => none

/-- What a thread sees of the pool. -/
def view (thread : ThreadId) (pool : PerThreadPool) : Alone :=
  ⟨pool.services.lookup thread, pool.stages.lookup thread, Interleaving.own thread pool.made,
    Interleaving.own thread pool.calls⟩

/-- The entry after a creation, and the result of the call that made it. -/
def fill (entry : Option (Option Instance)) :
    Option (Option Instance) → Option (Option Instance) × Result
  | none => (entry, .thrown)
  | some service => (entry.or (some service), .returned service)

/-- The purpose of the pool, for one call of one thread: a service that is not known to be
bad is returned again, and otherwise a new one. -/
def serve (entry : Option (Option Instance)) (answer : Answer) (made : Option (Option Instance)) :
    Option (Option Instance) × Result :=
  match entry with
  | some (some service) =>
      match answer with
      | .notCheckable | .isGood true => (entry, .returned (some service))
      | .isGood false | .throws => fill none made
      | .escapes => (entry, .thrown)
  | _ => fill entry made

/-- The entry after some calls, when each of them ended as `serve` says. -/
def replay : Option (Option Instance) → List Call → Option (Option (Option Instance))
  | entry, [] => some entry
  | entry, call :: rest =>
      let (next, result) := serve entry call.answer call.made
      if result = call.result then replay next rest else none

section view

variable (pool : PerThreadPool) (thread other : ThreadId)

@[simp] theorem view_goOn (stage : Stage) :
    view thread (pool.goOn thread stage) = { view thread pool with stage := some stage } := by
  simp [view, goOn]

@[simp] theorem view_finish (call : Call) :
    view thread (pool.finish thread call) =
      { view thread pool with stage := none, calls := (view thread pool).calls ++ [call] } := by
  simp only [view, finish, Assoc.lookup_remove_self, Interleaving.own_append,
    Interleaving.own_cons_self, Interleaving.own_nil]

variable {thread other} (different : other ≠ thread)

include different

theorem view_goOn_other (stage : Stage) : view other (pool.goOn thread stage) = view other pool := by
  have missed : (other == thread) = false := by simpa using different
  simp only [view, goOn, List.lookup_cons, missed, Assoc.lookup_remove_ne different]

theorem view_finish_other (call : Call) :
    view other (pool.finish thread call) = view other pool := by
  simp only [view, finish, Assoc.lookup_remove_ne different, Interleaving.own_append,
    Interleaving.own_cons_other (Ne.symm different), Interleaving.own_nil, List.append_nil]

end view

/-- The creations of a thread among those of all. -/
theorem own_made (thread : ThreadId) (service : Option Instance) :
    Interleaving.own thread (service.toList.map fun created => (thread, created)) =
      service.toList := by
  cases service with
  | none => rfl
  | some created => simp

theorem own_made_other {thread other : ThreadId} (different : other ≠ thread)
    (service : Option Instance) :
    Interleaving.own other (service.toList.map fun created => (thread, created)) = [] := by
  cases service with
  | none => rfl
  | some created => simp [Interleaving.own, Ne.symm different]

/-- No step of a call depends on another thread or is noticed by one. -/
theorem separate : Interleaving.Separate step view Alone.step where
  acts := by
    intro pool thread action next stepped
    unfold step at stepped
    simp only at stepped
    split at stepped
    · rename_i stage
      have known : (view thread pool).stage = none := stage
      cases stepped
      rw [view_goOn]
      simp only [Alone.step, known]
    · rename_i stage
      have known : (view thread pool).stage = some .finding := stage
      simp only [Alone.step, known]
      split at stepped
      · rename_i service found
        have entry : (view thread pool).entry = some (some service) := found
        cases stepped
        rw [view_goOn]
        simp only [entry]
      · rename_i missing
        cases stepped
        rw [view_goOn]
        split
        · rename_i service found
          exact absurd found (missing service)
        · rfl
    · rename_i service answer stage
      have known : (view thread pool).stage = some (.checking service) := stage
      simp only [Alone.step, known]
      split at stepped
      · cases stepped
        rw [view_finish]
      · cases stepped
        rw [view_finish]
      · cases stepped
        rw [view_goOn]
      · cases stepped
        rw [view_goOn]
      · cases stepped
        rw [view_finish]
    · rename_i answer stage
      have known : (view thread pool).stage = some (.erasing answer) := stage
      simp only [Alone.step, known]
      cases stepped
      rw [view_goOn]
      simp only [view, Assoc.lookup_remove_self]
    · rename_i answer stage
      have known : (view thread pool).stage = some (.creating answer) := stage
      simp only [Alone.step, known]
      cases stepped
      rw [view_finish]
    · rename_i answer service stage
      have known : (view thread pool).stage = some (.creating answer) := stage
      simp only [Alone.step, known]
      cases stepped
      rw [view_goOn]
      simp only [view, Interleaving.own_append, own_made]
    · rename_i answer service stage
      have known : (view thread pool).stage = some (.storing answer service) := stage
      simp only [Alone.step, known]
      cases stepped
      rw [view_finish]
      simp [view, Assoc.lookup_insert]
    · cases stepped
  leaves := by
    intro pool thread action next other stepped different
    unfold step at stepped
    simp only at stepped
    split at stepped
    · cases stepped
      exact view_goOn_other pool different _
    · split at stepped
      all_goals
        cases stepped
        exact view_goOn_other pool different _
    · split at stepped
      all_goals cases stepped
      · exact view_finish_other pool different _
      · exact view_finish_other pool different _
      · exact view_goOn_other pool different _
      · exact view_goOn_other pool different _
      · exact view_finish_other pool different _
    · cases stepped
      rw [view_goOn_other _ different]
      simp only [view, Assoc.lookup_remove_ne different]
    · cases stepped
      exact view_finish_other pool different _
    · cases stepped
      rw [view_goOn_other _ different]
      simp only [view, Interleaving.own_append, own_made_other different, List.append_nil]
    · cases stepped
      rw [view_finish_other _ different]
      have missed : (other == thread) = false := by simpa using different
      simp [view, Assoc.lookup_insert, missed]
    · cases stepped

/-- One more call that ends as `serve` says. -/
theorem replay_snoc {calls : List Call} {start before after : Option (Option Instance)}
    {answer : Answer} {made : Option (Option Instance)} {result : Result}
    (done : replay start calls = some before) (served : serve before answer made = (after, result)) :
    replay start (calls ++ [⟨answer, made, result⟩]) = some after := by
  induction calls generalizing start with
  | nil =>
      cases done
      simp [replay, served]
  | cons call rest ih =>
      rw [replay] at done
      rw [List.cons_append, replay]
      split at done
      rename_i next ended reached
      split at done
      · rename_i same
        simp only [same, ↓reduceIte]
        exact ih done
      · cases done

/-- The calls so far ended as `serve` says, and the one that needs a creation will. -/
def Alone.Owes (alone : Alone) (answer : Answer) : Prop :=
  ∃ before, replay none alone.calls = some before ∧
    ∀ made, serve before answer made = fill alone.entry made

/-- How far the entry is from what the calls that have ended leave. -/
def Alone.Follows (alone : Alone) : Prop :=
  match alone.stage with
  | none | some .finding => replay none alone.calls = some alone.entry
  | some (.checking service) =>
      replay none alone.calls = some alone.entry ∧ alone.entry = some (some service)
  | some (.erasing answer) =>
      replay none alone.calls = some alone.entry ∧ (answer = .isGood false ∨ answer = .throws) ∧
        ∃ service, alone.entry = some (some service)
  | some (.creating answer) | some (.storing answer _) => alone.Owes answer

/-- Every object the thread can reach was created in one of its calls. -/
structure Alone.Owns (alone : Alone) : Prop where
  entry : ∀ service, alone.entry = some (some service) → service ∈ alone.made
  storing : ∀ answer service, alone.stage = some (.storing answer (some service)) →
    service ∈ alone.made
  returned : ∀ call ∈ alone.calls, ∀ service, call.result = .returned (some service) →
    service ∈ alone.made

/-- The call of a thread goes on with the same entry and the same objects. -/
theorem Alone.Owns.goOn {alone : Alone} (owns : alone.Owns) {stage : Option Stage}
    (idle : ∀ answer service, stage ≠ some (.storing answer (some service))) :
    Alone.Owns { alone with stage := stage } where
  entry := owns.entry
  storing answer service reached := absurd reached (idle answer service)
  returned := owns.returned

/-- A call ends without an object, or with one that was created for the thread. -/
theorem Alone.Owns.finish {alone : Alone} (owns : alone.Owns) {call : Call}
    (own : ∀ service, call.result = .returned (some service) → service ∈ alone.made) :
    Alone.Owns { alone with stage := none, calls := alone.calls ++ [call] } where
  entry := owns.entry
  storing answer service impossible := by cases impossible
  returned other member service returned := by
    rcases List.mem_append.mp member with old | last
    · exact owns.returned other old service returned
    · rw [List.mem_singleton.mp last] at returned
      exact own service returned

theorem Alone.step_owns (alone next : Alone) (action : Action) (owns : alone.Owns)
    (follows : alone.Follows) (stepped : alone.step action = some next) : next.Owns := by
  unfold Alone.step at stepped
  split at stepped
  · cases stepped
    exact owns.goOn (by simp)
  · split at stepped
    all_goals
      cases stepped
      exact owns.goOn (by simp)
  · rename_i service answer stage
    rw [Alone.Follows, stage] at follows
    have own : service ∈ alone.made := owns.entry service follows.2
    split at stepped
    · cases stepped
      apply owns.finish
      intro other same
      cases same
      exact own
    · cases stepped
      apply owns.finish
      intro other same
      cases same
      exact own
    · cases stepped
      exact owns.goOn (by simp)
    · cases stepped
      exact owns.goOn (by simp)
    · cases stepped
      exact owns.finish (by simp)
  · cases stepped
    exact ⟨by simp, by simp, owns.returned⟩
  · cases stepped
    exact owns.finish (by simp)
  · rename_i answer service stage
    cases stepped
    refine ⟨?_, ?_, ?_⟩
    · intro other entry
      exact List.mem_append_left _ (owns.entry other entry)
    · intro _ other same
      cases same
      simp
    · intro call member other returned
      exact List.mem_append_left _ (owns.returned call member other returned)
  · rename_i answer service stage
    have own : ∀ created, service = some created → created ∈ alone.made := by
      intro created same
      rw [same] at stage
      exact owns.storing answer created stage
    cases stepped
    refine ⟨?_, by simp, ?_⟩
    · intro other stored
      cases entry : alone.entry with
      | none =>
          simp only [entry, Option.none_or, Option.some.injEq] at stored
          exact own other stored
      | some old =>
          simp only [entry, Option.some_or, Option.some.injEq] at stored
          rw [stored] at entry
          exact owns.entry other entry
    · intro call member other returned
      rcases List.mem_append.mp member with old | last
      · exact owns.returned call old other returned
      · rw [List.mem_singleton.mp last] at returned
        simp only [Result.returned.injEq] at returned
        exact own other returned
  · cases stepped

theorem Alone.step_follows (alone next : Alone) (action : Action) (follows : alone.Follows)
    (stepped : alone.step action = some next) : next.Follows := by
  unfold Alone.step at stepped
  split at stepped
  · rename_i stage
    rw [Alone.Follows, stage] at follows
    cases stepped
    exact follows
  · rename_i stage
    rw [Alone.Follows, stage] at follows
    split at stepped
    · rename_i service entry
      cases stepped
      exact ⟨follows, entry⟩
    · rename_i missing
      cases stepped
      refine ⟨alone.entry, follows, ?_⟩
      intro made
      rw [serve]
      exact missing
  · rename_i service answer stage
    rw [Alone.Follows, stage] at follows
    obtain ⟨done, entry⟩ := follows
    split at stepped
    · cases stepped
      apply replay_snoc done
      rw [entry, serve]
    · cases stepped
      apply replay_snoc done
      rw [entry, serve]
    · cases stepped
      exact ⟨done, Or.inl rfl, service, entry⟩
    · cases stepped
      exact ⟨done, Or.inr rfl, service, entry⟩
    · cases stepped
      apply replay_snoc done
      rw [entry, serve]
  · rename_i answer stage
    rw [Alone.Follows, stage] at follows
    obtain ⟨done, bad, service, entry⟩ := follows
    cases stepped
    refine ⟨alone.entry, done, ?_⟩
    intro made
    rw [entry]
    rcases bad with rfl | rfl
    · rfl
    · rfl
  · rename_i answer stage
    rw [Alone.Follows, stage] at follows
    obtain ⟨before, done, served⟩ := follows
    cases stepped
    exact replay_snoc done (served none)
  · rename_i answer service stage
    rw [Alone.Follows, stage] at follows
    cases stepped
    exact follows
  · rename_i answer service stage
    rw [Alone.Follows, stage] at follows
    obtain ⟨before, done, served⟩ := follows
    cases stepped
    exact replay_snoc done (served (some service))
  · cases stepped

/-- A thread can reach an object: it is stored for it, or a call of it has returned it. -/
def Reaches (pool : PerThreadPool) (thread : ThreadId) (service : Instance) : Prop :=
  pool.services.lookup thread = some (some service) ∨
    ∃ call ∈ pool.callsOf thread, call.result = .returned (some service)

/-- No object was created twice. -/
def Distinct (pool : PerThreadPool) : Prop := (pool.made.map Prod.snd).Nodup

theorem step_made (pool : PerThreadPool) (event : ThreadId × Action) (next : PerThreadPool)
    (distinct : pool.Distinct) (fresh : pool.Fresh event)
    (stepped : step pool event = some next) : next.Distinct := by
  obtain ⟨thread, action⟩ := event
  unfold step at stepped
  simp only at stepped
  split at stepped
  · cases stepped
    exact distinct
  · split at stepped
    all_goals
      cases stepped
      exact distinct
  · split at stepped
    all_goals
      cases stepped
      exact distinct
  · cases stepped
    exact distinct
  · cases stepped
    exact distinct
  · rename_i answer service stage
    cases stepped
    cases service with
    | none => simpa [Distinct, goOn] using distinct
    | some created =>
        have unseen : created ∉ pool.made.map Prod.snd := fresh
        simp only [Distinct, goOn, Option.toList_some, List.map_cons, List.map_nil, List.map_append]
        rw [List.nodup_append_comm]
        exact List.nodup_cons.mpr ⟨unseen, distinct⟩
  · cases stepped
    exact distinct
  · cases stepped

/-- The invariant of one thread. -/
def Alone.Holds (alone : Alone) : Prop := alone.Follows ∧ alone.Owns

theorem Alone.step_holds (alone : Alone) (action : Action) (next : Alone) (held : alone.Holds)
    (stepped : alone.step action = some next) : next.Holds :=
  ⟨step_follows alone next action held.1 stepped,
    step_owns alone next action held.2 held.1 stepped⟩

/-- Each thread keeps its invariant, whatever the others do. -/
theorem view_holds (events : List (ThreadId × Action)) (pool : PerThreadPool)
    (reached : Transition.run step new events = some pool) (thread : ThreadId) :
    (view thread pool).Holds := by
  apply Interleaving.view_invariant separate Alone.step_holds thread _ reached
  refine ⟨rfl, ?_, ?_, ?_⟩
  · intro service impossible
    cases impossible
  · intro answer service impossible
    cases impossible
  · intro call member
    cases member

/-- In every order of the steps of all threads, the calls of a thread end as in a pool of
its own, and no object is ever reached by two threads. -/
theorem threads_served_apart (events : List (ThreadId × Action)) (pool : PerThreadPool)
    (fresh : Transition.Along step Fresh new events)
    (reached : Transition.run step new events = some pool) :
    (∀ thread, pool.stages.lookup thread = none →
      replay none (pool.callsOf thread) = some (pool.services.lookup thread)) ∧
    ∀ first second service, pool.Reaches first service → pool.Reaches second service →
      first = second := by
  have holds := view_holds events pool reached
  refine ⟨?_, ?_⟩
  · intro thread idle
    have follows := (holds thread).1
    have stage : (view thread pool).stage = none := idle
    rw [Alone.Follows, stage] at follows
    exact follows
  · intro first second service reachedFirst reachedSecond
    have none : new.Distinct := List.nodup_nil
    have distinct : pool.Distinct := Transition.run_invariant step_made none fresh reached
    have created : ∀ thread, pool.Reaches thread service → (thread, service) ∈ pool.made := by
      intro thread reaches
      have owns := (holds thread).2
      apply Interleaving.mem_own.mp
      rcases reaches with stored | ⟨call, member, returned⟩
      · exact owns.entry service stored
      · exact owns.returned call member service returned
    have same := List.inj_on_of_nodup_map distinct (created first reachedFirst)
      (created second reachedSecond) rfl
    exact congrArg Prod.fst same

/-- Two threads: the first finds its service bad in its second call. -/
def sampleCalls : List (ThreadId × Action) :=
  [(1, .call), (2, .call), (1, .find), (2, .find), (1, .create (some (some 0))),
    (2, .create (some (some 1))), (2, .store), (1, .store), (1, .call), (2, .call), (1, .find),
    (1, .check (.isGood false)), (2, .find), (2, .check (.isGood true)), (1, .erase),
    (1, .create (some (some 2))), (1, .store)]

/-- The pool after these steps. -/
def sampleEnd : PerThreadPool where
  services := [(2, some 1), (1, some 2)]
  stages := []
  made := [(1, 0), (2, 1), (1, 2)]
  calls :=
    [(2, ⟨.notCheckable, some (some 1), .returned (some 1)⟩),
      (1, ⟨.notCheckable, some (some 0), .returned (some 0)⟩),
      (2, ⟨.isGood true, none, .returned (some 1)⟩),
      (1, ⟨.isGood false, some (some 2), .returned (some 2)⟩)]

theorem two_threads_served_apart :
    Transition.run step new sampleCalls = some sampleEnd ∧
      replay none (sampleEnd.callsOf 1) = some (some (some 2)) ∧ ¬ sampleEnd.Reaches 2 2 := by
  have reached : Transition.run step new sampleCalls = some sampleEnd := by decide
  have apart := threads_served_apart sampleCalls sampleEnd (by decide) reached
  refine ⟨reached, apart.1 1 rfl, ?_⟩
  intro reaches
  have same := apart.2 1 2 2 (Or.inl rfl) reaches
  exact absurd same (by decide)

end PerThreadPool

end Mif.Service
