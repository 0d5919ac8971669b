import Mif.Service.LifetimeLocator

set_option autoImplicit false

/- In every run of the threads an object is there as long as there is a pointer to it, no
thread comes to a step that it cannot do, and each call has its outcome. -/
namespace Mif.Service.Lifetime

open RefCount

variable {classes : Classes} {world : World}

namespace World

/-- The pointers a thread has when its call is over, should it begin the call now. -/
def outcome (classes : Classes) (world : World) (thread : ThreadId) : Call → Hand
  | .receive _ name => gain name (handOf world.heap thread)
  | .copy name => gain name (handOf world.heap thread)
  | .drop name => lose name (handOf world.heap thread)
  | .make name _ type =>
      if classes.has name type then gain name (handOf world.heap thread)
      else handOf world.heap thread
  | .query name type remote made =>
      match search classes world.heap.cells type remote name with
      | none => handOf world.heap thread
      | some (path, false) => gain (path.getLastD name) (handOf world.heap thread)
      | some (_, true) => gain made (handOf world.heap thread)
  | .add _ _ => handOf world.heap thread
  | .put _ _ _ => handOf world.heap thread
  | .get container id =>
      match (world.services container).lookup id with
      | none => handOf world.heap thread
      | some service => gain service (handOf world.heap thread)
  | .remove _ _ => handOf world.heap thread
  | .clear _ => handOf world.heap thread

end World

theorem receive_hand {heap next : Heap} {thread source : ThreadId} {name : Instance}
    (taken : heap.step (.share thread source name) = some next) :
    handOf next thread = gain name (handOf heap thread) := by
  simp only [RefCount.Heap.step] at taken
  split at taken
  · cases taken
    funext other
    simp only [handOf, gain]
    rw [count_cons_hand]
  · cases taken

/-- A call begins in an orderly world, and leads to its outcome. -/
theorem Orderly.begun (orderly : Orderly classes world) (mapped : Mapped classes world)
    {thread : ThreadId} (idle : world.Idle thread) {call : Call} {next : World}
    (taken : world.begin classes thread call = some next) :
    Orderly classes next ∧ next.promised thread = some (world.outcome classes thread call) ∧
      ∀ other, other ≠ thread → next.promised other = world.promised other := by
  have planned : ∀ {ops made result services},
      Plan classes world.heap thread ops made result → (∀ name ∈ made, name ∉ world.used) →
      made.Nodup →
      next = { world.doing thread ops with used := made ++ world.used, services := services } →
      Orderly classes next ∧ next.promised thread = some result ∧
        ∀ other, other ≠ thread → next.promised other = world.promised other := by
    intro ops made result services plan new once same
    subst same
    refine ⟨(orderly.planned idle plan new once).mapping services, ?_, ?_⟩
    · exact (promised_doing_self world thread ops world.heap _ services).trans plan.ends
    · intro other different
      exact promised_doing_other different ops world.heap _ services rfl
  cases call with
  | receive source name =>
      simp only [World.begin] at taken
      obtain ⟨heap, stepped, same⟩ := Option.map_eq_some_iff.mp taken
      subst same
      have own : threadOf (.share thread source name) = thread := rfl
      refine ⟨?_, ?_, fun other different => ?_⟩
      · apply orderly.performed own stepped (by simp) (by simp) rfl (by simp) (by simp [Flat])
        · simp [creates]
        · simp [creates]
      · exact (promised_doing_self world thread [] heap world.used world.services).trans
          (congrArg some (receive_hand stepped))
      · exact promised_doing_other different [] heap world.used world.services
          (step_hand_other (fun equal => different (equal.symm.trans own)) stepped)
  | copy name =>
      simp only [World.begin] at taken
      split at taken
      · rename_i held
        cases taken
        exact planned (plan_copy held) (by simp) (by simp) rfl
      · cases taken
  | drop name =>
      simp only [World.begin] at taken
      split at taken
      · rename_i held
        cases taken
        exact planned (plan_drop held) (by simp) (by simp) rfl
      · cases taken
  | make name members type =>
      simp only [World.begin] at taken
      split at taken
      · rename_i allowed
        cases taken
        exact planned (plan_make allowed.2.1) (by simpa using allowed.1) (by simp) rfl
      · cases taken
  | query name type remote made =>
      simp only [World.begin] at taken
      split at taken
      · rename_i allowed
        split at taken
        · rename_i found
          cases taken
          rw [World.outcome, found]
          exact planned plan_nothing (by simp) (by simp) rfl
        · rename_i path found
          cases taken
          rw [World.outcome, found]
          exact planned (plan_query_own allowed.1 (leads_of_search found).1) (by simp) (by simp) rfl
        · rename_i path found
          split at taken
          · cases taken
          · rename_i manager first
            split at taken
            · cases taken
              rw [World.outcome, found]
              obtain ⟨cell, there, head⟩ := Option.bind_eq_some_iff.mp first
              have answer := leads_of_search found
              have isProxy : classes.kind (path.getLastD name) = .proxy := answer.2.1
              have leads := leads_append answer.1 (by rw [isProxy]; simp) there
                (List.mem_of_mem_head? head)
              exact planned (plan_query_proxy allowed.1 leads) (by simpa using allowed.2) (by simp)
                rfl
            · cases taken
      · cases taken
  | add external service =>
      simp only [World.begin] at taken
      split at taken
      · rename_i allowed
        cases taken
        exact planned (plan_add allowed.2.2.2 allowed.2.2.1) (by simp) (by simp) rfl
      · cases taken
  | put container id service =>
      simp only [World.begin] at taken
      split at taken
      · rename_i allowed
        cases taken
        exact orderly.locked (section_put mapped orderly allowed.1 allowed.2.1 allowed.2.2)
      · cases taken
  | get container id =>
      simp only [World.begin] at taken
      split at taken
      · rename_i allowed
        split at taken
        · rename_i absent
          cases taken
          rw [World.outcome, absent]
          exact planned plan_nothing (by simp) (by simp) rfl
        · rename_i service found
          cases taken
          rw [World.outcome, found]
          exact orderly.locked (section_get mapped orderly allowed.1 allowed.2 found)
      · cases taken
  | remove container id =>
      simp only [World.begin] at taken
      split at taken
      · rename_i allowed
        split at taken
        · cases taken
          exact planned plan_nothing (by simp) (by simp) rfl
        · rename_i service found
          cases taken
          exact orderly.locked (section_remove mapped orderly allowed.1 allowed.2 found)
      · cases taken
  | clear container =>
      simp only [World.begin] at taken
      split at taken
      · rename_i allowed
        cases taken
        by_cases filled : world.services container = []
        · simp only [filled, List.map_nil, World.locked, Transition.run_nil] at planned ⊢
          exact planned plan_nothing (by simp) (by simp) rfl
        · exact orderly.locked (section_clear mapped orderly allowed.1 allowed.2 filled)
      · cases taken

/-- A thread goes on, and every thread is promised what it was. -/
theorem Orderly.gone_on (orderly : Orderly classes world) {thread : ThreadId} {next : World}
    (taken : world.goOn thread = some next) :
    Orderly classes next ∧ ∀ other, next.promised other = world.promised other := by
  unfold World.goOn at taken
  split at taken
  · rename_i worker name found
    have same : worker = thread := by simpa using List.find?_some found
    subst same
    obtain ⟨cell, heap, there, stepped, hand, kept⟩ :=
      orderly.deleted (List.mem_of_find?_eq_some found)
    rw [there, stepped] at taken
    cases taken
    have own : threadOf (.delete worker name) = worker := rfl
    refine ⟨kept, fun other => ?_⟩
    by_cases same : other = worker
    · subst same
      have promise := promised_doing_self world other
        ((cell.members.map fun member => .drop other member) ++ world.todo other) heap world.used world.services
      rw [hand, after_drops] at promise
      exact promise
    · exact promised_doing_other same _ heap world.used world.services
        (step_hand_other (fun equal => same (equal.symm.trans own)) stepped)
  · rename_i settled
    cases todo : world.todo thread with
    | nil =>
        rw [todo] at taken
        cases taken
    | cons op rest =>
        have own := orderly.mine thread op (todo ▸ List.mem_cons_self)
        have going := orderly.going thread
        rw [todo, after] at going
        obtain ⟨result, ends⟩ := Option.isSome_iff_exists.mp going
        obtain ⟨hand, allowed, later⟩ := Option.bind_eq_some_iff.mp ends
        obtain ⟨heap, stepped, held⟩ := perform orderly.counted own allowed
          (fun first path same =>
            follow_of_leads (orderly.leads thread thread first path rest (same ▸ todo)))
          (fun name members same => by
            apply orderly.fresh thread name
            rw [todo, same]
            exact mem_creates List.mem_cons_self)
        rw [todo] at taken
        dsimp only at taken
        rw [stepped] at taken
        cases taken
        constructor
        · apply orderly.performed own stepped
          · intro worker name same
            rw [same] at allowed
            cases allowed
          · intro worker owner moved same
            rw [same] at allowed
            cases allowed
          · rw [held, later]
            rfl
          · exact fun other member => orderly.mine thread other (todo ▸ List.mem_cons_of_mem _ member)
          · exact orderly.flat thread op rest todo
          · exact fun name member => todo ▸ member
          · exact todo ▸ orderly.once thread
        · intro other
          by_cases same : other = thread
          · subst same
            have promise := promised_doing_self world other rest heap world.used world.services
            have before : world.promised other = some result := by
              rw [World.promised, todo, after]
              exact ends
            rw [held, later, ← before] at promise
            exact promise
          · exact promised_doing_other same rest heap world.used world.services
              (step_hand_other (fun equal => same (equal.symm.trans own)) stepped)

theorem step_orderly (orderly : Orderly classes world) (mapped : Mapped classes world)
    {turn : Turn} {next : World} (taken : world.step classes turn = some next) :
    Orderly classes next ∧ Mapped classes next := by
  cases turn with
  | call thread call =>
      simp only [World.step] at taken
      split at taken
      · rename_i idle
        exact ⟨(orderly.begun mapped idle taken).1, mapped.begun orderly taken⟩
      · cases taken
  | go thread => exact ⟨(orderly.gone_on taken).1, mapped.gone_on orderly taken⟩

theorem run_orderly {turns : List Turn} {last : World}
    (reached : Transition.run (World.step classes) World.new turns = some last) :
    Orderly classes last ∧ Mapped classes last := by
  apply Transition.run_invariant _ ⟨new_orderly classes, new_mapped classes⟩ _ reached
  · exact fun _ _ => True
  · intro state turn next holds _ taken
    exact step_orderly holds.1 holds.2 taken
  · exact Transition.along_of_mem turns (fun _ _ _ => trivial) World.new

/-- What the others do does not change what a thread is promised. -/
theorem run_promised {turns : List Turn} {last : World} {thread : ThreadId}
    (orderly : Orderly classes world) (mapped : Mapped classes world)
    (alone : ∀ call, .call thread call ∉ turns)
    (reached : Transition.run (World.step classes) world turns = some last) :
    last.promised thread = world.promised thread := by
  induction turns generalizing world with
  | nil =>
      cases reached
      rfl
  | cons turn rest ih =>
      obtain ⟨next, taken, later⟩ :=
        (Transition.run_cons_eq_some _ world last turn rest).mp reached
      have same : next.promised thread = world.promised thread := by
        cases turn with
        | call worker call =>
            simp only [World.step] at taken
            split at taken
            · rename_i idle
              have different : thread ≠ worker := by
                intro same
                exact alone call (same ▸ List.mem_cons_self)
              exact (orderly.begun mapped idle taken).2.2 thread different
            · cases taken
        | go worker => exact (orderly.gone_on taken).2 thread
      have kept := step_orderly orderly mapped taken
      rw [ih kept.1 kept.2 (fun call member => alone call (List.mem_cons_of_mem _ member)) later, same]

/-- No counter of a deleted object is touched, every counter is the number of pointers there
are, an object without pointers is about to be deleted, and none is deleted twice. When the
threads give up what they have, in any order, this ends, and the objects that are left are
those that cycles of members lead to. -/
structure Safe (world : World) : Prop where
  goes_on : world.stuck = false
  sound : world.heap.broken = false
  counted : ∀ name ∈ world.heap.pointers, ∃ cell,
    world.heap.cells.lookup name = some cell ∧ cell.counter = world.heap.pointers.count name
  unowned : ∀ name ∈ world.heap.cells.map Prod.fst, name ∉ world.heap.pointers →
    ∃ thread, (thread, name) ∈ world.heap.doomed
  deleted : ∀ name ∈ world.heap.deleted,
    name ∉ world.heap.pointers ∧ name ∉ world.heap.cells.map Prod.fst
  deleted_once : world.heap.deleted.Nodup
  given_up : ∀ actions rest, (∀ action ∈ actions, action.GivesUp) →
    Transition.run RefCount.Heap.step world.heap actions = some rest →
    actions.length ≤ world.heap.work ∧
      if rest.held = [] ∧ rest.doomed = [] then
        ∀ name, name ∈ rest.cells.map Prod.fst ↔ world.heap.Cyclic name
      else ∃ action, action.GivesUp ∧ (rest.step action).isSome

theorem Orderly.safe (orderly : Orderly classes world) : Safe world := by
  constructor
  case goes_on => exact orderly.sound
  case sound => exact orderly.counted.sound
  case counted =>
    intro name pointer
    obtain ⟨cell, found⟩ := orderly.counted.known name pointer
    exact ⟨cell, found, orderly.counted.exact name cell found⟩
  case unowned =>
    intro name key unknown
    obtain ⟨cell, found⟩ := lookup_of_key.mp key
    have zero : cell.counter = 0 := by
      rw [orderly.counted.exact name cell found]
      exact List.count_eq_zero.mpr unknown
    have doomed := (orderly.counted.doomed_iff name).mpr ⟨cell, found, zero⟩
    obtain ⟨⟨thread, other⟩, member, same⟩ := List.mem_map.mp doomed
    exact ⟨thread, same ▸ member⟩
  case deleted =>
    intro name removed
    have nothing := orderly.counted.gone name removed
    constructor
    · intro pointer
      obtain ⟨cell, found⟩ := orderly.counted.known name pointer
      rw [nothing] at found
      cases found
    · intro key
      obtain ⟨cell, found⟩ := lookup_of_key.mp key
      rw [nothing] at found
      cases found
  case deleted_once => exact orderly.counted.gone_once
  case given_up =>
    intro actions rest gives reached
    have ends := RefCount.Heap.giveUp_run orderly.counted gives reached
    have counted := RefCount.Heap.run_counted orderly.counted reached
    refine ⟨by omega, ?_⟩
    split
    · rename_i free
      intro name
      rw [lookup_of_key, counted.left_iff_cyclic free.1 free.2, ends.2]
    · rename_i busy
      apply RefCount.Heap.giveUp_enabled counted
      by_contra neither
      rw [not_or, not_not, not_not] at neither
      exact busy neither

/-- Service objects live as long as they are pointed to, whatever the threads do. -/
theorem references_safe (classes : Classes) (turns : List Turn) (last : World)
    (reached : Transition.run (World.step classes) World.new turns = some last) : Safe last :=
  (run_orderly reached).1.safe

/-- A service in an `External`, to which a second thread is given a pointer. -/
def sharedTurns : List Turn :=
  .call 1 (.make 10 [] 1) :: List.replicate 9 (.go 1) ++
    .call 1 (.make 11 [10] iService) :: List.replicate 10 (.go 1) ++ [.call 2 (.receive 1 11)]

/-- The second thread queries it while the first one drops its pointer. -/
def queryCall : Call := .query 11 1 (fun _ => false) 12

def queryTurns : List Turn := [.call 1 (.drop 11), .go 1, .go 2]

def sharedClasses : Classes where
  kind name := if name = 11 then .external 0 else .plain
  interfaces name := if name = 10 then [1] else []

theorem shared_references_safe :
    ∃ last, Transition.run (World.step sharedClasses) World.new
        (sharedTurns ++ .call 2 queryCall :: queryTurns ++
          [.call 2 (.drop 11), .go 2, .go 2, .go 2]) = some last ∧
      last.heap.deleted = [11] ∧ last.heap.held = [(2, 10), (1, 10)] ∧ Safe last := by
  have reached : (Transition.run (World.step sharedClasses) World.new
      (sharedTurns ++ .call 2 queryCall :: queryTurns ++
        [.call 2 (.drop 11), .go 2, .go 2, .go 2])).map
      (fun last => (last.heap.deleted, last.heap.held)) = some ([11], [(2, 10), (1, 10)]) := by
    decide +kernel
  obtain ⟨last, run, same⟩ := Option.map_eq_some_iff.mp reached
  have parts := Prod.mk.inj same
  exact ⟨last, run, parts.1, parts.2, references_safe sharedClasses _ last run⟩

/-- A call gives its thread the pointers it promises, whatever other threads do before it
is over. -/
theorem call_outcome (classes : Classes) (turns later : List Turn) (before begun last : World)
    (thread : ThreadId) (call : Call)
    (reached : Transition.run (World.step classes) World.new turns = some before)
    (begins : before.step classes (.call thread call) = some begun)
    (alone : ∀ other, .call thread other ∉ later)
    (ends : Transition.run (World.step classes) begun later = some last)
    (idle : last.Idle thread) :
    handOf last.heap thread = before.outcome classes thread call := by
  obtain ⟨orderly, mapped⟩ := run_orderly reached
  simp only [World.step] at begins
  split at begins
  · rename_i free
    obtain ⟨kept, promise, _⟩ := orderly.begun mapped free begins
    have same := run_promised kept (mapped.begun orderly begins) alone ends
    rw [promise, World.promised, idle.1] at same
    exact Option.some.inj same
  · cases begins

/-- The second thread has the pointers it had, and one to the service. -/
theorem shared_query_outcome :
    ∃ before last : World, before.outcome sharedClasses 2 queryCall 10 = 1 ∧
      handOf last.heap 2 = before.outcome sharedClasses 2 queryCall := by
  have reached :
      ((Transition.run (World.step sharedClasses) World.new sharedTurns).bind fun before =>
        (before.step sharedClasses (.call 2 queryCall)).bind fun begun =>
          (Transition.run (World.step sharedClasses) begun queryTurns).map fun last =>
            (before.outcome sharedClasses 2 queryCall 10, decide (last.Idle 2))) =
        some (1, true) := by
    decide +kernel
  obtain ⟨before, run, reached⟩ := Option.bind_eq_some_iff.mp reached
  obtain ⟨begun, begins, reached⟩ := Option.bind_eq_some_iff.mp reached
  obtain ⟨last, ends, same⟩ := Option.map_eq_some_iff.mp reached
  have parts := Prod.mk.inj same
  refine ⟨before, last, parts.1, ?_⟩
  exact call_outcome sharedClasses sharedTurns queryTurns before begun last 2 queryCall run begins
    (by simp [queryTurns]) ends (of_decide_eq_true parts.2)

end Mif.Service.Lifetime
