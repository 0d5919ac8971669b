import Mif.Service.LifetimePlans

set_option autoImplicit false

/- What is done under the lock of a locator goes through, and its map and its members stay
the same services. -/
namespace Mif.Service.Lifetime

open RefCount

variable {classes : Classes} {world : World}

/-- A step of a thread that has the lock of a locator. -/
inductive UnderLock (thread : ThreadId) (container : Instance) : Action → Prop
  | copy (first : Instance) (path : List Instance) :
      UnderLock thread container (.copy thread first path)
  | drop (name : Instance) : UnderLock thread container (.drop thread name)
  | store (name : Instance) : UnderLock thread container (.store thread container name)
  | take (name : Instance) : UnderLock thread container (.take thread container name)

/-- A step that copies a pointer of the thread or drops it. -/
inductive Light (thread : ThreadId) : Action → Prop
  | copy (name : Instance) : Light thread (.copy thread name [])
  | drop (name : Instance) : Light thread (.drop thread name)

/-- What a thread does under the lock of a locator goes through and leaves it with the
services of the map, and the thread with these pointers when the call is over. -/
structure Section (classes : Classes) (world : World) (thread : ThreadId) (container : Instance)
    (ops : List Action) (services : Services) (rest : List Action) (result : Hand) : Prop where
  isLocator : classes.kind container = .locator
  held : (thread, container) ∈ world.heap.held
  begins : ops ≠ []
  goes : ∃ heap, Transition.run RefCount.Heap.step world.heap ops = some heap ∧
    after (handOf heap thread) rest = some result
  within : ∀ op ∈ ops, UnderLock thread container op
  light : ∀ op ∈ rest, Light thread op
  keeps : ∀ members, world.heap.members container = some members →
    ∃ left, ops.foldl (fun members op => RefCount.Heap.membersAfter container op members)
      (some members) = some left ∧ (services.map Prod.snd).Perm left

section

variable {thread : ThreadId} {container : Instance}

theorem UnderLock.own {op : Action} (within : UnderLock thread container op) :
    threadOf op = thread := by
  cases within <;> rfl

theorem Light.own {op : Action} (light : Light thread op) : threadOf op = thread := by
  cases light <;> rfl

theorem flat_of_light {ops : List Action} (light : ∀ op ∈ ops, Light thread op) : Flat ops := by
  intro worker first path member
  cases light _ member
  rfl

theorem creates_of_light {ops : List Action} (light : ∀ op ∈ ops, Light thread op) :
    creates ops = [] := by
  rw [creates, List.filterMap_eq_nil_iff]
  intro op member
  cases light op member <;> rfl

theorem run_hand_other {heap last : Heap} {ops : List Action} {other : ThreadId}
    (different : other ≠ thread) (own : ∀ op ∈ ops, threadOf op = thread)
    (reached : Transition.run RefCount.Heap.step heap ops = some last) :
    handOf last other = handOf heap other := by
  induction ops generalizing heap with
  | nil =>
      cases reached
      rfl
  | cons op rest ih =>
      obtain ⟨next, taken, later⟩ := (Transition.run_cons_eq_some _ heap last op rest).mp reached
      have here := own op List.mem_cons_self
      rw [ih (fun other member => own other (List.mem_cons_of_mem _ member)) later,
        step_hand_other (fun equal => different (equal.symm.trans here)) taken]

theorem UnderLock.creates_cons {op : Action} {rest : List Action}
    (within : UnderLock thread container op) (light : ∀ other ∈ rest, Light thread other) :
    creates (op :: rest) = [] := by
  rw [← List.singleton_append, creates_append, creates_of_light light, List.append_nil]
  cases within <;> rfl

/-- A step under the lock, and the rest of the call. -/
theorem Orderly.performed_within (orderly : Orderly classes world) {op : Action}
    {rest : List Action} {next : Heap} (isLocator : classes.kind container = .locator)
    (within : UnderLock thread container op) (light : ∀ other ∈ rest, Light thread other)
    (taken : world.heap.step op = some next) (going : (after (handOf next thread) rest).isSome) :
    Orderly classes { world.doing thread rest with heap := next } := by
  have nothing := within.creates_cons light
  apply orderly.performed within.own taken _ _ going (fun other member => (light other member).own)
    (flat_of_light light)
  · simp [nothing]
  · simp [nothing]
  · intro worker name same
    rw [same] at within
    cases within
  · intro worker owner moved same
    rw [same] at within
    cases within
    exact isLocator

/-- Steps that are done at once, and the rest of the call. -/
theorem Orderly.performed_all (orderly : Orderly classes world) {op : Action}
    {ops rest : List Action} {last : Heap} (isLocator : classes.kind container = .locator)
    (within : ∀ other ∈ op :: ops, UnderLock thread container other)
    (light : ∀ other ∈ rest, Light thread other)
    (reached : Transition.run RefCount.Heap.step world.heap (op :: ops) = some last)
    (going : (after (handOf last thread) rest).isSome) :
    Orderly classes { world.doing thread rest with heap := last } := by
  induction ops generalizing world op with
  | nil =>
      obtain ⟨next, taken, same⟩ :=
        (Transition.run_cons_eq_some _ world.heap last op []).mp reached
      cases same
      exact orderly.performed_within isLocator (within op List.mem_cons_self) light taken going
  | cons second ops ih =>
      obtain ⟨next, taken, later⟩ :=
        (Transition.run_cons_eq_some _ world.heap last op (second :: ops)).mp reached
      have first : Orderly classes { world.doing thread [] with heap := next } :=
        orderly.performed_within isLocator (within op List.mem_cons_self) (by simp) taken rfl
      have whole := ih first (fun other member => within other (List.mem_cons_of_mem _ member)) later
      simp only [World.doing, Function.update_idem] at whole
      exact whole

/-- Steps of a call are possible one after the other, when nothing comes in between. -/
theorem perform_all {heap : Heap} (counted : heap.Counted) {ops : List Action}
    (own : ∀ op ∈ ops, threadOf op = thread) (flat : Flat ops) (makes : creates ops = [])
    {hand : Hand} (ends : after (handOf heap thread) ops = some hand) :
    ∃ last, Transition.run RefCount.Heap.step heap ops = some last ∧ handOf last thread = hand := by
  induction ops generalizing heap with
  | nil => exact ⟨heap, rfl, Option.some.inj ends⟩
  | cons op rest ih =>
      obtain ⟨middle, allowed, later⟩ := Option.bind_eq_some_iff.mp ends
      have follows : ∀ first path, op = .copy thread first path →
          follow heap.cells first path = some (path.getLastD first) := by
        intro first path same
        rw [flat thread first path (same ▸ List.mem_cons_self)]
        rfl
      have makes_none : ∀ worker name members, op ≠ .create worker name members := by
        intro worker name members same
        have member := mem_creates (same ▸ List.mem_cons_self : .create worker name members ∈ op :: rest)
        rw [makes] at member
        cases member
      obtain ⟨next, taken, hand⟩ := perform counted (own op List.mem_cons_self) allowed follows
        (fun name members same => absurd same (makes_none thread name members))
      have fewer : creates rest = [] := by
        rw [← List.singleton_append, creates_append] at makes
        exact (List.append_eq_nil_iff.mp makes).2
      obtain ⟨last, reached, result⟩ := ih (RefCount.Heap.step_counted counted taken)
        (fun other member => own other (List.mem_cons_of_mem _ member))
        (fun worker first path member => flat worker first path (List.mem_cons_of_mem _ member))
        fewer (hand ▸ later)
      exact ⟨last, by rw [Transition.run_cons, taken]; exact reached, result⟩

theorem perform_take {heap : Heap} {members : List Instance}
    {name : Instance} (held : (thread, container) ∈ heap.held)
    (there : heap.members container = some members) (inside : name ∈ members) :
    ∃ next, heap.step (.take thread container name) = some next ∧
      handOf next thread = gain name (handOf heap thread) := by
  obtain ⟨cell, found, same⟩ := Option.map_eq_some_iff.mp there
  rw [← same] at inside
  refine ⟨_, by rw [RefCount.Heap.step, if_pos held, found]; exact if_pos inside, ?_⟩
  funext other
  simp only [handOf, gain]
  rw [count_cons_hand]

/-- Pointers that an object has can be taken from it, one after the other. -/
theorem perform_takes {heap : Heap} (counted : heap.Counted) {names members : List Instance}
    (held : (thread, container) ∈ heap.held) (there : heap.members container = some members)
    (inside : names.Subperm members) :
    ∃ last, Transition.run RefCount.Heap.step heap
        (names.map fun name => .take thread container name) = some last ∧
      handOf last thread = fun other => names.count other + handOf heap thread other := by
  induction names generalizing heap members with
  | nil =>
      refine ⟨heap, rfl, ?_⟩
      funext other
      simp
  | cons name rest ih =>
      obtain ⟨next, taken, hand⟩ :=
        perform_take held there (inside.subset List.mem_cons_self)
      have left : next.members container = some (members.erase name) := by
        rw [RefCount.Heap.step_members counted taken, there]
        exact if_pos rfl
      have still : (thread, container) ∈ next.held := by
        apply List.count_pos_iff.mp
        have more : handOf next thread container = _ := congrFun hand container
        have before : 0 < handOf heap thread container := List.count_pos_iff.mpr held
        change 0 < handOf next thread container
        rw [more, gain]
        omega
      have fewer : rest.Subperm (members.erase name) := by
        have each := inside.erase name
        rwa [List.erase_cons_head] at each
      obtain ⟨last, reached, result⟩ :=
        ih (RefCount.Heap.step_counted counted taken) still left fewer
      refine ⟨last, by rw [List.map_cons, Transition.run_cons, taken]; exact reached, ?_⟩
      rw [result, hand]
      funext other
      simp only [gain, count_cons_name]
      omega

end

section

variable {thread : ThreadId} {container : Instance} {ops rest : List Action}
  {services : Services} {result : Hand}

/-- A call that does its work under the lock of a locator. -/
theorem Orderly.locked (orderly : Orderly classes world)
    (goes : Section classes world thread container ops services rest result) :
    Orderly classes (world.locked thread container ops services rest) ∧
      (world.locked thread container ops services rest).promised thread = some result ∧
        ∀ other, other ≠ thread →
          (world.locked thread container ops services rest).promised other =
            world.promised other := by
  obtain ⟨last, reached, ends⟩ := goes.goes
  have same : world.locked thread container ops services rest =
      { world.doing thread rest with
        heap := last
        services := Function.update world.services container services } := by
    rw [World.locked, reached]
  have own : ∀ op ∈ ops, threadOf op = thread := fun op member => (goes.within op member).own
  rw [same]
  refine ⟨?_, ?_, fun other different => ?_⟩
  · obtain ⟨op, more, split⟩ := List.exists_cons_of_ne_nil goes.begins
    subst split
    exact (orderly.performed_all goes.isLocator goes.within goes.light reached
      (by rw [ends]; rfl)).mapping _
  · exact (promised_doing_self world thread rest last world.used _).trans ends
  · exact promised_doing_other different rest last world.used _
      (run_hand_other different own reached)

end

/-- The members of every locator are the services of its map. -/
def Stored (classes : Classes) (services : Instance → Services) (heap : Heap) : Prop :=
  ∀ container members, classes.kind container = .locator →
    heap.members container = some members → ((services container).map Prod.snd).Perm members

/-- A step that leaves the locators alone, or makes one, with an empty map. -/
def Tame (classes : Classes) (services : Instance → Services) : Action → Prop
  | .create _ name members => classes.kind name = .locator → members = [] ∧ services name = []
  | .store _ owner _ => classes.kind owner ≠ .locator
  | .take _ _ _ => False
  | _ => True

/-- The maps of the locators tell what they have, and only the calls of a locator change
that. -/
structure Mapped (classes : Classes) (world : World) : Prop where
  stored : Stored classes world.services world.heap
  tame : ∀ thread, ∀ op ∈ world.todo thread, Tame classes world.services op

theorem new_mapped (classes : Classes) : Mapped classes World.new := by
  constructor
  · intro container members _ found
    cases found
  · intro thread op member
    cases member

theorem Stored.step {services : Instance → Services} {heap next : Heap} {op : Action}
    (stored : Stored classes services heap) (counted : heap.Counted)
    (tame : Tame classes services op) (taken : heap.step op = some next) :
    Stored classes services next := by
  intro container members isLocator found
  rw [RefCount.Heap.step_members counted taken] at found
  cases op with
  | create worker made given =>
      simp only [RefCount.Heap.membersAfter] at found
      split at found
      · rename_i same
        subst same
        obtain ⟨nothing, empty⟩ := tame isLocator
        rw [← Option.some.inj found, nothing, empty]
        exact .nil
      · exact stored container members isLocator found
  | delete worker removed =>
      simp only [RefCount.Heap.membersAfter] at found
      split at found
      · cases found
      · exact stored container members isLocator found
  | store worker owner name =>
      have different : container ≠ owner := fun same => tame (same ▸ isLocator)
      simp only [RefCount.Heap.membersAfter, if_neg different] at found
      exact stored container members isLocator found
  | take worker owner name => cases tame
  | copy worker first path => exact stored container members isLocator found
  | share worker source name => exact stored container members isLocator found
  | drop worker name => exact stored container members isLocator found

/-- What is true of the steps that the threads have to do, when one thread comes to others. -/
theorem forall_todo {motive : Action → Prop} {todo : ThreadId → List Action} {thread : ThreadId}
    {ops : List Action} (now : ∀ op ∈ ops, motive op)
    (before : ∀ other, ∀ op ∈ todo other, motive op) (other : ThreadId) :
    ∀ op ∈ Function.update todo thread ops other, motive op := by
  by_cases same : other = thread
  · rwa [same, Function.update_self]
  · rw [Function.update_of_ne same]
    exact before other

/-- A thread comes to other steps that leave the locators alone. -/
theorem Mapped.doing (mapped : Mapped classes world) {thread : ThreadId} {ops : List Action}
    {heap : Heap} {used : List Instance} (stored : Stored classes world.services heap)
    (tame : ∀ op ∈ ops, Tame classes world.services op) :
    Mapped classes { world.doing thread ops with heap := heap, used := used } :=
  ⟨stored, forall_todo tame mapped.tame⟩

theorem tame_of_light {services : Instance → Services} {thread : ThreadId} {op : Action}
    (light : Light thread op) : Tame classes services op := by
  cases light <;> trivial

/-- A map that is empty may be taken for another one until its locator is made. -/
theorem Tame.update {services : Instance → Services} {op : Action}
    (tame : Tame classes services op) {container : Instance} {changed : Services}
    (other : ∀ worker members, op = .create worker container members → changed = []) :
    Tame classes (Function.update services container changed) op := by
  cases op with
  | create worker name members =>
      intro isLocator
      obtain ⟨nothing, empty⟩ := tame isLocator
      refine ⟨nothing, ?_⟩
      by_cases same : name = container
      · subst same
        rw [Function.update_self]
        exact other worker members rfl
      · rw [Function.update_of_ne same, empty]
  | store worker owner name => exact tame
  | take worker owner name => exact tame
  | copy worker first path => trivial
  | share worker source name => trivial
  | drop worker name => trivial
  | delete worker name => trivial

theorem members_elsewhere {thread : ThreadId} {container name : Instance}
    (different : name ≠ container) {ops : List Action}
    (within : ∀ op ∈ ops, UnderLock thread container op) (members : Option (List Instance)) :
    ops.foldl (fun members op => RefCount.Heap.membersAfter name op members) members =
      members := by
  induction ops with
  | nil => rfl
  | cons op rest ih =>
      have here : RefCount.Heap.membersAfter name op members = members := by
        cases within op List.mem_cons_self with
        | copy first path => rfl
        | drop dropped => rfl
        | store moved => exact if_neg different
        | take moved => exact if_neg different
      rw [List.foldl_cons, here]
      exact ih (fun other member => within other (List.mem_cons_of_mem _ member))

/-- What is done under the lock of one locator leaves the others alone. -/
theorem Stored.locked {services : Instance → Services} {heap last : Heap}
    (stored : Stored classes services heap) (counted : heap.Counted) {thread : ThreadId}
    {container : Instance} {ops : List Action} {changed : Services}
    (reached : Transition.run RefCount.Heap.step heap ops = some last)
    (within : ∀ op ∈ ops, UnderLock thread container op)
    (keeps : ∀ members, heap.members container = some members →
      ∃ left, ops.foldl (fun members op => RefCount.Heap.membersAfter container op members)
        (some members) = some left ∧ (changed.map Prod.snd).Perm left)
    (there : ∃ members, heap.members container = some members) :
    Stored classes (Function.update services container changed) last := by
  intro name members isLocator found
  rw [RefCount.Heap.run_members counted reached] at found
  by_cases same : name = container
  · subst same
    obtain ⟨before, known⟩ := there
    obtain ⟨left, result, perm⟩ := keeps before known
    rw [known, result] at found
    rw [Function.update_self, ← Option.some.inj found]
    exact perm
  · rw [members_elsewhere same within] at found
    rw [Function.update_of_ne same]
    exact stored name members isLocator found

/-- A call of a locator changes its map as it changes its members. -/
theorem Mapped.locked (mapped : Mapped classes world) (orderly : Orderly classes world)
    {thread : ThreadId} {container : Instance} {ops rest : List Action} {services : Services}
    {result : Hand} (goes : Section classes world thread container ops services rest result) :
    Mapped classes (world.locked thread container ops services rest) := by
  obtain ⟨last, reached, _⟩ := goes.goes
  have pointer := RefCount.Heap.mem_pointers goes.held
  obtain ⟨cell, found⟩ := orderly.counted.known container pointer
  have there : world.heap.members container = some cell.members := by
    rw [RefCount.Heap.members, found]
    rfl
  rw [World.locked, reached]
  constructor
  · exact mapped.stored.locked orderly.counted reached goes.within goes.keeps ⟨_, there⟩
  · apply forall_todo fun op member => tame_of_light (goes.light op member)
    intro other op member
    apply (mapped.tame other op member).update
    intro worker members making
    have new := orderly.fresh other container (mem_creates (making ▸ member))
    exact absurd (lookup_of_key.mpr ⟨cell, found⟩) new.1

theorem append_diff (names left : List Instance) : (names ++ left).diff names = left := by
  induction names with
  | nil => rfl
  | cons name rest ih =>
      rw [List.cons_append, List.diff_cons, List.erase_cons_head]
      exact ih

theorem members_takes (thread : ThreadId) (container : Instance) (names members : List Instance) :
    (names.map fun name => .take thread container name).foldl
        (fun members op => RefCount.Heap.membersAfter container op members) (some members) =
      some (members.diff names) := by
  induction names generalizing members with
  | nil => rfl
  | cons name rest ih =>
      rw [List.map_cons, List.foldl_cons, List.diff_cons, ← ih]
      congr 1
      exact if_pos rfl

/-- The services of a map, with the one of an id before the others. -/
theorem values_perm (services : Services) (id : ServiceId) :
    ((services.lookup id).toList ++
        (services.eraseP fun entry => entry.1 = id).map Prod.snd).Perm
      (services.map Prod.snd) := by
  induction services with
  | nil => exact .nil
  | cons entry rest ih =>
      rw [List.lookup_cons]
      by_cases same : entry.1 = id
      · subst same
        rw [beq_self_eq_true, List.eraseP_cons_of_pos (by simp)]
        exact .refl _
      · have missed : (id == entry.1) = false := by simpa using Ne.symm same
        rw [missed, List.eraseP_cons_of_neg (by simpa using same), List.map_cons]
        exact List.perm_middle.trans (ih.cons entry.2)

section

variable {thread : ThreadId} {container : Instance}

/-- A locator that a thread has a pointer to has the services of its map. -/
theorem Mapped.members (mapped : Mapped classes world) (orderly : Orderly classes world)
    (isLocator : classes.kind container = .locator)
    (held : (thread, container) ∈ world.heap.held) :
    ∃ members, world.heap.members container = some members ∧
      ((world.services container).map Prod.snd).Perm members := by
  obtain ⟨cell, found⟩ :=
    orderly.counted.known container (RefCount.Heap.mem_pointers held)
  have there : world.heap.members container = some cell.members := by
    rw [RefCount.Heap.members, found]
    rfl
  exact ⟨cell.members, there, mapped.stored container cell.members isLocator there⟩

/-- `Put` gives the service to the locator, and drops the one that was there. -/
theorem section_put (mapped : Mapped classes world) (orderly : Orderly classes world)
    {id : ServiceId} {service : Instance} (isLocator : classes.kind container = .locator)
    (held : (thread, container) ∈ world.heap.held)
    (holds : (thread, service) ∈ world.heap.held) :
    let services := world.services container
    let old := (services.lookup id).toList
    Section classes world thread container
      ((old.map fun name => .take thread container name) ++
        [.copy thread service [], .copy thread service [], .store thread container service])
      ((services.eraseP fun entry => entry.1 = id).orderedInsert
        (fun first second => first.1 ≤ second.1) (id, service))
      ((old.map fun name => .drop thread name) ++ [.drop thread service])
      (handOf world.heap thread) := by
  intro services old
  obtain ⟨members, there, perm⟩ := mapped.members orderly isLocator held
  have split : (old ++ (services.eraseP fun entry => entry.1 = id).map Prod.snd).Perm members :=
    (values_perm services id).trans perm
  constructor
  case isLocator => exact isLocator
  case held => exact held
  case begins => simp
  case goes =>
    obtain ⟨middle, taken, hand⟩ := perform_takes orderly.counted held there
      ((List.sublist_append_left old _).subperm.trans split.subperm)
    have counted := RefCount.Heap.run_counted orderly.counted taken
    have given : 0 < handOf middle thread service := by
      have before : 0 < handOf world.heap thread service := List.count_pos_iff.mpr holds
      simp only [hand]
      omega
    have besides : 0 < handOf middle thread container := by
      have before : 0 < handOf world.heap thread container := List.count_pos_iff.mpr held
      simp only [hand]
      omega
    have stores : after (handOf middle thread)
        [.copy thread service [], .copy thread service [], .store thread container service] =
          some (gain service (handOf middle thread)) := by
      have more : 0 < gain service (handOf middle thread) container := by
        simp only [gain]
        omega
      rw [after_copy given, after_copy (gain_pos ..), after, afterOp, lose_gain,
        if_pos ⟨gain_pos .., more⟩]
      rfl
    obtain ⟨last, reached, result⟩ := perform_all counted (by simp [threadOf]) (by simp [Flat])
      rfl stores
    refine ⟨last, ?_, ?_⟩
    · rw [Transition.run_append, taken]
      exact reached
    · have both : gain service (handOf middle thread) =
          fun name => old.count name + gain service (handOf world.heap thread) name := by
        rw [hand]
        funext name
        simp only [gain]
        omega
      rw [result, both, after_drops, after_drop]
      rfl
  case within =>
    rw [List.forall_mem_append]
    refine ⟨fun op takes => ?_, by simp [UnderLock.copy, UnderLock.store]⟩
    obtain ⟨name, _, same⟩ := List.mem_map.mp takes
    rw [← same]
    exact .take name
  case light =>
    rw [List.forall_mem_append]
    refine ⟨fun op drops => ?_, by simp [Light.drop]⟩
    obtain ⟨name, _, same⟩ := List.mem_map.mp drops
    rw [← same]
    exact .drop name
  case keeps =>
    intro known found
    rw [there] at found
    cases found
    refine ⟨members.diff old ++ [service], ?_, ?_⟩
    · rw [List.foldl_append, members_takes]
      exact if_pos rfl
    · have left := split.diff_right old
      rw [append_diff] at left
      have inserted := (List.perm_orderedInsert (fun first second => first.1 ≤ second.1)
        (id, service) (services.eraseP fun entry => entry.1 = id)).map Prod.snd
      rw [List.map_cons] at inserted
      exact inserted.trans ((left.cons service).trans (List.perm_append_singleton service _).symm)

/-- `Get` copies the service of an id. -/
theorem section_get (mapped : Mapped classes world) (orderly : Orderly classes world)
    {id : ServiceId} {service : Instance} (isLocator : classes.kind container = .locator)
    (held : (thread, container) ∈ world.heap.held)
    (found : (world.services container).lookup id = some service) :
    Section classes world thread container [.copy thread container [service]]
      (world.services container) [] (gain service (handOf world.heap thread)) := by
  obtain ⟨members, there, perm⟩ := mapped.members orderly isLocator held
  obtain ⟨cell, known, same⟩ := Option.map_eq_some_iff.mp there
  have inside : service ∈ cell.members := by
    rw [same, ← perm.mem_iff]
    exact List.mem_map.mpr ⟨_, Assoc.mem_of_lookup found, rfl⟩
  have follows : follow world.heap.cells container [service] = some service := by
    rw [follow, known]
    exact if_pos inside
  constructor
  case isLocator => exact isLocator
  case held => exact held
  case begins => simp
  case goes =>
    have allowed : afterOp (handOf world.heap thread) (.copy thread container [service]) =
        some (gain service (handOf world.heap thread)) :=
      if_pos (List.count_pos_iff.mpr held)
    have own : threadOf (.copy thread container [service]) = thread := rfl
    obtain ⟨next, taken, hand⟩ := perform orderly.counted own allowed
      (by
        intro first path same
        cases same
        exact follows) (by simp)
    refine ⟨next, ?_, congrArg some hand⟩
    rw [Transition.run_cons, taken]
    rfl
  case within => simp [UnderLock.copy]
  case light => simp
  case keeps =>
    intro known found
    rw [there] at found
    cases found
    exact ⟨members, rfl, perm⟩

/-- `Remove` drops the service of an id. -/
theorem section_remove (mapped : Mapped classes world) (orderly : Orderly classes world)
    {id : ServiceId} {service : Instance} (isLocator : classes.kind container = .locator)
    (held : (thread, container) ∈ world.heap.held)
    (found : (world.services container).lookup id = some service) :
    Section classes world thread container [.take thread container service]
      ((world.services container).eraseP fun entry => entry.1 = id)
      [.copy thread service [], .drop thread service, .drop thread service]
      (handOf world.heap thread) := by
  obtain ⟨members, there, perm⟩ := mapped.members orderly isLocator held
  have split := (values_perm (world.services container) id).trans perm
  rw [found, Option.toList_some] at split
  constructor
  case isLocator => exact isLocator
  case held => exact held
  case begins => simp
  case goes =>
    obtain ⟨next, taken, hand⟩ := perform_take held there
      (split.subset (List.mem_append_left _ (List.mem_singleton_self service)))
    refine ⟨next, ?_, ?_⟩
    · rw [Transition.run_cons, taken]
      rfl
    · rw [hand, after_copy (gain_pos ..), after_drop, after_drop]
      rfl
  case within => simp [UnderLock.take]
  case light => simp [Light.copy, Light.drop]
  case keeps =>
    intro known found
    rw [there] at found
    cases found
    refine ⟨members.diff [service], members_takes thread container [service] members, ?_⟩
    have left := split.diff_right [service]
    rwa [append_diff] at left

/-- `Clear` drops all services. -/
theorem section_clear (mapped : Mapped classes world) (orderly : Orderly classes world)
    (isLocator : classes.kind container = .locator)
    (held : (thread, container) ∈ world.heap.held) (filled : world.services container ≠ []) :
    let names := (world.services container).map Prod.snd
    Section classes world thread container (names.map fun name => .take thread container name) []
      (names.map fun name => .drop thread name) (handOf world.heap thread) := by
  intro names
  obtain ⟨members, there, perm⟩ := mapped.members orderly isLocator held
  constructor
  case isLocator => exact isLocator
  case held => exact held
  case begins => simpa [names] using filled
  case goes =>
    obtain ⟨last, reached, hand⟩ := perform_takes orderly.counted held there perm.subperm
    refine ⟨last, reached, ?_⟩
    have ends := after_drops thread names (handOf world.heap thread) []
    rw [List.append_nil] at ends
    rw [hand, ends]
    rfl
  case within =>
    intro op member
    obtain ⟨name, _, same⟩ := List.mem_map.mp member
    rw [← same]
    exact .take name
  case light =>
    intro op member
    obtain ⟨name, _, same⟩ := List.mem_map.mp member
    rw [← same]
    exact .drop name
  case keeps =>
    intro known found
    rw [there] at found
    cases found
    refine ⟨members.diff names, members_takes thread container names members, ?_⟩
    have left := perm.diff_right names
    have nothing := append_diff names []
    rw [List.append_nil] at nothing
    rw [nothing] at left
    exact left

end

theorem tame_makeOps {services : Instance → Services} {thread : ThreadId} {name : Instance}
    {members : List Instance} {castable : Bool}
    (new : classes.kind name = .locator → members = [] ∧ services name = []) :
    ∀ op ∈ makeOps thread name members castable, Tame classes services op := by
  rw [makeOps, List.forall_mem_append]
  constructor
  · intro op member
    obtain ⟨_, _, same⟩ := List.mem_map.mp member
    rw [← same]
    trivial
  · rw [List.forall_mem_cons]
    refine ⟨new, ?_⟩
    cases castable <;> simp [castOps, failedCastOps, Tame]

/-- The map of an object that is not made yet is made empty. -/
theorem Mapped.making (mapped : Mapped classes world) (orderly : Orderly classes world)
    {thread : ThreadId} {name : Instance} {members : List Instance} {castable : Bool}
    (unused : name ∉ world.used) (new : classes.kind name = .locator → members = []) :
    Mapped classes
      { world.making thread name (makeOps thread name members castable) with
        services := Function.update world.services name [] } := by
  constructor
  · intro container known isLocator found
    dsimp only at found ⊢
    by_cases same : container = name
    · subst same
      obtain ⟨cell, there, _⟩ := Option.map_eq_some_iff.mp found
      exact absurd (orderly.there container (lookup_of_key.mpr ⟨cell, there⟩)) unused
    · rw [Function.update_of_ne same]
      exact mapped.stored container known isLocator found
  · apply forall_todo (tame_makeOps fun isLocator => ⟨new isLocator, Function.update_self ..⟩)
    intro other op member
    exact (mapped.tame other op member).update (fun _ _ _ => rfl)

/-- The maps are right when a call begins. -/
theorem Mapped.begun (mapped : Mapped classes world) (orderly : Orderly classes world)
    {thread : ThreadId} {call : Call} {next : World}
    (taken : world.begin classes thread call = some next) : Mapped classes next := by
  cases call with
  | receive source name =>
      simp only [World.begin] at taken
      obtain ⟨heap, stepped, same⟩ := Option.map_eq_some_iff.mp taken
      subst same
      have tame : Tame classes world.services (.share thread source name) := trivial
      exact mapped.doing (mapped.stored.step orderly.counted tame stepped) (by simp)
  | copy name =>
      simp only [World.begin] at taken
      split at taken
      · cases taken
        exact mapped.doing mapped.stored (by simp [Tame])
      · cases taken
  | drop name =>
      simp only [World.begin] at taken
      split at taken
      · cases taken
        exact mapped.doing mapped.stored (by simp [Tame])
      · cases taken
  | make name members type =>
      simp only [World.begin] at taken
      split at taken
      · rename_i allowed
        cases taken
        exact mapped.making orderly allowed.1 allowed.2.2.2.1
      · cases taken
  | query name type remote made =>
      simp only [World.begin] at taken
      split at taken
      · split at taken
        · cases taken
          exact mapped.doing mapped.stored (by simp)
        · cases taken
          exact mapped.doing mapped.stored (by simp [queryOps, Tame])
        · split at taken
          · cases taken
          · split at taken
            · rename_i manager _ isProxy
              cases taken
              apply mapped.doing mapped.stored
              rw [queryOps, List.forall_mem_append, List.forall_mem_cons]
              refine ⟨⟨trivial, tame_makeOps ?_⟩, by simp [Tame]⟩
              intro isLocator
              rw [isProxy] at isLocator
              cases isLocator
            · cases taken
      · cases taken
  | add external service =>
      simp only [World.begin] at taken
      split at taken
      · rename_i allowed
        cases taken
        have other : classes.kind external ≠ .locator := by
          intro isLocator
          rw [isLocator] at allowed
          cases allowed.1
        exact mapped.doing mapped.stored (by simp [addOps, Tame, other])
      · cases taken
  | put container id service =>
      simp only [World.begin] at taken
      split at taken
      · rename_i allowed
        cases taken
        exact mapped.locked orderly (section_put mapped orderly allowed.1 allowed.2.1 allowed.2.2)
      · cases taken
  | get container id =>
      simp only [World.begin] at taken
      split at taken
      · rename_i allowed
        split at taken
        · cases taken
          exact mapped.doing mapped.stored (by simp)
        · rename_i service found
          cases taken
          exact mapped.locked orderly (section_get mapped orderly allowed.1 allowed.2 found)
      · cases taken
  | remove container id =>
      simp only [World.begin] at taken
      split at taken
      · rename_i allowed
        split at taken
        · cases taken
          exact mapped.doing mapped.stored (by simp)
        · rename_i service found
          cases taken
          exact mapped.locked orderly (section_remove mapped orderly allowed.1 allowed.2 found)
      · cases taken
  | clear container =>
      simp only [World.begin] at taken
      split at taken
      · rename_i allowed
        cases taken
        by_cases filled : world.services container = []
        · have unchanged : Function.update world.services container [] = world.services := by
            rw [← filled, Function.update_eq_self]
          simp only [filled, List.map_nil, World.locked, Transition.run_nil, unchanged]
          exact mapped.doing mapped.stored (by simp)
        · exact mapped.locked orderly
            (section_clear mapped orderly allowed.1 allowed.2 filled)
      · cases taken

/-- `Put` over an id that is taken: the service that was there is released, and deleted. -/
example :
    let classes : Classes :=
      ⟨fun name => if name = 20 then .locator else .plain, fun name => if name = 20 then [] else [1]⟩
    let made := fun name => Turn.call 1 (.make name [] iService) :: List.replicate 9 (.go 1)
    let turns := made 10 ++ made 11 ++ made 20 ++
      [.call 1 (.put 20 5 10), .go 1, .call 1 (.drop 10), .go 1] ++
        .call 1 (.put 20 5 11) :: List.replicate 3 (.go 1)
    (Transition.run (World.step classes) World.new turns).map
        (fun last => (last.services 20, last.heap.members 20, last.heap.deleted)) =
      some ([(5, 11)], some [11], [10]) := by
  decide +kernel

/-- The maps are right when a thread goes on. -/
theorem Mapped.gone_on (mapped : Mapped classes world) (orderly : Orderly classes world)
    {thread : ThreadId} {next : World} (taken : world.goOn thread = some next) :
    Mapped classes next := by
  unfold World.goOn at taken
  split at taken
  · rename_i worker name _
    split at taken
    · rename_i cell heap _ stepped
      cases taken
      have tame : Tame classes world.services (.delete thread name) := trivial
      apply mapped.doing (mapped.stored.step orderly.counted tame stepped)
      rw [List.forall_mem_append]
      refine ⟨fun op member => ?_, mapped.tame thread⟩
      obtain ⟨_, _, same⟩ := List.mem_map.mp member
      rw [← same]
      trivial
    · cases taken
      exact ⟨mapped.stored, mapped.tame⟩
  · split at taken
    · cases taken
    · rename_i op rest todo
      have tame := mapped.tame thread
      rw [todo, List.forall_mem_cons] at tame
      split at taken
      · rename_i heap stepped
        cases taken
        exact mapped.doing (mapped.stored.step orderly.counted tame.1 stepped) tame.2
      · cases taken
        exact ⟨mapped.stored, mapped.tame⟩

end Mif.Service.Lifetime
