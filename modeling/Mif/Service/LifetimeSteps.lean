import Mif.Service.Lifetime

set_option autoImplicit false

/- What the steps of a call do to the pointers of its thread, and what a world keeps while
its threads take steps in any order. -/
namespace Mif.Service.Lifetime

open RefCount

/-- How many pointers to an object a thread has. -/
abbrev Hand := Instance → Nat

def gain (name : Instance) (hand : Hand) : Hand :=
  fun other => hand other + if other = name then 1 else 0

def lose (name : Instance) (hand : Hand) : Hand :=
  fun other => hand other - if other = name then 1 else 0

def threadOf : Action → ThreadId
  | .create thread _ _ => thread
  | .copy thread _ _ => thread
  | .share thread _ _ => thread
  | .drop thread _ => thread
  | .delete thread _ => thread
  | .store thread _ _ => thread
  | .take thread _ _ => thread

/-- What a step of a call makes of the thread's pointers. It is not known when the step is
one that a call does not contain, or a pointer is missing. -/
def afterOp (hand : Hand) : Action → Option Hand
  | .create _ name members =>
      if ∀ member ∈ members, members.count member ≤ hand member then
        some (gain name fun other => hand other - members.count other)
      else none
  | .copy _ first path => if 0 < hand first then some (gain (path.getLastD first) hand) else none
  | .drop _ name => if 0 < hand name then some (lose name hand) else none
  | .store _ owner name =>
      if 0 < hand name ∧ 0 < lose name hand owner then some (lose name hand) else none
  | .share _ _ _ => none
  | .delete _ _ => none
  | .take _ _ _ => none

/-- The thread's pointers behind the rest of its call. -/
def after : Hand → List Action → Option Hand
  | hand, [] => some hand
  | hand, op :: rest => (afterOp hand op).bind fun next => after next rest

def handOf (heap : Heap) (thread : ThreadId) : Hand :=
  fun name => heap.held.count (thread, name)

/-- A path that stays: objects from which no pointer is taken lead from one to the next. -/
def Leads (classes : Classes) (cells : List (Instance × Cell Instance)) :
    Instance → List Instance → Prop
  | _, [] => True
  | first, next :: path =>
      classes.kind first ≠ .locator ∧
        (∃ cell, cells.lookup first = some cell ∧ next ∈ cell.members) ∧
        Leads classes cells next path

theorem after_append (hand : Hand) (first second : List Action) :
    after hand (first ++ second) = (after hand first).bind fun next => after next second := by
  induction first generalizing hand with
  | nil => rfl
  | cons op first ih =>
      rw [List.cons_append, after, after, Option.bind_assoc]
      congr 1
      funext next
      exact ih next

theorem follow_of_leads {classes : Classes} {cells : List (Instance × Cell Instance)}
    {first : Instance} {path : List Instance} (leads : Leads classes cells first path) :
    follow cells first path = some (path.getLastD first) := by
  induction path generalizing first with
  | nil => rfl
  | cons next path ih =>
      obtain ⟨_, ⟨cell, found, member⟩, later⟩ := leads
      rw [follow, found]
      dsimp only
      rw [if_pos member, ih later, List.getLastD_cons]

theorem count_own (thread : ThreadId) (names : List Instance) (name : Instance) :
    (names.map fun member => (thread, member)).count (thread, name) = names.count name := by
  apply List.count_map_of_injective
  intro first second equal
  exact (Prod.mk.inj equal).2

theorem count_foreign {thread other : ThreadId} (different : other ≠ thread)
    (names : List Instance) (name : Instance) :
    (names.map fun member => (other, member)).count (thread, name) = 0 := by
  apply List.count_eq_zero.mpr
  intro member
  obtain ⟨_, _, equal⟩ := List.mem_map.mp member
  exact different (Prod.mk.inj equal).1

/-- The pointers of other threads are left alone. -/
theorem step_hand_other {heap next : Heap} {action : Action} {thread : ThreadId}
    (other : threadOf action ≠ thread) (taken : heap.step action = some next) :
    handOf next thread = handOf heap thread := by
  funext name
  have apart : ∀ worker owner, worker ≠ thread → (worker, owner) ≠ (thread, name) := by
    intro worker owner different same
    exact different (Prod.mk.inj same).1
  cases action with
  | create worker made members =>
      change worker ≠ thread at other
      simp only [RefCount.Heap.step] at taken
      split at taken
      · cases taken
        simp only [handOf]
        rw [List.count_cons_of_ne (apart worker made other), List.count_diff, count_foreign other]
        rfl
      · cases taken
  | copy worker first path =>
      change worker ≠ thread at other
      simp only [RefCount.Heap.step] at taken
      split at taken
      · obtain ⟨last, _, same⟩ := Option.map_eq_some_iff.mp taken
        rw [← same]
        exact List.count_cons_of_ne (apart worker last other)
      · cases taken
  | share worker source shared =>
      change worker ≠ thread at other
      simp only [RefCount.Heap.step] at taken
      split at taken
      · cases taken
        exact List.count_cons_of_ne (apart worker shared other)
      · cases taken
  | drop worker dropped =>
      change worker ≠ thread at other
      simp only [RefCount.Heap.step] at taken
      split at taken
      · cases taken
        exact List.count_erase_of_ne (apart worker dropped other).symm
      · cases taken
  | delete worker removed =>
      change worker ≠ thread at other
      simp only [RefCount.Heap.step] at taken
      split at taken
      · split at taken
        · cases taken
          rfl
        · cases taken
          simp only [handOf]
          rw [List.count_append, count_foreign other, Nat.zero_add]
      · cases taken
  | store worker owner stored =>
      change worker ≠ thread at other
      simp only [RefCount.Heap.step] at taken
      split at taken
      · split at taken
        · cases taken
          rfl
        · cases taken
          exact List.count_erase_of_ne (apart worker stored other).symm
      · cases taken
  | take worker owner moved =>
      change worker ≠ thread at other
      simp only [RefCount.Heap.step] at taken
      split at taken
      · split at taken
        · cases taken
          rfl
        · split at taken
          · cases taken
            exact List.count_cons_of_ne (apart worker moved other)
          · cases taken
      · cases taken

theorem count_cons_name (name other : Instance) (names : List Instance) :
    (name :: names).count other = names.count other + if other = name then 1 else 0 := by
  rw [List.count_cons]
  by_cases same : other = name
  · simp [same]
  · simp [same, Ne.symm same]

theorem count_cons_hand (thread : ThreadId) (name other : Instance)
    (held : List (ThreadId × Instance)) :
    ((thread, name) :: held).count (thread, other) =
      held.count (thread, other) + if other = name then 1 else 0 := by
  rw [List.count_cons]
  by_cases same : other = name
  · simp [same]
  · simp [same, Ne.symm same]

theorem count_erase_hand (thread : ThreadId) (name other : Instance)
    (held : List (ThreadId × Instance)) :
    (held.erase (thread, name)).count (thread, other) =
      held.count (thread, other) - if other = name then 1 else 0 := by
  rw [List.count_erase]
  by_cases same : other = name
  · simp [same]
  · simp [same, Ne.symm same]

/-- A step of a call is possible when the thread has the pointers it uses, whatever other
threads did, and does to the thread's pointers what was expected. -/
theorem perform {heap : Heap} (counted : heap.Counted) {op : Action}
    {thread : ThreadId} (own : threadOf op = thread) {hand : Hand}
    (allowed : afterOp (handOf heap thread) op = some hand)
    (follows : ∀ first path, op = .copy thread first path →
      follow heap.cells first path = some (path.getLastD first))
    (fresh : ∀ name members, op = .create thread name members →
      name ∉ heap.cells.map Prod.fst ∧ name ∉ heap.deleted) :
    ∃ next, heap.step op = some next ∧ handOf next thread = hand := by
  cases op with
  | create worker made members =>
      change worker = thread at own
      subst own
      simp only [afterOp] at allowed
      split at allowed
      · rename_i enough
        cases allowed
        obtain ⟨new, unused⟩ := fresh made members rfl
        have moved : (members.map fun member => (worker, member)).Subperm heap.held := by
          apply List.subperm_ext_iff.mpr
          intro entry member
          obtain ⟨name, inside, same⟩ := List.mem_map.mp member
          rw [← same, count_own]
          exact enough name inside
        refine ⟨_, by rw [RefCount.Heap.step, if_pos ⟨new, unused, moved⟩], ?_⟩
        funext name
        simp only [handOf, gain]
        rw [count_cons_hand, List.count_diff, count_own]
      · cases allowed
  | copy worker first path =>
      change worker = thread at own
      subst own
      simp only [afterOp] at allowed
      split at allowed
      · rename_i positive
        cases allowed
        have held : (worker, first) ∈ heap.held := List.count_pos_iff.mp positive
        refine ⟨_, by rw [RefCount.Heap.step, if_pos held, follows first path rfl]; rfl, ?_⟩
        funext name
        simp only [handOf, gain]
        rw [count_cons_hand]
      · cases allowed
  | drop worker dropped =>
      change worker = thread at own
      subst own
      simp only [afterOp] at allowed
      split at allowed
      · rename_i positive
        cases allowed
        have held : (worker, dropped) ∈ heap.held := List.count_pos_iff.mp positive
        refine ⟨_, by rw [RefCount.Heap.step, if_pos held], ?_⟩
        funext name
        simp only [handOf, lose]
        rw [count_erase_hand]
      · cases allowed
  | store worker owner stored =>
      change worker = thread at own
      subst own
      simp only [afterOp] at allowed
      split at allowed
      · rename_i positive
        cases allowed
        have held : (worker, stored) ∈ heap.held := List.count_pos_iff.mp positive.1
        have besides : (worker, owner) ∈ heap.held.erase (worker, stored) := by
          apply List.count_pos_iff.mp
          rw [count_erase_hand]
          exact positive.2
        obtain ⟨cell, found⟩ := counted.known owner
          (RefCount.Heap.mem_pointers (List.mem_of_mem_erase besides))
        refine ⟨_, by rw [RefCount.Heap.step, if_pos ⟨held, besides⟩, found], ?_⟩
        funext name
        simp only [handOf, lose]
        rw [count_erase_hand]
      · cases allowed
  | share worker source shared => cases allowed
  | delete worker removed => cases allowed
  | take worker owner moved => cases allowed

section

variable {classes : Classes} {heap next : Heap} {action : Action}

/-- An object that is pointed to keeps its members, but for what is taken from it. -/
theorem members_kept (counted : heap.Counted) (taken : heap.step action = some next)
    (takes : ∀ worker owner moved, action = .take worker owner moved →
      classes.kind owner = .locator)
    {name member : Instance} {cell : Cell Instance} (pointer : name ∈ heap.pointers)
    (solid : classes.kind name ≠ .locator) (found : heap.cells.lookup name = some cell)
    (inside : member ∈ cell.members) :
    ∃ after, next.cells.lookup name = some after ∧ member ∈ after.members := by
  have kept : ∃ members, RefCount.Heap.membersAfter name action (some cell.members) =
      some members ∧ member ∈ members := by
    cases action with
    | create worker made members =>
        have different : name ≠ made := by
          intro same
          simp only [RefCount.Heap.step] at taken
          split at taken
          · rename_i allowed
            exact allowed.1 (lookup_of_key.mpr ⟨cell, same ▸ found⟩)
          · cases taken
        exact ⟨cell.members, if_neg different, inside⟩
    | delete worker removed =>
        have different : name ≠ removed := by
          intro same
          simp only [RefCount.Heap.step] at taken
          split at taken
          · rename_i doomed
            exact counted.unknown_of_doomed doomed (same ▸ pointer)
          · cases taken
        exact ⟨cell.members, if_neg different, inside⟩
    | store worker owner stored =>
        by_cases same : name = owner
        · exact ⟨cell.members ++ [stored], if_pos same, List.mem_append_left _ inside⟩
        · exact ⟨cell.members, if_neg same, inside⟩
    | take worker owner moved =>
        have different : name ≠ owner := by
          intro same
          exact solid (same ▸ takes worker owner moved rfl)
        exact ⟨cell.members, if_neg different, inside⟩
    | copy worker first path => exact ⟨cell.members, rfl, inside⟩
    | share worker source shared => exact ⟨cell.members, rfl, inside⟩
    | drop worker dropped => exact ⟨cell.members, rfl, inside⟩
  obtain ⟨members, same, member⟩ := kept
  have before : heap.members name = some cell.members := by
    rw [RefCount.Heap.members, found]
    rfl
  rw [← before, ← RefCount.Heap.step_members counted taken] at same
  obtain ⟨after, there, equal⟩ := Option.map_eq_some_iff.mp same
  exact ⟨after, there, equal ▸ member⟩

/-- A path that a query found stays until its pointer is made. -/
theorem leads_step (counted : heap.Counted) (taken : heap.step action = some next)
    (takes : ∀ worker owner moved, action = .take worker owner moved →
      classes.kind owner = .locator)
    {first : Instance} {path : List Instance} (pointer : first ∈ heap.pointers)
    (leads : Leads classes heap.cells first path) : Leads classes next.cells first path := by
  induction path generalizing first with
  | nil => trivial
  | cons other path ih =>
      obtain ⟨solid, ⟨cell, found, member⟩, later⟩ := leads
      refine ⟨solid, members_kept counted taken takes pointer solid found member, ?_⟩
      exact ih (List.mem_append_right _ (count_inner_pos found member)) later

/-- Only the destructor of an object takes its name away, and only its making adds one. -/
theorem step_names (taken : heap.step action = some next)
    (live : ∀ worker name, action ≠ .delete worker name) :
    next.deleted = heap.deleted ∧ ∀ name ∈ next.cells.map Prod.fst,
      name ∈ heap.cells.map Prod.fst ∨
        ∃ worker members, action = .create worker name members := by
  cases action with
  | create worker made members =>
      simp only [RefCount.Heap.step] at taken
      split at taken
      · cases taken
        refine ⟨rfl, fun name member => ?_⟩
        rcases List.mem_cons.mp member with same | before
        · exact .inr ⟨worker, members, same ▸ rfl⟩
        · exact .inl before
      · cases taken
  | copy worker first path =>
      simp only [RefCount.Heap.step] at taken
      split at taken
      · obtain ⟨last, leads, same⟩ := Option.map_eq_some_iff.mp taken
        have names := RefCount.Heap.retain_names heap last
        rw [← same]
        exact ⟨names.2, fun name member => .inl (names.1 ▸ member)⟩
      · cases taken
  | share worker source shared =>
      simp only [RefCount.Heap.step] at taken
      split at taken
      · have names := RefCount.Heap.retain_names heap shared
        cases taken
        exact ⟨names.2, fun name member => .inl (names.1 ▸ member)⟩
      · cases taken
  | drop worker dropped =>
      simp only [RefCount.Heap.step] at taken
      split at taken
      · have names := RefCount.Heap.release_names heap worker dropped
        cases taken
        exact ⟨names.2, fun name member => .inl (names.1 ▸ member)⟩
      · cases taken
  | delete worker removed => exact absurd rfl (live worker removed)
  | store worker owner stored =>
      simp only [RefCount.Heap.step] at taken
      split at taken
      · split at taken
        · cases taken
          exact ⟨rfl, fun name member => .inl member⟩
        · cases taken
          exact ⟨rfl, fun name member => .inl (keys_adjust owner _ heap.cells ▸ member)⟩
      · cases taken
  | take worker owner moved =>
      simp only [RefCount.Heap.step] at taken
      split at taken
      · split at taken
        · cases taken
          exact ⟨rfl, fun name member => .inl member⟩
        · split at taken
          · cases taken
            exact ⟨rfl, fun name member => .inl (keys_adjust owner _ heap.cells ▸ member)⟩
          · cases taken
      · cases taken

/-- Only the thread of a step can come to have an object to delete. -/
theorem step_doomed (taken : heap.step action = some next)
    (live : ∀ worker name, action ≠ .delete worker name) {thread : ThreadId}
    (doomed : thread ∈ next.doomed.map Prod.fst) :
    thread = threadOf action ∨ thread ∈ heap.doomed.map Prod.fst := by
  cases action with
  | create worker made members =>
      simp only [RefCount.Heap.step] at taken
      split at taken
      · cases taken
        exact .inr doomed
      · cases taken
  | copy worker first path =>
      simp only [RefCount.Heap.step] at taken
      split at taken
      · obtain ⟨last, _, same⟩ := Option.map_eq_some_iff.mp taken
        rw [← same] at doomed
        exact .inr (RefCount.Heap.retain_doomed heap last ▸ doomed)
      · cases taken
  | share worker source shared =>
      simp only [RefCount.Heap.step] at taken
      split at taken
      · cases taken
        exact .inr (RefCount.Heap.retain_doomed heap shared ▸ doomed)
      · cases taken
  | drop worker dropped =>
      simp only [RefCount.Heap.step] at taken
      split at taken
      · cases taken
        rcases RefCount.Heap.release_doomed heap worker dropped with same | more
        · exact .inr (same ▸ doomed)
        · dsimp only at doomed
          rw [more, List.map_cons, List.mem_cons] at doomed
          exact doomed
      · cases taken
  | delete worker removed => exact absurd rfl (live worker removed)
  | store worker owner stored =>
      simp only [RefCount.Heap.step] at taken
      split at taken
      · split at taken
        · cases taken
          exact .inr doomed
        · cases taken
          exact .inr doomed
      · cases taken
  | take worker owner moved =>
      simp only [RefCount.Heap.step] at taken
      split at taken
      · split at taken
        · cases taken
          exact .inr doomed
        · split at taken
          · cases taken
            exact .inr doomed
          · cases taken
      · cases taken

end

/-- The names of the objects that a call is still to make. -/
def creates (ops : List Action) : List Instance :=
  ops.filterMap fun
    | .create _ name _ => some name
    | _ => none

@[simp] theorem creates_append (first second : List Action) :
    creates (first ++ second) = creates first ++ creates second :=
  List.filterMap_append

theorem mem_creates {thread : ThreadId} {name : Instance} {members : List Instance}
    {ops : List Action} (member : .create thread name members ∈ ops) : name ∈ creates ops :=
  List.mem_filterMap.mpr ⟨_, member, rfl⟩

/-- No pointer is copied from the end of a path. -/
def Flat (ops : List Action) : Prop :=
  ∀ worker first path, .copy worker first path ∈ ops → path = []

/-- Each thread has the pointers that the rest of its call uses, the path that a query found
is there, and the objects to be made are new. -/
structure Orderly (classes : Classes) (world : World) : Prop where
  sound : world.stuck = false
  counted : world.heap.Counted
  going : ∀ thread, (after (handOf world.heap thread) (world.todo thread)).isSome
  mine : ∀ thread, ∀ op ∈ world.todo thread, threadOf op = thread
  leads : ∀ thread worker first path rest, world.todo thread = .copy worker first path :: rest →
    Leads classes world.heap.cells first path
  flat : ∀ thread op rest, world.todo thread = op :: rest → Flat rest
  busy : ∀ thread, thread ∈ world.heap.doomed.map Prod.fst → Flat (world.todo thread)
  fresh : ∀ thread, ∀ name ∈ creates (world.todo thread),
    name ∉ world.heap.cells.map Prod.fst ∧ name ∉ world.heap.deleted
  used : ∀ thread, ∀ name ∈ creates (world.todo thread), name ∈ world.used
  there : ∀ name ∈ world.heap.cells.map Prod.fst, name ∈ world.used
  gone : ∀ name ∈ world.heap.deleted, name ∈ world.used
  apart : ∀ thread other name, name ∈ creates (world.todo thread) →
    name ∈ creates (world.todo other) → thread = other
  once : ∀ thread, (creates (world.todo thread)).Nodup

theorem new_orderly (classes : Classes) : Orderly classes World.new := by
  constructor <;> simp [World.new, RefCount.Heap.empty, creates, after, Flat]
  exact RefCount.Heap.empty_counted

variable {classes : Classes} {world : World}

/-- The maps of the locators do not matter for that. -/
theorem Orderly.mapping (orderly : Orderly classes world) (services : Instance → Services) :
    Orderly classes { world with services := services } where
  sound := orderly.sound
  counted := orderly.counted
  going := orderly.going
  mine := orderly.mine
  leads := orderly.leads
  flat := orderly.flat
  busy := orderly.busy
  fresh := orderly.fresh
  used := orderly.used
  there := orderly.there
  gone := orderly.gone
  apart := orderly.apart
  once := orderly.once

/-- The first object on the path of a query is in the thread's hands. -/
theorem Orderly.first_pointer (orderly : Orderly classes world) {thread worker : ThreadId}
    {first : Instance} {path : List Instance} {rest : List Action}
    (head : world.todo thread = .copy worker first path :: rest) :
    first ∈ world.heap.pointers := by
  have possible := orderly.going thread
  rw [head, after, afterOp] at possible
  split at possible
  · rename_i positive
    exact RefCount.Heap.mem_pointers (List.count_pos_iff.mp positive)
  · cases possible

/-- A thread does a step, and has this rest of its call before it. -/
theorem Orderly.performed (orderly : Orderly classes world) {thread : ThreadId} {op : Action}
    {rest : List Action} {next : Heap} (own : threadOf op = thread)
    (taken : world.heap.step op = some next)
    (live : ∀ worker name, op ≠ .delete worker name)
    (takes : ∀ worker owner moved, op = .take worker owner moved → classes.kind owner = .locator)
    (going : (after (handOf next thread) rest).isSome)
    (mine : ∀ other ∈ rest, threadOf other = thread) (flat : Flat rest)
    (makes : ∀ name ∈ creates (op :: rest), name ∈ creates (world.todo thread))
    (once : (creates (op :: rest)).Nodup) :
    Orderly classes { world.doing thread rest with heap := next } := by
  have names := step_names taken live
  have here : (world.doing thread rest).todo thread = rest := Function.update_self ..
  have elsewhere : ∀ other, other ≠ thread →
      (world.doing thread rest).todo other = world.todo other :=
    fun other different => Function.update_of_ne different ..
  have fewer : ∀ other name, name ∈ creates ((world.doing thread rest).todo other) →
      name ∈ creates (world.todo other) := by
    intro other name member
    by_cases same : other = thread
    · subst same
      rw [here] at member
      apply makes
      rw [← List.singleton_append, creates_append]
      exact List.mem_append_right _ member
    · exact elsewhere other same ▸ member
  constructor
  case sound => exact orderly.sound
  case counted => exact RefCount.Heap.step_counted orderly.counted taken
  case going =>
    intro other
    dsimp only
    by_cases same : other = thread
    · rw [same, here]
      exact going
    · rw [elsewhere other same, step_hand_other (fun equal => same (equal.symm.trans own)) taken]
      exact orderly.going other
  case mine =>
    intro other
    dsimp only
    by_cases same : other = thread
    · rw [same, here]
      exact mine
    · rw [elsewhere other same]
      exact orderly.mine other
  case leads =>
    intro other worker first path later head
    dsimp only at head ⊢
    by_cases same : other = thread
    · rw [same, here] at head
      rw [flat worker first path (head ▸ List.mem_cons_self)]
      trivial
    · rw [elsewhere other same] at head
      exact leads_step orderly.counted taken takes (orderly.first_pointer head)
        (orderly.leads other worker first path later head)
  case flat =>
    intro other op' later head
    dsimp only at head
    by_cases same : other = thread
    · rw [same, here] at head
      intro worker first path member
      exact flat worker first path (head ▸ List.mem_cons_of_mem _ member)
    · rw [elsewhere other same] at head
      exact orderly.flat other op' later head
  case busy =>
    intro other doomed
    dsimp only at doomed ⊢
    by_cases same : other = thread
    · rw [same, here]
      exact flat
    · rw [elsewhere other same]
      rcases step_doomed taken live doomed with equal | before
      · exact absurd (equal.trans own) same
      · exact orderly.busy other before
  case fresh =>
    intro other name member
    dsimp only at member ⊢
    have before := orderly.fresh other name (fewer other name member)
    refine ⟨fun key => ?_, by rw [names.1]; exact before.2⟩
    rcases names.2 name key with old | ⟨worker, members, made⟩
    · exact before.1 old
    · -- the object that was just made is of another call, or of the same one once
      subst made
      have first : name ∈ creates (world.todo thread) := makes name List.mem_cons_self
      have same := orderly.apart other thread name (fewer other name member) first
      subst same
      rw [here] at member
      exact (List.nodup_cons.mp once).1 member
  case used => exact fun other name member => orderly.used other name (fewer other name member)
  case there =>
    intro name key
    rcases names.2 name key with old | ⟨worker, members, made⟩
    · exact orderly.there name old
    · subst made
      exact orderly.used thread name (makes name List.mem_cons_self)
  case gone =>
    intro name member
    dsimp only at member
    rw [names.1] at member
    exact orderly.gone name member
  case apart =>
    intro other another name first second
    exact orderly.apart other another name (fewer other name first) (fewer another name second)
  case once =>
    intro other
    dsimp only
    by_cases same : other = thread
    · rw [same, here]
      rw [← List.singleton_append, creates_append] at once
      exact once.of_append_right
    · rw [elsewhere other same]
      exact orderly.once other

theorem after_drops (thread : ThreadId) (members : List Instance) (hand : Hand)
    (rest : List Action) :
    after (fun name => members.count name + hand name)
        ((members.map fun member => .drop thread member) ++ rest) = after hand rest := by
  induction members with
  | nil =>
      congr 1
      funext name
      simp
  | cons member members ih =>
      have one : lose member (fun name => (member :: members).count name + hand name) =
          fun name => members.count name + hand name := by
        funext name
        simp only [lose, count_cons_name]
        omega
      have positive : 0 < (member :: members).count member + hand member := by
        rw [List.count_cons_self]
        omega
      rw [List.map_cons, List.cons_append, after, afterOp, if_pos positive, one]
      exact ih

theorem creates_drops (thread : ThreadId) (members : List Instance) :
    creates (members.map fun member => .drop thread member) = [] := by
  rw [creates, List.filterMap_eq_nil_iff]
  intro op member
  obtain ⟨_, _, same⟩ := List.mem_map.mp member
  rw [← same]

/-- The destructor of an object drops its members. -/
theorem Orderly.deleted (orderly : Orderly classes world) {thread : ThreadId} {name : Instance}
    (doomed : (thread, name) ∈ world.heap.doomed) :
    ∃ cell heap, world.heap.cells.lookup name = some cell ∧
      world.heap.step (.delete thread name) = some heap ∧
      handOf heap thread = (fun other => cell.members.count other + handOf world.heap thread other) ∧
      Orderly classes
        { world.doing thread
            ((cell.members.map fun member => .drop thread member) ++ world.todo thread) with
          heap := heap } := by
  obtain ⟨cell, found, _⟩ :=
    (orderly.counted.doomed_iff name).mp (List.mem_map_of_mem doomed)
  have taken : world.heap.step (.delete thread name) = some
      { world.heap with
        cells := world.heap.cells.filter fun entry => entry.1 ≠ name
        held := (cell.members.map fun member => (thread, member)) ++ world.heap.held
        doomed := world.heap.doomed.erase (thread, name)
        deleted := name :: world.heap.deleted } := by
    rw [RefCount.Heap.step, if_pos doomed, found]
  have hand : handOf
      { world.heap with
        cells := world.heap.cells.filter fun entry => entry.1 ≠ name
        held := (cell.members.map fun member => (thread, member)) ++ world.heap.held
        doomed := world.heap.doomed.erase (thread, name)
        deleted := name :: world.heap.deleted } thread =
      fun other => cell.members.count other + handOf world.heap thread other := by
    funext other
    simp only [handOf]
    rw [List.count_append, count_own]
  refine ⟨cell, _, found, taken, hand, ?_⟩
  have plain : Flat ((cell.members.map fun member => .drop thread member) ++ world.todo thread) := by
    intro worker first path member
    rcases List.mem_append.mp member with drops | before
    · obtain ⟨_, _, impossible⟩ := List.mem_map.mp drops
      cases impossible
    · exact orderly.busy thread (List.mem_map_of_mem doomed) worker first path before
  have here := Function.update_self thread
    ((cell.members.map fun member => .drop thread member) ++ world.todo thread) world.todo
  have elsewhere : ∀ other, other ≠ thread → Function.update world.todo thread
      ((cell.members.map fun member => .drop thread member) ++ world.todo thread) other =
        world.todo other :=
    fun other different => Function.update_of_ne different ..
  have same_creates : ∀ other, creates (Function.update world.todo thread
      ((cell.members.map fun member => .drop thread member) ++ world.todo thread) other) =
        creates (world.todo other) := by
    intro other
    by_cases same : other = thread
    · rw [same, here, creates_append, creates_drops, List.nil_append]
    · rw [elsewhere other same]
  constructor
  case sound => exact orderly.sound
  case counted => exact RefCount.Heap.step_counted orderly.counted taken
  case going =>
    intro other
    dsimp only [World.doing]
    by_cases same : other = thread
    · rw [same, here, hand, after_drops]
      exact orderly.going thread
    · rw [elsewhere other same, step_hand_other (fun equal => same equal.symm) taken]
      exact orderly.going other
  case mine =>
    intro other op
    dsimp only [World.doing]
    by_cases same : other = thread
    · rw [same, here, List.mem_append]
      rintro (drops | before)
      · obtain ⟨_, _, equal⟩ := List.mem_map.mp drops
        rw [← equal]
        rfl
      · exact orderly.mine thread op before
    · rw [elsewhere other same]
      exact orderly.mine other op
  case leads =>
    intro other worker first path later head
    dsimp only [World.doing] at head ⊢
    by_cases same : other = thread
    · rw [same, here] at head
      rw [plain worker first path (head ▸ List.mem_cons_self)]
      trivial
    · rw [elsewhere other same] at head
      exact leads_step orderly.counted taken (fun _ _ _ impossible => by cases impossible)
        (orderly.first_pointer head) (orderly.leads other worker first path later head)
  case flat =>
    intro other op later head
    dsimp only [World.doing] at head
    by_cases same : other = thread
    · rw [same, here] at head
      intro worker first path member
      exact plain worker first path (head ▸ List.mem_cons_of_mem _ member)
    · rw [elsewhere other same] at head
      exact orderly.flat other op later head
  case busy =>
    intro other still
    dsimp only [World.doing] at still ⊢
    by_cases same : other = thread
    · rw [same, here]
      exact plain
    · rw [elsewhere other same]
      exact orderly.busy other ((List.erase_sublist.map Prod.fst).subset still)
  case fresh =>
    intro other made member
    dsimp only [World.doing] at member ⊢
    rw [same_creates] at member
    have before := orderly.fresh other made member
    constructor
    · intro key
      exact before.1 ((List.filter_sublist.map Prod.fst).subset key)
    · intro removed
      rcases List.mem_cons.mp removed with same | old
      · exact before.1 (same ▸ lookup_of_key.mpr ⟨cell, found⟩)
      · exact before.2 old
  case used =>
    intro other made member
    exact orderly.used other made (same_creates other ▸ member)
  case there =>
    intro other key
    exact orderly.there other ((List.filter_sublist.map Prod.fst).subset key)
  case gone =>
    intro other removed
    rcases List.mem_cons.mp removed with same | old
    · exact orderly.there other (same ▸ lookup_of_key.mpr ⟨cell, found⟩)
    · exact orderly.gone other old
  case apart =>
    intro other another made first second
    exact orderly.apart other another made (same_creates other ▸ first)
      (same_creates another ▸ second)
  case once =>
    intro other
    dsimp only [World.doing]
    rw [same_creates]
    exact orderly.once other

end Mif.Service.Lifetime
