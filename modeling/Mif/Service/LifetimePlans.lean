import Mif.Service.LifetimeSteps

set_option autoImplicit false

/- What a call makes of the pointers of its thread, before the thread takes its first step,
and that such a plan may begin in an orderly world. -/
namespace Mif.Service.Lifetime

open RefCount

variable {classes : Classes} {world : World}

theorem gain_pos (name : Instance) (hand : Hand) : 0 < gain name hand name := by
  simp [gain]

theorem lose_gain (name : Instance) (hand : Hand) : lose name (gain name hand) = hand := by
  funext other
  simp only [lose, gain]
  omega

theorem gain_comm (first second : Instance) (hand : Hand) :
    gain first (gain second hand) = gain second (gain first hand) := by
  funext other
  simp only [gain]
  omega

section

variable {thread : ThreadId} {name : Instance} {hand : Hand} {rest : List Action}

theorem after_path {path : List Instance} (positive : 0 < hand name) :
    after hand (.copy thread name path :: rest) =
      after (gain (path.getLastD name) hand) rest := by
  rw [after, afterOp, if_pos positive, Option.bind_some]

theorem after_copy (positive : 0 < hand name) :
    after hand (.copy thread name [] :: rest) = after (gain name hand) rest :=
  after_path positive

theorem after_drop : after (gain name hand) (.drop thread name :: rest) = after hand rest := by
  rw [after, afterOp, if_pos (gain_pos name hand), lose_gain, Option.bind_some]

theorem after_castOps (positive : 0 < hand name) :
    after hand (castOps thread name ++ rest) = after (gain name hand) rest := by
  simp only [castOps, List.cons_append, List.nil_append]
  rw [after_copy positive, after_copy (gain_pos ..), after_copy (gain_pos ..),
    after_copy (gain_pos ..), after_drop, after_drop, after_drop]

theorem after_failedCastOps (positive : 0 < hand name) :
    after hand (failedCastOps thread name ++ rest) = after hand rest := by
  simp only [failedCastOps, List.cons_append, List.nil_append]
  rw [after_copy positive, after_copy (gain_pos ..), after_drop, after_drop]

theorem after_copies {members : List Instance} (positive : ∀ member ∈ members, 0 < hand member) :
    after hand ((members.map fun member => .copy thread member []) ++ rest) =
      after (fun other => hand other + members.count other) rest := by
  induction members generalizing hand with
  | nil => rfl
  | cons member members ih =>
      rw [List.map_cons, List.cons_append, after_copy (positive member List.mem_cons_self), ih]
      · congr 1
        funext other
        simp only [gain, count_cons_name]
        omega
      · intro other inside
        have before := positive other (List.mem_cons_of_mem _ inside)
        simp only [gain]
        omega

/-- `Make` gives the thread one pointer, or throws and leaves it with what it had. -/
theorem after_makeOps {members : List Instance} {castable : Bool}
    (positive : ∀ member ∈ members, 0 < hand member) :
    after hand (makeOps thread name members castable ++ rest) =
      after (if castable then gain name hand else hand) rest := by
  have made : (gain name fun other => hand other + members.count other - members.count other) =
      gain name hand := by
    congr 1
    funext other
    omega
  have enough : ∀ member ∈ members,
      members.count member ≤ hand member + members.count member := fun _ _ => by omega
  rw [makeOps, List.append_assoc, List.cons_append, after_copies positive, after, afterOp,
    if_pos enough, made]
  dsimp only [Option.bind_some]
  cases castable with
  | true =>
      rw [if_pos rfl, if_pos rfl, List.append_assoc, after_castOps (gain_pos ..)]
      exact after_drop
  | false =>
      rw [if_neg (by simp), if_neg (by simp), List.append_assoc, after_failedCastOps (gain_pos ..)]
      exact after_drop

/-- A query that comes to an object gives the thread one pointer to it. -/
theorem after_queryOps_own {path : List Instance} (positive : 0 < hand name) :
    after hand (queryOps thread name path none) = some (gain (path.getLastD name) hand) := by
  rw [queryOps, after_path positive, after]

/-- A query that comes to a proxy gives the thread the only pointer to a new proxy. -/
theorem after_queryOps_proxy {path : List Instance} {manager made : Instance}
    (positive : 0 < hand name) :
    after hand (queryOps thread name path (some (manager, made))) = some (gain made hand) := by
  have holds : ∀ member ∈ [manager], 0 < gain manager hand member := by
    simp [gain_pos]
  rw [queryOps, List.cons_append, after_path positive, List.getLastD_concat, after_makeOps holds,
    if_pos rfl, after_copy (gain_pos ..), after_copy (gain_pos ..), after_drop, after_drop,
    gain_comm, after_drop, after_copy (gain_pos ..), after_drop, after]

/-- `External::Add` leaves the thread with the pointer that it gave. -/
theorem after_addOps {external service : Instance} (holds : 0 < hand service)
    (positive : 0 < hand external) :
    after hand (addOps thread external service) = some hand := by
  have besides : 0 < gain service hand service ∧
      0 < lose service (gain service (gain service hand)) external := by
    rw [lose_gain]
    refine ⟨gain_pos .., ?_⟩
    simp only [gain]
    omega
  rw [addOps, after_copy holds, after_copy (gain_pos ..), after, afterOp,
    if_pos ⟨gain_pos .., besides.2⟩, lose_gain]
  dsimp only [Option.bind_some]
  rw [after_drop]
  rfl

end

theorem leads_append {cells : List (Instance × Cell Instance)} {first last : Instance}
    {path : List Instance} {cell : Cell Instance} (leads : Leads classes cells first path)
    (solid : classes.kind (path.getLastD first) ≠ .locator)
    (found : cells.lookup (path.getLastD first) = some cell) (member : last ∈ cell.members) :
    Leads classes cells first (path ++ [last]) := by
  induction path generalizing first with
  | nil => exact ⟨solid, ⟨cell, found, member⟩, trivial⟩
  | cons next path ih =>
      rw [List.getLastD_cons] at solid found
      exact ⟨leads.1, leads.2.1, ih leads.2.2 solid found⟩

theorem of_answer {type : TypeInfo} {remote : Instance → Bool} {name : Instance} {proxied : Bool}
    (answers : answer classes type remote name = some proxied) :
    if proxied then classes.kind name = .proxy ∧ remote name = true
    else classes.has name type = true := by
  unfold answer at answers
  split at answers
  · rename_i has
    cases answers
    exact has
  · split at answers
    · rename_i isProxy
      cases answers
      exact isProxy
    · cases answers

/-- What a query finds is at the end of a path of members, and has the interface or is a
proxy for it. -/
theorem leads_of_search {cells : List (Instance × Cell Instance)} {type : TypeInfo}
    {remote : Instance → Bool} {name : Instance} {path : List Instance} {proxied : Bool}
    (found : search classes cells type remote name = some (path, proxied)) :
    Leads classes cells name path ∧
      if proxied then
        classes.kind (path.getLastD name) = .proxy ∧ remote (path.getLastD name) = true
      else classes.has (path.getLastD name) type = true := by
  unfold search at found
  split at found
  · rename_i answers
    cases found
    exact ⟨trivial, of_answer answers⟩
  · obtain ⟨cell, there, found⟩ := Option.bind_eq_some_iff.mp found
    obtain ⟨service, member, inside⟩ := List.exists_of_findSome?_eq_some found
    obtain ⟨proxied, answers, same⟩ := Option.map_eq_some_iff.mp inside
    cases same
    refine ⟨⟨?_, ⟨cell, there, ?_⟩, trivial⟩, of_answer answers⟩
    · intro isLocator
      rw [isLocator] at member
      cases member
    · cases kind : classes.kind name with
      | external others =>
          rw [kind] at member
          exact List.mem_of_mem_drop member
      | plain => simp [kind, Kind.asked] at member
      | proxy => simp [kind, Kind.asked] at member
      | locator => simp [kind, Kind.asked] at member

/-- What a thread is about to do in a call: this becomes of its pointers, and these objects
are made. -/
structure Plan (classes : Classes) (heap : Heap) (thread : ThreadId) (ops : List Action)
    (made : List Instance) (result : Hand) : Prop where
  ends : after (handOf heap thread) ops = some result
  mine : ∀ op ∈ ops, threadOf op = thread
  leads : ∀ worker first path rest, ops = .copy worker first path :: rest →
    Leads classes heap.cells first path
  flat : ∀ op rest, ops = op :: rest → Flat rest
  makes : creates ops = made

/-- A call begins with a plan. -/
theorem Orderly.planned (orderly : Orderly classes world) {thread : ThreadId}
    (idle : world.Idle thread) {ops : List Action} {made : List Instance} {result : Hand}
    (plan : Plan classes world.heap thread ops made result)
    (new : ∀ name ∈ made, name ∉ world.used) (once : made.Nodup) :
    Orderly classes { world.doing thread ops with used := made ++ world.used } := by
  have here := Function.update_self thread ops world.todo
  have elsewhere : ∀ other, other ≠ thread →
      Function.update world.todo thread ops other = world.todo other :=
    fun other different => Function.update_of_ne different ..
  constructor
  case sound => exact orderly.sound
  case counted => exact orderly.counted
  case going =>
    intro other
    dsimp only [World.doing]
    by_cases same : other = thread
    · rw [same, here, plan.ends]
      rfl
    · rw [elsewhere other same]
      exact orderly.going other
  case mine =>
    intro other
    dsimp only [World.doing]
    by_cases same : other = thread
    · rw [same, here]
      exact plan.mine
    · rw [elsewhere other same]
      exact orderly.mine other
  case leads =>
    intro other worker first path rest head
    dsimp only [World.doing] at head ⊢
    by_cases same : other = thread
    · rw [same, here] at head
      exact plan.leads worker first path rest head
    · rw [elsewhere other same] at head
      exact orderly.leads other worker first path rest head
  case flat =>
    intro other op rest head
    dsimp only [World.doing] at head
    by_cases same : other = thread
    · rw [same, here] at head
      exact plan.flat op rest head
    · rw [elsewhere other same] at head
      exact orderly.flat other op rest head
  case busy =>
    intro other doomed
    dsimp only [World.doing] at doomed ⊢
    have different : other ≠ thread := fun same => idle.2 (same ▸ doomed)
    rw [elsewhere other different]
    exact orderly.busy other doomed
  case fresh =>
    intro other name member
    dsimp only [World.doing] at member ⊢
    by_cases same : other = thread
    · rw [same, here, plan.makes] at member
      have unused := new name member
      exact ⟨fun key => unused (orderly.there name key),
        fun removed => unused (orderly.gone name removed)⟩
    · rw [elsewhere other same] at member
      exact orderly.fresh other name member
  case used =>
    intro other name member
    dsimp only [World.doing] at member ⊢
    by_cases same : other = thread
    · rw [same, here, plan.makes] at member
      exact List.mem_append_left _ member
    · rw [elsewhere other same] at member
      exact List.mem_append_right _ (orderly.used other name member)
  case there => exact fun name key => List.mem_append_right _ (orderly.there name key)
  case gone => exact fun name removed => List.mem_append_right _ (orderly.gone name removed)
  case apart =>
    intro other another name first second
    dsimp only [World.doing] at first second
    by_cases same : other = thread
    · by_cases same' : another = thread
      · rw [same, same']
      · rw [same, here, plan.makes] at first
        rw [elsewhere another same'] at second
        exact absurd (orderly.used another name second) (new name first)
    · rw [elsewhere other same] at first
      by_cases same' : another = thread
      · rw [same', here, plan.makes] at second
        exact absurd (orderly.used other name first) (new name second)
      · rw [elsewhere another same'] at second
        exact orderly.apart other another name first second
  case once =>
    intro other
    dsimp only [World.doing]
    by_cases same : other = thread
    · rw [same, here, plan.makes]
      exact once
    · rw [elsewhere other same]
      exact orderly.once other

section

variable {heap : Heap} {thread : ThreadId}

theorem Flat.append {first second : List Action} (flat : Flat first) (others : Flat second) :
    Flat (first ++ second) := by
  intro worker name path member
  rcases List.mem_append.mp member with before | behind
  · exact flat worker name path before
  · exact others worker name path behind

theorem flat_makeOps (thread : ThreadId) (name : Instance) (members : List Instance)
    (castable : Bool) : Flat (makeOps thread name members castable) := by
  apply Flat.append
  · intro worker first path member
    obtain ⟨_, _, same⟩ := List.mem_map.mp member
    cases same
    rfl
  · cases castable <;> simp [Flat, castOps, failedCastOps]

theorem mine_makeOps (thread : ThreadId) (name : Instance) (members : List Instance)
    (castable : Bool) : ∀ op ∈ makeOps thread name members castable, threadOf op = thread := by
  rw [makeOps, List.forall_mem_append]
  constructor
  · intro op member
    obtain ⟨_, _, same⟩ := List.mem_map.mp member
    rw [← same]
    rfl
  · cases castable <;> simp [castOps, failedCastOps, threadOf]

theorem creates_makeOps (thread : ThreadId) (name : Instance) (members : List Instance)
    (castable : Bool) : creates (makeOps thread name members castable) = [name] := by
  have copies : creates (members.map fun member => Action.copy thread member []) = [] := by
    rw [creates, List.filterMap_eq_nil_iff]
    intro op member
    obtain ⟨_, _, same⟩ := List.mem_map.mp member
    rw [← same]
  rw [makeOps, creates_append, copies]
  cases castable <;> rfl

theorem flat_tail {ops : List Action} (flat : Flat ops) {op : Action} {rest : List Action}
    (same : ops = op :: rest) : Flat rest :=
  fun worker first path member =>
    flat worker first path (same ▸ List.mem_cons_of_mem _ member)

theorem leads_flat {ops : List Action} (flat : Flat ops) {worker : ThreadId} {first : Instance}
    {path : List Instance} {rest : List Action} (same : ops = .copy worker first path :: rest) :
    Leads classes heap.cells first path := by
  rw [flat worker first path (same ▸ List.mem_cons_self)]
  trivial

/-- A plan without paths. -/
theorem plan_flat {ops : List Action} {made : List Instance} {result : Hand}
    (ends : after (handOf heap thread) ops = some result)
    (mine : ∀ op ∈ ops, threadOf op = thread) (flat : Flat ops) (makes : creates ops = made) :
    Plan classes heap thread ops made result where
  ends := ends
  mine := mine
  leads _ _ _ _ same := leads_flat flat same
  flat _ _ same := flat_tail flat same
  makes := makes

theorem plan_nothing : Plan classes heap thread [] [] (handOf heap thread) :=
  plan_flat rfl (by simp) (by simp [Flat]) rfl

theorem plan_copy {name : Instance} (held : (thread, name) ∈ heap.held) :
    Plan classes heap thread [.copy thread name []] [] (gain name (handOf heap thread)) := by
  apply plan_flat _ (by simp [threadOf]) (by simp [Flat]) rfl
  exact after_copy (List.count_pos_iff.mpr held)

theorem plan_drop {name : Instance} (held : (thread, name) ∈ heap.held) :
    Plan classes heap thread [.drop thread name] [] (lose name (handOf heap thread)) := by
  apply plan_flat _ (by simp [threadOf]) (by simp [Flat]) rfl
  have positive : 0 < handOf heap thread name := List.count_pos_iff.mpr held
  rw [after, afterOp, if_pos positive]
  rfl

theorem plan_make {name : Instance} {members : List Instance} {castable : Bool}
    (held : ∀ member ∈ members, (thread, member) ∈ heap.held) :
    Plan classes heap thread (makeOps thread name members castable) [name]
      (if castable then gain name (handOf heap thread) else handOf heap thread) := by
  apply plan_flat _ (mine_makeOps thread name members castable)
    (flat_makeOps thread name members castable) (creates_makeOps thread name members castable)
  have whole : after (handOf heap thread) (makeOps thread name members castable ++ []) =
      after (if castable then gain name (handOf heap thread) else handOf heap thread) [] :=
    after_makeOps (fun member inside => List.count_pos_iff.mpr (held member inside))
  rw [List.append_nil] at whole
  exact whole

theorem plan_query_own {name : Instance} {path : List Instance}
    (held : (thread, name) ∈ heap.held) (leads : Leads classes heap.cells name path) :
    Plan classes heap thread (queryOps thread name path none) []
      (gain (path.getLastD name) (handOf heap thread)) where
  ends := after_queryOps_own (List.count_pos_iff.mpr held)
  mine := by simp [queryOps, threadOf]
  leads := by
    intro worker first other rest same
    cases same
    exact leads
  flat := by
    intro op rest same
    cases same
    simp [Flat]
  makes := rfl

theorem plan_query_proxy {name manager made : Instance} {path : List Instance}
    (held : (thread, name) ∈ heap.held)
    (leads : Leads classes heap.cells name (path ++ [manager])) :
    Plan classes heap thread (queryOps thread name path (some (manager, made))) [made]
      (gain made (handOf heap thread)) where
  ends := after_queryOps_proxy (List.count_pos_iff.mpr held)
  mine := by
    rw [queryOps, List.forall_mem_append, List.forall_mem_cons]
    exact ⟨⟨rfl, mine_makeOps thread made [manager] true⟩, by simp [threadOf]⟩
  leads := by
    intro worker first other rest same
    cases same
    exact leads
  flat := by
    intro op rest same
    cases same
    exact (flat_makeOps thread made [manager] true).append (by simp [Flat])
  makes := by
    rw [queryOps, List.cons_append, ← List.singleton_append, creates_append, creates_append,
      creates_makeOps]
    rfl

theorem plan_add {external service : Instance} (holds : (thread, service) ∈ heap.held)
    (held : (thread, external) ∈ heap.held) :
    Plan classes heap thread (addOps thread external service) [] (handOf heap thread) := by
  apply plan_flat _ (by simp [addOps, threadOf]) (by simp [Flat, addOps]) rfl
  exact after_addOps (List.count_pos_iff.mpr holds) (List.count_pos_iff.mpr held)

end

/-- The pointers a thread has when the call that it is in is over. -/
def World.promised (world : World) (thread : ThreadId) : Option Hand :=
  after (handOf world.heap thread) (world.todo thread)

theorem promised_doing_self (world : World) (thread : ThreadId) (ops : List Action)
    (heap : Heap) (used : List Instance) (services : Instance → Services) :
    World.promised
        { world.doing thread ops with heap := heap, used := used, services := services } thread =
      after (handOf heap thread) ops := by
  rw [World.promised]
  congr 1
  exact Function.update_self ..

/-- A thread does not touch what others are promised. -/
theorem promised_doing_other {thread other : ThreadId} (different : other ≠ thread)
    (ops : List Action) (heap : Heap) (used : List Instance) (services : Instance → Services)
    (same : handOf heap other = handOf world.heap other) :
    World.promised
        { world.doing thread ops with heap := heap, used := used, services := services } other =
      world.promised other := by
  rw [World.promised, World.promised]
  congr 1
  exact Function.update_of_ne different ..

end Mif.Service.Lifetime
