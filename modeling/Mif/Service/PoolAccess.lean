import Mif.Service.Pool

set_option autoImplicit false

/- The typed accessor `IPool::GetService<T>()`: the temporary pointer to the
`Holder`, the query through it, and the pointer the caller keeps. -/
namespace Mif.Service

/-- The types a caller can ask for. A `Holder` is an `External` and an
`IService`; every other interface belongs to the pooled service. -/
inductive Interface
  | iService
  | external
  | other (id : Nat)
  deriving DecidableEq, Repr

/-- A pointer returned by `GetService<T>()`: the pooled service it leads to, and
the holder whose reference count it shares if it points to a holder. -/
structure Pointer where
  service : Address
  holder : Option Nat
  deriving DecidableEq, Repr

/-- A call of `GetService<T>()` that has not returned: the temporary pointer
keeps its holder alive to the end of the full expression. -/
structure Call where
  holder : Nat
  service : Address
  interface : Interface
  cast : Bool
  deriving DecidableEq, Repr

/-- A pool and its users. -/
structure Users where
  pool : Pool
  calls : List Call
  held : List Pointer

namespace Users

def new (limit : Nat) : Users := ⟨.new limit, [], []⟩

section Query

-- whether the `Query` of a pooled service finds an interface in it
variable (answers : Address → Nat → Bool)

/-- `dynamic_cast<T *>` of the `IService` of a holder. -/
def dynamicCast (call : Call) : Option Pointer :=
  match call.interface with
  | .iService => some ⟨call.service, some call.holder⟩
  | .external => some ⟨call.service, some call.holder⟩
  | .other _ => none

/-- `External::_Mif_Remote_QueryRemoteInterface`: the services given to `Add` are
asked in turn, here the one of the holder. The pointer found counts as a
reference of that service. -/
def queryRemoteInterface (call : Call) : Option Pointer :=
  match call.interface with
  | .iService => none
  | .external => none
  | .other id => if answers call.service id then some ⟨call.service, none⟩ else none

/-- `Service::Query<T>`, behind which `Service_Impl__<Holder>::Query` finds the
bases of the holder before it asks the proxy. -/
def query (call : Call) : Option Pointer :=
  (dynamicCast call).or (queryRemoteInterface answers call)

end Query

/-- Whether a temporary or a returned pointer still refers to a holder. -/
def referenced (users : Users) (holder : Nat) : Bool :=
  users.calls.any (fun call => call.holder = holder) ||
    users.held.any fun pointer => pointer.holder = some holder

/-- The reference count of a holder goes down. -/
def dropHolder (users : Users) (holder : Nat) : Users :=
  if users.referenced holder then users
  else { users with pool := users.pool.destroyHolder holder }

inductive Action
  /-- The call of the virtual `GetService()`. -/
  | getService (interface : Interface) (check : Address → Option Bool) (created : Address)
  /-- `Service::Cast<T>`, which throws when the query finds nothing. -/
  | cast (index : Nat)
  /-- The end of the full expression. -/
  | finish (index : Nat)
  /-- The caller releases a returned pointer. -/
  | release (index : Nat)

/-- Calls of several threads interleave between these steps. -/
def step (answers : Address → Nat → Bool) (users : Users) : Action → Option Users
  | .getService interface check created =>
      match users.pool.getService check created with
      | (pool, .error _) => some { users with pool := pool }
      | (pool, .ok holder) =>
          (pool.holders.find? fun entry => entry.1 = holder).map fun entry =>
            { users with
              pool := pool, calls := users.calls ++ [⟨holder, entry.2, interface, false⟩] }
  | .cast index =>
      users.calls[index]?.bind fun call =>
        if call.cast then none
        else some { users with
          calls := { call with cast := true } :: users.calls.eraseIdx index
          held := (query answers call).toList ++ users.held }
  | .finish index =>
      users.calls[index]?.bind fun call =>
        if call.cast then
          some ({ users with calls := users.calls.eraseIdx index }.dropHolder call.holder)
        else none
  | .release index =>
      users.held[index]?.map fun pointer =>
        match pointer.holder with
        | none => { users with held := users.held.eraseIdx index }
        | some holder => { users with held := users.held.eraseIdx index }.dropHolder holder

/-- No two pointers still held lead to the same pooled service. -/
def Exclusive (users : Users) : Prop := (users.held.map Pointer.service).Nodup

/-- The factory returns a fresh instance: no object that is still alive. -/
def Fresh (users : Users) : Action → Prop
  | .getService _ check created =>
      users.pool.Fresh (.getService check created) ∧ created ∉ users.held.map Pointer.service
  | _ => True

/-- When `GetService` is entered, every pooled service to which a returned
pointer still refers is marked busy. -/
def Marked (users : Users) : Action → Prop
  | .getService _ _ _ =>
      ∀ pointer ∈ users.held, (pointer.service, false) ∉ users.pool.services
  | _ => True

structure Invariant (users : Users) : Prop where
  pool : users.pool.Invariant
  callsLive : ∀ call ∈ users.calls, (call.holder, call.service) ∈ users.pool.holders
  callIds : (users.calls.map Call.holder).Nodup
  heldLive : ∀ pointer ∈ users.held, ∀ holder, pointer.holder = some holder →
    (holder, pointer.service) ∈ users.pool.holders
  pending : ∀ call ∈ users.calls, call.cast = false →
    call.service ∉ users.held.map Pointer.service
  exclusive : users.Exclusive

theorem new_invariant (limit : Nat) : (new limit).Invariant :=
  ⟨Pool.new_invariant limit, fun _ member => absurd member List.not_mem_nil, .nil,
    fun _ member => absurd member List.not_mem_nil,
    fun _ member => absurd member List.not_mem_nil, .nil⟩

theorem query_service (answers : Address → Nat → Bool) (call : Call) (pointer : Pointer)
    (found : query answers call = some pointer) :
    pointer.service = call.service ∧
      ∀ holder, pointer.holder = some holder → holder = call.holder := by
  unfold query dynamicCast queryRemoteInterface at found
  cases kind : call.interface with
  | iService =>
      rw [kind] at found
      cases found
      exact ⟨rfl, fun holder same => (Option.some.inj same).symm⟩
  | external =>
      rw [kind] at found
      cases found
      exact ⟨rfl, fun holder same => (Option.some.inj same).symm⟩
  | other id =>
      simp only [kind, Option.none_or] at found
      split at found
      · cases found
        exact ⟨rfl, fun holder same => by cases same⟩
      · cases found

theorem destroyHolder_holders (pool : Pool) (holder : Nat) (entry : Nat × Address)
    (member : entry ∈ pool.holders) (other : entry.1 ≠ holder) :
    entry ∈ (pool.destroyHolder holder).holders := by
  unfold Pool.destroyHolder
  split
  · exact member
  · exact List.mem_filter.mpr ⟨member, by simpa using other⟩

/-- A holder that nobody refers to goes without a trace among the users. -/
theorem dropHolder_invariant (users : Users) (held : users.Invariant) (holder : Nat) :
    (users.dropHolder holder).Invariant := by
  unfold dropHolder
  split
  · exact held
  · rename_i unreferenced
    simp only [referenced, Bool.or_eq_true, List.any_eq_true, decide_eq_true_eq, not_or,
      not_exists, not_and] at unreferenced
    refine ⟨Pool.destroyHolder_invariant _ held.pool holder, ?_, held.callIds, ?_, held.pending,
      held.exclusive⟩
    · intro call member
      exact destroyHolder_holders _ _ _ (held.callsLive call member) (unreferenced.1 call member)
    · intro pointer member other same
      refine destroyHolder_holders _ _ _ (held.heldLive pointer member other same) ?_
      rintro rfl
      exact unreferenced.2 pointer member same

theorem getService_invariant (answers : Address → Nat → Bool) (users next : Users)
    (interface : Interface) (check : Address → Option Bool) (created : Address)
    (held : users.Invariant) (fresh : users.Fresh (.getService interface check created))
    (marked : users.Marked (.getService interface check created))
    (taken : users.step answers (.getService interface check created) = some next) :
    next.Invariant := by
  obtain ⟨kept, grant⟩ := Pool.getService_grant users.pool held.pool check created fresh.1
  simp only [step] at taken
  cases result : users.pool.getService check created with
  | mk pool outcome =>
    rw [result] at taken kept
    cases grant with
    | refused failed holders full busy =>
        obtain ⟨what, failed⟩ := failed
        rw [result] at failed holders
        change outcome = throwing what at failed
        subst failed
        cases taken
        refine ⟨kept, ?_, held.callIds, ?_, held.pending, held.exclusive⟩
        · intro call member
          exact holders ▸ held.callsLive call member
        · intro pointer member holder same
          exact holders ▸ held.heldLive pointer member holder same
    | granted service free ok holders =>
        rw [result] at ok holders
        change outcome = .ok users.pool.nextHolder at ok
        subst ok
        obtain ⟨entry, found, rfl⟩ := Option.map_eq_some_iff.mp taken
        have newest : (users.pool.nextHolder, service) ∈ pool.holders := by
          rw [holders]
          simp
        have same : entry = (users.pool.nextHolder, service) := by
          refine List.inj_on_of_nodup_map kept.ids (List.mem_of_find?_eq_some found) newest ?_
          simpa using List.find?_some found
        subst same
        have unknown : users.pool.nextHolder ∉ users.calls.map Call.holder := by
          intro member
          obtain ⟨call, inside, same⟩ := List.mem_map.mp member
          have live := List.mem_map_of_mem (f := Prod.fst) (held.callsLive call inside)
          exact Nat.lt_irrefl _ (same ▸ held.pool.fresh _ live)
        -- a free entry is not held by the guard, a created service is fresh
        have unheld : service ∉ users.held.map Pointer.service := by
          intro member
          rcases free with free | rfl
          · obtain ⟨pointer, inside, rfl⟩ := List.mem_map.mp member
            exact marked pointer inside free
          · exact fresh.2 member
        refine ⟨kept, ?_, ?_, ?_, ?_, held.exclusive⟩
        · intro call member
          rcases List.mem_append.mp member with member | member
          · rw [holders]
            exact List.mem_append_left _ (held.callsLive call member)
          · rw [List.mem_singleton.mp member]
            exact newest
        · rw [List.map_append, List.nodup_append]
          exact ⟨held.callIds, by simp, by grind⟩
        · intro pointer member holder same
          rw [holders]
          exact List.mem_append_left _ (held.heldLive pointer member holder same)
        · intro call member uncast
          rcases List.mem_append.mp member with member | member
          · exact held.pending call member uncast
          · rw [List.mem_singleton.mp member]
            exact unheld

/-- Taking one element out of a list. -/
theorem eraseIdx_perm {α : Type} (items : List α) (index : Nat) (item : α)
    (found : items[index]? = some item) : items.Perm (item :: items.eraseIdx index) := by
  induction items generalizing index with
  | nil => cases found
  | cons first rest ih =>
      cases index with
      | zero =>
          cases found
          exact .refl _
      | succ index => exact ((ih index found).cons first).trans (.swap _ _ _)

theorem cast_invariant (answers : Address → Nat → Bool) (users next : Users) (index : Nat)
    (held : users.Invariant) (taken : users.step answers (.cast index) = some next) :
    next.Invariant := by
  simp only [step, Option.bind_eq_some_iff] at taken
  obtain ⟨call, found, taken⟩ := taken
  split at taken
  · cases taken
  rename_i uncast
  rw [Bool.not_eq_true] at uncast
  cases taken
  have perm := eraseIdx_perm users.calls index call found
  have member : call ∈ users.calls := perm.symm.subset List.mem_cons_self
  have ids : (call.holder :: (users.calls.eraseIdx index).map Call.holder).Nodup :=
    (perm.map Call.holder).nodup_iff.mp held.callIds
  have live : ∀ other ∈ { call with cast := true } :: users.calls.eraseIdx index,
      (other.holder, other.service) ∈ users.pool.holders := by
    intro other inside
    rcases List.mem_cons.mp inside with rfl | inside
    · exact held.callsLive call member
    · exact held.callsLive other (perm.symm.subset (List.mem_cons_of_mem _ inside))
  -- a call that is still to be cast holds another service
  have apart : ∀ other ∈ users.calls.eraseIdx index, other.service ≠ call.service := by
    intro other inside same
    have one := held.callsLive call member
    have two := held.callsLive other (perm.symm.subset (List.mem_cons_of_mem _ inside))
    have equal := List.inj_on_of_nodup_map held.pool.exclusive two one same
    have outside := (List.nodup_cons.mp ids).1
    exact outside ((Prod.mk.inj equal).1 ▸ List.mem_map_of_mem inside)
  have stays : ∀ other ∈ { call with cast := true } :: users.calls.eraseIdx index,
      other.cast = false → other.service ∉ users.held.map Pointer.service ∧
        other.service ≠ call.service := by
    intro other inside waiting
    rcases List.mem_cons.mp inside with rfl | inside
    · cases waiting
    · exact ⟨held.pending other (perm.symm.subset (List.mem_cons_of_mem _ inside)) waiting,
        apart other inside⟩
  cases answer : query answers call with
  | none =>
      refine ⟨held.pool, live, ids, held.heldLive, ?_, held.exclusive⟩
      intro other inside waiting
      exact (stays other inside waiting).1
  | some pointer =>
      obtain ⟨leads, owner⟩ := query_service answers call pointer answer
      refine ⟨held.pool, live, ids, ?_, ?_, ?_⟩
      · intro any inside holder same
        rcases List.mem_cons.mp inside with rfl | inside
        · rw [owner holder same, leads]
          exact held.callsLive call member
        · exact held.heldLive any inside holder same
      · intro other inside waiting
        obtain ⟨unheld, different⟩ := stays other inside waiting
        change other.service ∉ pointer.service :: users.held.map Pointer.service
        rw [List.mem_cons, leads]
        exact not_or.mpr ⟨different, unheld⟩
      · change (pointer.service :: users.held.map Pointer.service).Nodup
        rw [leads]
        exact List.nodup_cons.mpr ⟨held.pending call member uncast, held.exclusive⟩

theorem finish_invariant (answers : Address → Nat → Bool) (users next : Users) (index : Nat)
    (held : users.Invariant) (taken : users.step answers (.finish index) = some next) :
    next.Invariant := by
  simp only [step, Option.bind_eq_some_iff] at taken
  obtain ⟨call, found, taken⟩ := taken
  split at taken
  · cases taken
    have fewer := List.eraseIdx_sublist users.calls index
    refine dropHolder_invariant { users with calls := users.calls.eraseIdx index }
      ⟨held.pool, ?_, ?_, held.heldLive, ?_, held.exclusive⟩ _
    · exact fun other member => held.callsLive other (fewer.subset member)
    · exact held.callIds.sublist (fewer.map Call.holder)
    · exact fun other member => held.pending other (fewer.subset member)
  · cases taken

theorem release_invariant (answers : Address → Nat → Bool) (users next : Users) (index : Nat)
    (held : users.Invariant) (taken : users.step answers (.release index) = some next) :
    next.Invariant := by
  simp only [step, Option.map_eq_some_iff] at taken
  obtain ⟨pointer, found, taken⟩ := taken
  have fewer := List.eraseIdx_sublist users.held index
  have kept : { users with held := users.held.eraseIdx index }.Invariant := by
    refine ⟨held.pool, held.callsLive, held.callIds, ?_, ?_, ?_⟩
    · exact fun other member => held.heldLive other (fewer.subset member)
    · exact fun call member waiting inside =>
        held.pending call member waiting ((fewer.map Pointer.service).subset inside)
    · exact held.exclusive.sublist (fewer.map Pointer.service)
  cases owner : pointer.holder with
  | none =>
      rw [owner] at taken
      cases taken
      exact kept
  | some holder =>
      rw [owner] at taken
      cases taken
      exact dropHolder_invariant _ kept holder

theorem step_invariant (answers : Address → Nat → Bool) (users : Users) (action : Action)
    (next : Users) (held : users.Invariant)
    (guarded : users.Fresh action ∧ users.Marked action)
    (taken : users.step answers action = some next) : next.Invariant := by
  cases action with
  | getService interface check created =>
      exact getService_invariant answers users next interface check created held guarded.1
        guarded.2 taken
  | cast index => exact cast_invariant answers users next index held taken
  | finish index => exact finish_invariant answers users next index held taken
  | release index => exact release_invariant answers users next index held taken

/-- Exclusive use through the typed accessor, in every run in which no call
starts while a pointer is held to an entry that has lost its mark. -/
theorem exclusive_of_marked (answers : Address → Nat → Bool) (limit : Nat)
    (actions : List Action) (users : Users)
    (guarded : Transition.Along (step answers) (fun users action =>
      users.Fresh action ∧ users.Marked action) (new limit) actions)
    (reached : Transition.run (step answers) (new limit) actions = some users) :
    users.Exclusive :=
  (Transition.run_invariant (step_invariant answers) (new_invariant limit) guarded
    reached).exclusive

/-- A type that the `Holder` itself is. -/
def Interface.ofHolder : Interface → Bool
  | .iService => true
  | .external => true
  | .other _ => false

/-- The calls ask only for types of the `Holder`. -/
def AsksHolder : Action → Prop
  | .getService interface _ _ => Interface.ofHolder interface = true
  | _ => True

/-- Every returned pointer keeps its holder alive. -/
structure HolderOnly (users : Users) : Prop where
  held : ∀ pointer ∈ users.held, pointer.holder ≠ none
  calls : ∀ call ∈ users.calls, Interface.ofHolder call.interface = true

theorem HolderOnly.drop {users : Users} (only : users.HolderOnly) (holder : Nat) :
    (users.dropHolder holder).HolderOnly := by
  unfold dropHolder
  split
  · exact only
  · exact ⟨only.held, only.calls⟩

theorem query_ofHolder (answers : Address → Nat → Bool) (call : Call)
    (kind : Interface.ofHolder call.interface = true) :
    query answers call = some ⟨call.service, some call.holder⟩ := by
  unfold query dynamicCast
  cases named : call.interface with
  | iService => rfl
  | external => rfl
  | other id =>
      rw [named] at kind
      cases kind

theorem step_holderOnly (answers : Address → Nat → Bool) (users : Users) (action : Action)
    (next : Users) (only : users.HolderOnly) (asks : AsksHolder action)
    (taken : users.step answers action = some next) : next.HolderOnly := by
  cases action with
  | getService interface check created =>
      simp only [step] at taken
      split at taken
      · cases taken
        exact ⟨only.held, only.calls⟩
      · obtain ⟨entry, -, rfl⟩ := Option.map_eq_some_iff.mp taken
        refine ⟨only.held, ?_⟩
        intro call member
        rcases List.mem_append.mp member with member | member
        · exact only.calls call member
        · rw [List.mem_singleton.mp member]
          exact asks
  | cast index =>
      simp only [step, Option.bind_eq_some_iff] at taken
      obtain ⟨call, found, taken⟩ := taken
      have kind := only.calls call (List.mem_of_getElem? found)
      split at taken
      · cases taken
      · rw [query_ofHolder answers call kind] at taken
        cases taken
        refine ⟨?_, ?_⟩
        · intro pointer member
          rcases List.mem_cons.mp member with rfl | member
          · exact Option.some_ne_none _
          · exact only.held pointer member
        · intro other member
          rcases List.mem_cons.mp member with rfl | member
          · exact kind
          · exact only.calls other (List.mem_of_mem_eraseIdx member)
  | finish index =>
      simp only [step, Option.bind_eq_some_iff] at taken
      obtain ⟨call, -, taken⟩ := taken
      split at taken
      · cases taken
        have kept : { users with calls := users.calls.eraseIdx index }.HolderOnly :=
          ⟨only.held, fun other member => only.calls other (List.mem_of_mem_eraseIdx member)⟩
        exact kept.drop call.holder
      · cases taken
  | release index =>
      simp only [step, Option.map_eq_some_iff] at taken
      obtain ⟨pointer, -, taken⟩ := taken
      have kept : { users with held := users.held.eraseIdx index }.HolderOnly :=
        ⟨fun other member => only.held other (List.mem_of_mem_eraseIdx member), only.calls⟩
      cases owner : pointer.holder with
      | none =>
          rw [owner] at taken
          cases taken
          exact kept
      | some holder =>
          rw [owner] at taken
          cases taken
          exact kept.drop holder

/-- A pointer to a live holder keeps the mark of its entry. -/
theorem Invariant.marked {users : Users} (held : users.Invariant) (only : users.HolderOnly)
    (action : Action) : users.Marked action := by
  cases action with
  | getService interface check created =>
      intro pointer member free
      obtain ⟨holder, owner⟩ := Option.ne_none_iff_exists'.mp (only.held pointer member)
      have live := List.mem_map_of_mem (f := Prod.snd) (held.heldLive pointer member holder owner)
      exact absurd ((held.pool.marked _ _ free).mpr live) (by decide)
  | cast index => trivial
  | finish index => trivial
  | release index => trivial

/-- Callers that ask for `IService` keep the holder, and with it exclusive use,
without any discipline of their own. -/
theorem holder_pointers_exclusive (answers : Address → Nat → Bool) (limit : Nat)
    (actions : List Action) (users : Users)
    (guarded : Transition.Along (step answers) (fun users action =>
      users.Fresh action ∧ AsksHolder action) (new limit) actions)
    (reached : Transition.run (step answers) (new limit) actions = some users) :
    users.Exclusive := by
  have start : (new limit).Invariant ∧ (new limit).HolderOnly :=
    ⟨new_invariant limit, fun _ member => absurd member List.not_mem_nil,
      fun _ member => absurd member List.not_mem_nil⟩
  have preserved : ∀ (users : Users) (action : Action) (next : Users),
      users.Invariant ∧ users.HolderOnly → users.Fresh action ∧ AsksHolder action →
      users.step answers action = some next → next.Invariant ∧ next.HolderOnly := by
    rintro users action next ⟨held, only⟩ ⟨fresh, asks⟩ taken
    exact ⟨step_invariant answers users action next held ⟨fresh, held.marked only action⟩ taken,
      step_holderOnly answers users action next only asks taken⟩
  exact (Transition.run_invariant preserved start guarded reached).1.exclusive

/-- A typed pointer that is released before the next call. -/
theorem exclusive_one_after_another :
    ∃ users, Transition.run (step fun _ _ => true) (new 2)
        [.getService (.other 0) (fun _ => none) 10, .cast 0, .finish 0, .release 0,
          .getService (.other 0) (fun _ => none) 20, .cast 0, .finish 0] = some users ∧
      users.held = [⟨10, none⟩] ∧ users.Exclusive := by
  refine ⟨_, rfl, rfl, ?_⟩
  refine exclusive_of_marked (fun _ _ => true) 2
    [.getService (.other 0) (fun _ => none) 10, .cast 0, .finish 0, .release 0,
      .getService (.other 0) (fun _ => none) 20, .cast 0, .finish 0] _ ?_ rfl
  simp [Transition.Along, Fresh, Marked, Pool.Fresh, step, new, Pool.new, Pool.getService,
    Pool.scan, Pool.emplace, Pool.hold, Pool.mark, query, dynamicCast,
    queryRemoteInterface, dropHolder, referenced, Pool.destroyHolder]

/-- Two calls of `GetService<T>()` for an interface of the service, both pointers
held: the pool of two hands out the same service twice. -/
theorem typed_pointers_share_service :
    ∃ users, Transition.run (step fun _ _ => true) (new 2)
        [.getService (.other 0) (fun _ => none) 10, .cast 0, .finish 0,
          .getService (.other 0) (fun _ => none) 20, .cast 0, .finish 0] = some users ∧
      Transition.Along (step fun _ _ => true) Fresh (new 2)
        [.getService (.other 0) (fun _ => none) 10, .cast 0, .finish 0,
          .getService (.other 0) (fun _ => none) 20, .cast 0, .finish 0] ∧
      users.held = [⟨10, none⟩, ⟨10, none⟩] ∧ ¬ users.Exclusive := by
  refine ⟨_, rfl, ?_, rfl, ?_⟩
  · simp [Transition.Along, Fresh, Pool.Fresh, step, new, Pool.new, Pool.getService,
      Pool.scan, Pool.emplace, Pool.hold, Pool.mark, query, dynamicCast,
      queryRemoteInterface, dropHolder, referenced, Pool.destroyHolder]
  · unfold Exclusive
    decide

end Users

end Mif.Service
