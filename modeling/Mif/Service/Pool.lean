import Mathlib.Data.List.Nodup
import Mif.Lib.Transition
import Mif.Common.Fault

set_option autoImplicit false

/- `Service::Detail::Pool`. Each call of `GetService` and each destructor of a
`Holder` runs under the lock of the pool and is one step. -/
namespace Mif.Service

/-- The address of a pooled service object. -/
abbrev Address := Nat

/-- The pool with the `Holder` objects that are alive. `check` answers of the
services are given to each call: `none` when the service is not `ICheckable`,
otherwise what `IsGood` returns. -/
structure Pool where
  limit : Nat
  /-- `m_services` in the order of its keys, with the busy marks. -/
  services : List (Address × Bool)
  /-- Live holders and the services they wrap. -/
  holders : List (Nat × Address)
  nextHolder : Nat
  deriving DecidableEq, Repr

namespace Pool

def new (limit : Nat) : Pool := ⟨limit, [], [], 0⟩

/-- The checks of the constructor. -/
def make (limit : Nat) (factory : Bool) : Outcome Pool :=
  if limit = 0 then throwing "[Mif::Service::Detail::Pool] The limit must be greater than 0."
  else if factory then .ok (new limit)
  else throwing "[Mif::Service::Detail::Pool] The factory pointer must not be empty."

/-- An entry that the loop keeps. -/
def keeps (check : Address → Option Bool) (service : Address) : Bool :=
  check service != some false

/-- The loop of `GetService`: bad entries are erased on the way to the first
good one that is not busy, and the entries behind it are not visited. -/
def scan (check : Address → Option Bool) :
    List (Address × Bool) → List (Address × Bool) × Option Address
  | [] => ([], none)
  | (service, busy) :: rest =>
      if keeps check service then
        if busy then
          let (others, found) := scan check rest
          ((service, busy) :: others, found)
        else ((service, busy) :: rest, some service)
      else scan check rest

/-- `m_services.find(service)` and the assignment of its mark. -/
def mark (service : Address) (busy : Bool) :
    List (Address × Bool) → Option (List (Address × Bool))
  | [] => none
  | (key, old) :: rest =>
      if key = service then some ((key, busy) :: rest)
      else (mark service busy rest).map ((key, old) :: ·)

/-- `m_services.emplace(service, false)` -/
def emplace (service : Address) : List (Address × Bool) → List (Address × Bool)
  | [] => [(service, false)]
  | (key, busy) :: rest =>
      if service < key then (service, false) :: (key, busy) :: rest
      else if service = key then (key, busy) :: rest
      else (key, busy) :: emplace service rest

/-- The constructor of `Holder`. -/
def hold (pool : Pool) (service : Address) : Pool × Outcome Nat :=
  match mark service true pool.services with
  | none => (pool, throwing "Service for lock not found.")
  | some services =>
      ({ pool with
          services := services, holders := pool.holders ++ [(pool.nextHolder, service)]
          nextHolder := pool.nextHolder + 1 }, .ok pool.nextHolder)

/-- `Pool::GetService`, with the instance the factory would create. -/
def getService (pool : Pool) (check : Address → Option Bool) (created : Address) :
    Pool × Outcome Nat :=
  match scan check pool.services with
  | (services, some service) => { pool with services := services }.hold service
  | (services, none) =>
      if pool.limit ≤ services.length then
        ({ pool with services := services },
          throwing ("[Mif::Service::Detail::Pool::GetService] Failed to get service. " ++
            "Maximum limit reached (" ++ toString pool.limit ++ ")."))
      else { pool with services := emplace created services }.hold created

/-- The destructor of `Holder`. An entry that has gone is only logged. -/
def destroyHolder (pool : Pool) (holder : Nat) : Pool :=
  match pool.holders.find? fun entry => entry.1 = holder with
  | none => pool
  | some (_, service) =>
      { pool with
        holders := pool.holders.filter fun entry => entry.1 ≠ holder
        services := (mark service false pool.services).getD pool.services }

/-- The calls that change a pool. -/
inductive Action
  | getService (check : Address → Option Bool) (created : Address)
  | destroyHolder (holder : Nat)

def step (pool : Pool) : Action → Option Pool
  | .getService check created => some (pool.getService check created).1
  | .destroyHolder holder => some (pool.destroyHolder holder)

/-- The factory returns a fresh instance: no object that is still alive. -/
def Fresh (pool : Pool) : Action → Prop
  | .getService _ created =>
      created ∉ pool.services.map Prod.fst ∧ created ∉ pool.holders.map Prod.snd
  | .destroyHolder _ => True

/-- The number of live holders that wrap a service. -/
def wrapped (pool : Pool) (service : Address) : Nat := (pool.holders.map Prod.snd).count service

/-- Some entry is good and free, or a new one fits once bad entries are dropped. -/
def Available (pool : Pool) (check : Address → Option Bool) : Prop :=
  (∃ service, (service, false) ∈ pool.services ∧ keeps check service = true) ∨
    (pool.services.filter fun entry => keeps check entry.1).length < pool.limit

/-- What the pool promises in every state. -/
structure Sound (pool : Pool) : Prop where
  bounded : pool.services.length ≤ pool.limit
  exclusive : ∀ service, pool.wrapped service ≤ 1
  marked : ∀ service busy, (service, busy) ∈ pool.services →
    (busy = true ↔ pool.wrapped service = 1)
  serves : ∀ check created, pool.Fresh (.getService check created) → pool.Available check →
    ∃ holder service, (pool.getService check created).2 = .ok holder ∧
      (holder, service) ∈ (pool.getService check created).1.holders

/-- The representation invariant. -/
structure Invariant (pool : Pool) : Prop where
  bounded : pool.services.length ≤ pool.limit
  keys : (pool.services.map Prod.fst).Nodup
  exclusive : (pool.holders.map Prod.snd).Nodup
  ids : (pool.holders.map Prod.fst).Nodup
  fresh : ∀ holder ∈ pool.holders.map Prod.fst, holder < pool.nextHolder
  marked : ∀ service busy, (service, busy) ∈ pool.services →
    (busy = true ↔ service ∈ pool.holders.map Prod.snd)

theorem scan_sublist (check : Address → Option Bool) (services : List (Address × Bool)) :
    (scan check services).1.Sublist services := by
  induction services with
  | nil => exact .slnil
  | cons entry rest ih =>
      obtain ⟨service, busy⟩ := entry
      unfold scan
      split
      · split
        · exact ih.cons_cons _
        · exact List.Sublist.refl _
      · exact ih.cons _

theorem scan_some (check : Address → Option Bool) (services : List (Address × Bool))
    (service : Address) (found : (scan check services).2 = some service) :
    (service, false) ∈ (scan check services).1 ∧ keeps check service = true := by
  induction services with
  | nil => cases found
  | cons entry rest ih =>
      obtain ⟨key, busy⟩ := entry
      unfold scan at found ⊢
      split
      · rename_i kept
        simp only [kept, ↓reduceIte] at found
        split
        · rename_i locked
          simp only [locked, ↓reduceIte] at found
          obtain ⟨member, good⟩ := ih found
          exact ⟨List.mem_cons_of_mem _ member, good⟩
        · rename_i unlocked
          simp only [unlocked, Bool.false_eq_true, ↓reduceIte, Option.some.injEq] at found
          subst found
          simp only [Bool.not_eq_true] at unlocked
          rw [unlocked]
          exact ⟨List.mem_cons_self, kept⟩
      · rename_i erased
        simp only [erased, Bool.false_eq_true, ↓reduceIte] at found
        exact ih found

/-- A loop that runs to the end has erased every bad entry and met no free one. -/
theorem scan_none (check : Address → Option Bool) (services : List (Address × Bool))
    (missing : (scan check services).2 = none) :
    (scan check services).1 = services.filter (fun entry => keeps check entry.1) ∧
      ∀ service busy, (service, busy) ∈ services → keeps check service = true → busy = true := by
  induction services with
  | nil => exact ⟨rfl, fun service busy member => absurd member List.not_mem_nil⟩
  | cons entry rest ih =>
      obtain ⟨key, locked⟩ := entry
      unfold scan at missing ⊢
      by_cases kept : keeps check key = true
      · simp only [kept, ↓reduceIte] at missing ⊢
        cases locked with
        | false => cases missing
        | true =>
            obtain ⟨same, allBusy⟩ := ih missing
            refine ⟨by simp only [↓reduceIte, same, kept, List.filter_cons_of_pos], ?_⟩
            intro service busy member good
            rcases List.mem_cons.mp member with first | member
            · exact (Prod.mk.inj first).2
            · exact allBusy service busy member good
      · simp only [kept, Bool.false_eq_true, ↓reduceIte] at missing ⊢
        obtain ⟨same, allBusy⟩ := ih missing
        refine ⟨by rw [same, List.filter_cons_of_neg (by simpa using kept)], ?_⟩
        intro service busy member good
        rcases List.mem_cons.mp member with first | member
        · rw [(Prod.mk.inj first).1] at good
          exact absurd good kept
        · exact allBusy service busy member good

theorem mark_isSome (service : Address) (busy : Bool) (services : List (Address × Bool)) :
    (mark service busy services).isSome ↔ service ∈ services.map Prod.fst := by
  induction services with
  | nil => simp [mark]
  | cons entry rest ih =>
      obtain ⟨key, old⟩ := entry
      unfold mark
      split
      · rename_i same
        simp [same]
      · rename_i other
        simp only [Option.isSome_map, ih, List.map_cons, List.mem_cons]
        exact (or_iff_right fun same => other same.symm).symm

theorem mark_keys (service : Address) (busy : Bool) (services marked : List (Address × Bool))
    (done : mark service busy services = some marked) :
    marked.map Prod.fst = services.map Prod.fst := by
  induction services generalizing marked with
  | nil => cases done
  | cons entry rest ih =>
      obtain ⟨key, old⟩ := entry
      unfold mark at done
      split at done
      · cases done
        rfl
      · obtain ⟨others, found, rfl⟩ := Option.map_eq_some_iff.mp done
        simp only [List.map_cons, ih others found]

/-- Marking changes the one entry of the service. -/
theorem mark_mem (service : Address) (busy : Bool) (services marked : List (Address × Bool))
    (keys : (services.map Prod.fst).Nodup) (done : mark service busy services = some marked)
    (key : Address) (value : Bool) :
    (key, value) ∈ marked ↔
      (key = service ∧ value = busy) ∨ (key ≠ service ∧ (key, value) ∈ services) := by
  induction services generalizing marked with
  | nil => cases done
  | cons entry rest ih =>
      obtain ⟨first, old⟩ := entry
      rw [List.map_cons, List.nodup_cons] at keys
      unfold mark at done
      split at done
      · rename_i same
        cases done
        subst same
        have others : (key, value) ∈ rest → key ≠ first := by
          rintro member rfl
          exact keys.1 (List.mem_map.mpr ⟨_, member, rfl⟩)
        simp only [List.mem_cons, Prod.mk.injEq]
        grind
      · rename_i other
        obtain ⟨others, found, rfl⟩ := Option.map_eq_some_iff.mp done
        simp only [List.mem_cons, Prod.mk.injEq, ih others keys.2 found]
        grind

theorem emplace_perm (service : Address) (services : List (Address × Bool))
    (absent : service ∉ services.map Prod.fst) :
    (emplace service services).Perm ((service, false) :: services) := by
  induction services with
  | nil => exact .refl _
  | cons entry rest ih =>
      obtain ⟨key, busy⟩ := entry
      rw [List.map_cons, List.mem_cons, not_or] at absent
      unfold emplace
      split
      · exact .refl _
      · split
        · rename_i same
          exact absurd same absent.1
        · exact ((ih absent.2).cons _).trans (.swap _ _ _)

theorem new_invariant (limit : Nat) : (new limit).Invariant :=
  ⟨Nat.zero_le _, .nil, .nil, .nil, fun _ member => absurd member List.not_mem_nil,
    fun _ _ member => absurd member List.not_mem_nil⟩

/-- Erasing entries keeps the invariant: a mark only speaks about its own entry. -/
theorem Invariant.erase {pool : Pool} (held : pool.Invariant) {services : List (Address × Bool)}
    (fewer : services.Sublist pool.services) : { pool with services := services }.Invariant where
  bounded := Nat.le_trans fewer.length_le held.bounded
  keys := held.keys.sublist (fewer.map Prod.fst)
  exclusive := held.exclusive
  ids := held.ids
  fresh := held.fresh
  marked := fun service busy member => held.marked service busy (fewer.subset member)

/-- A holder of a free entry. -/
theorem hold_free (pool : Pool) (held : pool.Invariant) (service : Address)
    (free : (service, false) ∈ pool.services) :
    ∃ services, pool.hold service =
        ({ pool with
            services := services, holders := pool.holders ++ [(pool.nextHolder, service)]
            nextHolder := pool.nextHolder + 1 }, .ok pool.nextHolder) ∧
      (pool.hold service).1.Invariant := by
  have present : service ∈ pool.services.map Prod.fst := List.mem_map.mpr ⟨_, free, rfl⟩
  obtain ⟨services, done⟩ := Option.isSome_iff_exists.mp
    ((mark_isSome service true pool.services).mpr present)
  have unwrapped : service ∉ pool.holders.map Prod.snd := by
    intro member
    exact absurd ((held.marked service false free).mpr member) (by decide)
  have newId : pool.nextHolder ∉ pool.holders.map Prod.fst := by
    intro member
    exact Nat.lt_irrefl _ (held.fresh _ member)
  have result : pool.hold service =
      ({ pool with
          services := services, holders := pool.holders ++ [(pool.nextHolder, service)]
          nextHolder := pool.nextHolder + 1 }, .ok pool.nextHolder) := by
    unfold hold
    rw [done]
  refine ⟨services, result, ?_⟩
  rw [result]
  have keys := mark_keys service true pool.services services done
  refine ⟨?_, ?_, ?_, ?_, ?_, ?_⟩
  · have same := congrArg List.length keys
    rw [List.length_map, List.length_map] at same
    exact same ▸ held.bounded
  · exact keys ▸ held.keys
  · rw [List.map_append, List.nodup_append]
    exact ⟨held.exclusive, by simp, by grind⟩
  · rw [List.map_append, List.nodup_append]
    exact ⟨held.ids, by simp, by grind⟩
  · intro holder member
    rw [List.map_append, List.mem_append] at member
    rcases member with member | member
    · exact Nat.lt_succ_of_lt (held.fresh holder member)
    · rw [List.mem_singleton.mp member]
      exact Nat.lt_succ_self _
  · intro key busy member
    rw [mark_mem service true pool.services services held.keys done] at member
    rw [List.map_append, List.mem_append]
    rcases member with ⟨rfl, rfl⟩ | ⟨other, member⟩
    · simp
    · rw [held.marked key busy member]
      simp [other]

/-- What `GetService` can do: hold a free good entry or a created one, or fail
in a full pool. -/
inductive Grant (pool : Pool) (check : Address → Option Bool) (created : Address) : Prop
  | granted (service : Address) (free : (service, false) ∈ pool.services ∨ service = created)
      (ok : (pool.getService check created).2 = .ok pool.nextHolder)
      (holders : (pool.getService check created).1.holders =
        pool.holders ++ [(pool.nextHolder, service)])
  | refused (failed : ∃ what, (pool.getService check created).2 = throwing what)
      (holders : (pool.getService check created).1.holders = pool.holders)
      (full : pool.limit ≤ (pool.services.filter fun entry => keeps check entry.1).length)
      (busy : ∀ service, (service, false) ∈ pool.services → keeps check service = false)

theorem getService_grant (pool : Pool) (held : pool.Invariant) (check : Address → Option Bool)
    (created : Address) (fresh : pool.Fresh (.getService check created)) :
    (pool.getService check created).1.Invariant ∧ pool.Grant check created := by
  have fewer := scan_sublist check pool.services
  have erased := held.erase fewer
  unfold getService
  cases scanned : scan check pool.services with
  | mk services found =>
    rw [scanned] at fewer erased
    cases found with
    | some service =>
        have free := (scan_some check pool.services service (by rw [scanned])).1
        rw [scanned] at free
        obtain ⟨marked, result, kept⟩ := hold_free _ erased service free
        refine ⟨kept, ?_⟩
        have same : pool.getService check created =
            { pool with services := services }.hold service := by
          simp only [getService, scanned]
        refine .granted service (Or.inl (fewer.subset free)) ?_ ?_
        · rw [same, result]
        · rw [same, result]
    | none =>
        obtain ⟨filtered, busy⟩ := scan_none check pool.services (by rw [scanned])
        rw [scanned] at filtered
        by_cases full : pool.limit ≤ services.length
        · simp only [full, ↓reduceIte]
          refine ⟨erased, .refused ?_ ?_ (filtered ▸ full) ?_⟩
          · simp only [getService, scanned, full, ↓reduceIte]
            exact ⟨_, rfl⟩
          · simp only [getService, scanned, full, ↓reduceIte]
          · intro service member
            by_contra good
            rw [Bool.not_eq_false] at good
            exact absurd (busy service false member good) (by decide)
        · simp only [full, ↓reduceIte]
          have absent : created ∉ services.map Prod.fst := fun member =>
            fresh.1 ((fewer.map Prod.fst).subset member)
          have perm := emplace_perm created services absent
          have grown : { pool with services := emplace created services }.Invariant := by
            refine ⟨?_, ?_, held.exclusive, held.ids, held.fresh, ?_⟩
            · change (emplace created services).length ≤ pool.limit
              rw [perm.length_eq, List.length_cons]
              omega
            · exact (perm.map Prod.fst).nodup_iff.mpr (List.nodup_cons.mpr ⟨absent, erased.keys⟩)
            · intro key mark member
              rcases List.mem_cons.mp (perm.subset member) with first | member
              · obtain ⟨rfl, rfl⟩ := Prod.mk.inj first
                exact iff_of_false (by decide) fresh.2
              · exact erased.marked key mark member
          obtain ⟨marked, result, kept⟩ := hold_free _ grown created
            (perm.symm.subset List.mem_cons_self)
          refine ⟨kept, .granted created (Or.inr rfl) ?_ ?_⟩
          · simp only [getService, scanned, full, ↓reduceIte, result]
          · simp only [getService, scanned, full, ↓reduceIte, result]

/-- Without one holder exactly its service is no longer wrapped. -/
theorem Invariant.remaining {pool : Pool} (held : pool.Invariant) {holder : Nat}
    {service : Address} (member : (holder, service) ∈ pool.holders) (other : Address) :
    other ∈ (pool.holders.filter fun entry => entry.1 ≠ holder).map Prod.snd ↔
      other ∈ pool.holders.map Prod.snd ∧ other ≠ service := by
  constructor
  · intro kept
    obtain ⟨⟨id, wrapped⟩, inside, rfl⟩ := List.mem_map.mp kept
    obtain ⟨inside, different⟩ := List.mem_filter.mp inside
    refine ⟨List.mem_map.mpr ⟨_, inside, rfl⟩, ?_⟩
    rintro rfl
    have same := List.inj_on_of_nodup_map held.exclusive inside member rfl
    rw [(Prod.mk.inj same).1] at different
    simp at different
  · rintro ⟨kept, different⟩
    obtain ⟨⟨id, wrapped⟩, inside, rfl⟩ := List.mem_map.mp kept
    refine List.mem_map.mpr ⟨(id, wrapped), List.mem_filter.mpr ⟨inside, ?_⟩, rfl⟩
    simp only [ne_eq, decide_not, Bool.not_eq_eq_eq_not, Bool.not_true, decide_eq_false_iff_not]
    rintro rfl
    have same := List.inj_on_of_nodup_map held.ids inside member rfl
    exact different (Prod.mk.inj same).2

theorem destroyHolder_invariant (pool : Pool) (held : pool.Invariant) (holder : Nat) :
    (pool.destroyHolder holder).Invariant := by
  unfold destroyHolder
  cases found : pool.holders.find? (fun entry => entry.1 = holder) with
  | none => exact held
  | some entry =>
      obtain ⟨id, service⟩ := entry
      have member := List.mem_of_find?_eq_some found
      obtain rfl : id = holder := by simpa using List.find?_some found
      have fewer := List.filter_sublist (l := pool.holders) (p := fun entry => entry.1 ≠ id)
      have exclusive := held.exclusive.sublist (fewer.map Prod.snd)
      have ids := held.ids.sublist (fewer.map Prod.fst)
      have fresh : ∀ other ∈ (pool.holders.filter fun entry => entry.1 ≠ id).map Prod.fst,
          other < pool.nextHolder :=
        fun other kept => held.fresh other ((fewer.map Prod.fst).subset kept)
      dsimp only
      cases marked : mark service false pool.services with
      | none =>
          rw [Option.getD_none]
          -- the entry was erased while it was held
          have absent : service ∉ pool.services.map Prod.fst := by
            rw [← mark_isSome service false, marked]
            decide
          refine ⟨held.bounded, held.keys, exclusive, ids, fresh, ?_⟩
          intro key busy inside
          rw [held.remaining member, held.marked key busy inside]
          refine (and_iff_left ?_).symm
          rintro rfl
          exact absent (List.mem_map.mpr ⟨_, inside, rfl⟩)
      | some services =>
          rw [Option.getD_some]
          have keys := mark_keys service false pool.services services marked
          refine ⟨?_, keys ▸ held.keys, exclusive, ids, fresh, ?_⟩
          · have same := congrArg List.length keys
            rw [List.length_map, List.length_map] at same
            exact same ▸ held.bounded
          · intro key busy inside
            rw [held.remaining member]
            rcases (mark_mem service false pool.services services held.keys marked key busy).mp
              inside with ⟨rfl, rfl⟩ | ⟨different, inside⟩
            · simp
            · rw [held.marked key busy inside]
              exact (and_iff_left different).symm

theorem step_invariant (pool : Pool) (action : Action) (next : Pool) (held : pool.Invariant)
    (fresh : pool.Fresh action) (taken : pool.step action = some next) : next.Invariant := by
  cases action with
  | getService check created =>
      cases taken
      exact (getService_grant pool held check created fresh).1
  | destroyHolder holder =>
      cases taken
      exact destroyHolder_invariant pool held holder

theorem Invariant.sound {pool : Pool} (held : pool.Invariant) : pool.Sound where
  bounded := held.bounded
  exclusive := fun service => List.nodup_iff_count_le_one.mp held.exclusive service
  marked := by
    intro service busy member
    have once := List.nodup_iff_count_le_one.mp held.exclusive service
    rw [held.marked service busy member, wrapped, ← List.count_pos_iff]
    omega
  serves := by
    intro check created fresh available
    cases (getService_grant pool held check created fresh).2 with
    | granted service free ok holders =>
        exact ⟨pool.nextHolder, service, ok, by rw [holders]; simp⟩
    | refused failed holders full busy =>
        rcases available with ⟨service, member, good⟩ | room
        · rw [busy service member] at good
          cases good
        · omega

/-- The representation invariant in every reachable state, for any order of
calls and destructions and any answers of `IsGood`. -/
theorem sound_of_fresh (limit : Nat) (actions : List Action) (pool : Pool)
    (fresh : Transition.Along step Fresh (new limit) actions)
    (reached : Transition.run step (new limit) actions = some pool) : pool.Sound :=
  (Transition.run_invariant step_invariant (new_invariant limit) fresh reached).sound

/-- A service goes bad while it is held, is dropped by the next call, and its
holder is destroyed afterwards. -/
theorem sound_after_bad_service :
    ∃ pool, Transition.run step (new 1)
        [.getService (fun _ => none) 10, .getService (fun _ => some false) 20,
          .destroyHolder 0] = some pool ∧
      pool.services = [(20, true)] ∧ pool.Sound := by
  refine ⟨_, rfl, rfl, ?_⟩
  refine sound_of_fresh 1 [.getService (fun _ => none) 10, .getService (fun _ => some false) 20,
    .destroyHolder 0] _ ?_ rfl
  simp [Transition.Along, Fresh, step, new, getService, scan, emplace, hold, mark]

end Pool

end Mif.Service
