import Mathlib.Data.List.Sort
import Mif.Lib.RefCountRest
import Mif.Service.PerThreadPool

set_option autoImplicit false

/- How long service objects live. `Service_Impl__` counts the pointers to it, and several
threads create objects, query them for interfaces, and hand pointers to one another. Every
`AddRef` and `Release` is a step of its own. -/
namespace Mif.Service

namespace Lifetime

/-- An interface, known by its `std::type_info`. -/
abbrev TypeInfo := Nat

abbrev Heap := RefCount.Heap ThreadId Instance

abbrev Action := RefCount.Action ThreadId Instance

/-- An object is an `External`, whose services stand behind its other members, a proxy, whose
first member is the manager, a `Locator`, whose members are its services, or something else. -/
inductive Kind
  | plain
  | external (others : Nat)
  | proxy
  | locator
  deriving DecidableEq, Repr

def Kind.isExternal : Kind → Bool
  | .external _ => true
  | _ => false

/-- The members that are asked for an interface that the object does not have: `m_services`
of an `External`. -/
def Kind.asked : Kind → List Instance → List Instance
  | .external others, members => members.drop others
  | _, _ => []

abbrev ServiceId := UInt32

/-- `m_services` of a `Locator`, by the ids -/
abbrev Services := List (ServiceId × Instance)

/-- The objects of a program: their kinds, and the interfaces of their types. -/
structure Classes where
  kind : Instance → Kind
  interfaces : Instance → List TypeInfo

/-- `typeid(IService)` -/
def iService : TypeInfo := 0

/-- The object has the interface itself. -/
def Classes.has (classes : Classes) (name : Instance) (type : TypeInfo) : Bool :=
  type = iService ∨ type ∈ classes.interfaces name

/-- What an object answers to a query that it does not pass on: that it has the interface,
or, as a proxy of a remote object with the interface, that it makes a new proxy. -/
def answer (classes : Classes) (type : TypeInfo) (remote : Instance → Bool) (name : Instance) :
    Option Bool :=
  if classes.has name type then some false
  else if classes.kind name = .proxy ∧ remote name then some true
  else none

/-- `Service_Impl__::Query`, `External::_Mif_Remote_QueryRemoteInterface` and the one of a
proxy: the path of members to the object that answers, and whether it answers with a new
proxy. An `External` asks its services under its lock, which it does not get twice: they are
no `External`s themselves. -/
def search (classes : Classes) (cells : List (Instance × RefCount.Cell Instance))
    (type : TypeInfo) (remote : Instance → Bool) (name : Instance) :
    Option (List Instance × Bool) :=
  match answer classes type remote name with
  | some proxied => some ([], proxied)
  | none =>
      (cells.lookup name).bind fun cell =>
        ((classes.kind name).asked cell.members).findSome? fun service =>
          (answer classes type remote service).map fun proxied => ([service], proxied)

/-- `Cast<T>(service)` for an object of the interface: the parameters of `Cast` and of
`Query`, `res` there, and the pointer that is returned. -/
def castOps (thread : ThreadId) (name : Instance) : List Action :=
  [.copy thread name [], .copy thread name [], .copy thread name [], .copy thread name [],
    .drop thread name, .drop thread name, .drop thread name]

/-- The same for an object that does not have the interface: `Cast` throws. -/
def failedCastOps (thread : ThreadId) (name : Instance) : List Action :=
  [.copy thread name [], .copy thread name [], .drop thread name, .drop thread name]

/-- `Make<TImpl, TRet>`: the object takes pointers as members, and `service` points to it
until the cast is done. -/
def makeOps (thread : ThreadId) (name : Instance) (members : List Instance) (castable : Bool) :
    List Action :=
  (members.map fun member => .copy thread member []) ++ .create thread name members ::
    ((if castable then castOps thread name else failedCastOps thread name) ++
      [.drop thread name])

/-- `IService::Query<T>`: `service` is made from `instance`, and `holder` is released. A
proxy answers with an object it has just made, and that `holder` keeps until then. -/
def queryOps (thread : ThreadId) (name : Instance) (path : List Instance) :
    Option (Instance × Instance) → List Action
  | none => [.copy thread name path]
  | some (manager, made) =>
      -- `CreateProxyVisitor::Visit` has a pointer to the manager as its parameter
      .copy thread name (path ++ [manager]) :: makeOps thread made [manager] true ++
        -- `(*holder = proxy->Cast<IService>().get())->AddRef()`
        [.copy thread made [], .copy thread made [], .drop thread made,
          -- `proxy` and the parameter
          .drop thread made, .drop thread manager,
          -- `service{instance}`, `holder->Release()`
          .copy thread made [], .drop thread made]

/-- `External::Add`: its parameter, and the element of the list. -/
def addOps (thread : ThreadId) (external service : Instance) : List Action :=
  [.copy thread service [], .copy thread service [], .store thread external service,
    .drop thread service]

/-- What a thread does with its pointers. It may be given a copy of a pointer by another
thread; what is static, or is handed over in a queue, counts as a thread here. The last four
are those of a `Locator`. -/
inductive Call
  | receive (source : ThreadId) (name : Instance)
  | copy (name : Instance)
  | drop (name : Instance)
  | make (name : Instance) (members : List Instance) (type : TypeInfo)
  | query (name : Instance) (type : TypeInfo) (remote : Instance → Bool) (made : Instance)
  | add (external service : Instance)
  | put (container : Instance) (id : ServiceId) (service : Instance)
  | get (container : Instance) (id : ServiceId)
  | remove (container : Instance) (id : ServiceId)
  | clear (container : Instance)

/-- The objects, what is left to do of the call each thread is in, the names of the objects
that are made or about to be, and the maps of the locators. `stuck` says that a thread came
to a step that it cannot do. -/
structure World where
  heap : Heap
  todo : ThreadId → List Action
  used : List Instance
  services : Instance → Services
  stuck : Bool

/-- A thread begins a call, or goes on with it. -/
inductive Turn
  | call (thread : ThreadId) (call : Call)
  | go (thread : ThreadId)

namespace World

def new : World := ⟨.empty, fun _ => [], [], fun _ => [], false⟩

/-- The thread is between two calls. -/
def Idle (world : World) (thread : ThreadId) : Prop :=
  world.todo thread = [] ∧ thread ∉ world.heap.doomed.map Prod.fst

instance (world : World) (thread : ThreadId) : Decidable (world.Idle thread) :=
  inferInstanceAs (Decidable (_ ∧ _))

def doing (world : World) (thread : ThreadId) (ops : List Action) : World :=
  { world with todo := Function.update world.todo thread ops }

/-- The call makes an object. -/
def making (world : World) (thread : ThreadId) (name : Instance) (ops : List Action) : World :=
  { world.doing thread ops with used := name :: world.used }

/-- What a thread does under the lock of a locator, with no other call of the locator in
between: these steps, after which the map is this one. The rest of the call follows. -/
def locked (world : World) (thread : ThreadId) (container : Instance) (ops : List Action)
    (services : Services) (rest : List Action) : World :=
  match Transition.run RefCount.Heap.step world.heap ops with
  | none => { world with stuck := true }
  | some heap =>
      { world.doing thread rest with
        heap := heap
        services := Function.update world.services container services }

/-- Whether a thread has a pointer is decided by comparing pairs. -/
local instance : LawfulBEq (ThreadId × Instance) := inferInstance

/-- A call begins. A thread uses pointers that it has. What a query finds is used later,
when the lock of the `External` is free again. -/
def begin (classes : Classes) (world : World) (thread : ThreadId) : Call → Option World
  | .receive source name =>
      (world.heap.step (.share thread source name)).map fun heap =>
        { world.doing thread [] with heap := heap }
  | .copy name =>
      if (thread, name) ∈ world.heap.held then some (world.doing thread [.copy thread name []])
      else none
  | .drop name =>
      if (thread, name) ∈ world.heap.held then some (world.doing thread [.drop thread name])
      else none
  | .make name members type =>
      if name ∉ world.used ∧ (∀ member ∈ members, (thread, member) ∈ world.heap.held) ∧
          (∀ service ∈ (classes.kind name).asked members, ¬(classes.kind service).isExternal) ∧
          (classes.kind name = .locator → members = []) ∧
          (classes.has name type ∨ classes.kind name = .plain ∨ classes.kind name = .locator) then
        some
          { world.making thread name (makeOps thread name members (classes.has name type)) with
            services := Function.update world.services name [] }
      else none
  | .query name type remote made =>
      if (thread, name) ∈ world.heap.held ∧ made ∉ world.used then
        match search classes world.heap.cells type remote name with
        | none => some (world.doing thread [])
        | some (path, false) => some (world.doing thread (queryOps thread name path none))
        | some (path, true) =>
            match (world.heap.cells.lookup (path.getLastD name)).bind (·.members.head?) with
            | none => none
            | some manager =>
                if classes.kind made = .proxy then
                  some (world.making thread made (queryOps thread name path (some (manager, made))))
                else none
      else none
  | .add external service =>
      if (classes.kind external).isExternal ∧ ¬(classes.kind service).isExternal ∧
          (thread, external) ∈ world.heap.held ∧ (thread, service) ∈ world.heap.held then
        some (world.doing thread (addOps thread external service))
      else none
  | .put container id service =>
      if classes.kind container = .locator ∧ (thread, container) ∈ world.heap.held ∧
          (thread, service) ∈ world.heap.held then
        let services := world.services container
        let old := (services.lookup id).toList
        -- the parameter, and what is assigned: the old pointer comes out in exchange
        some
          (world.locked thread container
            ((old.map fun name => .take thread container name) ++
              [.copy thread service [], .copy thread service [], .store thread container service])
            ((services.eraseP fun entry => entry.1 = id).orderedInsert
              (fun first second => first.1 ≤ second.1) (id, service))
            ((old.map fun name => .drop thread name) ++ [.drop thread service]))
      else none
  | .get container id =>
      if classes.kind container = .locator ∧ (thread, container) ∈ world.heap.held then
        let services := world.services container
        match services.lookup id with
        | none => some (world.doing thread [])
        | some service =>
            some (world.locked thread container [.copy thread container [service]] services [])
      else none
  | .remove container id =>
      if classes.kind container = .locator ∧ (thread, container) ∈ world.heap.held then
        let services := world.services container
        match services.lookup id with
        | none => some (world.doing thread [])
        | some service =>
            -- `service` is a copy, then the entry's own pointer is dropped
            some
              (world.locked thread container [.take thread container service]
                (services.eraseP fun entry => entry.1 = id)
                [.copy thread service [], .drop thread service, .drop thread service])
      else none
  | .clear container =>
      if classes.kind container = .locator ∧ (thread, container) ∈ world.heap.held then
        let names := (world.services container).map Prod.snd
        some
          (world.locked thread container (names.map fun name => .take thread container name) []
            (names.map fun name => .drop thread name))
      else none

/-- A thread that brought a counter to zero runs the destructor, which drops the members,
before it goes on. -/
def goOn (world : World) (thread : ThreadId) : Option World :=
  match world.heap.doomed.find? fun entry => entry.1 = thread with
  | some (_, name) =>
      match world.heap.cells.lookup name, world.heap.step (.delete thread name) with
      | some cell, some heap =>
          some
            { world.doing thread
                ((cell.members.map fun member => .drop thread member) ++ world.todo thread) with
              heap := heap }
      | _, _ => some { world with stuck := true }
  | none =>
      match world.todo thread with
      | [] => none
      | op :: rest =>
          match world.heap.step op with
          | some heap => some { world.doing thread rest with heap := heap }
          | none => some { world with stuck := true }

def step (classes : Classes) (world : World) : Turn → Option World
  | .call thread call => if world.Idle thread then world.begin classes thread call else none
  | .go thread => world.goOn thread

end World

end Lifetime

end Mif.Service
