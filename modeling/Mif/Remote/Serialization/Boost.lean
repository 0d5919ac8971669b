import Mathlib.Data.List.OfFn
import Mif.Lib.EvalOrder
import Mif.Common.Fault
import Mif.Remote.Serialization.Tag

set_option autoImplicit false

/- The message format of `Remote::Serialization::Boost` over the archives of
Boost.Serialization. -/
namespace Mif.Remote.Serialization

namespace Boost

/-- Types with a saved form: the two that the header of a message uses, and others. -/
inductive Ty (Other : Type)
  | string
  | bool
  | other (type : Other)
  deriving DecidableEq, Repr

variable {Other : Type}

abbrev Ty.Value (Val : Other → Type) : Ty Other → Type
  | .string => String
  | .bool => Bool
  | .other type => Val type

/-- A value with its type. -/
abbrev Param (Val : Other → Type) := (type : Ty Other) × type.Value Val

/-- A pair of an output and an input archive. A buffer is a list of symbols; what the
output archive writes at its ends is `header` and `trailer`. -/
structure Archive (Val : Other → Type) where
  Symbol : Type
  header : List Symbol
  trailer : List Symbol
  /-- The constructor of the input archive. -/
  attach : List Symbol → Outcome (List Symbol)
  /-- `archive << make_nvp(name, value)` -/
  save : String → Param Val → List Symbol
  /-- `archive >> make_nvp(name, value)` -/
  load : String → (type : Ty Other) → List Symbol → Outcome (type.Value Val × List Symbol)

/-- `Predefined::Serialization::Boost` -/
inductive Predefined
  | binary
  | text
  | xml
  deriving DecidableEq, Repr

/-- What is relied on: values are saved and loaded one after the other. The binary and
the text archive ignore the names; the XML archive throws when the tag differs. -/
structure Archive.Sequential {Val : Other → Type} (archive : Archive Val)
    (predefined : Predefined) : Prop where
  nonempty : archive.header ≠ []
  attached : ∀ rest, archive.attach (archive.header ++ rest) = .ok rest
  loaded : ∀ name type value rest,
    archive.load name type (archive.save name ⟨type, value⟩ ++ rest) = .ok (value, rest)
  nameless : predefined ≠ .xml → ∀ saved name type value rest,
    archive.load name type (archive.save saved ⟨type, value⟩ ++ rest) = .ok (value, rest)
  tagged : predefined = .xml → ∀ saved name param type rest, saved ≠ name →
    ∃ what, archive.load name type (archive.save saved param ++ rest) = throwing what

variable {Val : Other → Type} {n : Nat}

/-- `Serializer`, with a tuple of `n` parameters. -/
structure Serializer (Val : Other → Type) (n : Nat) where
  type : String
  uuid : String
  instanceId : String
  interfaceId : String
  methodId : String
  params : Fin n → Param Val
  exception : Option Exception

namespace Serializer

def new (isRequest : Bool) (uuid instanceId interfaceId methodId : String)
    (params : Fin n → Param Val) : Serializer Val n where
  type := if isRequest then Tag.request else Tag.response
  uuid := uuid
  instanceId := instanceId
  interfaceId := interfaceId
  methodId := methodId
  params := params
  exception := none

def putParams {m : Nat} (serializer : Serializer Val n) (params : Fin m → Param Val) :
    Serializer Val m :=
  { serializer with params := params }

def putException (serializer : Serializer Val n) (exception : Option Exception) :
    Serializer Val n :=
  { serializer with exception := exception }

/-- The name of a parameter. -/
def paramName (index : Nat) : String := Tag.param ++ Nat.repr index

def saveString (archive : Archive Val) (name value : String) : List archive.Symbol :=
  archive.save name ⟨.string, value⟩

/-- `SaveTupleParams`: the `archive << ...` expressions are the arguments of one call,
so they are evaluated in any order. -/
def saveTupleParams (archive : Archive Val) (order : EvalOrder n) (params : Fin n → Param Val) :
    List archive.Symbol :=
  order.indexes.flatMap fun index => archive.save (paramName index.val) (params index)

def saveException (archive : Archive Val) : Option Exception → List archive.Symbol
  | none => archive.save Tag.hasException ⟨.bool, false⟩
  | some exception =>
      archive.save Tag.hasException ⟨.bool, true⟩ ++
        saveString archive Tag.exception exception.message

def getBuffer (archive : Archive Val) (order : EvalOrder n) (serializer : Serializer Val n) :
    List archive.Symbol :=
  archive.header ++
    (saveString archive Tag.uuid serializer.uuid ++
    (saveString archive Tag.type serializer.type ++
    (saveString archive Tag.inst serializer.instanceId ++
    (saveString archive Tag.interface serializer.interfaceId ++
    (saveString archive Tag.method serializer.methodId ++
    (saveException archive serializer.exception ++
    (saveTupleParams archive order serializer.params ++ archive.trailer)))))))

end Serializer

/-- `Deserializer`. The input archive stands behind the header; `rest` is what it has
not read. -/
structure Deserializer (archive : Archive Val) where
  uuid : String
  type : String
  inst : String
  interface : String
  method : String
  exception : Option String
  rest : List archive.Symbol

namespace Deserializer

def loadException (archive : Archive Val) (buffer : List archive.Symbol) :
    Outcome (Option String × List archive.Symbol) := do
  let (hasException, rest) ← archive.load Tag.hasException .bool buffer
  if hasException = true then
    let (message, rest) ← archive.load Tag.exception .string rest
    return (some message, rest)
  else
    return (none, rest)

/-- The constructor. The input archive is attached before the check. -/
def new (archive : Archive Val) (buffer : List archive.Symbol) :
    Outcome (Deserializer archive) := do
  let rest ← archive.attach buffer
  if buffer.isEmpty then
    throwing "[Mif::Remote::Serialization::Boost::Deserializer] Empty buffer."
  else
    let (uuid, rest) ← archive.load Tag.uuid .string rest
    let (type, rest) ← archive.load Tag.type .string rest
    let (inst, rest) ← archive.load Tag.inst .string rest
    let (interface, rest) ← archive.load Tag.interface .string rest
    let (method, rest) ← archive.load Tag.method .string rest
    let (exception, rest) ← loadException archive rest
    return ⟨uuid, type, inst, interface, method, exception, rest⟩

/-- `LoadParams<Index>` for the types of the elements `Index - 1` down to 0: it reads
the last element first. -/
def loadParams (archive : Archive Val) :
    List (Ty Other) → List archive.Symbol → List (Param Val) → Outcome (List (Param Val))
  | [], _, params => .ok params
  | type :: before, buffer, params => do
      let (value, rest) ← archive.load (Serializer.paramName (before.length + 1)) type buffer
      loadParams archive before rest (⟨type, value⟩ :: params)

def getParams {archive : Archive Val} (deserializer : Deserializer archive)
    (types : List (Ty Other)) : Outcome (List (Param Val)) :=
  loadParams archive types.reverse deserializer.rest []

end Deserializer

/-- `GetParams` applied to the buffer gives back the parameters, whatever they are. -/
def RoundTrips (archive : Archive Val) (order : EvalOrder n) : Prop :=
  ∀ serializer : Serializer Val n,
    (Deserializer.new archive (serializer.getBuffer archive order)).bind (fun deserializer =>
        deserializer.getParams (List.ofFn fun index => (serializer.params index).1)) =
      .ok (List.ofFn serializer.params)

theorem paramName_ne {first second : Nat} (different : first ≠ second) :
    Serializer.paramName first ≠ Serializer.paramName second := by
  intro same
  have digits := congrArg (fun name => Nat.ofDigitChars 10 name.toList 0)
    ((String.append_right_inj Tag.param).mp same)
  simp only [Nat.toList_repr, Nat.ofDigitChars_ten_toDigits] at digits
  exact different digits

section

variable {archive : Archive Val} {predefined : Predefined}
  (sequential : archive.Sequential predefined)
include sequential

theorem loadException_saved (exception : Option Exception) (rest : List archive.Symbol) :
    Deserializer.loadException archive (Serializer.saveException archive exception ++ rest) =
      .ok (exception.map Exception.message, rest) := by
  cases exception with
  | none =>
      simp only [Deserializer.loadException, Serializer.saveException, sequential.loaded,
        bind, Except.bind]
      rfl
  | some exception =>
      simp only [Deserializer.loadException, Serializer.saveException, Serializer.saveString,
        List.append_assoc, sequential.loaded, bind, Except.bind]
      rfl

/-- The header is read back, and the parameters are what is left. -/
theorem new_getBuffer (order : EvalOrder n) (serializer : Serializer Val n) :
    Deserializer.new archive (serializer.getBuffer archive order) =
      .ok ⟨serializer.uuid, serializer.type, serializer.instanceId, serializer.interfaceId,
        serializer.methodId, serializer.exception.map Exception.message,
        Serializer.saveTupleParams archive order serializer.params ++ archive.trailer⟩ := by
  have filled : (serializer.getBuffer archive order).isEmpty = false := by
    rw [List.isEmpty_eq_false_iff]
    exact List.append_ne_nil_of_left_ne_nil sequential.nonempty _
  unfold Deserializer.new
  simp only [filled, Bool.false_eq_true, ↓reduceIte]
  simp only [Serializer.getBuffer, Serializer.saveString, sequential.attached,
    sequential.loaded, loadException_saved sequential, bind, Except.bind]
  rfl

/-- An archive without names gives back what was written, the first value as the last
element. -/
theorem loadParams_nameless (unnamed : predefined ≠ .xml) (written : List (String × Param Val))
    (rest : List archive.Symbol) (params : List (Param Val)) :
    Deserializer.loadParams archive (written.map fun item => item.2.1)
        ((written.flatMap fun item => archive.save item.1 item.2) ++ rest) params =
      .ok ((written.map Prod.snd).reverse ++ params) := by
  induction written generalizing params with
  | nil => rfl
  | cons item written ih =>
      obtain ⟨name, type, value⟩ := item
      simp only [List.map_cons, List.flatMap_cons, List.append_assoc, Deserializer.loadParams,
        sequential.nameless unnamed, bind, Except.bind]
      rw [ih]
      simp

theorem getParams_nameless (unnamed : predefined ≠ .xml) (order : EvalOrder n)
    (serializer : Serializer Val n)
    (types : (List.ofFn fun index => (serializer.params index).1).reverse =
      order.indexes.map fun index => (serializer.params index).1) :
    (Deserializer.new archive (serializer.getBuffer archive order)).bind (fun deserializer =>
        deserializer.getParams (List.ofFn fun index => (serializer.params index).1)) =
      .ok (order.indexes.map serializer.params).reverse := by
  have loaded := loadParams_nameless sequential unnamed
    (order.indexes.map fun index => (Serializer.paramName index.val, serializer.params index))
    archive.trailer []
  rw [new_getBuffer sequential]
  simp only [Except.bind, Deserializer.getParams, types]
  simpa [Serializer.saveTupleParams, List.map_map, List.flatMap_map, Function.comp_def]
    using loaded

theorem roundTrips_rightToLeft (unnamed : predefined ≠ .xml) :
    RoundTrips archive (EvalOrder.rightToLeft n) := by
  intro serializer
  rw [getParams_nameless sequential unnamed]
  · simp [EvalOrder.rightToLeft, List.ofFn_eq_map]
  · simp [EvalOrder.rightToLeft, List.ofFn_eq_map]

/-- Parameters of one type tell the elements apart, so another order is noticed. -/
theorem rightToLeft_of_roundTrips (unnamed : predefined ≠ .xml) (order : EvalOrder n)
    (trips : RoundTrips archive order) : order = EvalOrder.rightToLeft n := by
  have same : order.indexes.reverse = List.finRange n := by
    apply List.ext_getElem (by simp)
    intro position left right
    -- The element that is read into this position is marked.
    let marked := order.indexes.reverse[position]
    let params : Fin n → Param Val := fun index => ⟨.bool, decide (index = marked)⟩
    have read := trips (Serializer.new true "" "" "" "" params)
    rw [getParams_nameless sequential unnamed] at read
    · have lists : order.indexes.reverse.map params = (List.finRange n).map params := by
        rw [← List.ofFn_eq_map, List.map_reverse]
        exact Except.ok.inj read
      have element := List.getElem_of_eq lists (i := position) (by simpa using left)
      rw [List.getElem_map, List.getElem_map] at element
      have equal : decide (marked = marked) = decide ((List.finRange n)[position] = marked) :=
        eq_of_heq (Sigma.mk.inj element).2
      rw [decide_eq_true rfl] at equal
      exact (of_decide_eq_true equal.symm).symm
    · simp [Serializer.new, params, List.ofFn_const]
  exact EvalOrder.ext_indexes (by rw [← List.reverse_reverse order.indexes, same]; rfl)

/-- The writer counts from 0 and the reader from 1, so an archive that compares the
names throws at the first parameter. -/
theorem getParams_tagged (named : predefined = .xml) (order : EvalOrder n) (some : n ≠ 0)
    (serializer : Serializer Val n) :
    ∃ what, (Deserializer.new archive (serializer.getBuffer archive order)).bind
        (fun deserializer =>
          deserializer.getParams (List.ofFn fun index => (serializer.params index).1)) =
      throwing what := by
  obtain ⟨first, later, indexes⟩ : ∃ first later, order.indexes = first :: later := by
    refine List.exists_cons_of_ne_nil ?_
    intro empty
    have length := order.length_indexes
    rw [empty] at length
    exact some length.symm
  obtain ⟨type, before, types⟩ : ∃ type before,
      (List.ofFn fun index => (serializer.params index).1).reverse = type :: before := by
    refine List.exists_cons_of_ne_nil ?_
    intro empty
    simp only [List.reverse_eq_nil_iff, List.ofFn_eq_nil_iff] at empty
    exact some empty
  have last : before.length + 1 = n := by
    have length := congrArg List.length types
    simpa using length.symm
  have different : Serializer.paramName first.val ≠ Serializer.paramName (before.length + 1) :=
    paramName_ne (by omega)
  obtain ⟨what, thrown⟩ := sequential.tagged named _ _ (serializer.params first) type
    ((later.flatMap fun index => archive.save (Serializer.paramName index.val)
      (serializer.params index)) ++ archive.trailer) different
  refine ⟨what, ?_⟩
  rw [new_getBuffer sequential]
  simp only [Except.bind, Deserializer.getParams, types, Deserializer.loadParams,
    Serializer.saveTupleParams, indexes, List.flatMap_cons, List.append_assoc, thrown]
  rfl

/-- The parameters of every message survive exactly when there are none, or when the
archive ignores names and the arguments are evaluated from the last to the first. -/
theorem roundTrips_iff (order : EvalOrder n) :
    RoundTrips archive order ↔
      n = 0 ∨ predefined ≠ .xml ∧ order = EvalOrder.rightToLeft n := by
  constructor
  · intro trips
    by_cases empty : n = 0
    · exact Or.inl empty
    · by_cases named : predefined = .xml
      · obtain ⟨what, thrown⟩ := getParams_tagged sequential named order empty
          (Serializer.new true "" "" "" "" fun _ => ⟨.bool, false⟩)
        cases thrown.symm.trans (trips _)
      · exact Or.inr ⟨named, rightToLeft_of_roundTrips sequential named order trips⟩
  · rintro (rfl | ⟨unnamed, rfl⟩)
    · intro serializer
      rw [new_getBuffer sequential]
      simp [Except.bind, Deserializer.getParams, Deserializer.loadParams]
    · exact roundTrips_rightToLeft sequential unnamed

end

/-- `load` of an archive that keeps one symbol for each value. -/
def loadItem [DecidableEq Other] (predefined : Predefined) (name : String) (type : Ty Other) :
    List (Option (String × Param Val)) →
      Outcome (type.Value Val × List (Option (String × Param Val)))
  | some (tag, param) :: rest =>
      if predefined = .xml ∧ tag ≠ name then
        throwing ("XML start/end tag mismatch - " ++ name)
      else if same : param.1 = type then .ok (same ▸ param.2, rest)
      else throwing "input stream error"
  | _ => throwing "input stream error"

def itemArchive [DecidableEq Other] (Val : Other → Type) (predefined : Predefined) :
    Archive Val where
  Symbol := Option (String × Param Val)
  header := [none]
  trailer := [none]
  attach
    | none :: rest => .ok rest
    | _ => throwing "input stream error"
  save name param := [some (name, param)]
  load := loadItem predefined

theorem loadItem_value [DecidableEq Other] {predefined : Predefined} {saved name : String}
    (known : predefined = .xml → saved = name) (type : Ty Other) (value : type.Value Val)
    (rest : List (Option (String × Param Val))) :
    loadItem predefined name type (some (saved, ⟨type, value⟩) :: rest) = .ok (value, rest) := by
  have accepted : ¬ (predefined = .xml ∧ saved ≠ name) := fun wrong => wrong.2 (known wrong.1)
  simp only [loadItem, accepted, ↓reduceIte, ↓reduceDIte]

theorem itemArchive_sequential [DecidableEq Other] (Val : Other → Type)
    (predefined : Predefined) : (itemArchive Val predefined).Sequential predefined where
  nonempty := List.cons_ne_nil none []
  attached _ := rfl
  loaded _ type value rest := loadItem_value (fun _ => rfl) type value rest
  nameless unnamed _ _ type value rest :=
    loadItem_value (fun named => absurd named unnamed) type value rest
  tagged named saved name _ _ _ different :=
    ⟨"XML start/end tag mismatch - " ++ name, ite_cond_eq_true _ _ (by simp [named, different])⟩

theorem roundTrips_binary :
    RoundTrips (itemArchive (Empty.elim : Empty → Type) .binary) (EvalOrder.rightToLeft 3) :=
  (roundTrips_iff (itemArchive_sequential _ .binary) (EvalOrder.rightToLeft 3)).mpr
    (Or.inr ⟨by decide, rfl⟩)

/-- One parameter does not survive the XML archive, and two parameters of a binary
archive change places when the arguments are evaluated from the first to the last. -/
theorem one_xml_parameter_is_lost :
    ¬ RoundTrips (itemArchive (Empty.elim : Empty → Type) .xml) (EvalOrder.leftToRight 1) ∧
      ¬ RoundTrips (itemArchive (Empty.elim : Empty → Type) .binary)
        (EvalOrder.leftToRight 2) := by
  constructor
  · intro trips
    obtain ⟨what, thrown⟩ := getParams_tagged
      (itemArchive_sequential (Empty.elim : Empty → Type) .xml) rfl (EvalOrder.leftToRight 1)
      (by decide) (Serializer.new true "" "" "" "" fun _ => ⟨.bool, false⟩)
    cases thrown.symm.trans (trips _)
  · intro trips
    have order := rightToLeft_of_roundTrips
      (itemArchive_sequential (Empty.elim : Empty → Type) .binary) (by decide) _ trips
    have indexes := congrArg EvalOrder.indexes order
    revert indexes
    decide

end Boost

end Mif.Remote.Serialization
