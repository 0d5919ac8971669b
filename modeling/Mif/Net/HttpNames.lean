import Mathlib.Data.List.Basic
import Mif.Common.Crc32
import Mif.Net.HttpParam

set_option autoImplicit false

/- Parameters that are declared as `Prm<T, Name("n")>`: the entry of a request that a handler
gets for a name. -/
namespace Mif.Net.Http.WebService

open Mif.Common (crc32Array filled_append crc32str crc32Array_eq_bitwise crc32str_eq_bitwise
  bitwiseCrc32)

variable {α : Type}

/-- A string literal that `Crc32` takes; the bound of its array is a `std::uint32_t`. -/
structure Literal where
  text : Buffer
  bound : text.length + 1 < 2 ^ 32

/-- `WebService::Name` -/
def name (literal : Literal) : UInt32 :=
  crc32Array (literal.text ++ [0]) (filled_append literal.text 0)

/-- The `Prm` of a name holds the converted value of the entry under this name, and nothing
when there is no such entry. -/
def BindsByName (convert : Buffer → Outcome α) (literal : Literal)
    (params : List (Buffer × Buffer)) : Prop :=
  (getPrm crc32str (name literal) convert params).map Prm.value =
    match params.lookup literal.text with
    | some value => (convert value).map some
    | none => .ok none

/-- The first entry whose key has the checksum of the name is the entry of the name, or it is
converted like that one. -/
def Unshadowed (convert : Buffer → Outcome α) (literal : Literal)
    (params : List (Buffer × Buffer)) : Prop :=
  ∀ param, (params.find? fun param => crc32str param.1 = crc32str literal.text) = some param →
    param.1 = literal.text ∨
      ∃ value, params.lookup literal.text = some value ∧ convert param.2 = convert value

/-- The checksum of the declaration is the one that a request is searched for. -/
theorem name_eq (literal : Literal) : name literal = crc32str literal.text := by
  have short : literal.text.length < 2 ^ 32 := by
    have bound := literal.bound
    omega
  rw [name, crc32Array_eq_bitwise short, crc32str_eq_bitwise short]

section

variable {key : Buffer} {params : List (Buffer × Buffer)}

/-- Without a key of its checksum there is no key that is the name. -/
theorem lookup_of_find_none
    (missed : (params.find? fun param => crc32str param.1 = crc32str key) = none) :
    params.lookup key = none := by
  rw [List.lookup_eq_none_iff]
  intro param member
  rw [List.find?_eq_none] at missed
  have different := missed param member
  rw [decide_eq_true_eq] at different
  rw [bne_iff_ne]
  intro same
  exact different (congrArg crc32str same.symm)

/-- The first key of its checksum, if it is the name, is the first that is the name. -/
theorem lookup_of_find_some {value : Buffer}
    (found : (params.find? fun param => crc32str param.1 = crc32str key) = some (key, value)) :
    params.lookup key = some value := by
  induction params with
  | nil => cases found
  | cons param rest ih =>
      rw [List.lookup_cons]
      by_cases first : crc32str param.1 = crc32str key
      · rw [List.find?_cons_of_pos (by simpa using first)] at found
        cases found
        rw [beq_self_eq_true]
      · rw [List.find?_cons_of_neg (by simpa using first)] at found
        have different : (key == param.1) = false := by
          rw [beq_eq_false_iff_ne]
          intro same
          exact first (congrArg crc32str same.symm)
        rw [different]
        exact ih found

end

/-- A request whose other keys have other checksums. -/
theorem unshadowed_of_distinct (convert : Buffer → Outcome α) {literal : Literal}
    {params : List (Buffer × Buffer)}
    (distinct : ∀ param ∈ params, crc32str param.1 = crc32str literal.text →
      param.1 = literal.text) : Unshadowed convert literal params := by
  intro param found
  have member := List.mem_of_find?_eq_some found
  have same := List.find?_some found
  rw [decide_eq_true_eq] at same
  exact Or.inl (distinct param member same)

theorem value_new (convert : Buffer → Outcome α) (key value : Buffer) :
    (Prm.new convert key value).map Prm.value = (convert value).map some := by
  rw [Prm.new]
  cases convert value with
  | error fault => rfl
  | ok converted => rfl

theorem map_some_inj {one two : Outcome α} : one.map some = two.map some ↔ one = two := by
  cases one with
  | error fault =>
      cases two with
      | error other => simp [Except.map]
      | ok value => simp [Except.map]
  | ok value =>
      cases two with
      | error fault => simp [Except.map]
      | ok other => simp [Except.map]

/-- A named parameter is bound by its name exactly when no other entry with the checksum of
the name takes its place. -/
theorem bindsByName_iff (convert : Buffer → Outcome α) (literal : Literal)
    (params : List (Buffer × Buffer)) :
    BindsByName convert literal params ↔ Unshadowed convert literal params := by
  unfold BindsByName Unshadowed getPrm
  rw [name_eq]
  cases found : params.find? fun param => crc32str param.1 = crc32str literal.text with
  | none =>
      rw [lookup_of_find_none found]
      refine iff_of_true rfl ?_
      intro param impossible
      cases impossible
  | some param =>
      obtain ⟨key, value⟩ := param
      simp only [value_new, Option.some.injEq, forall_eq']
      by_cases own : key = literal.text
      · subst own
        rw [lookup_of_find_some found]
        exact iff_of_true rfl (Or.inl rfl)
      · cases params.lookup literal.text with
        | none =>
            refine iff_of_false ?_ (by simp [own])
            cases convert value <;> simp [Except.map]
        | some other =>
            simp only [map_some_inj, own, Option.some.injEq, exists_eq_left', false_or]

/-- The text `plumless`, which has the checksum of `buckeroo`. -/
def plumless : Literal := ⟨[112, 108, 117, 109, 108, 101, 115, 115], by decide⟩

/-- The request `buckeroo=1&plumless=2` gives a handler for `plumless` the value 1. -/
theorem name_takes_another_key :
    ¬ ∀ params : List (Buffer × Buffer), BindsByName Param.convertString plumless params := by
  intro all
  have bound := all [([98, 117, 99, 107, 101, 114, 111, 111], [49]), (plumless.text, [50])]
  have collides : bitwiseCrc32 [98, 117, 99, 107, 101, 114, 111, 111] =
      bitwiseCrc32 plumless.text := by
    decide +kernel
  have same : crc32str [98, 117, 99, 107, 101, 114, 111, 111] = crc32str plumless.text := by
    rw [crc32str_eq_bitwise (by decide), crc32str_eq_bitwise (by decide), collides]
  rw [BindsByName, name_eq, getPrm, List.find?_cons_of_pos (by simpa using same)] at bound
  revert bound
  decide

end Mif.Net.Http.WebService
