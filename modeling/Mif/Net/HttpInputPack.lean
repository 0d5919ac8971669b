import Mathlib.Data.List.Dedup
import Mathlib.Data.List.Sort
import Mif.Lib.Assoc
import Mif.Lib.SortedSet
import Mif.Net.HttpUrl

set_option autoImplicit false

/- `InputPack`: the parameters that a handler gets out of the target of a request. -/
namespace Mif.Net.Http

open Utility (decodeUrl encodeUrl CType Target)

structure InputPack where
  target : Target
  deriving DecidableEq, Repr

namespace InputPack

/-- The constructor. The whole target is decoded before it is taken apart. -/
def new (target : Buffer) : Outcome InputPack := do
  let url ← decodeUrl target
  let target ← Target.new url
  return ⟨target⟩

def getPath (pack : InputPack) : Buffer := pack.target.path

def getQuery (pack : InputPack) : Buffer := pack.target.query

/-- The pieces of a query, in a `std::set<std::string>`. -/
def pairs (query : Buffer) : List Buffer :=
  SortedSet.ofList (query.splitOn '&'.toUInt8)

/-- The function that turns a piece into an entry. -/
def entry (pair : Buffer) : Buffer × Buffer :=
  match pair.splitOn '='.toUInt8 with
  | [name, value] => (name, value)
  | [name] => (name, [])
  | _ => ([], [])

/-- The entries of a query that may begin with a `?`. -/
def parse (query : Buffer) : List (Buffer × Buffer) :=
  let query := if query.head? = some '?'.toUInt8 then query.tail else query
  Assoc.insertAll [] ((pairs query).map entry)

def getParams (pack : InputPack) : List (Buffer × Buffer) :=
  if pack.getQuery.isEmpty then [] else parse pack.getQuery

end InputPack

/- A query that a client builds out of a map. -/
namespace QueryOf

/-- `EncodeUrl(key) + "=" + EncodeUrl(value)` -/
def encoded (ctype : CType) (item : Buffer × Buffer) : Buffer :=
  encodeUrl ctype item.1 ++ '='.toUInt8 :: encodeUrl ctype item.2

/-- The target `/p?` with the entries joined by `&`. -/
def target (ctype : CType) (items : List (Buffer × Buffer)) : Buffer :=
  ['/'.toUInt8, 'p'.toUInt8, '?'.toUInt8] ++
    ['&'.toUInt8].intercalate (items.map (encoded ctype))

end QueryOf

/-- The parameters that come out are the map that went in. -/
def Survive (ctype : CType) (items : List (Buffer × Buffer)) : Prop :=
  ∃ pack, InputPack.new (QueryOf.target ctype items) = .ok pack ∧
    ∀ key, pack.getParams.lookup key = items.lookup key

/-- A character that separates entries or their parts, or ends a line. -/
def reserved (byte : UInt8) : Bool :=
  byte = '&'.toUInt8 || byte = '='.toUInt8 || Target.endsLine byte

/-- No key or value has a reserved character, and the first key does not begin with a
character that the splitter takes. -/
structure Harmless (items : List (Buffer × Buffer)) : Prop where
  plain : ∀ item ∈ items, item.1.any reserved = false ∧ item.2.any reserved = false
  first : ∀ item ∈ items.head?, ∀ byte ∈ item.1.head?, Target.splits byte = false

namespace QueryOf

/-- `key + "=" + value` -/
def decoded (item : Buffer × Buffer) : Buffer := item.1 ++ '='.toUInt8 :: item.2

/-- What `DecodeUrl` makes of the entries. -/
def query (items : List (Buffer × Buffer)) : Buffer :=
  ['&'.toUInt8].intercalate (items.map decoded)

theorem decodeUrl_encoded (ctype : CType) (item : Buffer × Buffer) (rest : Buffer) :
    decodeUrl (encoded ctype item ++ rest) = (decodeUrl rest).map (decoded item ++ ·) := by
  have split : encoded ctype item ++ rest =
      encodeUrl ctype item.1 ++ '='.toUInt8 :: (encodeUrl ctype item.2 ++ rest) := by
    simp [encoded]
  rw [split, Utility.decodeUrl_encodeUrl_append, Utility.decodeUrl_plain (by decide) (by decide),
    Utility.decodeUrl_encodeUrl_append]
  cases decodeUrl rest with
  | error fault => rfl
  | ok bytes => simp [Except.map, decoded]

theorem decodeUrl_query (ctype : CType) (items : List (Buffer × Buffer)) :
    decodeUrl (['&'.toUInt8].intercalate (items.map (encoded ctype))) = .ok (query items) := by
  induction items with
  | nil => rfl
  | cons item rest ih =>
      cases rest with
      | nil =>
          have one := decodeUrl_encoded ctype item []
          simpa [query, decodeUrl, Except.map] using one
      | cons next rest =>
          have split : ['&'.toUInt8].intercalate ((item :: next :: rest).map (encoded ctype)) =
              encoded ctype item ++ '&'.toUInt8 ::
                ['&'.toUInt8].intercalate ((next :: rest).map (encoded ctype)) := by
            simp [List.intercalate]
          rw [split, decodeUrl_encoded, Utility.decodeUrl_plain (by decide) (by decide), ih]
          simp [Except.map, query, List.intercalate]

theorem decodeUrl_target (ctype : CType) (items : List (Buffer × Buffer)) :
    decodeUrl (target ctype items) =
      .ok (['/'.toUInt8, 'p'.toUInt8, '?'.toUInt8] ++ query items) := by
  unfold target
  simp only [List.cons_append, List.nil_append]
  rw [Utility.decodeUrl_plain (by decide) (by decide),
    Utility.decodeUrl_plain (by decide) (by decide),
    Utility.decodeUrl_plain (by decide) (by decide), decodeUrl_query]
  rfl

/-- A piece of a split text has only characters of the text, and not the separator. -/
theorem mem_splitOn {separator : UInt8} {text piece : Buffer}
    (member : piece ∈ text.splitOn separator) :
    ∀ byte ∈ piece, byte ∈ text ∧ byte ≠ separator := by
  induction text generalizing piece with
  | nil =>
      rw [List.splitOn_nil, List.mem_singleton] at member
      subst member
      simp
  | cons first rest ih =>
      rw [List.splitOn_cons_eq_if_modifyHead] at member
      obtain ⟨head, tail, split⟩ := List.exists_cons_of_ne_nil (List.splitOn_ne_nil separator rest)
      rw [split] at member ih
      split at member
      · rcases List.mem_cons.mp member with empty | later
        · subst empty
          simp
        · intro byte inside
          have found := ih later byte inside
          exact ⟨List.mem_cons_of_mem _ found.1, found.2⟩
      · rename_i kept
        rw [List.modifyHead_cons] at member
        rcases List.mem_cons.mp member with joined | later
        · subst joined
          intro byte inside
          rcases List.mem_cons.mp inside with same | inside
          · subst same
            exact ⟨List.mem_cons_self, by simpa using kept⟩
          · have found := ih List.mem_cons_self byte inside
            exact ⟨List.mem_cons_of_mem _ found.1, found.2⟩
        · intro byte inside
          have found := ih (List.mem_cons_of_mem _ later) byte inside
          exact ⟨List.mem_cons_of_mem _ found.1, found.2⟩

theorem mem_pairs {query pair : Buffer} :
    pair ∈ InputPack.pairs query ↔ pair ∈ query.splitOn '&'.toUInt8 :=
  SortedSet.mem_ofList

/-- The two parts of an entry come out of splits of its piece. -/
theorem mem_entry {pair : Buffer} :
    ∀ byte, byte ∈ (InputPack.entry pair).1 ∨ byte ∈ (InputPack.entry pair).2 →
      byte ∈ pair ∧ byte ≠ '='.toUInt8 := by
  intro byte inside
  unfold InputPack.entry at inside
  split at inside
  · rename_i name value split
    rcases inside with inside | inside
    · exact mem_splitOn (by rw [split]; simp) byte inside
    · exact mem_splitOn (by rw [split]; simp) byte inside
  · rename_i name split
    rcases inside with inside | inside
    · exact mem_splitOn (by rw [split]; simp) byte inside
    · cases inside
  · rcases inside with inside | inside
    · cases inside
    · cases inside

/-- What is found in the parameters is an entry of a piece of the query. -/
theorem lookup_parse {query : Buffer} {key value : Buffer}
    (found : (InputPack.parse query).lookup key = some value) :
    ∃ pair ∈ InputPack.pairs (if query.head? = some '?'.toUInt8 then query.tail else query),
      InputPack.entry pair = (key, value) := by
  unfold InputPack.parse at found
  dsimp only at found
  rw [Assoc.lookup_insertAll, List.lookup_nil, Option.none_or] at found
  exact List.mem_map.mp (Assoc.mem_of_lookup found)

/-- No separator comes out of a query. -/
theorem parse_plain {query : Buffer} {key value : Buffer}
    (found : (InputPack.parse query).lookup key = some value) (byte : UInt8)
    (inside : byte ∈ key ∨ byte ∈ value) : byte ≠ '&'.toUInt8 ∧ byte ≠ '='.toUInt8 := by
  obtain ⟨pair, member, same⟩ := lookup_parse found
  have parts : byte ∈ pair ∧ byte ≠ '='.toUInt8 := mem_entry byte (by rw [same]; exact inside)
  have piece := mem_splitOn (mem_pairs.mp member) byte parts.1
  exact ⟨piece.2, parts.2⟩

theorem query_cons_cons (item next : Buffer × Buffer) (rest : List (Buffer × Buffer)) :
    query (item :: next :: rest) = decoded item ++ '&'.toUInt8 :: query (next :: rest) := by
  simp [query, List.intercalate]

theorem query_singleton (item : Buffer × Buffer) : query [item] = decoded item := by
  simp [query]

/-- The keys and values have no character of a kind that the separators are not of,
exactly when the query has none. -/
theorem any_query {kind : UInt8 → Bool} (separator : kind '&'.toUInt8 = false)
    (equals : kind '='.toUInt8 = false) (items : List (Buffer × Buffer)) :
    (query items).any kind = false ↔
      ∀ item ∈ items, item.1.any kind = false ∧ item.2.any kind = false := by
  have one : ∀ item : Buffer × Buffer, (decoded item).any kind = false ↔
      item.1.any kind = false ∧ item.2.any kind = false := by
    intro item
    simp [decoded, equals]
  induction items with
  | nil => simp [query]
  | cons item rest ih =>
      cases rest with
      | nil =>
          rw [query_singleton, one]
          simp
      | cons next rest =>
          rw [query_cons_cons, List.any_append, List.any_cons, separator, Bool.false_or,
            Bool.or_eq_false_iff, one, List.forall_mem_cons]
          exact and_congr Iff.rfl ih

/-- The parts of the target, or an exception when a line ends in it. -/
theorem new_target (ctype : CType) (items : List (Buffer × Buffer)) :
    InputPack.new (target ctype items) =
      if (query items).any Target.endsLine = false then
        .ok ⟨⟨['/'.toUInt8, 'p'.toUInt8], (query items).dropWhile Target.splits⟩⟩
      else throwing ("Failed to parse url \"" ++
        Utility.shown (['/'.toUInt8, 'p'.toUInt8, '?'.toUInt8] ++ query items) ++ "\".") := by
  have lines : (['/'.toUInt8, 'p'.toUInt8, '?'.toUInt8] ++ query items).any Target.endsLine =
      (query items).any Target.endsLine := by
    rw [List.any_append]
    rfl
  unfold InputPack.new
  rw [decodeUrl_target]
  by_cases whole : (query items).any Target.endsLine = false
  · have parsed : Target.new (['/'.toUInt8, 'p'.toUInt8, '?'.toUInt8] ++ query items) =
        .ok ⟨['/'.toUInt8, 'p'.toUInt8], (query items).dropWhile Target.splits⟩ := by
      unfold Target.new
      rw [if_pos ⟨rfl, lines.trans whole⟩]
      rfl
    rw [if_pos whole]
    simp only [bind, Except.bind, parsed]
    rfl
  · have refused : ¬ ((['/'.toUInt8, 'p'.toUInt8, '?'.toUInt8] ++ query items).head? =
          some '/'.toUInt8 ∧
        (['/'.toUInt8, 'p'.toUInt8, '?'.toUInt8] ++ query items).any Target.endsLine = false) := by
      rw [lines]
      intro parsed
      exact whole parsed.2
    rw [if_neg whole]
    simp only [bind, Except.bind, Target.new]
    rw [if_neg refused]
    rfl

/-- No parameter gets into the path. -/
theorem getPath_target {ctype : CType} {items : List (Buffer × Buffer)} {pack : InputPack}
    (made : InputPack.new (target ctype items) = .ok pack) :
    pack.getPath = ['/'.toUInt8, 'p'.toUInt8] := by
  rw [new_target] at made
  split at made
  · cases made
    rfl
  · cases made

/-- The splitter takes only characters of the first key. -/
theorem dropWhile_query (item : Buffer × Buffer) (rest : List (Buffer × Buffer)) :
    (query (item :: rest)).dropWhile Target.splits =
      query ((item.1.dropWhile Target.splits, item.2) :: rest) := by
  have stops : ∀ key tail : Buffer, (key ++ '='.toUInt8 :: tail).dropWhile Target.splits =
      key.dropWhile Target.splits ++ '='.toUInt8 :: tail := by
    intro key tail
    rw [List.dropWhile_append]
    split
    · rename_i taken
      have empty : key.dropWhile Target.splits = [] := by simpa using taken
      rw [empty]
      rfl
    · rfl
  cases rest with
  | nil =>
      rw [query_singleton, query_singleton]
      exact stops item.1 item.2
  | cons next rest =>
      rw [query_cons_cons, query_cons_cons, decoded, List.append_assoc, List.cons_append, stops]
      simp [decoded]

/-- A query of plain entries is split into them. -/
theorem pairs_query {items : List (Buffer × Buffer)} (filled : items ≠ [])
    (plain : ∀ item ∈ items, item.1.any reserved = false ∧ item.2.any reserved = false)
    (pair : Buffer) : pair ∈ InputPack.pairs (query items) ↔ pair ∈ items.map decoded := by
  rw [mem_pairs, query, List.splitOn_intercalate]
  · intro piece member
    obtain ⟨item, inside, same⟩ := List.mem_map.mp member
    subst same
    have free := plain item inside
    simp only [List.any_eq_false, reserved] at free
    intro separator
    rcases List.mem_append.mp separator with early | late
    · exact free.1 _ early rfl
    · rcases List.mem_cons.mp late with same | late
      · revert same
        decide
      · exact free.2 _ late rfl
  · simpa using filled

/-- A plain entry comes out as it went in. -/
theorem entry_decoded {item : Buffer × Buffer} (key : item.1.any reserved = false)
    (value : item.2.any reserved = false) : InputPack.entry (decoded item) = item := by
  have free : ∀ text : Buffer, text.any reserved = false → '='.toUInt8 ∉ text := by
    intro text plain inside
    rw [List.any_eq_false] at plain
    exact plain _ inside rfl
  unfold InputPack.entry
  rw [decoded, List.splitOn_append_cons_self_of_not_mem (free _ key),
    List.splitOn_eq_singleton (free _ value)]

theorem mem_entries {items : List (Buffer × Buffer)} (filled : items ≠ [])
    (plain : ∀ item ∈ items, item.1.any reserved = false ∧ item.2.any reserved = false)
    (entry : Buffer × Buffer) :
    entry ∈ (InputPack.pairs (query items)).map InputPack.entry ↔ entry ∈ items := by
  simp only [List.mem_map, pairs_query filled plain]
  constructor
  · rintro ⟨pair, ⟨item, member, same⟩, result⟩
    obtain ⟨key, value⟩ := plain item member
    rw [← same, entry_decoded key value] at result
    exact result ▸ member
  · intro member
    obtain ⟨key, value⟩ := plain entry member
    exact ⟨decoded entry, ⟨entry, member, rfl⟩, entry_decoded key value⟩

/-- Behind the splitter there is no `?` to erase. -/
theorem parse_dropWhile (text : Buffer) :
    InputPack.parse (text.dropWhile Target.splits) =
      Assoc.insertAll []
        ((InputPack.pairs (text.dropWhile Target.splits)).map InputPack.entry) := by
  have erased : (text.dropWhile Target.splits).head? ≠ some '?'.toUInt8 := by
    intro head
    have stopped := List.head?_dropWhile_not Target.splits text
    rw [head] at stopped
    revert stopped
    decide
  unfold InputPack.parse
  rw [if_neg erased]

theorem query_ne_nil (item : Buffer × Buffer) (rest : List (Buffer × Buffer)) :
    query (item :: rest) ≠ [] := by
  cases rest with
  | nil => simp [query_singleton, decoded]
  | cons next rest => simp [query_cons_cons, decoded]

/-- The parameters of a map with an entry, as the server reads them. -/
theorem lookup_getParams (path : Buffer) (item : Buffer × Buffer)
    (rest : List (Buffer × Buffer)) (key : Buffer) :
    (InputPack.getParams ⟨⟨path, (query (item :: rest)).dropWhile Target.splits⟩⟩).lookup key =
      ((InputPack.pairs (query ((item.1.dropWhile Target.splits, item.2) :: rest))).map
        InputPack.entry).lookup key := by
  have filled : ((query (item :: rest)).dropWhile Target.splits).isEmpty = false := by
    rw [dropWhile_query, List.isEmpty_eq_false_iff]
    exact query_ne_nil _ rest
  unfold InputPack.getParams InputPack.getQuery
  dsimp only
  rw [filled, if_neg Bool.false_ne_true, parse_dropWhile, Assoc.lookup_insertAll, List.lookup_nil,
    Option.none_or, dropWhile_query]

end QueryOf

open QueryOf

theorem survive_of_harmless (ctype : CType) {items : List (Buffer × Buffer)}
    (distinct : (items.map Prod.fst).Nodup) (harmless : Harmless items) :
    Survive ctype items := by
  have whole : (query items).any Target.endsLine = false := by
    rw [any_query (by decide) (by decide)]
    intro item member
    have plain := harmless.plain item member
    simp only [List.any_eq_false, reserved, Bool.or_eq_true, not_or] at plain ⊢
    exact ⟨fun byte inside => (plain.1 byte inside).2, fun byte inside => (plain.2 byte inside).2⟩
  refine ⟨_, (new_target ctype items).trans (if_pos whole), ?_⟩
  intro key
  cases items with
  | nil => rfl
  | cons item rest =>
      have kept : item.1.dropWhile Target.splits = item.1 := by
        cases start : item.1 with
        | nil => rfl
        | cons byte tail =>
            have stops := harmless.first item rfl byte (by rw [start]; rfl)
            rw [List.dropWhile_cons, stops, if_neg Bool.false_ne_true]
      rw [lookup_getParams, kept]
      exact Assoc.lookup_eq_of_mem_iff distinct
        (mem_entries (List.cons_ne_nil _ _) harmless.plain) key

/-- What survives has no reserved character. -/
theorem plain_of_survive {ctype : CType} {items : List (Buffer × Buffer)}
    (distinct : (items.map Prod.fst).Nodup) (survive : Survive ctype items) :
    ∀ item ∈ items, item.1.any reserved = false ∧ item.2.any reserved = false := by
  obtain ⟨pack, made, same⟩ := survive
  rw [new_target] at made
  split at made
  case isFalse => cases made
  rename_i whole
  rw [any_query (by decide) (by decide)] at whole
  intro item member
  have lines := whole item member
  have found := (same item.1).trans (Assoc.lookup_of_mem distinct member)
  have parsed : (InputPack.parse pack.getQuery).lookup item.1 = some item.2 := by
    unfold InputPack.getParams at found
    split at found
    · cases found
    · exact found
  have free := parse_plain parsed
  simp only [List.any_eq_false, reserved, Bool.or_eq_true, decide_eq_true_eq, not_or] at lines ⊢
  constructor
  · intro byte inside
    exact ⟨free byte (Or.inl inside), lines.1 byte inside⟩
  · intro byte inside
    exact ⟨free byte (Or.inr inside), lines.2 byte inside⟩

/-- The first key of what survives does not begin with a character that the splitter takes. -/
theorem first_of_survive {ctype : CType} {item : Buffer × Buffer}
    {rest : List (Buffer × Buffer)} (distinct : ((item :: rest).map Prod.fst).Nodup)
    (survive : Survive ctype (item :: rest)) :
    ∀ byte ∈ item.1.head?, Target.splits byte = false := by
  have plain := plain_of_survive distinct survive
  obtain ⟨pack, made, same⟩ := survive
  rw [new_target] at made
  split at made
  case isFalse => cases made
  cases made
  have found := (same item.1).trans List.lookup_cons_self
  rw [lookup_getParams] at found
  have shorter : ∀ entry ∈ (item.1.dropWhile Target.splits, item.2) :: rest,
      entry.1.any reserved = false ∧ entry.2.any reserved = false := by
    intro entry member
    rcases List.mem_cons.mp member with first | later
    · subst first
      have whole := plain item List.mem_cons_self
      refine ⟨?_, whole.2⟩
      rw [List.any_eq_false] at whole ⊢
      intro byte inside
      exact whole.1 byte ((List.dropWhile_sublist _).subset inside)
    · exact plain entry (List.mem_cons_of_mem _ later)
  have member := (mem_entries (List.cons_ne_nil _ _) shorter _).mp (Assoc.mem_of_lookup found)
  rw [List.map_cons, List.nodup_cons] at distinct
  rcases List.mem_cons.mp member with first | later
  · have kept : item.1 = item.1.dropWhile Target.splits := congrArg Prod.fst first
    intro byte head
    have stopped := List.head?_dropWhile_not Target.splits item.1
    rw [← kept, Option.mem_def.mp head] at stopped
    exact stopped
  · exact absurd (List.mem_map_of_mem later) distinct.1

/-- The target is decoded before it is taken apart, so that a map survives the way through
a target exactly when its keys and values hold nothing that the parts are told apart by. -/
theorem params_survive_iff (ctype : CType) (items : List (Buffer × Buffer))
    (distinct : (items.map Prod.fst).Nodup) : Survive ctype items ↔ Harmless items := by
  constructor
  · intro survive
    refine ⟨plain_of_survive distinct survive, ?_⟩
    cases items with
    | nil =>
        intro item member
        cases member
    | cons first rest =>
        intro item member
        cases member
        exact first_of_survive distinct survive
  · exact survive_of_harmless ctype distinct

/-- `a=x y` and `b=%` survive. -/
theorem escaped_params_survive :
    Survive CType.posix [(['a'.toUInt8], ['x'.toUInt8, ' '.toUInt8, 'y'.toUInt8]),
      (['b'.toUInt8], ['%'.toUInt8])] := by
  apply (params_survive_iff CType.posix _ (by decide)).mpr
  constructor
  · decide
  · intro item member byte head
    cases member
    cases head
    decide

/-- The key `a` with the value `1&b=2`. -/
def nestedItems : List (Buffer × Buffer) :=
  [(['a'.toUInt8], ['1'.toUInt8, '&'.toUInt8, 'b'.toUInt8, '='.toUInt8, '2'.toUInt8])]

/-- A value with separators comes out as two parameters, and the key `/a` loses its first
character. -/
theorem reserved_params_are_lost :
    ¬ (∀ (ctype : CType) (items : List (Buffer × Buffer)), (items.map Prod.fst).Nodup →
        (∀ item ∈ items, item.1 ≠ []) → Survive ctype items) ∧
      (InputPack.new (target CType.posix nestedItems)).map InputPack.getParams =
        .ok [(['a'.toUInt8], ['1'.toUInt8]), (['b'.toUInt8], ['2'.toUInt8])] ∧
      (InputPack.new (target CType.posix [(['/'.toUInt8, 'a'.toUInt8], ['1'.toUInt8])])).map
        InputPack.getParams = .ok [(['a'.toUInt8], ['1'.toUInt8])] := by
  have made : InputPack.new (target CType.posix nestedItems) =
      .ok ⟨⟨['/'.toUInt8, 'p'.toUInt8], query nestedItems⟩⟩ := by
    decide +kernel
  refine ⟨?_, by decide +kernel, by decide +kernel⟩
  intro all
  obtain ⟨pack, other, same⟩ := all CType.posix nestedItems (by decide) (by decide)
  rw [made] at other
  cases other
  have value := same ['a'.toUInt8]
  revert value
  decide +kernel

end Mif.Net.Http
