import Mathlib.Data.List.Basic
import Mif.Lib.Assoc

set_option autoImplicit false

/-- A node with data of its own and with children in an order, each under a key. Several
children may have the same key. -/
inductive PropertyTree (κ δ : Type)
  | node (data : δ) (children : List (κ × PropertyTree κ δ))

/-- A tree whose keys and data are texts. -/
abbrev Ptree := PropertyTree String String

namespace PropertyTree

variable {κ δ : Type}

def data : PropertyTree κ δ → δ
  | node data _ => data

def children : PropertyTree κ δ → List (κ × PropertyTree κ δ)
  | node _ children => children

/-- A node without children. -/
def leaf (data : δ) : PropertyTree κ δ := node data []

theorem sizeOf_child [SizeOf κ] [SizeOf δ] {tree : PropertyTree κ δ} {entry : κ × PropertyTree κ δ}
    (member : entry ∈ tree.children) : sizeOf entry.2 < sizeOf tree := by
  cases tree with
  | node data children =>
      have inside : sizeOf entry < sizeOf children := List.sizeOf_lt_of_mem member
      cases entry with
      | mk key child =>
          simp only [Prod.mk.sizeOf_spec] at inside
          simp only [node.sizeOf_spec]
          omega

section

variable [DecidableEq κ]

/-- The first child under a key. -/
def find (tree : PropertyTree κ δ) (key : κ) : Option (PropertyTree κ δ) :=
  tree.children.lookup key

/-- The node at the end of a path, which follows the first child of each key. The empty
path ends at the node itself. -/
def getChild (tree : PropertyTree κ δ) : List κ → Option (PropertyTree κ δ)
  | [] => some tree
  | key :: rest => (tree.find key).bind fun child => child.getChild rest

/-- The first child under a key is changed. -/
def modifyFirst (key : κ) (change : PropertyTree κ δ → PropertyTree κ δ) :
    List (κ × PropertyTree κ δ) → List (κ × PropertyTree κ δ)
  | [] => []
  | (other, child) :: rest =>
      if other = key then (other, change child) :: rest
      else (other, child) :: modifyFirst key change rest

/-- A child is appended under the last key of a path. A node on the way that is missing is
appended with the data `blank`. -/
def add (blank : δ) (item : PropertyTree κ δ) : List κ → PropertyTree κ δ → PropertyTree κ δ
  | [], tree => tree
  | [key], node data children => node data (children ++ [(key, item)])
  | key :: next :: rest, node data children =>
      match children.lookup key with
      | some _ => node data (modifyFirst key (add blank item (next :: rest)) children)
      | none => node data (children ++ [(key, add blank item (next :: rest) (leaf blank))])

@[simp] theorem getChild_nil (tree : PropertyTree κ δ) : tree.getChild [] = some tree := rfl

theorem getChild_singleton (tree : PropertyTree κ δ) (key : κ) :
    tree.getChild [key] = tree.find key := by
  rw [getChild]
  cases tree.find key with
  | none => rfl
  | some child => rfl

@[simp] theorem find_leaf (data : δ) (key : κ) :
    (leaf data : PropertyTree κ δ).find key = none := rfl

theorem find_eq_none {tree : PropertyTree κ δ} {key : κ}
    (absent : key ∉ tree.children.map Prod.fst) : tree.find key = none := by
  rw [find, List.lookup_eq_none_iff]
  intro entry member
  have different : key ≠ entry.1 := fun same => absent (same ▸ List.mem_map_of_mem member)
  simpa using different

theorem sizeOf_find [SizeOf κ] [SizeOf δ] {tree child : PropertyTree κ δ} {key : κ}
    (found : tree.find key = some child) : sizeOf child < sizeOf tree := by
  have member : (key, child) ∈ tree.children := Assoc.mem_of_lookup found
  exact sizeOf_child member

/-- A walk along a path of at least one key goes down. -/
theorem sizeOf_getChild [SizeOf κ] [SizeOf δ] {tree item : PropertyTree κ δ} {keys : List κ}
    (found : tree.getChild keys = some item) :
    sizeOf item + (if keys = [] then 0 else 1) ≤ sizeOf tree := by
  induction keys generalizing tree with
  | nil =>
      cases found
      simp
  | cons key rest ih =>
      rw [getChild, Option.bind_eq_some_iff] at found
      obtain ⟨child, first, further⟩ := found
      have below := ih further
      have down := sizeOf_find first
      simp only [reduceCtorEq, ↓reduceIte]
      omega

@[simp] theorem add_singleton (blank data : δ) (item : PropertyTree κ δ) (key : κ)
    (children : List (κ × PropertyTree κ δ)) :
    add blank item [key] (node data children) = node data (children ++ [(key, item)]) := rfl

/-- What is added to a node without children is its only child. -/
theorem children_add_leaf (blank data : δ) (item : PropertyTree κ δ) (key : κ) (rest : List κ) :
    ∃ child, (add blank item (key :: rest) (leaf data)).children = [(key, child)] ∧
      child.getChild rest = some item := by
  induction rest generalizing key data with
  | nil => exact ⟨item, rfl, rfl⟩
  | cons next rest ih =>
      obtain ⟨child, only, found⟩ := ih blank next
      refine ⟨add blank item (next :: rest) (leaf blank), rfl, ?_⟩
      rw [getChild, find, only, List.lookup_cons_self]
      exact found

theorem getChild_add_leaf (blank data : δ) (item : PropertyTree κ δ) {keys : List κ}
    (some : keys ≠ []) : (add blank item keys (leaf data)).getChild keys = .some item := by
  cases keys with
  | nil => exact absurd rfl some
  | cons key rest =>
      obtain ⟨child, only, found⟩ := children_add_leaf blank data item key rest
      rw [getChild, find, only, List.lookup_cons_self]
      exact found

end

/- Paths that are written as one text. -/
section

/-- The keys that a path names: what stands between its dots. -/
def pathKeys (path : String) : List String := (path.toList.splitOn '.').map String.ofList

/-- The keys that a walk along the path takes. It ends where the text does, so that it
takes no empty key at the end. -/
def walkedKeys (path : String) : List String :=
  if (pathKeys path).getLast? = some "" then (pathKeys path).dropLast else pathKeys path

theorem pathKeys_of_plain {path : String} (plain : '.' ∉ path.toList) : pathKeys path = [path] := by
  have single : path.toList.splitOn '.' = [path.toList] := by
    have apart : ∀ part ∈ [path.toList], '.' ∉ part := by simpa using plain
    have joined := List.splitOn_intercalate '.' apart (by simp)
    simpa using joined
  rw [pathKeys, single, List.map_singleton, String.ofList_toList]

theorem walkedKeys_of_plain {path : String} (plain : '.' ∉ path.toList) (named : path ≠ "") :
    walkedKeys path = [path] := by
  have last : [path].getLast? ≠ some "" := by simpa using named
  rw [walkedKeys, pathKeys_of_plain plain, if_neg last]

theorem pathKeys_ne_nil (path : String) : pathKeys path ≠ [] := by
  simp [pathKeys]

/-- Only the empty path takes no key. -/
theorem walkedKeys_ne_nil {path : String} (named : path ≠ "") : walkedKeys path ≠ [] := by
  unfold walkedKeys
  split
  · rename_i ends
    intro single
    obtain ⟨before, keys⟩ := List.getLast?_eq_some_iff.mp ends
    rw [keys, List.dropLast_concat] at single
    rw [single, pathKeys, List.nil_append, List.map_eq_singleton_iff] at keys
    obtain ⟨text, split, blank⟩ := keys
    have joined : path.toList = text := by
      have all := @List.intercalate_splitOn _ path.toList _ _ '.'
      rw [split] at all
      simpa using all.symm
    apply named
    rw [← blank, ← joined, String.ofList_toList]
  · exact pathKeys_ne_nil path

@[simp] theorem walkedKeys_empty : walkedKeys "" = [] := by decide

end

end PropertyTree
