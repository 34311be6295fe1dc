/-!
# Blocks of a dump

A dump is one block.  A block has a kind and a list of entries; an entry is a field, which is a key
with a value, or a nested block.  Nothing here knows which kinds and keys a call graph uses.

## Main definitions

* `Entry`, `Block`;
* `Block.field?` — the value of a key: of several fields with one key, the last counts;
* `Block.blocks`, `Block.blocksOfKind` — the nested blocks, in order;
* `Block.outline` — the whole tree as a flat list, every line with its depth.
-/

namespace CallAtlas.Dump

/-- One entry of a block. -/
inductive Entry where
  /-- A key with its value, both as they stand in the text. -/
  | field (key value : String)
  /-- A nested block. -/
  | block (kind : String) (entries : List Entry)
  deriving Repr

/-- A kind and the entries under it. -/
structure Block where
  kind : String
  entries : List Entry := []
  deriving Repr

/-! ## Equality -/

mutual

/-- Equality of entries, decided. -/
def Entry.decEq : (a b : Entry) → Decidable (a = b)
  | .field k v, .field k' v' =>
    if h : k = k' ∧ v = v' then isTrue (by rw [h.1, h.2])
    else isFalse (by simpa using h)
  | .block k es, .block k' es' =>
    if hk : k = k' then
      match Entry.decEqList es es' with
      | isTrue he => isTrue (by rw [hk, he])
      | isFalse he => isFalse (by simp [he])
    else isFalse (by simp [hk])
  | .field .., .block .. => isFalse (by simp)
  | .block .., .field .. => isFalse (by simp)

/-- Equality of lists of entries, decided. -/
def Entry.decEqList : (as bs : List Entry) → Decidable (as = bs)
  | [], [] => isTrue rfl
  | [], _ :: _ => isFalse (by simp)
  | _ :: _, [] => isFalse (by simp)
  | a :: as, b :: bs =>
    match Entry.decEq a b with
    | isTrue h =>
      match Entry.decEqList as bs with
      | isTrue hs => isTrue (by rw [h, hs])
      | isFalse hs => isFalse (by simp [hs])
    | isFalse h => isFalse (by simp [h])

end

instance : DecidableEq Entry := Entry.decEq

deriving instance DecidableEq for Block

/-! ## Projections -/

/-- The nested block that an entry is. -/
def Entry.block? : Entry → Option Block
  | .field .. => none
  | .block kind entries => some ⟨kind, entries⟩

/-- The key and value of the field that an entry is. -/
def Entry.field? : Entry → Option (String × String)
  | .field key value => some (key, value)
  | .block .. => none

namespace Block

/-- The fields, in order. -/
def fields (b : Block) : List (String × String) :=
  b.entries.filterMap Entry.field?

/-- The value of a key: that of the last field with it. -/
def field? (b : Block) (key : String) : Option String :=
  b.fields.reverse.lookup key

/-- The fields that count, one for each key, in ascending order of the keys. -/
def sortedFields (b : Block) : List (String × String) :=
  let keys := b.fields.map Prod.fst
  let sorted := keys.eraseDups.mergeSort fun a c => decide (a ≤ c)
  sorted.filterMap fun key => (b.field? key).map (key, ·)

/-- The nested blocks, in order. -/
def blocks (b : Block) : List Block :=
  b.entries.filterMap Entry.block?

/-- The nested blocks of one kind, in order. -/
def blocksOfKind (b : Block) (kind : String) : List Block :=
  b.blocks.filter (·.kind = kind)

end Block

/-! ## Outline -/

/-- One line of an outline. -/
inductive OutlineLine where
  | block (depth : Nat) (kind : String)
  | field (depth : Nat) (key value : String)
  deriving DecidableEq, Repr

mutual

/-- An entry at some depth, and everything under it, parents first. -/
def Entry.outline (depth : Nat) : Entry → List OutlineLine
  | .field key value => [.field depth key value]
  | .block kind entries => .block depth kind :: Entry.outlineList (depth + 1) entries

/-- Entries at some depth, one after the other. -/
def Entry.outlineList (depth : Nat) : List Entry → List OutlineLine
  | [] => []
  | e :: es => Entry.outline depth e ++ Entry.outlineList depth es

end

/-- A block and everything under it, parents first; the block itself has depth 0. -/
def Block.outline (b : Block) : List OutlineLine :=
  .block 0 b.kind :: Entry.outlineList 1 b.entries

end CallAtlas.Dump
