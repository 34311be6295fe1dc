import CallAtlas.Dump.Depth
import CallAtlas.Proofs.Dump.Reading
import Mathlib.Control.Monad.Basic

/-!
# Nesting depth and the depth of blocks

The nesting depth of a text is found without reading it: quoted values are taken out wherever a
double quote stands, and what braces are left are counted.  In what stands in a text by the grammar
this goes in step with the derivation.  A double quote stands there only where a quoted value begins
or inside of one, for neither identifiers nor bare values have any, and so do the braces that are
not counted.  So the nesting depth of a dump is the depth of its block.

## Main definitions

* `Entry.depth`, `Block.depth`: how deeply blocks nest
* `deepestIn depth deepest s`: the deepest nesting found in the text `s` and before it

## Main results

* `deepestIn_opening`: what comes before the entries of a block opens one brace
* `EntriesAt.deepestIn_eq`: entries are passed over at the depth that they nest to
* `nestingDepth_eq_depth`: the nesting depth of a dump is the depth of its block
-/

namespace CallAtlas.Dump

open CallAtlas.Text

/-! ## The depth of blocks -/

mutual

/-- How deeply blocks nest in an entry, itself counted if it is one. -/
def Entry.depth : Entry → Nat
  | .field .. => 0
  | .block _ entries => entriesDepth entries + 1

/-- How deeply blocks nest in entries. -/
def entriesDepth : List Entry → Nat
  | [] => 0
  | entry :: entries => max entry.depth (entriesDepth entries)

end

/-- **The depth of a block**: one more than the greatest depth of the blocks in it, if any. -/
def Block.depth (block : Block) : Nat :=
  entriesDepth block.entries + 1

/-- The depth of a block from those of the blocks in it. -/
theorem Block.depth_eq (block : Block) :
    block.depth = (block.blocks.map Block.depth).foldr max 0 + 1 := by
  have hentries (entries : List Entry) : entriesDepth entries =
      ((entries.filterMap Entry.block?).map Block.depth).foldr max 0 := by
    induction entries with
    | nil => rfl
    | cons entry entries ih =>
      cases entry with
      | field key value =>
        rw [entriesDepth, Entry.depth, ih, Nat.zero_max]
        rfl
      | block kind inner =>
        rw [entriesDepth, Entry.depth, ih]
        rfl
  rw [Block.depth, hentries, Block.blocks]

/-! ## Counting braces -/

section Counting

variable {depth deepest : Int}

/-- The deepest nesting in the text `s`, which stands at depth `depth`, or `deepest` if that is
deeper. -/
def deepestIn (depth deepest : Int) (s : List Char) : Int :=
  deepestBrace depth deepest (withoutQuotes s)

theorem nestingDepth_eq_deepestIn (text : String) :
    nestingDepth text = (deepestIn 0 0 text.toList).toNat := rfl

/-- A character that is no brace and no double quote. -/
def IsPlain (c : Char) : Prop :=
  c ≠ '"' ∧ c ≠ '{' ∧ c ≠ '}'

theorem withoutQuotes_cons {c : Char} (hc : c ≠ '"') (rest : List Char) :
    withoutQuotes (c :: rest) = c :: withoutQuotes rest := by
  rw [withoutQuotes]
  split
  · next hquoted => simp [quoted?, hc] at hquoted
  · rfl

theorem withoutQuotes_quoted {body : List Char} (hbody : QuotedBody body) (rest : List Char) :
    withoutQuotes ('"' :: (body ++ '"' :: rest)) = withoutQuotes rest := by
  have hread : quoted? ('"' :: (body ++ '"' :: rest)) = some (body, rest) :=
    quotedBody?_append hbody rest
  rw [withoutQuotes]
  split
  · next hquoted =>
    obtain ⟨-, rfl⟩ := Prod.mk.inj (Option.some.inj (hread.symm.trans hquoted))
    rfl
  · next hquoted => simp [hread] at hquoted

theorem le_deepestBrace (depth deepest : Int) (s : List Char) :
    deepest ≤ deepestBrace depth deepest s := by
  induction s generalizing depth deepest with
  | nil => exact Int.le_refl deepest
  | cons c rest ih =>
    rw [deepestBrace]
    split
    · exact Int.le_trans (Int.le_max_left _ _) (ih _ _)
    · split
      · exact ih _ _
      · exact ih _ _

theorem le_deepestIn (depth deepest : Int) (s : List Char) : deepest ≤ deepestIn depth deepest s :=
  le_deepestBrace depth deepest _

theorem deepestIn_open (rest : List Char) :
    deepestIn depth deepest ('{' :: rest) =
      deepestIn (depth + 1) (max deepest (depth + 1)) rest := by
  rw [deepestIn, withoutQuotes_cons (by decide), deepestBrace, if_pos rfl, deepestIn]

theorem deepestIn_close (rest : List Char) :
    deepestIn depth deepest ('}' :: rest) = deepestIn (depth - 1) deepest rest := by
  rw [deepestIn, withoutQuotes_cons (by decide), deepestBrace, if_neg (by decide), if_pos rfl,
    deepestIn]

/-- Words without braces and quotes are passed over. -/
theorem deepestIn_append {word : List Char} (hword : ∀ c ∈ word, IsPlain c) (rest : List Char) :
    deepestIn depth deepest (word ++ rest) = deepestIn depth deepest rest := by
  induction word with
  | nil => rfl
  | cons c word ih =>
    obtain ⟨hquote, hopen, hclose⟩ := hword c (.head _)
    rw [List.cons_append, deepestIn, withoutQuotes_cons hquote, deepestBrace, if_neg hopen,
      if_neg hclose]
    exact ih fun d hd => hword d (.tail _ hd)

theorem isPlain_of_toNat {c : Char} (h34 : c.toNat ≠ 34) (h123 : c.toNat ≠ 123)
    (h125 : c.toNat ≠ 125) : IsPlain c := by
  refine ⟨?_, ?_, ?_⟩
  · rintro rfl
    exact h34 rfl
  · rintro rfl
    exact h123 rfl
  · rintro rfl
    exact h125 rfl

theorem Blanks.isPlain {gap : List Char} (h : Blanks gap) : ∀ c ∈ gap, IsPlain c := by
  intro c hc
  have hrange := toNat_of_isBlank (h c hc)
  exact isPlain_of_toNat (by omega) (by omega) (by omega)

theorem isPlain_of_isIdentifierChar {c : Char} (h : isIdentifierChar c = true) : IsPlain c := by
  have hrange := toNat_of_isIdentifierChar h
  exact isPlain_of_toNat (by omega) (by omega) (by omega)

theorem IsIdentifier.isPlain {word : List Char} (h : IsIdentifier word) :
    ∀ c ∈ word, IsPlain c := by
  cases word with
  | nil => exact h.elim
  | cons c word =>
    refine List.forall_mem_cons.mpr ⟨?_, fun d hd => ?_⟩
    · exact isPlain_of_isIdentifierChar (isIdentifierChar_of_isIdentifier h)
    · exact isPlain_of_isIdentifierChar (h.2 d hd)

theorem IsBare.isPlain {word : List Char} (h : IsBare word) : ∀ c ∈ word, IsPlain c := by
  intro c hc
  have hends := h.2 c hc
  simp only [EndsBare, not_or] at hends
  exact ⟨hends.2.2.2, hends.2.1, hends.2.2.1⟩

theorem isPlain_colon : IsPlain ':' := by
  refine ⟨?_, ?_, ?_⟩ <;> decide

end Counting

/-! ## In step with derivations -/

section Derivations

theorem ValueAt.deepestIn_eq {s value rest : List Char} (h : ValueAt s value rest)
    (depth deepest : Int) : deepestIn depth deepest s = deepestIn depth deepest rest := by
  cases h with
  | quoted hbody => rw [deepestIn, withoutQuotes_quoted hbody, deepestIn]
  | bare hword => exact deepestIn_append hword.isPlain rest

/-- **What comes before the entries of a block opens one brace.** -/
theorem deepestIn_opening {kind gap mark gap' : List Char} (hkind : IsIdentifier kind)
    (hgap : Blanks gap) (hmark : mark = [] ∨ mark = [':']) (hgap' : Blanks gap')
    (depth deepest : Int) (inner : List Char) :
    deepestIn depth deepest (kind ++ (gap ++ (mark ++ (gap' ++ '{' :: inner)))) =
      deepestIn (depth + 1) (max deepest (depth + 1)) inner := by
  have hplain : ∀ c ∈ mark, IsPlain c := by
    rcases hmark with rfl | rfl
    · simp
    · simpa using isPlain_colon
  rw [deepestIn_append hkind.isPlain, deepestIn_append hgap.isPlain, deepestIn_append hplain,
    deepestIn_append hgap'.isPlain, deepestIn_open]

mutual

theorem EntryAt.deepestIn_eq {s rest : List Char} {entry : Entry} :
    EntryAt s entry rest → ∀ {depth deepest : Int}, depth ≤ deepest →
      deepestIn depth deepest s = deepestIn depth (max deepest (depth + entry.depth)) rest
  | @EntryAt.field key gap gap' s value rest hkey hgap hgap' hvalue, depth, deepest, hle => by
    have hmax : max deepest (depth + (0 : Nat)) = deepest := by omega
    rw [Entry.depth, hmax, deepestIn_append hkey.isPlain, deepestIn_append hgap.isPlain,
      ← List.singleton_append, deepestIn_append (by simpa using isPlain_colon),
      deepestIn_append hgap'.isPlain, hvalue.deepestIn_eq]
  | .block hblock, depth, deepest, hle => hblock.deepestIn_eq hle

/-- A block is passed over at the depth that it nests to. -/
theorem BlockAt.deepestIn_eq {s rest : List Char} {block : Block} :
    BlockAt s block rest → ∀ {depth deepest : Int}, depth ≤ deepest →
      deepestIn depth deepest s = deepestIn depth (max deepest (depth + block.depth)) rest
  | @BlockAt.braces _ _ _ _ gap'' s rest entries hkind hgap hmark hgap' hgap'' hentries,
      depth, deepest, hle => by
    -- the entries are counted one deeper, and the closing brace leads back
    have hmax : max (max deepest (depth + 1)) (depth + 1 + (entriesDepth entries : Int)) =
        max deepest (depth + (entriesDepth entries + 1 : Nat)) := by omega
    rw [deepestIn_opening hkind hgap hmark hgap', deepestIn_append hgap''.isPlain,
      hentries.deepestIn_eq (Int.le_max_right _ _), hmax, deepestIn_close, Block.depth,
      Int.add_sub_cancel]

/-- **Entries are passed over at the depth that they nest to.** -/
theorem EntriesAt.deepestIn_eq {s rest : List Char} {entries : List Entry} :
    EntriesAt s entries rest → ∀ {depth deepest : Int}, depth ≤ deepest →
      deepestIn depth deepest s = deepestIn depth (max deepest (depth + entriesDepth entries)) rest
  | .nil, depth, deepest, hle => by
    have hmax : max deepest (depth + (0 : Nat)) = deepest := by omega
    rw [entriesDepth, hmax]
  | @EntriesAt.cons s gap t rest entry entries hentry hgap hentries, depth, deepest, hle => by
    have hmax : max (max deepest (depth + entry.depth)) (depth + entriesDepth entries) =
        max deepest (depth + (max entry.depth (entriesDepth entries) : Nat)) := by omega
    rw [hentry.deepestIn_eq hle, deepestIn_append hgap.isPlain,
      hentries.deepestIn_eq (Int.le_trans hle (Int.le_max_left _ _)), hmax, entriesDepth]

end

theorem Derives.nestingDepth_eq {text : String} {block : Block} (h : Derives text.toList block) :
    nestingDepth text = block.depth := by
  obtain ⟨gap, s, gap', htext, hgap, hblock, hgap'⟩ := h
  have hend : deepestIn 0 (max 0 (0 + block.depth)) (gap' ++ []) =
      deepestIn 0 (max 0 (0 + block.depth)) [] := deepestIn_append hgap'.isPlain []
  rw [nestingDepth_eq_deepestIn, htext, deepestIn_append hgap.isPlain,
    hblock.deepestIn_eq (Int.le_refl 0), ← List.append_nil gap', hend, deepestIn, withoutQuotes,
    deepestBrace]
  omega

end Derivations

/-- **The nesting depth of a dump is the depth of its block**, whatever braces, quotes and escapes
its values have. -/
theorem nestingDepth_eq_depth {text : String} {source : Option String} {block : Block}
    (h : parse text source = .ok block) : nestingDepth text = block.depth :=
  (parse_eq_ok_iff.mp h).nestingDepth_eq

/-- The values have braces, an escaped quote, an escaped backslash before the last quote, and a
backslash at the end of a bare value; none of them is a brace of a block. -/
theorem nestingDepth_eq_depth_escapes :
    let text :=
      "graph: \x7b a: \"\x7d\x7b\\\"\x7b\" b: c\\ d: \"\\\\\" e \x7b f: \"\x7b\" \x7d \x7d"
    let block : Block := ⟨"graph", [.field "a" "\x7d\x7b\\\"\x7b", .field "b" "c\\",
      .field "d" "\\\\", .block "e" [.field "f" "\x7b"]]⟩
    parse text none = .ok block ∧ nestingDepth text = block.depth ∧ block.depth = 2 := by
  intro text block
  have hparse : parse text none = .ok block := by decide +kernel
  exact ⟨hparse, nestingDepth_eq_depth hparse, by decide⟩

end CallAtlas.Dump
