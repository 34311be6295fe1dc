import CallAtlas.Proofs.Dump.Reading

/-!
# Printed dumps

A block is printed as `kind: { entries }`, and a field as `key: "value"`, or as `key: value` if the
value cannot stand between quotes.  White space stands between two entries, and may stand between
any two parts; which white space it is, is left open.  Printed blocks are read back, if their kinds,
keys and values can be spelled at all.

## Main definitions

* `Entry.WellFormed`, `Block.WellFormed`: trees that can be spelled
* `Printed block text`: the text is the block, printed with some white space
* `Block.print`: the block, printed with single spaces

## Main results

* `EntryPrinted.entryAt`, `EntriesPrinted.entriesAt`: what is printed has a derivation
* `parse_of_printed`: a printed block is read back
* `printed_print`: every block can be printed
-/

namespace CallAtlas.Dump

open CallAtlas.Text

/-! ## Trees that can be spelled -/

instance : (word : List Char) → Decidable (IsIdentifier word)
  | [] => .isFalse id
  | c :: rest =>
    decidable_of_iff (isIdentifierStart c = true ∧ rest.all isIdentifierChar = true)
      (and_congr_right fun _ => List.all_eq_true)

/-- A value that can be spelled, between quotes or bare. -/
def IsValue (value : List Char) : Prop :=
  QuotedBody value ∨ IsBare value

/-- An entry whose kinds, keys and values can be spelled. -/
inductive Entry.WellFormed : Entry → Prop
  | field {key value : String} :
      IsIdentifier key.toList → IsValue value.toList → Entry.WellFormed (.field key value)
  | block {kind : String} {entries : List Entry} :
      IsIdentifier kind.toList → (∀ entry ∈ entries, entry.WellFormed) →
      Entry.WellFormed (.block kind entries)

/-- A block whose kinds, keys and values can be spelled. -/
structure Block.WellFormed (block : Block) : Prop where
  kind : IsIdentifier block.kind.toList
  entries : ∀ entry ∈ block.entries, entry.WellFormed

/-! ## Printed texts -/

/-- A value as it is printed: between quotes if it can stand there. -/
inductive ValuePrinted : List Char → List Char → Prop
  | quoted {value : List Char} : QuotedBody value → ValuePrinted value ('"' :: (value ++ ['"']))
  | bare {value : List Char} : ¬ QuotedBody value → ValuePrinted value value

mutual

/-- A text that is an entry, printed. -/
inductive EntryPrinted : Entry → List Char → Prop
  | field {key value : String} {gap gap' s : List Char} :
      Blanks gap → Blanks gap' → ValuePrinted value.toList s →
      EntryPrinted (.field key value) (key.toList ++ (gap ++ ':' :: (gap' ++ s)))
  | block {kind : String} {entries : List Entry} {s : List Char} :
      BlockPrinted ⟨kind, entries⟩ s → EntryPrinted (.block kind entries) s

/-- A text that is a block, printed. -/
inductive BlockPrinted : Block → List Char → Prop
  | braces {kind : String} {entries : List Entry} {gap gap' gap'' s : List Char} :
      Blanks gap → Blanks gap' → Blanks gap'' → EntriesPrinted entries s →
      BlockPrinted ⟨kind, entries⟩
        (kind.toList ++ (gap ++ ':' :: (gap' ++ '{' :: (gap'' ++ (s ++ ['}'])))))

/-- A text that is a list of entries, printed, with white space between any two. -/
inductive EntriesPrinted : List Entry → List Char → Prop
  | nil : EntriesPrinted [] []
  | cons {entry : Entry} {entries : List Entry} {s gap t : List Char} :
      EntryPrinted entry s → Blanks gap → (entries ≠ [] → gap ≠ []) → EntriesPrinted entries t →
      EntriesPrinted (entry :: entries) (s ++ (gap ++ t))

end

/-- **A text that is a block, printed**, between white space. -/
def Printed (block : Block) (text : List Char) : Prop :=
  ∃ gap s gap', text = gap ++ (s ++ gap') ∧ Blanks gap ∧ BlockPrinted block s ∧ Blanks gap'

/-! ## Printed texts are read back -/

section Reading

theorem ValuePrinted.valueAt {value s rest : List Char} (h : ValuePrinted value s)
    (hvalue : IsValue value) (hrest : ∀ c ∈ rest.head?, EndsBare c) :
    ValueAt (s ++ rest) value rest := by
  cases h with
  | quoted hbody =>
    have hquoted : ValueAt ('"' :: (value ++ '"' :: rest)) value rest := .quoted hbody
    simpa using hquoted
  | bare hbody => exact .bare (hvalue.resolve_left hbody) hrest

mutual

/-- A printed entry stands at the head of a text, if what follows ends a bare value. -/
theorem EntryPrinted.entryAt {entry : Entry} {s rest : List Char} :
    EntryPrinted entry s → entry.WellFormed → (∀ c ∈ rest.head?, EndsBare c) →
      EntryAt (s ++ rest) entry rest
  | .field hgap hgap' hvalue, .field hkey hspelled, hrest => by
    have hentry := EntryAt.field hkey hgap hgap' (hvalue.valueAt hspelled hrest)
    simpa using hentry
  | .block hblock, .block hkind hentries, _ =>
    .block (hblock.blockAt ⟨hkind, hentries⟩)

/-- A printed block stands at the head of a text. -/
theorem BlockPrinted.blockAt {block : Block} {s rest : List Char} :
    BlockPrinted block s → block.WellFormed → BlockAt (s ++ rest) block rest
  | @BlockPrinted.braces _ entries _ _ _ s hgap hgap' hgap'' hentries, ⟨hkind, hall⟩ => by
    have hinner : EntriesAt (s ++ '}' :: rest) entries ('}' :: rest) := hentries.entriesAt hall
    have hblock := BlockAt.braces hkind hgap (.inr rfl) hgap' hgap'' hinner
    simpa using hblock

/-- Printed entries stand before a closing brace. -/
theorem EntriesPrinted.entriesAt {entries : List Entry} {s rest : List Char} :
    EntriesPrinted entries s → (∀ entry ∈ entries, entry.WellFormed) →
      EntriesAt (s ++ '}' :: rest) entries ('}' :: rest)
  | .nil, _ => .nil
  | @EntriesPrinted.cons entry entries s gap t hentry hgap hne hentries, hall => by
    rw [List.append_assoc, List.append_assoc]
    refine .cons (hentry.entryAt (hall entry (.head _)) fun c hc => ?_) hgap
      (hentries.entriesAt fun other hother => hall other (.tail _ hother))
    -- a bare value is followed by white space or, where it is the last, by the brace
    cases gap with
    | cons d gap =>
      obtain rfl : d = c := by simpa using hc
      exact .inl (hgap d (.head _))
    | nil =>
      have hlast : entries = [] := by simpa using hne
      subst hlast
      cases hentries
      obtain rfl : '}' = c := by simpa using hc
      exact .inr (.inr (.inl rfl))

end

theorem Printed.derives {block : Block} {text : List Char} (h : Printed block text)
    (hblock : block.WellFormed) : Derives text block := by
  obtain ⟨gap, s, gap', rfl, hgap, hprinted, hgap'⟩ := h
  exact ⟨gap, s ++ gap', gap', rfl, hgap, hprinted.blockAt hblock, hgap'⟩

/-- **A printed block is read back.** -/
theorem parse_of_printed {block : Block} {text : String} (h : Printed block text.toList)
    (hblock : block.WellFormed) (source : Option String) : parse text source = .ok block :=
  parse_eq_ok_iff.mpr (h.derives hblock)

end Reading

/-! ## A printer -/

section Printer

instance (value : List Char) : Decidable (QuotedBody value) :=
  decidable_of_iff (quotedBody? (value ++ ['"']) = some (value, [])) <| by
    rw [quotedBody?_eq_some_iff]
    exact and_iff_left rfl

/-- A value, printed. -/
def printValue (value : List Char) : List Char :=
  if QuotedBody value then '"' :: (value ++ ['"']) else value

mutual

/-- An entry, printed with single spaces. -/
def Entry.print : Entry → List Char
  | .field key value => key.toList ++ ':' :: ' ' :: printValue value.toList
  | .block kind entries =>
    kind.toList ++ ':' :: ' ' :: '{' :: ' ' :: (printEntries entries ++ ['}'])

/-- Entries, printed with a space behind each. -/
def printEntries : List Entry → List Char
  | [] => []
  | entry :: entries => entry.print ++ ' ' :: printEntries entries

end

/-- **A block, printed with single spaces.** -/
def Block.print (block : Block) : List Char :=
  (Entry.block block.kind block.entries).print

theorem valuePrinted_printValue (value : List Char) : ValuePrinted value (printValue value) := by
  unfold printValue
  split
  · next hbody => exact .quoted hbody
  · next hbody => exact .bare hbody

theorem blanks_space : Blanks [' '] := by
  simp [Blanks]
  decide

mutual

theorem entryPrinted_print : (entry : Entry) → EntryPrinted entry entry.print
  | .field key value => by
    rw [Entry.print]
    exact .field blanks_nil blanks_space (valuePrinted_printValue value.toList)
  | .block kind entries => by
    rw [Entry.print]
    exact .block
      (.braces blanks_nil blanks_space blanks_space (entriesPrinted_printEntries entries))

theorem entriesPrinted_printEntries : (entries : List Entry) →
    EntriesPrinted entries (printEntries entries)
  | [] => by
    rw [printEntries]
    exact .nil
  | entry :: entries => by
    rw [printEntries]
    exact .cons (entryPrinted_print entry) blanks_space (fun _ => by simp)
      (entriesPrinted_printEntries entries)

end

/-- Every block can be printed. -/
theorem printed_print (block : Block) : Printed block block.print := by
  refine ⟨[], block.print, [], by simp, blanks_nil, ?_, blanks_nil⟩
  have hprinted := entryPrinted_print (.block block.kind block.entries)
  cases hprinted with
  | block hblock => exact hblock

end Printer

end CallAtlas.Dump
