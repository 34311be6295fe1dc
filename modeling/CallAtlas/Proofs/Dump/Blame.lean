import CallAtlas.Proofs.Dump.Reading
import CallAtlas.Proofs.Text.LastSeparator
import Mathlib.Control.Monad.Basic

/-!
# The place to blame

When reading fails, the place to blame is one where some rule was tried, in vain, after what stands
before it had been read.  So nothing is wrong with the text up to that place: with other text behind
it, it would be a dump.  This holds of every place where a rule was tried, also of those inside of
blocks that were given up later, because what was read does not depend on what follows, and every
block that is open can be closed.

The place is told by line, column and excerpt; line and column alone determine it.

## Main definitions

* `Replaces t s`: the text `t` can stand where `s` stood, behind any word
* `ViableBefore text s`: the text up to `s` is the beginning of a dump
* `OpenBefore text s`: the text up to `s` leads to where entries of a block can stand
* `Justified text blame`: the place to blame, if there is one, follows the beginning of a dump

## Main results

* `EntryAt.replace`, `EntriesAt.replace`: what stands in a text stands there whatever follows
* `OpenBefore.pass`, `OpenBefore.opening`: reading on, entries can still stand
* `justified_readEntries`: the reader blames only what follows the beginning of a dump
* `parse_error_is_justified`: what a diagnostic tells
-/

namespace CallAtlas.Dump

open CallAtlas.Text

/-! ## What follows does not matter -/

section Replacing

/-- The text `t` can stand where `s` stood, behind any word: it begins as `s` does, or with a
character that ends a bare value. -/
def Replaces (t s : List Char) : Prop :=
  ∀ c ∈ t.head?, EndsBare c ∨ c ∈ s.head?

theorem Replaces.append_left {t s : List Char} (h : Replaces t s) (word : List Char) :
    Replaces (word ++ t) (word ++ s) := by
  cases word with
  | nil => exact h
  | cons c word => exact fun d hd => .inr hd

theorem replaces_append {word : List Char} (hword : word ≠ []) (t s : List Char) :
    Replaces (word ++ t) (word ++ s) := by
  cases word with
  | nil => exact (hword rfl).elim
  | cons c word => exact fun d hd => .inr hd

theorem replaces_brace (rest s : List Char) : Replaces ('}' :: rest) s := by
  intro c hc
  obtain rfl : '}' = c := by simpa using hc
  exact .inl (.inr (.inr (.inl rfl)))

theorem ValueAt.replace {s value rest : List Char} (h : ValueAt s value rest) :
    ∃ word, s = word ++ rest ∧ ∀ t, Replaces t rest → ValueAt (word ++ t) value t := by
  cases h with
  | quoted hbody =>
    refine ⟨'"' :: (value ++ ['"']), by simp, fun t _ => ?_⟩
    have hvalue : ValueAt ('"' :: (value ++ '"' :: t)) value t := .quoted hbody
    simpa using hvalue
  | bare hword hrest =>
    refine ⟨value, rfl, fun t ht => .bare hword fun c hc => ?_⟩
    exact (ht c hc).elim id (hrest c)

mutual

/-- An entry that stands in a text stands there whatever follows. -/
theorem EntryAt.replace {s rest : List Char} {entry : Entry} :
    EntryAt s entry rest →
      ∃ word, s = word ++ rest ∧ ∀ t, Replaces t rest → EntryAt (word ++ t) entry t
  | @EntryAt.field key gap gap' s value rest hkey hgap hgap' hvalue => by
    obtain ⟨word, rfl, hword⟩ := hvalue.replace
    refine ⟨key ++ (gap ++ ':' :: (gap' ++ word)), by simp, fun t ht => ?_⟩
    have hentry := EntryAt.field hkey hgap hgap' (hword t ht)
    simpa using hentry
  | .block hblock => by
    obtain ⟨word, rfl, hword⟩ := hblock.replace
    exact ⟨word, rfl, fun t _ => .block (hword t)⟩

/-- A block that stands in a text stands there whatever follows. -/
theorem BlockAt.replace {s rest : List Char} {block : Block} :
    BlockAt s block rest → ∃ word, s = word ++ rest ∧ ∀ t, BlockAt (word ++ t) block t
  | @BlockAt.braces kind gap mark gap' gap'' s rest entries hkind hgap hmark hgap' hgap''
      hentries => by
    obtain ⟨word, rfl, hword⟩ := hentries.replace
    refine ⟨kind ++ (gap ++ (mark ++ (gap' ++ '{' :: (gap'' ++ (word ++ ['}']))))), by simp,
      fun t => ?_⟩
    have hblock := BlockAt.braces hkind hgap hmark hgap' hgap'' (hword _ (replaces_brace t _))
    simpa using hblock

/-- Entries that stand in a text stand there whatever follows. -/
theorem EntriesAt.replace {s rest : List Char} {entries : List Entry} :
    EntriesAt s entries rest →
      ∃ word, s = word ++ rest ∧ ∀ t, Replaces t rest → EntriesAt (word ++ t) entries t
  | .nil => ⟨[], rfl, fun _ _ => .nil⟩
  | @EntriesAt.cons _ gap _ rest entry entries hentry hgap hentries => by
    obtain ⟨word', rfl, hword'⟩ := hentries.replace
    obtain ⟨word, rfl, hword⟩ := hentry.replace
    refine ⟨word ++ (gap ++ word'), by simp, fun t ht => ?_⟩
    -- the entry is followed by the same gap, and then by the rest of the entries or by `t`
    have hfirst := hword (gap ++ (word' ++ t)) ((ht.append_left word').append_left gap)
    have hall := EntriesAt.cons hfirst hgap (hword' t ht)
    simpa using hall

end

end Replacing

/-! ## The beginning of a dump -/

section Viable

variable {text s : List Char}

/-- **The text up to `s` is the beginning of a dump.** -/
def ViableBefore (text s : List Char) : Prop :=
  ∃ front, text = front ++ s ∧ ∃ more block, Derives (front ++ more) block

/-- The text up to `s` leads to where entries of a block can stand: whatever entries replace `s`,
with what closes the block and those around it, the whole is a dump. -/
def OpenBefore (text s : List Char) : Prop :=
  ∃ front tail, text = front ++ s ∧ ∀ t entries, Replaces t s →
    EntriesAt t entries ('}' :: tail) → ∃ block, Derives (front ++ t) block

theorem entriesAt_singleton {rest : List Char} {entry : Entry} (h : EntryAt s entry rest) :
    EntriesAt s [entry] rest :=
  @EntriesAt.cons s [] rest rest entry [] h blanks_nil .nil

/-- Blocks that are open can be closed. -/
theorem OpenBefore.viable (h : OpenBefore text s) : ViableBefore text s := by
  obtain ⟨front, tail, htext, hopen⟩ := h
  exact ⟨front, htext, '}' :: tail, hopen _ [] (replaces_brace tail s) .nil⟩

/-- Part of an entry is the beginning of a dump where entries can stand, if the entry can be
completed. -/
theorem OpenBefore.viable_of_entryAt {word rest more : List Char} {entry : Entry}
    (h : OpenBefore text (word ++ rest)) (hword : word ≠ [])
    (hentry : ∀ tail, EntryAt (word ++ (more ++ '}' :: tail)) entry ('}' :: tail)) :
    ViableBefore text rest := by
  obtain ⟨front, tail, htext, hopen⟩ := h
  obtain ⟨block, hblock⟩ := hopen _ _ (replaces_append hword _ rest)
    (entriesAt_singleton (hentry tail))
  refine ⟨front ++ word, by simpa using htext, more ++ '}' :: tail, block, ?_⟩
  simpa using hblock

/-- **Behind an entry, more entries can stand.** -/
theorem OpenBefore.pass {rest : List Char} {entry : Entry} (h : OpenBefore text s)
    (hentry : EntryAt s entry rest) : OpenBefore text (skipBlanks rest) := by
  obtain ⟨front, tail, htext, hopen⟩ := h
  obtain ⟨word, rfl, hword⟩ := hentry.replace
  obtain ⟨gap, hgap, hrest⟩ := exists_blanks_skipBlanks rest
  refine ⟨front ++ (word ++ gap), tail, ?_, fun t entries ht hentries => ?_⟩
  · rw [htext, List.append_assoc, List.append_assoc, ← hrest]
  · have hgapped : Replaces (gap ++ t) rest := by
      rw [hrest]
      exact ht.append_left gap
    obtain ⟨block, hblock⟩ := hopen (word ++ (gap ++ t)) (entry :: entries)
      (hgapped.append_left word) (.cons (hword _ hgapped) hgap hentries)
    exact ⟨block, by simpa using hblock⟩

/-- What comes before the entries of a block. -/
theorem exists_opening {kind after inner : List Char} {colon : Bool}
    (hkind : identifier? s = some (kind, after))
    (hopen : continuation (skipBlanks after) = .opens colon inner) :
    ∃ opening, s = opening ++ skipBlanks inner ∧ ∀ t entries rest,
      EntriesAt t entries ('}' :: rest) →
        BlockAt (opening ++ t) ⟨String.ofList kind, entries⟩ rest := by
  obtain ⟨gap, mark, gap', hword, hgap, hmark, hgap', rfl⟩ := exists_words_of_opens hkind hopen
  obtain ⟨gap'', hgap'', hinner⟩ := exists_blanks_skipBlanks inner
  refine ⟨kind ++ (gap ++ (mark ++ (gap' ++ '{' :: gap''))), ?_, fun t entries rest ht => ?_⟩
  · simp [← hinner]
  · have hblock := BlockAt.braces hword hgap hmark hgap' hgap'' ht
    simpa using hblock

/-- **Behind the brace that opens a block, entries can stand.** -/
theorem OpenBefore.opening {kind after inner : List Char} {colon : Bool} (h : OpenBefore text s)
    (hkind : identifier? s = some (kind, after))
    (hopen : continuation (skipBlanks after) = .opens colon inner) :
    OpenBefore text (skipBlanks inner) := by
  obtain ⟨front, tail, htext, hentries⟩ := h
  obtain ⟨opening, hs, hblock⟩ := exists_opening hkind hopen
  refine ⟨front ++ opening, '}' :: tail, by rw [htext, hs, List.append_assoc], ?_⟩
  intro t entries ht hinner
  have hreplaces : Replaces (opening ++ t) s := by
    rw [hs]
    exact ht.append_left opening
  obtain ⟨block, hderives⟩ := hentries _ _ hreplaces
    (entriesAt_singleton (.block (hblock t entries _ hinner)))
  exact ⟨block, by simpa using hderives⟩

/-- A field can be completed behind its colon. -/
theorem entryAt_completed {key gap gap' : List Char} (hkey : IsIdentifier key)
    (hgap : Blanks gap) (hgap' : Blanks gap') (tail : List Char) :
    EntryAt (key ++ (gap ++ ':' :: (gap' ++ 'x' :: '}' :: tail)))
      (.field (String.ofList key) (String.ofList ['x'])) ('}' :: tail) := by
  have hvalue : ValueAt (['x'] ++ '}' :: tail) ['x'] ('}' :: tail) := by
    refine .bare ⟨by simp, ?_⟩ ?_
    · simp only [List.forall_mem_singleton, EndsBare]
      decide
    · simp [EndsBare]
  exact .field hkey hgap hgap' hvalue

theorem IsIdentifier.append_ne_nil {key : List Char} (hkey : IsIdentifier key) (rest : List Char) :
    key ++ rest ≠ [] := by
  cases key with
  | nil => exact hkey.elim
  | cons c key => simp

/-- The text behind the identifier of an entry follows the beginning of a dump. -/
theorem OpenBefore.viable_name {key after : List Char} (h : OpenBefore text s)
    (hkey : identifier? s = some (key, after)) : ViableBefore text (skipBlanks after) := by
  obtain ⟨hword, rfl⟩ := isIdentifier_of_identifier? hkey
  obtain ⟨gap, hgap, hafter⟩ := exists_blanks_skipBlanks after
  have hentry (tail : List Char) : EntryAt (key ++ gap ++ ([':', 'x'] ++ '}' :: tail))
      (.field (String.ofList key) (String.ofList ['x'])) ('}' :: tail) := by
    simpa using entryAt_completed hword hgap blanks_nil tail
  rw [hafter, ← List.append_assoc] at h
  exact h.viable_of_entryAt (hword.append_ne_nil gap) hentry

/-- The text behind the colon of an entry follows the beginning of a dump. -/
theorem OpenBefore.viable_colon {key after gap rest : List Char} (h : OpenBefore text s)
    (hkey : identifier? s = some (key, after)) (hgap : Blanks gap)
    (hcolon : skipBlanks after = ':' :: (gap ++ rest)) : ViableBefore text rest := by
  obtain ⟨hword, rfl⟩ := isIdentifier_of_identifier? hkey
  obtain ⟨gap', hgap', hafter⟩ := exists_blanks_skipBlanks after
  have hentry (tail : List Char) : EntryAt (key ++ (gap' ++ ':' :: gap) ++ (['x'] ++ '}' :: tail))
      (.field (String.ofList key) (String.ofList ['x'])) ('}' :: tail) := by
    simpa using entryAt_completed hword hgap' hgap tail
  have hsplit : key ++ after = key ++ (gap' ++ ':' :: gap) ++ rest := by
    rw [hafter, hcolon]
    simp
  rw [hsplit] at h
  exact h.viable_of_entryAt (hword.append_ne_nil _) hentry

end Viable

/-! ## Blame -/

section Blame

variable {text s : List Char} {blame : Blame}

/-- The place to blame, if there is one, follows the beginning of a dump. -/
def Justified (text : List Char) (blame : Blame) : Prop :=
  ∀ left ∈ blame, ∃ s, s.length = left ∧ ViableBefore text s

theorem getD_atRule_mem (blame : Blame) (s : List Char) :
    (blame.atRule s).getD 0 ∈ blame.atRule s := by
  cases blame <;> rfl

theorem justified_none : Justified text none := by
  simp [Justified]

theorem Justified.atRule (h : Justified text blame) (hs : ViableBefore text s) :
    Justified text (blame.atRule s) := by
  intro left hleft
  cases blame with
  | none =>
    obtain rfl : s.length = left := Option.some.inj hleft
    exact ⟨s, rfl, hs⟩
  | some furthest =>
    obtain rfl : min furthest s.length = left := Option.some.inj hleft
    rcases Nat.le_total furthest s.length with hle | hle
    · rw [Nat.min_eq_left hle]
      exact h furthest rfl
    · exact ⟨s, (Nat.min_eq_right hle).symm, hs⟩

theorem Justified.atMark (h : Justified text blame) (hs : ViableBefore text s) :
    Justified text (blame.atMark s) := by
  intro left hleft
  cases blame with
  | none =>
    obtain rfl : s.length = left := Option.some.inj hleft
    exact ⟨s, rfl, hs⟩
  | some furthest => exact h left hleft

theorem Justified.opened {colon : Bool} (h : Justified text blame) (hs : ViableBefore text s) :
    Justified text (if colon then blame else blame.atMark s) := by
  cases colon with
  | true => exact h
  | false => exact h.atMark hs

theorem Justified.readValue (h : Justified text blame) (hs : ViableBefore text s) :
    Justified text (readValue blame s).1 := by
  unfold Dump.readValue
  split
  · exact h
  · exact h.atRule hs

theorem OpenBefore.viable_value {key after value : List Char} (h : OpenBefore text s)
    (hkey : identifier? s = some (key, after))
    (hcolon : continuation (skipBlanks after) = .assigns value) : ViableBefore text value := by
  obtain ⟨gap, hgap, hhead⟩ := of_continuation_eq_assigns hcolon
  exact h.viable_colon hkey hgap hhead

/-- **The reader blames only what follows the beginning of a dump.**  It stops where entries can
stand. -/
theorem justified_readEntries (blame : Blame) (h : Justified text blame) (hs : OpenBefore text s) :
    Justified text (readEntries blame s).blame ∧ OpenBefore text (readEntries blame s).rest := by
  -- Induction along the reader: each place that it blames lies in front of a part of an entry.
  fun_induction readEntries blame s with
  | case1 => exact ⟨h, hs⟩
  | case2 => exact ⟨h.atRule hs.viable, hs⟩
  | case3 blame s _ name after hname =>
    exact ⟨(h.atMark (hs.viable_name hname)).atRule hs.viable, hs⟩
  | case4 blame s _ key after hkey _ value hcolon blame' hvalue =>
    have hplace := hs.viable_value hkey hcolon
    have hread := ((h.atMark hplace).atRule hs.viable).readValue hplace
    rw [hvalue] at hread
    exact ⟨(hread.atRule hplace).atRule hs.viable, hs⟩
  | case5 blame s _ key after hkey _ value hcolon blame' word rest hvalue _ ih =>
    have hplace := hs.viable_value hkey hcolon
    have hread := ((h.atMark hplace).atRule hs.viable).readValue hplace
    rw [hvalue] at hread
    exact ih hread (hs.pass (entryAt_field hkey hcolon hvalue))
  | case6 blame s _ kind after hkind _ colon inner hopen _ opened block rest hrest _ ihBlock _ ih =>
    have hopened : Justified text opened := h.opened (hs.viable_name hkind)
    obtain ⟨hblame, -⟩ := ihBlock hopened (hs.opening hkind hopen)
    have hentries := entriesAt_readEntries opened (skipBlanks inner)
    rw [hrest] at hentries
    exact ih hblame (hs.pass (.block (blockAt_braces hkind hopen hentries)))
  | case7 blame s _ kind after hkind _ colon inner hopen _ opened block hrest missed ihBlock =>
    have hopened : Justified text opened := h.opened (hs.viable_name hkind)
    obtain ⟨hblame, hleft⟩ := ihBlock hopened (hs.opening hkind hopen)
    have hmissed : Justified text missed := (hblame.atMark hleft.viable).atRule hs.viable
    refine ⟨?_, hs⟩
    cases colon with
    | false => exact hmissed
    | true =>
      -- the brace was also tried as the value of a field
      obtain ⟨gap, hgap, hhead⟩ := of_continuation_eq_opens hopen
      exact hmissed.atRule (hs.viable_colon hkind hgap hhead)

end Blame

/-! ## Whole texts -/

section Documents

variable {text : List Char}

theorem blockAt_empty {kind gap mark gap' : List Char} (hkind : IsIdentifier kind)
    (hgap : Blanks gap) (hmark : mark = [] ∨ mark = [':']) (hgap' : Blanks gap') :
    BlockAt (kind ++ (gap ++ (mark ++ (gap' ++ ['{', '}'])))) ⟨String.ofList kind, []⟩ [] :=
  .braces hkind hgap hmark hgap' blanks_nil .nil

/-- White space is the beginning of a dump. -/
theorem viableBefore_of_blanks {gap rest : List Char} (htext : text = gap ++ rest)
    (hgap : Blanks gap) : ViableBefore text rest := by
  have hkind : IsIdentifier ['x'] := ⟨by decide, by simp⟩
  exact ⟨gap, htext, _, _, gap, _, [], rfl, hgap,
    blockAt_empty hkind blanks_nil (.inl rfl) blanks_nil, blanks_nil⟩

/-- The kind of a block, with or without a colon, is the beginning of a dump. -/
theorem viableBefore_of_kind {kind after mark gap rest : List Char}
    (hkind : identifier? (skipBlanks text) = some (kind, after))
    (hmark : mark = [] ∨ mark = [':']) (hgap : Blanks gap)
    (hrest : skipBlanks after = mark ++ (gap ++ rest)) : ViableBefore text rest := by
  obtain ⟨gap₀, hgap₀, htext⟩ := exists_blanks_skipBlanks text
  obtain ⟨hword, hs⟩ := isIdentifier_of_identifier? hkind
  obtain ⟨gap', hgap', hafter⟩ := exists_blanks_skipBlanks after
  refine ⟨gap₀ ++ (kind ++ (gap' ++ (mark ++ gap))), ?_, ['{', '}'], _, gap₀, _, [], ?_, hgap₀,
    blockAt_empty hword hgap' hmark hgap, blanks_nil⟩
  · rw [htext, hs, hafter, hrest]
    simp
  · simp

/-- A whole block and white space behind it are the beginning of a dump, and a dump already. -/
theorem viableBefore_of_blockAt {block : Block} {after : List Char}
    (hblock : BlockAt (skipBlanks text) block after) : ViableBefore text (skipBlanks after) := by
  obtain ⟨gap, hgap, htext⟩ := exists_blanks_skipBlanks text
  obtain ⟨gap', hgap', hafter⟩ := exists_blanks_skipBlanks after
  obtain ⟨word, hs, hword⟩ := hblock.replace
  refine ⟨gap ++ (word ++ gap'), ?_, [], block, gap, word ++ gap', gap', ?_, hgap, hword gap',
    hgap'⟩
  · rw [List.append_assoc, List.append_assoc, ← hafter, ← hs, ← htext]
  · rw [List.append_nil]

/-- Behind the brace that opens the block of a text, entries can stand. -/
theorem openBefore_of_opens {kind after inner : List Char} {colon : Bool}
    (hkind : identifier? (skipBlanks text) = some (kind, after))
    (hopen : continuation (skipBlanks after) = .opens colon inner) :
    OpenBefore text (skipBlanks inner) := by
  obtain ⟨gap, hgap, htext⟩ := exists_blanks_skipBlanks text
  obtain ⟨opening, hs, hblock⟩ := exists_opening hkind hopen
  refine ⟨gap ++ opening, [], by rw [List.append_assoc, ← hs, ← htext], ?_⟩
  intro t entries _ hentries
  exact ⟨_, gap, opening ++ t, [], by rw [List.append_assoc], hgap, hblock t entries [] hentries,
    blanks_nil⟩

/-- **Reading a text fails at a place that follows the beginning of a dump.** -/
theorem viableBefore_of_readDocument {left : Nat} (h : readDocument text = .error left) :
    ∃ s, s.length = left ∧ ViableBefore text s := by
  obtain ⟨gap, hgap, htext⟩ := exists_blanks_skipBlanks text
  simp only [readDocument] at h
  split at h
  · obtain rfl := Except.error.inj h
    exact ⟨_, rfl, viableBefore_of_blanks htext hgap⟩
  · next kind after hkind =>
    have hname : ViableBefore text (skipBlanks after) :=
      viableBefore_of_kind hkind (.inl rfl) blanks_nil rfl
    split at h
    · -- neither a colon nor a brace behind the kind
      obtain rfl := Except.error.inj h
      exact ⟨_, rfl, hname⟩
    · -- no brace behind the colon
      next value hcolon =>
      obtain rfl := Except.error.inj h
      obtain ⟨gap', hgap', hhead⟩ := of_continuation_eq_assigns hcolon
      exact ⟨_, rfl, viableBefore_of_kind hkind (.inr rfl) hgap' hhead⟩
    · next colon inner hopen =>
      have hopened : Justified text
          (if colon then none else Blame.atMark none (skipBlanks after)) :=
        justified_none.opened hname
      obtain ⟨hblame, hleft⟩ := justified_readEntries _ hopened (openBefore_of_opens hkind hopen)
      split at h
      · next after' hrest =>
        split at h
        · cases h
        · -- text behind the block
          obtain rfl := Except.error.inj h
          have hentries := entriesAt_readEntries
            (if colon then none else Blame.atMark none (skipBlanks after)) (skipBlanks inner)
          rw [hrest] at hentries
          exact ⟨_, rfl, viableBefore_of_blockAt (blockAt_braces hkind hopen hentries)⟩
      · -- no brace that closes the block
        obtain rfl := Except.error.inj h
        exact (hblame.atMark hleft.viable).atRule (viableBefore_of_blanks htext hgap) _
          (getD_atRule_mem _ _)

end Documents

/-! ## Coordinates -/

section Coordinates

/-- The column counts the characters behind the last line feed. -/
theorem exists_columnAt_eq (before : List Char) :
    ∃ above line, before = above ++ line ∧ (above = [] ∨ above.getLast? = some '\n') ∧
      '\n' ∉ line ∧ columnAt before = line.length + 1 := by
  refine ⟨throughLast '\n' before, behindLast '\n' before,
    (throughLast_append_behindLast '\n' before).symm, throughLast_end '\n' before,
    notMem_behindLast '\n' before, ?_⟩
  rw [columnAt, behindLast, List.length_reverse]

theorem columnAt_append (before : List Char) {line : List Char} (hline : '\n' ∉ line) :
    columnAt (before ++ line) = columnAt before + line.length := by
  have hplain : ∀ c ∈ line.reverse, (c != '\n') = true := by
    intro c hc
    simpa using fun heq : c = '\n' => hline (heq ▸ List.mem_reverse.mp hc)
  rw [columnAt, columnAt, List.reverse_append, List.takeWhile_append_of_pos hplain]
  simp only [List.length_append, List.length_reverse]
  omega

/-- Text in front of which line and column are those behind it is empty. -/
theorem eq_nil_of_coordinates {before more : List Char}
    (hline : lineAt (before ++ more) = lineAt before)
    (hcolumn : columnAt (before ++ more) = columnAt before) : more = [] := by
  have hplain : '\n' ∉ more := by
    rw [lineAt, lineAt, List.count_append] at hline
    exact List.count_eq_zero.mp (by omega)
  rw [columnAt_append before hplain] at hcolumn
  exact List.length_eq_zero_iff.mp (by omega)

/-- **Line and column determine the place.** -/
theorem eq_of_coordinates {before before' text : List Char} (h : before <+: text)
    (h' : before' <+: text) (hline : lineAt before' = lineAt before)
    (hcolumn : columnAt before' = columnAt before) : before' = before := by
  rcases List.prefix_or_prefix_of_prefix h h' with ⟨more, rfl⟩ | ⟨more, rfl⟩
  · rw [eq_nil_of_coordinates hline hcolumn, List.append_nil]
  · rw [eq_nil_of_coordinates hline.symm hcolumn.symm, List.append_nil]

/-- The diagnostic of a text that is read up to `s`. -/
theorem malformed_append (front s : List Char) (source : Option String) :
    malformed (front ++ s) s.length source =
      { cause := .malformedDump (.near (String.ofList (s.take 20)))
        path := source
        line := lineAt front
        column := columnAt front } := by
  simp [malformed, excerptLength]

end Coordinates

/-- **A text is refused at a place before which nothing is wrong.**  The diagnostic gives twenty
characters from there on, the line and the column; these two determine the place, and with other
text from there on the whole would have been read. -/
theorem parse_error_is_justified {text : String} {source : Option String} {d : Diagnostic}
    (h : parse text source = .error d) :
    ∃ pos ≤ text.toList.length,
      d.cause = .malformedDump (.near (String.ofList ((text.toList.drop pos).take 20))) ∧
      d.path = source ∧
      d.line = 1 + (text.toList.take pos).count '\n' ∧
      (∃ above line, text.toList.take pos = above ++ line ∧
        (above = [] ∨ above.getLast? = some '\n') ∧ '\n' ∉ line ∧ d.column = line.length + 1) ∧
      (∀ pos' ≤ text.toList.length, lineAt (text.toList.take pos') = d.line →
        columnAt (text.toList.take pos') = d.column → pos' = pos) ∧
      ∃ more block, parse (String.ofList (text.toList.take pos ++ more)) source = .ok block := by
  unfold parse at h
  split at h
  · cases h
  · next left hread =>
    obtain rfl := Except.error.inj h
    obtain ⟨s, rfl, front, htext, more, block, hblock⟩ := viableBefore_of_readDocument hread
    obtain ⟨above, line, hsplit, habove, hplain, hcolumn⟩ := exists_columnAt_eq front
    rw [htext, malformed_append]
    have hfront : (front ++ s).take front.length = front := List.take_left
    refine ⟨front.length, by simp, by rw [List.drop_left], rfl, ?_,
      ⟨above, line, hfront.trans hsplit, habove, hplain, congrArg Int.ofNat hcolumn⟩, ?_,
      more, block, ?_⟩
    · rw [hfront]
      exact congrArg Int.ofNat (Nat.add_comm _ 1)
    · intro pos' hpos' hline' hcolumn'
      have hsame := eq_of_coordinates (List.prefix_append front s) (List.take_prefix pos' _)
        (Int.ofNat.inj hline') (Int.ofNat.inj hcolumn')
      rw [← congrArg List.length hsame, List.length_take, Nat.min_eq_left hpos']
    · rw [hfront, parse_eq_ok_iff, String.toList_ofList]
      exact hblock

/-- The word in the inner block is where a field or a block could have begun. -/
theorem parse_error_is_justified_word :
    let read := "graph: \x7b\n  title: a\n  node: \x7b "
    let fault : Diagnostic := ⟨.malformedDump (.near "key \x7d\n\x7d"), none, 3, 11⟩
    parse (read ++ "key \x7d\n\x7d") none = .error fault ∧
      ∃ more block, parse (String.ofList (read.toList ++ more)) none = .ok block := by
  intro read fault
  have hparse : parse (read ++ "key \x7d\n\x7d") none = .error fault := by decide +kernel
  obtain ⟨pos, -, -, -, -, -, hplace, more, block, hmore⟩ := parse_error_is_justified hparse
  obtain rfl : 30 = pos := hplace 30 (by decide +kernel) (by decide +kernel) (by decide +kernel)
  have hread : (read ++ "key \x7d\n\x7d").toList.take 30 = read.toList := by decide +kernel
  rw [hread] at hmore
  exact ⟨hparse, more, block, hmore⟩

end CallAtlas.Dump
