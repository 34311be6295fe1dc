import CallAtlas.Dump.Parse
import CallAtlas.Proofs.Dump.Grammar

/-!
# Reading follows the grammar

The reader of dumps decides by what stands at the head of the text, takes as much as it can, and
never goes back.  The grammar leaves all of that open.  Still both agree: what is read has a
derivation, and what has a derivation is read, as the tree that the derivation gives.

## Main results

* `entriesAt_readEntries`: the entries that are read stand in the text
* `readEntries_of_entriesAt`: entries that stand before a closing brace are read
* `readDocument_eq_ok_iff`: reading a whole text gives a block exactly when the text derives it
* `parse_eq_ok_iff_derives`: parsing accepts exactly the dumps, and each of them has one block
-/

namespace CallAtlas.Dump

open CallAtlas.Text

/-! ## The heads of texts -/

section Heads

theorem isIdentifierChar_of_isIdentifier {c : Char} {word : List Char}
    (h : IsIdentifier (c :: word)) : isIdentifierChar c = true :=
  isIdentifierChar_of_isIdentifierStart h.1

theorem isBlank_of_isIdentifierChar {c : Char} (h : isIdentifierChar c = true) :
    isBlank c = false := by
  rw [← Bool.not_eq_true]
  intro hblank
  simp [isIdentifierChar_of_isBlank hblank] at h

theorem isBlank_of_mem_head?_identifier {word rest : List Char} (h : IsIdentifier word) :
    ∀ c ∈ (word ++ rest).head?, isBlank c = false := by
  cases word with
  | nil => exact h.elim
  | cons c word => simpa using isBlank_of_isIdentifierChar (isIdentifierChar_of_isIdentifier h)

theorem BlockAt.isBlank_head? {s rest : List Char} {block : Block} (h : BlockAt s block rest) :
    ∀ c ∈ s.head?, isBlank c = false := by
  cases h with
  | braces hkind => exact isBlank_of_mem_head?_identifier hkind

theorem EntryAt.isBlank_head? {s rest : List Char} {entry : Entry} (h : EntryAt s entry rest) :
    ∀ c ∈ s.head?, isBlank c = false := by
  cases h with
  | field hkey => exact isBlank_of_mem_head?_identifier hkey
  | block hblock => exact hblock.isBlank_head?

/-- Entries before a closing brace leave no white space in front. -/
theorem EntriesAt.isBlank_head? {s left rest : List Char} {entries : List Entry}
    (h : EntriesAt s entries left) (hleft : left = '}' :: rest) :
    ∀ c ∈ s.head?, isBlank c = false := by
  cases h with
  | nil => simp [hleft]; decide
  | cons hentry => exact hentry.isBlank_head?

/-- A value begins with neither white space nor an opening brace. -/
theorem ValueAt.head? {s value rest : List Char} (h : ValueAt s value rest) :
    ∃ c t, s = c :: t ∧ isBlank c = false ∧ c ≠ '{' := by
  cases h with
  | quoted => exact ⟨_, _, rfl, by decide, by decide⟩
  | bare hword =>
    cases value with
    | nil => exact absurd rfl hword.1
    | cons c word =>
      have hc := hword.2 c (by simp)
      simp only [EndsBare, not_or, Bool.not_eq_true] at hc
      exact ⟨c, _, rfl, hc.1, hc.2.1⟩

end Heads

/-! ## What is read stands in the text -/

section Soundness

theorem of_continuation_eq_assigns {head value : List Char}
    (h : continuation head = .assigns value) :
    ∃ gap, Blanks gap ∧ head = ':' :: (gap ++ value) := by
  unfold continuation at h
  split at h
  · next rest =>
    split at h
    · simp at h
    · obtain rfl := Continuation.assigns.inj h
      obtain ⟨gap, hgap, hrest⟩ := exists_blanks_skipBlanks rest
      exact ⟨gap, hgap, congrArg _ hrest⟩
  · simp at h
  · simp at h

theorem of_continuation_eq_opens {head inner : List Char} {colon : Bool}
    (h : continuation head = .opens colon inner) :
    ∃ gap, Blanks gap ∧ head = (if colon then [':'] else []) ++ (gap ++ '{' :: inner) := by
  unfold continuation at h
  split at h
  · next rest =>
    split at h
    · next hskip =>
      obtain ⟨rfl, rfl⟩ := Continuation.opens.inj h
      obtain ⟨gap, hgap, hrest⟩ := exists_blanks_skipBlanks rest
      rw [hskip] at hrest
      exact ⟨gap, hgap, congrArg _ hrest⟩
    · simp at h
  · obtain ⟨rfl, rfl⟩ := Continuation.opens.inj h
    exact ⟨[], blanks_nil, rfl⟩
  · simp at h

/-- What is read up to the brace that opens a block. -/
theorem exists_words_of_opens {s kind after inner : List Char} {colon : Bool}
    (hkind : identifier? s = some (kind, after))
    (hopen : continuation (skipBlanks after) = .opens colon inner) :
    ∃ gap mark gap', IsIdentifier kind ∧ Blanks gap ∧ (mark = [] ∨ mark = [':']) ∧ Blanks gap' ∧
      s = kind ++ (gap ++ (mark ++ (gap' ++ '{' :: inner))) := by
  obtain ⟨hword, rfl⟩ := isIdentifier_of_identifier? hkind
  obtain ⟨gap, hgap, hafter⟩ := exists_blanks_skipBlanks after
  obtain ⟨gap', hgap', hhead⟩ := of_continuation_eq_opens hopen
  refine ⟨gap, if colon then [':'] else [], gap', hword, hgap, ?_, hgap', ?_⟩
  · cases colon with
    | true => exact .inr rfl
    | false => exact .inl rfl
  · rw [← hhead, ← hafter]

theorem valueAt_of_readValue {blame blame' : Blame} {s word rest : List Char}
    (h : readValue blame s = (blame', some (word, rest))) : ValueAt s word rest := by
  unfold readValue at h
  split at h
  · next found hquoted =>
    obtain rfl := Option.some.inj (Prod.mk.inj h).2
    unfold quoted? at hquoted
    split at hquoted
    · obtain ⟨hbody, rfl⟩ := quotedBody?_eq_some_iff.mp hquoted
      exact .quoted hbody
    · simp at hquoted
  · obtain ⟨hword, rfl, hrest⟩ := isBare_of_bare? (Prod.mk.inj h).2
    exact .bare hword hrest

/-- A field is an entry of the text once its key, its colon and its value are read. -/
theorem entryAt_field {s key after value word rest : List Char} {blame blame' : Blame}
    (hkey : identifier? s = some (key, after))
    (hcolon : continuation (skipBlanks after) = .assigns value)
    (hvalue : readValue blame value = (blame', some (word, rest))) :
    EntryAt s (.field (String.ofList key) (String.ofList word)) rest := by
  obtain ⟨hword, rfl⟩ := isIdentifier_of_identifier? hkey
  obtain ⟨gap, hgap, hafter⟩ := exists_blanks_skipBlanks after
  obtain ⟨gap', hgap', hhead⟩ := of_continuation_eq_assigns hcolon
  rw [hafter, hhead]
  exact .field hword hgap hgap' (valueAt_of_readValue hvalue)

/-- A block stands in the text once its kind and its brace are read, if its entries and the closing
brace stand behind. -/
theorem blockAt_braces {s kind after inner rest : List Char} {colon : Bool} {entries : List Entry}
    (hkind : identifier? s = some (kind, after))
    (hopen : continuation (skipBlanks after) = .opens colon inner)
    (hentries : EntriesAt (skipBlanks inner) entries ('}' :: rest)) :
    BlockAt s ⟨String.ofList kind, entries⟩ rest := by
  obtain ⟨gap, mark, gap', hword, hgap, hmark, hgap', rfl⟩ := exists_words_of_opens hkind hopen
  obtain ⟨gap'', hgap'', hinner⟩ := exists_blanks_skipBlanks inner
  rw [hinner]
  exact .braces hword hgap hmark hgap' hgap'' hentries

theorem EntriesAt.cons_skipBlanks {s after rest : List Char} {entry : Entry}
    {entries : List Entry} (hentry : EntryAt s entry after)
    (hrest : EntriesAt (skipBlanks after) entries rest) : EntriesAt s (entry :: entries) rest := by
  obtain ⟨gap, hgap, hafter⟩ := exists_blanks_skipBlanks after
  rw [hafter] at hentry
  exact .cons hentry hgap hrest

/-- **What is read stands in the text**: the entries that the reader gives, before the text that it
leaves. -/
theorem entriesAt_readEntries (blame : Blame) (s : List Char) :
    EntriesAt s (readEntries blame s).entries (readEntries blame s).rest := by
  -- Induction along the reader: it stops with no entry, or goes on behind a field or a block.
  fun_induction readEntries blame s with
  | case1 => exact .nil
  | case2 => exact .nil
  | case3 => exact .nil
  | case4 => exact .nil
  | case5 blame s _ key after hkey _ value hcolon blame' word rest hvalue _ ih =>
    exact .cons_skipBlanks (entryAt_field hkey hcolon hvalue) ih
  | case6 blame s _ kind after hkind _ colon inner hopen _ opened block rest hrest _ ihBlock _ ih =>
    -- the closing brace is where the entries of the block end
    rw [hrest] at ihBlock
    exact .cons_skipBlanks (.block (blockAt_braces hkind hopen ihBlock)) ih
  | case7 => exact .nil

end Soundness

/-! ## What stands in the text is read -/

section Completeness

theorem readValue_of_valueAt {s value rest : List Char} (h : ValueAt s value rest)
    (blame : Blame) : ∃ blame', readValue blame s = (blame', some (value, rest)) := by
  cases h with
  | quoted hbody => exact ⟨blame, by simp [readValue, quoted?, quotedBody?_append hbody]⟩
  | bare hword hrest =>
    refine ⟨blame.atRule (value ++ rest), ?_⟩
    -- a bare value does not begin with a quote, so the first choice fails
    have hquoted : quoted? (value ++ rest) = none := by
      cases value with
      | nil => exact absurd rfl hword.1
      | cons c word =>
        have hc : c ≠ '"' := fun hc => hword.2 c (by simp) (.inr (.inr (.inr hc)))
        simp [quoted?, hc]
    simp [readValue, hquoted, bare?_append hword hrest]

theorem continuation_colon {gap value : List Char} {c : Char} (hgap : Blanks gap)
    (hblank : isBlank c = false) (hbrace : c ≠ '{') :
    continuation (':' :: (gap ++ c :: value)) = .assigns (c :: value) := by
  have hskip : skipBlanks (gap ++ c :: value) = c :: value :=
    skipBlanks_append hgap (by simpa using hblank)
  simp only [continuation, hskip]
  split
  · next heq => exact absurd (List.cons.inj heq).1 hbrace
  · rfl

/-- With or without a colon, an opening brace behind an identifier and white space opens a block. -/
theorem identifier?_brace {kind gap mark gap' : List Char} (inner : List Char)
    (hkind : IsIdentifier kind) (hgap : Blanks gap) (hmark : mark = [] ∨ mark = [':'])
    (hgap' : Blanks gap') :
    ∃ after colon, identifier? (kind ++ (gap ++ (mark ++ (gap' ++ '{' :: inner)))) =
        some (kind, after) ∧ continuation (skipBlanks after) = .opens colon inner := by
  rcases hmark with rfl | rfl
  · -- without a colon the two gaps are one
    have hboth : Blanks (gap ++ gap') := blanks_append.mpr ⟨hgap, hgap'⟩
    have hskip : skipBlanks (gap ++ gap' ++ '{' :: inner) = '{' :: inner :=
      skipBlanks_append hboth (by simp; decide)
    refine ⟨gap ++ gap' ++ '{' :: inner, false, ?_, by rw [hskip]; rfl⟩
    rw [List.nil_append, ← List.append_assoc gap]
    exact identifier?_append hkind (isIdentifierChar_of_mem_head?_blanks hboth (by decide))
  · have hskip : skipBlanks (gap ++ ':' :: (gap' ++ '{' :: inner)) =
        ':' :: (gap' ++ '{' :: inner) := skipBlanks_append hgap (by simp; decide)
    have hskip' : skipBlanks (gap' ++ '{' :: inner) = '{' :: inner :=
      skipBlanks_append hgap' (by simp; decide)
    have hopen : continuation (':' :: (gap' ++ '{' :: inner)) = .opens true inner := by
      simp only [continuation, hskip']
    refine ⟨gap ++ ':' :: (gap' ++ '{' :: inner), true, ?_, by rw [hskip, hopen]⟩
    exact identifier?_append hkind (isIdentifierChar_of_mem_head?_blanks hgap (by decide))

/-- Reading `s` gives `entry` first, and then goes on at `t`. -/
def ReadsFirst (s : List Char) (entry : Entry) (t : List Char) : Prop :=
  ∀ blame, ∃ blame',
    (readEntries blame s).entries = entry :: (readEntries blame' t).entries ∧
      (readEntries blame s).rest = (readEntries blame' t).rest

theorem readsFirst_field {s key after value word rest : List Char}
    (hkey : identifier? s = some (key, after))
    (hcolon : continuation (skipBlanks after) = .assigns value)
    (hvalue : ValueAt value word rest) :
    ReadsFirst s (.field (String.ofList key) (String.ofList word)) (skipBlanks rest) := by
  intro blame
  obtain ⟨blame', hread⟩ := readValue_of_valueAt hvalue ((blame.atMark value).atRule s)
  refine ⟨blame', ?_⟩
  -- Only the case of a field fits the identifier, the colon and the value.
  fun_cases readEntries blame s with
  | case1 hempty => simp_all [identifier?]
  | case2 _ hnone => simp_all
  | case3 _ _ _ hkey' _ hstops => simp_all
  | case4 _ _ _ hkey' _ _ hcolon' _ hnone => simp_all
  | case5 _ _ _ hkey' _ _ hcolon' _ _ _ hread' =>
    obtain ⟨rfl, rfl⟩ := Prod.mk.inj (Option.some.inj (hkey.symm.trans hkey'))
    obtain rfl := Continuation.assigns.inj (hcolon.symm.trans hcolon')
    obtain ⟨rfl, hword⟩ := Prod.mk.inj (hread.symm.trans hread')
    obtain ⟨rfl, rfl⟩ := Prod.mk.inj (Option.some.inj hword)
    exact ⟨rfl, rfl⟩
  | case6 _ _ _ hkey' _ _ _ hopen' => simp_all
  | case7 _ _ _ hkey' _ _ _ hopen' => simp_all

theorem readsFirst_block {s kind after inner rest : List Char} {colon : Bool}
    {entries : List Entry} (hkind : identifier? s = some (kind, after))
    (hopen : continuation (skipBlanks after) = .opens colon inner)
    (hentries : ∀ blame, (readEntries blame (skipBlanks inner)).entries = entries ∧
      (readEntries blame (skipBlanks inner)).rest = '}' :: rest) :
    ReadsFirst s (.block (String.ofList kind) entries) (skipBlanks rest) := by
  intro blame
  -- Only the cases of a block fit, and of these the one where the brace is closed.
  fun_cases readEntries blame s with
  | case1 hempty => simp_all [identifier?]
  | case2 _ hnone => simp_all
  | case3 _ _ _ hkind' _ hstops => simp_all
  | case4 _ _ _ hkind' _ _ hcolon' => simp_all
  | case5 _ _ _ hkind' _ _ hcolon' => simp_all
  | case6 _ _ _ hkind' _ _ _ hopen' _ opened block _ hrest' =>
    obtain ⟨rfl, rfl⟩ := Prod.mk.inj (Option.some.inj (hkind.symm.trans hkind'))
    obtain ⟨rfl, rfl⟩ := Continuation.opens.inj (hopen.symm.trans hopen')
    obtain ⟨hread, hrest⟩ := hentries opened
    obtain rfl := (List.cons.inj (hrest.symm.trans hrest')).2
    exact ⟨block.blame, congrArg (List.cons · _) (congrArg _ hread), rfl⟩
  | case7 _ _ _ hkind' _ _ _ hopen' _ opened block hrest' =>
    obtain ⟨rfl, rfl⟩ := Prod.mk.inj (Option.some.inj (hkind.symm.trans hkind'))
    obtain ⟨rfl, rfl⟩ := Continuation.opens.inj (hopen.symm.trans hopen')
    exact (hrest' rest (hentries opened).2).elim

theorem readEntries_closing (blame : Blame) (rest : List Char) :
    (readEntries blame ('}' :: rest)).entries = [] ∧
      (readEntries blame ('}' :: rest)).rest = '}' :: rest := by
  have hnone : identifier? ('}' :: rest) = none := rfl
  fun_cases readEntries blame ('}' :: rest) with
  | case1 => exact ⟨rfl, rfl⟩
  | case2 => exact ⟨rfl, rfl⟩
  | case3 _ _ _ hname => simp [hnone] at hname
  | case4 _ _ _ hname => simp [hnone] at hname
  | case5 _ _ _ hname => simp [hnone] at hname
  | case6 _ _ _ hname => simp [hnone] at hname
  | case7 _ _ _ hname => simp [hnone] at hname

mutual

/-- An entry that stands at the head of a text is what is read first. -/
theorem EntryAt.readsFirst {s rest : List Char} {entry : Entry} :
    EntryAt s entry rest → ReadsFirst s entry (skipBlanks rest)
  | @EntryAt.field _ gap gap' _ _ _ hkey hgap hgap' hvalue => by
    -- the value does not begin with a brace, so the colon is taken for that of a field
    obtain ⟨c, t, rfl, hblank, hbrace⟩ := hvalue.head?
    have hskip : skipBlanks (gap ++ ':' :: (gap' ++ c :: t)) = ':' :: (gap' ++ c :: t) :=
      skipBlanks_append hgap (by simp; decide)
    refine readsFirst_field ?_ (hskip ▸ continuation_colon hgap' hblank hbrace) hvalue
    exact identifier?_append hkey (isIdentifierChar_of_mem_head?_blanks hgap (by decide))
  | .block hblock => hblock.readsFirst

/-- A block that stands at the head of a text is what is read first. -/
theorem BlockAt.readsFirst {s rest : List Char} {block : Block} :
    BlockAt s block rest → ReadsFirst s (.block block.kind block.entries) (skipBlanks rest)
  | .braces hkind hgap hmark hgap' hgap'' hentries => by
    obtain ⟨after, colon, hname, hopen⟩ := identifier?_brace _ hkind hgap hmark hgap'
    refine readsFirst_block hname hopen fun blame => ?_
    rw [skipBlanks_append hgap'' (hentries.isBlank_head? rfl)]
    exact readEntries_of_entriesAt hentries rfl blame

/-- **What stands before a closing brace is read**, up to that brace. -/
theorem readEntries_of_entriesAt {s left rest : List Char} {entries : List Entry} :
    EntriesAt s entries left → left = '}' :: rest → ∀ blame,
      (readEntries blame s).entries = entries ∧ (readEntries blame s).rest = '}' :: rest
  | .nil, hleft, blame => by
    subst hleft
    exact readEntries_closing blame rest
  | .cons hentry hgap hentries, hleft, blame => by
    -- the reader skips the gap behind the entry as a whole, for what follows begins with no blank
    obtain ⟨blame', hfirst, hrest⟩ := hentry.readsFirst blame
    rw [skipBlanks_append hgap (hentries.isBlank_head? hleft)] at hfirst hrest
    obtain ⟨htail, hend⟩ := readEntries_of_entriesAt hentries hleft blame'
    exact ⟨by rw [hfirst, htail], by rw [hrest, hend]⟩

end

end Completeness

/-! ## Whole texts -/

theorem derives_of_readDocument {text : List Char} {block : Block}
    (h : readDocument text = .ok block) : Derives text block := by
  obtain ⟨gap, hgap, htext⟩ := exists_blanks_skipBlanks text
  -- Of all ways through the reader one succeeds: a kind, a brace, entries, a brace, and blanks.
  simp only [readDocument] at h
  split at h
  · simp at h
  · next kind after hkind =>
    split at h
    · simp at h
    · simp at h
    · next colon inner hopen =>
      split at h
      · next rest hrest =>
        split at h
        · next hend =>
          obtain rfl := Except.ok.inj h
          have hentries := entriesAt_readEntries
            (if colon then none else Blame.atMark none (skipBlanks after)) (skipBlanks inner)
          rw [hrest] at hentries
          exact ⟨gap, skipBlanks text, rest, htext, hgap, blockAt_braces hkind hopen hentries,
            skipBlanks_eq_nil_iff.mp hend⟩
        · simp at h
      · simp at h

theorem readDocument_of_derives {text : List Char} {block : Block} (h : Derives text block) :
    readDocument text = .ok block := by
  obtain ⟨gap, s, gap', rfl, hgap, hblock, hend⟩ := h
  have hskip := skipBlanks_append hgap hblock.isBlank_head?
  cases hblock with
  | @braces _ _ _ _ gap₃ t _ _ hkind hgap₁ hmark hgap₂ hgap₃ hentries =>
    obtain ⟨after, colon, hname, hopen⟩ := identifier?_brace (gap₃ ++ t) hkind hgap₁ hmark hgap₂
    have hread := readEntries_of_entriesAt hentries rfl
      (if colon then none else Blame.atMark none (skipBlanks after))
    rw [← skipBlanks_append hgap₃ (hentries.isBlank_head? rfl)] at hread
    simp only [readDocument, hskip, hname, hopen, hread, skipBlanks_eq_nil_iff.mpr hend]

/-- Reading a whole text gives a block exactly when the text derives it. -/
theorem readDocument_eq_ok_iff {text : List Char} {block : Block} :
    readDocument text = .ok block ↔ Derives text block :=
  ⟨derives_of_readDocument, readDocument_of_derives⟩

theorem parse_eq_ok_iff {text : String} {source : Option String} {block : Block} :
    parse text source = .ok block ↔ Derives text.toList block := by
  rw [← readDocument_eq_ok_iff, parse]
  cases readDocument text.toList with
  | ok found => simp
  | error left => simp

end CallAtlas.Dump
