import CallAtlas.Proofs.Dump.Nesting
import CallAtlas.Proofs.Ingest.Collecting

/-!
# Line ends in dumps

A dump in a file is parsed after its line ends are unified, a dump given as a text is parsed as it
is.  Both are the same dump, for the grammar has line ends in two places only: in white space, where
one is as good as another, and in quoted values, which keep them.  So the block of the unified text
is the block of the text with the line ends of its values unified, and there is the one exactly if
there is the other.

Unifying is no map on characters, as the pair of carriage return and line feed becomes one.  Taking
a text apart therefore needs care where such a pair may be divided: at the end of white space, of
which nothing has to be left then, and behind a backslash, which escapes the first half of the pair
before and the whole of it after.

## Main definitions

* `withLineFeeds text`: a text with its line ends unified
* `Block.mapValues f block`: a block with `f` applied to the value of every field

## Main results

* `exists_append_of_unifyLineEnds`: the parts of a unified text are unified parts of the text
* `quotedBody_unifyLineEnds_iff`: unifying keeps what is the inside of a quoted value
* `Derives.unifyLineEnds`, `exists_derives_of_unifyLineEnds`: a text is a dump exactly if the
  unified text is
* `parse_withLineFeeds`: parsing commutes with unifying line ends
-/

namespace CallAtlas.Dump

open CallAtlas.Text

/-- A text with its line ends unified. -/
def withLineFeeds (text : String) : String :=
  String.ofList (unifyLineEnds text.toList)

/-! ## Values of blocks -/

mutual

/-- An entry with `f` applied to the value of every field in it. -/
def Entry.mapValues (f : String → String) : Entry → Entry
  | .field key value => .field key (f value)
  | .block kind entries => .block kind (Entry.mapValuesList f entries)

/-- Entries with `f` applied to the value of every field in them. -/
def Entry.mapValuesList (f : String → String) : List Entry → List Entry
  | [] => []
  | entry :: entries => Entry.mapValues f entry :: Entry.mapValuesList f entries

end

/-- A block with `f` applied to the value of every field in it. -/
def Block.mapValues (f : String → String) (block : Block) : Block :=
  ⟨block.kind, Entry.mapValuesList f block.entries⟩

mutual

theorem Entry.depth_mapValues (f : String → String) :
    (entry : Entry) → (entry.mapValues f).depth = entry.depth
  | .field .. => rfl
  | .block _ entries => congrArg (· + 1) (entriesDepth_mapValuesList f entries)

theorem entriesDepth_mapValuesList (f : String → String) :
    (entries : List Entry) → entriesDepth (Entry.mapValuesList f entries) = entriesDepth entries
  | [] => rfl
  | entry :: entries =>
    congrArg₂ max (Entry.depth_mapValues f entry) (entriesDepth_mapValuesList f entries)

end

/-- Values have no part in how deeply blocks nest. -/
theorem Block.depth_mapValues (f : String → String) (block : Block) :
    (block.mapValues f).depth = block.depth :=
  congrArg (· + 1) (entriesDepth_mapValuesList f block.entries)

/-! ## Unifying parts of a text -/

section Unifying

/-- The line end that a character stands for, if it is a carriage return by itself. -/
def unifyChar (c : Char) : Char :=
  if c = '\r' then '\n' else c

/-- A character is unified by itself, but for the first half of a pair, which is dropped. -/
theorem unifyLineEnds_cons (c : Char) (s : List Char) :
    unifyLineEnds (c :: s) =
      if c = '\r' ∧ s.head? = some '\n' then unifyLineEnds s
      else unifyChar c :: unifyLineEnds s := by
  split
  · next hpair =>
    obtain ⟨rfl, hs⟩ := hpair
    obtain ⟨rest, rfl⟩ := List.head?_eq_some_iff.mp hs
    simp [unifyLineEnds]
  · next hpair =>
    rw [unifyLineEnds, unifyChar]
    rintro rest rfl rfl
    exact hpair ⟨rfl, rfl⟩

theorem unifyLineEnds_cons_of_ne {c : Char} (hc : c ≠ '\r') (s : List Char) :
    unifyLineEnds (c :: s) = c :: unifyLineEnds s := by
  rw [unifyLineEnds_cons, if_neg fun h => hc h.1, unifyChar, if_neg hc]

/-- A word without carriage returns stays as it is. -/
theorem unifyLineEnds_append {word : List Char} (hword : '\r' ∉ word) (rest : List Char) :
    unifyLineEnds (word ++ rest) = word ++ unifyLineEnds rest := by
  induction word with
  | nil => rfl
  | cons c word ih =>
    obtain ⟨hc, hword⟩ := not_or.mp (mt List.mem_cons.mpr hword)
    rw [List.cons_append, unifyLineEnds_cons_of_ne (Ne.symm hc), ih hword, List.cons_append]

/-- No pair is divided in front of a character that is no line feed. -/
theorem unifyLineEnds_append_cons (s : List Char) {c : Char} (hfeed : c ≠ '\n')
    (hreturn : c ≠ '\r') (rest : List Char) :
    unifyLineEnds (s ++ c :: rest) = unifyLineEnds s ++ c :: unifyLineEnds rest := by
  induction s with
  | nil => exact unifyLineEnds_cons_of_ne hreturn rest
  | cons d s ih =>
    have hhead : (s ++ c :: rest).head? = some '\n' ↔ s.head? = some '\n' := by
      cases s <;> simp [hfeed]
    simp only [List.cons_append, unifyLineEnds_cons d, hhead, ih]
    split <;> simp

/-- White space stays white space.  Of a carriage return in front of a line feed nothing is
left. -/
theorem exists_blanks_unifyLineEnds {gap : List Char} (hgap : Blanks gap) (rest : List Char) :
    ∃ gap', Blanks gap' ∧ unifyLineEnds (gap ++ rest) = gap' ++ unifyLineEnds rest := by
  induction gap with
  | nil => exact ⟨[], blanks_nil, rfl⟩
  | cons c gap ih =>
    obtain ⟨hc, hgap⟩ := List.forall_mem_cons.mp hgap
    obtain ⟨gap', hgap', hrest⟩ := ih hgap
    rw [List.cons_append, unifyLineEnds_cons, hrest]
    split
    · exact ⟨gap', hgap', rfl⟩
    · refine ⟨unifyChar c :: gap', List.forall_mem_cons.mpr ⟨?_, hgap'⟩, rfl⟩
      unfold unifyChar
      split
      · decide
      · exact hc

/-- **The parts of a unified text are unified parts of the text.** -/
theorem exists_append_of_unifyLineEnds {s a b : List Char} (h : unifyLineEnds s = a ++ b) :
    ∃ a' b', s = a' ++ b' ∧ unifyLineEnds a' = a ∧ unifyLineEnds b' = b := by
  induction s generalizing a with
  | nil =>
    obtain ⟨rfl, rfl⟩ := List.append_eq_nil_iff.mp h.symm
    exact ⟨[], [], rfl, rfl, rfl⟩
  | cons c s ih =>
    cases a with
    | nil => exact ⟨[], c :: s, rfl, rfl, h⟩
    | cons d a =>
      rw [unifyLineEnds_cons] at h
      split at h
      · next hpair =>
        -- both halves of a pair go to the first part
        obtain ⟨rfl, hs⟩ := hpair
        obtain ⟨a', b', rfl, ha, hb⟩ := ih h
        refine ⟨'\r' :: a', b', rfl, ?_, hb⟩
        cases a' with
        | nil => cases ha
        | cons e a' => rwa [unifyLineEnds_cons, if_pos ⟨rfl, hs⟩]
      · next hpair =>
        obtain ⟨rfl, htail⟩ := List.cons.inj h
        obtain ⟨a', b', rfl, rfl, hb⟩ := ih htail
        refine ⟨c :: a', b', rfl, ?_, hb⟩
        rw [unifyLineEnds_cons, if_neg]
        rintro ⟨hc, ha⟩
        exact hpair ⟨hc, by rw [List.head?_append, ha, Option.some_or]⟩

/-- A text that is unified to a text without line feeds is that text. -/
theorem eq_of_unifyLineEnds {s : List Char} (h : '\n' ∉ unifyLineEnds s) :
    unifyLineEnds s = s := by
  induction s with
  | nil => rfl
  | cons c s ih =>
    rw [unifyLineEnds_cons] at h ⊢
    split at h
    · next hpair =>
      -- the second half of a pair would be left
      obtain ⟨-, hs⟩ := hpair
      obtain ⟨rest, rfl⟩ := List.head?_eq_some_iff.mp hs
      rw [ih h] at h
      exact absurd List.mem_cons_self h
    · next hpair =>
      obtain ⟨hc, hs⟩ := not_or.mp (mt List.mem_cons.mpr h)
      have hchar : unifyChar c = c := if_neg fun hreturn => hc (by rw [unifyChar, if_pos hreturn])
      rw [if_neg hpair, hchar, ih hs]

/-- A word without line feeds stands in the text as it does in the unified text. -/
theorem exists_word_of_unifyLineEnds {s word rest : List Char} (hword : '\n' ∉ word)
    (h : unifyLineEnds s = word ++ rest) :
    ∃ rest', s = word ++ rest' ∧ unifyLineEnds rest' = rest := by
  obtain ⟨word', rest', rfl, rfl, hrest⟩ := exists_append_of_unifyLineEnds h
  exact ⟨rest', by rw [eq_of_unifyLineEnds hword], hrest⟩

theorem exists_cons_of_unifyLineEnds {s rest : List Char} {c : Char} (hc : c ≠ '\n')
    (h : unifyLineEnds s = c :: rest) :
    ∃ rest', s = c :: rest' ∧ unifyLineEnds rest' = rest := by
  have hword : '\n' ∉ [c] := by simpa using hc.symm
  exact exists_word_of_unifyLineEnds hword h

theorem blanks_of_unifyLineEnds {s : List Char} (h : Blanks (unifyLineEnds s)) : Blanks s := by
  induction s with
  | nil => exact blanks_nil
  | cons c s ih =>
    rw [unifyLineEnds_cons] at h
    split at h
    · next hpair => exact List.forall_mem_cons.mpr ⟨by rw [hpair.1]; decide, ih h⟩
    · obtain ⟨hc, hs⟩ := List.forall_mem_cons.mp h
      refine List.forall_mem_cons.mpr ⟨?_, ih hs⟩
      unfold unifyChar at hc
      split at hc
      · next hreturn => rw [hreturn]; decide
      · exact hc

/-- White space of a unified text is white space of the text. -/
theorem exists_blanks_of_unifyLineEnds {s gap rest : List Char} (hgap : Blanks gap)
    (h : unifyLineEnds s = gap ++ rest) :
    ∃ gap' rest', s = gap' ++ rest' ∧ Blanks gap' ∧ unifyLineEnds rest' = rest := by
  obtain ⟨gap', rest', rfl, rfl, hrest⟩ := exists_append_of_unifyLineEnds h
  exact ⟨gap', rest', rfl, blanks_of_unifyLineEnds hgap, hrest⟩

/-- What is unified to one character is one character, or a pair. -/
theorem eq_of_unifyLineEnds_singleton {s : List Char} {c : Char} (h : unifyLineEnds s = [c]) :
    (∃ d, s = [d] ∧ unifyChar d = c) ∨ s = ['\r', '\n'] := by
  have hnil {t : List Char} (ht : unifyLineEnds t = []) : t = [] := by
    rw [← eq_of_unifyLineEnds (s := t) (by simp [ht]), ht]
  cases s with
  | nil => cases h
  | cons d s =>
    rw [unifyLineEnds_cons] at h
    split at h
    · next hpair =>
      obtain ⟨rfl, hs⟩ := hpair
      obtain ⟨rest, rfl⟩ := List.head?_eq_some_iff.mp hs
      rw [unifyLineEnds_cons_of_ne (by decide)] at h
      exact .inr (by rw [hnil (List.cons.inj h).2])
    · obtain ⟨hd, hs⟩ := List.cons.inj h
      exact .inl ⟨d, by rw [hnil hs], hd⟩

end Unifying

/-! ## Words -/

section Words

theorem QuotedBody.unifyLineEnds {body : List Char} (h : QuotedBody body) :
    QuotedBody (unifyLineEnds body) := by
  have hfeed {rest : List Char} (hrest : QuotedBody rest) : QuotedBody ('\n' :: rest) :=
    .plain (by decide) (by decide) hrest
  induction h with
  | nil => exact .nil
  | @escape c body hbody ih =>
    rw [unifyLineEnds_cons_of_ne (by decide), unifyLineEnds_cons]
    split
    · next hpair =>
      -- the escape of the first half becomes one of the whole pair
      obtain ⟨rest, rfl⟩ := List.head?_eq_some_iff.mp hpair.2
      rw [unifyLineEnds_cons_of_ne (by decide)] at ih ⊢
      cases ih with
      | plain _ _ hrest => exact .escape _ hrest
    · exact .escape _ ih
  | @plain c body hquote hslash hbody ih =>
    rw [unifyLineEnds_cons]
    split
    · exact ih
    · unfold unifyChar
      split
      · exact hfeed ih
      · exact .plain hquote hslash ih

theorem quotedBody_of_unifyLineEnds {body : List Char} (h : QuotedBody (unifyLineEnds body)) :
    QuotedBody body := by
  have hreturn {rest : List Char} (hrest : QuotedBody rest) : QuotedBody ('\r' :: rest) :=
    .plain (by decide) (by decide) hrest
  have hfeed {rest : List Char} (hrest : QuotedBody rest) : QuotedBody ('\n' :: rest) :=
    .plain (by decide) (by decide) hrest
  generalize hbody : unifyLineEnds body = unified at h
  induction h generalizing body with
  | nil =>
    rw [← eq_of_unifyLineEnds (s := body) (by simp [hbody]), hbody]
    exact .nil
  | @escape c unified _ ih =>
    obtain ⟨tail, rfl, htail⟩ := exists_cons_of_unifyLineEnds (by decide) hbody
    rw [← List.singleton_append] at htail
    obtain ⟨escaped, rest, rfl, hescaped, hrest⟩ := exists_append_of_unifyLineEnds htail
    rcases eq_of_unifyLineEnds_singleton hescaped with ⟨d, rfl, -⟩ | rfl
    · exact .escape d (ih hrest)
    · exact .escape '\r' (hfeed (ih hrest))
  | @plain c unified hquote hslash _ ih =>
    rw [← List.singleton_append] at hbody
    obtain ⟨first, rest, rfl, hfirst, hrest⟩ := exists_append_of_unifyLineEnds hbody
    rcases eq_of_unifyLineEnds_singleton hfirst with ⟨d, rfl, hd⟩ | rfl
    · unfold unifyChar at hd
      split at hd
      · next heq =>
        rw [heq]
        exact hreturn (ih hrest)
      · rw [hd]
        exact .plain hquote hslash (ih hrest)
    · exact hreturn (hfeed (ih hrest))

/-- **Unifying keeps what is the inside of a quoted value.** -/
theorem quotedBody_unifyLineEnds_iff {body : List Char} :
    QuotedBody (unifyLineEnds body) ↔ QuotedBody body :=
  ⟨quotedBody_of_unifyLineEnds, .unifyLineEnds⟩

theorem notMem_of_isIdentifier {word : List Char} (h : IsIdentifier word) {c : Char}
    (hc : isIdentifierChar c = false) : c ∉ word := by
  intro hmem
  have hchar : isIdentifierChar c = true := by
    cases word with
    | nil => exact h.elim
    | cons d word =>
      rcases List.mem_cons.mp hmem with rfl | hmem
      · exact isIdentifierChar_of_isIdentifier h
      · exact h.2 c hmem
  rw [hc] at hchar
  cases hchar

theorem notMem_of_isBare {word : List Char} (h : IsBare word) {c : Char} (hc : isBlank c = true) :
    c ∉ word :=
  fun hmem => h.2 c hmem (.inl hc)

/-- What ends a bare value ends it in the unified text, and nothing else does. -/
theorem endsBare_head?_unifyLineEnds_iff (s : List Char) :
    (∀ c ∈ (unifyLineEnds s).head?, EndsBare c) ↔ ∀ c ∈ s.head?, EndsBare c := by
  have hreturn : EndsBare '\r' := .inl (by decide)
  have hfeed : EndsBare '\n' := .inl (by decide)
  cases s with
  | nil => rfl
  | cons c s =>
    rw [unifyLineEnds_cons]
    split
    · next hpair =>
      obtain ⟨rfl, hs⟩ := hpair
      obtain ⟨rest, rfl⟩ := List.head?_eq_some_iff.mp hs
      rw [unifyLineEnds_cons_of_ne (by decide)]
      simp [hreturn, hfeed]
    · unfold unifyChar
      split
      · next heq => simp [heq, hreturn, hfeed]
      · simp

end Words

/-! ## Derivations -/

section Derivations

theorem ValueAt.unifyLineEnds {s value rest : List Char} (h : ValueAt s value rest) :
    ValueAt (unifyLineEnds s) (unifyLineEnds value) (unifyLineEnds rest) := by
  cases h with
  | quoted hbody =>
    rw [unifyLineEnds_cons_of_ne (by decide),
      unifyLineEnds_append_cons _ (by decide) (by decide)]
    exact .quoted hbody.unifyLineEnds
  | bare hword hrest =>
    have hreturn : '\r' ∉ value := notMem_of_isBare hword (by decide)
    have hsame := unifyLineEnds_append hreturn []
    rw [List.append_nil] at hsame
    rw [unifyLineEnds_append hreturn, hsame, Text.unifyLineEnds, List.append_nil]
    exact .bare hword ((endsBare_head?_unifyLineEnds_iff rest).mpr hrest)

mutual

/-- An entry stands in the unified text with its values unified. -/
theorem EntryAt.unifyLineEnds {s rest : List Char} {entry : Entry} :
    EntryAt s entry rest →
      EntryAt (unifyLineEnds s) (entry.mapValues withLineFeeds) (unifyLineEnds rest)
  | @EntryAt.field key gap gap' s value rest hkey hgap hgap' hvalue => by
    obtain ⟨gap₁, hgap₁, hfirst⟩ := exists_blanks_unifyLineEnds hgap (':' :: (gap' ++ s))
    obtain ⟨gap₂, hgap₂, hsecond⟩ := exists_blanks_unifyLineEnds hgap' s
    rw [unifyLineEnds_append (notMem_of_isIdentifier hkey (by decide)), hfirst,
      unifyLineEnds_cons_of_ne (by decide), hsecond, Entry.mapValues, withLineFeeds,
      String.toList_ofList]
    exact .field hkey hgap₁ hgap₂ hvalue.unifyLineEnds
  | .block hblock => .block hblock.unifyLineEnds

/-- A block stands in the unified text with its values unified. -/
theorem BlockAt.unifyLineEnds {s rest : List Char} {block : Block} :
    BlockAt s block rest →
      BlockAt (unifyLineEnds s) (block.mapValues withLineFeeds) (unifyLineEnds rest)
  | @BlockAt.braces kind gap mark gap' gap'' s rest entries hkind hgap hmark hgap' hgap''
      hentries => by
    have hcolon : '\r' ∉ mark := by rcases hmark with rfl | rfl <;> decide
    obtain ⟨gap₁, hgap₁, hfirst⟩ :=
      exists_blanks_unifyLineEnds hgap (mark ++ (gap' ++ '{' :: (gap'' ++ s)))
    obtain ⟨gap₂, hgap₂, hsecond⟩ :=
      exists_blanks_unifyLineEnds hgap' ('{' :: (gap'' ++ s))
    obtain ⟨gap₃, hgap₃, hthird⟩ := exists_blanks_unifyLineEnds hgap'' s
    have hinner := hentries.unifyLineEnds
    rw [unifyLineEnds_cons_of_ne (by decide)] at hinner
    rw [unifyLineEnds_append (notMem_of_isIdentifier hkind (by decide)), hfirst,
      unifyLineEnds_append hcolon, hsecond, unifyLineEnds_cons_of_ne (by decide), hthird]
    exact .braces hkind hgap₁ hmark hgap₂ hgap₃ hinner

/-- Entries stand in the unified text with their values unified. -/
theorem EntriesAt.unifyLineEnds {s rest : List Char} {entries : List Entry} :
    EntriesAt s entries rest →
      EntriesAt (unifyLineEnds s) (Entry.mapValuesList withLineFeeds entries) (unifyLineEnds rest)
  | .nil => .nil
  | @EntriesAt.cons s gap t rest entry entries hentry hgap hentries => by
    obtain ⟨gap', hgap', hbehind⟩ := exists_blanks_unifyLineEnds hgap t
    have hfirst := hentry.unifyLineEnds
    rw [hbehind] at hfirst
    exact .cons hfirst hgap' hentries.unifyLineEnds

end

/-- **A dump with unified line ends is a dump**, of the same block with its values unified. -/
theorem Derives.unifyLineEnds {text : List Char} {block : Block} (h : Derives text block) :
    Derives (unifyLineEnds text) (block.mapValues withLineFeeds) := by
  obtain ⟨gap, s, gap', rfl, hgap, hblock, hend⟩ := h
  obtain ⟨gap₁, hgap₁, hfirst⟩ := exists_blanks_unifyLineEnds hgap s
  obtain ⟨gap₂, hgap₂, hlast⟩ := exists_blanks_unifyLineEnds hend []
  rw [List.append_nil, Text.unifyLineEnds, List.append_nil] at hlast
  exact ⟨gap₁, _, _, hfirst, hgap₁, hblock.unifyLineEnds, hlast ▸ hgap₂⟩

/-! ### Back to the text -/

theorem exists_valueAt_of_unifyLineEnds {s value rest unified : List Char}
    (h : ValueAt unified value rest) (hs : Text.unifyLineEnds s = unified) :
    ∃ value' rest', ValueAt s value' rest' ∧ Text.unifyLineEnds rest' = rest := by
  cases h with
  | @quoted body rest hbody =>
    obtain ⟨tail, rfl, htail⟩ := exists_cons_of_unifyLineEnds (by decide) hs
    obtain ⟨body', tail', rfl, rfl, htail'⟩ := exists_append_of_unifyLineEnds htail
    obtain ⟨rest', rfl, hrest'⟩ := exists_cons_of_unifyLineEnds (by decide) htail'
    exact ⟨body', rest', .quoted (quotedBody_unifyLineEnds_iff.mp hbody), hrest'⟩
  | bare hword hrest =>
    obtain ⟨rest', rfl, rfl⟩ :=
      exists_word_of_unifyLineEnds (notMem_of_isBare hword (by decide)) hs
    exact ⟨value, rest', .bare hword ((endsBare_head?_unifyLineEnds_iff rest').mp hrest), rfl⟩

mutual

/-- Where an entry stands in the unified text, one stands in the text. -/
theorem exists_entryAt_of_unifyLineEnds {unified rest : List Char} {entry : Entry} :
    EntryAt unified entry rest → ∀ s, Text.unifyLineEnds s = unified →
      ∃ entry' rest', EntryAt s entry' rest' ∧ Text.unifyLineEnds rest' = rest
  | @EntryAt.field key gap gap' t value rest hkey hgap hgap' hvalue, s, hs => by
    obtain ⟨s₁, rfl, h₁⟩ :=
      exists_word_of_unifyLineEnds (notMem_of_isIdentifier hkey (by decide)) hs
    obtain ⟨gap₁, s₂, rfl, hgap₁, h₂⟩ := exists_blanks_of_unifyLineEnds hgap h₁
    obtain ⟨s₃, rfl, h₃⟩ := exists_cons_of_unifyLineEnds (by decide) h₂
    obtain ⟨gap₂, s₄, rfl, hgap₂, h₄⟩ := exists_blanks_of_unifyLineEnds hgap' h₃
    obtain ⟨value', rest', hvalue', hrest'⟩ := exists_valueAt_of_unifyLineEnds hvalue h₄
    exact ⟨_, rest', .field hkey hgap₁ hgap₂ hvalue', hrest'⟩
  | .block hblock, s, hs => by
    obtain ⟨⟨kind, entries⟩, rest', hblock', hrest'⟩ :=
      exists_blockAt_of_unifyLineEnds hblock s hs
    exact ⟨_, rest', .block hblock', hrest'⟩

/-- Where a block stands in the unified text, one stands in the text. -/
theorem exists_blockAt_of_unifyLineEnds {unified rest : List Char} {block : Block} :
    BlockAt unified block rest → ∀ s, Text.unifyLineEnds s = unified →
      ∃ block' rest', BlockAt s block' rest' ∧ Text.unifyLineEnds rest' = rest
  | @BlockAt.braces kind gap mark gap' gap'' t rest entries hkind hgap hmark hgap' hgap''
      hentries, s, hs => by
    have hcolon : '\n' ∉ mark := by rcases hmark with rfl | rfl <;> decide
    obtain ⟨s₁, rfl, h₁⟩ :=
      exists_word_of_unifyLineEnds (notMem_of_isIdentifier hkind (by decide)) hs
    obtain ⟨gap₁, s₂, rfl, hgap₁, h₂⟩ := exists_blanks_of_unifyLineEnds hgap h₁
    obtain ⟨s₃, rfl, h₃⟩ := exists_word_of_unifyLineEnds hcolon h₂
    obtain ⟨gap₂, s₄, rfl, hgap₂, h₄⟩ := exists_blanks_of_unifyLineEnds hgap' h₃
    obtain ⟨s₅, rfl, h₅⟩ := exists_cons_of_unifyLineEnds (by decide) h₄
    obtain ⟨gap₃, s₆, rfl, hgap₃, h₆⟩ := exists_blanks_of_unifyLineEnds hgap'' h₅
    obtain ⟨entries', behind, hentries', hbehind⟩ :=
      exists_entriesAt_of_unifyLineEnds hentries s₆ h₆
    obtain ⟨rest', rfl, hrest'⟩ := exists_cons_of_unifyLineEnds (by decide) hbehind
    exact ⟨_, rest', .braces hkind hgap₁ hmark hgap₂ hgap₃ hentries', hrest'⟩

/-- Where entries stand in the unified text, entries stand in the text. -/
theorem exists_entriesAt_of_unifyLineEnds {unified rest : List Char} {entries : List Entry} :
    EntriesAt unified entries rest → ∀ s, Text.unifyLineEnds s = unified →
      ∃ entries' rest', EntriesAt s entries' rest' ∧ Text.unifyLineEnds rest' = rest
  | .nil, s, hs => ⟨[], s, .nil, hs⟩
  | @EntriesAt.cons _ gap t rest entry entries hentry hgap hentries, s, hs => by
    obtain ⟨entry', behind, hentry', hbehind⟩ := exists_entryAt_of_unifyLineEnds hentry s hs
    obtain ⟨gap', t', rfl, hgap', ht'⟩ := exists_blanks_of_unifyLineEnds hgap hbehind
    obtain ⟨entries', rest', hentries', hrest'⟩ :=
      exists_entriesAt_of_unifyLineEnds hentries t' ht'
    exact ⟨entry' :: entries', rest', .cons hentry' hgap' hentries', hrest'⟩

end

/-- **A text that is a dump once its line ends are unified is a dump itself.** -/
theorem exists_derives_of_unifyLineEnds {text : List Char} {block : Block}
    (h : Derives (Text.unifyLineEnds text) block) : ∃ block', Derives text block' := by
  obtain ⟨gap, s, gap', htext, hgap, hblock, hend⟩ := h
  obtain ⟨gap₁, s', rfl, hgap₁, hs'⟩ := exists_blanks_of_unifyLineEnds hgap htext
  obtain ⟨block', rest, hblock', rfl⟩ := exists_blockAt_of_unifyLineEnds hblock s' hs'
  exact ⟨block', gap₁, s', rest, rfl, hgap₁, hblock', blanks_of_unifyLineEnds hend⟩

end Derivations

/-! ## Texts and files -/

/-- The file at a path holds a text, in an encoding that is given by its name. -/
def HoldsText (files : Workspace) (path : Path) (encoding text : String) : Prop :=
  files.checkEncoding encoding = .ok () ∧
    ∃ bytes codec, files.contents path = .ok bytes ∧ files.codec? encoding = some codec ∧
      codec bytes = .ok text.toList

section Parsing

variable {text : String} {source : Option String}

theorem toList_withLineFeeds (text : String) :
    (withLineFeeds text).toList = unifyLineEnds text.toList :=
  String.toList_ofList

theorem readText_of_holdsText {files : Workspace} {path : Path} {encoding : String}
    (h : HoldsText files path encoding text) :
    files.readText path encoding = .ok (withLineFeeds text) := by
  obtain ⟨hname, bytes, codec, hbytes, hcodec, htext⟩ := h
  simp [Workspace.readText, Workspace.decode, withLineFeeds, hname, hbytes, hcodec, htext,
    Bind.bind, Except.bind]

theorem parse_withLineFeeds_of_parse {block : Block} (h : parse text source = .ok block)
    (source' : Option String) :
    parse (withLineFeeds text) source' = .ok (block.mapValues withLineFeeds) := by
  rw [parse_eq_ok_iff, toList_withLineFeeds]
  exact (parse_eq_ok_iff.mp h).unifyLineEnds

theorem exists_parse_of_parse_withLineFeeds {block : Block}
    (h : parse (withLineFeeds text) source = .ok block) (source' : Option String) :
    ∃ block', parse text source' = .ok block' := by
  rw [parse_eq_ok_iff, toList_withLineFeeds] at h
  obtain ⟨block', hblock'⟩ := exists_derives_of_unifyLineEnds h
  exact ⟨block', parse_eq_ok_iff.mpr hblock'⟩

/-- Whatever is parsed from the unified text is the block of the text with its values unified. -/
theorem parse_withLineFeeds_eq_ok_iff {block : Block} (source source' : Option String) :
    parse (withLineFeeds text) source' = .ok block ↔
      ∃ block', parse text source = .ok block' ∧ block = block'.mapValues withLineFeeds := by
  constructor
  · intro h
    obtain ⟨block', hblock'⟩ := exists_parse_of_parse_withLineFeeds h source
    have hunified := parse_withLineFeeds_of_parse hblock' source'
    exact ⟨block', hblock', Except.ok.inj (h.symm.trans hunified)⟩
  · rintro ⟨block', hblock', rfl⟩
    exact parse_withLineFeeds_of_parse hblock' source'

/-- A unified text nests no deeper and no less than the text, if that is a dump. -/
theorem blockOf_withLineFeeds_eq_ok_iff {block : Block} (source source' : Option String) :
    Ingest.blockOf (withLineFeeds text) source' = .ok block ↔
      ∃ block', Ingest.blockOf text source = .ok block' ∧
        block = block'.mapValues withLineFeeds := by
  have hdescend {block' : Block} (hblock' : parse text source = .ok block') :
      Ingest.canDescend (withLineFeeds text) = Ingest.canDescend text := by
    have hdepth := (parse_eq_ok_iff.mp hblock').nestingDepth_eq
    have hunified := parse_eq_ok_iff.mp (parse_withLineFeeds_of_parse hblock' source)
    rw [Ingest.canDescend, Ingest.canDescend, hdepth, hunified.nestingDepth_eq,
      Block.depth_mapValues]
  simp only [Ingest.blockOf_eq_ok_iff, parse_withLineFeeds_eq_ok_iff source source']
  constructor
  · rintro ⟨hdeep, block', hblock', rfl⟩
    exact ⟨block', ⟨hdescend hblock' ▸ hdeep, hblock'⟩, rfl⟩
  · rintro ⟨block', ⟨hdeep, hblock'⟩, rfl⟩
    exact ⟨(hdescend hblock').trans hdeep, block', hblock', rfl⟩

/-- A file is read as the text that it holds with its line ends unified. -/
theorem readDump_eq_ok_iff {files : Workspace} {path encoding : String}
    (htext : HoldsText files (Path.ofString path) encoding text) {s : Session} {block : Block} :
    ((Ingest.readDump files encoding path).outcome s).1 = .ok block ↔
      Ingest.blockOf (withLineFeeds text) (some (Path.ofString path).toString) = .ok block := by
  -- reading a dump looks up no name, so any demangler serves
  have hreads := Ingest.readsAs_resolve (fun _ => none) s.memo
  rw [(Ingest.answers_readDump files encoding path s hreads).1, Ingest.dumpOf,
    readText_of_holdsText htext]

end Parsing

/-- **Parsing commutes with unifying line ends.**  A text is a dump exactly if it is one with its
line ends unified, and the block is then the same but for the line ends in the values of its fields.
Both nest alike, so that a recursion limit can be set for both or for neither.  So a file is read as
the text that it holds is, up to the line ends in values. -/
theorem parse_withLineFeeds (text : String) (source source' : Option String) :
    ((∃ block, parse text source = .ok block) ↔
        ∃ block, parse (withLineFeeds text) source' = .ok block) ∧
      (∀ block, parse text source = .ok block →
        parse (withLineFeeds text) source' = .ok (block.mapValues withLineFeeds)) ∧
      (∀ (s s' : Session) (block : Block),
        ((Ingest.parseText (withLineFeeds text) source').outcome s).1 = .ok block ↔
          ∃ block', ((Ingest.parseText text source).outcome s').1 = .ok block' ∧
            block = block'.mapValues withLineFeeds) ∧
      ∀ files path encoding, HoldsText files (Path.ofString path) encoding text →
        ∀ (s s' : Session) (block : Block),
          ((Ingest.readDump files encoding path).outcome s).1 = .ok block ↔
            ∃ block', ((Ingest.parseText text source).outcome s').1 = .ok block' ∧
              block = block'.mapValues withLineFeeds := by
  -- parsing looks up no name, so any demangler serves
  have hparsed (text : String) (source : Option String) (s : Session) :
      ((Ingest.parseText text source).outcome s).1 = Ingest.blockOf text source :=
    (Ingest.answers_parseText text source s (Ingest.readsAs_resolve (fun _ => none) s.memo)).1
  refine ⟨⟨?_, ?_⟩, fun block h => parse_withLineFeeds_of_parse h source', ?_, ?_⟩
  · rintro ⟨block, h⟩
    exact ⟨_, parse_withLineFeeds_of_parse h source'⟩
  · rintro ⟨block, h⟩
    exact exists_parse_of_parse_withLineFeeds h source
  · intro s s' block
    rw [hparsed, hparsed]
    exact blockOf_withLineFeeds_eq_ok_iff source source'
  · intro files path encoding htext s s' block
    rw [readDump_eq_ok_iff htext, hparsed]
    exact blockOf_withLineFeeds_eq_ok_iff source _

/-- A pair that an escape divides: the text has an escaped carriage return and a line feed there,
the unified text an escaped line feed. -/
example :
    parse "g:\r\n\x7b\ra:\r\"\\\r\n\r\"\r\n\x7d\r" none =
        .ok ⟨"g", [.field "a" "\\\r\n\r"]⟩ ∧
      parse "g:\n\x7b\na:\n\"\\\n\n\"\n\x7d\n" none = .ok ⟨"g", [.field "a" "\\\n\n"]⟩ := by
  exact ⟨by cbv, by cbv⟩

end CallAtlas.Dump
