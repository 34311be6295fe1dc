import CallAtlas.Dump.Block
import CallAtlas.Dump.Word

/-!
# The language of dumps

The texts that are dumps, told by what they are made of and not by how they are read:

    document = blanks block blanks
    block    = identifier blanks [":"] blanks "{" blanks (entry blanks)* "}"
    entry    = block | field
    field    = identifier blanks ":" blanks (quoted | bare)

A derivation relates a text, what its head stands for, and the text behind that head.  The only rule
that looks at the text behind is the one of bare values: a bare value goes on as far as it can.

## Main definitions

* `Blanks`, `IsIdentifier`, `QuotedBody`, `IsBare`: the words
* `EntryAt`, `BlockAt`, `EntriesAt`: what stands at the head of a text
* `Derives`: the block that a whole text stands for

## Main results

* `quotedBody?_eq_some_iff`, `identifier?_append`, `bare?_append`: the readers of words take exactly
  the words of the grammar
* `skipBlanks_append`: white space is skipped as a whole
-/

namespace CallAtlas.Dump

open CallAtlas.Text

/-! ## Words -/

/-- A text of white space alone. -/
def Blanks (s : List Char) : Prop :=
  ∀ c ∈ s, isBlank c = true

/-- The spelling of an identifier. -/
def IsIdentifier : List Char → Prop
  | [] => False
  | c :: rest => isIdentifierStart c = true ∧ ∀ d ∈ rest, isIdentifierChar d = true

/-- The text between the quotes of a quoted value: every quote and every backslash in it belongs to
an escape. -/
inductive QuotedBody : List Char → Prop
  | nil : QuotedBody []
  | escape (c : Char) {body : List Char} : QuotedBody body → QuotedBody ('\\' :: c :: body)
  | plain {c : Char} {body : List Char} :
      c ≠ '"' → c ≠ '\\' → QuotedBody body → QuotedBody (c :: body)

/-- A character that no bare value has: white space, a brace or a double quote. -/
def EndsBare (c : Char) : Prop :=
  isBlank c = true ∨ c = '{' ∨ c = '}' ∨ c = '"'

/-- The spelling of a bare value. -/
def IsBare (word : List Char) : Prop :=
  word ≠ [] ∧ ∀ c ∈ word, ¬ EndsBare c

/-! ## Derivations -/

/-- The value at the head of a text, and the text behind it. -/
inductive ValueAt : List Char → List Char → List Char → Prop
  | quoted {body rest : List Char} :
      QuotedBody body → ValueAt ('"' :: (body ++ '"' :: rest)) body rest
  | bare {word rest : List Char} :
      IsBare word → (∀ c ∈ rest.head?, EndsBare c) → ValueAt (word ++ rest) word rest

mutual

/-- The entry at the head of a text, and the text behind it. -/
inductive EntryAt : List Char → Entry → List Char → Prop
  | field {key gap gap' s value rest : List Char} :
      IsIdentifier key → Blanks gap → Blanks gap' → ValueAt s value rest →
      EntryAt (key ++ (gap ++ ':' :: (gap' ++ s)))
        (.field (String.ofList key) (String.ofList value)) rest
  | block {s rest : List Char} {kind : String} {entries : List Entry} :
      BlockAt s ⟨kind, entries⟩ rest → EntryAt s (.block kind entries) rest

/-- The block at the head of a text, and the text behind it. -/
inductive BlockAt : List Char → Block → List Char → Prop
  | braces {kind gap colon gap' gap'' s rest : List Char} {entries : List Entry} :
      IsIdentifier kind → Blanks gap → colon = [] ∨ colon = [':'] → Blanks gap' → Blanks gap'' →
      EntriesAt s entries ('}' :: rest) →
      BlockAt (kind ++ (gap ++ (colon ++ (gap' ++ '{' :: (gap'' ++ s)))))
        ⟨String.ofList kind, entries⟩ rest

/-- Entries at the head of a text, each with the white space behind it, and the text behind them. -/
inductive EntriesAt : List Char → List Entry → List Char → Prop
  | nil {s : List Char} : EntriesAt s [] s
  | cons {s gap t rest : List Char} {entry : Entry} {entries : List Entry} :
      EntryAt s entry (gap ++ t) → Blanks gap → EntriesAt t entries rest →
      EntriesAt s (entry :: entries) rest

end

/-- **The block that a whole text stands for**: the text is the block between white space. -/
def Derives (text : List Char) (block : Block) : Prop :=
  ∃ gap s gap', text = gap ++ s ∧ Blanks gap ∧ BlockAt s block gap' ∧ Blanks gap'

/-! ## Boundaries of words -/

section Boundaries

theorem takeWhile_append_of_head? {p : Char → Bool} {word rest : List Char}
    (hword : ∀ c ∈ word, p c = true) (hrest : ∀ c ∈ rest.head?, p c = false) :
    (word ++ rest).takeWhile p = word := by
  rw [List.takeWhile_append_of_pos hword]
  cases rest with
  | nil => simp
  | cons c rest => simp [hrest c rfl]

theorem dropWhile_append_of_head? {p : Char → Bool} {word rest : List Char}
    (hword : ∀ c ∈ word, p c = true) (hrest : ∀ c ∈ rest.head?, p c = false) :
    (word ++ rest).dropWhile p = rest := by
  rw [List.dropWhile_append_of_pos hword]
  cases rest with
  | nil => rfl
  | cons c rest => simp [hrest c rfl]

theorem eq_false_of_mem_head?_dropWhile {p : Char → Bool} {s : List Char} {c : Char}
    (hc : c ∈ (s.dropWhile p).head?) : p c = false := by
  have h := List.head?_dropWhile_not p s
  rw [Option.mem_def.mp hc] at h
  exact h

theorem isBareChar_eq_true_iff {c : Char} : isBareChar c = true ↔ ¬ EndsBare c := by
  simp [isBareChar, EndsBare, and_assoc]

theorem isBareChar_eq_false_iff {c : Char} : isBareChar c = false ↔ EndsBare c := by
  rw [← Bool.not_eq_true, isBareChar_eq_true_iff, Classical.not_not]

theorem isIdentifierChar_of_isIdentifierStart {c : Char} (h : isIdentifierStart c = true) :
    isIdentifierChar c = true := by
  simp only [isIdentifierStart, isIdentifierChar, Bool.or_eq_true] at h ⊢
  rcases h with h | h
  · exact .inl (.inl (.inl (Bool.or_eq_true _ _ ▸ .inl h)))
  · exact .inl (.inl (.inr h))

theorem toNat_of_isAlphanum {c : Char} (h : c.isAlphanum = true) :
    48 ≤ c.toNat ∧ c.toNat ≤ 122 := by
  -- the three ranges of the class, as ranges of code points
  change ((decide (c.val ≥ 65 ∧ c.val ≤ 90) || decide (c.val ≥ 97) && decide (c.val ≤ 122)) ||
    decide (c.val ≥ 48) && decide (c.val ≤ 57)) = true at h
  simp only [Bool.or_eq_true, Bool.and_eq_true, decide_eq_true_eq, ge_iff_le,
    UInt32.le_iff_toNat_le] at h
  change (65 ≤ c.toNat ∧ c.toNat ≤ 90 ∨ 97 ≤ c.toNat ∧ c.toNat ≤ 122) ∨
    48 ≤ c.toNat ∧ c.toNat ≤ 57 at h
  omega

theorem toNat_of_isIdentifierChar {c : Char} (h : isIdentifierChar c = true) :
    45 ≤ c.toNat ∧ c.toNat ≤ 122 := by
  simp only [isIdentifierChar, Bool.or_eq_true, beq_iff_eq] at h
  rcases h with ((h | rfl) | rfl) | rfl
  · have := toNat_of_isAlphanum h
    omega
  all_goals decide

theorem toNat_of_isBlank {c : Char} (h : isBlank c = true) : c.toNat ≤ 32 ∨ 133 ≤ c.toNat := by
  simp only [isBlank, Bool.or_eq_true, Bool.and_eq_true, decide_eq_true_eq, beq_iff_eq] at h
  omega

/-- White space is no part of an identifier. -/
theorem isIdentifierChar_of_isBlank {c : Char} (h : isBlank c = true) :
    isIdentifierChar c = false := by
  rw [← Bool.not_eq_true]
  intro hc
  have := toNat_of_isIdentifierChar hc
  have := toNat_of_isBlank h
  omega

/-- No identifier goes on over white space and the character that ends it. -/
theorem isIdentifierChar_of_mem_head?_blanks {gap rest : List Char} {d : Char} (hgap : Blanks gap)
    (hd : isIdentifierChar d = false) :
    ∀ c ∈ (gap ++ d :: rest).head?, isIdentifierChar c = false := by
  -- the first character is `d`, or else white space
  cases gap with
  | nil => simpa using hd
  | cons b gap => simpa using isIdentifierChar_of_isBlank (hgap b (by simp))

end Boundaries

/-! ## Readers of words -/

section Words

theorem blanks_nil : Blanks [] := by simp [Blanks]

theorem blanks_append {s t : List Char} : Blanks (s ++ t) ↔ Blanks s ∧ Blanks t :=
  List.forall_mem_append

/-- The white space that is skipped. -/
theorem exists_blanks_skipBlanks (s : List Char) :
    ∃ gap, Blanks gap ∧ s = gap ++ skipBlanks s :=
  ⟨s.takeWhile isBlank, fun _ hc => List.all_eq_true.mp List.all_takeWhile _ hc,
    List.takeWhile_append_dropWhile.symm⟩

/-- White space is skipped as a whole. -/
theorem skipBlanks_append {gap rest : List Char} (hgap : Blanks gap)
    (hrest : ∀ c ∈ rest.head?, isBlank c = false) : skipBlanks (gap ++ rest) = rest :=
  dropWhile_append_of_head? hgap hrest

theorem skipBlanks_eq_nil_iff {s : List Char} : skipBlanks s = [] ↔ Blanks s := by
  constructor
  · intro h
    obtain ⟨gap, hgap, hs⟩ := exists_blanks_skipBlanks s
    rw [hs, h, List.append_nil]
    exact hgap
  · intro h
    have hskip : skipBlanks (s ++ []) = [] := skipBlanks_append h (by simp)
    rwa [List.append_nil] at hskip

theorem identifier?_append {word rest : List Char} (hword : IsIdentifier word)
    (hrest : ∀ c ∈ rest.head?, isIdentifierChar c = false) :
    identifier? (word ++ rest) = some (word, rest) := by
  cases word with
  | nil => exact hword.elim
  | cons c word =>
    simp only [List.cons_append, identifier?, hword.1, if_true]
    rw [takeWhile_append_of_head? hword.2 hrest, dropWhile_append_of_head? hword.2 hrest]

theorem isIdentifier_of_identifier? {s word rest : List Char}
    (h : identifier? s = some (word, rest)) : IsIdentifier word ∧ s = word ++ rest := by
  cases s with
  | nil => simp [identifier?] at h
  | cons c s =>
    simp only [identifier?] at h
    split at h
    · next hc =>
      obtain ⟨rfl, rfl⟩ := Prod.mk.inj (Option.some.inj h)
      refine ⟨⟨hc, fun d hd => List.all_eq_true.mp List.all_takeWhile d hd⟩, ?_⟩
      rw [List.cons_append, List.takeWhile_append_dropWhile]
    · simp at h

theorem quotedBody?_append {body : List Char} (hbody : QuotedBody body) (rest : List Char) :
    quotedBody? (body ++ '"' :: rest) = some (body, rest) := by
  -- Induction on the body: each part is read by the rule that it is spelled by.
  induction hbody with
  | nil => rfl
  | escape c _ ih => simp [quotedBody?, ih]
  | plain hquote hslash _ ih => simp [quotedBody?, hslash, ih]

theorem quotedBody_of_quotedBody? {s body rest : List Char}
    (h : quotedBody? s = some (body, rest)) : QuotedBody body ∧ s = body ++ '"' :: rest := by
  fun_induction quotedBody? s generalizing body rest with
  | case1 => simp at h
  | case2 tail =>
    -- the closing quote
    obtain ⟨rfl, rfl⟩ := Prod.mk.inj (Option.some.inj h)
    exact ⟨.nil, rfl⟩
  | case3 c tail ih =>
    -- an escape
    obtain ⟨⟨inner, after⟩, hinner, heq⟩ := Option.map_eq_some_iff.mp h
    obtain ⟨rfl, rfl⟩ := Prod.mk.inj heq
    obtain ⟨hbody, rfl⟩ := ih hinner
    exact ⟨.escape c hbody, rfl⟩
  | case4 => simp at h
  | case5 c tail hquote _ hslash ih =>
    -- any other character
    obtain ⟨⟨inner, after⟩, hinner, heq⟩ := Option.map_eq_some_iff.mp h
    obtain ⟨rfl, rfl⟩ := Prod.mk.inj heq
    obtain ⟨hbody, rfl⟩ := ih hinner
    exact ⟨.plain hquote hslash hbody, rfl⟩

/-- **Quoted bodies are read as they are spelled**: up to the first quote that no backslash
escapes. -/
theorem quotedBody?_eq_some_iff {s body rest : List Char} :
    quotedBody? s = some (body, rest) ↔ QuotedBody body ∧ s = body ++ '"' :: rest := by
  refine ⟨quotedBody_of_quotedBody?, ?_⟩
  rintro ⟨hbody, rfl⟩
  exact quotedBody?_append hbody rest

theorem bare?_append {word rest : List Char} (hword : IsBare word)
    (hrest : ∀ c ∈ rest.head?, EndsBare c) : bare? (word ++ rest) = some (word, rest) := by
  have hin : ∀ c ∈ word, isBareChar c = true := fun c hc =>
    isBareChar_eq_true_iff.mpr (hword.2 c hc)
  have hout : ∀ c ∈ rest.head?, isBareChar c = false := fun c hc =>
    isBareChar_eq_false_iff.mpr (hrest c hc)
  unfold bare?
  rw [takeWhile_append_of_head? hin hout, dropWhile_append_of_head? hin hout]
  cases word with
  | nil => exact absurd rfl hword.1
  | cons c word => rfl

theorem isBare_of_bare? {s word rest : List Char} (h : bare? s = some (word, rest)) :
    IsBare word ∧ s = word ++ rest ∧ ∀ c ∈ rest.head?, EndsBare c := by
  unfold bare? at h
  split at h
  · simp at h
  · next hne =>
    obtain ⟨rfl, rfl⟩ := Prod.mk.inj (Option.some.inj h)
    refine ⟨⟨hne, ?_⟩, List.takeWhile_append_dropWhile.symm, ?_⟩
    · intro c hc
      exact isBareChar_eq_true_iff.mp (List.all_eq_true.mp List.all_takeWhile c hc)
    · intro c hc
      exact isBareChar_eq_false_iff.mp (eq_false_of_mem_head?_dropWhile hc)

end Words

end CallAtlas.Dump
