import CallAtlas.Label
import CallAtlas.Location
import CallAtlas.Schema

/-!
# Written locations

A location that is written as `file:line:column` is read back, if its file could have been read: the
first colon behind more than one character ends the file, and a single character before it takes the
next segment along.  A function's label carries the location on its second line, and gives it back
if neither line holds a separator.

## Main definitions

* `IsFile`, `Spellable`: files and locations as they are read
* `SeparatorFree`: a text of one line

## Main results

* `parse_of_spelling`: a written location is read back, with the text behind another colon
* `locationLine_of_separatorFree`, `locationLine_append`: the line that tells the location
-/

namespace CallAtlas.Location

/-! ## Files and numbers -/

/-- A file as it is read: without a colon and longer than one character, or a drive letter, a colon
and a segment without one. -/
def IsFile (file : List Char) : Prop :=
  (':' ∉ file ∧ 2 ≤ file.length) ∨
    ∃ drive segment, file = drive :: ':' :: segment ∧ drive ≠ ':' ∧ ':' ∉ segment

/-- A location as it is read: its numbers are not negative and have no more digits than are read. -/
structure Spellable (loc : Location) : Prop where
  file : IsFile loc.file.toList
  line_nonneg : 0 ≤ loc.line
  line_digits : (toString loc.line).length ≤ digitLimit
  column_nonneg : 0 ≤ loc.column
  column_digits : (toString loc.column).length ≤ digitLimit

theorem cut_append_colon {head : List Char} (rest : List Char) (h : ':' ∉ head) :
    cut (head ++ ':' :: rest) = (head, some rest) := by
  induction head with
  | nil => simp [cut]
  | cons c head ih =>
    obtain ⟨hc, hhead⟩ := not_or.mp (mt List.mem_cons.mpr h)
    simp [cut, Ne.symm hc, ih hhead]

theorem cut_of_notMem {text : List Char} (h : ':' ∉ text) : cut text = (text, none) := by
  induction text with
  | nil => rfl
  | cons c text ih =>
    obtain ⟨hc, htext⟩ := not_or.mp (mt List.mem_cons.mpr h)
    simp [cut, Ne.symm hc, ih htext]

/-- A file is read up to the colon behind it. -/
theorem parse_of_file {source : String} {file text : List Char} (hfile : IsFile file)
    (hsource : source.toList = file ++ ':' :: text) :
    parse source = (readCoordinates file text source).map some := by
  rw [parse, hsource]
  rcases hfile with ⟨hcolon, hlength⟩ | ⟨drive, segment, rfl, hdrive, hsegment⟩
  · rw [cut_append_colon text hcolon]
    -- more than one character before the colon
    match file, hlength with
    | _ :: _ :: _, _ => rfl
  · have hfirst : ':' ∉ [drive] := by simpa using Ne.symm hdrive
    have hcut := cut_append_colon (segment ++ ':' :: text) hfirst
    simp only [List.singleton_append] at hcut
    simp only [List.cons_append, hcut, cut_append_colon text hsegment]

/-! ## Digits -/

theorem colon_notMem_toDigits (n : Nat) : ':' ∉ Nat.toDigits 10 n := by
  intro hmem
  have hdigit := Nat.isDigit_of_mem_toDigits (by decide) (by decide) hmem
  exact absurd hdigit (by decide)

theorem readNumber_toDigits {n : Nat} (h : (Nat.toDigits 10 n).length ≤ digitLimit)
    (coordinate : Coordinate) (source : String) :
    readNumber coordinate (Nat.toDigits 10 n) source = .ok n := by
  have hdigits : (Nat.toDigits 10 n).all Char.isDigit = true :=
    List.all_eq_true.mpr fun c hc => Nat.isDigit_of_mem_toDigits (by decide) (by decide) hc
  have hne : (Nat.toDigits 10 n).isEmpty = false := by simp
  simp [readNumber, hdigits, hne, Nat.not_lt.mpr h, Nat.ofDigitChars_ten_toDigits]

/-- What may stand behind a column: nothing, or a colon and more. -/
theorem cut_toDigits_append (n : Nat) {tail : List Char} (htail : ∀ c ∈ tail.head?, c = ':') :
    ∃ rest, cut (Nat.toDigits 10 n ++ tail) = (Nat.toDigits 10 n, rest) ∧
      rest.getD [] = tail.tail := by
  cases tail with
  | nil => exact ⟨none, by rw [List.append_nil, cut_of_notMem (colon_notMem_toDigits n)], rfl⟩
  | cons c rest =>
    obtain rfl := htail c rfl
    exact ⟨some rest, cut_append_colon rest (colon_notMem_toDigits n), rfl⟩

theorem readCoordinates_toDigits {line column : Nat}
    (hline : (Nat.toDigits 10 line).length ≤ digitLimit)
    (hcolumn : (Nat.toDigits 10 column).length ≤ digitLimit) (file : List Char)
    {tail : List Char} (htail : ∀ c ∈ tail.head?, c = ':') (source : String) :
    readCoordinates file (Nat.toDigits 10 line ++ ':' :: (Nat.toDigits 10 column ++ tail)) source =
      .ok (⟨String.ofList file, line, column⟩, String.ofList tail.tail) := by
  obtain ⟨rest, hcut, hrest⟩ := cut_toDigits_append column htail
  have hne : (Nat.toDigits 10 column).isEmpty = false := by simp
  rw [readCoordinates, cut_append_colon _ (colon_notMem_toDigits line)]
  simp only [hcut, readNumber_toDigits hline, readNumber_toDigits hcolumn, hne, hrest,
    Bool.false_eq_true, if_false]
  rfl

/-! ## Written locations are read back -/

theorem toList_toString_natCast (n : Nat) : (toString (n : Int)).toList = Nat.toDigits 10 n := by
  change (toString n).toList = _
  rw [Nat.toString_eq_ofList_toDigits, String.toList_ofList]

theorem toList_toString (file : String) (line column : Nat) :
    (Location.toString ⟨file, line, column⟩).toList =
      file.toList ++ ':' :: (Nat.toDigits 10 line ++ ':' :: Nat.toDigits 10 column) := by
  simp only [Location.toString, String.toList_append, toList_toString_natCast, List.append_assoc]
  rfl

/-- Colons and digits are all that stands behind the file of a written location. -/
theorem Spellable.exists_behind_file {loc : Location} (hloc : loc.Spellable) :
    ∃ behind, loc.toString.toList = loc.file.toList ++ behind ∧
      ∀ c ∈ behind, c = ':' ∨ c.isDigit = true := by
  obtain ⟨file, line, column⟩ := loc
  obtain ⟨line, rfl⟩ := Int.eq_ofNat_of_zero_le hloc.line_nonneg
  obtain ⟨column, rfl⟩ := Int.eq_ofNat_of_zero_le hloc.column_nonneg
  refine ⟨_, toList_toString file line column, ?_⟩
  intro c hc
  simp only [List.mem_cons, List.mem_append] at hc
  rcases hc with hc | hc | hc | hc
  · exact .inl hc
  · exact .inr (Nat.isDigit_of_mem_toDigits (by decide) (by decide) hc)
  · exact .inl hc
  · exact .inr (Nat.isDigit_of_mem_toDigits (by decide) (by decide) hc)

/-- **A written location is read back**, with the text behind another colon. -/
theorem parse_of_spelling {loc : Location} (hloc : loc.Spellable) {text : String}
    {tail : List Char} (htail : ∀ c ∈ tail.head?, c = ':')
    (htext : text.toList = loc.toString.toList ++ tail) :
    parse text = .ok (some (loc, String.ofList tail.tail)) := by
  obtain ⟨file, line, column⟩ := loc
  obtain ⟨hfile, hline, hline', hcolumn, hcolumn'⟩ := hloc
  -- numbers that are not negative are written by their digits
  obtain ⟨line, rfl⟩ := Int.eq_ofNat_of_zero_le hline
  obtain ⟨column, rfl⟩ := Int.eq_ofNat_of_zero_le hcolumn
  rw [← String.length_toList, toList_toString_natCast] at hline' hcolumn'
  rw [toList_toString, List.append_assoc, List.cons_append, List.append_assoc,
    List.cons_append] at htext
  rw [parse_of_file hfile htext, readCoordinates_toDigits hline' hcolumn' _ htail,
    String.ofList_toList]
  rfl

theorem ofString?_toString {loc : Location} (hloc : loc.Spellable) :
    ofString? loc.toString = .ok (some loc) := by
  have htext : loc.toString.toList = loc.toString.toList ++ [] := by rw [List.append_nil]
  rw [ofString?, parse_of_spelling hloc (by simp) htext]
  rfl

end CallAtlas.Location

/-! ## Labels -/

namespace CallAtlas.Label

/-- A text without a line feed and without the two characters that end a line inside a label. -/
def SeparatorFree (text : List Char) : Prop :=
  '\n' ∉ text ∧ ¬ Schema.labelLineSeparator.toList <:+: text

instance (text : List Char) : Decidable (SeparatorFree text) :=
  inferInstanceAs (Decidable ('\n' ∉ text ∧ ¬ Schema.labelLineSeparator.toList <:+: text))

theorem separatorFree_cons_iff {c : Char} {text : List Char} :
    SeparatorFree (c :: text) ↔
      c ≠ '\n' ∧ ¬ (c = '\\' ∧ text.head? = some 'n') ∧ SeparatorFree text := by
  have hescape : Schema.labelLineSeparator.toList <+: c :: text ↔
      c = '\\' ∧ text.head? = some 'n' := by
    change ['\\', 'n'] <+: c :: text ↔ _
    rw [List.cons_prefix_cons, eq_comm]
    cases text with
    | nil => simp
    | cons d text => simp [List.cons_prefix_cons, eq_comm]
  rw [SeparatorFree, SeparatorFree, List.mem_cons, List.infix_cons_iff, hescape]
  grind

/-- A character that begins no separator belongs to the first line. -/
theorem lines_cons {c : Char} {text first : List Char} {others : List (List Char)}
    (hfeed : c ≠ '\n') (hescape : ∀ rest, c = '\\' → text ≠ 'n' :: rest)
    (hlines : lines text = first :: others) : lines (c :: text) = (c :: first) :: others := by
  rw [lines]
  · rw [if_neg hfeed, hlines]
  · exact hescape

/-- A text of one line stands in front of the first line of what follows it, if that does not begin
with the second half of a separator. -/
theorem lines_append_of_lines {text tail first : List Char} {others : List (List Char)}
    (h : SeparatorFree text) (hhead : tail.head? ≠ some 'n')
    (htail : lines tail = first :: others) : lines (text ++ tail) = (text ++ first) :: others := by
  induction text with
  | nil => exact htail
  | cons c text ih =>
    obtain ⟨hfeed, hescape, htext⟩ := separatorFree_cons_iff.mp h
    refine lines_cons hfeed (fun rest hslash heq => ?_) (ih htext)
    cases text with
    | nil => exact hhead (congrArg List.head? heq)
    | cons d text =>
      obtain ⟨rfl, -⟩ := List.cons.inj heq
      exact hescape ⟨hslash, rfl⟩

theorem lines_append {name : List Char} (hname : SeparatorFree name) (rest : List Char) :
    lines (name ++ '\\' :: 'n' :: rest) = name :: lines rest := by
  rw [lines_append_of_lines hname (by simp) rfl, List.append_nil]

theorem lines_of_separatorFree {text : List Char} (h : SeparatorFree text) :
    lines text = [text] := by
  have hlines : lines (text ++ []) = [text ++ []] := lines_append_of_lines h (by simp) rfl
  rwa [List.append_nil] at hlines

/-- A label of one line tells the place by itself. -/
theorem locationLine_of_separatorFree {label : String} (h : SeparatorFree label.toList) :
    locationLine label = label := by
  rw [locationLine, lines_of_separatorFree h]
  exact String.ofList_toList

/-- The line behind the name of a function tells its place. -/
theorem locationLine_append {name place : String} (hname : SeparatorFree name.toList)
    (hplace : SeparatorFree place.toList) :
    locationLine (name ++ Schema.labelLineSeparator ++ place) = place := by
  have hlabel : (name ++ Schema.labelLineSeparator ++ place).toList =
      name.toList ++ '\\' :: 'n' :: place.toList := by
    rw [String.toList_append, String.toList_append, List.append_assoc]
    rfl
  rw [locationLine, hlabel, lines_append hname, lines_of_separatorFree hplace]
  exact String.ofList_toList

/-- A text of one line stays one if what is put behind it has neither a line feed nor an `n`. -/
theorem SeparatorFree.append {text tail : List Char} (h : SeparatorFree text)
    (hfeed : '\n' ∉ tail) (hn : 'n' ∉ tail) : SeparatorFree (text ++ tail) := by
  induction text with
  | nil => exact ⟨hfeed, fun hseparator => hn (hseparator.subset (by decide))⟩
  | cons c text ih =>
    obtain ⟨hc, hescape, htext⟩ := separatorFree_cons_iff.mp h
    refine separatorFree_cons_iff.mpr ⟨hc, fun ⟨hslash, hhead⟩ => ?_, ih htext⟩
    -- the second half of a separator would stand in the text or behind it
    cases text with
    | nil => exact hn (List.mem_of_mem_head? hhead)
    | cons d text => exact hescape ⟨hslash, hhead⟩

/-- A written location is a text of one line if its file is. -/
theorem separatorFree_toString {loc : Location} (hloc : loc.Spellable)
    (hfile : SeparatorFree loc.file.toList) : SeparatorFree loc.toString.toList := by
  obtain ⟨behind, hspelled, hbehind⟩ := hloc.exists_behind_file
  rw [hspelled]
  apply hfile.append
  · intro hmem
    exact absurd (hbehind _ hmem) (by decide)
  · intro hmem
    exact absurd (hbehind _ hmem) (by decide)

end CallAtlas.Label
