import CallAtlas.Proofs.Location.RoundTrip

/-!
# Locations in labels

The label of a function has its name on the first line, its place of definition on the second, and
perhaps more lines.  Labels are divided on the raw text, at line feeds and at the two characters
that stand for one, wherever they occur.  So a file name that holds a separator is cut there, and
what is left of the place is shorter than the file: it is never read as the same location.

A backslash at the end of a name does not spoil the separator behind it, as no separator begins with
the second half of another.

## Main definitions

* `Separator`: what divides the lines of a label
* `written name separator place further`: a label with its separators

## Main results

* `exists_first_separator`: a text with a separator is cut at its first one
* `lines_append_separator`: a line ends at a separator
* `written_location_recovered_iff`: which locations a label gives back
-/

namespace CallAtlas.Label

open CallAtlas.Location (IsFile digitCount digitLimit ofString?)

/-! ## Separators -/

/-- What divides the lines of a label. -/
inductive Separator where
  /-- The two characters that stand for a line feed. -/
  | escape
  | lineFeed
  deriving DecidableEq, Repr

/-- How a separator is written. -/
def Separator.text : Separator → String
  | .escape => Schema.labelLineSeparator
  | .lineFeed => "\n"

/-- A label: a name, a place and further lines, each of them behind a separator. -/
def written (name : String) (separator : Separator) (place : String)
    (further : List (Separator × String)) : String :=
  name ++ separator.text ++ place ++ String.join (further.map fun line => line.1.text ++ line.2)

/-- A line ends at a separator. -/
theorem lines_append_separator {line : List Char} (h : SeparatorFree line) (separator : Separator)
    (rest : List Char) : lines (line ++ (separator.text.toList ++ rest)) = line :: lines rest := by
  have hlines : lines (line ++ (separator.text.toList ++ rest)) = (line ++ []) :: lines rest := by
    refine lines_append_of_lines h ?_ ?_
    · cases separator <;> simp [Separator.text, Schema.labelLineSeparator]
    · cases separator <;> rfl
  rwa [List.append_nil] at hlines

/-- A text with a separator is cut at its first one. -/
theorem exists_first_separator {text : List Char} (h : ¬ SeparatorFree text) :
    ∃ before separator rest, SeparatorFree before ∧
      text = before ++ (Separator.text separator).toList ++ rest := by
  induction text with
  | nil => exact absurd (by decide) h
  | cons c text ih =>
    by_cases hfeed : c = '\n'
    · exact ⟨[], .lineFeed, text, by decide, by rw [hfeed]; rfl⟩
    · by_cases hescape : c = '\\' ∧ text.head? = some 'n'
      · obtain ⟨rfl, hhead⟩ := hescape
        obtain ⟨rest, rfl⟩ := List.head?_eq_some_iff.mp hhead
        exact ⟨[], .escape, rest, by decide, rfl⟩
      · -- the first character belongs to no separator
        obtain ⟨before, separator, rest, hbefore, rfl⟩ :=
          ih fun htext => h (separatorFree_cons_iff.mpr ⟨hfeed, hescape, htext⟩)
        refine ⟨c :: before, separator, rest, separatorFree_cons_iff.mpr ⟨hfeed, ?_, hbefore⟩, rfl⟩
        rintro ⟨hslash, hhead⟩
        exact hescape ⟨hslash, by simp [List.head?_append, hhead]⟩

/-! ## The second line -/

section SecondLine

variable {name place : String} {line : List Char} {further : List (Separator × String)}

theorem toList_written (name : String) (separator : Separator) (place : String)
    (further : List (Separator × String)) :
    (written name separator place further).toList =
      name.toList ++ (separator.text.toList ++ (place.toList ++
        further.flatMap fun line => line.1.text.toList ++ line.2.toList)) := by
  simp [written, String.toList_join, List.flatMap_map]

/-- The place is told by the first line of what stands behind the name. -/
theorem locationLine_written (hname : SeparatorFree name.toList) (separator : Separator)
    (hline : (lines (place.toList ++ further.flatMap fun line =>
      line.1.text.toList ++ line.2.toList)).head? = some line) :
    locationLine (written name separator place further) = String.ofList line := by
  obtain ⟨others, hlines⟩ := List.head?_eq_some_iff.mp hline
  rw [locationLine, toList_written, lines_append_separator hname, hlines]

/-- A place of one line is told as it is. -/
theorem locationLine_written_of_separatorFree (hname : SeparatorFree name.toList)
    (separator : Separator) (hplace : SeparatorFree place.toList)
    (further : List (Separator × String)) :
    locationLine (written name separator place further) = place := by
  rw [locationLine_written hname separator, String.ofList_toList]
  cases further with
  | nil => rw [List.flatMap_nil, List.append_nil, lines_of_separatorFree hplace, List.head?_cons]
  | cons first further =>
    rw [List.flatMap_cons, List.append_assoc, lines_append_separator hplace, List.head?_cons]

/-- A place with a separator is told up to the first of them. -/
theorem locationLine_written_of_separator (hname : SeparatorFree name.toList)
    (separator : Separator) {within : Separator} {rest : List Char} (hline : SeparatorFree line)
    (hplace : place.toList = line ++ (within.text.toList ++ rest))
    (further : List (Separator × String)) :
    locationLine (written name separator place further) = String.ofList line := by
  refine locationLine_written hname separator ?_
  rw [hplace, List.append_assoc, List.append_assoc, lines_append_separator hline, List.head?_cons]

end SecondLine

/-! ## Recovery -/

/-- **A label gives a location back exactly if its file holds no separator and its numbers are not
negative**, whatever separators the label has and whatever lines follow. -/
theorem written_location_recovered_iff {name : String} (hname : SeparatorFree name.toList)
    {loc : Location} (hfile : IsFile loc.file.toList) (hline : digitCount loc.line ≤ digitLimit)
    (hcolumn : digitCount loc.column ≤ digitLimit) (separator : Separator)
    (further : List (Separator × String)) :
    ofString? (locationLine (written name separator loc.toString further)) = .ok (some loc) ↔
      SeparatorFree loc.file.toList ∧ 0 ≤ loc.line ∧ 0 ≤ loc.column := by
  constructor
  · intro hread
    obtain ⟨rest, hparse⟩ := Location.exists_parse_of_ofString? hread
    obtain ⟨hloc, behind, htext⟩ := Location.of_parse hparse
    refine ⟨?_, hloc.line_nonneg, hloc.column_nonneg⟩
    by_contra hseparator
    obtain ⟨before, within, rest, hbefore, hcut⟩ := exists_first_separator hseparator
    -- the line that is read is shorter than the file that it would have to hold
    have hplace : loc.toString.toList = before ++ (within.text.toList ++
        (rest ++ (":" ++ toString loc.line ++ ":" ++ toString loc.column).toList)) := by
      simp [Location.toString, hcut]
    rw [locationLine_written_of_separator hname separator hbefore hplace,
      String.toList_ofList] at htext
    have hlength := congrArg List.length hcut
    rw [htext] at hlength
    simp only [List.length_append, List.length_cons] at hlength
    omega
  · rintro ⟨hseparator, hline', hcolumn'⟩
    have hloc := Location.spellable_iff.mpr ⟨hfile, hline', hline, hcolumn', hcolumn⟩
    rw [locationLine_written_of_separatorFree hname separator
      (separatorFree_toString hloc hseparator)]
    exact Location.ofString?_toString hloc

/-- A place in a file behind a drive letter. -/
def drivePlace (file : String) : Location :=
  ⟨"C:\\" ++ file, 3, 4⟩

theorem isFile_drivePlace {file : String} (h : ':' ∉ file.toList) :
    IsFile (drivePlace file).file.toList := by
  refine .inr ⟨'C', '\\' :: file.toList, ?_, by decide, ?_⟩
  · simp [drivePlace]
  · simpa using h

theorem written_location_recovered_iff_drive :
    SeparatorFree "f\\".toList ∧ ∀ separator further,
      ofString? (locationLine (written "f\\" separator (drivePlace "new.c").toString further)) ≠
          .ok (some (drivePlace "new.c")) ∧
        ofString? (locationLine (written "f\\" separator (drivePlace "a.c").toString further)) =
          .ok (some (drivePlace "a.c")) := by
  have hname : SeparatorFree "f\\".toList := by decide
  have hline : digitCount 3 ≤ digitLimit := by decide +kernel
  have hcolumn : digitCount 4 ≤ digitLimit := by decide +kernel
  have hseparator : ¬ SeparatorFree (drivePlace "new.c").file.toList := by decide +kernel
  have hfree : SeparatorFree (drivePlace "a.c").file.toList := by decide +kernel
  refine ⟨hname, fun separator further => ⟨fun hread => hseparator ?_, ?_⟩⟩
  · exact ((written_location_recovered_iff hname (isFile_drivePlace (by decide)) hline hcolumn
      separator further).mp hread).1
  · exact (written_location_recovered_iff hname (isFile_drivePlace (by decide)) hline hcolumn
      separator further).mpr ⟨hfree, by decide, by decide⟩

/-- A file without a separator is not enough: a negative number is not read back. -/
theorem negative_line_not_recovered :
    ¬ ∀ (name : String) (loc : Location) (separator : Separator)
      (further : List (Separator × String)),
      SeparatorFree name.toList → IsFile loc.file.toList → digitCount loc.line ≤ digitLimit →
      digitCount loc.column ≤ digitLimit →
      (ofString? (locationLine (written name separator loc.toString further)) = .ok (some loc) ↔
        SeparatorFree loc.file.toList) := by
  intro h
  have hrecovered := (h "f" ⟨"ab.c", -1, 0⟩ .escape [] (by decide)
    (.inl ⟨by decide, by decide⟩) (by decide +kernel) (by decide +kernel)).mpr (by decide)
  have hread : ofString? (locationLine (written "f" .escape "ab.c:-1:0" [])) =
      .error (.notANumber .line "-1" "ab.c:-1:0") := rfl
  exact absurd (hread.symm.trans hrecovered) (by simp)

end CallAtlas.Label
