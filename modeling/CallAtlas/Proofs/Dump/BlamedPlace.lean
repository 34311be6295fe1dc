import CallAtlas.Proofs.Dump.Blame
import CallAtlas.Proofs.Location.RoundTrip

/-!
# The place that a diagnostic names

A message has the place of its diagnostic in front, as compilers write it: file, line and column.
If the file could have been read from a location and both coordinates are known, the place is a
written location with the rest of the message behind another colon.  So it is read back from the
message, and no colon in the wording is taken for one of the place.

A text that is not a dump is always refused with both coordinates.  They count from one, and are at
most one more than the characters of the text, so that they have no more digits than are read unless
the text is that long.

## Main definitions

* `Diagnostic.Placed d source`: the place of `d` is in `source`, and can be written

## Main results

* `Diagnostic.Placed.parse_message`: the place is read back from the message
* `lineAt_le`, `columnAt_le`: coordinates are bounded by the length of the text
* `refusal_read_as_location`: the place at which a text is refused is read back from the message
-/

namespace CallAtlas

namespace Diagnostic

open CallAtlas.Location (IsFile digitCount digitLimit)

/-! ## Places in messages -/

/-- The diagnostic concerns a place in `source`: both coordinates are known, and the place can be
written as a location. -/
structure Placed (d : Diagnostic) (source : String) : Prop where
  path_eq : d.path = some source
  file : IsFile source.toList
  line_pos : 0 < d.line
  line_digits : digitCount d.line ≤ digitLimit
  column_pos : 0 < d.column
  column_digits : digitCount d.column ≤ digitLimit

section Placed

variable {d : Diagnostic} {source : String}

theorem Placed.spellable (h : d.Placed source) :
    Location.Spellable ⟨source, d.line, d.column⟩ :=
  Location.spellable_iff.mpr
    ⟨h.file, Int.le_of_lt h.line_pos, h.line_digits, Int.le_of_lt h.column_pos, h.column_digits⟩

/-- The message of a diagnostic with a place is the written place, and the wording behind another
colon and a blank. -/
theorem Placed.message_eq (h : d.Placed source) :
    d.message = Location.toString ⟨source, d.line, d.column⟩ ++ ":" ++ (" " ++ d.text) := by
  have hplace : d.place source = Location.toString ⟨source, d.line, d.column⟩ := by
    rw [place, if_pos h.line_pos, if_pos h.column_pos]
    rfl
  rw [message, h.path_eq]
  simp only [hplace]
  apply String.toList_injective
  simp only [String.toList_append, List.append_assoc]
  rfl

/-- **The place is read back from the message**, with the wording behind it as it is. -/
theorem Placed.parse_message (h : d.Placed source) :
    Location.parse d.message = .ok (some (⟨source, d.line, d.column⟩, " " ++ d.text)) := by
  rw [h.message_eq]
  exact Location.parse_toString_append h.spellable (" " ++ d.text)

/-- A diagnostic that names a file is not changed by naming others. -/
theorem foldl_withPath (h : d.path = some source) (paths : List String) :
    paths.foldl withPath d = d := by
  induction paths with
  | nil => rfl
  | cons path paths ih =>
    have hsame : d.withPath path = d := by
      cases d with
      | mk cause named line column =>
        obtain rfl : named = some source := h
        rfl
    rw [List.foldl_cons, hsame, ih]

end Placed

end Diagnostic

namespace Dump

open CallAtlas.Location (IsFile digitCount digitLimit)
open CallAtlas.Text

/-! ## Coordinates -/

theorem lineAt_le (before : List Char) : lineAt before ≤ before.length + 1 :=
  Nat.succ_le_succ List.count_le_length

theorem columnAt_le (before : List Char) : columnAt before ≤ before.length + 1 := by
  obtain ⟨above, line, hbefore, -, -, hcolumn⟩ := exists_columnAt_eq before
  rw [hcolumn, hbefore, List.length_append]
  omega

/-- A coordinate in a text has no more digits than are read, unless the text is that long. -/
theorem digitCount_le_of_le {n length : Nat} (hn : n ≤ length + 1)
    (hlength : length < 10 ^ digitLimit - 1) : digitCount n ≤ digitLimit := by
  rw [Location.digitCount_natCast, Nat.length_toDigits_le_iff (by decide) (by decide)]
  omega

/-- The diagnostic of a text that is no dump concerns a place in the file named for it. -/
theorem placed_of_parse {text source : String} {d : Diagnostic} (hsource : IsFile source.toList)
    (hlength : text.length < 10 ^ digitLimit - 1) (h : parse text (some source) = .error d) :
    d.Placed source := by
  unfold parse at h
  split at h
  · cases h
  · next left hread =>
    obtain rfl := Except.error.inj h
    -- the place is behind a part of the text, which is no longer than all of it
    have hbefore : (text.toList.take (text.toList.length - left)).length ≤ text.length := by
      rw [← String.length_toList]
      exact List.length_take_le' _ _
    constructor
    · rfl
    · exact hsource
    · exact Int.natCast_pos.mpr (Nat.succ_pos _)
    · exact digitCount_le_of_le (Nat.le_trans (lineAt_le _) (Nat.succ_le_succ hbefore)) hlength
    · exact Int.natCast_pos.mpr (Nat.succ_pos _)
    · exact digitCount_le_of_le (Nat.le_trans (columnAt_le _) (Nat.succ_le_succ hbefore)) hlength

/-- **The place at which a text is refused is read back from the message**: line and column count
from one, and the message is read as the location of them in the file named for the text, with the
wording behind it.  Naming further files changes nothing. -/
theorem refusal_read_as_location {text source : String} {d : Diagnostic}
    (hsource : IsFile source.toList) (hlength : text.length < 10 ^ digitLimit - 1)
    (h : parse text (some source) = .error d) :
    1 ≤ d.line ∧ 1 ≤ d.column ∧
      Location.parse d.message = .ok (some (⟨source, d.line, d.column⟩, " " ++ d.text)) ∧
      ∀ paths : List String, (paths.foldl Diagnostic.withPath d).message = d.message := by
  have hplaced := placed_of_parse hsource hlength h
  refine ⟨hplaced.line_pos, hplaced.column_pos, hplaced.parse_message, ?_⟩
  intro paths
  rw [Diagnostic.foldl_withPath hplaced.path_eq]

/-- A text in a file on a drive, refused before an excerpt with colons. -/
theorem refusal_read_as_location_drive :
    let text := "graph: \x7b\n  :3:4: \x7d"
    let fault : Diagnostic := ⟨.malformedDump (.near ":3:4: \x7d"), some "C:\\a.ci", 2, 3⟩
    parse text (some "C:\\a.ci") = .error fault ∧
      Location.parse fault.message = .ok (some (⟨"C:\\a.ci", 2, 3⟩, " " ++ fault.text)) := by
  intro text fault
  have hparse : parse text (some "C:\\a.ci") = .error fault := by decide +kernel
  have hfile : IsFile "C:\\a.ci".toList :=
    .inr ⟨'C', "\\a.ci".toList, rfl, by decide, by decide⟩
  have hlength : text.length < 10 ^ digitLimit - 1 := by
    decide +kernel
  obtain ⟨-, -, hread, -⟩ := refusal_read_as_location hfile hlength hparse
  exact ⟨hparse, hread⟩

end Dump

end CallAtlas
