import CallAtlas.Proofs.Location.RoundTrip

/-!
# Locations by their segments

A location is read in one pass, colon by colon.  What comes of it follows from the segments between
the colons, all of them at once: the first ones are the file, the next is the line, the next the
column, and those behind it are given back as they are.  A text without the shape of a location has
none, whatever its other segments are; in a text of that shape the line is read before the column.

## Main definitions

* `segments source`: the segments of a text, between its colons
* `Shapeless`, `Shaped`: segments without the shape of a location, and with it
* `IsNumeral digits`, `IsLegible digits`: a text of ASCII digits, and one that is read as a number
* `valueOf digits`: the number that it is read as
* `BySegments source segments result`: what the segments of a text are read as

## Main results

* `readCoordinates_of_segments`: the numbers of a location by their segments
* `Shaped.parse_eq`, `Shapeless.parse_eq`: a text with the shape of a location, and one without
* `exists_bySegments`: all segments are read as something
* `parse_eq_iff_bySegments`: reading a location, by the segments of the text
-/

namespace CallAtlas.Location

/-! ## Segments -/

/-- The segments of a text, between its colons. -/
def segments (source : String) : List (List Char) :=
  source.toList.splitOn ':'

/-- Segments without the shape of a location: a single one, an empty one in front, or a drive letter
with no more than one behind it. -/
inductive Shapeless : List (List Char) → Prop
  | single (segment : List Char) : Shapeless [segment]
  | headless (behind : List (List Char)) : Shapeless ([] :: behind)
  | drive (letter : Char) (segment : List Char) : Shapeless [[letter], segment]

/-- Segments of the shape of a location, with the file, the line, and the segments behind the
line. -/
inductive Shaped : List (List Char) → List Char → List Char → List (List Char) → Prop
  | plain {file line : List Char} {behind : List (List Char)} (hfile : 2 ≤ file.length) :
      Shaped (file :: line :: behind) file line behind
  | drive (letter : Char) (segment line : List Char) (behind : List (List Char)) :
      Shaped ([letter] :: segment :: line :: behind) (letter :: ':' :: segment) line behind

/-- A text of ASCII digits, at least one. -/
def IsNumeral (digits : List Char) : Prop :=
  digits ≠ [] ∧ ∀ c ∈ digits, c.isDigit = true

/-- A number as it is read: ASCII digits, and no more of them than are read. -/
def IsLegible (digits : List Char) : Prop :=
  IsNumeral digits ∧ digits.length ≤ digitLimit

/-- The number that digits are read as; no digits are zero. -/
def valueOf (digits : List Char) : Nat :=
  Nat.ofDigitChars 10 digits 0

/-- **What the segments of the text `source` are read as.**  A missing or empty column is no column,
and counts as zero. -/
inductive BySegments (source : String) (segments : List (List Char)) :
    Except Fault (Option (Location × String)) → Prop
  | shapeless (hshape : Shapeless segments) : BySegments source segments (.ok none)
  | lineNoNumeral {file line : List Char} {behind : List (List Char)}
      (hshape : Shaped segments file line behind) (hline : ¬ IsNumeral line) :
      BySegments source segments (.error (.notANumber .line (String.ofList line) source))
  | lineTooLong {file line : List Char} {behind : List (List Char)}
      (hshape : Shaped segments file line behind) (hline : IsNumeral line)
      (hlimit : digitLimit < line.length) :
      BySegments source segments (.error (.tooManyDigits line.length))
  | columnNoNumeral {file line column : List Char} {behind : List (List Char)}
      (hshape : Shaped segments file line behind) (hline : IsLegible line)
      (hbehind : behind.head? = some column) (hne : column ≠ []) (hcolumn : ¬ IsNumeral column) :
      BySegments source segments (.error (.notANumber .column (String.ofList column) source))
  | columnTooLong {file line column : List Char} {behind : List (List Char)}
      (hshape : Shaped segments file line behind) (hline : IsLegible line)
      (hbehind : behind.head? = some column) (hcolumn : IsNumeral column)
      (hlimit : digitLimit < column.length) :
      BySegments source segments (.error (.tooManyDigits column.length))
  | location {file line : List Char} {behind : List (List Char)}
      (hshape : Shaped segments file line behind) (hline : IsLegible line)
      (hcolumn : ∀ column, behind.head? = some column → column ≠ [] → IsLegible column) :
      BySegments source segments
        (.ok (some (⟨String.ofList file, valueOf line, valueOf (behind.headD [])⟩,
          String.ofList ([':'].intercalate behind.tail))))

/-- The column that the segments behind the line are read as. -/
def readColumn (behind : List (List Char)) (source : String) : Except Fault Nat :=
  match behind.headD [] with
  | [] => .ok 0
  | c :: column => readNumber .column (c :: column) source

/-! ## Cutting -/

section Cutting

variable {text : List Char}

theorem eq_of_cut_eq_none {head : List Char} (h : cut text = (head, none)) :
    ':' ∉ text ∧ head = text := by
  have hcolon : ':' ∉ text := by
    intro hmem
    obtain ⟨before, after, rfl, hbefore⟩ := List.eq_append_cons_of_mem hmem
    rw [cut_append_colon after hbefore] at h
    cases (Prod.mk.inj h).2
  rw [cut_of_notMem hcolon] at h
  exact ⟨hcolon, (Prod.mk.inj h).1.symm⟩

/-- A text without a colon is a single segment. -/
theorem splitOn_of_notMem (h : ':' ∉ text) : text.splitOn ':' = [text] := by
  refine List.splitOnP_eq_singleton fun c hc => beq_false_of_ne ?_
  rintro rfl
  exact h hc

/-- The segments on both sides of a colon. -/
theorem splitOn_append_colon (front behind : List Char) :
    (front ++ ':' :: behind).splitOn ':' = front.splitOn ':' ++ behind.splitOn ':' :=
  List.splitOnP_append_cons (p := (· == ':')) front behind (beq_self_eq_true ':')

/-- A text is cut behind its first segment. -/
theorem splitOn_eq_of_cut (text : List Char) :
    text.splitOn ':' = (cut text).1 :: ((cut text).2.map (List.splitOn ':')).getD [] := by
  rcases hcut : cut text with ⟨head, _ | tail⟩
  · obtain ⟨hcolon, rfl⟩ := eq_of_cut_eq_none hcut
    exact splitOn_of_notMem hcolon
  · obtain ⟨hhead, rfl⟩ := of_cut hcut
    rw [splitOn_append_colon, splitOn_of_notMem hhead]
    rfl

theorem cut_of_splitOn_singleton {head : List Char} (h : text.splitOn ':' = [head]) :
    cut text = (head, none) := by
  rw [splitOn_eq_of_cut] at h
  rcases hcut : cut text with ⟨head', _ | tail⟩
  · rw [hcut] at h
    obtain rfl : head' = head := (List.cons.inj h).1
    rfl
  · rw [hcut] at h
    exact absurd (List.cons.inj h).2 (List.splitOnP_ne_nil _ tail)

theorem cut_of_splitOn_cons {head next : List Char} {behind : List (List Char)}
    (h : text.splitOn ':' = head :: next :: behind) :
    ∃ tail, cut text = (head, some tail) ∧ tail.splitOn ':' = next :: behind := by
  rw [splitOn_eq_of_cut] at h
  rcases hcut : cut text with ⟨head', _ | tail⟩
  · rw [hcut] at h
    cases (List.cons.inj h).2
  · rw [hcut] at h
    obtain ⟨rfl, htail⟩ := List.cons.inj h
    exact ⟨tail, rfl, htail⟩

end Cutting

/-! ## Reading -/

section Reading

variable {source : String} {digits : List Char}

theorem readNumber_of_not_isNumeral (h : ¬ IsNumeral digits) (coordinate : Coordinate)
    (source : String) :
    readNumber coordinate digits source =
      .error (.notANumber coordinate (String.ofList digits) source) := by
  have hdigits : (digits.isEmpty || !digits.all Char.isDigit) = true := by
    by_contra hnone
    refine h ⟨?_, ?_⟩
    · rintro rfl
      exact hnone rfl
    · simpa using (not_or.mp (mt (Bool.or_eq_true _ _).mpr hnone)).2
  rw [readNumber, if_pos hdigits]

theorem IsNumeral.readNumber_eq (h : IsNumeral digits) (coordinate : Coordinate)
    (source : String) :
    readNumber coordinate digits source =
      if digitLimit < digits.length then .error (.tooManyDigits digits.length)
      else .ok (valueOf digits) := by
  have hdigits : (digits.isEmpty || !digits.all Char.isDigit) = false := by
    simp [h.1, List.all_eq_true.mpr h.2]
  rw [readNumber, hdigits]
  rfl

theorem IsLegible.readNumber_eq (h : IsLegible digits) (coordinate : Coordinate)
    (source : String) :
    readNumber coordinate digits source = .ok (valueOf digits) := by
  rw [h.1.readNumber_eq, if_neg (Nat.not_lt.mpr h.2)]

theorem readColumn_of_ne_nil {column : List Char} {behind : List (List Char)}
    (hbehind : behind.head? = some column) (hne : column ≠ []) (source : String) :
    readColumn behind source = readNumber .column column source := by
  obtain ⟨c, column, rfl⟩ := List.exists_cons_of_ne_nil hne
  rw [readColumn, List.headD_eq_head?_getD, hbehind]
  rfl

/-- A legible column, or none, is read as its value. -/
theorem readColumn_eq_ok {behind : List (List Char)}
    (h : ∀ column, behind.head? = some column → column ≠ [] → IsLegible column)
    (source : String) :
    readColumn behind source = .ok (valueOf (behind.headD [])) := by
  rcases behind with _ | ⟨_ | ⟨c, column⟩, behind⟩
  · rfl
  · rfl
  · exact (h (c :: column) rfl (by simp)).readNumber_eq .column source

/-- **The numbers of a location by their segments.** -/
theorem readCoordinates_of_segments {file line text : List Char} {behind : List (List Char)}
    (h : text.splitOn ':' = line :: behind) (source : String) :
    readCoordinates file text source = (do
      let lineNumber ← readNumber .line line source
      let columnNumber ← readColumn behind source
      return (⟨String.ofList file, lineNumber, columnNumber⟩,
        String.ofList ([':'].intercalate behind.tail))) := by
  rcases behind with _ | ⟨column, _ | ⟨next, behind⟩⟩
  · rw [readCoordinates, cut_of_splitOn_singleton h]
    rfl
  · obtain ⟨tail, hcut, htail⟩ := cut_of_splitOn_cons h
    rw [readCoordinates, hcut]
    simp only [cut_of_splitOn_singleton htail]
    cases column <;> rfl
  · obtain ⟨tail, hcut, htail⟩ := cut_of_splitOn_cons h
    obtain ⟨rest, hcut', hrest⟩ := cut_of_splitOn_cons htail
    -- what is left behind the column is its segments joined again
    have hjoin : [':'].intercalate (next :: behind) = rest := by
      rw [← hrest, List.intercalate_splitOn]
    rw [readCoordinates, hcut]
    simp only [hcut', List.tail_cons, hjoin]
    cases column <;> rfl

/-- A text of the shape of a location is read by its numbers, behind the file. -/
theorem Shaped.exists_text {file line : List Char} {behind : List (List Char)}
    (h : Shaped (segments source) file line behind) :
    ∃ text, text.splitOn ':' = line :: behind ∧
      parse source = (readCoordinates file text source).map some := by
  unfold segments at h
  generalize hsegments : source.toList.splitOn ':' = parts at h
  cases h with
  | plain hfile =>
    obtain ⟨text, hcut, htext⟩ := cut_of_splitOn_cons hsegments
    refine ⟨text, htext, parse_of_file (.inl ⟨(of_cut hcut).1, hfile⟩) (of_cut hcut).2⟩
  | drive letter segment =>
    obtain ⟨tail, hcut, htail⟩ := cut_of_splitOn_cons hsegments
    obtain ⟨text, hcut', htext⟩ := cut_of_splitOn_cons htail
    obtain ⟨hletter, hsource⟩ := of_cut hcut
    obtain ⟨hsegment, rfl⟩ := of_cut hcut'
    have hne : letter ≠ ':' := fun heq => hletter (by simp [heq])
    refine ⟨text, htext, parse_of_file (.inr ⟨letter, segment, rfl, hne, hsegment⟩) ?_⟩
    rw [hsource]
    rfl

/-- **A text of the shape of a location is read by its segments.** -/
theorem Shaped.parse_eq {file line : List Char} {behind : List (List Char)}
    (h : Shaped (segments source) file line behind) :
    parse source = (do
      let lineNumber ← readNumber .line line source
      let columnNumber ← readColumn behind source
      return some (⟨String.ofList file, lineNumber, columnNumber⟩,
        String.ofList ([':'].intercalate behind.tail))) := by
  obtain ⟨text, htext, hparse⟩ := h.exists_text
  rw [hparse, readCoordinates_of_segments htext]
  cases readNumber .line line source with
  | error fault => rfl
  | ok lineNumber => cases readColumn behind source <;> rfl

theorem Shapeless.parse_eq (h : Shapeless (segments source)) : parse source = .ok none := by
  unfold segments at h
  generalize hsegments : source.toList.splitOn ':' = parts at h
  cases h with
  | single segment => rw [parse, cut_of_splitOn_singleton hsegments]
  | headless behind =>
    cases behind with
    | nil => rw [parse, cut_of_splitOn_singleton hsegments]
    | cons next behind =>
      obtain ⟨tail, hcut, -⟩ := cut_of_splitOn_cons hsegments
      rw [parse, hcut]
  | drive letter segment =>
    obtain ⟨tail, hcut, htail⟩ := cut_of_splitOn_cons hsegments
    rw [parse, hcut]
    simp only [cut_of_splitOn_singleton htail]

/-- Segments have the shape of a location or do not. -/
theorem shapeless_or_shaped (source : String) :
    Shapeless (segments source) ∨
      ∃ file line behind, Shaped (segments source) file line behind := by
  rcases hsegments : segments source with _ | ⟨_ | ⟨letter, _ | ⟨next, head⟩⟩, rest⟩
  · exact absurd hsegments (List.splitOnP_ne_nil _ _)
  · exact .inl (.headless rest)
  · rcases rest with _ | ⟨segment, _ | ⟨line, behind⟩⟩
    · exact .inl (.single [letter])
    · exact .inl (.drive letter segment)
    · exact .inr ⟨_, line, behind, .drive letter segment line behind⟩
  · rcases rest with _ | ⟨line, behind⟩
    · exact .inl (.single _)
    · exact .inr ⟨_, line, behind, .plain (by simp)⟩

/-- All segments are read as something. -/
theorem exists_bySegments (source : String) :
    ∃ result, BySegments source (segments source) result := by
  rcases shapeless_or_shaped source with hshape | ⟨file, line, behind, hshape⟩
  · exact ⟨_, .shapeless hshape⟩
  by_cases hline : IsNumeral line
  swap
  · exact ⟨_, .lineNoNumeral hshape hline⟩
  rcases Nat.lt_or_ge digitLimit line.length with hlimit | hlimit
  · exact ⟨_, .lineTooLong hshape hline hlimit⟩
  -- the line is legible: the column decides
  rcases behind with _ | ⟨column, behind⟩
  · exact ⟨_, .location hshape ⟨hline, hlimit⟩ (by simp)⟩
  by_cases hcolumn : IsNumeral column
  · rcases Nat.lt_or_ge digitLimit column.length with hlimit' | hlimit'
    · exact ⟨_, .columnTooLong hshape ⟨hline, hlimit⟩ rfl hcolumn hlimit'⟩
    · refine ⟨_, .location hshape ⟨hline, hlimit⟩ ?_⟩
      rintro _ ⟨⟩ -
      exact ⟨hcolumn, hlimit'⟩
  · by_cases hne : column = []
    · refine ⟨_, .location hshape ⟨hline, hlimit⟩ ?_⟩
      rintro _ ⟨⟩ hne'
      exact absurd hne hne'
    · exact ⟨_, .columnNoNumeral hshape ⟨hline, hlimit⟩ rfl hne hcolumn⟩

/-- A text is read as its segments are. -/
theorem BySegments.parse_eq {result : Except Fault (Option (Location × String))}
    (h : BySegments source (segments source) result) : parse source = result := by
  cases h with
  | shapeless hshape => exact hshape.parse_eq
  | lineNoNumeral hshape hline =>
    rw [hshape.parse_eq, readNumber_of_not_isNumeral hline]
    rfl
  | lineTooLong hshape hline hlimit =>
    rw [hshape.parse_eq, hline.readNumber_eq, if_pos hlimit]
    rfl
  | columnNoNumeral hshape hline hbehind hne hcolumn =>
    rw [hshape.parse_eq, hline.readNumber_eq, readColumn_of_ne_nil hbehind hne,
      readNumber_of_not_isNumeral hcolumn]
    rfl
  | columnTooLong hshape hline hbehind hcolumn hlimit =>
    rw [hshape.parse_eq, hline.readNumber_eq, readColumn_of_ne_nil hbehind hcolumn.1,
      hcolumn.readNumber_eq, if_pos hlimit]
    rfl
  | location hshape hline hcolumn =>
    rw [hshape.parse_eq, hline.readNumber_eq, readColumn_eq_ok hcolumn]
    rfl

/-- **A location is read by the segments of its text**: what `parse` gives for a text is what its
segments are read as, and nothing else. -/
theorem parse_eq_iff_bySegments (source : String)
    (result : Except Fault (Option (Location × String))) :
    parse source = result ↔ BySegments source (segments source) result := by
  refine ⟨?_, BySegments.parse_eq⟩
  rintro rfl
  obtain ⟨result, h⟩ := exists_bySegments source
  rw [h.parse_eq]
  exact h

end Reading

end CallAtlas.Location
