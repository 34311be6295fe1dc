import CallAtlas.Graph.Basic

/-!
# Places told by texts

What a text tells of a place, and what can be wrong with it.  A malformed place is refused or passed
over, as is asked for; a number with too many digits is always refused.

## Main definitions

* `siteTold`, `Readable`: the place that a text tells, and whether it can be read
* `Misplaced strictness text failure`: why a place cannot be read

## Main results

* `readSite_eq_ok_iff`: a place is read if the text can be read, and is what the text tells
* `readSite_eq_error_iff`: reading a place fails for what is wrong with it
-/

namespace CallAtlas.Graph

/-- The place that an optional text tells, if it tells one. -/
def siteTold : Option String → Option Location
  | none => none
  | some text =>
    match Location.ofString? text with
    | .ok site => site
    | .error _ => none

/-- A text that can be read for its place: it has no malformed place, or one that may be passed
over. -/
def Readable (strictness : Strictness) : Option String → Prop
  | none => True
  | some text =>
    match Location.ofString? text with
    | .ok _ => True
    | .error (.notANumber ..) => strictness = .lenient
    | .error (.tooManyDigits _) => False

/-- Why a place cannot be read: it has a number with too many digits or, unless places are read
leniently, none where there should be one. -/
inductive Misplaced (strictness : Strictness) (text : String) : Failure → Prop
  | digits {count : Nat} (hplace : Location.ofString? text = .error (.tooManyDigits count)) :
      Misplaced strictness text (.digitLimit count)
  | place {coordinate : Location.Coordinate} {digits source : String}
      (hstrict : strictness = .strict)
      (hplace : Location.ofString? text = .error (.notANumber coordinate digits source)) :
      Misplaced strictness text (.ofCause (.location (.notANumber coordinate digits source)))

section Reading

variable {strictness : Strictness}

theorem readSite_eq_ok_iff {text : Option String} {site : Option Location} :
    (readSite strictness text).result = .ok site ↔
      Readable strictness text ∧ site = siteTold text := by
  cases text with
  | none => simp [readSite, Readable, siteTold, Reading.succeed, eq_comm]
  | some text =>
    simp only [readSite, Readable, siteTold]
    rcases Location.ofString? text with (⟨coordinate, digits, source⟩ | count) | found
    · cases strictness <;> simp [Reading.fail, eq_comm]
    · simp [Reading.fail]
    · simp [Reading.succeed, eq_comm]

theorem misplaced_of_readSite {text : String} {failure : Failure}
    (h : (readSite strictness (some text)).result = .error failure) :
    Misplaced strictness text failure := by
  unfold readSite at h
  rcases hplace : Location.ofString? text with (⟨coordinate, digits, source⟩ | count) | site
  · simp only [hplace] at h
    cases strictness with
    | strict =>
      rw [← Except.error.inj h]
      exact .place rfl hplace
    | lenient => cases h
  · simp only [hplace] at h
    rw [← Except.error.inj h]
    exact .digits hplace
  · simp [hplace, Reading.succeed] at h

theorem readSite_eq_error_iff {text : String} {failure : Failure} :
    (readSite strictness (some text)).result = .error failure ↔
      Misplaced strictness text failure := by
  refine ⟨misplaced_of_readSite, ?_⟩
  rintro (hplace | ⟨rfl, hplace⟩)
  · simp [readSite, hplace, Reading.fail]
  · simp [readSite, hplace, Reading.fail, Failure.ofLocationFault]

end Reading

end CallAtlas.Graph
