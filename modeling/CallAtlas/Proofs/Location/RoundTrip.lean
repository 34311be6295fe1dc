import CallAtlas.Proofs.Location.Spelling
import Mathlib.Algebra.Group.Nat.Defs
import Mathlib.Data.Set.Operations

/-!
# Locations that are read

What can be read as a location, and what reading gives.  A location that is read has a file of one
of two shapes, for the first colon ends it unless a drive letter stands before it, and numbers that
are not negative and have no more digits than are read.  These are the locations that are read back
when they are written, and no other is: a file of another shape is cut at another colon.

## Main definitions

* `Writable loc`: both numbers of a location can be shown
* `IsRead loc`: some text is read as `loc`

## Main results

* `of_parse`: the location that a text is read as, and where it stands in the text
* `isRead_iff_spellable`: which locations are read
* `parse_inverts_toString`: a location is read back exactly if its file is of one of the two shapes
-/

namespace CallAtlas.Location

/-! ## Numbers -/

theorem digitCount_natCast (n : Nat) : digitCount n = (Nat.toDigits 10 n).length := by
  rw [digitCount, Int.natAbs_natCast, Nat.toString_eq_ofList_toDigits, String.length_ofList]

theorem digitCount_of_nonneg {n : Int} (h : 0 ≤ n) : digitCount n = (toString n).length := by
  obtain ⟨n, rfl⟩ := Int.eq_ofNat_of_zero_le h
  rw [digitCount_natCast, ← String.length_toList, toList_toString_natCast]

theorem spellable_iff {loc : Location} :
    loc.Spellable ↔ IsFile loc.file.toList ∧ 0 ≤ loc.line ∧ digitCount loc.line ≤ digitLimit ∧
      0 ≤ loc.column ∧ digitCount loc.column ≤ digitLimit := by
  constructor
  · rintro ⟨hfile, hline, hline', hcolumn, hcolumn'⟩
    rw [← digitCount_of_nonneg hline] at hline'
    rw [← digitCount_of_nonneg hcolumn] at hcolumn'
    exact ⟨hfile, hline, hline', hcolumn, hcolumn'⟩
  · rintro ⟨hfile, hline, hline', hcolumn, hcolumn'⟩
    rw [digitCount_of_nonneg hline] at hline'
    rw [digitCount_of_nonneg hcolumn] at hcolumn'
    exact ⟨hfile, hline, hline', hcolumn, hcolumn'⟩

/-- A location with numbers of no more digits than are shown. -/
def Writable (loc : Location) : Prop :=
  digitCount loc.line ≤ digitLimit ∧ digitCount loc.column ≤ digitLimit

theorem Spellable.writable {loc : Location} (h : loc.Spellable) : loc.Writable := by
  obtain ⟨-, -, hline, -, hcolumn⟩ := spellable_iff.mp h
  exact ⟨hline, hcolumn⟩

/-- A number past the greatest that is shown. -/
theorem digitLimit_lt_digitCount : digitLimit < digitCount ((10 ^ digitLimit : Nat) : Int) := by
  rw [← Nat.not_le, digitCount_natCast, Nat.length_toDigits_le_iff (by decide) (by decide)]
  exact Nat.lt_irrefl _

theorem ofDigitChars_lt {digits : List Char} (h : ∀ c ∈ digits, c.isDigit = true) :
    Nat.ofDigitChars 10 digits 0 < 10 ^ digits.length := by
  induction digits with
  | nil => simp
  | cons c digits ih =>
    obtain ⟨hc, hdigits⟩ := List.forall_mem_cons.mp h
    have hrest := ih hdigits
    have hdigit : c.toNat - '0'.toNat ≤ 9 := by
      have hle := (Char.isDigit_iff_toNat.mp hc).2
      rw [show '9'.toNat = '0'.toNat + 9 from rfl] at hle
      omega
    rw [Nat.ofDigitChars_cons, Nat.ofDigitChars_eq_ofDigitChars_zero, Nat.mul_zero, Nat.zero_add,
      List.length_cons, Nat.pow_succ]
    have hlead := Nat.mul_le_mul_left (10 ^ digits.length) hdigit
    omega

/-- A number that is read is written with no more digits than are read, zeros in front apart. -/
theorem length_toDigits_of_readNumber {coordinate : Coordinate} {digits : List Char}
    {source : String} {n : Nat} (h : readNumber coordinate digits source = .ok n) :
    (Nat.toDigits 10 n).length ≤ digitLimit := by
  unfold readNumber at h
  split at h
  · cases h
  · next hdigits =>
    split at h
    · cases h
    · next hlimit =>
      obtain rfl := Except.ok.inj h
      simp only [Bool.or_eq_true, Bool.not_eq_true', not_or, Bool.not_eq_true,
        Bool.not_eq_false, List.all_eq_true] at hdigits
      have hpos : 0 < digits.length := by
        cases digits with
        | nil => simp at hdigits
        | cons c digits => simp
      have hlt := ofDigitChars_lt hdigits.2
      have hle := (Nat.length_toDigits_le_iff (by decide) hpos).mpr hlt
      omega

/-! ## Locations in texts -/

theorem of_cut {text head rest : List Char} (h : cut text = (head, some rest)) :
    ':' ∉ head ∧ text = head ++ ':' :: rest := by
  induction text generalizing head with
  | nil => simp [cut] at h
  | cons c text ih =>
    rw [cut] at h
    split at h
    · next hc =>
      obtain ⟨rfl, htext⟩ := Prod.mk.inj h
      obtain rfl := Option.some.inj htext
      exact ⟨by simp, by rw [hc]; rfl⟩
    · next hc =>
      obtain ⟨rfl, htail⟩ := Prod.mk.inj h
      obtain ⟨hhead, htext⟩ := ih (Prod.ext rfl htail)
      refine ⟨?_, ?_⟩
      · simpa [Ne.symm hc] using hhead
      · rw [List.cons_append, ← htext]

theorem exists_of_bind_eq_ok {α β : Type} {x : Except Fault α} {f : α → Except Fault β} {b : β}
    (h : (x >>= f) = .ok b) : ∃ a, x = .ok a ∧ f a = .ok b := by
  cases x with
  | error fault => cases h
  | ok a => exact ⟨a, rfl, h⟩

/-- What is read behind a file are two numbers within the limit. -/
theorem of_readCoordinates {file text : List Char} {source rest : String} {loc : Location}
    (h : readCoordinates file text source = .ok (loc, rest)) :
    ∃ line column : Nat, loc = ⟨String.ofList file, line, column⟩ ∧
      (Nat.toDigits 10 line).length ≤ digitLimit ∧
      (Nat.toDigits 10 column).length ≤ digitLimit := by
  have hzero : (Nat.toDigits 10 0).length ≤ digitLimit := by decide
  rw [readCoordinates] at h
  obtain ⟨line, hline, h⟩ := exists_of_bind_eq_ok h
  have hlength := length_toDigits_of_readNumber hline
  cases hbehind : (cut text).2 with
  | none =>
    rw [hbehind] at h
    obtain ⟨rfl, -⟩ := Prod.mk.inj (Except.ok.inj h)
    exact ⟨line, 0, rfl, hlength, hzero⟩
  | some behind =>
    -- an empty column counts as zero
    simp only [hbehind] at h
    split at h
    · obtain ⟨rfl, -⟩ := Prod.mk.inj (Except.ok.inj h)
      exact ⟨line, 0, rfl, hlength, hzero⟩
    · obtain ⟨column, hcolumn, h⟩ := exists_of_bind_eq_ok h
      obtain ⟨rfl, -⟩ := Prod.mk.inj (Except.ok.inj h)
      exact ⟨line, column, rfl, hlength, length_toDigits_of_readNumber hcolumn⟩

/-- What is read behind a file is a location that can be written. -/
theorem spellable_of_readCoordinates {file text : List Char} {source rest : String}
    {loc : Location} (hfile : IsFile file)
    (h : (readCoordinates file text source).map some = .ok (some (loc, rest))) :
    loc.Spellable ∧ loc.file.toList = file := by
  cases hread : readCoordinates file text source with
  | error fault =>
    rw [hread] at h
    cases h
  | ok found =>
    rw [hread] at h
    obtain rfl := Option.some.inj (Except.ok.inj h)
    obtain ⟨line, column, rfl, hline, hcolumn⟩ := of_readCoordinates hread
    have hname : (String.ofList file).toList = file := String.toList_ofList
    refine ⟨spellable_iff.mpr ⟨by rwa [hname], Int.natCast_nonneg line, ?_,
      Int.natCast_nonneg column, ?_⟩, hname⟩
    · rwa [digitCount_natCast]
    · rwa [digitCount_natCast]

/-- **What is read as a location** can be written, and stands at the head of the text, up to the
colon behind its file. -/
theorem of_parse {source rest : String} {loc : Location}
    (h : parse source = .ok (some (loc, rest))) :
    loc.Spellable ∧ ∃ behind, source.toList = loc.file.toList ++ ':' :: behind := by
  unfold parse at h
  split at h
  · cases h
  · cases h
  · next drive text hcut =>
    -- a single character before the first colon takes the next segment along
    obtain ⟨hdrive, hsource⟩ := of_cut hcut
    split at h
    · cases h
    · next segment behind hsegment =>
      obtain ⟨hcolon, rfl⟩ := of_cut hsegment
      have hfile : IsFile (drive :: ':' :: segment) :=
        .inr ⟨drive, segment, rfl, fun heq => hdrive (by simp [heq]), hcolon⟩
      obtain ⟨hspellable, hname⟩ := spellable_of_readCoordinates hfile h
      exact ⟨hspellable, behind, by rw [hsource, hname]; rfl⟩
  · next file behind hne hne' hcut =>
    obtain ⟨hcolon, hsource⟩ := of_cut hcut
    have hlength : 2 ≤ file.length := by
      rcases file with _ | ⟨c, _ | ⟨d, file⟩⟩
      · exact absurd rfl hne
      · exact absurd rfl (hne' c)
      · simp
    obtain ⟨hspellable, hname⟩ := spellable_of_readCoordinates (.inl ⟨hcolon, hlength⟩) h
    exact ⟨hspellable, behind, by rw [hsource, hname]⟩

theorem exists_parse_of_ofString? {source : String} {loc : Location}
    (h : ofString? source = .ok (some loc)) :
    ∃ rest, parse source = .ok (some (loc, rest)) := by
  unfold ofString? at h
  cases hparse : parse source with
  | error fault =>
    rw [hparse] at h
    cases h
  | ok found =>
    rw [hparse] at h
    obtain ⟨⟨_, rest⟩, rfl, rfl⟩ := Option.map_eq_some_iff.mp (Except.ok.inj h)
    exact ⟨rest, rfl⟩

/-! ## Reading back -/

/-- A location that some text is read as. -/
def IsRead (loc : Location) : Prop :=
  ∃ text rest, parse text = .ok (some (loc, rest))

section ReadBack

variable {loc : Location}

theorem parse_toString (hloc : loc.Spellable) :
    parse loc.toString = .ok (some (loc, "")) :=
  parse_of_spelling hloc (by simp) (List.append_nil _).symm

theorem parse_toString_append (hloc : loc.Spellable) (rest : String) :
    parse (loc.toString ++ ":" ++ rest) = .ok (some (loc, rest)) := by
  have htext :
      (loc.toString ++ ":" ++ rest).toList = loc.toString.toList ++ ':' :: rest.toList := by
    rw [String.toList_append, String.toList_append, List.append_assoc]
    rfl
  rw [parse_of_spelling hloc (by simp) htext, List.tail_cons, String.ofList_toList]

/-- The locations that are read are those that can be written. -/
theorem isRead_iff_spellable : loc.IsRead ↔ loc.Spellable := by
  constructor
  · rintro ⟨text, rest, htext⟩
    exact (of_parse htext).1
  · intro hloc
    exact ⟨loc.toString, "", parse_toString hloc⟩

end ReadBack

/-- **A location is read back exactly if its file is of one of two shapes**: without a colon and
longer than one character, or a drive letter, a colon and a segment without one.  More text behind
another colon is then given back as it is.  Every location that is read has such a file, and numbers
that are not negative and within the limit; so on these locations writing and reading are inverse to
each other, and no two of them are written alike. -/
theorem parse_inverts_toString :
    (∀ loc : Location, 0 ≤ loc.line → digitCount loc.line ≤ digitLimit →
      0 ≤ loc.column → digitCount loc.column ≤ digitLimit →
      (IsFile loc.file.toList → parse loc.toString = .ok (some (loc, "")) ∧
        ∀ rest, parse (loc.toString ++ ":" ++ rest) = .ok (some (loc, rest))) ∧
      (¬ IsFile loc.file.toList → parse loc.toString ≠ .ok (some (loc, "")))) ∧
    (∀ text loc rest, parse text = .ok (some (loc, rest)) →
      IsFile loc.file.toList ∧ 0 ≤ loc.line ∧ digitCount loc.line ≤ digitLimit ∧
        0 ≤ loc.column ∧ digitCount loc.column ≤ digitLimit) ∧
    (∀ loc, IsRead loc → parse loc.toString = .ok (some (loc, ""))) ∧
    (∀ text loc, IsRead loc → loc.toString = text →
      ∀ loc' rest, parse text = .ok (some (loc', rest)) → loc'.toString = text ∧ rest = "") ∧
    Set.InjOn Location.toString {loc | IsRead loc} := by
  have hback : ∀ loc, IsRead loc → parse loc.toString = .ok (some (loc, "")) :=
    fun loc hloc => parse_toString (isRead_iff_spellable.mp hloc)
  refine ⟨?_, ?_, hback, ?_, ?_⟩
  · intro loc hline hline' hcolumn hcolumn'
    refine ⟨fun hfile => ?_, fun hfile hread => hfile (of_parse hread).1.file⟩
    have hloc : loc.Spellable := spellable_iff.mpr ⟨hfile, hline, hline', hcolumn, hcolumn'⟩
    exact ⟨parse_toString hloc, parse_toString_append hloc⟩
  · intro text loc rest htext
    exact spellable_iff.mp (of_parse htext).1
  · rintro text loc hloc rfl loc' rest hread
    rw [hback loc hloc] at hread
    obtain ⟨rfl, rfl⟩ := Prod.mk.inj (Option.some.inj (Except.ok.inj hread))
    exact ⟨rfl, rfl⟩
  · intro loc hloc loc' hloc' heq
    have hread := hback loc hloc
    rw [heq, hback loc' hloc'] at hread
    exact (Prod.mk.inj (Option.some.inj (Except.ok.inj hread))).1.symm

theorem parse_inverts_toString_drive :
    parse "C::7:12:x:y" = .ok (some (⟨"C:", 7, 12⟩, "x:y")) ∧
      parse "C:7:12" ≠ .ok (some (⟨"C", 7, 12⟩, "")) := by
  obtain ⟨hshape, -⟩ := parse_inverts_toString
  have hdrive : IsFile "C:".toList := .inr ⟨'C', [], rfl, by decide, by simp⟩
  have hletter : ¬ IsFile "C".toList := by
    rintro (⟨-, hlength⟩ | ⟨drive, segment, hfile, -⟩)
    · simp at hlength
    · simp at hfile
  refine ⟨?_, ?_⟩
  · have hread := hshape ⟨"C:", 7, 12⟩ (by decide) (by decide +kernel) (by decide)
      (by decide +kernel)
    exact (hread.1 hdrive).2 "x:y"
  · have hread := hshape ⟨"C", 7, 12⟩ (by decide) (by decide +kernel) (by decide)
      (by decide +kernel)
    exact hread.2 hletter

end CallAtlas.Location
