import CallAtlas.Text.Blank

/-!
# Words of a dump

The smallest parts of a dump's text: identifiers, quoted values and bare values.  Each reader takes
what remains of the text and gives the word at its head with the text behind it, or nothing.

A quoted value is the text between its quotes, word for word: a backslash keeps the next character
from ending the value, and stays.
-/

namespace CallAtlas.Dump

open CallAtlas.Text

/-- A character that can begin an identifier. -/
def isIdentifierStart (c : Char) : Bool :=
  c.isAlpha || c == '_'

/-- A character that can go on an identifier. -/
def isIdentifierChar (c : Char) : Bool :=
  c.isAlphanum || c == '_' || c == '.' || c == '-'

/-- A character that can stand in a bare value. -/
def isBareChar (c : Char) : Bool :=
  !(isBlank c || c == '{' || c == '}' || c == '"')

/-- The identifier at the head of a text. -/
def identifier? : List Char → Option (List Char × List Char)
  | [] => none
  | c :: rest =>
    if isIdentifierStart c then
      some (c :: rest.takeWhile isIdentifierChar, rest.dropWhile isIdentifierChar)
    else
      none

/-- The text up to the quote that ends a quoted value, and the text behind that quote. -/
def quotedBody? : List Char → Option (List Char × List Char)
  | [] => none
  | '"' :: rest => some ([], rest)
  | '\\' :: c :: rest => (quotedBody? rest).map fun (body, after) => ('\\' :: c :: body, after)
  | c :: rest =>
    if c = '\\' then none else (quotedBody? rest).map fun (body, after) => (c :: body, after)

/-- The quoted value at the head of a text, without its quotes. -/
def quoted? : List Char → Option (List Char × List Char)
  | '"' :: rest => quotedBody? rest
  | _ => none

/-- The bare value at the head of a text: as many characters as possible, at least one. -/
def bare? (s : List Char) : Option (List Char × List Char) :=
  match s.takeWhile isBareChar with
  | [] => none
  | word => some (word, s.dropWhile isBareChar)

/-! ## Every word takes some text -/

/-- An identifier takes at least one character. -/
theorem length_lt_of_identifier? {s word rest : List Char}
    (h : identifier? s = some (word, rest)) : rest.length < s.length := by
  cases s with
  | nil => simp [identifier?] at h
  | cons c cs =>
    simp only [identifier?] at h
    split at h
    · simp only [Option.some.injEq, Prod.mk.injEq] at h
      have := (cs.dropWhile_suffix isIdentifierChar).length_le
      rw [← h.2, List.length_cons]
      omega
    · simp at h

/-- The closing quote is taken. -/
theorem length_lt_of_quotedBody? {s body rest : List Char}
    (h : quotedBody? s = some (body, rest)) : rest.length < s.length := by
  fun_induction quotedBody? s generalizing body rest with
  | case1 => simp at h
  | case2 tail =>
    simp only [Option.some.injEq, Prod.mk.injEq] at h
    simp [← h.2]
  | case3 c tail ih =>
    obtain ⟨⟨b, r⟩, hr, heq⟩ := Option.map_eq_some_iff.1 h
    simp only [Prod.mk.injEq] at heq
    have := ih hr
    rw [← heq.2]
    simp only [List.length_cons]
    omega
  | case4 => simp at h
  | case5 c tail _ _ _ ih =>
    obtain ⟨⟨b, r⟩, hr, heq⟩ := Option.map_eq_some_iff.1 h
    simp only [Prod.mk.injEq] at heq
    have := ih hr
    rw [← heq.2]
    simp only [List.length_cons]
    omega

/-- A quoted value takes at least its quotes. -/
theorem length_lt_of_quoted? {s body rest : List Char}
    (h : quoted? s = some (body, rest)) : rest.length < s.length := by
  unfold quoted? at h
  split at h
  · have := length_lt_of_quotedBody? h
    simp only [List.length_cons]
    omega
  · simp at h

/-- A bare value takes at least one character. -/
theorem length_lt_of_bare? {s word rest : List Char}
    (h : bare? s = some (word, rest)) : rest.length < s.length := by
  have hsplit := congrArg List.length (@List.takeWhile_append_dropWhile _ isBareChar s)
  rw [List.length_append] at hsplit
  unfold bare? at h
  split at h
  · simp at h
  · next hne =>
    simp only [Option.some.injEq, Prod.mk.injEq] at h
    have : (s.takeWhile isBareChar).length ≠ 0 := fun h0 => hne (List.eq_nil_of_length_eq_zero h0)
    rw [← h.2]
    omega

end CallAtlas.Dump
