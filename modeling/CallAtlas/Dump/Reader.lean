import CallAtlas.Dump.Block
import CallAtlas.Dump.Word

/-!
# Reading a dump

A document is one block between optional white space:

    document = blanks block blanks
    block    = identifier blanks [":"] blanks "{" blanks (entry blanks)* "}"
    entry    = block | field
    field    = identifier blanks ":" blanks (quoted | bare)

What follows the identifier tells a block from a field, so nothing is read twice.  Reading is all
or nothing; when it fails, the place to blame is where some rule was tried and failed furthest into
the text.  Missing punctuation by itself is blamed only when it is the very first thing to fail.

Places are kept as the amount of text left, so a smaller number lies further into the text.

## Main definitions

* `Blame` — the furthest failure so far;
* `readEntries` — as many entries as there are, with the text behind them;
* `readDocument` — the block of a whole text, or the amount of text left at the place to blame.
-/

namespace CallAtlas.Dump

open CallAtlas.Text

/-- The amount of text left at the furthest failure, once anything has failed. -/
abbrev Blame := Option Nat

namespace Blame

/-- A rule failed where `left` is what remains of the text. -/
def atRule (blame : Blame) (left : List Char) : Blame :=
  match blame with
  | none => some left.length
  | some furthest => some (min furthest left.length)

/-- A punctuation mark was missing where `left` is what remains of the text.  This counts only
before any other failure. -/
def atMark (blame : Blame) (left : List Char) : Blame :=
  match blame with
  | none => some left.length
  | some furthest => some furthest

end Blame

/-- What follows the identifier of an entry. -/
inductive Continuation where
  /-- An opening brace, behind a colon or not; `inner` is the text behind the brace. -/
  | opens (colon : Bool) (inner : List Char)
  /-- A colon and then something else than a brace, which begins the text `value`. -/
  | assigns (value : List Char)
  /-- Neither a colon nor a brace. -/
  | stops

/-- Tells blocks from fields by the text behind an identifier and white space. -/
def continuation : List Char → Continuation
  | ':' :: rest =>
    match skipBlanks rest with
    | '{' :: inner => .opens true inner
    | value => .assigns value
  | '{' :: inner => .opens false inner
  | _ => .stops

/-- The text inside a brace is shorter than the text before it. -/
theorem length_lt_of_opens {head inner : List Char} {colon : Bool}
    (h : continuation head = .opens colon inner) : inner.length < head.length := by
  unfold continuation at h
  split at h
  · next rest =>
    split at h
    · next hskip =>
      simp only [Continuation.opens.injEq] at h
      have hle := length_skipBlanks_le rest
      rw [hskip, h.2, List.length_cons] at hle
      simp only [List.length_cons]
      omega
    · simp at h
  · simp only [Continuation.opens.injEq] at h
    simp [h.2]
  · simp at h

/-- The text behind a colon is shorter than the text before it. -/
theorem length_lt_of_assigns {head value : List Char}
    (h : continuation head = .assigns value) : value.length < head.length := by
  unfold continuation at h
  split at h
  · next rest =>
    split at h
    · simp at h
    · simp only [Continuation.assigns.injEq] at h
      have hle := length_skipBlanks_le rest
      rw [h] at hle
      simp only [List.length_cons]
      omega
  · simp at h
  · simp at h

/-- The value at the head of a text, quoted if it can be and bare otherwise. -/
def readValue (blame : Blame) (s : List Char) : Blame × Option (List Char × List Char) :=
  match quoted? s with
  | some found => (blame, some found)
  | none => (blame.atRule s, bare? s)

/-- A value takes at least one character. -/
theorem length_lt_of_readValue {blame blame' : Blame} {s word rest : List Char}
    (h : readValue blame s = (blame', some (word, rest))) : rest.length < s.length := by
  unfold readValue at h
  split at h
  · next hquoted =>
    simp only [Prod.mk.injEq, Option.some.injEq] at h
    exact length_lt_of_quoted? (h.2 ▸ hquoted)
  · simp only [Prod.mk.injEq] at h
    exact length_lt_of_bare? h.2

/-- The entries at the head of a text, and the text behind them. -/
structure Reading (s : List Char) where
  blame : Blame
  entries : List Entry
  rest : List Char
  rest_le : rest.length ≤ s.length

/-- No entry at the head of a text. -/
def Reading.stop (blame : Blame) (s : List Char) : Reading s :=
  ⟨blame, [], s, Nat.le_refl _⟩

/-- One more entry in front, which took the text up to `t`. -/
def Reading.cons {s t : List Char} (entry : Entry) (more : Reading t) (h : t.length ≤ s.length) :
    Reading s :=
  ⟨more.blame, entry :: more.entries, more.rest, Nat.le_trans more.rest_le h⟩

/-- As many entries as stand at the head of a text. -/
def readEntries (blame : Blame) (s : List Char) : Reading s :=
  if s.isEmpty then .stop blame s
  else
    match hname : identifier? s with
    | none => .stop (blame.atRule s) s
    | some (name, afterName) =>
      have hhead : (skipBlanks afterName).length < s.length :=
        Nat.lt_of_le_of_lt (length_skipBlanks_le _) (length_lt_of_identifier? hname)
      match hnext : continuation (skipBlanks afterName) with
      | .stops => .stop ((blame.atMark (skipBlanks afterName)).atRule s) s
      | .assigns value =>
        match hvalue : readValue ((blame.atMark value).atRule s) value with
        | (blame, none) => .stop ((blame.atRule value).atRule s) s
        | (blame, some (word, after)) =>
          have hafter : (skipBlanks after).length < s.length :=
            Nat.lt_of_le_of_lt (length_skipBlanks_le _) <|
              Nat.lt_trans (length_lt_of_readValue hvalue) <|
                Nat.lt_trans (length_lt_of_assigns hnext) hhead
          (readEntries blame (skipBlanks after)).cons
            (.field (String.ofList name) (String.ofList word)) (Nat.le_of_lt hafter)
      | .opens colon inner =>
        have hinner : (skipBlanks inner).length < s.length :=
          Nat.lt_of_le_of_lt (length_skipBlanks_le _) <|
            Nat.lt_trans (length_lt_of_opens hnext) hhead
        let opened := if colon then blame else blame.atMark (skipBlanks afterName)
        let block := readEntries opened (skipBlanks inner)
        match hrest : block.rest with
        | '}' :: after =>
          have hafter : (skipBlanks after).length < s.length := by
            have := block.rest_le
            have := length_skipBlanks_le after
            rw [hrest, List.length_cons] at *
            omega
          (readEntries block.blame (skipBlanks after)).cons
            (.block (String.ofList name) block.entries) (Nat.le_of_lt hafter)
        | left =>
          let missed := (block.blame.atMark left).atRule s
          .stop (if colon then missed.atRule ('{' :: inner) else missed) s
termination_by s.length

/-- The block that a whole text stands for, or the amount of text left at the place to blame. -/
def readDocument (text : List Char) : Except Nat Block :=
  let s := skipBlanks text
  match identifier? s with
  | none => .error s.length
  | some (name, afterName) =>
    let head := skipBlanks afterName
    match continuation head with
    | .stops => .error head.length
    | .assigns value => .error value.length
    | .opens colon inner =>
      let opened := if colon then none else Blame.atMark none head
      let block := readEntries opened (skipBlanks inner)
      match block.rest with
      | '}' :: after =>
        match skipBlanks after with
        | [] => .ok ⟨String.ofList name, block.entries⟩
        | left => .error left.length
      | left => .error (((block.blame.atMark left).atRule s).getD 0)

end CallAtlas.Dump
