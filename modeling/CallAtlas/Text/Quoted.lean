import CallAtlas.Text.Hex
import CallAtlas.Text.Unprintable

/-!
# Quoted text

How messages show a text or a run of bytes without ambiguity.  The text stands in single quotes,
or in double quotes when that saves escaping: when it holds a single quote and no double quote.
Backslashes and the quote in use are escaped by a backslash; tab, line feed and carriage return
have short escapes; any other unprintable character is written by its code point.

## Main definitions

* `quote` shows a text;
* `quoteBytes` shows bytes, marked by a leading `b`.
-/

namespace CallAtlas.Text

/-- The quote that encloses `s`: double only when `s` holds a single quote and no double quote. -/
def quoteMark (s : List Char) : Char :=
  if s.contains '\'' && !s.contains '"' then '"' else '\''

/-- The escape of a character that has a short one under the quote `mark`. -/
def shortEscape? (mark c : Char) : Option (List Char) :=
  if c = mark || c = '\\' then some ['\\', c]
  else if c = '\t' then some ['\\', 't']
  else if c = '\n' then some ['\\', 'n']
  else if c = '\r' then some ['\\', 'r']
  else none

/-- A code point as an escape: two, four or eight digits, as few as hold it. -/
def codeEscape (n : Nat) : List Char :=
  if n < 0x100 then '\\' :: 'x' :: hexDigits 2 n
  else if n < 0x10000 then '\\' :: 'u' :: hexDigits 4 n
  else '\\' :: 'U' :: hexDigits 8 n

/-- One character inside the quote `mark`; `hidden` says which are shown by code point. -/
def escape (hidden : Char → Bool) (mark c : Char) : List Char :=
  match shortEscape? mark c with
  | some short => short
  | none => if hidden c then codeEscape c.toNat else [c]

/-- Characters between quotes, each escaped as needed. -/
def enclose (hidden : Char → Bool) (s : List Char) : List Char :=
  let mark := quoteMark s
  mark :: s.flatMap (escape hidden mark) ++ [mark]

/-- A text as messages show it. -/
def quote (s : String) : String :=
  String.ofList (enclose isUnprintable s.toList)

/-- A byte outside the visible part of ASCII. -/
def isHiddenByte (c : Char) : Bool :=
  c.toNat < 0x20 || 0x7f ≤ c.toNat

/-- Bytes as messages show them: every byte outside the visible part of ASCII by its number. -/
def quoteBytes (bytes : List UInt8) : String :=
  String.ofList ('b' :: enclose isHiddenByte (bytes.map fun b => Char.ofNat b.toNat))

end CallAtlas.Text
