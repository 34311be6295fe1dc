import CallAtlas.Diagnostic
import CallAtlas.Dump.Reader
import CallAtlas.Text.LineEnd

/-!
# Parsing a dump

The block of a text, or a diagnostic that points at the place to blame: by line and column, both
counted from one, and by an excerpt of the text from there on.

Reading descends once for each level of nesting.  How deep the stack may grow is not looked at here:
it is taken to suffice, as it does under a recursion limit raised for the nesting of the text.
-/

namespace CallAtlas.Dump

open CallAtlas.Text

/-- The number of characters in an excerpt. -/
def excerptLength : Nat := 20

/-- The diagnostic of a text that cannot be read beyond its last `left` characters. -/
def malformed (text : List Char) (left : Nat) (source : Option String) : Diagnostic :=
  let before := text.take (text.length - left)
  let excerpt := (text.drop (text.length - left)).take excerptLength
  { cause := .malformedDump (.near (String.ofList excerpt))
    path := source
    line := lineAt before
    column := columnAt before }

/-- The block that a whole text stands for; `source` is the file that a diagnostic names.  The
stack is assumed to be deep enough for the nesting of the text: nothing fails for want of it. -/
def parse (text : String) (source : Option String) : Except Diagnostic Block :=
  match readDocument text.toList with
  | .ok block => .ok block
  | .error left => .error (malformed text.toList left source)

end CallAtlas.Dump
