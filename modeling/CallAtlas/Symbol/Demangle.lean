import CallAtlas.Symbol.Grammar
import CallAtlas.Symbol.Writer

/-!
# Demangling

The readable form of a mangled symbol: read into a table of parts, and written.  A text that does
not begin like a symbol is its own readable form.
-/

namespace CallAtlas.Symbol

/-- The greatest number of bytes in a symbol that is read. -/
def lengthLimit : Nat := 1024

/-- The part of a text that can be a symbol: a null character ends it. -/
def symbolText (text : List Char) : List Char :=
  text.takeWhile (· != '\x00')

/-- The readable form of the symbol that a text is, or nothing when it begins like a symbol and is
none. -/
def demangle? (text : String) : Option String :=
  if text.startsWith "_Z" then do
    let symbol := symbolText text.toList
    guard ((String.ofList symbol).utf8ByteSize ≤ lengthLimit)
    let spelling ← readSymbol symbol
    spelling.render?
  else
    some text

end CallAtlas.Symbol
