/-!
# Line ends

Files come with three ends of line: line feed, carriage return, and the pair of them.  Reading a
file makes all of them line feeds.  Positions in a text are told by line and column.

## Main definitions

* `unifyLineEnds` — every end of line as a line feed;
* `lineAt`, `columnAt` — the coordinates of the place after some text.
-/

namespace CallAtlas.Text

/-- Every pair of carriage return and line feed, and every other carriage return, as one line
feed. -/
def unifyLineEnds : List Char → List Char
  | [] => []
  | '\r' :: '\n' :: rest => '\n' :: unifyLineEnds rest
  | c :: rest => (if c = '\r' then '\n' else c) :: unifyLineEnds rest

/-- The line, counted from one, of the place just after `before`. -/
def lineAt (before : List Char) : Nat :=
  before.count '\n' + 1

/-- The column, counted from one, of the place just after `before`. -/
def columnAt (before : List Char) : Nat :=
  (before.reverse.takeWhile (· != '\n')).length + 1

end CallAtlas.Text
