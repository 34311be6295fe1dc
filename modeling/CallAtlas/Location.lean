/-!
# Source locations

A location is a place in a source file, written `file:line:column`.  Labels carry it with further
text behind another colon.  A file name of one character before the first colon is a drive letter
and takes the next segment along, so that `C:\a.c:3:4` names the file `C:\a.c`.

A text without the shape of a location has none, and that is no fault.  A text that has the shape
must have decimal numbers in it; a number of more than `digitLimit` digits is refused whatever its
value.

## Main definitions

* `Location`, ordered by file, line and column;
* `Location.parse` — the location at the head of a text, with the text behind it;
* `Location.Fault` — why a text of that shape has none;
* `Location.toString` — the written form.
-/

namespace CallAtlas

/-- A place in a source file.  Line and column are numbers of any size and sign; those read from a
text are never negative. -/
structure Location where
  file : String
  line : Int := 0
  column : Int := 0
  deriving DecidableEq, Hashable, Repr

namespace Location

/-- The written form `file:line:column`. -/
protected def toString (loc : Location) : String :=
  loc.file ++ ":" ++ toString loc.line ++ ":" ++ toString loc.column

instance : ToString Location := ⟨Location.toString⟩

/-! ## Order -/

/-- Comparison by file, in code-point order, then by line, then by column. -/
protected def compare (a b : Location) : Ordering :=
  (compare a.file b.file).then ((compare a.line b.line).then (compare a.column b.column))

instance : Ord Location := ⟨Location.compare⟩

instance : LT Location := ltOfOrd

instance : LE Location := leOfOrd

/-- Locations in ascending order; equal ones keep their places. -/
def sort (locations : List Location) : List Location :=
  locations.mergeSort fun a b => (compare a b).isLE

/-! ## Reading -/

/-- The two numbers of a location. -/
inductive Coordinate where
  | line
  | column
  deriving DecidableEq, Repr

/-- What messages call a coordinate. -/
def Coordinate.word : Coordinate → String
  | .line => "line number"
  | .column => "column"

/-- Why a text of the shape of a location has none. -/
inductive Fault where
  /-- The text where `coordinate` should stand in `source` is not a decimal number. -/
  | notANumber (coordinate : Coordinate) (text source : String)
  /-- A number has more digits than are read. -/
  | tooManyDigits (count : Nat)
  deriving DecidableEq, Repr

/-- The greatest number of digits that is read as a number, leading zeros included, and that a
number is shown with. -/
def digitLimit : Nat := 4300

/-- The number of decimal digits that a number is written with, its sign apart. -/
def digitCount (n : Int) : Nat :=
  (toString n.natAbs).length

/-- The text before the first colon, and the text behind it if there is a colon. -/
def cut : List Char → List Char × Option (List Char)
  | [] => ([], none)
  | c :: rest =>
    if c = ':' then ([], some rest)
    else
      let (head, tail) := cut rest
      (c :: head, tail)

/-- A coordinate read from the text of its segment. -/
def readNumber (coordinate : Coordinate) (digits : List Char) (source : String) :
    Except Fault Nat :=
  if digits.isEmpty || !digits.all Char.isDigit then
    .error (.notANumber coordinate (String.ofList digits) source)
  else if digitLimit < digits.length then
    .error (.tooManyDigits digits.length)
  else
    .ok (Nat.ofDigitChars 10 digits 0)

/-- The coordinates at the head of `text`, which stands behind the file name, and the text behind
them.  A missing or empty column counts as zero. -/
def readCoordinates (file : List Char) (text : List Char) (source : String) :
    Except Fault (Location × String) := do
  let (lineText, afterLine) := cut text
  let (columnText, afterColumn) :=
    match afterLine with
    | none => ([], none)
    | some rest => cut rest
  let line ← readNumber .line lineText source
  let column ← if columnText.isEmpty then pure 0 else readNumber .column columnText source
  return (⟨String.ofList file, line, column⟩, String.ofList (afterColumn.getD []))

/-- The location at the head of a text and the text behind its column, or nothing when the text
does not have the shape of a location. -/
def parse (source : String) : Except Fault (Option (Location × String)) :=
  match cut source.toList with
  | (_, none) => .ok none
  | ([], some _) => .ok none
  | ([drive], some rest) =>
    match cut rest with
    | (_, none) => .ok none
    | (segment, some text) =>
      (readCoordinates (drive :: ':' :: segment) text source).map some
  | (file, some text) => (readCoordinates file text source).map some

/-- The location at the head of a text, without the text behind it. -/
def ofString? (source : String) : Except Fault (Option Location) :=
  (parse source).map (·.map Prod.fst)

end Location

end CallAtlas
