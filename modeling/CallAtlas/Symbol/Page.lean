import CallAtlas.Symbol.Part

/-!
# The page a symbol is written on

Where a blank is needed depends on the character before, so a symbol is written from left to right
on a `Page` that knows its last character.

Types are written as declarations are: the innermost type first, then what is made of it, from the
inside out.  On the way to the innermost type, what is made of it is put on a list of declarators,
the last first.  A type that goes around its declarators, as functions and arrays do, writes those
on the list and marks them; the others are written when the way leads back to them.

Template parameters are filled in from the templates in whose scope they stand.

## Main definitions

* `Page`, `Declarator`;
* `Writing` — a step that writes, or fails;
* `Writing.put`, `Writing.declarator`, `Writing.mark`;
* `Writing.argument` — what a template parameter stands for.
-/

namespace CallAtlas.Symbol

/-- Something made of a type, or the name that is declared, still to be written. -/
structure Declarator where
  /-- Its place among the marks of the page. -/
  key : Nat
  part : PartId
  /-- The templates in whose scope it stands. -/
  scopes : List PartId

/-- What has been written, and what is needed to go on. -/
structure Page where
  text : String := ""
  /-- The last character written.  A comma that is taken back still leaves its blank. -/
  last : Char := '\x00'
  /-- The templates whose parameters are filled in, the innermost first. -/
  scopes : List PartId := []
  /-- The declarators around the part being written, the innermost first. -/
  around : List Declarator := []
  /-- For each declarator, whether it has been written. -/
  marks : Array Bool := #[]
  /-- How many lists of parameters of closures the part being written is in. -/
  closures : Nat := 0
  /-- Which item of a pack a parameter stands for. -/
  item : Nat := 0
  /-- The scopes in which references to parameters were written first. -/
  remembered : List (PartId × List PartId) := []
  /-- The template whose name is being written. -/
  naming : Option PartId := none
  /-- The parts being written, the innermost first. -/
  opened : List PartId := []

/-- A step that writes some of the parts of a table. -/
abbrev Writing := ReaderT Table (StateT Page Option)

/-- How a part is written. -/
abbrev Writer := PartId → Writing Unit

namespace Writing

/-- The part of a number. -/
def partAt (number : PartId) : Writing Part := do
  match (← read)[number]? with
  | some part => return part
  | none => failure

/-! ## Text -/

/-- Writes a text. -/
def put (words : String) : Writing Unit :=
  modify fun page =>
    { page with text := page.text ++ words, last := words.toList.getLastD page.last }

/-- Writes a text, apart from the last character if that is `c`. -/
def putApart (c : Char) (words : String) : Writing Unit := do
  if (← get).last = c then put " "
  put words

/-- Writes a comma and a blank, and takes them back if nothing comes after them. -/
def separated (rest : Writing Unit) : Writing Unit := do
  let before := (← get).text
  put ", "
  let size := (← get).text.utf8ByteSize
  rest
  if (← get).text.utf8ByteSize = size then
    modify fun page => { page with text := before }

/-! ## Scopes -/

/-- Does a step in other scopes. -/
def withScopes (scopes : List PartId) (step : Writing Unit) : Writing Unit := do
  let outer := (← get).scopes
  modify fun page => { page with scopes }
  step
  modify fun page => { page with scopes := outer }

/-- The argument that a template parameter stands for, a pack where it is one. -/
def wholeArgument? (index : Nat) : Writing (Option PartId) := do
  match (← get).scopes with
  | [] => failure
  | scope :: _ =>
    match ← partAt scope with
    | .template _ arguments => return (← read).listItem? index arguments
    | _ => failure

/-- The argument that a template parameter stands for, one item of it where it is a pack. -/
def argument (index : Nat) : Writing PartId := do
  match ← wholeArgument? index with
  | none => failure
  | some whole =>
    match ← partAt whole with
    | .list .. =>
      match (← read).listItem? (← get).item whole with
      | some item => return item
      | none => failure
    | _ => return whole

/-! ## Declarators -/

/-- Does a step with other declarators around it. -/
def withAround (around : List Declarator) (step : Writing Unit) : Writing Unit := do
  let outer := (← get).around
  modify fun page => { page with around }
  step
  modify fun page => { page with around := outer }

/-- A new declarator, not yet written. -/
def declaratorIn (scopes : List PartId) (part : PartId) : Writing Declarator := do
  let key := (← get).marks.size
  modify fun page => { page with marks := page.marks.push false }
  return { key, part, scopes }

/-- A new declarator in the scopes of the page. -/
def declarator (part : PartId) : Writing Declarator := do
  declaratorIn (← get).scopes part

/-- Whether a declarator has been written. -/
def isWritten (declarator : Declarator) : Writing Bool := do
  return (← get).marks.getD declarator.key false

/-- Marks a declarator as written. -/
def mark (declarator : Declarator) : Writing Unit :=
  modify fun page => { page with marks := page.marks.setIfInBounds declarator.key true }

/-- The declarators from the first on that has not been written. -/
def dropWritten : List Declarator → Writing (List Declarator)
  | [] => pure []
  | first :: rest => do
    if ← isWritten first then dropWritten rest else return first :: rest

end Writing

end CallAtlas.Symbol
