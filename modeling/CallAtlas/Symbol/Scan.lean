import CallAtlas.Symbol.Code

/-!
# Scanning symbols

A scan goes over the characters of a symbol.  It fills the table of parts and keeps the numbers of
those that the rest of the symbol may refer back to, the last name read, which is what a constructor
is called, and whether it is inside the target of a conversion.

A scan that fails gives nothing, but what it has gone over stays gone over: see `Scan.attempt`.

Lengths of names count bytes of UTF-8.

## Main definitions

* `Scan`, `Scan.State`;
* `Scan.number`, `Scan.ordinal`, `Scan.sourceName`;
* `Scan.backReference` — an earlier part, or an abbreviation.
-/

namespace CallAtlas.Symbol

/-- What a scan keeps. -/
structure Scan.State where
  rest : List Char
  /-- The parts read. -/
  table : Table := #[]
  /-- The parts that can be referred back to. -/
  kept : Array PartId := #[]
  /-- The last name read. -/
  lastName : Option PartId := none
  /-- Inside the target of a conversion. -/
  inConversion : Bool := false

/-- A step over a symbol. -/
abbrev Scan := OptionT (StateM Scan.State)

namespace Scan

/-! ## Characters -/

/-- The next character, if any. -/
def peek : Scan (Option Char) := do
  return (← get).rest.head?

/-- The character after the next, if any. -/
def peekSecond : Scan (Option Char) := do
  return (← get).rest[1]?

/-- Passes over `count` characters. -/
def skip (count : Nat) : Scan Unit :=
  modify fun s => { s with rest := s.rest.drop count }

/-- Takes the next character. -/
def next : Scan Char := do
  match (← get).rest with
  | [] => failure
  | c :: rest =>
    modify fun s => { s with rest }
    return c

/-- Takes the next character if it is `c`, and tells whether it is. -/
def accept (c : Char) : Scan Bool := do
  if (← peek) == some c then
    skip 1
    return true
  else
    return false

/-- Takes the next character, which must be `c`. -/
def expect (c : Char) : Scan Unit := do
  guard (← accept c)

/-- Takes characters as long as they belong to a class. -/
def takeWhile (p : Char → Bool) : Scan (List Char) := do
  let rest := (← get).rest
  modify fun s => { s with rest := rest.dropWhile p }
  return rest.takeWhile p

/-- Does a step that need not succeed.  Where it fails, the scan goes on from the place of the
failure. -/
def attempt {α : Type} (step : Scan α) : Scan (Option α) :=
  OptionT.mk do return some (← step.run)

/-- The result of an attempt, which must have succeeded. -/
def demand {α : Type} : Option α → Scan α
  | some result => pure result
  | none => failure

/-! ## Parts -/

/-- Enters a part into the table. -/
def add (part : Part) : Scan PartId := do
  let number := (← get).table.size
  modify fun s => { s with table := s.table.push part }
  return number

/-- The part of a number. -/
def partAt (number : PartId) : Scan Part := do
  demand (← get).table[number]?

/-- Enters another part under a number, for all that refer to it. -/
def replace (number : PartId) (part : Part) : Scan Unit :=
  modify fun s => { s with table := s.table.setIfInBounds number part }

/-- Keeps a part for later reference. -/
def keep (part : PartId) : Scan Unit :=
  modify fun s => { s with kept := s.kept.push part }

/-- Does a step and keeps its part for later reference. -/
def kept (step : Scan PartId) : Scan PartId := do
  let part ← step
  keep part
  return part

/-- Enters a list. -/
def list : List PartId → Scan PartId
  | [] => add (.list none none)
  | [only] => add (.list (some only) none)
  | first :: rest => do
    let others ← list rest
    add (.list (some first) (some others))

/-! ## Numbers -/

/-- The largest number that is read. -/
def numberLimit : Nat := 2147483647

/-- A number, with an `n` in front if negative; no digits at all are zero. -/
def number : Scan Int := do
  let negative ← accept 'n'
  let digits ← takeWhile Char.isDigit
  let value := Nat.ofDigitChars 10 digits 0
  guard (value ≤ numberLimit)
  return if negative then -value else value

/-- A count in the form `_`, `0_`, `1_` and so on: zero, one, two. -/
def ordinal : Scan Nat := do
  if ← accept '_' then
    return 0
  guard ((← peek) != some 'n')
  let value ← number
  guard (value < numberLimit)
  expect '_'
  return value.toNat + 1

/-- What tells apart entities of one name inside a function; it is not shown. -/
def discriminator : Scan Unit := do
  if ← accept '_' then
    let double ← accept '_'
    let value ← number
    guard (0 ≤ value)
    if double && 10 ≤ value then
      expect '_'

/-! ## Names -/

/-- The first characters that make up `bytes` bytes of UTF-8, and the rest. -/
def takeBytes : Nat → List Char → Option (List Char × List Char)
  | 0, rest => some ([], rest)
  | _ + 1, [] => none
  | bytes + 1, c :: rest =>
    if c.utf8Size ≤ bytes + 1 then
      (takeBytes (bytes + 1 - c.utf8Size) rest).map fun (taken, left) => (c :: taken, left)
    else
      none

/-- A name that the compiler gave to a namespace without one. -/
def isAnonymousNamespace (name : List Char) : Bool :=
  match name.drop 8 with
  | c :: 'N' :: _ => name.take 8 == "_GLOBAL_".toList && (c == '.' || c == '_' || c == '$')
  | _ => false

/-- A name preceded by its length.  It is the last name read from then on; where the symbol is too
short for it, there is none. -/
def sourceName : Scan PartId := do
  let length ← number
  guard (0 < length)
  match takeBytes length.toNat (← get).rest with
  | none =>
    modify fun s => { s with lastName := none }
    failure
  | some (taken, rest) =>
    let name :=
      if isAnonymousNamespace taken then "(anonymous namespace)" else String.ofList taken
    let part ← add (.text name)
    modify fun s => { s with rest, lastName := some part }
    return part

/-- The tags behind a name: up to `limit` of them. -/
def tags : Nat → PartId → Scan PartId
  | 0, part => pure part
  | limit + 1, part => do
    if ← accept 'B' then
      let tag ← sourceName
      tags limit (← add (.tagged part tag))
    else
      return part

/-- A part with the tags behind it.  They do not change what the last name is. -/
def withTags (part : PartId) : Scan PartId := do
  let before ← get
  let tagged ← attempt (tags before.rest.length part)
  modify fun s => { s with lastName := before.lastName }
  demand tagged

/-! ## References -/

/-- The value of a digit in base 36. -/
def digitValue (c : Char) : UInt32 :=
  if c.isDigit then c.val - 48 else c.val - 55

/-- The number that digits in base 36 spell behind `value`, if a `_` ends them, and the characters
not read for it.  Numbers have 32 bits, and one that becomes smaller by a further digit is none. -/
def ordinal36 (value : UInt32) : List Char → Option UInt32 × List Char
  | [] => (none, [])
  | c :: rest =>
    if c == '_' then (some value, rest)
    else if c.isDigit || c.isUpper then
      let longer := value * 36 + digitValue c
      if longer < value then (none, rest) else ordinal36 longer rest
    else (none, rest)

/-- The number in a reference: `_` is zero, `0_` is one. -/
def referenceNumber : Scan UInt32 := do
  if ← accept '_' then
    return 0
  let (value, rest) := ordinal36 0 (← get).rest
  modify fun s => { s with rest }
  return (← demand value) + 1

/-- An earlier part, or a name of the standard library.  In front of further names, where
`leading`, the full name is written before a constructor or destructor. -/
def backReference (leading : Bool) : Scan PartId := do
  expect 'S'
  match ← peek with
  | none => failure
  | some c =>
    if c == '_' || c.isDigit || c.isUpper then
      let number ← referenceNumber
      demand (← get).kept[number.toNat]?
    else
      skip 1
      match Code.abbreviation? c with
      | none => failure
      | some known =>
        match known.last with
        | some last =>
          let last ← add (.abbreviation last)
          modify fun s => { s with lastName := some last }
        | none => pure ()
        let following ← peek
        let inFull := leading && (following == some 'C' || following == some 'D')
        let part ← add (.abbreviation (if inFull then known.full else known.short))
        if following == some 'B' then kept (withTags part) else return part

end Scan

end CallAtlas.Symbol
