import CallAtlas.Symbol.Scan

/-!
# The grammar of symbols

The rules by which a mangled symbol spells its parts: the C++ ABI of the Itanium family, for names,
types and constants.  Expressions that depend on template arguments are not read.

Each rule is written over the rules it refers to, as a `Grammar`.  `Grammar.ofFuel` ties the knot to
a given depth; a symbol nests no deeper than its length allows.

## Main definitions

* `Grammar` — the rules that others refer to;
* one definition a rule, from `encoding` to `literal`;
* `readSymbol` — a whole symbol.
-/

namespace CallAtlas.Symbol

/-- The rules that others refer to. -/
structure Grammar where
  /-- A name with the type of a function, or something made for a type or a function; at the outer
  end of the symbol or not. -/
  encoding : Bool → Scan PartId
  name : Scan PartId
  /-- The rest of a nested name behind a scope. -/
  nestedTail : Option PartId → Scan PartId
  type : Scan PartId
  /-- Types up to the end of a list of parameters. -/
  types : Scan (List PartId)
  templateArgument : Scan PartId
  /-- Template arguments up to the end of their list. -/
  templateArguments : Scan (List PartId)

/-- The grammar in which nothing can be read. -/
def Grammar.empty : Grammar where
  encoding _ := failure
  name := failure
  nestedTail _ := failure
  type := failure
  types := failure
  templateArgument := failure
  templateArguments := failure

namespace Rule

open Scan

variable (g : Grammar)

/-! ## Lists -/

/-- Types as far as they go. -/
def types : Scan (List PartId) := do
  let following ← peek
  let second ← peekSecond
  let atQualifier := (following == some 'R' || following == some 'O') && second == some 'E'
  if following.isNone || following == some 'E' || following == some '.' || atQualifier then
    return []
  else
    let first ← g.type
    let rest ← g.types
    return first :: rest

/-- A list of parameters: at least one type, a single `void` being none. -/
def parameters : Scan PartId := do
  match ← g.types with
  | [] => failure
  | [only] => if (← partAt only).isVoid then list [] else list [only]
  | several => list several

/-- Template arguments as far as they go, with the end of their list. -/
def templateArguments : Scan (List PartId) := do
  let first ← g.templateArgument
  if ← accept 'E' then
    return [first]
  else
    let rest ← g.templateArguments
    return first :: rest

/-- A list of template arguments.  It does not change what constructors are called. -/
def argumentList : Scan PartId := do
  guard ((← peek) == some 'I' || (← peek) == some 'J')
  skip 1
  if ← accept 'E' then
    list []
  else
    let lastName := (← get).lastName
    let arguments ← g.templateArguments
    modify fun s => { s with lastName }
    list arguments

/-- A template with the arguments that follow.  They are read even where there is no template. -/
def withArguments (template : Option PartId) : Scan PartId := do
  let arguments ← argumentList g
  add (.template (← demand template) arguments)

/-- A part, or the template that it is where arguments follow.  The part is then kept for later
reference. -/
def withArgumentsIfAny (part : PartId) : Scan PartId := do
  if (← peek) == some 'I' then
    keep part
    withArguments g (some part)
  else
    return part

/-! ## Qualifiers -/

/-- A qualifier that stands next, if one does; on member functions all kinds are. -/
def qualifier? : Scan (Option MemberQualifier) := do
  match ← peek, ← peekSecond with
  | some 'r', _ => skip 1; return some (.object .restrict)
  | some 'V', _ => skip 1; return some (.object .volatile)
  | some 'K', _ => skip 1; return some (.object .const)
  | some 'D', some 'x' => skip 2; return some .transactionSafe
  | some 'D', some 'o' => skip 2; return some .noexcept
  | _, _ => return none

/-- The qualifiers that stand next: up to `limit` of them. -/
def qualifiersUpTo : Nat → Scan (List MemberQualifier)
  | 0 => pure []
  | limit + 1 => do
    match ← qualifier? with
    | none => return []
    | some first => return first :: (← qualifiersUpTo limit)

/-- The qualifiers that stand next. -/
def qualifiers : Scan (List MemberQualifier) := do
  qualifiersUpTo (← get).rest.length

/-- A qualifier that says on which kind of object a member function works. -/
def referenceQualifier : Scan (List MemberQualifier) := do
  if ← accept 'R' then return [.lvalue]
  else if ← accept 'O' then return [.rvalue]
  else return []

/-- A function's name or type inside qualifiers, the first of them outermost. -/
def inMember : List MemberQualifier → PartId → Scan PartId
  | [], part => pure part
  | qualifier :: rest, part => do
    add (.member qualifier (← inMember rest part))

/-- A type inside qualifiers, the first of them outermost. -/
def inQualified : List MemberQualifier → PartId → Scan PartId
  | [], part => pure part
  | .object qualifier :: rest, part => do
    add (.qualified qualifier (← inQualified rest part))
  | qualifier :: rest, part => do
    add (.member qualifier (← inQualified rest part))

/-! ## Functions -/

/-- The type of a function, its result first where it is spelled. -/
def bareFunction (spellsResult : Bool) : Scan PartId := do
  let marked ← accept 'J'
  if spellsResult || marked then
    let result ← g.type
    add (.function (some result) (← parameters g))
  else
    add (.function none (← parameters g))

/-- A function type as a type of its own. -/
def functionType : Scan PartId := do
  expect 'F'
  let _ ← accept 'Y'
  let type ← attempt (bareFunction g true)
  let reference ← referenceQualifier
  expect 'E'
  inMember reference (← demand type)

/-! ## Names -/

/-- A template parameter. -/
def parameter : Scan PartId := do
  expect 'T'
  add (.parameter (← ordinal))

/-- What constructors and destructors are called. -/
def owner : Scan PartId := do
  demand (← get).lastName

/-- The name of a constructor or destructor: that of its class, which was read last.  An inherited
constructor is called as the class that it comes from. -/
def construction : Scan PartId := do
  match ← next with
  | 'C' =>
    let inherited ← accept 'I'
    let kind ← next
    guard ("12345".toList.contains kind)
    if inherited then
      -- The class that the constructor comes from is the last name from here on.
      let _ ← attempt g.type
    add (.ctor (← owner))
  | 'D' =>
    let kind ← next
    guard ("01245".toList.contains kind)
    add (.dtor (← owner))
  | _ => failure

/-- The target of a conversion. -/
def conversionTarget : Scan PartId := do
  let outer := (← get).inConversion
  modify fun s => { s with inConversion := true }
  let target ← attempt g.type
  modify fun s => { s with inConversion := outer }
  demand target

/-- The name of an operator. -/
def operatorName : Scan PartId := do
  let first ← next
  let second ← next
  if first == 'v' && second.isDigit then
    add (.vendorOperator (← sourceName))
  else if first == 'c' && second == 'v' then
    add (.conversion (← conversionTarget g))
  else if first == 'l' && second == 'i' then
    add (.literalOperator (← sourceName))
  else
    add (.operator (← demand (Code.operator? first second)))

/-- A closure, by its parameters and its number. -/
def closure : Scan PartId := do
  skip 2
  let parameters ← parameters g
  expect 'E'
  add (.closure parameters (← ordinal))

/-- A type without a name, by its number. -/
def unnamedType : Scan PartId := do
  skip 2
  kept do add (.unnamed (← ordinal))

/-- A name without its scope and tags. -/
def simpleName : Scan PartId := do
  match ← peek with
  | none => failure
  | some c =>
    if c.isDigit then
      sourceName
    else if c.isLower then
      if c == 'o' && (← peekSecond) == some 'n' then
        skip 2
      operatorName g
    else if c == 'C' || c == 'D' then
      construction g
    else if c == 'L' then
      skip 1
      let name ← sourceName
      discriminator
      return name
    else if c == 'U' then
      match ← peekSecond with
      | some 'l' => closure g
      | some 't' => unnamedType
      | _ => failure
    else
      failure

/-- A name without its scope. -/
def unqualifiedName : Scan PartId := do
  withTags (← simpleName g)

/-- A part in a scope, if one is given. -/
def inScope (scope : Option PartId) (part : PartId) : Scan PartId :=
  match scope with
  | none => pure part
  | some scope => add (.scoped scope part)

/-- Whether a character can begin a name without a scope. -/
def beginsName (c : Char) : Bool :=
  c.isDigit || c.isLower || c == 'C' || c == 'D' || c == 'U' || c == 'L'

/-- One more name of a nested name: a template parameter, a name, or the arguments of what stands
before. -/
def nestedStep (before : Option PartId) (following : Char) : Scan PartId := do
  if following == 'I' then
    guard before.isSome
    withArguments g before
  else if following == 'T' then
    inScope before (← parameter)
  else if beginsName following then
    inScope before (← unqualifiedName g)
  else
    failure

/-- The rest of a nested name: each name is in the scope of what stands before it, and everything
but references and the whole is kept for later reference.  A reference to nothing drops what stands
before it. -/
def nestedTail (before : Option PartId) : Scan PartId := do
  match ← peek with
  | none => failure
  | some 'E' => demand before
  | some 'S' =>
    match ← attempt (backReference true) with
    | some part => g.nestedTail (some (← inScope before part))
    | none => g.nestedTail none
  | some 'M' =>
    guard before.isSome
    skip 1
    g.nestedTail before
  | some c =>
    let part ← nestedStep g before c
    -- The whole name is kept by what it is part of.
    unless (← peek) == some 'E' do
      keep part
    g.nestedTail (some part)

/-- A name in scopes, with the qualifiers of a member function. -/
def nestedName : Scan PartId := do
  expect 'N'
  let objects ← qualifiers
  let reference ← referenceQualifier
  let name ← g.nestedTail none
  expect 'E'
  inMember (reference ++ objects) name

/-- Drops the result from the type of a function, for all that refer to that type. -/
def elideResult (function : PartId) : Scan Unit := do
  match ← partAt function with
  | .typed _ type => replace type (← partAt type).withoutResult
  | _ => pure ()

/-- An entity inside a function. -/
def localName : Scan PartId := do
  expect 'Z'
  let function ← g.encoding false
  expect 'E'
  if ← accept 's' then
    discriminator
    elideResult function
    add (.inside function none (← add (.text "string literal")))
  else
    let argument ← if ← accept 'd' then some <$> ordinal else pure none
    let entity ← g.name
    match ← partAt entity with
    | .closure .. => pure ()
    | .unnamed _ => pure ()
    | _ => discriminator
    elideResult function
    add (.inside function argument entity)

/-- A name. -/
def name : Scan PartId := do
  match ← peek, ← peekSecond with
  | some 'N', _ => nestedName g
  | some 'Z', _ => localName g
  | some 'U', _ => unqualifiedName g
  | some 'S', some 't' =>
    skip 2
    let name ← unqualifiedName g
    withArgumentsIfAny g (← add (.scoped (← add (.text "std")) name))
  | some 'S', _ =>
    let part ← attempt (backReference false)
    if (← peek) == some 'I' then withArguments g part else demand part
  | _, _ => withArgumentsIfAny g (← unqualifiedName g)

/-! ## Constants -/

/-- A constant, or a function or variable by its symbol. -/
def literal : Scan PartId := do
  expect 'L'
  let following ← peek
  if following == some '_' || following == some 'Z' then
    let _ ← accept '_'
    let symbol ← attempt do
      expect 'Z'
      g.encoding false
    expect 'E'
    demand symbol
  else
    let type ← g.type
    if (← partAt type) == .builtin Code.nullPointer && (← peek) == some 'E' then
      skip 1
      return type
    else
      let negative ← accept 'n'
      let digits ← Scan.takeWhile (· != 'E')
      expect 'E'
      guard (!digits.isEmpty)
      add (.literal type negative (← add (.text (String.ofList digits))))

/-! ## Types -/

/-- A type inside qualifiers.  Before a function type they are those of a member function.  The
qualifier for the kind of object comes behind all others, so where the type has one, they go inside
it, for all that refer to that type. -/
def qualifiedType : Scan PartId := do
  let qualifiers ← qualifiers
  let onFunction := (← peek) == some 'F'
  let wrap := if onFunction then inMember qualifiers else inQualified qualifiers
  let type ← if onFunction then functionType g else g.type
  let move (reference : MemberQualifier) (inner : PartId) : Scan PartId := do
    replace type (.member reference (← wrap inner))
    return type
  kept do
    match ← partAt type with
    | .member .lvalue inner => move .lvalue inner
    | .member .rvalue inner => move .rvalue inner
    | _ => wrap type

/-- The bound of an array: digits, a constant, a template parameter, or nothing. -/
def bound : Scan (Option PartId) := do
  match ← peek with
  | some '_' => return none
  | some 'L' => some <$> literal g
  | some 'T' => some <$> parameter
  | _ =>
    let digits ← Scan.takeWhile Char.isDigit
    guard (!digits.isEmpty)
    some <$> add (.text (String.ofList digits))

/-- An array with its bound. -/
def arrayType : Scan PartId := do
  expect 'A'
  let bound ← bound g
  expect '_'
  add (.array bound (← g.type))

/-- A pointer to a member of a class. -/
def memberPointerType : Scan PartId := do
  expect 'M'
  let owner ← g.type
  add (.memberPointer owner (← g.type))

/-- A template parameter, with arguments if it stands for a template.  In the target of a conversion
arguments belong to the conversion, unless more of them follow. -/
def parameterType : Scan PartId := do
  let part ← parameter
  let before ← get
  if before.inConversion && before.rest.head? == some 'I' then
    let arguments ← attempt (argumentList g)
    if (← peek) == some 'I' then
      keep part
      add (.template part (← demand arguments))
    else
      -- The arguments are those of the conversion: they are read again behind its target.
      modify fun s => { s with rest := before.rest, kept := before.kept }
      return part
  else
    withArgumentsIfAny g part

/-- An earlier part or a name of the standard library.  What is already there is not kept once
more. -/
def referredType : Scan PartId := do
  let second := (← peekSecond).getD ' '
  if second == '_' || second.isDigit || second.isUpper then
    let part ← attempt (backReference false)
    if (← peek) == some 'I' then kept (withArguments g part) else demand part
  else
    let name ← g.name
    unless (← partAt name).isAbbreviation do
      keep name
    return name

/-- A type behind a vendor's qualifier. -/
def vendorQualifiedType : Scan PartId := do
  skip 1
  let name ← sourceName
  let qualifier ← if (← peek) == some 'I' then withArguments g (some name) else pure name
  add (.vendorQualified (← g.type) qualifier)

/-- A vector of a number of elements. -/
def vectorType : Scan PartId := do
  guard ((← peek) != some '_')
  let size ← add (.text (toString (← number)))
  expect '_'
  add (.vector size (← g.type))

/-- A type behind a `D`. -/
def extendedType : Scan PartId := do
  skip 1
  match ← next with
  | 'p' => kept do add (.expansion (← g.type))
  | 'v' => kept (vectorType g)
  | c =>
    add (← demand (Code.extended? c))

/-- Whether a qualifier of a type stands next. -/
def atQualifier : Scan Bool := do
  match ← peek, ← peekSecond with
  | some 'r', _ => return true
  | some 'V', _ => return true
  | some 'K', _ => return true
  | some 'D', some c => return c == 'x' || c == 'o' || c == 'O' || c == 'w'
  | _, _ => return false

/-- Another type behind one letter, kept for later reference. -/
def madeOf (make : PartId → Part) : Scan PartId := do
  skip 1
  kept do add (make (← g.type))

/-- A type of two letters or more, by its first. -/
def compoundType (first : Char) : Scan PartId := do
  match first with
  | 'u' =>
    skip 1
    kept do add (.vendorType (← sourceName))
  | 'F' => kept (functionType g)
  | 'A' => kept (arrayType g)
  | 'M' => kept (memberPointerType g)
  | 'T' => kept (parameterType g)
  | 'S' => referredType g
  | 'O' => madeOf g .rvalueReference
  | 'P' => madeOf g .pointer
  | 'R' => madeOf g .reference
  | 'C' => madeOf g .complex
  | 'G' => madeOf g .imaginary
  | 'U' => kept (vendorQualifiedType g)
  | 'D' => extendedType g
  | _ =>
    guard (first.isDigit || first == 'N' || first == 'Z')
    kept g.name

/-- A type.  All but builtin types and references are kept for later reference. -/
def type : Scan PartId := do
  if ← atQualifier then
    qualifiedType g
  else
    match ← peek with
    | none => failure
    | some c =>
      match Code.builtin? c with
      | some builtin =>
        skip 1
        add (.builtin builtin)
      | none => compoundType g c

/-! ## Template arguments -/

/-- A template argument: a constant, several arguments, or a type. -/
def templateArgument : Scan PartId := do
  match ← peek with
  | some 'L' => literal g
  | some 'I' => argumentList g
  | some 'J' => argumentList g
  | _ => g.type

/-! ## Whole symbols -/

/-- How the object is found that a thunk works on; it is not shown. -/
def callOffset (kind : Char) : Scan Unit := do
  let _ ← number
  if kind == 'v' then
    expect '_'
    let _ ← number
  else
    guard (kind == 'h')
  expect '_'

/-- Something that is made for a type or a function. -/
def specialName : Scan PartId := do
  match ← next, ← next with
  | 'T', 'h' =>
    callOffset 'h'
    add (.described "non-virtual thunk to " (← g.encoding false))
  | 'T', 'v' =>
    callOffset 'v'
    add (.described "virtual thunk to " (← g.encoding false))
  | 'T', 'c' =>
    callOffset (← next)
    callOffset (← next)
    add (.described "covariant return thunk to " (← g.encoding false))
  | 'T', 'C' =>
    let derived ← g.type
    let offset ← number
    guard (0 ≤ offset)
    expect '_'
    add (.constructionTable (← g.type) derived)
  | 'T', 'H' => add (.described "TLS init function for " (← g.name))
  | 'T', 'W' => add (.described "TLS wrapper function for " (← g.name))
  | 'T', 'A' => add (.described "template parameter object for " (← g.templateArgument))
  | 'T', c =>
    let words ← demand (Code.typeObject? c)
    add (.described words (← g.type))
  | 'G', 'V' => add (.described "guard variable for " (← g.name))
  | 'G', 'R' =>
    let subject ← g.name
    add (.temporary subject (← add (.text (toString (← number)))))
  | 'G', 'A' => add (.described "hidden alias for " (← g.encoding false))
  | 'G', 'T' =>
    let words := if (← next) == 'n' then "non-transaction clone for " else "transaction clone for "
    add (.described words (← g.encoding false))
  | _, _ => failure

/-- A name with the type of a function, if a type follows, or something made for a type or a
function. -/
def encoding (outermost : Bool) : Scan PartId := do
  let following ← peek
  if following == some 'G' || following == some 'T' then
    specialName g
  else
    let name ← g.name
    match ← peek with
    | none => return name
    | some 'E' => return name
    | some _ =>
      let type ← bareFunction g ((← get).table.spellsResult name)
      let function ← add (.typed name type)
      if !outermost && (← partAt name).isInside then
        elideResult function
      return function

end Rule

/-- The grammar whose rules refer to each other up to a depth. -/
def Grammar.ofFuel : Nat → Grammar
  | 0 => .empty
  | fuel + 1 =>
    let g := Grammar.ofFuel fuel
    { encoding := Rule.encoding g
      name := Rule.name g
      nestedTail := Rule.nestedTail g
      type := Rule.type g
      types := Rule.types g
      templateArgument := Rule.templateArgument g
      templateArguments := Rule.templateArguments g }

/-! ## Clones -/

/-- A character of the word that names a kind of clone. -/
def isCloneChar (c : Char) : Bool :=
  c.isLower || c.isDigit || c == '_'

/-- Dots with numbers behind them: up to `limit`. -/
def Scan.cloneNumbers : Nat → Scan (List Char)
  | 0 => pure []
  | limit + 1 => do
    match ← Scan.peek, ← Scan.peekSecond with
    | some '.', some c =>
      if c.isDigit then
        Scan.skip 1
        let digits ← Scan.takeWhile Char.isDigit
        return '.' :: digits ++ (← cloneNumbers limit)
      else
        return []
    | _, _ => return []

/-- What the compiler put behind a symbol to name copies of the function: up to `limit` words, each
with numbers behind it. -/
def Scan.clones : Nat → PartId → Scan PartId
  | 0, part => pure part
  | limit + 1, part => do
    match ← Scan.peek, ← Scan.peekSecond with
    | some '.', some c =>
      if isCloneChar c then
        Scan.skip 1
        let word ← Scan.takeWhile isCloneChar
        let numbers ← Scan.cloneNumbers limit
        let suffix ← Scan.add (.text (String.ofList ('.' :: word ++ numbers)))
        clones limit (← Scan.add (.clone part suffix))
      else
        return part
    | _, _ => return part

/-- A whole symbol, to the end of the text. -/
def readSymbol (text : List Char) : Option Spelling :=
  let depth := 8 * (text.length + 1)
  let scan : Scan PartId := do
    Scan.expect '_'
    Scan.expect 'Z'
    let part ← (Grammar.ofFuel depth).encoding true
    Scan.clones text.length part
  match scan.run { rest := text } with
  | (some whole, { rest := [], table, .. }) => some { parts := table, whole }
  | _ => none

end CallAtlas.Symbol
