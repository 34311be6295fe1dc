import CallAtlas.Symbol.Declarators

/-!
# Writing a symbol

The readable form of what a symbol spells.

A symbol refers back to parts that a template left open, and what such a part stands for depends on
the place it is referred to from.  So parameters are filled in while the symbol is written: each
from the innermost template in whose scope it stands, and what it stands for is written outside that
scope.  In the parameters of a closure, template parameters are placeholder types instead.  A
parameter that stands for a pack stands for one item of it at a time, and an expansion is its
pattern once for each item.  A symbol with a parameter that no argument is given for cannot be
written.

Parts may contain each other, so writing goes to a limited depth only.

## Main definitions

* `packIn?` — the pack that an expansion goes over;
* one definition for each kind of part that is not simply its parts in a row;
* `write` — a part;
* `Spelling.render?` — the readable form.
-/

namespace CallAtlas.Symbol

open Writing

/-- How the name of an operator is written: apart from a word, and without a blank behind it. -/
def operatorText (spelling : String) : String :=
  let shown := (spelling.toList.reverse.dropWhile (· == ' ')).reverse
  let gap := if (spelling.toList.headD ' ').isLower then " " else ""
  "operator" ++ gap ++ String.ofList shown

/-! ## Packs -/

/-- The parts in which a pattern is searched for packs, in order. -/
def Part.searched : Part → List PartId
  | .scoped scope name => [scope, name]
  | .inside owner none entity => [owner, entity]
  | .inside owner (some _) _ => [owner]
  | .template name arguments => [name, arguments]
  | .list first rest => first.toList ++ rest.toList
  | .ctor owner => [owner]
  | .dtor owner => [owner]
  | .conversion target => [target]
  | .qualified _ type => [type]
  | .member _ inner => [inner]
  | .pointer target => [target]
  | .reference target => [target]
  | .rvalueReference target => [target]
  | .complex type => [type]
  | .imaginary type => [type]
  | .vendorQualified type qualifier => [type, qualifier]
  | .function result parameters => result.toList ++ [parameters]
  | .array bound element => bound.toList ++ [element]
  | .vector _ element => [element]
  | .memberPointer owner target => [owner, target]
  | .literal type _ _ => [type]
  | .typed name type => [name, type]
  | .described _ subject => [subject]
  | .constructionTable base derived => [base, derived]
  | .temporary subject _ => [subject]
  | _ => []

/-- The first result of a search in several parts. -/
def firstFound (search : PartId → Writing (Option PartId)) :
    List PartId → Writing (Option PartId)
  | [] => pure none
  | first :: rest => do
    match ← search first with
    | some found => return some found
    | none => firstFound search rest

/-- The first pack that a parameter in a pattern stands for, to a depth. -/
def packInUpTo : (depth : Nat) → PartId → Writing (Option PartId)
  | 0, _ => pure none
  | depth + 1, pattern => do
    match ← partAt pattern with
    | .parameter index =>
      match ← wholeArgument? index with
      | none => return none
      | some whole =>
        match ← partAt whole with
        | .list .. => return some whole
        | _ => return none
    | other => firstFound (packInUpTo depth) other.searched

/-- The first pack that a parameter in a pattern stands for.  No part is deeper in another than
there are parts. -/
def packIn? (pattern : PartId) : Writing (Option PartId) := do
  packInUpTo (← read).size pattern

/-! ## Kinds of parts -/

namespace Written

variable (inner : Writer)

/-- Template arguments in angle brackets, which are kept apart from others of their kind. -/
def argumentList (arguments : PartId) : Writing Unit := do
  putApart '<' "<"
  inner arguments
  putApart '>' ">"

/-- A template with its arguments.  Declarators around it do not concern its parts. -/
def template (number name arguments : PartId) : Writing Unit := do
  let naming := (← get).naming
  modify fun page => { page with naming := some number }
  withAround [] do
    inner name
    argumentList inner arguments
  modify fun page => { page with naming }

/-- A list, with commas between its items. -/
def list (first rest : Option PartId) : Writing Unit := do
  first.forM inner
  match rest with
  | none => pure ()
  | some rest => separated (inner rest)

/-- A template parameter: its argument, written outside the scope of the template, or a placeholder
type in the parameters of a closure. -/
def parameter (index : Nat) : Writing Unit := do
  let page ← get
  if 0 < page.closures then
    put s!"auto:{index + 1}"
  else
    let argument ← argument index
    withScopes page.scopes.tail (inner argument)

/-- The target of a conversion.  Its parameters are those of the template whose name is being
written, but for those in its own template arguments. -/
def conversion (target : PartId) : Writing Unit := do
  put "operator "
  let page ← get
  let scopes := page.naming.toList ++ page.scopes
  match ← partAt target with
  | .template name arguments =>
    -- The arguments stand outside the scope that the name before them stands in.
    withScopes scopes (inner name)
    argumentList inner arguments
  | _ => withScopes scopes (inner target)

/-- A closure, by its parameters and its number. -/
def closure (parameters : PartId) (index : Nat) : Writing Unit := do
  put "\x7blambda("
  modify fun page => { page with closures := page.closures + 1 }
  inner parameters
  modify fun page => { page with closures := page.closures - 1 }
  put (")#" ++ toString (index + 1) ++ "\x7d")

/-- A type inside a qualifier, which is written once where it is repeated. -/
def qualified (number : PartId) (qualifier : Qualifier) (type : PartId) : Writing Unit := do
  if ← Declarator.isQualifiedBy qualifier (← get).around then inner type
  else Declarator.putMade inner number type

/-- The scopes in which a reference to a template parameter is written.  Where it is referred back
to, they are those in which the parameter was met first in a reference, unless it is inside
itself. -/
def referenceScopes (number parameter : PartId) : Writing (List PartId) := do
  let page ← get
  match page.remembered.lookup parameter with
  | none =>
    modify fun page => { page with remembered := (parameter, page.scopes) :: page.remembered }
    return page.scopes
  | some scopes =>
    -- The reference being written is the first of the open parts.
    if page.opened.contains parameter || page.opened.tail.contains number then
      return page.scopes
    else
      return scopes

/-- A reference, written as one reference together with the reference that its target `shown` is: an
rvalue reference only where both are. -/
def collapsed (number target shown : PartId) (isRvalue : Bool) : Writing Unit := do
  match ← partAt shown with
  | .reference deeper => Declarator.putMade inner shown deeper
  | .rvalueReference deeper =>
    Declarator.putMade inner (if isRvalue then shown else number) deeper
  | _ => Declarator.putMade inner number target

/-- A reference.  A target that is a template parameter is judged by its argument. -/
def reference (number target : PartId) (isRvalue : Bool) : Writing Unit := do
  match ← partAt target, (← get).closures with
  | .parameter index, 0 =>
    withScopes (← referenceScopes number target) do
      collapsed inner number target (← argument index) isRvalue
  | _, _ => collapsed inner number target target isRvalue

/-- A function type: its result with the function around it, if it has one. -/
def function (number : PartId) (result : Option PartId) (parameters : PartId) :
    Writing Unit := do
  let around := (← get).around
  let withoutResult := Declarator.putFunction inner parameters around
    (Declarator.putAll inner false around) (Declarator.putAll inner true around)
  match result with
  | none => withoutResult
  | some result =>
    let new ← declarator number
    withAround (new :: around) (inner result)
    unless ← isWritten new do
      put " "
      withoutResult

/-- The greatest number of qualifiers that an array takes over. -/
def arrayQualifierLimit : Nat := 3

/-- An array: its element with the array around it, and with the qualifiers of the array. -/
def array (number : PartId) (bound : Option PartId) (element : PartId) : Writing Unit := do
  let around := (← get).around
  let new ← declarator number
  let taken := (← Declarator.takeQualifiers around).reverse
  guard (taken.length ≤ arrayQualifierLimit)
  -- The qualifiers go between the element and the array: `int const [3]`.
  withAround (taken ++ new :: around) (inner element)
  unless ← isWritten new do
    taken.forM fun qualifier => Declarator.putModifier inner qualifier.part
    Declarator.putArray inner bound around (Declarator.putAll inner false around)

/-- A pattern that is written without parentheses. -/
def isSimplePattern : Part → Bool
  | .text _ => true
  | .scoped .. => true
  | _ => false

/-- The items of a pack from `item` on, `count` of them, in a pattern. -/
def items (pattern : PartId) : (count item : Nat) → Writing Unit
  | 0, _ => pure ()
  | count + 1, item => do
    modify fun page => { page with item }
    inner pattern
    unless count = 0 do
      put ", "
    items pattern count (item + 1)

/-- An expansion: its pattern for each item of the pack in it, or once where there is none. -/
def expansion (pattern : PartId) : Writing Unit := do
  match ← packIn? pattern with
  | some pack => items inner pattern ((← read).listItems pack).length 0
  | none =>
    if isSimplePattern (← partAt pattern) then
      inner pattern
      put "..."
    else
      put "("
      inner pattern
      put ")..."

/-- A constant behind its type in parentheses. -/
def typedLiteral (type : PartId) (sign opening : String) (digits : PartId) (closing : String) :
    Writing Unit := do
  put "("
  inner type
  put (")" ++ sign ++ opening)
  inner digits
  put closing

/-- A constant, in the style of its type. -/
def literal (type : PartId) (negative : Bool) (digits : PartId) : Writing Unit := do
  let sign := if negative then "-" else ""
  let style :=
    match ← partAt type with
    | .builtin builtin => builtin.style
    | _ => .typed
  match style with
  | .number suffix =>
    put sign
    inner digits
    put suffix
  | .boolean =>
    match negative, ← partAt digits with
    | false, .text "0" => put "false"
    | false, .text "1" => put "true"
    | _, _ => typedLiteral inner type sign "" digits ""
  | .floating => typedLiteral inner type sign "[" digits "]"
  | .typed => typedLiteral inner type sign "" digits ""

/-- The greatest number of declarators that a function's name makes. -/
def nameDeclaratorLimit : Nat := 4

/-- What a function's name puts around its type: the name itself and its qualifiers, the innermost
first; and the name without them.  The qualifiers of an entity inside a function are its own and
those of the name. -/
def nameParts (name : PartId) : Writing (List PartId × PartId) := do
  let table ← read
  let (outer, bare) := table.splitMember name
  match ← partAt bare with
  | .inside _ _ entity =>
    let (own, bareEntity) := table.splitMember entity
    return (bare :: own.reverse ++ outer.reverse, bareEntity)
  | _ => return (bare :: outer.reverse, bare)

/-- A function's name with its type.  An instance of a template is the scope of its type. -/
def typed (name type : PartId) : Writing Unit := do
  let (parts, bare) ← nameParts name
  guard (parts.length ≤ nameDeclaratorLimit)
  let declarators ← parts.mapM declarator
  let scopes := (← get).scopes
  -- The name stands outside the scope of the template that it is an instance of.
  withAround declarators do
    withScopes (if (← partAt bare).isTemplate then bare :: scopes else scopes) (inner type)
    for declarator in declarators do
      unless ← isWritten declarator do
        put " "
        Declarator.putModifier inner declarator.part

/-- A part, where other parts are written by `inner`. -/
def part (number : PartId) : Part → Writing Unit
  | .text words => put words
  | .abbreviation words => put words
  | .builtin type => put type.name
  | .vendorType name => inner name
  | .tagged name tag => do
    inner name
    put "[abi:"
    inner tag
    put "]"
  | .scoped scope name => do
    inner scope
    put "::"
    inner name
  | .inside function argument entity => do
    inner function
    put ("::" ++ defaultArgumentScope argument)
    inner entity
  | .template name arguments => template inner number name arguments
  | .list first rest => list inner first rest
  | .parameter index => parameter inner index
  | .ctor owner => inner owner
  | .dtor owner => do
    put "~"
    inner owner
  | .conversion target => conversion inner target
  | .operator spelling => put (operatorText spelling)
  | .literalOperator name => do
    put "operator\"\" "
    inner name
  | .vendorOperator name => do
    put "operator "
    inner name
  | .closure parameters index => closure inner parameters index
  | .unnamed index => put ("\x7bunnamed type#" ++ toString (index + 1) ++ "\x7d")
  | .qualified qualifier type => qualified inner number qualifier type
  | .reference target => reference inner number target false
  | .rvalueReference target => reference inner number target true
  | .member _ function => Declarator.putMade inner number function
  | .pointer target => Declarator.putMade inner number target
  | .complex type => Declarator.putMade inner number type
  | .imaginary type => Declarator.putMade inner number type
  | .vendorQualified type _ => Declarator.putMade inner number type
  | .vector _ element => Declarator.putMade inner number element
  | .memberPointer _ target => Declarator.putMade inner number target
  | .function result parameters => function inner number result parameters
  | .array bound element => array inner number bound element
  | .expansion pattern => expansion inner pattern
  | .literal type negative digits => literal inner type negative digits
  | .typed name type => typed inner name type
  | .described words subject => do
    put words
    inner subject
  | .constructionTable base derived => do
    put "construction vtable for "
    inner base
    put "-in-"
    inner derived
  | .temporary subject number => do
    put "reference temporary #"
    inner number
    put " for "
    inner subject
  | .clone symbol suffix => do
    inner symbol
    put " [clone "
    inner suffix
    put "]"

end Written

/-! ## Whole symbols -/

/-- How often a part can be inside itself. -/
def nestingLimit : Nat := 2

/-- Writes a part, to a depth. -/
def write : (depth : Nat) → Writer
  | 0, _ => failure
  | depth + 1, number => do
    let opened := (← get).opened
    guard (opened.count number < nestingLimit)
    modify fun page => { page with opened := number :: opened }
    Written.part (write depth) number (← partAt number)
    modify fun page => { page with opened }

/-- How deep parts are written inside each other. -/
def depthLimit : Nat := 1025

/-- The readable form of what a symbol spells, if it can be written. -/
def Spelling.render? (spelling : Spelling) : Option String :=
  (((write depthLimit spelling.whole).run spelling.parts).run {}).map fun (_, page) => page.text

end CallAtlas.Symbol
