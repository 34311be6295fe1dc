import CallAtlas.Symbol.Page

/-!
# Writing declarators

How what is made of a type is written around it: `*`, `&` and qualifiers in line, the parameters of
functions and the bounds of arrays behind, and parentheses where they are needed, as in
`int (*(*)(char))()`.

All definitions take the way in which other parts are written, as `inner`.

## Main definitions

* `Declarator.putModifier` — one declarator in line;
* `Declarator.putFunction`, `Declarator.putArray` — those that go around others;
* `Declarator.putAll` — a list of declarators.
-/

namespace CallAtlas.Symbol

/-- The word of a qualifier, behind a blank. -/
def Qualifier.suffix : Qualifier → String
  | .restrict => " restrict"
  | .volatile => " volatile"
  | .const => " const"

/-- The word of a member qualifier, behind a blank. -/
def MemberQualifier.suffix : MemberQualifier → String
  | .object qualifier => qualifier.suffix
  | .lvalue => " &"
  | .rvalue => " &&"
  | .transactionSafe => " transaction_safe"
  | .noexcept => " noexcept"

/-- The default argument that an entity is in, as a scope of its name. -/
def defaultArgumentScope : Option Nat → String
  | none => ""
  | some index => "\x7bdefault arg#" ++ toString (index + 1) ++ "\x7d::"

namespace Declarator

open Writing

variable (inner : Writer)

/-- Writes a declarator that stands in line. -/
def putModifier (number : PartId) : Writing Unit := do
  match ← partAt number with
  | .qualified qualifier _ => put qualifier.suffix
  | .member qualifier _ => put qualifier.suffix
  | .pointer _ => put "*"
  | .reference _ => put "&"
  | .rvalueReference _ => put "&&"
  | .complex _ => put " _Complex"
  | .imaginary _ => put " _Imaginary"
  | .vendorQualified _ qualifier =>
    put " "
    inner qualifier
  | .vector size _ =>
    put " __vector("
    inner size
    put ")"
  | .memberPointer owner _ =>
    unless (← get).last = '(' do
      put " "
    inner owner
    put "::*"
  | _ => inner number

/-- How a function is set off from the declarators around it. -/
inductive Grouping where
  | none
  /-- In parentheses, behind a blank unless a parenthesis or star stands before. -/
  | close
  /-- In parentheses behind a blank. -/
  | apart
  deriving DecidableEq

/-- The grouping that a declarator asks for. -/
def groupingOf : Part → Grouping
  | .pointer _ => .close
  | .reference _ => .close
  | .rvalueReference _ => .close
  | .qualified .. => .apart
  | .vendorQualified .. => .apart
  | .complex _ => .apart
  | .imaginary _ => .apart
  | .memberPointer .. => .apart
  | _ => .none

/-- The grouping that the declarators around a function ask for: the first that asks decides, up to
the first that has been written. -/
def grouping : List Declarator → Writing Grouping
  | [] => pure .none
  | first :: rest => do
    if ← isWritten first then
      return .none
    match groupingOf (← partAt first.part) with
    | .none => grouping rest
    | asked => return asked

/-- Opens the parentheses of a grouping. -/
def openGrouping (asked : Grouping) : Writing Unit := do
  let last := (← get).last
  let blank := asked = .apart || (last ≠ '(' && last ≠ '*')
  if blank && last ≠ ' ' then put " ("
  else put "("

/-- Writes a function around which the declarators `around` stand; `front` writes those, and `back`
what is left for behind the parameters. -/
def putFunction (parameters : PartId) (around : List Declarator) (front back : Writing Unit) :
    Writing Unit := do
  let asked ← grouping around
  unless asked = .none do
    openGrouping asked
  withAround [] do
    front
    unless asked = .none do
      put ")"
    put "("
    inner parameters
    put ")"
    back

/-- Writes an array around which the declarators `around` stand; `front` writes those. -/
def putArray (bound : Option PartId) (around : List Declarator) (front : Writing Unit) :
    Writing Unit := do
  match ← dropWritten around with
  | [] => put " "
  | first :: _ =>
    match ← partAt first.part with
    | .array .. => front
    | _ =>
      put " ("
      front
      put ") "
  put "["
  bound.forM inner
  put "]"

/-- Writes a list of declarators, but for those that are written.  The qualifiers of member
functions are written only `behind` the parameters.  A function or an array goes around all that
come after it, and behind the name of an entity in a function there is nothing more. -/
def putAll (behind : Bool) : List Declarator → Writing Unit
  | [] => pure ()
  | first :: rest => do
    let shape ← partAt first.part
    if (← isWritten first) || (!behind && shape.isMember) then
      putAll behind rest
    else
      mark first
      match shape with
      | .function _ parameters =>
        withScopes first.scopes
          (putFunction inner parameters rest (putAll false rest) (putAll true rest))
      | .array bound _ =>
        withScopes first.scopes (putArray inner bound rest (putAll false rest))
      | .inside function argument entity =>
        withScopes first.scopes do
          withAround [] (inner function)
          put ("::" ++ defaultArgumentScope argument)
          -- The qualifiers of the entity are declarators of their own.
          inner ((← read).splitMember entity).2
      | _ =>
        withScopes first.scopes (putModifier inner first.part)
        putAll behind rest

/-- Writes a part and what is made of it: the part with the new declarator around it, and then the
declarator, if the part has not written it. -/
def putMade (made part : PartId) : Writing Unit := do
  let new ← declarator made
  withAround (new :: (← get).around) do
    inner part
    unless ← isWritten new do
      putModifier inner made

/-- Whether the qualifiers next to the type being written already have this one. -/
def isQualifiedBy (qualifier : Qualifier) : List Declarator → Writing Bool
  | [] => pure false
  | first :: rest => do
    if ← isWritten first then
      isQualifiedBy qualifier rest
    else
      match ← partAt first.part with
      | .qualified other _ =>
        if other = qualifier then return true else isQualifiedBy qualifier rest
      | _ => return false

/-- Takes over the qualifiers next to an array, which are those of its elements. -/
def takeQualifiers : List Declarator → Writing (List Declarator)
  | [] => pure []
  | first :: rest => do
    match ← partAt first.part with
    | .qualified .. =>
      if ← isWritten first then
        takeQualifiers rest
      else
        mark first
        let taken ← declaratorIn first.scopes first.part
        return taken :: (← takeQualifiers rest)
    | _ => return []

end Declarator

end CallAtlas.Symbol
