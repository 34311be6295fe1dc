/-!
# Parts of a symbol

A mangled symbol spells out a name and types in a compact code.  What it spells is made of parts:
names and the scopes they stand in, templates with their arguments, types built from other types,
and a few words about what the symbol is for.

A symbol can refer back to parts it has spelled, so a part may belong to several others.  The parts
are therefore kept in a `Table` and refer to each other by their numbers in it.

Parts that a template leaves open are `Part.parameter`; they are filled in from the arguments of the
template when the symbol is written.

## Main definitions

* `Part`, `Table`, `Spelling`;
* `Table.listItem?`, `Table.listItems` — the parts in a list;
* `Table.splitMember` — a name apart from the qualifiers around it;
* `Table.spellsResult` — whether the type of a function spells its result.
-/

namespace CallAtlas.Symbol

/-- How a constant of a builtin type is written. -/
inductive LiteralStyle where
  /-- Behind its type in parentheses. -/
  | typed
  /-- As a number with a letter or two behind it. -/
  | number (suffix : String)
  /-- As a truth value. -/
  | boolean
  /-- Behind its type in parentheses, and in brackets. -/
  | floating
  deriving DecidableEq, Repr

/-- A builtin type. -/
structure Builtin where
  name : String
  style : LiteralStyle := .typed
  deriving DecidableEq, Repr

/-- Qualifiers of types, and of the object that a member function works on. -/
inductive Qualifier where
  | restrict
  | volatile
  | const
  deriving DecidableEq, Repr

/-- What can stand behind the parameters of a function. -/
inductive MemberQualifier where
  | object (qualifier : Qualifier)
  | lvalue
  | rvalue
  | transactionSafe
  | noexcept
  deriving DecidableEq, Repr

/-- The number of a part in its table. -/
abbrev PartId := Nat

/-- A part of a symbol. -/
inductive Part where
  /-- A name, or any other fixed text. -/
  | text (words : String)
  /-- A name of the standard library that has a code of its own. -/
  | abbreviation (words : String)
  | builtin (type : Builtin)
  | vendorType (name : PartId)
  | tagged (name tag : PartId)
  | scoped (scope name : PartId)
  /-- An entity inside a function, or inside one of its default arguments, counted from the last. -/
  | inside (function : PartId) (argument : Option Nat) (entity : PartId)
  | template (name arguments : PartId)
  /-- Parameters or arguments, by the first and the list of the others.  As an argument, a list is
  a pack: several arguments in the place of one. -/
  | list (first rest : Option PartId)
  /-- A template argument to be filled in. -/
  | parameter (index : Nat)
  | ctor (owner : PartId)
  | dtor (owner : PartId)
  | conversion (target : PartId)
  | operator (spelling : String)
  | literalOperator (name : PartId)
  | vendorOperator (name : PartId)
  | closure (parameters : PartId) (index : Nat)
  | unnamed (index : Nat)
  | qualified (qualifier : Qualifier) (type : PartId)
  /-- A qualified member function: its name or its type. -/
  | member (qualifier : MemberQualifier) (function : PartId)
  | pointer (target : PartId)
  | reference (target : PartId)
  | rvalueReference (target : PartId)
  | complex (type : PartId)
  | imaginary (type : PartId)
  | vendorQualified (type qualifier : PartId)
  /-- A function type; without a result only its parameters are written. -/
  | function (result : Option PartId) (parameters : PartId)
  | array (bound : Option PartId) (element : PartId)
  | vector (size element : PartId)
  | memberPointer (owner target : PartId)
  /-- A pattern written once for each item of the pack in it. -/
  | expansion (pattern : PartId)
  | literal (type : PartId) (negative : Bool) (digits : PartId)
  /-- A function's name with its type. -/
  | typed (name type : PartId)
  /-- Something that belongs to `subject`, as `words` say. -/
  | described (words : String) (subject : PartId)
  | constructionTable (base derived : PartId)
  | temporary (subject number : PartId)
  | clone (symbol suffix : PartId)
  deriving DecidableEq, Repr

namespace Part

/-- The type that stands alone in a list of no parameters. -/
def isVoid : Part → Bool
  | .builtin type => type.name == "void"
  | _ => false

/-- A qualified member function. -/
def isMember : Part → Bool
  | .member .. => true
  | _ => false

/-- A name of the standard library with a code of its own. -/
def isAbbreviation : Part → Bool
  | .abbreviation _ => true
  | _ => false

/-- A template with its arguments. -/
def isTemplate : Part → Bool
  | .template .. => true
  | _ => false

/-- An entity inside a function. -/
def isInside : Part → Bool
  | .inside .. => true
  | _ => false

/-- A function type without its result. -/
def withoutResult : Part → Part
  | .function _ parameters => .function none parameters
  | other => other

end Part

/-- The parts of a symbol, by their numbers. -/
abbrev Table := Array Part

namespace Table

/-- The item of a list that stands behind `index` others. -/
def listItem? (table : Table) : (index : Nat) → PartId → Option PartId
  | 0, list =>
    match table[list]? with
    | some (.list first _) => first
    | _ => none
  | index + 1, list =>
    match table[list]? with
    | some (.list _ (some rest)) => table.listItem? index rest
    | _ => none

/-- The items of a list, up to `limit` of them. -/
def listItemsUpTo (table : Table) : (limit : Nat) → PartId → List PartId
  | 0, _ => []
  | limit + 1, list =>
    match table[list]? with
    | some (.list (some first) (some rest)) => first :: table.listItemsUpTo limit rest
    | some (.list (some first) none) => [first]
    | _ => []

/-- The items of a list.  It has no more than there are parts. -/
def listItems (table : Table) (list : PartId) : List PartId :=
  table.listItemsUpTo table.size list

/-- The qualified members that a name is wrapped in, up to `limit` of them and the outermost first,
and the name inside them. -/
def splitMemberUpTo (table : Table) : (limit : Nat) → PartId → List PartId × PartId
  | 0, name => ([], name)
  | limit + 1, name =>
    match table[name]? with
    | some (.member _ inner) =>
      let (members, bare) := table.splitMemberUpTo limit inner
      (name :: members, bare)
    | _ => ([], name)

/-- The qualified members that a name is wrapped in, the outermost first, and the name inside
them. -/
def splitMember (table : Table) (name : PartId) : List PartId × PartId :=
  table.splitMemberUpTo table.size name

/-- Whether a name is that of a constructor, a destructor or a conversion, looked for through up to
`limit` scopes. -/
def isConstructionUpTo (table : Table) : (limit : Nat) → PartId → Bool
  | 0, _ => false
  | limit + 1, name =>
    match table[name]? with
    | some (.scoped _ inner) => table.isConstructionUpTo limit inner
    | some (.inside _ none entity) => table.isConstructionUpTo limit entity
    | some (.ctor _) => true
    | some (.dtor _) => true
    | some (.conversion _) => true
    | _ => false

/-- Whether the type of a function of this name spells its result, looked for through up to `limit`
parts. -/
def spellsResultUpTo (table : Table) : (limit : Nat) → PartId → Bool
  | 0, _ => false
  | limit + 1, name =>
    match table[name]? with
    | some (.inside _ none entity) => table.spellsResultUpTo limit entity
    | some (.member _ inner) => table.spellsResultUpTo limit inner
    | some (.template inner _) => !table.isConstructionUpTo table.size inner
    | _ => false

/-- Whether the type of a function of this name spells its result first.  Only instances of function
templates do. -/
def spellsResult (table : Table) (name : PartId) : Bool :=
  table.spellsResultUpTo table.size name

end Table

/-- What a symbol spells: its parts, and which of them is the whole. -/
structure Spelling where
  parts : Table
  whole : PartId

end CallAtlas.Symbol
