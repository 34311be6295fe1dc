import CallAtlas.Log
import Std.Data.HashMap

/-!
# Readable names

Names in dumps may be mangled symbols, with the file of a local function in front: `a.c:_ZL3foov`.
Only what follows the last colon can be a symbol, so only that is handed to the demangler; the rest
of the name stays.  A symbol that the demangler rejects stays too, and that is worth an event.

Results are remembered by name, so each name is looked at once.  A memory of bounded size forgets
the name that has not been asked for the longest; as long as it has to forget none, it answers like
one that keeps all.

## Main definitions

* `Resolver.split` — a name as the text up to its last colon and the text behind it;
* `Resolver.readable` — the readable form of a name;
* `Resolver.resolve` — the same with a memory;
* `Resolver.resolveWithin` — the same with a memory of bounded size.
-/

namespace CallAtlas.Resolver

/-- The text up to and with the last colon, and the text behind it. -/
def split (name : List Char) : List Char × List Char :=
  let back := name.reverse
  ((back.dropWhile (· != ':')).reverse, (back.takeWhile (· != ':')).reverse)

/-- A demangler: the readable form of a symbol, or nothing when it rejects the symbol.  What is not
a symbol at all is its own readable form.  Every text is answered or rejected: there is no other way
to fail. -/
abbrev Demangler := String → Option String

/-- The readable form of a name, and the symbol in it that was rejected, if one was. -/
def readable (demangle : Demangler) (name : String) : String × Option String :=
  let (front, symbol) := split name.toList
  match demangle (String.ofList symbol) with
  | some form => (String.ofList front ++ form, none)
  | none => (name, some (String.ofList symbol))

/-- How many names a memory of bounded size keeps. -/
def memoCapacity : Nat := 16384

/-- The readable forms of the names seen so far. -/
structure Memo where
  forms : Std.HashMap String String := ∅

/-- The readable form of a name from memory, or found and remembered, with the events of finding
it. -/
def resolve (demangle : Demangler) (memo : Memo) (name : String) :
    String × List Log.Event × Memo :=
  match memo.forms[name]? with
  | some form => (form, [], memo)
  | none =>
    let (form, rejected) := readable demangle name
    (form, rejected.toList.map .leftMangled, ⟨memo.forms.insert name form⟩)

/-- The readable forms of the names asked for last, the latest name in front. -/
structure Recent where
  forms : List (String × String) := []
  deriving DecidableEq, Repr

/-- The readable form of a name from a memory of at most `capacity` names, or found and remembered,
with the events of finding it.  A name that is found in memory comes to the front; one that is new
drives the last one out if there are too many. -/
def resolveWithin (capacity : Nat) (demangle : Demangler) (recent : Recent) (name : String) :
    String × List Log.Event × Recent :=
  match recent.forms.lookup name with
  | some form =>
    (form, [], ⟨(name, form) :: recent.forms.filter fun entry => entry.1 != name⟩)
  | none =>
    let (form, rejected) := readable demangle name
    (form, rejected.toList.map .leftMangled, ⟨((name, form) :: recent.forms).take capacity⟩)

end CallAtlas.Resolver
