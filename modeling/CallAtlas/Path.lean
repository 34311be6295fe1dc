/-!
# File paths

A path is a root, if any, and a list of names.  Empty names and single dots are dropped on reading,
so `./a//b` and `a/b` are one path; double dots stay, since what they lead to depends on the files.
Exactly two leading slashes are a root of their own.
-/

namespace CallAtlas

/-- A normalised file path. -/
structure Path where
  /-- The leading slashes that count: none, one or two. -/
  root : String := ""
  names : List String := []
  deriving DecidableEq, Repr

namespace Path

/-- The text between slashes. -/
def segments : List Char → List (List Char)
  | [] => [[]]
  | c :: rest =>
    if c = '/' then [] :: segments rest
    else
      match segments rest with
      | [] => [[c]]
      | head :: tail => (c :: head) :: tail

/-- The root at the head of a text. -/
def rootOf : List Char → String
  | '/' :: '/' :: '/' :: _ => "/"
  | '/' :: '/' :: _ => "//"
  | '/' :: _ => "/"
  | _ => ""

/-- The path that a text names. -/
def ofString (text : String) : Path :=
  let names := (segments text.toList).filter fun name => name ≠ [] && name ≠ ['.']
  ⟨rootOf text.toList, names.map String.ofList⟩

/-- The written form; a path without root and names is a single dot. -/
protected def toString (p : Path) : String :=
  if p.root.isEmpty && p.names.isEmpty then "." else p.root ++ "/".intercalate p.names

instance : ToString Path := ⟨Path.toString⟩

end Path

end CallAtlas
