import CallAtlas.Dump.Word

/-!
# Nesting depth

How deeply the braces of a text nest, from the text alone and whether or not it is a dump.  Quoted
values are taken out first, from left to right and from any double quote on; a quote without a
partner stays.  A closing brace too many lowers the depth below zero until braces open again.

## Main definitions

* `withoutQuotes` — a text without its quoted values;
* `nestingDepth` — the deepest nesting of braces outside quoted values.
-/

namespace CallAtlas.Dump

/-- A text without its quoted values. -/
def withoutQuotes (s : List Char) : List Char :=
  match s with
  | [] => []
  | c :: rest =>
    match hquoted : quoted? (c :: rest) with
    | some (_, after) =>
      have : after.length < rest.length + 1 := length_lt_of_quoted? hquoted
      withoutQuotes after
    | none => c :: withoutQuotes rest
termination_by s.length

/-- The deepest nesting of a text that stands at depth `depth`, if deeper than `deepest`. -/
def deepestBrace : Int → Int → List Char → Int
  | _, deepest, [] => deepest
  | depth, deepest, c :: rest =>
    if c = '{' then deepestBrace (depth + 1) (max deepest (depth + 1)) rest
    else if c = '}' then deepestBrace (depth - 1) deepest rest
    else deepestBrace depth deepest rest

/-- The deepest nesting of braces in a text, those inside quoted values not counted. -/
def nestingDepth (text : String) : Nat :=
  (deepestBrace 0 0 (withoutQuotes text.toList)).toNat

end CallAtlas.Dump
