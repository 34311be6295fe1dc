/-!
# Labels of functions

The label of a function has several lines, divided by line feeds or by the two characters
backslash and `n`.  The second line tells where the function is defined; a label of one line tells
it by itself.
-/

namespace CallAtlas.Label

/-- The lines of a label. -/
def lines : List Char → List (List Char)
  | [] => [[]]
  | '\\' :: 'n' :: rest => [] :: lines rest
  | c :: rest =>
    if c = '\n' then [] :: lines rest
    else
      match lines rest with
      | [] => [[c]]
      | head :: tail => (c :: head) :: tail

/-- The line of a label that tells the place of definition. -/
def locationLine (label : String) : String :=
  match lines label.toList with
  | _ :: second :: _ => String.ofList second
  | [only] => String.ofList only
  | [] => ""

end CallAtlas.Label
