import CallAtlas.Location
import CallAtlas.Text.Quoted

/-!
# Diagnostics

What can be wrong with a dump, with a call or with a question about the graph, and how it is told.
A diagnostic is a cause together with the place it concerns.  Its message has the form that
compilers use, `path:line:column: text`, as far as path, line and column are known.

## Main definitions

* `Mention` — what a message can name;
* `Cause` and `Cause.message` — what is wrong, and its wording;
* `Cause.isWritable` — whether the wording can be written, for the digits of the numbers in it;
* `Diagnostic` and `Diagnostic.message` — a cause with its place, and the two together;
* `Diagnostic.withPath` — names the file, unless one is named already.
-/

namespace CallAtlas

open CallAtlas.Text (quote hexLiteral)

/-- A function as questions name it: by name or by number.  Any number may be asked for. -/
inductive FunctionRef where
  | name (text : String)
  | id (number : Int)
  deriving DecidableEq, Repr

/-- Something that a message names. -/
inductive Mention where
  | text (words : String)
  | number (value : Int)
  | site (location : Location)
  | texts (items : List String)
  | truth (value : Bool)
  | nothing
  deriving DecidableEq, Repr

namespace Mention

/-- A mention in the running text: texts and places as they are written. -/
def plain : Mention → String
  | .text words => words
  | .number value => toString value
  | .site location => location.toString
  | .texts items => "[" ++ ", ".intercalate (items.map quote) ++ "]"
  | .truth true => "True"
  | .truth false => "False"
  | .nothing => "None"

/-- A mention set off from the running text: texts are quoted, and places are shown by their
fields. -/
def quoted : Mention → String
  | .text words => quote words
  | .site location =>
    s!"Location(file={quote location.file}, line={location.line}, column={location.column})"
  | other => other.plain

/-- The numbers that are shown by their decimal digits, either way. -/
def numbers : Mention → List Int
  | .number value => [value]
  | .site location => [location.line, location.column]
  | .text _ => []
  | .texts _ => []
  | .truth _ => []
  | .nothing => []

end Mention

/-- Why a text is not a dump. -/
inductive SyntaxFault where
  /-- Reading failed before `excerpt`. -/
  | near (excerpt : String)
  /-- A fault in the caller's own words. -/
  | described (text excerpt : String)
  deriving DecidableEq, Repr

/-- The text at the fault. -/
def SyntaxFault.excerpt : SyntaxFault → String
  | .near excerpt => excerpt
  | .described _ excerpt => excerpt

/-- The wording of a syntax fault. -/
def SyntaxFault.message : SyntaxFault → String
  | .near excerpt => s!"Syntax error in call-graph dump near {quote excerpt}"
  | .described text _ => text

/-- Why a dump is not a call graph. -/
inductive SchemaFault where
  /-- The outermost block is of another kind. -/
  | notAGraph (found : String)
  /-- A block lacks a field that its kind needs. -/
  | missingField (kind key : String)
  /-- A fault in the caller's own words. -/
  | described (text : String)
  deriving DecidableEq, Repr

/-- The wording of a schema fault. -/
def SchemaFault.message : SchemaFault → String
  | .notAGraph found => s!"file does not contain a graph at the toplevel (found '{found}')"
  | .missingField kind key => s!"'{kind}' object has no '{key}' field"
  | .described text => text

/-- Why a location cannot be read. -/
inductive LocationFault where
  /-- The text where `coordinate` should stand in `source` is not a number. -/
  | notANumber (coordinate : Location.Coordinate) (text source : String)
  /-- A fault of the location `source` in the caller's own words. -/
  | described (text source : String)
  deriving DecidableEq, Repr

/-- The text that should have been a location. -/
def LocationFault.source : LocationFault → String
  | .notANumber _ _ source => source
  | .described _ source => source

/-- The wording of a location fault. -/
def LocationFault.message : LocationFault → String
  | .notANumber coordinate text source =>
    s!"Invalid {coordinate.word} {quote text} in location {quote source}"
  | .described text _ => text

/-- The two ends of a call. -/
inductive Endpoint where
  | source
  | target
  deriving DecidableEq, Repr

/-- What an end of a call is called. -/
def Endpoint.word : Endpoint → String
  | .source => "source"
  | .target => "target"

/-- What is wrong. -/
inductive Cause where
  /-- Anything, in the caller's own words. -/
  | general (text : String)
  /-- A text is not a dump. -/
  | malformedDump (fault : SyntaxFault)
  /-- A dump is not a call graph. -/
  | schema (fault : SchemaFault)
  /-- A location has a bad number. -/
  | location (fault : LocationFault)
  /-- A call names a function, on the side called `side`, that is not registered. -/
  | missingEndpoint (side name : String)
  /-- A question names a function that is not registered. -/
  | unknownFunction (function : Mention)
  /-- No function is defined at a location. -/
  | unknownLocation (site : Mention)
  /-- Several functions are defined at a location. -/
  | ambiguousLocation (site : Mention) (names : List String)
  /-- Two names have one id. -/
  | idCollision (id : Int) (owner incoming : String)
  deriving DecidableEq, Repr

/-- The wording of a cause. -/
def Cause.message : Cause → String
  | .general text => text
  | .malformedDump fault => fault.message
  | .schema fault => fault.message
  | .location fault => fault.message
  | .missingEndpoint side name => s!"No such {side} found: '{name}'"
  | .unknownFunction function => s!"Unknown function: {function.quoted}"
  | .unknownLocation site => s!"No function defined at {site.plain}"
  | .ambiguousLocation site names =>
    let listed := ", ".intercalate (names.map quote)
    s!"{names.length} functions defined at {site.plain}: {listed}"
  | .idCollision id owner incoming =>
    s!"Function id {hexLiteral 18 id} already belongs to '{owner}', " ++
      s!"cannot assign it to '{incoming}'"

/-- The numbers of the caller that a wording shows by their decimal digits; an id in a collision is
shown in hexadecimal. -/
def Cause.numbers : Cause → List Int
  | .unknownFunction function => function.numbers
  | .unknownLocation site => site.numbers
  | .ambiguousLocation site _ => site.numbers
  | .general _ => []
  | .malformedDump _ => []
  | .schema _ => []
  | .location _ => []
  | .missingEndpoint .. => []
  | .idCollision .. => []

/-- A number with too many digits is not shown, so that a wording with one cannot be written. -/
def Cause.isWritable (cause : Cause) : Bool :=
  cause.numbers.all fun n => Location.digitCount n ≤ Location.digitLimit

/-- A failed search: something asked for is not there, or is there more than once. -/
def Cause.isLookup : Cause → Bool
  | .missingEndpoint .. => true
  | .unknownFunction _ => true
  | .unknownLocation _ => true
  | .ambiguousLocation .. => true
  | _ => false

/-- A bad value: the text of a location that has no number where it needs one. -/
def Cause.isBadValue : Cause → Bool
  | .location _ => true
  | _ => false

/-- A cause and the place it concerns.  A line or column that is not positive is unknown. -/
structure Diagnostic where
  cause : Cause
  path : Option String := none
  line : Int := 0
  column : Int := 0
  deriving DecidableEq, Repr

namespace Diagnostic

/-- The wording without the place. -/
def text (d : Diagnostic) : String :=
  d.cause.message

/-- The file, the line if known, and the column if both are known, divided by colons. -/
def place (d : Diagnostic) (path : String) : String :=
  if 0 < d.line then
    if 0 < d.column then s!"{path}:{d.line}:{d.column}" else s!"{path}:{d.line}"
  else path

/-- The wording behind its place, as far as a file is known. -/
def message (d : Diagnostic) : String :=
  match d.path with
  | none => d.text
  | some path => s!"{d.place path}: {d.text}"

/-- Names the file concerned, unless one is named already. -/
def withPath (d : Diagnostic) (path : String) : Diagnostic :=
  { d with path := d.path <|> some path }

/-- A diagnostic names the first file it was given. -/
@[simp] theorem withPath_withPath (d : Diagnostic) (p q : String) :
    (d.withPath p).withPath q = d.withPath p := by
  cases d with
  | mk cause path line column => cases path <;> rfl

end Diagnostic

end CallAtlas
