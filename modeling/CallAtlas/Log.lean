import CallAtlas.Diagnostic
import CallAtlas.Tally

/-!
# The log

What is worth telling while dumps are read, beyond results and errors.  An event says what happened;
its level, the part of the program it comes from and its wording follow from it.

## Main definitions

* `Level` and `Level.ofVerbosity`;
* `Event`, with `Event.level`, `Event.origin` and `Event.message`;
* `Event.line` — an event as one line of a log.
-/

namespace CallAtlas.Log

open CallAtlas.Text (quote quoteBytes)

/-- How much an event matters. -/
inductive Level where
  | debug
  | info
  | warning
  deriving DecidableEq, Repr

namespace Level

/-- The name of a level. -/
def name : Level → String
  | .debug => "DEBUG"
  | .info => "INFO"
  | .warning => "WARNING"

/-- Levels by weight. -/
def weight : Level → Nat
  | .debug => 10
  | .info => 20
  | .warning => 30

/-- The least level that is shown at a verbosity: warnings up to zero, everything from two on. -/
def ofVerbosity (verbosity : Int) : Level :=
  if verbosity = 1 then .info else if 2 ≤ verbosity then .debug else .warning

/-- The name cut or padded to five characters. -/
def tag (level : Level) : String :=
  String.ofList ((level.name.toList ++ List.replicate 5 ' ').take 5)

end Level

/-- Something that happened. -/
inductive Event where
  /-- Reading of a dump file begins. -/
  | reading (path : String)
  /-- A symbol stays as it is, because it has no readable form. -/
  | leftMangled (symbol : String)
  /-- A malformed location is passed over. -/
  | ignoredLocation (fault : LocationFault)
  /-- A call of a dump is dropped. -/
  | droppedCall (source : String) (cause : Cause)
  /-- A dump has been folded in. -/
  | ingested (tally : Tally)
  deriving DecidableEq, Repr

namespace Event

/-- How much an event matters. -/
def level : Event → Level
  | .reading _ => .debug
  | .leftMangled _ => .debug
  | .ignoredLocation _ => .warning
  | .droppedCall .. => .debug
  | .ingested _ => .info

/-- The channel an event is told on. -/
def origin : Event → String
  | .reading _ => "callgraph_info.grammar"
  | .leftMangled _ => "callgraph_info.demangle"
  | .ignoredLocation _ => "callgraph_info.callgraph"
  | .droppedCall .. => "callgraph_info.ingest"
  | .ingested _ => "callgraph_info.ingest"

/-- The wording of an event. -/
def message : Event → String
  | .reading path => s!"Parsing call-graph dump {path}"
  | .leftMangled symbol =>
    s!"Leaving {quote symbol} mangled: {quoteBytes symbol.toUTF8.data.toList}"
  | .ignoredLocation fault => s!"Ignoring malformed location: {fault.message}"
  | .droppedCall source cause => s!"{source}: dropping call: {cause.message}"
  | .ingested tally => tally.summary

/-- An event as one line of a log, told at `time`. -/
def line (time : String) (e : Event) : String :=
  s!"{time} [{e.level.tag}] {e.origin}: {e.message}"

/-- Whether an event is shown where `least` is the least level shown. -/
def isShownAt (least : Level) (e : Event) : Bool :=
  least.weight ≤ e.level.weight

end Event

end CallAtlas.Log
