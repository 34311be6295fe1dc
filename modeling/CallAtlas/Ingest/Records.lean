import CallAtlas.Dump.Block
import CallAtlas.Label
import CallAtlas.Session

/-!
# Records of a dump

The functions and calls that a dump describes, taken from the nodes and edges right under its
outermost block.  Everything else in the dump is passed over.

A dump is refused when its outermost block is no graph, when a node lacks a title or a label, and
when an edge lacks a source or a target.  Nodes are looked at before edges.

## Main definitions

* `FunctionRecord`, `CallRecord`, `Records`;
* `collect` — the records of a dump.
-/

namespace CallAtlas.Ingest

open CallAtlas.Dump (Block)

/-- A function as a dump describes it: its name, and the text that tells its place. -/
structure FunctionRecord where
  name : String
  location : String
  deriving DecidableEq, Repr

/-- A call as a dump describes it. -/
structure CallRecord where
  source : String
  target : String
  label : String
  deriving DecidableEq, Repr

/-- The functions and calls of one dump, each in the order of the text. -/
structure Records where
  source : String
  functions : List FunctionRecord := []
  calls : List CallRecord := []
  deriving DecidableEq, Repr

/-- The failure of a dump `source` that is not a call graph. -/
def schemaFailure (source : String) (fault : SchemaFault) : Failure :=
  .diagnosed { cause := .schema fault, path := some source }

/-- The value of a field that a block must have. -/
def requireField (source : String) (block : Block) (key : String) : Action String :=
  match block.field? key with
  | some value => pure value
  | none => throw (schemaFailure source (.missingField block.kind key))

/-- The function that a node describes; `nameOf` makes names readable. -/
def functionRecord (nameOf : String → Action String) (source : String) (node : Block) :
    Action FunctionRecord := do
  let title ← requireField source node Schema.nodeTitle
  let label ← requireField source node Schema.nodeLabel
  let name ← nameOf title
  return ⟨name, Label.locationLine label⟩

/-- The call that an edge describes; without a label it is intrinsic. -/
def callRecord (nameOf : String → Action String) (source : String) (edge : Block) :
    Action CallRecord := do
  let caller ← nameOf (← requireField source edge Schema.edgeSource)
  let callee ← nameOf (← requireField source edge Schema.edgeTarget)
  return ⟨caller, callee, (edge.field? Schema.edgeLabel).getD Schema.intrinsicLabel⟩

/-- The records of a dump, whose outermost block must be a graph. -/
def collect (demangle : Resolver.Demangler) (options : Options) (source : String)
    (block : Block) : Action Records := do
  if block.kind ≠ Schema.graphKind then
    throw (schemaFailure source (.notAGraph block.kind))
  let nameOf := if options.demangle then Action.readable demangle else pure
  let functions ← (block.blocksOfKind Schema.nodeKind).mapM (functionRecord nameOf source)
  let calls ← (block.blocksOfKind Schema.edgeKind).mapM (callRecord nameOf source)
  return { source, functions, calls }

end CallAtlas.Ingest
