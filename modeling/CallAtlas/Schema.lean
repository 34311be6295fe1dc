/-!
# The vocabulary of call-graph dumps

The kinds and keys that make a dump a call graph, and the version of this library that the
vocabulary belongs to.
-/

namespace CallAtlas.Schema

/-- The kind of the outermost block. -/
def graphKind : String := "graph"

/-- The kind of a block that describes a function. -/
def nodeKind : String := "node"

/-- The kind of a block that describes a call. -/
def edgeKind : String := "edge"

/-- The key of a function's identity. -/
def nodeTitle : String := "title"

/-- The key of a function's description, whose second line tells where it is defined. -/
def nodeLabel : String := "label"

/-- The key of a call's caller. -/
def edgeSource : String := "sourcename"

/-- The key of a call's callee. -/
def edgeTarget : String := "targetname"

/-- The key of a call's place. -/
def edgeLabel : String := "label"

/-- The label of a call without a place in the source. -/
def intrinsicLabel : String := "intrinsic"

/-- The two characters that end a line inside a label. -/
def labelLineSeparator : String := "\\n"

/-- The version of the vocabulary. -/
def version : String := "0.1.0"

end CallAtlas.Schema
