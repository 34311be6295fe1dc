import CallAtlas.Graph.Basic

/-!
# Questions about a call graph

Looking up functions by name, id and place, calls by either end, and counting.  A question about a
function or place that is not there fails: with the cause, or with a number in the question that has
too many digits to be shown in it.
-/

namespace CallAtlas.Graph

/-! ## Functions -/

/-- Whether a name is registered. -/
def contains (g : Graph) (name : String) : Bool :=
  g.ids.contains name

/-- The names in the order of their first registration. -/
def functions (g : Graph) : List String :=
  g.order.toList

/-- The id of a name. -/
def idOfName (g : Graph) (name : String) : Except Failure FunctionId :=
  match g.ids[name]? with
  | some id => .ok id
  | none => .error (.ofCause (.unknownFunction (.text name)))

/-- The name that a number is the id of. -/
def nameOfId (g : Graph) (id : FunctionId) : Except Failure String :=
  match g.names[id]? with
  | some name => .ok name
  | none => .error (.ofCause (.unknownFunction (.number id)))

/-- The id of a function named either way. -/
def resolve (g : Graph) : FunctionRef → Except Failure FunctionId
  | .name name => g.idOfName name
  | .id number => (g.nameOfId number).map fun _ => number

/-- The place where a function is defined, or none. -/
def locationOf (g : Graph) (name : String) : Except Failure (Option Location) :=
  (g.idOfName name).map fun id => (g.locations[id]?).getD none

/-- The functions defined at a place, in ascending order. -/
def namesAt (g : Graph) (site : Location) : List String :=
  ((g.sites.getD site []).filterMap fun id => g.names[id]?).mergeSort fun a b => decide (a ≤ b)

/-- The only function defined at a place. -/
def nameAt (g : Graph) (site : Location) : Except Failure String :=
  match g.namesAt site with
  | [] => .error (.ofCause (.unknownLocation (.site site)))
  | [name] => .ok name
  | names => .error (.ofCause (.ambiguousLocation (.site site) names))

/-! ## Calls -/

/-- The calls out of the function `id`. -/
def callsOut (g : Graph) (id : FunctionId) : Array Call :=
  g.outgoing.getD id #[]

/-- The calls into the function `id`. -/
def callsIn (g : Graph) (id : FunctionId) : Array Call :=
  g.incoming.getD id #[]

/-- The calls out of a function, in the order they were added. -/
def callsFrom (g : Graph) (function : FunctionRef) : Except Failure (List Call) :=
  (g.resolve function).map fun id => (g.callsOut id).toList

/-- The calls into a function, in the order they were added. -/
def callsTo (g : Graph) (function : FunctionRef) : Except Failure (List Call) :=
  (g.resolve function).map fun id => (g.callsIn id).toList

/-! ## Counts -/

/-- The number of functions. -/
def functionCount (g : Graph) : Nat := g.order.size

/-- The number of calls. -/
def callCount (g : Graph) : Nat := g.calls.size

/-- The number of dropped calls. -/
def droppedCount (g : Graph) : Nat := g.dropped.size

/-- A graph in numbers. -/
structure Statistics where
  functions : Nat
  functionsWithoutLocation : Nat
  calls : Nat
  intrinsicCalls : Nat
  droppedCalls : Nat
  deriving DecidableEq, Repr

/-- The numbers of a graph. -/
def statistics (g : Graph) : Statistics where
  functions := g.functionCount
  functionsWithoutLocation := g.locations.values.countP Option.isNone
  calls := g.callCount
  intrinsicCalls := g.calls.toList.countP Call.isIntrinsic
  droppedCalls := g.droppedCount

/-- A graph in one line. -/
def describe (g : Graph) : String :=
  s!"CallGraph(functions={g.functionCount}, calls={g.callCount}, dropped={g.droppedCount})"

end CallAtlas.Graph
