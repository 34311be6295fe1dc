import CallAtlas.Failure
import CallAtlas.FunctionId
import CallAtlas.Log
import CallAtlas.Options
import CallAtlas.Schema
import Std.Data.HashMap

/-!
# The call graph

A directed multigraph.  Its nodes are functions, each with an id that follows from its name and
with at most one place of definition.  Its edges are calls; two functions may be joined by several,
one for each place of call.

The graph is kept with the indices that its questions need: names by id and ids by name, places by
id and ids by place, calls by caller and by callee.  Functions stay in the order of their first
registration and calls in the order they were added.

An operation works on the graph step by step: it looks things up, refuses, changes an index.  It may
fail at any step, and then gives the graph as the steps before have left it, together with the
failure.  Registering a function and adding a call look at everything before they change anything.

## Main definitions

* `Call`, `DroppedCall`, `Graph`;
* `Graph.Attempt`, `Graph.Update` — what an operation comes to, and the steps it is made of;
* `Graph.addFunction`, `Graph.addCall`, `Graph.recordDropped`.
-/

namespace CallAtlas

/-- One call, from a place in the caller to the callee. -/
structure Call where
  /-- The number of calls added before this one. -/
  key : Nat
  caller : FunctionId
  callee : FunctionId
  callerName : String
  calleeName : String
  /-- The label as it stands in the dump. -/
  label : String
  /-- The place of the call, if the label tells one. -/
  site : Option Location := none
  deriving DecidableEq, Repr

namespace Call

/-- A call without a place in the source. -/
def isIntrinsic (c : Call) : Bool :=
  c.label = Schema.intrinsicLabel

/-- A call in one line. -/
def describe (c : Call) : String :=
  match c.site with
  | some site => s!"CallEdge({c.callerName} -> {c.calleeName} @ {site})"
  | none => s!"CallEdge({c.callerName} -> {c.calleeName})"

end Call

/-- A call that was not added because an end of it is not registered. -/
structure DroppedCall where
  source : String
  target : String
  label : String
  /-- The side that is not registered. -/
  missing : String
  /-- The dump that the call stands in. -/
  path : Option String := none
  deriving DecidableEq, Repr

/-- Functions and calls, indexed. -/
structure Graph where
  /-- Ids by name. -/
  ids : Std.HashMap String FunctionId := ∅
  /-- Names by id. -/
  names : Std.HashMap FunctionId String := ∅
  /-- Names in the order of their first registration. -/
  order : Array String := #[]
  /-- Places of definition by id. -/
  locations : Std.HashMap FunctionId (Option Location) := ∅
  /-- Ids by place of definition. -/
  sites : Std.HashMap Location (List FunctionId) := ∅
  /-- Calls by caller. -/
  outgoing : Std.HashMap FunctionId (Array Call) := ∅
  /-- Calls by callee. -/
  incoming : Std.HashMap FunctionId (Array Call) := ∅
  /-- All calls in the order they were added. -/
  calls : Array Call := #[]
  /-- The calls that were not added. -/
  dropped : Array DroppedCall := #[]

namespace Graph

/-- The graph without functions and calls. -/
def empty : Graph := {}

/-! ## Reading places -/

/-- The events of reading a text, and what was read unless it failed. -/
structure Reading (α : Type) where
  events : List Log.Event
  result : Except Failure α

namespace Reading

/-- A result without events. -/
def succeed {α : Type} (a : α) : Reading α := ⟨[], .ok a⟩

/-- A failure without events. -/
def fail {α : Type} (failure : Failure) : Reading α := ⟨[], .error failure⟩

end Reading

/-- The place that an optional text tells.  Leniently, a malformed place is passed over with a
warning; a number with too many digits never is. -/
def readSite (strictness : Strictness) : Option String → Reading (Option Location)
  | none => .succeed none
  | some text =>
    match Location.ofString? text with
    | .ok site => .succeed site
    | .error (.tooManyDigits count) => .fail (.digitLimit count)
    | .error (.notANumber coordinate digits source) =>
      match strictness with
      | .strict => .fail (.ofLocationFault (.notANumber coordinate digits source))
      | .lenient => ⟨[.ignoredLocation (.notANumber coordinate digits source)], .ok none⟩

/-! ## Operations step by step -/

/-- What an operation comes to: its events, its result unless it failed, and the graph that it
leaves, with a result or without. -/
structure Attempt (α : Type) where
  events : List Log.Event
  result : Except Failure α
  graph : Graph

/-- Steps on a graph, each on the graph that the steps before have left.  A failure ends them, and
undoes none. -/
def Update (α : Type) := Graph → Attempt α

namespace Update

variable {α β : Type}

/-- The steps of an operation, on a graph. -/
def run (g : Graph) (update : Update α) : Attempt α := update g

instance : Monad Update where
  pure a := fun g => ⟨[], .ok a, g⟩
  bind first next := fun g =>
    let before := first g
    match before.result with
    | .error failure => ⟨before.events, .error failure, before.graph⟩
    | .ok a =>
      let after := next a before.graph
      ⟨before.events ++ after.events, after.result, after.graph⟩

/-- Fails. -/
def fail (failure : Failure) : Update α := fun g => ⟨[], .error failure, g⟩

/-- Reads a text, and fails if that fails. -/
def read (reading : Reading α) : Update α := fun g => ⟨reading.events, reading.result, g⟩

/-- Looks something up. -/
def look (question : Graph → α) : Update α := fun g => ⟨[], .ok (question g), g⟩

/-- Changes the graph. -/
def change (f : Graph → Graph) : Update Unit := fun g => ⟨[], .ok (), f g⟩

end Update

/-! ## Registering functions -/

/-- Takes the function `id` out of the index of places. -/
def unbind (g : Graph) (id : FunctionId) : Graph :=
  match g.locations[id]? with
  | some (some old) =>
    match (g.sites.getD old []).erase id with
    | [] => { g with sites := g.sites.erase old }
    | owners => { g with sites := g.sites.insert old owners }
  | _ => g

/-- Enters a new function, without a place of definition and without calls. -/
def enroll (g : Graph) (name : String) (id : FunctionId) : Graph :=
  { g with
    ids := g.ids.insert name id
    names := g.names.insert id name
    order := g.order.push name
    outgoing := g.outgoing.insert id #[]
    incoming := g.incoming.insert id #[] }

/-- Puts the function `id` at a place of definition, or at none. -/
def bind (g : Graph) (id : FunctionId) (site : Option Location) : Graph :=
  { g with
    locations := g.locations.insert id site
    sites :=
      match site with
      | none => g.sites
      | some location => g.sites.insert location (g.sites.getD location [] ++ [id]) }

/-- The id of a name, which fails if the name has none. -/
def identify (idOf : IdScheme) (name : String) : Update FunctionId :=
  match idOf.fault? name with
  | some fault => .fail (.unencodable fault)
  | none => pure (idOf name)

/-- Prepares an id for a new place of its function: refuses the id of another function, takes a
known function from its place, and enters a new one. -/
def claim (name : String) (id : FunctionId) : Update Unit := do
  match ← Update.look (·.names[id]?) with
  | some owner =>
    if owner = name then Update.change (·.unbind id)
    else Update.fail (.ofCause (.idCollision id owner name))
  | none => Update.change (·.enroll name id)

/-- Registers a function, defined at the place that `text` tells, under the id that `idOf` gives
its name: enters a new function, or moves a known one.  The place is read before the id is found,
and the id is found before its owner is looked at. -/
def addFunction (idOf : IdScheme) (g : Graph) (name : String) (text : Option String)
    (strictness : Strictness := .strict) : Attempt FunctionId :=
  Update.run g do
    let site ← Update.read (readSite strictness text)
    let id ← identify idOf name
    claim name id
    Update.change (·.bind id site)
    return id

/-! ## Adding calls -/

/-- Appends a call to the list of calls and to those of its two ends. -/
def append (g : Graph) (call : Call) : Graph :=
  { g with
    calls := g.calls.push call
    outgoing := g.outgoing.insert call.caller ((g.outgoing.getD call.caller #[]).push call)
    incoming := g.incoming.insert call.callee ((g.incoming.getD call.callee #[]).push call) }

/-- The id of an end of a call, which must be registered. -/
def endpoint (side : Endpoint) (name : String) : Update FunctionId := do
  match ← Update.look (·.ids[name]?) with
  | some id => return id
  | none => Update.fail (.ofCause (.missingEndpoint side.word name))

/-- Adds a call between two registered functions, from the place that `text` tells; without a text
the call is intrinsic.  The source is looked up before the target, and both before the place. -/
def addCall (g : Graph) (source target : String) (text : Option String)
    (strictness : Strictness := .strict) : Attempt Call :=
  Update.run g do
    let caller ← endpoint .source source
    let callee ← endpoint .target target
    let label := text.getD Schema.intrinsicLabel
    let site ← Update.read (readSite strictness (some label))
    let key ← Update.look (·.calls.size)
    let call : Call :=
      { key, caller, callee, callerName := source, calleeName := target, label, site }
    Update.change (·.append call)
    return call

/-- Records a call that was not added. -/
def recordDropped (g : Graph) (call : DroppedCall) : Graph :=
  { g with dropped := g.dropped.push call }

end Graph

end CallAtlas
