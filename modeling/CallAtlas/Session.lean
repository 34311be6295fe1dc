import CallAtlas.Graph.Basic
import CallAtlas.Resolver

/-!
# Sessions

A session is what reading dumps works on: the graph so far, the names seen so far, and the log.
What has been done before a failure stays done.

## Main definitions

* `Session`, `Action`;
* `Action.perform` — an operation of the graph, as an action.
-/

namespace CallAtlas

/-- The state that dumps are folded into. -/
structure Session where
  graph : Graph := {}
  memo : Resolver.Memo := {}
  log : Array Log.Event := #[]

/-- A step that may fail; what it did to the session before it failed stays. -/
abbrev Action := ExceptT Failure (StateM Session)

namespace Action

/-- Adds an event to the log. -/
def tell (event : Log.Event) : Action Unit :=
  modify fun s => { s with log := s.log.push event }

/-- An operation of the graph: its events are told, and its graph is taken on. -/
def perform {α : Type} (operation : Graph → Graph.Attempt α) : Action α := fun s =>
  let attempt := operation s.graph
  (attempt.result, { s with graph := attempt.graph, log := s.log ++ attempt.events })

/-- The readable form of a name. -/
def readable (demangle : Resolver.Demangler) (name : String) : Action String := fun s =>
  let (form, events, memo) := Resolver.resolve demangle s.memo name
  (.ok form, { s with memo, log := s.log ++ events })

end Action

end CallAtlas
