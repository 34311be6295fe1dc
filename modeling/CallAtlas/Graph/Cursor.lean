import CallAtlas.Graph.Query

/-!
# Cursors

A cursor walks through the calls or the functions of a graph while the graph may grow.

A cursor over calls follows the list it walks: calls added behind it are reached, until it has once
reported the end.  A cursor over functions expects the functions it found when it was opened; after
another one is registered it fails, now and from then on, unless it has reported the end before.

## Main definitions

* `Cursor.overFunctions`, `Cursor.overCalls`, `Cursor.overCallsFrom`, `Cursor.overCallsTo`;
* `Cursor.next` — one step;
* `Cursor.take` — several steps.
-/

namespace CallAtlas.Graph

/-- The list of calls that a cursor walks. -/
inductive CallList where
  | all
  | outOf (caller : FunctionId)
  | into (callee : FunctionId)
  deriving DecidableEq, Repr

/-- The present contents of a list of calls. -/
def CallList.contents (g : Graph) : CallList → Array Call
  | .all => g.calls
  | .outOf caller => g.callsOut caller
  | .into callee => g.callsIn callee

/-- What a cursor delivers. -/
inductive Item where
  | call (call : Call)
  | function (name : String)
  deriving DecidableEq, Repr

/-- A walk through a graph. -/
inductive Cursor where
  /-- Through a list of calls, `position` of which have been delivered. -/
  | calls (list : CallList) (position : Nat)
  /-- Through the functions, `position` of the `expected` ones delivered. -/
  | functions (expected position : Nat)
  /-- The end has been reported. -/
  | finished
  deriving DecidableEq, Repr

/-- What a step of a cursor finds. -/
inductive Found where
  | item (item : Item)
  | atEnd
  /-- The functions are not those that the cursor was opened on. -/
  | disturbed
  deriving DecidableEq, Repr

/-- The wording of a disturbed walk. -/
def disturbedMessage : String := "dictionary changed size during iteration"

namespace Cursor

/-- A cursor before the first function. -/
def overFunctions (g : Graph) : Cursor := .functions g.functionCount 0

/-- A cursor before the first call. -/
def overCalls : Cursor := .calls .all 0

/-- A cursor before the first call out of a function. -/
def overCallsFrom (g : Graph) (function : FunctionRef) : Except Failure Cursor :=
  (g.resolve function).map fun id => .calls (.outOf id) 0

/-- A cursor before the first call into a function. -/
def overCallsTo (g : Graph) (function : FunctionRef) : Except Failure Cursor :=
  (g.resolve function).map fun id => .calls (.into id) 0

/-- One step in the present graph. -/
def next (g : Graph) : Cursor → Found × Cursor
  | .finished => (.atEnd, .finished)
  | .calls list position =>
    match (list.contents g)[position]? with
    | some call => (.item (.call call), .calls list (position + 1))
    | none => (.atEnd, .finished)
  | .functions expected position =>
    if g.functionCount ≠ expected then (.disturbed, .functions expected position)
    else
      match g.order[position]? with
      | some name => (.item (.function name), .functions expected (position + 1))
      | none => (.atEnd, .finished)

/-- What several steps deliver. -/
inductive Delivery where
  /-- Items, and whether the end was found. -/
  | items (found : List Item) (ended : Bool)
  | disturbed

/-- Puts an item in front of a delivery. -/
def Delivery.cons (item : Item) : Delivery → Delivery
  | .items found ended => .items (item :: found) ended
  | .disturbed => .disturbed

/-- Up to `count` steps, stopping at the end or when disturbed. -/
def take (g : Graph) : Nat → Cursor → Delivery × Cursor
  | 0, cursor => (.items [] false, cursor)
  | count + 1, cursor =>
    match cursor.next g with
    | (.item item, cursor) =>
      let (delivery, cursor) := cursor.take g count
      (delivery.cons item, cursor)
    | (.atEnd, cursor) => (.items [] true, cursor)
    | (.disturbed, cursor) => (.disturbed, cursor)

end Cursor

end CallAtlas.Graph
