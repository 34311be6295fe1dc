import CallAtlas.Proofs.Graph.Attempts
import Mathlib

/-!
# Histories of a graph

A graph changes by three operations: registering a function, adding a call, and recording a call
that was not added.  The first two may fail, and then leave the graph as it is.  What a graph can
become is told once, by the changes that an operation can make; a property that every change keeps
holds of all graphs that operations lead to.

Histories and dumps are run on fixed inputs in the modules that build on this one, by `cbv`.  It
takes the equations of library functions from wherever Mathlib has them, so that all of Mathlib is
imported here, once for all of these modules.

## Main definitions

* `Operation`, `Operation.attempt`: an operation, and what it comes to
* `Operation.apply`, `Operation.result?`: the graph that it leaves, and the one that it gives if it
  succeeds
* `after idOf history`: the graph after some operations
* `Reachable idOf g`: operations lead to `g`
* `Change idOf g g'`: what one operation can do

## Main results

* `attempt_careful`, `apply_eq_getD`: an operation that fails leaves the graph
* `change_apply`: an operation makes one of the changes
* `Reachable.of_changes`: what changes keep holds of every reachable graph
-/

namespace CallAtlas.Graph

/-! ## Operations -/

/-- An operation on a graph. -/
inductive Operation where
  | addFunction (name : String) (text : Option String) (strictness : Strictness)
  | addCall (source target : String) (text : Option String) (strictness : Strictness)
  | recordDropped (call : DroppedCall)
  deriving DecidableEq, Repr

/-- An attempt without what it gives besides the graph. -/
def Attempt.void {α : Type} (attempt : Attempt α) : Attempt Unit :=
  ⟨attempt.events, attempt.result.map fun _ => (), attempt.graph⟩

/-- What an operation comes to. -/
def Operation.attempt (idOf : IdScheme) (g : Graph) : Operation → Attempt Unit
  | .addFunction name text strictness => (g.addFunction idOf name text strictness).void
  | .addCall source target text strictness => (g.addCall source target text strictness).void
  | .recordDropped call => ⟨[], .ok (), g.recordDropped call⟩

/-- The graph that an operation leaves, whether or not it succeeds. -/
def Operation.apply (idOf : IdScheme) (g : Graph) (op : Operation) : Graph :=
  (op.attempt idOf g).graph

/-- The graph that an operation gives, if it succeeds. -/
def Operation.result? (idOf : IdScheme) (g : Graph) (op : Operation) : Option Graph :=
  (op.attempt idOf g).result.toOption.map fun _ => (op.attempt idOf g).graph

/-- The graph after some operations on an empty one. -/
def after (idOf : IdScheme) (history : List Operation) : Graph :=
  history.foldl (Operation.apply idOf) empty

section Attempts

variable {idOf : IdScheme} {g g' : Graph} {op : Operation}

theorem yields_void_iff {α : Type} {attempt : Attempt α} :
    attempt.void.Yields () g' ↔ ∃ a, attempt.Yields a g' := by
  simp only [Attempt.Yields, Attempt.void]
  cases attempt.result with
  | error failure => simp [Except.map]
  | ok a => simp [Except.map]

theorem void_eq_error_iff {α : Type} {attempt : Attempt α} {failure : Failure} :
    attempt.void.result = .error failure ↔ attempt.result = .error failure := by
  simp only [Attempt.void]
  cases attempt.result with
  | error cause => simp [Except.map]
  | ok a => simp [Except.map]

theorem result?_eq_some_iff : op.result? idOf g = some g' ↔ (op.attempt idOf g).Yields () g' := by
  simp only [Operation.result?, Attempt.Yields]
  cases (op.attempt idOf g).result with
  | error failure => simp [Except.toOption]
  | ok _ => simp [Except.toOption]

theorem result?_eq_none_iff :
    op.result? idOf g = none ↔ ∃ failure, (op.attempt idOf g).result = .error failure := by
  simp only [Operation.result?]
  cases (op.attempt idOf g).result with
  | error failure => simp [Except.toOption]
  | ok _ => simp [Except.toOption]

@[simp] theorem result?_recordDropped (idOf : IdScheme) (g : Graph) (call : DroppedCall) :
    (Operation.recordDropped call).result? idOf g = some (g.recordDropped call) := rfl

/-- **An operation that fails leaves the graph.** -/
theorem attempt_careful {failure : Failure} (h : (op.attempt idOf g).result = .error failure) :
    (op.attempt idOf g).graph = g := by
  cases op with
  | addFunction name text strictness => exact addFunction_careful (void_eq_error_iff.mp h)
  | addCall source target text strictness => exact addCall_careful (void_eq_error_iff.mp h)
  | recordDropped call => cases h

/-- An operation leaves the graph that it gives, or the one before it if it fails. -/
theorem apply_eq_getD (idOf : IdScheme) (g : Graph) (op : Operation) :
    op.apply idOf g = (op.result? idOf g).getD g := by
  cases hresult : op.result? idOf g with
  | none =>
    obtain ⟨failure, hfailure⟩ := result?_eq_none_iff.mp hresult
    exact attempt_careful hfailure
  | some g' => exact (result?_eq_some_iff.mp hresult).2

end Attempts

/-- A graph that operations lead to from an empty one. -/
def Reachable (idOf : IdScheme) (g : Graph) : Prop :=
  ∃ history, after idOf history = g

/-- Ids that are easily shared: names of one length have one id. -/
def lengthIds : IdScheme := { ofName := fun name => name.length }

theorem after_concat (idOf : IdScheme) (history : List Operation) (op : Operation) :
    after idOf (history ++ [op]) = op.apply idOf (after idOf history) := by
  simp [after]

/-! ## Changes -/

/-- **What one operation can do to a graph.** -/
inductive Change (idOf : IdScheme) (g : Graph) : Graph → Prop
  /-- A failed operation. -/
  | unchanged : Change idOf g g
  /-- A new function, at the place that its text tells. -/
  | enrolled {name : String} {text : Option String} {strictness : Strictness}
      {site : Option Location} :
      g.names[idOf name]? = none → (readSite strictness text).result = .ok site →
      Change idOf g ((g.enroll name (idOf name)).bind (idOf name) site)
  /-- A known function, moved to another place. -/
  | moved {name : String} {text : Option String} {strictness : Strictness}
      {site : Option Location} :
      g.names[idOf name]? = some name → (readSite strictness text).result = .ok site →
      Change idOf g ((g.unbind (idOf name)).bind (idOf name) site)
  /-- A call between registered functions. -/
  | called {call : Call} {strictness : Strictness} :
      call.key = g.calls.size → g.ids[call.callerName]? = some call.caller →
      g.ids[call.calleeName]? = some call.callee →
      (readSite strictness (some call.label)).result = .ok call.site →
      Change idOf g (g.append call)
  | recorded (call : DroppedCall) : Change idOf g (g.recordDropped call)

/-- A registration enrolls a new function or moves a known one. -/
theorem change_of_addFunction {idOf : IdScheme} {g g' : Graph} {name : String}
    {text : Option String} {strictness : Strictness} {id : FunctionId}
    (h : (g.addFunction idOf name text strictness).Yields id g') : Change idOf g g' := by
  obtain ⟨-, hread, -, hg'⟩ := addFunction_yields_iff.mp h
  have hsite := readSite_eq_ok_iff.mpr ⟨hread, rfl⟩
  rcases hg' with ⟨hnew, rfl⟩ | ⟨hknown, rfl⟩
  · exact .enrolled hnew hsite
  · exact .moved hknown hsite

theorem change_of_addCall {idOf : IdScheme} {g g' : Graph} {source target : String}
    {text : Option String} {strictness : Strictness} {call : Call}
    (h : (g.addCall source target text strictness).Yields call g') : Change idOf g g' := by
  obtain ⟨caller, callee, hcaller, hcallee, hread, rfl, rfl⟩ := addCall_yields_iff.mp h
  exact .called rfl hcaller hcallee (readSite_eq_ok_iff.mpr ⟨hread, rfl⟩)

/-- **An operation makes one of the changes.** -/
theorem change_apply (idOf : IdScheme) (g : Graph) (op : Operation) :
    Change idOf g (op.apply idOf g) := by
  rw [apply_eq_getD]
  cases hresult : op.result? idOf g with
  | none => exact .unchanged
  | some g' =>
    have hyields := result?_eq_some_iff.mp hresult
    cases op with
    | addFunction name text strictness =>
      obtain ⟨id, hid⟩ := yields_void_iff.mp hyields
      exact change_of_addFunction hid
    | addCall source target text strictness =>
      obtain ⟨call, hcall⟩ := yields_void_iff.mp hyields
      exact change_of_addCall hcall
    | recordDropped call =>
      obtain ⟨-, rfl⟩ := hyields
      exact .recorded call

/-- **What every change keeps holds of every reachable graph**, if it holds of the empty one. -/
theorem Reachable.of_changes {idOf : IdScheme} {P : Graph → Prop} (hempty : P empty)
    (hchange : ∀ g g', Reachable idOf g → Change idOf g g' → P g → P g') {g : Graph}
    (hg : Reachable idOf g) : P g := by
  obtain ⟨history, rfl⟩ := hg
  -- Induction on the history, from its last operation.
  induction history using List.reverseRecOn with
  | nil => exact hempty
  | append_singleton history op ih =>
    rw [after_concat]
    exact hchange _ _ ⟨history, rfl⟩ (change_apply idOf _ op) ih

end CallAtlas.Graph
