import CallAtlas.Proofs.Graph.Registry

/-!
# Operations that succeed

Whether an operation succeeds, and the graph that it then gives, told from the graph before it: a
function needs a text that can be read for its place, a name that has an id, and an id that is free
or its own; a call needs two registered ends and a label that can be read.

## Main definitions

* `callBetween idOf key source target label`: the call that is added between two functions

## Main results

* `result?_addFunction_eq_some_iff`, `result?_addCall_eq_some_iff`: when operations succeed
-/

namespace CallAtlas.Graph

/-- The call that is added as the `key`-th between two functions. -/
def callBetween (idOf : IdScheme) (key : Nat) (source target label : String) : Call :=
  { key, caller := idOf source, callee := idOf target, callerName := source, calleeName := target,
    label, site := siteTold (some label) }

section Success

variable {idOf : IdScheme} {g g' : Graph}

/-- A call is added between registered functions, if its label can be read. -/
theorem Registry.addCall_yields_iff (hregistry : Registry idOf g) {source target : String}
    {text : Option String} {strictness : Strictness} {call : Call} :
    (g.addCall source target text strictness).Yields call g' ↔
      source ∈ g.ids ∧ target ∈ g.ids ∧
        Readable strictness (some (text.getD Schema.intrinsicLabel)) ∧
        call = callBetween idOf g.calls.size source target (text.getD Schema.intrinsicLabel) ∧
        g' = g.append call := by
  -- the id that a name is registered with is its own
  have hid {name : String} {id : FunctionId} (h : g.ids[name]? = some id) : id = idOf name :=
    hregistry.id_eq _ _ ((hregistry.ids_iff _ _).mp h)
  rw [Graph.addCall_yields_iff, Std.HashMap.mem_iff_isSome_getElem?,
    Std.HashMap.mem_iff_isSome_getElem?, Option.isSome_iff_exists, Option.isSome_iff_exists]
  constructor
  · rintro ⟨caller, callee, hcaller, hcallee, hread, rfl, rfl⟩
    obtain rfl := hid hcaller
    obtain rfl := hid hcallee
    exact ⟨⟨_, hcaller⟩, ⟨_, hcallee⟩, hread, rfl, rfl⟩
  · rintro ⟨⟨caller, hcaller⟩, ⟨callee, hcallee⟩, hread, rfl, rfl⟩
    obtain rfl := hid hcaller
    obtain rfl := hid hcallee
    exact ⟨_, _, hcaller, hcallee, hread, rfl, rfl⟩

/-- A function is registered if its text can be read, its name has an id, and the id is free or its
own. -/
theorem result?_addFunction_eq_some_iff {name : String} {text : Option String}
    {strictness : Strictness} :
    (Operation.addFunction name text strictness).result? idOf g = some g' ↔
      Readable strictness text ∧ idOf.fault? name = none ∧
        ((g.names[idOf name]? = none ∧
            g' = (g.enroll name (idOf name)).bind (idOf name) (siteTold text)) ∨
          (g.names[idOf name]? = some name ∧
            g' = (g.unbind (idOf name)).bind (idOf name) (siteTold text))) := by
  rw [result?_eq_some_iff, Operation.attempt, yields_void_iff]
  simp only [addFunction_yields_iff, exists_eq_left]

/-- A call is added if its ends are registered and its label can be read. -/
theorem result?_addCall_eq_some_iff (hregistry : Registry idOf g) {source target : String}
    {text : Option String} {strictness : Strictness} :
    (Operation.addCall source target text strictness).result? idOf g = some g' ↔
      source ∈ g.ids ∧ target ∈ g.ids ∧
        Readable strictness (some (text.getD Schema.intrinsicLabel)) ∧
        g' = g.append
          (callBetween idOf g.calls.size source target (text.getD Schema.intrinsicLabel)) := by
  rw [result?_eq_some_iff, Operation.attempt, yields_void_iff]
  simp only [hregistry.addCall_yields_iff]
  constructor
  · rintro ⟨call, hsource, htarget, hread, rfl, rfl⟩
    exact ⟨hsource, htarget, hread, rfl⟩
  · rintro ⟨hsource, htarget, hread, rfl⟩
    exact ⟨_, hsource, htarget, hread, rfl, rfl⟩

end Success

end CallAtlas.Graph
