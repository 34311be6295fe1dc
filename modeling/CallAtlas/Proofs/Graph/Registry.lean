import CallAtlas.Graph.Query
import CallAtlas.Proofs.Graph.History

/-!
# The register of functions

Names and ids are kept in two maps, one the inverse of the other, and every other index by id has
the same ids.  An id is that of its name, whatever was registered before.

## Main definitions

* `Registry idOf g`: the maps of `g` by name and by id agree

## Main results

* `Reachable.registry`: they agree in every reachable graph
* `locationOf_eq_ok_some_iff`: a question in terms of the maps
-/

namespace CallAtlas.Graph

/-! ## What the parts of an operation leave alone -/

section Frame

variable (g : Graph) (id : FunctionId) (site : Option Location)

/-- Taking a function from its place changes nothing but the index of places. -/
theorem unbind_eq : g.unbind id = { g with sites := (g.unbind id).sites } := by
  unfold unbind
  split
  · split <;> rfl
  · rfl

@[simp] theorem unbind_ids : (g.unbind id).ids = g.ids := by rw [unbind_eq]

@[simp] theorem unbind_names : (g.unbind id).names = g.names := by rw [unbind_eq]

@[simp] theorem unbind_order : (g.unbind id).order = g.order := by rw [unbind_eq]

@[simp] theorem unbind_locations : (g.unbind id).locations = g.locations := by rw [unbind_eq]

@[simp] theorem unbind_outgoing : (g.unbind id).outgoing = g.outgoing := by rw [unbind_eq]

@[simp] theorem unbind_incoming : (g.unbind id).incoming = g.incoming := by rw [unbind_eq]

@[simp] theorem unbind_calls : (g.unbind id).calls = g.calls := by rw [unbind_eq]

@[simp] theorem unbind_dropped : (g.unbind id).dropped = g.dropped := by rw [unbind_eq]

@[simp] theorem bind_ids : (g.bind id site).ids = g.ids := rfl

@[simp] theorem bind_names : (g.bind id site).names = g.names := rfl

@[simp] theorem bind_order : (g.bind id site).order = g.order := rfl

@[simp] theorem bind_locations :
    (g.bind id site).locations = g.locations.insert id site := rfl

@[simp] theorem bind_outgoing : (g.bind id site).outgoing = g.outgoing := rfl

@[simp] theorem bind_incoming : (g.bind id site).incoming = g.incoming := rfl

@[simp] theorem bind_calls : (g.bind id site).calls = g.calls := rfl

@[simp] theorem bind_dropped : (g.bind id site).dropped = g.dropped := rfl

end Frame

/-! ## Names and ids -/

theorem mem_names_of_eq_some {g : Graph} {name : String} {id : FunctionId}
    (h : g.names[id]? = some name) : id ∈ g.names :=
  Std.HashMap.mem_iff_isSome_getElem?.mpr (by rw [h]; rfl)

theorem notMem_names_of_eq_none {g : Graph} {id : FunctionId} (h : g.names[id]? = none) :
    id ∉ g.names := by
  rw [Std.HashMap.mem_iff_isSome_getElem?, h]
  simp

/-- An index that has the ids of the register still has them after an entry for one of them. -/
theorem mem_insert_iff_of_mem {α : Type} {index : Std.HashMap FunctionId α}
    {names : Std.HashMap FunctionId String} (hindex : ∀ id : FunctionId, id ∈ index ↔ id ∈ names)
    {id : FunctionId} (hid : id ∈ names) (entry : α) (other : FunctionId) :
    other ∈ index.insert id entry ↔ other ∈ names := by
  rw [Std.HashMap.mem_insert, beq_iff_eq, hindex]
  refine ⟨?_, .inr⟩
  rintro (rfl | hother)
  · exact hid
  · exact hother

/-- **The maps by name and by id agree.** -/
structure Registry (idOf : IdScheme) (g : Graph) : Prop where
  /-- Names by id are the inverse of ids by name. -/
  ids_iff : ∀ (name : String) (id : FunctionId), g.ids[name]? = some id ↔ g.names[id]? = some name
  /-- A name has the id that follows from it. -/
  id_eq : ∀ (name : String) (id : FunctionId), g.names[id]? = some name → id = idOf name
  mem_locations : ∀ id : FunctionId, id ∈ g.locations ↔ id ∈ g.names
  mem_outgoing : ∀ id : FunctionId, id ∈ g.outgoing ↔ id ∈ g.names
  mem_incoming : ∀ id : FunctionId, id ∈ g.incoming ↔ id ∈ g.names

namespace Registry

variable {idOf : IdScheme} {g : Graph}

theorem of_empty : Registry idOf empty := by
  constructor <;> simp [empty]

theorem enrolled (h : Registry idOf g) {name : String} {site : Option Location}
    (hnew : g.names[idOf name]? = none) :
    Registry idOf ((g.enroll name (idOf name)).bind (idOf name) site) where
  ids_iff other id := by
    -- an old name with the new id would have had that id before
    have := h.ids_iff other id
    have := h.id_eq other id
    simp only [enroll, bind_ids, bind_names, Std.HashMap.getElem?_insert, beq_iff_eq]
    grind
  id_eq other id hother := by
    have := h.id_eq other id
    simp only [enroll, bind_names, Std.HashMap.getElem?_insert, beq_iff_eq] at hother
    grind
  mem_locations id := by simp [enroll, h.mem_locations]
  mem_outgoing id := by simp [enroll, h.mem_outgoing]
  mem_incoming id := by simp [enroll, h.mem_incoming]

theorem moved (h : Registry idOf g) {name : String} {site : Option Location}
    (hknown : g.names[idOf name]? = some name) :
    Registry idOf ((g.unbind (idOf name)).bind (idOf name) site) where
  ids_iff := by simpa using h.ids_iff
  id_eq := by simpa using h.id_eq
  mem_locations id := by
    simp only [bind_locations, unbind_locations, bind_names, unbind_names]
    exact mem_insert_iff_of_mem h.mem_locations (mem_names_of_eq_some hknown) site id
  mem_outgoing := by simpa using h.mem_outgoing
  mem_incoming := by simpa using h.mem_incoming

theorem called (h : Registry idOf g) {call : Call}
    (hcaller : g.ids[call.callerName]? = some call.caller)
    (hcallee : g.ids[call.calleeName]? = some call.callee) : Registry idOf (g.append call) where
  ids_iff := h.ids_iff
  id_eq := h.id_eq
  mem_locations := h.mem_locations
  mem_outgoing := mem_insert_iff_of_mem h.mem_outgoing
    (mem_names_of_eq_some ((h.ids_iff _ _).mp hcaller)) _
  mem_incoming := mem_insert_iff_of_mem h.mem_incoming
    (mem_names_of_eq_some ((h.ids_iff _ _).mp hcallee)) _

theorem change {g' : Graph} (h : Registry idOf g) (hchange : Change idOf g g') :
    Registry idOf g' := by
  cases hchange with
  | unchanged => exact h
  | enrolled hnew _ => exact h.enrolled hnew
  | moved hknown _ => exact h.moved hknown
  | called _ hcaller hcallee _ => exact h.called hcaller hcallee
  | recorded call => exact ⟨h.ids_iff, h.id_eq, h.mem_locations, h.mem_outgoing, h.mem_incoming⟩

end Registry

theorem Reachable.registry {idOf : IdScheme} {g : Graph} (hg : Reachable idOf g) :
    Registry idOf g :=
  hg.of_changes Registry.of_empty fun _ _ _ hchange h => h.change hchange

/-! ## Questions -/

section Questions

variable {g : Graph}

/-- A function is defined where the map of places says, under the id of its name. -/
theorem locationOf_eq_ok_some_iff {name : String} {site : Location} :
    g.locationOf name = .ok (some site) ↔
      ∃ id, g.ids[name]? = some id ∧ g.locations[id]? = some (some site) := by
  unfold locationOf idOfName
  cases g.ids[name]? with
  | none => simp [Except.map]
  | some id =>
    rw [Except.map, Except.ok.injEq]
    simp [Option.getD_eq_iff]

end Questions

end CallAtlas.Graph
