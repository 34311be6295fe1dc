import CallAtlas.Proofs.Graph.Growth
import CallAtlas.Proofs.Graph.Sites

/-!
# What operations change

Registering a function and adding a call look at everything before they change anything.  What is
wrong is told in a fixed order: for a function its place and then its id, for a call its source, its
target and then its place.  An operation that fails leaves the graph; one that succeeds changes the
entries of one function, or adds one call, and leaves every other entry of every index.

The changes themselves look entries up: a function that moves is taken from the list of its old
place, and a call is appended to the lists of both its ends.  In a reachable graph these lists are
always there.

## Main definitions

* `Registers g name id site g'`: what registering a function changes, index by index
* `Adds g call g'`: what adding a call changes

## Main results

* `registers_of_addFunction`, `adds_of_addCall`: what operations change
* `operations_fail_or_frame`: operations fail in order and without a trace, or do what they should
-/

namespace CallAtlas.Graph

/-! ## Registering functions -/

/-- **What registering the function `name` under `id` changes**: its own entries, in every index,
and nothing else.  A known function keeps its position and its calls, and was found at its old
place. -/
structure Registers (g : Graph) (name : String) (id : FunctionId) (site : Option Location)
    (g' : Graph) : Prop where
  ids : ∀ other : String, g'.ids[other]? = if name = other then some id else g.ids[other]?
  names : ∀ other : FunctionId, g'.names[other]? = if id = other then some name else g.names[other]?
  functions : g'.functions = if g.contains name then g.functions else g.functions ++ [name]
  locations : ∀ other : FunctionId,
    g'.locations[other]? = if id = other then some site else g.locations[other]?
  found : ∀ old : Location, g.locations[id]? = some (some old) → id ∈ g.sites.getD old []
  sites : ∀ place : Location, g'.sites.getD place [] =
    (g.sites.getD place []).erase id ++ if site = some place then [id] else []
  inhabited : ∀ place : Location, g'.sites[place]? ≠ some []
  outgoing : ∀ other : FunctionId, g'.outgoing[other]? =
    if g.contains name = false ∧ id = other then some #[] else g.outgoing[other]?
  incoming : ∀ other : FunctionId, g'.incoming[other]? =
    if g.contains name = false ∧ id = other then some #[] else g.incoming[other]?
  calls : g'.calls = g.calls
  dropped : g'.dropped = g.dropped

section Registering

variable {idOf : IdScheme} {g g' : Graph} {name : String} {text : Option String}
  {strictness : Strictness} {site : Option Location}

/-- A function with a free id is not registered. -/
theorem Registry.contains_eq_false (h : Registry idOf g) (hnew : g.names[idOf name]? = none) :
    g.contains name = false := by
  rw [← Bool.not_eq_true]
  intro hname
  simp [h.names_of_contains hname] at hnew

theorem registers_enroll (hg : Reachable idOf g) (hnew : g.names[idOf name]? = none) :
    Registers g name (idOf name) site ((g.enroll name (idOf name)).bind (idOf name) site) := by
  have hregistry := hg.registry
  have hcontains := hregistry.contains_eq_false hnew
  have hnowhere : g.locations[idOf name]? = none := Std.HashMap.getElem?_eq_none fun hmem =>
    notMem_names_of_eq_none hnew ((hregistry.mem_locations _).mp hmem)
  refine
    { ids := fun other => ?_, names := fun other => ?_
      functions := ?_, locations := fun other => ?_
      found := by simp [hnowhere], sites := fun place => ?_
      inhabited := ((hg.sitesExact.enroll hnowhere).bind site).ne_nil
      outgoing := fun other => ?_, incoming := fun other => ?_, calls := rfl, dropped := rfl }
  · simp [enroll, Std.HashMap.getElem?_insert]
  · simp [enroll, Std.HashMap.getElem?_insert]
  · simp [functions, enroll, hcontains]
  · simp [enroll, Std.HashMap.getElem?_insert]
  · -- the function is at no place yet, so there is nothing to take out
    have hout : idOf name ∉ g.sites.getD place [] := by
      simp [hg.sitesExact.mem_iff, hnowhere]
    rw [getD_sites_bind, List.erase_of_not_mem hout]
    rfl
  · simp [enroll, Std.HashMap.getElem?_insert, hcontains]
  · simp [enroll, Std.HashMap.getElem?_insert, hcontains]

theorem registers_move (hg : Reachable idOf g) (hknown : g.names[idOf name]? = some name) :
    Registers g name (idOf name) site ((g.unbind (idOf name)).bind (idOf name) site) := by
  have hid : g.ids[name]? = some (idOf name) := (hg.registry.ids_iff _ _).mpr hknown
  have hcontains : g.contains name = true := contains_eq_true_iff.mpr ⟨idOf name, hid⟩
  refine
    { ids := fun other => ?_, names := fun other => ?_
      functions := ?_, locations := fun other => ?_
      found := fun old hold => (hg.sitesExact.mem_iff old _).mpr hold, sites := fun place => ?_
      inhabited := ((hg.sitesExact.unbind (idOf name)).bind site).ne_nil
      outgoing := fun other => ?_, incoming := fun other => ?_, calls := ?_, dropped := ?_ }
  · by_cases hother : name = other
    · simp [← hother, hid]
    · simp [hother]
  · by_cases hother : idOf name = other
    · simp [← hother, hknown]
    · simp [hother]
  · simp [functions, hcontains]
  · simp [Std.HashMap.getElem?_insert]
  · rw [getD_sites_bind, getD_sites_unbind hg.sitesExact]
  · simp [hcontains]
  · simp [hcontains]
  · simp
  · simp

/-- **A registration changes the entries of its function.** -/
theorem registers_of_addFunction (hg : Reachable idOf g) {id : FunctionId}
    (h : (g.addFunction idOf name text strictness).Yields id g') :
    id = idOf name ∧ Registers g name (idOf name) (siteTold text) g' := by
  obtain ⟨hid, -, -, hg'⟩ := addFunction_yields_iff.mp h
  rcases hg' with ⟨hnew, rfl⟩ | ⟨hknown, rfl⟩
  · exact ⟨hid, registers_enroll hg hnew⟩
  · exact ⟨hid, registers_move hg hknown⟩

/-- The function is found at its new place. -/
theorem Registers.locationOf {id : FunctionId} (h : Registers g name id site g') :
    g'.locationOf name = .ok site := by
  rw [Graph.locationOf, idOfName, h.ids name, if_pos rfl, Except.map, h.locations id, if_pos rfl,
    Option.getD_some]

/-- Any other function stays at its place. -/
theorem Registers.locationOf_of_ne {id : FunctionId} (h : Registers g name id site g')
    (hregistry : Registry idOf g') {other : String} (hother : name ≠ other) :
    g'.locationOf other = g.locationOf other := by
  have hids : g'.ids[other]? = g.ids[other]? := by rw [h.ids, if_neg hother]
  rw [Graph.locationOf, Graph.locationOf, idOfName, idOfName, ← hids]
  cases hid : g'.ids[other]? with
  | none => rfl
  | some found =>
    -- two names of one graph have two ids
    have hname := (hregistry.ids_iff _ _).mp hid
    have hne : id ≠ found := by
      rintro rfl
      rw [h.names, if_pos rfl] at hname
      exact hother (Option.some.inj hname)
    simp only [Except.map, h.locations found, if_neg hne]

end Registering

/-! ## Adding calls -/

/-- **What adding a call changes**: it is the last of all calls and of the calls of its two ends,
whose lists are there. -/
structure Adds (g : Graph) (call : Call) (g' : Graph) : Prop where
  functions : SameFunctions g g'
  calls : g'.calls = g.calls.push call
  caller : call.caller ∈ g.outgoing
  outgoing : ∀ id : FunctionId, g'.outgoing[id]? =
    if call.caller = id then (g.outgoing[id]?).map (·.push call) else g.outgoing[id]?
  callee : call.callee ∈ g.incoming
  incoming : ∀ id : FunctionId, g'.incoming[id]? =
    if call.callee = id then (g.incoming[id]?).map (·.push call) else g.incoming[id]?
  dropped : g'.dropped = g.dropped

section Adding

variable {idOf : IdScheme} {g g' : Graph} {source target : String}
  {text : Option String} {strictness : Strictness}

/-- The list of a function is there, and grows by one. -/
theorem getElem?_insert_push {index : Std.HashMap FunctionId (Array Call)} {id : FunctionId}
    (hid : id ∈ index) (call : Call) (other : FunctionId) :
    (index.insert id ((index.getD id #[]).push call))[other]? =
      if id = other then (index[other]?).map (·.push call) else index[other]? := by
  rw [Std.HashMap.getElem?_insert]
  by_cases hother : id = other
  · subst hother
    simp [Std.HashMap.getElem?_eq_some_getElem hid, Std.HashMap.getD_eq_getD_getElem?]
  · simp [hother]

/-- **A call that is added is added to three lists.** -/
theorem adds_of_addCall (hg : Reachable idOf g) {call : Call}
    (h : (g.addCall source target text strictness).Yields call g') :
    call = callBetween idOf g.callCount source target (text.getD Schema.intrinsicLabel) ∧
      Adds g call g' := by
  have hregistry := hg.registry
  obtain ⟨hsource, htarget, -, hcall, rfl⟩ := hregistry.addCall_yields_iff.mp h
  have hcaller : call.caller ∈ g.outgoing := by
    rw [hregistry.mem_outgoing, hcall]
    exact mem_names_of_eq_some
      (hregistry.names_of_contains (Std.HashMap.contains_iff_mem.mpr hsource))
  have hcallee : call.callee ∈ g.incoming := by
    rw [hregistry.mem_incoming, hcall]
    exact mem_names_of_eq_some
      (hregistry.names_of_contains (Std.HashMap.contains_iff_mem.mpr htarget))
  exact ⟨hcall, .append g call, rfl, hcaller, getElem?_insert_push hcaller call, hcallee,
    getElem?_insert_push hcallee call, rfl⟩

end Adding

/-! ## Failure without a trace, success in a frame -/

/-- **Operations fail in a fixed order and without a trace, or do what they should.**  A function
is registered unless its place cannot be read or, after that, it has no id or another function has
its id; a call is added unless its source, its target or its place is wrong, told in this order.
An operation that fails leaves the graph that it was tried on.  One that succeeds leaves a graph in
which the entries of one function have changed, and no other has moved, or which has one call
more. -/
theorem operations_fail_or_frame {idOf : IdScheme} {g : Graph} (hg : Reachable idOf g)
    (text : Option String) (strictness : Strictness) :
    (∀ name,
      (∀ failure, (g.addFunction idOf name text strictness).result = .error failure ↔
        RegistrationFails idOf g name text strictness failure) ∧
      (∀ failure, (g.addFunction idOf name text strictness).result = .error failure →
        (g.addFunction idOf name text strictness).graph = g) ∧
      ((∀ failure, ¬ RegistrationFails idOf g name text strictness failure) →
        ∃ g', (g.addFunction idOf name text strictness).Yields (idOf name) g' ∧
          Registers g name (idOf name) (siteTold text) g' ∧
          g'.locationOf name = .ok (siteTold text) ∧
          ∀ other, name ≠ other → g'.locationOf other = g.locationOf other)) ∧
    (∀ source target,
      (∀ failure, (g.addCall source target text strictness).result = .error failure ↔
        CallFails g source target text strictness failure) ∧
      (∀ failure, (g.addCall source target text strictness).result = .error failure →
        (g.addCall source target text strictness).graph = g) ∧
      ((∀ failure, ¬ CallFails g source target text strictness failure) →
        ∃ call g', (g.addCall source target text strictness).Yields call g' ∧
          call = callBetween idOf g.callCount source target (text.getD Schema.intrinsicLabel) ∧
          Adds g call g')) := by
  refine ⟨fun name => ⟨fun _ => addFunction_eq_error_iff, fun _ => addFunction_careful,
      fun hnone => ?_⟩,
    fun source target => ⟨fun _ => addCall_eq_error_iff, fun _ => addCall_careful,
      fun hnone => ?_⟩⟩
  · cases hresult : (g.addFunction idOf name text strictness).result with
    | error failure => exact absurd (addFunction_eq_error_iff.mp hresult) (hnone failure)
    | ok id =>
      obtain ⟨rfl, hregisters⟩ := registers_of_addFunction hg ⟨hresult, rfl⟩
      have hregistry' := hg.registry.change (change_of_addFunction ⟨hresult, rfl⟩)
      exact ⟨_, ⟨hresult, rfl⟩, hregisters, hregisters.locationOf,
        fun other => hregisters.locationOf_of_ne hregistry'⟩
  · cases hresult : (g.addCall source target text strictness).result with
    | error failure => exact absurd (addCall_eq_error_iff.mp hresult) (hnone failure)
    | ok call => exact ⟨call, _, ⟨hresult, rfl⟩, adds_of_addCall hg ⟨hresult, rfl⟩⟩

/-- A graph with a function at a place and a call to it, and with ids that are easily shared. -/
def callingGraph : Graph :=
  after lengthIds
    [.addFunction "bb" (some "f.c:1:2") .strict, .addFunction "a" none .strict,
      .addCall "a" "bb" (some "g.c:5:6") .strict]

/-- A function with the id of another and a malformed place fails by its place, and by its id if
the place is passed over, and leaves the graph; a known function moves, and takes its calls
along. -/
theorem operations_fail_or_frame_calling :
    Reachable lengthIds callingGraph ∧
      (callingGraph.addFunction lengthIds "cc" (some "f.c:x:2") .strict).result =
        .error (.ofCause (.location (.notANumber .line "x" "f.c:x:2"))) ∧
      (callingGraph.addFunction lengthIds "cc" (some "f.c:x:2") .lenient).result =
        .error (.ofCause (.idCollision 2 "bb" "cc")) ∧
      (callingGraph.addFunction lengthIds "cc" (some "f.c:x:2") .lenient).graph = callingGraph ∧
      (∃ g', (callingGraph.addFunction lengthIds "bb" (some "h.c:3:4") .strict).Yields 2 g' ∧
        g'.locationOf "bb" = .ok (some ⟨"h.c", 3, 4⟩) ∧ g'.calls.size = 1) ∧
      (callingGraph.addCall "cc" "dd" (some "f.c:x:2") .strict).result =
        .error (.ofCause (.missingEndpoint "source" "cc")) ∧
      (callingGraph.addCall "cc" "dd" (some "f.c:x:2") .strict).graph = callingGraph := by
  have hreach : Reachable lengthIds callingGraph := ⟨_, rfl⟩
  have hplace : Location.ofString? "f.c:x:2" =
      .error (.notANumber .line "x" "f.c:x:2") := by cbv
  have hmoves : (callingGraph.addFunction lengthIds "bb" (some "h.c:3:4")
      .strict).result.isOk = true := by cbv
  obtain ⟨hfunctions, hcalls⟩ := operations_fail_or_frame hreach (some "f.c:x:2") .strict
  obtain ⟨hlenient, -⟩ := operations_fail_or_frame hreach (some "f.c:x:2") .lenient
  obtain ⟨hbound, -⟩ := operations_fail_or_frame hreach (some "h.c:3:4") .strict
  have hcollides := ((hlenient "cc").1 (.ofCause (.idCollision 2 "bb" "cc"))).mpr
    (.collision (by simp [Readable, hplace]) rfl (by cbv) (by decide))
  have hmissing := ((hcalls "cc" "dd").1 (.ofCause (.missingEndpoint "source" "cc"))).mpr
    (.source (by cbv))
  refine ⟨hreach, ((hfunctions "cc").1 _).mpr (.place rfl (.place rfl hplace)), hcollides,
    (hlenient "cc").2.1 _ hcollides, ?_, hmissing, (hcalls "cc" "dd").2.1 _ hmissing⟩
  obtain ⟨g', hg', hregisters, hlocation, -⟩ := (hbound "bb").2.2 fun failure hfails => by
    rw [((hbound "bb").1 failure).mpr hfails] at hmoves
    cases hmoves
  have hsite : siteTold (some "h.c:3:4") = some ⟨"h.c", 3, 4⟩ := by cbv
  refine ⟨g', hg', hsite ▸ hlocation, ?_⟩
  rw [hregisters.calls]
  cbv

end CallAtlas.Graph
