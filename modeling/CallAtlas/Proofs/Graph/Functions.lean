import CallAtlas.Proofs.Graph.Registry

/-!
# The functions of a graph

Registering a function looks at no call, and adding a call changes no function.  So two graphs with
the same functions keep them the same through the same registrations, whatever their calls are.

## Main definitions

* `SameFunctions g h`: the same functions, in the same order and at the same places
* `Knows g h`: the functions of `h` are functions of `g`

## Main results

* `SameFunctions.addFunction`: the same registration succeeds in both
* `SameFunctions.locationOf`, `SameFunctions.namesAt`: the same answers
* `Registry.knows`: a change forgets no function
* `calls_of_addFunction`: a registration leaves the calls
-/

namespace CallAtlas.Graph

/-! ## Graphs with the same functions -/

/-- The graphs have the same functions, in the same order and at the same places. -/
structure SameFunctions (g h : Graph) : Prop where
  ids : g.ids = h.ids
  names : g.names = h.names
  order : g.order = h.order
  locations : g.locations = h.locations
  sites : g.sites = h.sites

namespace SameFunctions

variable {g h k : Graph}

theorem refl (g : Graph) : SameFunctions g g := ⟨rfl, rfl, rfl, rfl, rfl⟩

theorem symm (hsame : SameFunctions g h) : SameFunctions h g :=
  ⟨hsame.ids.symm, hsame.names.symm, hsame.order.symm, hsame.locations.symm, hsame.sites.symm⟩

theorem trans (hgh : SameFunctions g h) (hhk : SameFunctions h k) : SameFunctions g k :=
  ⟨hgh.ids.trans hhk.ids, hgh.names.trans hhk.names, hgh.order.trans hhk.order,
    hgh.locations.trans hhk.locations, hgh.sites.trans hhk.sites⟩

theorem append (g : Graph) (call : Call) : SameFunctions g (g.append call) :=
  ⟨rfl, rfl, rfl, rfl, rfl⟩

theorem recordDropped (g : Graph) (call : DroppedCall) : SameFunctions g (g.recordDropped call) :=
  ⟨rfl, rfl, rfl, rfl, rfl⟩

/-! ### The same registrations -/

theorem unbind (hsame : SameFunctions g h) (id : FunctionId) :
    SameFunctions (g.unbind id) (h.unbind id) where
  ids := by simpa using hsame.ids
  names := by simpa using hsame.names
  order := by simpa using hsame.order
  locations := by simpa using hsame.locations
  sites := by
    unfold Graph.unbind
    rw [hsame.locations]
    split
    · next old hold =>
      rw [hsame.sites]
      split <;> rfl
    · exact hsame.sites

theorem bind (hsame : SameFunctions g h) (id : FunctionId) (site : Option Location) :
    SameFunctions (g.bind id site) (h.bind id site) where
  ids := hsame.ids
  names := hsame.names
  order := hsame.order
  locations := by simp only [bind_locations, hsame.locations]
  sites := by simp only [Graph.bind, hsame.sites]

theorem enroll (hsame : SameFunctions g h) (name : String) (id : FunctionId) :
    SameFunctions (g.enroll name id) (h.enroll name id) where
  ids := by simp only [Graph.enroll, hsame.ids]
  names := by simp only [Graph.enroll, hsame.names]
  order := by simp only [Graph.enroll, hsame.order]
  locations := hsame.locations
  sites := hsame.sites

/-- A registration that succeeds in one of the graphs succeeds in the other, with the same functions
after it. -/
theorem addFunction (hsame : SameFunctions g h) {idOf : IdScheme} {name : String}
    {text : Option String} {strictness : Strictness} {id : FunctionId} {g' : Graph}
    (hg : (g.addFunction idOf name text strictness).Yields id g') :
    ∃ h', (h.addFunction idOf name text strictness).Yields id h' ∧ SameFunctions g' h' := by
  obtain ⟨rfl, hread, hfault, hg'⟩ := addFunction_yields_iff.mp hg
  rw [hsame.names] at hg'
  rcases hg' with ⟨hnew, rfl⟩ | ⟨hknown, rfl⟩
  · exact ⟨_, addFunction_yields_iff.mpr ⟨rfl, hread, hfault, .inl ⟨hnew, rfl⟩⟩,
      (hsame.enroll name _).bind _ _⟩
  · exact ⟨_, addFunction_yields_iff.mpr ⟨rfl, hread, hfault, .inr ⟨hknown, rfl⟩⟩,
      (hsame.unbind _).bind _ _⟩

/-! ### The same answers -/

theorem functions (hsame : SameFunctions g h) : g.functions = h.functions := by
  unfold Graph.functions
  rw [hsame.order]

theorem contains (hsame : SameFunctions g h) : g.contains = h.contains := by
  funext name
  rw [Graph.contains, Graph.contains, hsame.ids]

theorem idOfName (hsame : SameFunctions g h) (name : String) :
    g.idOfName name = h.idOfName name := by
  unfold Graph.idOfName
  rw [hsame.ids]

theorem nameOfId (hsame : SameFunctions g h) (id : FunctionId) :
    g.nameOfId id = h.nameOfId id := by
  unfold Graph.nameOfId
  rw [hsame.names]

theorem locationOf (hsame : SameFunctions g h) (name : String) :
    g.locationOf name = h.locationOf name := by
  unfold Graph.locationOf
  rw [hsame.idOfName, hsame.locations]

theorem namesAt (hsame : SameFunctions g h) (place : Location) :
    g.namesAt place = h.namesAt place := by
  unfold Graph.namesAt
  rw [hsame.sites, hsame.names]

end SameFunctions

/-! ## Registrations leave the calls -/

theorem calls_of_addFunction {idOf : IdScheme} {g g' : Graph} {name : String}
    {text : Option String} {strictness : Strictness} {id : FunctionId}
    (h : (g.addFunction idOf name text strictness).Yields id g') :
    g'.calls = g.calls ∧ g'.dropped = g.dropped := by
  obtain ⟨-, -, -, ⟨-, rfl⟩ | ⟨-, rfl⟩⟩ := addFunction_yields_iff.mp h
  · exact ⟨rfl, rfl⟩
  · simp

/-! ## Functions are not forgotten -/

/-- The functions of `h` are functions of `g`, with the same ids. -/
def Knows (g h : Graph) : Prop :=
  ∀ (name : String) (id : FunctionId), h.ids[name]? = some id → g.ids[name]? = some id

theorem Knows.refl (g : Graph) : Knows g g := fun _ _ hid => hid

theorem Knows.trans {g h k : Graph} (hgh : Knows g h) (hhk : Knows h k) : Knows g k :=
  fun name id hid => hgh name id (hhk name id hid)

/-- Whether a graph knows the functions of another depends on the functions of both alone. -/
theorem Knows.of_sameFunctions {g g' h h' : Graph} (hknows : Knows g h)
    (hg : SameFunctions g g') (hh : SameFunctions h h') : Knows g' h' := by
  intro name id hid
  rw [← hh.ids] at hid
  rw [← hg.ids]
  exact hknows name id hid

/-- A change forgets no function. -/
theorem Registry.knows {idOf : IdScheme} {g g' : Graph} (h : Registry idOf g)
    (hchange : Change idOf g g') : Knows g' g := by
  intro name id hid
  cases hchange with
  | unchanged => exact hid
  | @enrolled new text strictness site hnew _ =>
    simp only [bind_ids, enroll, Std.HashMap.getElem?_insert, beq_iff_eq]
    split
    · next heq =>
      subst heq
      rw [h.id_eq _ _ ((h.ids_iff _ _).mp hid)]
    · exact hid
  | moved => simpa using hid
  | called => exact hid
  | recorded call => exact hid

end CallAtlas.Graph
