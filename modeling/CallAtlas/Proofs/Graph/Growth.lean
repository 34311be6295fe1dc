import CallAtlas.Graph.Cursor
import CallAtlas.Proofs.Graph.Adjacency
import CallAtlas.Proofs.Graph.Ledger

/-!
# Graphs grow

No operation takes anything from a graph.  Functions stay in their order and calls in theirs, and
what is new goes to the end.  The same holds of the calls of each function, and what a function is
known by stays.

## Main definitions

* `Grows g g'`: what `g` has, `g'` has in the same order, with more at the end
* `CallList.has list call`: the call stands in the list

## Main results

* `Registry.grows`: a change lets a graph grow
* `Reachable.contents_eq`: each list of calls is a part of all calls
* `Grows.contents`: each list of calls grows
* `Grows.functionCount_ne_iff`: another number of functions tells of a new name
* `order_apply_of_known`: an operation without a new name leaves the order of functions
-/

namespace CallAtlas.Graph

/-! ## Growth -/

/-- The graph `g'` has what `g` has, in the same order, and perhaps more at the end. -/
structure Grows (g g' : Graph) : Prop where
  knows : Knows g' g
  functions : g.functions <+: g'.functions
  calls : g.calls.toList <+: g'.calls.toList

namespace Grows

variable {g g' g'' : Graph}

theorem refl (g : Graph) : Grows g g :=
  ⟨.refl g, List.prefix_refl _, List.prefix_refl _⟩

theorem trans (h : Grows g g') (h' : Grows g' g'') : Grows g g'' :=
  ⟨h'.knows.trans h.knows, h.functions.trans h'.functions, h.calls.trans h'.calls⟩

/-- There are no fewer functions. -/
theorem functionCount_le (h : Grows g g') : g.functionCount ≤ g'.functionCount :=
  h.functions.length_le

end Grows

section Changes

variable {idOf : IdScheme} {g g' : Graph}

/-- **A change lets a graph grow.** -/
theorem Registry.grows (h : Registry idOf g) (hchange : Change idOf g g') : Grows g g' := by
  refine ⟨h.knows hchange, ?_, ?_⟩
  · cases hchange with
    | unchanged => exact List.prefix_refl _
    | enrolled => simp [functions, enroll]
    | moved => simp [functions]
    | called => exact List.prefix_refl _
    | recorded => exact List.prefix_refl _
  · cases hchange with
    | unchanged => exact List.prefix_refl _
    | enrolled => exact List.prefix_refl _
    | moved => simp
    | called => simp [append]
    | recorded => exact List.prefix_refl _

theorem Reachable.grows_apply (hg : Reachable idOf g) (op : Operation) :
    Grows g (op.apply idOf g) :=
  hg.registry.grows (change_apply idOf g op)

theorem Reachable.apply (hg : Reachable idOf g) (op : Operation) :
    Reachable idOf (op.apply idOf g) := by
  obtain ⟨history, rfl⟩ := hg
  exact ⟨history ++ [op], after_concat idOf history op⟩

end Changes

/-! ## Functions -/

section Functions

variable {idOf : IdScheme} {g g' : Graph}

theorem Reachable.contains_iff (hg : Reachable idOf g) {name : String} :
    g.contains name = true ↔ name ∈ g.functions := by
  obtain ⟨entries, hentries, rfl⟩ := hg.exists_ledger
  rw [hentries.recounts.contains_iff, functions, hentries.recounts.mem_order_iff]

theorem Reachable.nodup_functions (hg : Reachable idOf g) : g.functions.Nodup := by
  obtain ⟨entries, hentries, rfl⟩ := hg.exists_ledger
  exact hentries.recounts.nodup_functions

/-- **Another number of functions tells of a new name.** -/
theorem Grows.functionCount_ne_iff (h : Grows g g') (hg : Reachable idOf g)
    (hg' : Reachable idOf g') :
    g'.functionCount ≠ g.functionCount ↔
      ∃ name, g'.contains name = true ∧ g.contains name = false := by
  obtain ⟨more, hmore⟩ := h.functions
  have hcount : g'.functionCount = g.functionCount + more.length := by
    rw [functionCount, functionCount, ← Array.length_toList, ← Array.length_toList]
    exact (congrArg List.length hmore).symm.trans List.length_append
  constructor
  · intro hne
    -- the first name behind those of `g` is none of them
    obtain ⟨name, rest, rfl⟩ := List.exists_cons_of_ne_nil (l := more) fun hnil => by
      simp [hcount, hnil] at hne
    have hnodup := hg'.nodup_functions
    rw [← hmore] at hnodup
    have hnew : name ∉ g.functions := fun hname =>
      (List.nodup_append.mp hnodup).2.2 name hname name (.head _) rfl
    refine ⟨name, hg'.contains_iff.mpr ?_, ?_⟩
    · simp [← hmore]
    · rw [← Bool.not_eq_true, hg.contains_iff]
      exact hnew
  · rintro ⟨name, hname, hnew⟩ hsame
    have hnil : more = [] := List.eq_nil_of_length_eq_zero (by omega)
    rw [hnil, List.append_nil] at hmore
    rw [hg'.contains_iff, ← hmore, ← hg.contains_iff, hnew] at hname
    cases hname

/-- A registered name is that of its id. -/
theorem Registry.names_of_contains (h : Registry idOf g) {name : String}
    (hname : g.contains name = true) : g.names[idOf name]? = some name := by
  rw [contains, Std.HashMap.contains_iff_mem, Std.HashMap.mem_iff_isSome_getElem?] at hname
  obtain ⟨id, hid⟩ := Option.isSome_iff_exists.mp hname
  have hthere := (h.ids_iff name id).mp hid
  rwa [h.id_eq name id hthere] at hthere

/-- **An operation that registers no new name leaves the order of functions**: a known name again, a
failed registration, a call or a dropped call. -/
theorem order_apply_of_known (h : Registry idOf g) {op : Operation}
    (hop : ∀ name text strictness, op = .addFunction name text strictness →
      g.contains name = true ∨ op.result? idOf g = none) :
    (op.apply idOf g).order = g.order := by
  rw [apply_eq_getD]
  cases hresult : op.result? idOf g with
  | none => rfl
  | some g' =>
    cases op with
    | addFunction name text strictness =>
      have hknown := (hop name text strictness rfl).resolve_right (by simp [hresult])
      have hname := h.names_of_contains hknown
      obtain ⟨-, -, ⟨hnew, -⟩ | ⟨-, rfl⟩⟩ := result?_addFunction_eq_some_iff.mp hresult
      · simp [hname] at hnew
      · simp
    | addCall source target text strictness =>
      obtain ⟨-, -, -, rfl⟩ := (result?_addCall_eq_some_iff h).mp hresult
      rfl
    | recordDropped call =>
      obtain rfl := Option.some.inj hresult
      rfl

end Functions

/-! ## Lists of calls -/

/-- Whether a call stands in a list of calls. -/
def CallList.has : CallList → Call → Bool
  | .all, _ => true
  | .outOf caller, call => call.caller = caller
  | .into callee, call => call.callee = callee

section Calls

variable {idOf : IdScheme} {g g' : Graph}

/-- **Each list of calls has those of all calls that belong to it**, in their order. -/
theorem Reachable.contents_eq (hg : Reachable idOf g) (list : CallList) :
    (list.contents g).toList = g.calls.toList.filter list.has := by
  have hcalls := hg.callsIndexed
  cases list with
  | all => exact (List.filter_eq_self.mpr fun _ _ => rfl).symm
  | outOf caller => exact hcalls.outgoing caller
  | into callee => exact hcalls.incoming callee

/-- **Each list of calls grows.** -/
theorem Grows.contents (h : Grows g g') (hg : Reachable idOf g) (hg' : Reachable idOf g')
    (list : CallList) : (list.contents g).toList <+: (list.contents g').toList := by
  rw [hg.contents_eq, hg'.contents_eq]
  exact h.calls.filter list.has

/-- A function that was found is found again, as the same one. -/
theorem Grows.resolve (h : Grows g g') (hg : Reachable idOf g) (hg' : Reachable idOf g')
    {function : FunctionRef} {id : FunctionId} (hid : g.resolve function = .ok id) :
    g'.resolve function = .ok id := by
  cases function with
  | name name =>
    simp only [Graph.resolve, idOfName] at hid ⊢
    cases hfound : g.ids[name]? with
    | none => simp [hfound] at hid
    | some found =>
      rw [hfound] at hid
      rw [h.knows name found hfound]
      exact hid
  | id number =>
    simp only [Graph.resolve] at hid ⊢
    cases hname : g.nameOfId number with
    | error cause => simp [hname, Except.map] at hid
    | ok name =>
      have hthere := (hg.registry.ids_iff name number).mpr (nameOfId_eq_ok_iff.mp hname)
      have hagain := (hg'.registry.ids_iff name number).mp (h.knows name number hthere)
      rw [hname] at hid
      rw [nameOfId_eq_ok_iff.mpr hagain]
      exact hid

end Calls

end CallAtlas.Graph
