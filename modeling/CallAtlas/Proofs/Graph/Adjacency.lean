import CallAtlas.Proofs.Graph.Registry

/-!
# Calls and their ends

Every call stands in three lists: the list of all calls, the list of its caller and the list of its
callee.  They are extended one by one, while functions are registered in between; still the lists of
an end are always the calls of that end, in the order of the list of all calls.

## Main definitions

* `IndexedBy endOf index calls`: the index has the calls of each end
* `CallsIndexed g`: the lists of calls of `g` agree, and their ends are registered

## Main results

* `IndexedBy.push`, `IndexedBy.insert_empty`: a call is added, and a function without calls
* `Reachable.callsIndexed`: the lists agree in every reachable graph
* `callIndices_agree`: the same in terms of the graph's questions, with the places of the calls
-/

namespace CallAtlas.Graph

/-! ## Indices of calls -/

/-- The index `index` has, for each function, the calls that have it as the end `endOf`, in the
order of all calls. -/
def IndexedBy (endOf : Call → FunctionId) (index : Std.HashMap FunctionId (Array Call))
    (calls : Array Call) : Prop :=
  ∀ id, (index.getD id #[]).toList = calls.toList.filter fun call => endOf call = id

section Indices

variable {endOf : Call → FunctionId} {index : Std.HashMap FunctionId (Array Call)}
  {calls : Array Call}

/-- A call appended to the list of its end and to the list of all calls. -/
theorem IndexedBy.push (h : IndexedBy endOf index calls) (call : Call) :
    IndexedBy endOf (index.insert (endOf call) ((index.getD (endOf call) #[]).push call))
      (calls.push call) := by
  intro id
  rw [Std.HashMap.getD_insert, Array.toList_push, List.filter_append, ← h id]
  by_cases hid : endOf call = id
  · -- the list that is extended
    simp [hid]
  · -- any other list
    simp [hid]

/-- A function that is entered without calls has none, if it had no list before. -/
theorem IndexedBy.insert_empty (h : IndexedBy endOf index calls) {id : FunctionId}
    (hnew : id ∉ index) : IndexedBy endOf (index.insert id #[]) calls := by
  intro other
  rw [Std.HashMap.getD_insert, ← h other]
  by_cases hid : id = other
  · subst hid
    simp [Std.HashMap.getD_eq_fallback hnew]
  · simp [hid]

/-- The list of a function that has one. -/
theorem exists_of_indexedBy (h : IndexedBy endOf index calls) {id : FunctionId}
    (hid : id ∈ index) : ∃ found, index[id]? = some found ∧
      found.toList = calls.toList.filter fun call => endOf call = id := by
  refine ⟨index.getD id #[], ?_, h id⟩
  rw [Std.HashMap.getD_eq_getD_getElem?, Std.HashMap.getElem?_eq_some_getElem hid, Option.getD_some]

end Indices

/-! ## Reachable graphs -/

/-- The lists of calls agree, every call has its number in the list of all calls, its ends are
registered under the names it has, and its place is the one that its label tells. -/
structure CallsIndexed (g : Graph) : Prop where
  key : ∀ (k : Nat) (call : Call), g.calls[k]? = some call → call.key = k
  outgoing : IndexedBy Call.caller g.outgoing g.calls
  incoming : IndexedBy Call.callee g.incoming g.calls
  caller : ∀ call ∈ g.calls, g.names[call.caller]? = some call.callerName
  callee : ∀ call ∈ g.calls, g.names[call.callee]? = some call.calleeName
  site : ∀ call ∈ g.calls, ∃ strictness,
    (readSite strictness (some call.label)).result = .ok call.site

namespace CallsIndexed

variable {idOf : IdScheme} {g : Graph}

theorem of_empty : CallsIndexed empty := by
  constructor <;> simp [empty, IndexedBy]

theorem enrolled (h : CallsIndexed g) (hregistry : Registry idOf g) {name : String}
    {site : Option Location} (hnew : g.names[idOf name]? = none) :
    CallsIndexed ((g.enroll name (idOf name)).bind (idOf name) site) where
  key := h.key
  outgoing := h.outgoing.insert_empty fun hmem =>
    notMem_names_of_eq_none hnew ((hregistry.mem_outgoing _).mp hmem)
  incoming := h.incoming.insert_empty fun hmem =>
    notMem_names_of_eq_none hnew ((hregistry.mem_incoming _).mp hmem)
  caller call hcall := by
    have hcaller := h.caller call hcall
    -- the caller has a name, so it is not the new function
    have hne : idOf name ≠ call.caller := fun heq => by simp [← heq, hnew] at hcaller
    simp [enroll, Std.HashMap.getElem?_insert, hne, hcaller]
  callee call hcall := by
    have hcallee := h.callee call hcall
    have hne : idOf name ≠ call.callee := fun heq => by simp [← heq, hnew] at hcallee
    simp [enroll, Std.HashMap.getElem?_insert, hne, hcallee]
  site := h.site

theorem moved (h : CallsIndexed g) {id : FunctionId} {site : Option Location} :
    CallsIndexed ((g.unbind id).bind id site) where
  key := by simpa using h.key
  outgoing := by simpa using h.outgoing
  incoming := by simpa using h.incoming
  caller := by simpa using h.caller
  callee := by simpa using h.callee
  site := by simpa using h.site

theorem called (h : CallsIndexed g) (hregistry : Registry idOf g) {call : Call}
    {strictness : Strictness} (hkey : call.key = g.calls.size)
    (hcaller : g.ids[call.callerName]? = some call.caller)
    (hcallee : g.ids[call.calleeName]? = some call.callee)
    (hsite : (readSite strictness (some call.label)).result = .ok call.site) :
    CallsIndexed (g.append call) where
  key k other hother := by
    simp only [append, Array.getElem?_push] at hother
    split at hother
    · next hk =>
      rw [← Option.some.inj hother, hkey, hk]
    · exact h.key k other hother
  outgoing := h.outgoing.push call
  incoming := h.incoming.push call
  caller other hother := by
    rcases Array.mem_push.mp hother with hother | rfl
    · exact h.caller other hother
    · exact (hregistry.ids_iff _ _).mp hcaller
  callee other hother := by
    rcases Array.mem_push.mp hother with hother | rfl
    · exact h.callee other hother
    · exact (hregistry.ids_iff _ _).mp hcallee
  site other hother := by
    rcases Array.mem_push.mp hother with hother | rfl
    · exact h.site other hother
    · exact ⟨strictness, hsite⟩

theorem change {g' : Graph} (h : CallsIndexed g) (hregistry : Registry idOf g)
    (hchange : Change idOf g g') : CallsIndexed g' := by
  cases hchange with
  | unchanged => exact h
  | enrolled hnew _ => exact h.enrolled hregistry hnew
  | moved => exact h.moved
  | called hkey hcaller hcallee hsite => exact h.called hregistry hkey hcaller hcallee hsite
  | recorded call => exact ⟨h.key, h.outgoing, h.incoming, h.caller, h.callee, h.site⟩

end CallsIndexed

theorem Reachable.callsIndexed {idOf : IdScheme} {g : Graph} (hg : Reachable idOf g) :
    CallsIndexed g :=
  hg.of_changes .of_empty fun _ _ hbefore hchange h => h.change hbefore.registry hchange

/-! ## The places of calls -/

/-- The place of a call is what its label tells; it is left out only where the label has no place or
a malformed one. -/
theorem ofString?_of_readSite {strictness : Strictness} {label : String} {site : Option Location}
    (h : (readSite strictness (some label)).result = .ok site) :
    Location.ofString? label = .ok site ∨ site = none ∧ ∃ coordinate digits source,
      Location.ofString? label = .error (.notANumber coordinate digits source) := by
  simp only [readSite] at h
  split at h
  · next hsite =>
    obtain rfl := Except.ok.inj h
    exact .inl hsite
  · simp [Reading.fail] at h
  · next coordinate digits source hfault =>
    cases strictness with
    | strict => simp [Reading.fail] at h
    | lenient =>
      obtain rfl := Except.ok.inj h
      exact .inr ⟨rfl, coordinate, digits, source, hfault⟩

theorem ofString?_intrinsicLabel : Location.ofString? Schema.intrinsicLabel = .ok none := by
  cbv

theorem readSite_intrinsicLabel (strictness : Strictness) :
    (readSite strictness (some Schema.intrinsicLabel)).result = .ok none := by
  simp [readSite, ofString?_intrinsicLabel, Reading.succeed]

/-- **The lists of calls agree in every reachable graph.**  Calls are numbered in their order; the
calls out of a function and into it are those of all calls that have it as caller and as callee; the
ends of a call are registered under its names; and a call has the place that its label tells, where
the label tells one. -/
theorem callIndices_agree {idOf : IdScheme} {g : Graph} (hg : Reachable idOf g) :
    (∀ (k : Nat) (call : Call), g.calls[k]? = some call → call.key = k) ∧
      (∀ (id : FunctionId) (name : String), g.nameOfId id = .ok name →
        (∃ calls, g.outgoing[id]? = some calls ∧
          calls.toList = g.calls.toList.filter fun call => call.caller = id) ∧
        ∃ calls, g.incoming[id]? = some calls ∧
          calls.toList = g.calls.toList.filter fun call => call.callee = id) ∧
      ∀ call ∈ g.calls,
        g.nameOfId call.caller = .ok call.callerName ∧
        g.nameOfId call.callee = .ok call.calleeName ∧
        (∀ site, call.site = some site → Location.ofString? call.label = .ok (some site)) ∧
        (call.site = none → Location.ofString? call.label = .ok none ∨
          ∃ coordinate digits source, Location.ofString? call.label =
            .error (.notANumber coordinate digits source)) ∧
        (call.isIntrinsic = true → call.site = none) := by
  have hcalls := hg.callsIndexed
  have hregistry := hg.registry
  refine ⟨hcalls.key, fun id name hname => ?_, fun call hcall => ?_⟩
  · have hid := mem_names_of_eq_some (nameOfId_eq_ok_iff.mp hname)
    exact ⟨exists_of_indexedBy hcalls.outgoing ((hregistry.mem_outgoing id).mpr hid),
      exists_of_indexedBy hcalls.incoming ((hregistry.mem_incoming id).mpr hid)⟩
  · obtain ⟨strictness, hsite⟩ := hcalls.site call hcall
    refine ⟨nameOfId_eq_ok_iff.mpr (hcalls.caller call hcall),
      nameOfId_eq_ok_iff.mpr (hcalls.callee call hcall), fun site hsome => ?_, fun hnone => ?_,
      fun hintrinsic => ?_⟩
    · rw [hsome] at hsite
      rcases ofString?_of_readSite hsite with hlabel | ⟨hnone, -⟩
      · exact hlabel
      · simp at hnone
    · rw [hnone] at hsite
      rcases ofString?_of_readSite hsite with hlabel | ⟨-, hfault⟩
      · exact .inl hlabel
      · exact .inr hfault
    · rw [of_decide_eq_true hintrinsic, readSite_intrinsicLabel] at hsite
      exact (Except.ok.inj hsite).symm

/-- A history with a call of a function to itself, two calls along one edge, and a function that is
registered again between them. -/
def recursiveHistory : List Operation :=
  [.addFunction "f" (some "f.c:1:2") .strict, .addFunction "gg" none .strict,
    .addCall "f" "f" (some "f.c:3:4") .strict, .addCall "gg" "f" none .strict,
    .addFunction "f" (some "f.c:5:6") .strict, .addCall "f" "gg" (some "f.c:x:1") .lenient,
    .addCall "f" "h" none .strict, .addCall "f" "gg" (some "f.c:7:8") .strict]

theorem callIndices_agree_recursive :
    Reachable lengthIds (after lengthIds recursiveHistory) ∧
      ∃ calls, (after lengthIds recursiveHistory).outgoing[(1 : FunctionId)]? =
        some calls ∧ calls.toList.map Call.key = [0, 2, 3] := by
  have hreach : Reachable lengthIds
      (after lengthIds recursiveHistory) := ⟨recursiveHistory, rfl⟩
  obtain ⟨-, hlists, -⟩ := callIndices_agree hreach
  obtain ⟨⟨calls, hout, hcalls⟩, -⟩ := hlists 1 "f" (by cbv)
  refine ⟨hreach, calls, hout, ?_⟩
  rw [hcalls]
  cbv

end CallAtlas.Graph
