import CallAtlas.Proofs.Graph.Growth
import CallAtlas.Proofs.Graph.Identity
import Mathlib.Algebra.BigOperators.Group.Finset.Piecewise
import Mathlib.Algebra.GroupWithZero.Nat
import Mathlib.Data.List.ReduceOption

/-!
# A graph in numbers

The numbers of a graph are taken from where they are quickest to find: the order of names, the map
of places, the list of all calls.  What questions answer comes from other indices.  Both agree,
because each thing that is counted belongs to exactly one class: a call has one caller and one
callee, and a function with a place has one place.  So the calls out of all functions are all
calls, those into all functions are all calls, and the functions at all places are all functions
with a place.

## Main definitions

* `placesOf idOf g`: the places of the functions of `g`, in the order of the functions
* `CountsAgree g`: the numbers of `g` agree with the answers to questions

## Main results

* `sum_countP_eq_length`: what is counted class by class is counted once
* `Reachable.perm_keys_ids`, `Reachable.perm_keys_locations`: the maps have the functions as keys
* `Reachable.sum_calls_by`: calls by one of their ends
* `Reachable.sum_namesAt`: functions by place
* `Reachable.countsAgree`: the numbers agree in every reachable graph
-/

namespace CallAtlas.Graph

/-! ## Counting by classes -/

section Classes

variable {α β : Type} [DecidableEq β]

/-- **What is counted class by class is counted once**, if the classes are told apart and none is
left out. -/
theorem sum_countP_eq_length {classes : List β} (hnodup : classes.Nodup) (classOf : α → β)
    {as : List α} (hmem : ∀ a ∈ as, classOf a ∈ classes) :
    (classes.map fun c => as.countP fun a => classOf a = c).sum = as.length := by
  induction as with
  | nil => simp
  | cons a as ih =>
    obtain ⟨ha, has⟩ := List.forall_mem_cons.mp hmem
    -- the first one is counted in its own class and in no other
    have hown : (classes.map fun c => if classOf a = c then 1 else 0).sum = 1 := by
      rw [← List.sum_toFinset _ hnodup, Finset.sum_ite_eq, if_pos (List.mem_toFinset.mpr ha)]
    simp only [List.countP_cons, decide_eq_true_eq, List.sum_map_add, ih has, hown,
      List.length_cons]

/-- Things with a class, counted class by class. -/
theorem sum_count_some (found : List (Option β)) :
    (found.reduceOption.dedup.map fun c => found.count (some c)).sum =
      found.countP Option.isSome := by
  have hcount (c : β) : found.count (some c) = found.reduceOption.count c := by
    rw [List.reduceOption, List.count_filterMap, List.count_eq_countP]
    refine List.countP_congr fun a _ => ?_
    cases a <;> simp
  simp only [hcount]
  rw [List.sum_map_count_dedup_eq_length, List.reduceOption_length_eq, List.countP_eq_length_filter]

end Classes

/-- What is kept in a map is kept under its keys. -/
theorem values_eq_map_keys {α : Type} (m : Std.HashMap FunctionId α) (fallback : α) :
    m.values = m.keys.map fun id => m.getD id fallback := by
  -- both lists are told by the entries of the map, in one order
  have hvalues : m.values = m.toList.map Prod.snd := by
    have hentries := Std.DHashMap.Internal.Raw.Const.toList_eq_toListModel_map (m := m.inner.1)
    change m.inner.1.values = (Std.DHashMap.Raw.Const.toList m.inner.1).map Prod.snd
    rw [Std.DHashMap.Internal.Raw.values_eq_values_toListModel, Std.Internal.List.values_eq_map,
      hentries, List.map_map]
    rfl
  rw [hvalues, ← Std.HashMap.map_fst_toList_eq_keys, List.map_map]
  refine List.map_congr_left fun entry hentry => ?_
  obtain ⟨id, a⟩ := entry
  have hthere := Std.HashMap.mem_toList_iff_getElem?_eq_some.mp hentry
  simp [Std.HashMap.getD_eq_getD_getElem?, hthere]

/-! ## Functions as keys -/

section Functions

variable {idOf : IdScheme} {g : Graph}

theorem Reachable.names_of_mem (hg : Reachable idOf g) {name : String}
    (hname : name ∈ g.functions) : g.names[idOf name]? = some name :=
  hg.registry.names_of_contains (hg.contains_iff.mpr hname)

theorem Reachable.mem_of_names (hg : Reachable idOf g) {name : String} {id : FunctionId}
    (hname : g.names[id]? = some name) : name ∈ g.functions := by
  have hid := (hg.registry.ids_iff name id).mpr hname
  rw [← hg.contains_iff, contains, Std.HashMap.contains_iff_mem,
    Std.HashMap.mem_iff_isSome_getElem?, hid]
  rfl

/-- The ids of the functions are told apart. -/
theorem Reachable.nodup_ids (hg : Reachable idOf g) : (g.functions.map idOf.ofName).Nodup := by
  refine hg.nodup_functions.map_on fun name hname other hother hid => ?_
  have hsame := hg.names_of_mem hother
  rw [← hid, hg.names_of_mem hname] at hsame
  exact Option.some.inj hsame

/-- An id is registered exactly as that of a function. -/
theorem Reachable.mem_ids_iff (hg : Reachable idOf g) {id : FunctionId} :
    id ∈ g.functions.map idOf.ofName ↔ id ∈ g.names := by
  rw [List.mem_map]
  constructor
  · rintro ⟨name, hname, rfl⟩
    exact mem_names_of_eq_some (hg.names_of_mem hname)
  · intro hid
    obtain ⟨name, hname⟩ :=
      Option.isSome_iff_exists.mp (Std.HashMap.mem_iff_isSome_getElem?.mp hid)
    exact ⟨name, hg.mem_of_names hname, (hg.registry.id_eq name id hname).symm⟩

/-- **The map of ids has the names of the functions.** -/
theorem Reachable.perm_keys_ids (hg : Reachable idOf g) : g.ids.keys.Perm g.functions := by
  rw [List.perm_ext_iff_of_nodup Std.HashMap.nodup_keys hg.nodup_functions]
  intro name
  rw [Std.HashMap.mem_keys, ← hg.contains_iff, contains, Std.HashMap.contains_iff_mem]

/-- **The map of places has the ids of the functions.** -/
theorem Reachable.perm_keys_locations (hg : Reachable idOf g) :
    g.locations.keys.Perm (g.functions.map idOf.ofName) := by
  rw [List.perm_ext_iff_of_nodup Std.HashMap.nodup_keys hg.nodup_ids]
  intro id
  rw [Std.HashMap.mem_keys, hg.mem_ids_iff, hg.registry.mem_locations]

end Functions

/-! ## Places -/

section Places

variable {idOf : IdScheme} {g : Graph}

/-- The places of the functions, in the order of the functions. -/
def placesOf (idOf : IdScheme) (g : Graph) : List (Option Location) :=
  g.functions.map fun name => g.locations.getD (idOf name) none

theorem Reachable.locationOf_eq (hg : Reachable idOf g) {name : String}
    (hname : name ∈ g.functions) :
    g.locationOf name = .ok (g.locations.getD (idOf name) none) := by
  obtain ⟨site, hsite, hlocation⟩ := (hg.registry.answeredAs (hg.names_of_mem hname)).locationOf
  rw [hlocation, Std.HashMap.getD_eq_getD_getElem?, hsite, Option.getD_some]

/-- The map of places has the places of the functions. -/
theorem Reachable.perm_values_locations (hg : Reachable idOf g) :
    g.locations.values.Perm (placesOf idOf g) := by
  rw [values_eq_map_keys g.locations none, placesOf]
  exact (hg.perm_keys_locations.map _).trans (.of_eq List.map_map)

/-- The functions told at a place are as many as have it. -/
theorem Reachable.length_namesAt (hg : Reachable idOf g) (place : Location) :
    (g.namesAt place).length = (placesOf idOf g).count (some place) := by
  have hnodup : (g.namesAt place).Nodup := by
    refine (pairwise_namesAt hg place).imp ?_
    rintro name _ hlt rfl
    exact String.lt_irrefl name hlt
  have hperm : (g.namesAt place).Perm
      (g.functions.filter fun name => g.locations.getD (idOf name) none = some place) := by
    rw [List.perm_ext_iff_of_nodup hnodup (hg.nodup_functions.filter _)]
    intro name
    rw [mem_namesAt_iff hg, List.mem_filter, decide_eq_true_eq]
    constructor
    · intro hlocation
      obtain ⟨id, hid, -⟩ := locationOf_eq_ok_some_iff.mp hlocation
      have hname := hg.mem_of_names ((hg.registry.ids_iff name id).mp hid)
      rw [hg.locationOf_eq hname] at hlocation
      exact ⟨hname, Except.ok.inj hlocation⟩
    · rintro ⟨hname, hplace⟩
      rw [hg.locationOf_eq hname, hplace]
  rw [hperm.length_eq, ← List.countP_eq_length_filter, placesOf, List.count_eq_countP,
    List.countP_map]
  refine List.countP_congr fun name _ => ?_
  simp

/-- **Functions by place**: those at all places are all functions with a place. -/
theorem Reachable.sum_namesAt (hg : Reachable idOf g) :
    ((placesOf idOf g).reduceOption.dedup.map fun place => (g.namesAt place).length).sum =
      (placesOf idOf g).countP Option.isSome := by
  simp only [hg.length_namesAt]
  exact sum_count_some _

end Places

/-! ## Calls -/

section Calls

variable {idOf : IdScheme} {g : Graph}

/-- **Calls by one of their ends**: those of all functions are all calls, if the ends are
registered. -/
theorem Reachable.sum_calls_by (hg : Reachable idOf g) (endOf : Call → FunctionId)
    (hends : ∀ call ∈ g.calls, endOf call ∈ g.names) :
    ((g.functions.map fun name => g.calls.toList.filter fun call => endOf call = idOf name).map
      List.length).sum = g.callCount := by
  have hcalls : ∀ call ∈ g.calls.toList, endOf call ∈ g.functions.map idOf.ofName := by
    intro call hcall
    exact hg.mem_ids_iff.mpr (hends call (Array.mem_toList_iff.mp hcall))
  have hsum := sum_countP_eq_length hg.nodup_ids endOf hcalls
  rw [Array.length_toList] at hsum
  rw [List.map_map, callCount, ← hsum, List.map_map]
  refine congrArg List.sum (List.map_congr_left fun name _ => ?_)
  exact List.countP_eq_length_filter.symm

theorem Reachable.callsFrom_eq (hg : Reachable idOf g) {name : String}
    (hname : name ∈ g.functions) :
    g.callsFrom (.name name) = .ok (g.calls.toList.filter fun call => call.caller = idOf name) := by
  obtain ⟨calls, hout, hcalls, -⟩ := (hg.registry.answeredAs (hg.names_of_mem hname)).callsFrom
  rw [hcalls, ← hg.callsIndexed.outgoing, Std.HashMap.getD_eq_getD_getElem?, hout, Option.getD_some]

theorem Reachable.callsTo_eq (hg : Reachable idOf g) {name : String}
    (hname : name ∈ g.functions) :
    g.callsTo (.name name) = .ok (g.calls.toList.filter fun call => call.callee = idOf name) := by
  obtain ⟨calls, hinc, hcalls, -⟩ := (hg.registry.answeredAs (hg.names_of_mem hname)).callsTo
  rw [hcalls, ← hg.callsIndexed.incoming, Std.HashMap.getD_eq_getD_getElem?, hinc, Option.getD_some]

end Calls

/-! ## Numbers -/

/-- The answers to a question about each of some functions. -/
def AnsweredEach {α : Type} (ask : String → Except Failure α) (names : List String)
    (answers : List α) : Prop :=
  List.Forall₂ (fun name answer => ask name = .ok answer) names answers

theorem answeredEach_map {α : Type} {ask : String → Except Failure α} {answer : String → α}
    {names : List String} (h : ∀ name ∈ names, ask name = .ok (answer name)) :
    AnsweredEach ask names (names.map answer) := by
  rw [AnsweredEach, List.forall₂_map_right_iff, List.forall₂_same]
  exact h

/-- **The numbers of a graph agree with the answers to questions about it.** -/
structure CountsAgree (g : Graph) : Prop where
  /-- Functions are counted by name, each of them once. -/
  nodup : g.functions.Nodup
  functions : g.statistics.functions = g.functions.length
  functionCount : g.functionCount = g.functions.length
  size_ids : g.ids.size = g.functions.length
  /-- Functions without a place, and functions by place. -/
  places : ∃ places, AnsweredEach g.locationOf g.functions places ∧
    g.statistics.functionsWithoutLocation = places.count none ∧
    (places.reduceOption.dedup.map fun place => (g.namesAt place).length).sum =
      places.countP Option.isSome
  /-- Calls by caller. -/
  outgoing : ∃ lists, AnsweredEach (fun name => g.callsFrom (.name name)) g.functions lists ∧
    (lists.map List.length).sum = g.statistics.calls
  /-- Calls by callee. -/
  incoming : ∃ lists, AnsweredEach (fun name => g.callsTo (.name name)) g.functions lists ∧
    (lists.map List.length).sum = g.statistics.calls
  calls : g.statistics.calls = g.callCount ∧ g.callCount = g.calls.toList.length
  intrinsic : g.statistics.intrinsicCalls =
    (g.calls.toList.filter fun call => call.label = Schema.intrinsicLabel).length
  dropped : g.statistics.droppedCalls = g.dropped.toList.length

/-- **The numbers agree in every reachable graph.** -/
theorem Reachable.countsAgree {idOf : IdScheme} {g : Graph} (hg : Reachable idOf g) :
    CountsAgree g where
  nodup := hg.nodup_functions
  functions := Array.length_toList.symm
  functionCount := Array.length_toList.symm
  size_ids := by rw [← Std.HashMap.length_keys, hg.perm_keys_ids.length_eq]
  places := by
    refine ⟨placesOf idOf g, answeredEach_map fun name hname => hg.locationOf_eq hname, ?_,
      hg.sum_namesAt⟩
    change g.locations.values.countP Option.isNone = _
    rw [hg.perm_values_locations.countP_eq, List.count_eq_countP]
    refine List.countP_congr fun place _ => ?_
    cases place <;> simp
  outgoing := by
    refine ⟨_, answeredEach_map fun name hname => hg.callsFrom_eq hname, ?_⟩
    exact hg.sum_calls_by Call.caller fun call hcall =>
      mem_names_of_eq_some (hg.callsIndexed.caller call hcall)
  incoming := by
    refine ⟨_, answeredEach_map fun name hname => hg.callsTo_eq hname, ?_⟩
    exact hg.sum_calls_by Call.callee fun call hcall =>
      mem_names_of_eq_some (hg.callsIndexed.callee call hcall)
  calls := ⟨rfl, Array.length_toList.symm⟩
  intrinsic := List.countP_eq_length_filter
  dropped := Array.length_toList.symm

end CallAtlas.Graph
