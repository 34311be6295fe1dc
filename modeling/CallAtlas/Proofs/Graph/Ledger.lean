import CallAtlas.Proofs.Graph.Functions
import CallAtlas.Proofs.Graph.Success

/-!
# The ledger of a graph

Some operations of a history fail.  Those that succeed, in their order, are the ledger of the
history.  A graph tells what its ledger tells, read as a plain list: its functions are the names
registered there, in the order of their first registrations; the place of a function is the one of
its last registration; its calls and its dropped calls are those of the ledger, in order.  Whether
another operation succeeds follows from the ledger too.

## Main definitions

* `Operation.succeeds`, `ledger idOf history`: the operations of a history that succeed
* `namesIn`, `placeIn`, `callsAdded`, `callsDropped`: what a list of operations tells
* `Admits idOf ledger op`: an operation succeeds after a ledger
* `IsLedger idOf entries`: operations that succeed one after the other

## Main results

* `after_ledger`: operations that failed left nothing behind
* `recounts_ledger`: a graph tells what its ledger tells
* `succeeds_after_iff`: the ledger decides about the next operation
* `after_refines_ledger`: all of this in terms of the graph's questions
-/

namespace CallAtlas.Graph

/-! ## Ledgers -/

section Ledgers

variable {idOf : IdScheme}

/-- Whether an operation succeeds on a graph. -/
def Operation.succeeds (idOf : IdScheme) (g : Graph) (op : Operation) : Bool :=
  (op.result? idOf g).isSome

/-- The operations that succeed, one after the other from the graph `g` on. -/
def ledgerFrom (idOf : IdScheme) (g : Graph) : List Operation → List Operation
  | [] => []
  | op :: rest =>
    match op.result? idOf g with
    | some g' => op :: ledgerFrom idOf g' rest
    | none => ledgerFrom idOf g rest

/-- **The operations of a history that succeed.** -/
def ledger (idOf : IdScheme) (history : List Operation) : List Operation :=
  ledgerFrom idOf empty history

/-- Operations that succeed one after the other. -/
def IsLedger (idOf : IdScheme) (entries : List Operation) : Prop :=
  ledger idOf entries = entries

theorem ledgerFrom_concat (g : Graph) (history : List Operation) (op : Operation) :
    ledgerFrom idOf g (history ++ [op]) = ledgerFrom idOf g history ++
      if op.succeeds idOf (history.foldl (Operation.apply idOf) g) then [op] else [] := by
  induction history generalizing g with
  | nil =>
    simp only [List.nil_append, ledgerFrom, List.foldl_nil, Operation.succeeds]
    split
    · next hop => simp [hop]
    · next hop => simp [hop]
  | cons first rest ih =>
    simp only [List.cons_append, ledgerFrom, List.foldl_cons, apply_eq_getD idOf g first]
    cases first.result? idOf g with
    | none => exact ih g
    | some g' => exact congrArg (first :: ·) (ih g')

theorem ledger_concat (history : List Operation) (op : Operation) :
    ledger idOf (history ++ [op]) = ledger idOf history ++
      if op.succeeds idOf (after idOf history) then [op] else [] :=
  ledgerFrom_concat empty history op

theorem ledger_sublist (idOf : IdScheme) (history : List Operation) :
    (ledger idOf history).Sublist history := by
  induction history using List.reverseRecOn with
  | nil => exact .refl []
  | append_singleton history op ih =>
    rw [ledger_concat]
    split
    · exact ih.append (.refl _)
    · exact ih.append (List.nil_sublist _)

theorem isLedger_nil : IsLedger idOf [] := rfl

theorem isLedger_concat_iff_succeeds {entries : List Operation} {op : Operation} :
    IsLedger idOf (entries ++ [op]) ↔
      IsLedger idOf entries ∧ op.succeeds idOf (after idOf entries) = true := by
  unfold IsLedger
  rw [ledger_concat]
  split
  · next hop => simp [hop]
  · next hop =>
    -- a ledger has no more entries than operations
    simp only [List.append_nil, hop, Bool.false_eq_true, and_false, iff_false]
    intro heq
    have hlength := (ledger_sublist idOf entries).length_le
    rw [heq, List.length_append, List.length_singleton] at hlength
    omega

/-- **Operations that failed left nothing behind**: the ledger leads to the same graph. -/
theorem after_ledger (history : List Operation) :
    after idOf (ledger idOf history) = after idOf history := by
  induction history using List.reverseRecOn with
  | nil => rfl
  | append_singleton history op ih =>
    rw [ledger_concat, after_concat]
    split
    · rw [after_concat, ih]
    · next hop =>
      rw [List.append_nil, ih, apply_eq_getD, Option.not_isSome_iff_eq_none.mp hop,
        Option.getD_none]

theorem isLedger_ledger (history : List Operation) : IsLedger idOf (ledger idOf history) := by
  induction history using List.reverseRecOn with
  | nil => exact isLedger_nil
  | append_singleton history op ih =>
    rw [ledger_concat]
    split
    · next hop => exact isLedger_concat_iff_succeeds.mpr ⟨ih, by rw [after_ledger]; exact hop⟩
    · rwa [List.append_nil]

/-- Every reachable graph has a ledger. -/
theorem Reachable.exists_ledger {g : Graph} (hg : Reachable idOf g) :
    ∃ entries, IsLedger idOf entries ∧ after idOf entries = g := by
  obtain ⟨history, rfl⟩ := hg
  exact ⟨ledger idOf history, isLedger_ledger history, after_ledger history⟩

end Ledgers

/-! ## What a ledger tells -/

section Told

/-- The name and the place that an operation registers. -/
def Operation.registration? : Operation → Option (String × Option Location)
  | .addFunction name text _ => some (name, siteTold text)
  | .addCall .. => none
  | .recordDropped _ => none

/-- The call that an operation adds, but for its number. -/
def Operation.call? (idOf : IdScheme) : Operation → Option Call
  | .addFunction .. => none
  | .addCall source target text _ =>
    some (callBetween idOf 0 source target (text.getD Schema.intrinsicLabel))
  | .recordDropped _ => none

/-- The call that an operation records as dropped. -/
def Operation.dropped? : Operation → Option DroppedCall
  | .addFunction .. => none
  | .addCall .. => none
  | .recordDropped call => some call

/-- The names and places that operations register, in order. -/
def registrationsIn (entries : List Operation) : List (String × Option Location) :=
  entries.filterMap Operation.registration?

/-- The names that operations register, in order and with repetitions. -/
def namesIn (entries : List Operation) : List String :=
  (registrationsIn entries).map Prod.fst

/-- The place that a name is registered with at last, if it is registered at all. -/
def placeIn (entries : List Operation) (name : String) : Option (Option Location) :=
  (registrationsIn entries).reverse.lookup name

/-- The calls that operations add, in order and but for their numbers. -/
def callsAdded (idOf : IdScheme) (entries : List Operation) : List Call :=
  entries.filterMap (Operation.call? idOf)

/-- The calls that operations record as dropped, in order. -/
def callsDropped (entries : List Operation) : List DroppedCall :=
  entries.filterMap Operation.dropped?

/-- Calls with their numbers. -/
def numbered (calls : List Call) : List Call :=
  calls.mapIdx fun k call => { call with key := k }

variable (idOf : IdScheme) (entries entries' : List Operation)

@[simp] theorem registrationsIn_append :
    registrationsIn (entries ++ entries') = registrationsIn entries ++ registrationsIn entries' :=
  List.filterMap_append

@[simp] theorem namesIn_append :
    namesIn (entries ++ entries') = namesIn entries ++ namesIn entries' := by
  simp [namesIn]

@[simp] theorem placeIn_append (name : String) :
    placeIn (entries ++ entries') name = (placeIn entries' name).or (placeIn entries name) := by
  simp [placeIn, List.lookup_append]

@[simp] theorem callsAdded_append :
    callsAdded idOf (entries ++ entries') = callsAdded idOf entries ++ callsAdded idOf entries' :=
  List.filterMap_append

@[simp] theorem callsDropped_append :
    callsDropped (entries ++ entries') = callsDropped entries ++ callsDropped entries' :=
  List.filterMap_append

@[simp] theorem namesIn_addFunction (name : String) (text : Option String)
    (strictness : Strictness) : namesIn [.addFunction name text strictness] = [name] := rfl

@[simp] theorem placeIn_addFunction (name : String) (text : Option String)
    (strictness : Strictness) (other : String) :
    placeIn [.addFunction name text strictness] other =
      if other = name then some (siteTold text) else none := by
  simp only [placeIn, registrationsIn, Operation.registration?, List.filterMap_cons,
    List.filterMap_nil, List.reverse_singleton, List.lookup_cons, List.lookup_nil]
  by_cases heq : other = name
  · simp [heq]
  · simp [heq, beq_false_of_ne heq]

/-- Operations that register no function leave what the ones before them registered. -/
theorem registrationsIn_append_of_none {more : List Operation}
    (hmore : ∀ op ∈ more, op.registration? = none) :
    registrationsIn (entries ++ more) = registrationsIn entries := by
  rw [registrationsIn_append, registrationsIn, registrationsIn,
    List.filterMap_eq_nil_iff.mpr hmore, List.append_nil]

theorem namesIn_append_of_none {more : List Operation}
    (hmore : ∀ op ∈ more, op.registration? = none) :
    namesIn (entries ++ more) = namesIn entries := by
  rw [namesIn, registrationsIn_append_of_none entries hmore, namesIn]

theorem placeIn_append_of_none {more : List Operation}
    (hmore : ∀ op ∈ more, op.registration? = none) (name : String) :
    placeIn (entries ++ more) name = placeIn entries name := by
  rw [placeIn, registrationsIn_append_of_none entries hmore, placeIn]

theorem placeIn_isSome_iff {entries : List Operation} {name : String} :
    (placeIn entries name).isSome = true ↔ name ∈ namesIn entries := by
  simp [placeIn, namesIn, List.lookup_isSome_iff]

end Told

/-! ## A graph tells what its ledger tells -/

/-- The graph `g` tells what the operations `entries` tell. -/
structure Recounts (idOf : IdScheme) (entries : List Operation) (g : Graph) :
    Prop where
  order : g.order.toList = (namesIn entries).eraseDups
  ids : ∀ name : String,
    g.ids[name]? = if name ∈ namesIn entries then some (idOf name) else none
  locations : ∀ name ∈ namesIn entries, g.locations[idOf name]? = placeIn entries name
  calls : g.calls.toList = numbered (callsAdded idOf entries)
  dropped : g.dropped.toList = callsDropped entries

namespace Recounts

variable {idOf : IdScheme} {entries : List Operation} {g : Graph}

theorem mem_ids_iff (h : Recounts idOf entries g) {name : String} :
    name ∈ g.ids ↔ name ∈ namesIn entries := by
  rw [Std.HashMap.mem_iff_isSome_getElem?, h.ids]
  split <;> simp [*]

theorem mem_order_iff (h : Recounts idOf entries g) {name : String} :
    name ∈ g.order.toList ↔ name ∈ namesIn entries := by
  rw [h.order, List.mem_eraseDups]

theorem size_calls (h : Recounts idOf entries g) :
    g.calls.size = (callsAdded idOf entries).length := by
  rw [← Array.length_toList, h.calls, numbered, List.length_mapIdx]

/-- The owner of an id is registered, and the id is its own. -/
theorem names_eq_some_iff (h : Recounts idOf entries g) (hregistry : Registry idOf g)
    {id : FunctionId} {name : String} :
    g.names[id]? = some name ↔ name ∈ namesIn entries ∧ id = idOf name := by
  rw [← hregistry.ids_iff, h.ids]
  split
  · next hmem => simp [hmem, eq_comm]
  · next hmem => simp [hmem]

theorem of_empty : Recounts idOf [] empty := by
  constructor <;> simp [empty, namesIn, registrationsIn, callsAdded, callsDropped, numbered]

/-- The id of a name is free or its own if no other name that is registered has it. -/
theorem free_or_own_iff (h : Recounts idOf entries g) (hregistry : Registry idOf g)
    {name : String} :
    (g.names[idOf name]? = none ∨ g.names[idOf name]? = some name) ↔
      ∀ other ∈ namesIn entries, idOf other = idOf name → other = name := by
  constructor
  · intro hname other hother hid
    have hthere : g.names[idOf name]? = some other :=
      (h.names_eq_some_iff hregistry).mpr ⟨hother, hid.symm⟩
    rcases hname with hname | hname
    · simp [hname] at hthere
    · exact Option.some.inj (hthere.symm.trans hname)
  · intro hothers
    cases howner : g.names[idOf name]? with
    | none => exact .inl rfl
    | some owner =>
      obtain ⟨hmem, hid⟩ := (h.names_eq_some_iff hregistry).mp howner
      exact .inr (congrArg some (hothers owner hmem hid.symm))

section Steps

variable {name : String} {text : Option String} {strictness : Strictness}

/-- The place that is put under the id of a name is the place of that name, and of no other. -/
theorem getElem?_insert_siteTold (h : Recounts idOf entries g)
    (hothers : ∀ other ∈ namesIn entries, idOf other = idOf name → other = name)
    {other : String} (hother : other ∈ namesIn (entries ++ [.addFunction name text strictness])) :
    (g.locations.insert (idOf name) (siteTold text))[idOf other]? =
      placeIn (entries ++ [.addFunction name text strictness]) other := by
  rw [placeIn_append, placeIn_addFunction, Std.HashMap.getElem?_insert]
  by_cases heq : other = name
  · simp [heq]
  · have hmem : other ∈ namesIn entries := by simpa [heq] using hother
    have hne : idOf name ≠ idOf other := fun hid => heq (hothers other hmem hid.symm)
    simp [heq, hne, h.locations other hmem]

theorem eraseDups_concat (names : List String) (name : String) :
    (names ++ [name]).eraseDups = names.eraseDups ++ if name ∈ names then [] else [name] := by
  rw [List.eraseDups_append]
  by_cases hmem : name ∈ names <;> simp [List.removeAll, hmem, List.eraseDups_cons]

/-- A function that is registered stands at the end of the ledger. -/
theorem addFunction (h : Recounts idOf entries g) (hregistry : Registry idOf g) {g' : Graph}
    (hg' : (Operation.addFunction name text strictness).result? idOf g = some g') :
    Recounts idOf (entries ++ [.addFunction name text strictness]) g' := by
  have hnames : namesIn (entries ++ [.addFunction name text strictness]) =
      namesIn entries ++ [name] := namesIn_append _ _
  have hcalls : callsAdded idOf (entries ++ [.addFunction name text strictness]) =
      callsAdded idOf entries := by simp [callsAdded, Operation.call?]
  have hdropped : callsDropped (entries ++ [.addFunction name text strictness]) =
      callsDropped entries := by simp [callsDropped, Operation.dropped?]
  obtain ⟨-, -, hname⟩ := result?_addFunction_eq_some_iff.mp hg'
  rcases hname with ⟨hnew, rfl⟩ | ⟨hknown, rfl⟩
  · -- a new function goes to the end of the order
    have hothers := (h.free_or_own_iff hregistry).mp (.inl hnew)
    have hout : name ∉ namesIn entries := fun hmem => by
      rw [(h.names_eq_some_iff hregistry).mpr ⟨hmem, rfl⟩] at hnew
      cases hnew
    refine ⟨?_, fun other => ?_, fun other hother => ?_, ?_, ?_⟩
    · rw [hnames, eraseDups_concat, if_neg hout, ← h.order]
      simp [enroll]
    · rw [hnames, bind_ids, enroll, Std.HashMap.getElem?_insert, h.ids]
      by_cases heq : name = other
      · simp [heq]
      · simp [heq, Ne.symm heq]
    · exact h.getElem?_insert_siteTold hothers hother
    · rw [hcalls]
      exact h.calls
    · rw [hdropped]
      exact h.dropped
  · -- a known function stays where it is
    have hothers := (h.free_or_own_iff hregistry).mp (.inr hknown)
    have hmem := ((h.names_eq_some_iff hregistry).mp hknown).1
    refine ⟨?_, fun other => ?_, fun other hother => ?_, ?_, ?_⟩
    · rw [hnames, eraseDups_concat, if_pos hmem, ← h.order]
      simp
    · rw [hnames, bind_ids, unbind_ids, h.ids]
      by_cases heq : name = other
      · simp [← heq, hmem]
      · simp [Ne.symm heq]
    · rw [bind_locations, unbind_locations]
      exact h.getElem?_insert_siteTold hothers hother
    · rw [hcalls, bind_calls, unbind_calls]
      exact h.calls
    · rw [hdropped, bind_dropped, unbind_dropped]
      exact h.dropped

/-- An operation that leaves the functions is told if its call is. -/
theorem of_sameFunctions (h : Recounts idOf entries g) {g' : Graph} {op : Operation}
    (hsame : SameFunctions g g') (hop : op.registration? = none)
    (hcalls : g'.calls.toList = numbered (callsAdded idOf (entries ++ [op])))
    (hdropped : g'.dropped.toList = callsDropped (entries ++ [op])) :
    Recounts idOf (entries ++ [op]) g' := by
  have hone : ∀ other ∈ [op], other.registration? = none := by simpa using hop
  refine ⟨?_, fun name => ?_, fun name hname => ?_, hcalls, hdropped⟩
  · rw [← hsame.order, namesIn_append_of_none entries hone]
    exact h.order
  · rw [← hsame.ids, namesIn_append_of_none entries hone]
    exact h.ids name
  · rw [namesIn_append_of_none entries hone] at hname
    rw [← hsame.locations, placeIn_append_of_none entries hone]
    exact h.locations name hname

/-- A call that is added gets the next number. -/
theorem addCall (h : Recounts idOf entries g) (hregistry : Registry idOf g)
    {source target : String} {g' : Graph}
    (hg' : (Operation.addCall source target text strictness).result? idOf g = some g') :
    Recounts idOf (entries ++ [.addCall source target text strictness]) g' := by
  obtain ⟨-, -, -, rfl⟩ := (result?_addCall_eq_some_iff hregistry).mp hg'
  refine h.of_sameFunctions (.append g _) rfl ?_ ?_
  · have hcalls : callsAdded idOf (entries ++ [.addCall source target text strictness]) =
        callsAdded idOf entries ++
          [callBetween idOf 0 source target (text.getD Schema.intrinsicLabel)] :=
      callsAdded_append _ _ _
    rw [hcalls, numbered, List.mapIdx_concat, ← h.size_calls, append, Array.toList_push, h.calls]
    rfl
  · rw [callsDropped_append, append, h.dropped]
    exact (List.append_nil _).symm

theorem recordDropped (h : Recounts idOf entries g) (call : DroppedCall) :
    Recounts idOf (entries ++ [.recordDropped call]) (g.recordDropped call) := by
  refine h.of_sameFunctions (.recordDropped g call) rfl ?_ ?_
  · rw [callsAdded_append, Graph.recordDropped, h.calls]
    exact congrArg numbered (List.append_nil _).symm
  · rw [callsDropped_append, Graph.recordDropped, Array.toList_push, h.dropped]
    rfl

end Steps

/-- **An operation that succeeds is told by the graph after it.** -/
theorem result? (h : Recounts idOf entries g) (hregistry : Registry idOf g) {op : Operation}
    {g' : Graph} (hg' : op.result? idOf g = some g') : Recounts idOf (entries ++ [op]) g' := by
  cases op with
  | addFunction name text strictness => exact h.addFunction hregistry hg'
  | addCall source target text strictness => exact h.addCall hregistry hg'
  | recordDropped call =>
    obtain rfl := Option.some.inj hg'
    exact h.recordDropped call

end Recounts

section Runs

variable {idOf : IdScheme}

theorem registry_after (idOf : IdScheme) (history : List Operation) :
    Registry idOf (after idOf history) :=
  Reachable.registry ⟨history, rfl⟩

/-- **A graph tells what its ledger tells.** -/
theorem recounts_ledger (idOf : IdScheme) (history : List Operation) :
    Recounts idOf (ledger idOf history) (after idOf history) := by
  -- Induction on the history, from its last operation, which succeeds or leaves no trace.
  induction history using List.reverseRecOn with
  | nil => exact .of_empty
  | append_singleton history op ih =>
    rw [ledger_concat, after_concat, apply_eq_getD, Operation.succeeds]
    cases hop : op.result? idOf (after idOf history) with
    | none => simpa using ih
    | some g' => simpa using ih.result? (registry_after idOf history) hop

theorem IsLedger.recounts {entries : List Operation} (h : IsLedger idOf entries) :
    Recounts idOf entries (after idOf entries) := by
  have hrecounts := recounts_ledger idOf entries
  rwa [h] at hrecounts

theorem nodup_eraseDups (names : List String) : names.eraseDups.Nodup := by
  induction names using List.reverseRecOn with
  | nil => simp
  | append_singleton names name ih =>
    rw [Recounts.eraseDups_concat]
    split
    · rwa [List.append_nil]
    · next hmem =>
      refine List.nodup_append.mpr ⟨ih, by simp, fun other hother last hlast heq => hmem ?_⟩
      rw [← List.mem_singleton.mp hlast, ← heq]
      exact List.mem_eraseDups.mp hother

/-- No function stands twice in the order of a graph. -/
theorem Recounts.nodup_functions {entries : List Operation} {g : Graph}
    (h : Recounts idOf entries g) : g.functions.Nodup := by
  rw [functions, h.order]
  exact nodup_eraseDups _

/-- **What a ledger admits**: a function whose text can be read and that has an id that no other
name has, a call between registered functions whose label can be read, and every dropped call. -/
def Admits (idOf : IdScheme) (entries : List Operation) : Operation → Prop
  | .addFunction name text strictness =>
    Readable strictness text ∧ idOf.fault? name = none ∧
      ∀ other ∈ namesIn entries, idOf other = idOf name → other = name
  | .addCall source target text strictness =>
    source ∈ namesIn entries ∧ target ∈ namesIn entries ∧
      Readable strictness (some (text.getD Schema.intrinsicLabel))
  | .recordDropped _ => True

/-- **The ledger decides whether an operation succeeds.** -/
theorem Recounts.succeeds_iff {entries : List Operation} {g : Graph}
    (h : Recounts idOf entries g) (hregistry : Registry idOf g) (op : Operation) :
    op.succeeds idOf g = true ↔ Admits idOf entries op := by
  rw [Operation.succeeds, Option.isSome_iff_exists]
  cases op with
  | addFunction name text strictness =>
    simp only [result?_addFunction_eq_some_iff, Admits, ← h.free_or_own_iff hregistry,
      exists_and_left, exists_or, exists_eq, and_true]
  | addCall source target text strictness =>
    simp only [result?_addCall_eq_some_iff hregistry, Admits, h.mem_ids_iff, exists_and_left,
      exists_eq, and_true]
  | recordDropped call => exact ⟨fun _ => trivial, fun _ => ⟨_, rfl⟩⟩

theorem succeeds_after_iff (history : List Operation) (op : Operation) :
    op.succeeds idOf (after idOf history) = true ↔ Admits idOf (ledger idOf history) op :=
  (recounts_ledger idOf history).succeeds_iff (registry_after idOf history) op

theorem isLedger_concat_iff {entries : List Operation} {op : Operation} :
    IsLedger idOf (entries ++ [op]) ↔ IsLedger idOf entries ∧ Admits idOf entries op := by
  rw [isLedger_concat_iff_succeeds]
  refine and_congr_right fun h => ?_
  rw [succeeds_after_iff, h]

/-- What stands in a ledger could be read. -/
theorem readable_of_mem_ledger {history : List Operation} {name : String} {text : Option String}
    {strictness : Strictness}
    (hmem : Operation.addFunction name text strictness ∈ ledger idOf history) :
    Readable strictness text := by
  induction history using List.reverseRecOn with
  | nil => cases hmem
  | append_singleton history op ih =>
    rw [ledger_concat, List.mem_append] at hmem
    rcases hmem with hmem | hmem
    · exact ih hmem
    · split at hmem
      · next hop =>
        obtain rfl := List.mem_singleton.mp hmem
        exact ((succeeds_after_iff history _).mp hop).1
      · cases hmem

end Runs

/-! ## Questions -/

section Questions

variable {idOf : IdScheme} {entries : List Operation} {g : Graph}

theorem Recounts.contains_iff (h : Recounts idOf entries g) {name : String} :
    g.contains name = true ↔ name ∈ namesIn entries := by
  rw [contains, Std.HashMap.contains_iff_mem, h.mem_ids_iff]

theorem Recounts.idOfName_eq (h : Recounts idOf entries g) (name : String) :
    g.idOfName name = if name ∈ namesIn entries then .ok (idOf name)
      else .error (.ofCause (.unknownFunction (.text name))) := by
  rw [idOfName, h.ids]
  split <;> simp_all

/-- A function is defined where it was registered last. -/
theorem Recounts.locationOf_eq (h : Recounts idOf entries g) (name : String) :
    g.locationOf name =
      match placeIn entries name with
      | some site => .ok site
      | none => .error (.ofCause (.unknownFunction (.text name))) := by
  rw [locationOf, h.idOfName_eq]
  by_cases hname : name ∈ namesIn entries
  · obtain ⟨site, hsite⟩ := Option.isSome_iff_exists.mp (placeIn_isSome_iff.mpr hname)
    simp [hname, Except.map, h.locations name hname, hsite]
  · have hnone : placeIn entries name = none := by
      rw [← Option.not_isSome_iff_eq_none, placeIn_isSome_iff]
      exact hname
    simp [hname, Except.map, hnone]

end Questions

/-- **A graph refines its ledger.**  Its functions are the names registered in the ledger, in the
order of their first registrations; a function is defined where its last registration tells; calls
and dropped calls are those of the ledger, in order.  Operations that failed left nothing behind,
and whether another one succeeds is decided by the ledger. -/
theorem after_refines_ledger (idOf : IdScheme) (history : List Operation) :
    (after idOf history).functions = (namesIn (ledger idOf history)).eraseDups ∧
      (∀ name, (after idOf history).contains name = true ↔
        name ∈ (after idOf history).functions) ∧
      (∀ name, (after idOf history).locationOf name =
        match placeIn (ledger idOf history) name with
        | some site => .ok site
        | none => .error (.ofCause (.unknownFunction (.text name)))) ∧
      (∀ name text strictness, .addFunction name text strictness ∈ ledger idOf history →
        Readable strictness text) ∧
      (after idOf history).calls.toList = numbered (callsAdded idOf (ledger idOf history)) ∧
      (after idOf history).dropped.toList = callsDropped (ledger idOf history) ∧
      after idOf (ledger idOf history) = after idOf history ∧
      ∀ op, op.succeeds idOf (after idOf history) = true ↔
        Admits idOf (ledger idOf history) op := by
  have h := recounts_ledger idOf history
  refine ⟨h.order, fun name => ?_, h.locationOf_eq, fun name text strictness hmem => ?_, h.calls,
    h.dropped, after_ledger history, succeeds_after_iff history⟩
  · rw [h.contains_iff, functions, h.mem_order_iff]
  · exact readable_of_mem_ledger hmem

end CallAtlas.Graph
