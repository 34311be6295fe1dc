import CallAtlas.Proofs.Dump.Nesting
import CallAtlas.Proofs.Ingest.Written
import Mathlib.Data.List.Nodup

/-!
# Recovery of written call graphs

A call graph that is written as one dump is recovered by folding the dump into an empty graph.  The
dump is read back as the block that was printed, its records are the functions and the calls that
were written, and entering them succeeds one by one: the names have ids of their own, every call has
its ends, and every place can be read.

## Main definitions

* `writtenLedger items`: the operations that a written call graph comes to

## Main results

* `enteredWith_writtenRecords`: folding a written call graph enters these operations
* `isLedger_writtenLedger`: they succeed
* `depth_graphOf_le`: the dump does not nest deeply
* `foldText_recovers`: the graph is the one that was written
-/

namespace CallAtlas.Ingest

open CallAtlas.Dump (Printed entriesDepth)
open CallAtlas.Graph (Operation after IsLedger Readable siteTold namesIn placeIn callsAdded
  callsDropped callBetween)

/-! ## The ledger of a written call graph -/

/-- The registration of a written function. -/
def WrittenFunction.operation (function : WrittenFunction) : Operation :=
  .addFunction function.name (some function.place) .strict

/-- The addition of a written call. -/
def WrittenCall.operation (call : WrittenCall) : Operation :=
  .addCall call.source call.target (some (call.label.getD Schema.intrinsicLabel)) .strict

/-- **The operations that a written call graph comes to**: functions before calls. -/
def writtenLedger (items : List WrittenItem) : List Operation :=
  (writtenFunctions items).map WrittenFunction.operation ++
    (writtenCalls items).map WrittenCall.operation

section Ledger

variable {idOf : IdScheme} {items : List WrittenItem}

theorem registration?_of_mem_calls {op : Operation}
    (hop : op ∈ (writtenCalls items).map WrittenCall.operation) : op.registration? = none := by
  obtain ⟨call, -, rfl⟩ := List.mem_map.mp hop
  rfl

theorem namesIn_functions (functions : List WrittenFunction) :
    namesIn (functions.map WrittenFunction.operation) = functions.map WrittenFunction.name := by
  induction functions with
  | nil => rfl
  | cons function functions ih => exact congrArg (function.name :: ·) ih

@[simp] theorem namesIn_writtenLedger (items : List WrittenItem) :
    namesIn (writtenLedger items) = (writtenFunctions items).map WrittenFunction.name := by
  rw [writtenLedger, Graph.namesIn_append_of_none _ fun _ => registration?_of_mem_calls,
    namesIn_functions]

theorem callsAdded_writtenLedger (idOf : IdScheme) (items : List WrittenItem) :
    callsAdded idOf (writtenLedger items) = (writtenCalls items).map fun call =>
      callBetween idOf 0 call.source call.target (call.label.getD Schema.intrinsicLabel) := by
  have hfunctions : callsAdded idOf ((writtenFunctions items).map WrittenFunction.operation) = [] :=
    List.filterMap_eq_nil_iff.mpr (List.forall_mem_map.mpr fun _ _ => rfl)
  rw [writtenLedger, Graph.callsAdded_append, hfunctions, List.nil_append, callsAdded,
    List.filterMap_map]
  exact congrFun List.filterMap_eq_map _

theorem callsDropped_writtenLedger (items : List WrittenItem) :
    callsDropped (writtenLedger items) = [] := by
  refine List.filterMap_eq_nil_iff.mpr (List.forall_mem_append.mpr ⟨?_, ?_⟩)
  · exact List.forall_mem_map.mpr fun _ _ => rfl
  · exact List.forall_mem_map.mpr fun _ _ => rfl

/-- Different ids belong to different names. -/
theorem Legible.nodup_names (h : Legible idOf items) :
    ((writtenFunctions items).map WrittenFunction.name).Nodup :=
  h.ids.of_map

theorem WrittenFunction.Legible.readable {function : WrittenFunction} (h : function.Legible) :
    Readable .strict (some function.place) := by
  simp only [Readable, h.ofString?_place]

theorem WrittenFunction.Legible.siteTold_place {function : WrittenFunction}
    (h : function.Legible) : siteTold (some function.place) = function.site := by
  simp only [siteTold, h.ofString?_place]

theorem WrittenCall.Legible.readable {names : List String} {call : WrittenCall}
    (h : call.Legible names) :
    Readable .strict (some (call.label.getD Schema.intrinsicLabel)) := by
  obtain ⟨caller, callee, label⟩ := call
  cases label with
  | none =>
    have hintrinsic : Location.ofString? Schema.intrinsicLabel = .ok none := rfl
    simp only [Option.getD_none, Readable, hintrinsic]
  | some label =>
    obtain ⟨-, found, hfound⟩ := h.label label rfl
    simp only [Option.getD_some, Readable, Location.ofString?, hfound, Except.map]

/-- **The operations of a written call graph succeed.** -/
theorem isLedger_writtenLedger (h : Legible idOf items) : IsLedger idOf (writtenLedger items) := by
  have hregistrations : ∀ op ∈ (writtenFunctions items).map WrittenFunction.operation,
      op.registration?.isSome = true := by
    intro op hop
    obtain ⟨function, -, rfl⟩ := List.mem_map.mp hop
    rfl
  -- functions have places that can be read and ids of their own
  have hfunctions : IsLedger idOf ((writtenFunctions items).map WrittenFunction.operation) := by
    rw [← List.nil_append (List.map _ _), Graph.isLedger_append_registrations_iff hregistrations]
    refine ⟨Graph.isLedger_nil, fun name text strictness hmem => ?_, ?_⟩
    · obtain ⟨function, hfunction, heq⟩ := List.mem_map.mp hmem
      obtain ⟨rfl, rfl, rfl⟩ := Operation.addFunction.inj heq
      exact ⟨(h.functions function hfunction).readable, h.named function hfunction⟩
    · rw [List.nil_append, namesIn_functions]
      intro name hname other hother hid
      exact List.inj_on_of_nodup_map h.ids hother hname hid
  -- calls have their ends among the functions
  rw [writtenLedger, Graph.isLedger_append_calls_iff fun _ => registration?_of_mem_calls]
  refine ⟨hfunctions, ?_⟩
  intro op hop
  obtain ⟨call, hcall, rfl⟩ := List.mem_map.mp hop
  have hlegible := h.calls call hcall
  rw [← namesIn_functions] at hlegible
  exact ⟨hlegible.source, hlegible.target, hlegible.readable⟩

/-- The place of a written function is told by its only registration. -/
theorem placeIn_writtenLedger (h : Legible idOf items) {function : WrittenFunction}
    (hfunction : function ∈ writtenFunctions items) :
    placeIn (writtenLedger items) function.name = some function.site := by
  have hnodup := h.nodup_names
  have hsite := (h.functions function hfunction).siteTold_place
  rw [writtenLedger, Graph.placeIn_append_of_none _ fun _ => registration?_of_mem_calls]
  obtain ⟨before, behind, hsplit⟩ := List.append_of_mem hfunction
  rw [hsplit, List.map_append, List.map_cons, List.nodup_append, List.nodup_cons] at hnodup
  -- no later function has the name
  have hbehind : placeIn (behind.map WrittenFunction.operation) function.name = none := by
    rw [← Option.not_isSome_iff_eq_none, Graph.placeIn_isSome_iff, namesIn_functions]
    exact hnodup.2.1.1
  rw [hsplit, List.map_append, List.map_cons, ← List.singleton_append, Graph.placeIn_append,
    Graph.placeIn_append, hbehind, WrittenFunction.operation, Graph.placeIn_addFunction,
    if_pos rfl, hsite]
  rfl

theorem registrationsOf_writtenRecords (source : String) (items : List WrittenItem) :
    registrationsOf .strict [writtenRecords source items] =
      (writtenFunctions items).map WrittenFunction.operation := by
  rw [registrationsOf, List.flatMap_singleton, Records.registering, writtenRecords, List.map_map]
  rfl

/-- A written call has both its ends. -/
theorem missing?_record (h : Legible idOf items) (source : String) {call : WrittenCall}
    (hcall : call ∈ writtenCalls items) :
    call.record.missing? (knownWith .strict [] [writtenRecords source items]) = none := by
  obtain ⟨hsource, htarget, -⟩ := h.calls call hcall
  simp [CallRecord.missing?, WrittenCall.record, knownWith, knownIn,
    registrationsOf_writtenRecords, namesIn_functions, hsource, htarget]

/-- **Folding a written call graph enters its operations.** -/
theorem enteredWith_writtenRecords (h : Legible idOf items) (source : String) :
    enteredWith .strict [] [writtenRecords source items] = writtenLedger items := by
  have hcalls : callsOf .strict (knownWith .strict [] [writtenRecords source items])
      [writtenRecords source items] = (writtenCalls items).map WrittenCall.operation := by
    rw [callsOf, List.flatMap_singleton]
    simp only [Records.calling, writtenRecords, List.map_map]
    refine List.map_congr_left fun call hcall => ?_
    have hmissing := missing?_record h source hcall
    rw [writtenRecords] at hmissing
    rw [Function.comp_apply, CallRecord.operation, hmissing]
    rfl
  rw [enteredWith, List.nil_append, hcalls, registrationsOf_writtenRecords, writtenLedger]

theorem tally_writtenRecords (h : Legible idOf items) (source : String) :
    (writtenRecords source items).tally (knownWith .strict [] [writtenRecords source items]) =
      { source, functions := (writtenFunctions items).length,
        calls := (writtenCalls items).length } := by
  have hflags : (writtenRecords source items).calls.map (fun call =>
      (call.missing? (knownWith .strict [] [writtenRecords source items])).isNone) =
      List.replicate (writtenCalls items).length true := by
    rw [writtenRecords, List.map_map, List.eq_replicate_iff]
    refine ⟨List.length_map _, List.forall_mem_map.mpr fun call hcall => ?_⟩
    have hmissing := missing?_record h source hcall
    rw [writtenRecords] at hmissing
    rw [Function.comp_apply, hmissing, Option.isNone_none]
  rw [Records.tally, hflags]
  simp [countCalls, Records.registered, writtenRecords, List.count_replicate]

end Ledger

/-! ## Folding a written call graph -/

theorem entriesDepth_block (item : WrittenItem) : entriesDepth item.block.entries = 0 := by
  cases item with
  | function function => rfl
  | call call =>
    obtain ⟨source, target, label⟩ := call
    cases label <;> rfl

/-- Nodes and edges nest in their graph, and nothing nests in them. -/
theorem depth_graphOf_le (items : List WrittenItem) : (graphOf items).depth ≤ 2 := by
  have hitems : entriesDepth (graphOf items).entries ≤ 1 := by
    rw [graphOf]
    induction items with
    | nil => exact Nat.zero_le 1
    | cons item items ih =>
      rw [List.map_cons, entriesDepth, Dump.Entry.depth, entriesDepth_block]
      exact Nat.max_le.mpr ⟨Nat.le_refl 1, ih⟩
  exact Nat.succ_le_succ hitems

/-- A recursion limit can be set for the text of a written call graph. -/
theorem canDescend_of_printed {items : List WrittenItem} {text : String}
    (hwellFormed : (graphOf items).WellFormed) (htext : Printed (graphOf items) text.toList) :
    canDescend text = true := by
  have hdepth := depth_graphOf_le items
  rw [← (htext.derives hwellFormed).nestingDepth_eq] at hdepth
  refine decide_eq_true ?_
  rw [framesPerLevel, frameHeadroom, frameLimit]
  omega

theorem eraseDups_of_nodup {names : List String} (h : names.Nodup) : names.eraseDups = names := by
  induction names with
  | nil => rfl
  | cons name names ih =>
    obtain ⟨hname, hnames⟩ := List.nodup_cons.mp h
    have hothers : names.filter (fun other => !other == name) = names := by
      refine List.filter_eq_self.mpr fun other hother => ?_
      have hne : other ≠ name := fun heq => hname (heq ▸ hother)
      simpa using hne
    rw [List.eraseDups_cons, hothers, ih hnames]

/-- Calls are numbered as they are written. -/
theorem numbered_map {α : Type} (call : α → Call) (as : List α) :
    Graph.numbered (as.map call) = as.mapIdx fun key a => { call a with key := key } := by
  rw [Graph.numbered, List.mapIdx_eq_iff]
  intro k
  rw [List.getElem?_mapIdx, List.getElem?_map, Option.map_map]
  rfl

/-- Folding a written call graph leads to the graph of its ledger. -/
theorem foldBlock_graphOf (setting : Setting) (options : Options)
    (hdemangle : options.demangle = false) (hstrict : options.locations = .strict)
    {items : List WrittenItem} (hitems : Legible setting.idOf items) (source : String) {s : Session}
    (hs : s.graph = Graph.empty) :
    ∃ t, (foldBlock setting options source (graphOf items)).outcome s =
        (.ok { source, functions := (writtenFunctions items).length,
               calls := (writtenCalls items).length }, t) ∧
      t.graph = after setting.idOf (writtenLedger items) := by
  have hreads := readsAs_resolve setting.demangle s.memo
  -- names are taken as they stand, whatever is remembered
  have hnaming : namingUnder options
      (fun name => (Resolver.resolve setting.demangle s.memo name).1) = id := by
    rw [namingUnder, hdemangle]
    rfl
  rw [foldBlock_iff hreads Graph.isLedger_nil hs, hnaming, hstrict]
  refine ⟨writtenRecords source items, recordsOf_graphOf source hitems.functions, ⟨?_, ?_⟩, ?_⟩
  · rw [enteredWith_writtenRecords hitems]
    exact isLedger_writtenLedger hitems
  · rw [enteredWith_writtenRecords hitems]
  · exact (tally_writtenRecords hitems source).symm

/-- **A written call graph is recovered.**  Printed as one dump, with nodes and edges in any order
and with any white space, and folded into an empty graph, it leads to the functions that were
written, in their order, with their ids and places, and to the calls that were written, in their
order and with their labels; no call is dropped. -/
theorem foldText_recovers (setting : Setting) (options : Options) {items : List WrittenItem}
    (hitems : Legible setting.idOf items) {text : String}
    (htext : Printed (graphOf items) text.toList) (source : Option String) {s : Session}
    (hs : s.graph = Graph.empty) :
    ∃ t, (foldText setting { options with demangle := false, locations := .strict } text
          source).outcome s =
        (.ok { source := source.getD anonymousSource, functions := (writtenFunctions items).length,
               calls := (writtenCalls items).length, dropped := 0 }, t) ∧
      t.graph.functions = (writtenFunctions items).map WrittenFunction.name ∧
      (∀ function ∈ writtenFunctions items,
        t.graph.idOfName function.name = .ok (setting.idOf function.name) ∧
          t.graph.locationOf function.name = .ok function.site) ∧
      t.graph.calls.toList = (writtenCalls items).mapIdx (fun key call =>
        callBetween setting.idOf key call.source call.target
          (call.label.getD Schema.intrinsicLabel)) ∧
      t.graph.dropped.toList = [] := by
  have hwellFormed := wellFormed_graphOf hitems
  have hblock := blockOf_eq_ok_iff.mpr
    ⟨canDescend_of_printed hwellFormed htext, Dump.parse_of_printed htext hwellFormed source⟩
  obtain ⟨t, ht, hgraph⟩ := foldBlock_graphOf setting
    { options with demangle := false, locations := .strict } rfl rfl hitems
    (source.getD anonymousSource) hs
  -- the graph tells what its ledger tells, and that is what was written
  have hrecounts := (isLedger_writtenLedger hitems).recounts
  rw [← hgraph] at hrecounts
  refine ⟨t, ?_, ?_, fun function hfunction => ⟨?_, ?_⟩, ?_, ?_⟩
  · rw [foldText, parseText_eq, hblock]
    exact ht
  · rw [Graph.functions, hrecounts.order, namesIn_writtenLedger,
      eraseDups_of_nodup hitems.nodup_names]
  · rw [hrecounts.idOfName_eq, namesIn_writtenLedger, if_pos (List.mem_map_of_mem hfunction)]
  · rw [hrecounts.locationOf_eq, placeIn_writtenLedger hitems hfunction]
  · rw [hrecounts.calls, callsAdded_writtenLedger, numbered_map]
    rfl
  · rw [hrecounts.dropped, callsDropped_writtenLedger]

/-- Two functions, one of them in a file with a drive letter, and a recursive call, with a call
written before the functions that it is between. -/
def recursiveItems : List WrittenItem :=
  [.call ⟨"main", "f\\\"", none⟩, .function ⟨"main", some ⟨"C:\\\\m.c", 3, 14⟩⟩,
    .function ⟨"f\\\"", none⟩, .call ⟨"main", "main", some "m.c:7:2:again"⟩]

/-- The length of a name as its id. -/
def lengthSetting : Setting where
  idOf := Graph.lengthIds
  demangle := some

theorem legible_recursiveItems : Legible lengthSetting.idOf recursiveItems := by
  have hfunctions : writtenFunctions recursiveItems =
      [⟨"main", some ⟨"C:\\\\m.c", 3, 14⟩⟩, ⟨"f\\\"", none⟩] := rfl
  have hcalls : writtenCalls recursiveItems =
      [⟨"main", "f\\\"", none⟩, ⟨"main", "main", some "m.c:7:2:again"⟩] := rfl
  have hspellable : Location.Spellable ⟨"C:\\\\m.c", 3, 14⟩ :=
    ⟨.inr ⟨'C', "\\\\m.c".toList, rfl, by decide, by decide⟩, by decide, by decide, by decide,
      by decide⟩
  refine ⟨fun _ _ => rfl, by decide, ?_, ?_⟩
  · rw [hfunctions]
    refine List.forall_mem_cons.mpr ⟨?_, List.forall_mem_singleton.mpr ?_⟩
    · refine ⟨by decide, by decide, fun site hsite => ?_, by simp⟩
      obtain rfl := Option.some.inj hsite
      exact ⟨hspellable, by decide, by decide +kernel⟩
    · exact ⟨by decide, by decide, by simp, fun _ => by decide +kernel⟩
  · rw [hcalls, hfunctions]
    refine List.forall_mem_cons.mpr ⟨?_, List.forall_mem_singleton.mpr ?_⟩
    · exact ⟨by decide, by decide, by simp⟩
    · refine ⟨by decide, by decide, fun label hlabel => ?_⟩
      obtain rfl := Option.some.inj hlabel
      exact ⟨by decide, some (⟨"m.c", 7, 2⟩, "again"), by decide +kernel⟩

theorem foldText_recovers_recursive :
    Legible lengthSetting.idOf recursiveItems ∧
      Printed (graphOf recursiveItems) (graphOf recursiveItems).print ∧
      ∃ t, (foldText lengthSetting { demangle := false, locations := .strict }
          (String.ofList (graphOf recursiveItems).print) none).outcome {} =
          (.ok ⟨"<string>", 2, 2, 0⟩, t) ∧
        t.graph.functions = ["main", "f\\\""] ∧
        t.graph.locationOf "main" = .ok (some ⟨"C:\\\\m.c", 3, 14⟩) := by
  have hprinted := Dump.printed_print (graphOf recursiveItems)
  have htext : Printed (graphOf recursiveItems)
      (String.ofList (graphOf recursiveItems).print).toList := by
    rw [String.toList_ofList]
    exact hprinted
  obtain ⟨t, ht, hfunctions, hplaces, -, -⟩ :=
    foldText_recovers lengthSetting {} legible_recursiveItems htext none (s := {}) rfl
  refine ⟨legible_recursiveItems, hprinted, t, ht, hfunctions, ?_⟩
  exact (hplaces ⟨"main", some ⟨"C:\\\\m.c", 3, 14⟩⟩ (.head _)).2

end CallAtlas.Ingest
