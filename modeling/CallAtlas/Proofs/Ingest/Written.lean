import CallAtlas.Proofs.Dump.Printing
import CallAtlas.Proofs.Ingest.Booking
import CallAtlas.Proofs.Location.Spelling

/-!
# Written call graphs

A call graph is written as one block: a node for each function, with its name as the title and, on
the second line of its label, the place where it is defined; an edge for each call.  Nodes and edges
stand in any order.  If names, places and labels can be spelled and told apart, the block is well
formed, and its records are the functions and the calls that were written.

## Main definitions

* `WrittenFunction`, `WrittenCall`, `WrittenItem`: what is written
* `graphOf items`: the block that it is written as
* `WrittenFunction.Legible`, `WrittenCall.Legible`: what can be spelled and told apart
* `writtenRecords`: the records that are read

## Main results

* `WrittenFunction.Legible.ofString?_place`: the place is read from the label
* `wellFormed_graphOf`: the block can be printed
* `recordsOf_graphOf`: its records are what was written
-/

namespace CallAtlas

/-! ## Quoted texts -/

namespace Dump

theorem QuotedBody.append {body body' : List Char} (h : QuotedBody body) (h' : QuotedBody body') :
    QuotedBody (body ++ body') := by
  induction h with
  | nil => exact h'
  | escape c _ ih => exact .escape c ih
  | plain hquote hslash _ ih => exact .plain hquote hslash ih

theorem quotedBody_of_plain {body : List Char} (h : ∀ c ∈ body, c ≠ '"' ∧ c ≠ '\\') :
    QuotedBody body := by
  induction body with
  | nil => exact .nil
  | cons c body ih =>
    obtain ⟨⟨hquote, hslash⟩, hbody⟩ := List.forall_mem_cons.mp h
    exact .plain hquote hslash (ih hbody)

/-- A written location can stand between quotes if its file can. -/
theorem quotedBody_toString {loc : Location} (hloc : loc.Spellable)
    (hfile : QuotedBody loc.file.toList) : QuotedBody loc.toString.toList := by
  obtain ⟨behind, hspelled, hbehind⟩ := hloc.exists_behind_file
  rw [hspelled]
  refine hfile.append (quotedBody_of_plain fun c hc => ⟨?_, ?_⟩)
  · rintro rfl
    exact absurd (hbehind _ hc) (by decide)
  · rintro rfl
    exact absurd (hbehind _ hc) (by decide)

end Dump

namespace Ingest

open CallAtlas.Dump (Block Entry QuotedBody)
open CallAtlas.Label (SeparatorFree)

/-! ## What is written -/

/-- A function as it is written: its name, and the place where it is defined if it has one. -/
structure WrittenFunction where
  name : String
  site : Option Location := none
  deriving DecidableEq, Repr

/-- A call as it is written; without a label it is intrinsic. -/
structure WrittenCall where
  source : String
  target : String
  label : Option String := none
  deriving DecidableEq, Repr

/-- A function or a call. -/
inductive WrittenItem where
  | function (function : WrittenFunction)
  | call (call : WrittenCall)
  deriving DecidableEq, Repr

/-- The label of a function: its name, and its place on a second line. -/
def WrittenFunction.label (function : WrittenFunction) : String :=
  match function.site with
  | some site => function.name ++ Schema.labelLineSeparator ++ site.toString
  | none => function.name

/-- The node of a function. -/
def WrittenFunction.block (function : WrittenFunction) : Block :=
  ⟨Schema.nodeKind,
    [.field Schema.nodeTitle function.name, .field Schema.nodeLabel function.label]⟩

/-- The edge of a call. -/
def WrittenCall.block (call : WrittenCall) : Block :=
  ⟨Schema.edgeKind,
    [.field Schema.edgeSource call.source, .field Schema.edgeTarget call.target] ++
      call.label.toList.map (.field Schema.edgeLabel)⟩

/-- The node or the edge of an item. -/
def WrittenItem.block : WrittenItem → Block
  | .function f => f.block
  | .call c => c.block

/-- **The block that functions and calls are written as**, in the order given. -/
def graphOf (items : List WrittenItem) : Block :=
  ⟨Schema.graphKind, items.map fun item => .block item.block.kind item.block.entries⟩

/-- The functions among items, in order. -/
def writtenFunctions (items : List WrittenItem) : List WrittenFunction :=
  items.filterMap fun
    | .function f => some f
    | .call _ => none

/-- The calls among items, in order. -/
def writtenCalls (items : List WrittenItem) : List WrittenCall :=
  items.filterMap fun
    | .function _ => none
    | .call c => some c

/-! ## What can be spelled and told apart -/

/-- A function whose name and place can be spelled, each on a line of its own; without a place, its
name must not read as one. -/
structure WrittenFunction.Legible (function : WrittenFunction) : Prop where
  quoted : QuotedBody function.name.toList
  oneLine : SeparatorFree function.name.toList
  site : ∀ site ∈ function.site,
    site.Spellable ∧ QuotedBody site.file.toList ∧ SeparatorFree site.file.toList
  noSite : function.site = none → Location.parse function.name = .ok none

/-- A call between known names whose label, if it has one, can be spelled and has no malformed
place. -/
structure WrittenCall.Legible (names : List String) (call : WrittenCall) : Prop where
  source : call.source ∈ names
  target : call.target ∈ names
  label : ∀ label ∈ call.label,
    QuotedBody label.toList ∧ ∃ found, Location.parse label = .ok found

/-- **A written call graph that can be read**: functions that have ids, different ones, and calls
between them. -/
structure Legible (idOf : IdScheme) (items : List WrittenItem) : Prop where
  named : ∀ function ∈ writtenFunctions items, idOf.fault? function.name = none
  ids : (((writtenFunctions items).map WrittenFunction.name).map idOf).Nodup
  functions : ∀ function ∈ writtenFunctions items, function.Legible
  calls : ∀ call ∈ writtenCalls items,
    call.Legible ((writtenFunctions items).map WrittenFunction.name)

/-! ## Reading the place of a function -/

/-- The text that is read for the place of a function. -/
def WrittenFunction.place (function : WrittenFunction) : String :=
  match function.site with
  | some site => site.toString
  | none => function.name

namespace WrittenFunction.Legible

variable {function : WrittenFunction}

theorem locationLine_label (h : function.Legible) :
    Label.locationLine function.label = function.place := by
  obtain ⟨name, site⟩ := function
  cases site with
  | none => exact Label.locationLine_of_separatorFree h.oneLine
  | some site =>
    obtain ⟨hsite, -, hfile⟩ := h.site site rfl
    exact Label.locationLine_append h.oneLine (Label.separatorFree_toString hsite hfile)

/-- **The place that is read is the place that was written.** -/
theorem ofString?_place (h : function.Legible) :
    Location.ofString? function.place = .ok function.site := by
  obtain ⟨name, site⟩ := function
  cases site with
  | none =>
    simp only [place, Location.ofString?, h.noSite rfl]
    rfl
  | some site => exact Location.ofString?_toString (h.site site rfl).1

theorem quotedBody_label (h : function.Legible) : QuotedBody function.label.toList := by
  obtain ⟨name, site⟩ := function
  cases site with
  | none => exact h.quoted
  | some site =>
    obtain ⟨hsite, hfile, -⟩ := h.site site rfl
    have hseparator : QuotedBody Schema.labelLineSeparator.toList := .escape 'n' .nil
    simp only [label, String.toList_append]
    exact (h.quoted.append hseparator).append (Dump.quotedBody_toString hsite hfile)

end WrittenFunction.Legible

/-! ## The records of a written call graph -/

/-- A function as it is read. -/
def WrittenFunction.record (function : WrittenFunction) : FunctionRecord :=
  ⟨function.name, function.place⟩

/-- A call as it is read. -/
def WrittenCall.record (call : WrittenCall) : CallRecord :=
  ⟨call.source, call.target, call.label.getD Schema.intrinsicLabel⟩

/-- What is read from a written call graph. -/
def writtenRecords (source : String) (items : List WrittenItem) : Records where
  source := source
  functions := (writtenFunctions items).map WrittenFunction.record
  calls := (writtenCalls items).map WrittenCall.record

section Records

variable {items : List WrittenItem}

theorem blocks_graphOf (items : List WrittenItem) :
    (graphOf items).blocks = items.map WrittenItem.block := by
  rw [Block.blocks, graphOf, List.filterMap_map]
  exact congrFun List.filterMap_eq_map items

theorem blocksOfKind_node (items : List WrittenItem) :
    (graphOf items).blocksOfKind Schema.nodeKind =
      (writtenFunctions items).map WrittenFunction.block := by
  rw [Block.blocksOfKind, blocks_graphOf]
  induction items with
  | nil => rfl
  | cons item items ih =>
    cases item with
    | function f => exact congrArg (f.block :: ·) ih
    | call c => exact ih

theorem blocksOfKind_edge (items : List WrittenItem) :
    (graphOf items).blocksOfKind Schema.edgeKind =
      (writtenCalls items).map WrittenCall.block := by
  rw [Block.blocksOfKind, blocks_graphOf]
  induction items with
  | nil => rfl
  | cons item items ih =>
    cases item with
    | function f => exact ih
    | call c => exact congrArg (c.block :: ·) ih

theorem functionOf_block (source : String) {function : WrittenFunction} (h : function.Legible) :
    functionOf id source function.block = .ok function.record := by
  have htitle : function.block.field? Schema.nodeTitle = some function.name := rfl
  have hlabel : function.block.field? Schema.nodeLabel = some function.label := rfl
  rw [functionOf, fieldOf, fieldOf, htitle, hlabel, WrittenFunction.record, ← h.locationLine_label]
  rfl

theorem callOf_block (source : String) (call : WrittenCall) :
    callOf id source call.block = .ok call.record := by
  obtain ⟨caller, callee, label⟩ := call
  cases label with
  | none => rfl
  | some label => rfl

theorem mapM_map_eq_ok {α β γ ε : Type} {f : β → Except ε γ} {g : α → β} {k : α → γ} {as : List α}
    (h : ∀ a ∈ as, f (g a) = .ok (k a)) : (as.map g).mapM f = .ok (as.map k) := by
  rw [mapM_eq_ok_iff_forall₂, List.forall₂_map_left_iff, List.forall₂_map_right_iff,
    List.forall₂_same]
  exact h

/-- **The records of a written call graph are what was written.** -/
theorem recordsOf_graphOf (source : String)
    (h : ∀ function ∈ writtenFunctions items, function.Legible) :
    recordsOf id source (graphOf items) = .ok (writtenRecords source items) := by
  have hkind : (graphOf items).kind = Schema.graphKind := rfl
  rw [recordsOf, if_neg (not_not_intro hkind), blocksOfKind_node, blocksOfKind_edge,
    mapM_map_eq_ok fun function hfunction => functionOf_block source (h function hfunction),
    mapM_map_eq_ok fun call _ => callOf_block source call]
  rfl

/-- The name of a written function can stand between quotes. -/
theorem Legible.quotedBody_of_mem_names {idOf : IdScheme} (h : Legible idOf items)
    {name : String} (hname : name ∈ (writtenFunctions items).map WrittenFunction.name) :
    QuotedBody name.toList := by
  obtain ⟨f, hf, rfl⟩ := List.mem_map.mp hname
  exact (h.functions f hf).quoted

/-- **A written call graph can be spelled.** -/
theorem wellFormed_graphOf {idOf : IdScheme} (h : Legible idOf items) :
    (graphOf items).WellFormed := by
  have hgraph : Dump.IsIdentifier Schema.graphKind.toList := by decide
  have hnode : Dump.IsIdentifier Schema.nodeKind.toList := by decide
  have hedge : Dump.IsIdentifier Schema.edgeKind.toList := by decide
  refine ⟨hgraph, fun entry hentry => ?_⟩
  obtain ⟨item, hitem, rfl⟩ := List.mem_map.mp hentry
  cases item with
  | function f =>
    have hf := h.functions f (List.mem_filterMap.mpr ⟨_, hitem, rfl⟩)
    refine .block hnode (List.forall_mem_cons.mpr ⟨?_, List.forall_mem_singleton.mpr ?_⟩)
    · exact .field (by decide) (.inl hf.quoted)
    · exact .field (by decide) (.inl hf.quotedBody_label)
  | call c =>
    -- two fields for the ends, and a third if there is a label
    have hc := h.calls c (List.mem_filterMap.mpr ⟨_, hitem, rfl⟩)
    refine .block hedge (List.forall_mem_append.mpr
      ⟨List.forall_mem_cons.mpr ⟨?_, List.forall_mem_singleton.mpr ?_⟩,
        List.forall_mem_map.mpr fun label hlabel => ?_⟩)
    · exact .field (by decide) (.inl (h.quotedBody_of_mem_names hc.source))
    · exact .field (by decide) (.inl (h.quotedBody_of_mem_names hc.target))
    · exact .field (by decide) (.inl (hc.label label (Option.mem_toList.mp hlabel)).1)

end Records

end Ingest

end CallAtlas
