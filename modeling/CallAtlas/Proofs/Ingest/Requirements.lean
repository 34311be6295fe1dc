import CallAtlas.Proofs.Ingest.Accounting
import CallAtlas.Proofs.Ingest.Faults
import CallAtlas.Symbol.Demangle

/-!
# What a call graph needs

A call graph is a graph whose nodes have a title and a label, and whose edges have a source and a
target.  Only the blocks right under the outermost one count as its nodes and edges, and only the
fields right under a block count as its fields, the last one of each key.  A dump that is no call
graph is refused for the first thing that it lacks, in the order in which dumps are looked through.

## Main definitions

* `HasField block key`, `LastField block key value`: the fields of a block, and those that count
* `IsCallGraph block`: a block that has what a call graph needs
* `requirements block`: the fields that a graph needs, in the order in which they are looked for
* `FirstViolation block fault`: what a block is refused for
* `FunctionOfNode naming node`, `CallOfEdge naming edge`: the records of a node and of an edge
* `SameCallGraph block block'`: blocks whose nodes and edges agree in the fields that count

## Main results

* `lastField_iff`: the value of a key is that of the last field with it
* `FirstViolation.unique`: a block is refused for one thing
* `recordsOf_eq_ok_iff`, `recordsOf_eq_error_iff`: the records of a dump
* `SameCallGraph.collect_eq`: nothing else in a dump counts
* `collect_takes_callGraphs`: what collecting takes, gives and refuses
-/

namespace CallAtlas.Ingest

open CallAtlas.Dump (Block Entry)

/-! ## Fields -/

/-- A block has a field with some key right under it. -/
def HasField (block : Block) (key : String) : Prop :=
  ∃ value, Entry.field key value ∈ block.entries

/-- The last field with some key right under a block. -/
def LastField (block : Block) (key value : String) : Prop :=
  ∃ before after, block.entries = before ++ .field key value :: after ∧
    ∀ other, Entry.field key other ∉ after

section Fields

variable {block : Block} {entry : Entry} {key value : String}

theorem entry_field?_eq_some_iff : entry.field? = some (key, value) ↔ entry = .field key value := by
  cases entry with
  | field key' value' => simp [Entry.field?]
  | block kind entries => simp [Entry.field?]

theorem mem_fields_iff : (key, value) ∈ block.fields ↔ Entry.field key value ∈ block.entries := by
  simp only [Block.fields, List.mem_filterMap, entry_field?_eq_some_iff, exists_eq_right]

theorem not_hasField_iff : ¬ HasField block key ↔ block.field? key = none := by
  simp only [HasField, ← mem_fields_iff, Block.field?, List.lookup_eq_none_iff, List.mem_reverse,
    Prod.forall, bne_iff_ne, not_exists]
  constructor
  · rintro h key' value hmem rfl
    exact h value hmem
  · intro h value hmem
    exact h key value hmem rfl

theorem hasField_iff : HasField block key ↔ ∃ value, block.field? key = some value := by
  rw [← not_iff_not, not_hasField_iff, not_exists, Option.eq_none_iff_forall_ne_some]

/-- **The value of a key is that of the last field with it.** -/
theorem lastField_iff : LastField block key value ↔ block.field? key = some value := by
  unfold Block.field? Block.fields
  rw [List.lookup_eq_some_iff]
  constructor
  · rintro ⟨before, after, hentries, hlast⟩
    refine ⟨(after.filterMap Entry.field?).reverse, (before.filterMap Entry.field?).reverse, ?_, ?_⟩
    · rw [hentries]
      simp [Entry.field?]
    · rintro ⟨key', other⟩ hmem
      obtain ⟨entry, hentry, hfield⟩ := List.mem_filterMap.mp (List.mem_reverse.mp hmem)
      rw [entry_field?_eq_some_iff] at hfield
      rw [bne_iff_ne]
      rintro rfl
      exact hlast other (hfield ▸ hentry)
  · rintro ⟨later, earlier, hfields, hlater⟩
    have hfields' : block.entries.filterMap Entry.field? =
        earlier.reverse ++ (key, value) :: later.reverse := by
      rw [← List.reverse_reverse (block.entries.filterMap Entry.field?), hfields]
      simp
    obtain ⟨before, behind, hentries, -, hbehind⟩ := List.filterMap_eq_append_iff.mp hfields'
    obtain ⟨between, entry, after, rfl, -, hentry, hafter⟩ := List.filterMap_eq_cons_iff.mp hbehind
    obtain rfl := entry_field?_eq_some_iff.mp hentry
    refine ⟨before ++ between, after, by simp [hentries], fun other hother => ?_⟩
    have hmem : (key, other) ∈ later := by
      rw [← List.mem_reverse, ← hafter]
      exact List.mem_filterMap.mpr ⟨_, hother, rfl⟩
    exact bne_iff_ne.mp (hlater _ hmem) rfl

end Fields

/-! ## Call graphs -/

/-- **A call graph**: a graph whose nodes have a title and a label and whose edges have a source and
a target. -/
structure IsCallGraph (block : Block) : Prop where
  kind : block.kind = Schema.graphKind
  nodes : ∀ node ∈ block.blocksOfKind Schema.nodeKind,
    HasField node Schema.nodeTitle ∧ HasField node Schema.nodeLabel
  edges : ∀ edge ∈ block.blocksOfKind Schema.edgeKind,
    HasField edge Schema.edgeSource ∧ HasField edge Schema.edgeTarget

/-- Keys that a block needs. -/
def needs (keys : List String) (part : Block) : List (Block × String) :=
  keys.map (part, ·)

/-- The fields that a graph needs, in the order in which they are looked for: those of its nodes
before those of its edges. -/
def requirements (block : Block) : List (Block × String) :=
  (block.blocksOfKind Schema.nodeKind).flatMap (needs [Schema.nodeTitle, Schema.nodeLabel]) ++
    (block.blocksOfKind Schema.edgeKind).flatMap (needs [Schema.edgeSource, Schema.edgeTarget])

/-- All the fields that are needed are there. -/
def Met (needed : List (Block × String)) : Prop :=
  ∀ part key, (part, key) ∈ needed → HasField part key

/-- The first of the fields that are needed and not there. -/
def FirstLacking (needed : List (Block × String)) (part : Block) (key : String) : Prop :=
  ∃ found rest, needed = found ++ (part, key) :: rest ∧ Met found ∧ ¬ HasField part key

/-- **What a block is refused for**: its kind or, if that is right, the first field it lacks. -/
inductive FirstViolation (block : Block) : SchemaFault → Prop
  | notAGraph (hkind : block.kind ≠ Schema.graphKind) :
      FirstViolation block (.notAGraph block.kind)
  | missingField {part : Block} {key : String} (hkind : block.kind = Schema.graphKind)
      (hfirst : FirstLacking (requirements block) part key) :
      FirstViolation block (.missingField part.kind key)

/-- The function of a node. -/
inductive FunctionOfNode (naming : String → String) (node : Block) : FunctionRecord → Prop
  | titled {title label : String} (htitle : LastField node Schema.nodeTitle title)
      (hlabel : LastField node Schema.nodeLabel label) :
      FunctionOfNode naming node ⟨naming title, Label.locationLine label⟩

/-- The call of an edge; without a label it is intrinsic. -/
inductive CallOfEdge (naming : String → String) (edge : Block) : CallRecord → Prop
  | labelled {caller callee label : String} (hcaller : LastField edge Schema.edgeSource caller)
      (hcallee : LastField edge Schema.edgeTarget callee)
      (hlabel : LastField edge Schema.edgeLabel label) :
      CallOfEdge naming edge ⟨naming caller, naming callee, label⟩
  | intrinsic {caller callee : String} (hcaller : LastField edge Schema.edgeSource caller)
      (hcallee : LastField edge Schema.edgeTarget callee)
      (hlabel : ¬ HasField edge Schema.edgeLabel) :
      CallOfEdge naming edge ⟨naming caller, naming callee, "intrinsic"⟩

section Met

variable {needed rest : List (Block × String)} {keys : List String} {part part' : Block}
  {key key' : String}

theorem met_append_iff : Met (needed ++ rest) ↔ Met needed ∧ Met rest := by
  simp only [Met, List.mem_append, or_imp, forall_and]

theorem met_needs_iff :
    Met (needs keys part) ↔ ∀ key ∈ keys, HasField part key := by
  constructor
  · intro h key hkey
    exact h part key (List.mem_map_of_mem hkey)
  · rintro h _ _ hmem
    obtain ⟨key, hkey, heq⟩ := List.mem_map.mp hmem
    obtain ⟨rfl, rfl⟩ := Prod.mk.inj heq
    exact h key hkey

theorem met_flatMap_iff {parts : List Block} :
    Met (parts.flatMap (needs keys)) ↔ ∀ part ∈ parts, ∀ key ∈ keys, HasField part key := by
  induction parts with
  | nil => simp [Met]
  | cons part parts ih =>
    rw [List.flatMap_cons, met_append_iff, met_needs_iff, ih, List.forall_mem_cons]

theorem isCallGraph_iff {block : Block} :
    IsCallGraph block ↔ block.kind = Schema.graphKind ∧ Met (requirements block) := by
  rw [requirements, met_append_iff, met_flatMap_iff, met_flatMap_iff]
  simp only [List.mem_cons, List.not_mem_nil, or_false, forall_eq_or_imp, forall_eq]
  exact ⟨fun h => ⟨h.kind, h.nodes, h.edges⟩, fun h => ⟨h.1, h.2.1, h.2.2⟩⟩

namespace FirstLacking

theorem not_met (h : FirstLacking needed part key) : ¬ Met needed := by
  obtain ⟨found, rest, rfl, -, hlacks⟩ := h
  exact fun hmet => hlacks (hmet part key (by simp))

theorem append_right (h : FirstLacking needed part key) :
    FirstLacking (needed ++ rest) part key := by
  obtain ⟨found, rest', rfl, hfound, hlacks⟩ := h
  exact ⟨found, rest' ++ rest, by simp, hfound, hlacks⟩

theorem append_left (hneeded : Met needed) (h : FirstLacking rest part key) :
    FirstLacking (needed ++ rest) part key := by
  obtain ⟨found, rest', rfl, hfound, hlacks⟩ := h
  exact ⟨needed ++ found, rest', by simp, met_append_iff.mpr ⟨hneeded, hfound⟩, hlacks⟩

theorem unique (h : FirstLacking needed part key) (h' : FirstLacking needed part' key') :
    part = part' ∧ key = key' := by
  obtain ⟨found, rest, rfl, hfound, hlacks⟩ := h
  obtain ⟨found', rest', heq, hfound', hlacks'⟩ := h'
  -- neither of the two can be among those found before the other
  rcases List.append_eq_append_iff.mp heq with
    ⟨_ | ⟨_, more⟩, rfl, hrest⟩ | ⟨_ | ⟨_, more⟩, rfl, hrest⟩
  · exact Prod.mk.inj (List.cons.inj hrest).1
  · obtain ⟨rfl, -⟩ := List.cons.inj hrest
    exact absurd (hfound' part key (by simp)) hlacks
  · exact Prod.mk.inj (List.cons.inj hrest).1.symm
  · obtain ⟨rfl, -⟩ := List.cons.inj hrest
    exact absurd (hfound part' key' (by simp)) hlacks'

end FirstLacking

end Met

section FirstViolation

variable {block : Block} {fault fault' : SchemaFault}

theorem FirstViolation.not_isCallGraph (h : FirstViolation block fault) : ¬ IsCallGraph block := by
  rw [isCallGraph_iff]
  cases h with
  | notAGraph hkind => exact fun hgraph => hkind hgraph.1
  | missingField hkind hfirst => exact fun hgraph => hfirst.not_met hgraph.2

/-- **A block is refused for one thing.** -/
theorem FirstViolation.unique (h : FirstViolation block fault)
    (h' : FirstViolation block fault') : fault = fault' := by
  cases h with
  | notAGraph hkind =>
    cases h' with
    | notAGraph => rfl
    | missingField hkind' => exact absurd hkind' hkind
  | missingField hkind hfirst =>
    cases h' with
    | notAGraph hkind' => exact absurd hkind hkind'
    | missingField _ hfirst' =>
      obtain ⟨rfl, rfl⟩ := hfirst.unique hfirst'
      rfl

end FirstViolation

/-! ## Records -/

section Records

variable {naming : String → String} {source : String} {block part : Block} {failure : Failure}

theorem functionOf_eq_ok_iff {function : FunctionRecord} :
    functionOf naming source part = .ok function ↔ FunctionOfNode naming part function := by
  simp only [functionOf, bind_eq_ok_iff, fieldOf_eq_ok_iff, ← lastField_iff]
  constructor
  · rintro ⟨title, htitle, label, hlabel, h⟩
    obtain rfl := Except.ok.inj h
    exact .titled htitle hlabel
  · rintro ⟨htitle, hlabel⟩
    exact ⟨_, htitle, _, hlabel, rfl⟩

theorem callOf_eq_ok_iff {call : CallRecord} :
    callOf naming source part = .ok call ↔ CallOfEdge naming part call := by
  simp only [callOf, bind_eq_ok_iff, fieldOf_eq_ok_iff, ← lastField_iff]
  constructor
  · rintro ⟨caller, hcaller, callee, hcallee, h⟩
    obtain rfl := Except.ok.inj h
    cases hlabel : part.field? Schema.edgeLabel with
    | none => exact .intrinsic hcaller hcallee (not_hasField_iff.mpr hlabel)
    | some label => exact .labelled hcaller hcallee (lastField_iff.mpr hlabel)
  · rintro (⟨hcaller, hcallee, hlabel⟩ | ⟨hcaller, hcallee, hlabel⟩)
    · refine ⟨_, hcaller, _, hcallee, ?_⟩
      rw [lastField_iff.mp hlabel]
      rfl
    · refine ⟨_, hcaller, _, hcallee, ?_⟩
      rw [not_hasField_iff.mp hlabel]
      rfl

theorem LastField.hasField {key value : String} (h : LastField part key value) :
    HasField part key :=
  hasField_iff.mpr ⟨value, lastField_iff.mp h⟩

theorem FunctionOfNode.met {function : FunctionRecord} (h : FunctionOfNode naming part function) :
    Met (needs [Schema.nodeTitle, Schema.nodeLabel] part) := by
  cases h with
  | titled htitle hlabel => simp [met_needs_iff, htitle.hasField, hlabel.hasField]

theorem CallOfEdge.met {call : CallRecord} (h : CallOfEdge naming part call) :
    Met (needs [Schema.edgeSource, Schema.edgeTarget] part) := by
  cases h with
  | labelled hcaller hcallee => simp [met_needs_iff, hcaller.hasField, hcallee.hasField]
  | intrinsic hcaller hcallee => simp [met_needs_iff, hcaller.hasField, hcallee.hasField]

/-- The failure of the dump `source` for the first field that it lacks. -/
def FailsFor (source : String) (needed : List (Block × String)) (failure : Failure) : Prop :=
  ∃ part key, FirstLacking needed part key ∧
    failure = schemaFailure source (.missingField part.kind key)

/-- Of two fields that are read, the first one that is not there is lacking. -/
theorem failsFor_of_fieldOf {first second : String}
    (h : fieldOf source part first = .error failure ∨
      ∃ value, fieldOf source part first = .ok value ∧
        fieldOf source part second = .error failure) :
    FailsFor source (needs [first, second] part) failure := by
  rcases h with h | ⟨value, hvalue, h⟩
  · obtain ⟨hfield, rfl⟩ := fieldOf_eq_error_iff.mp h
    exact ⟨part, first, ⟨[], _, rfl, by simp [Met], not_hasField_iff.mpr hfield⟩, rfl⟩
  · obtain ⟨hfield, rfl⟩ := fieldOf_eq_error_iff.mp h
    have hfound : Met (needs [first] part) := by
      simpa [met_needs_iff] using hasField_iff.mpr ⟨value, fieldOf_eq_ok_iff.mp hvalue⟩
    exact ⟨part, second, ⟨needs [first] part, [], rfl, hfound, not_hasField_iff.mpr hfield⟩, rfl⟩

theorem failsFor_of_functionOf (h : functionOf naming source part = .error failure) :
    FailsFor source (needs [Schema.nodeTitle, Schema.nodeLabel] part) failure := by
  refine failsFor_of_fieldOf ?_
  rcases bind_eq_error_iff.mp h with h | ⟨title, htitle, h⟩
  · exact .inl h
  · rcases bind_eq_error_iff.mp h with h | ⟨label, -, h⟩
    · exact .inr ⟨title, htitle, h⟩
    · cases h

theorem failsFor_of_callOf (h : callOf naming source part = .error failure) :
    FailsFor source (needs [Schema.edgeSource, Schema.edgeTarget] part) failure := by
  refine failsFor_of_fieldOf ?_
  rcases bind_eq_error_iff.mp h with h | ⟨caller, hcaller, h⟩
  · exact .inl h
  · rcases bind_eq_error_iff.mp h with h | ⟨callee, -, h⟩
    · exact .inr ⟨caller, hcaller, h⟩
    · cases h

section Reading

variable {α : Type} {read : Block → Except Failure α} {keys : List String} {parts : List Block}

/-- Blocks that are read one after the other have the fields that they need. -/
theorem met_of_mapM (hok : ∀ part a, read part = .ok a → Met (needs keys part)) {as : List α}
    (h : parts.mapM read = .ok as) : Met (parts.flatMap (needs keys)) := by
  have hread := mapM_eq_ok_iff_forall₂.mp h
  clear h
  induction hread with
  | nil => exact met_flatMap_iff.mpr (by simp)
  | cons ha _ ih => exact met_append_iff.mpr ⟨hok _ _ ha, ih⟩

/-- Blocks that are read one after the other fail for the first field that one of them lacks. -/
theorem failsFor_of_mapM (hok : ∀ part a, read part = .ok a → Met (needs keys part))
    (herror : ∀ part failure, read part = .error failure →
      FailsFor source (needs keys part) failure)
    (h : parts.mapM read = .error failure) :
    FailsFor source (parts.flatMap (needs keys)) failure := by
  induction parts with
  | nil => cases h
  | cons part parts ih =>
    rw [List.mapM_cons] at h
    rcases bind_eq_error_iff.mp h with h | ⟨a, ha, h⟩
    · obtain ⟨lacking, key, hfirst, rfl⟩ := herror part failure h
      exact ⟨lacking, key, hfirst.append_right, rfl⟩
    · rcases bind_eq_error_iff.mp h with h | ⟨_, -, h⟩
      · obtain ⟨lacking, key, hfirst, rfl⟩ := ih h
        exact ⟨lacking, key, hfirst.append_left (hok part a ha), rfl⟩
      · cases h

end Reading

theorem met_of_functionOf {function : FunctionRecord}
    (h : functionOf naming source part = .ok function) :
    Met (needs [Schema.nodeTitle, Schema.nodeLabel] part) :=
  (functionOf_eq_ok_iff.mp h).met

theorem met_of_callOf {call : CallRecord} (h : callOf naming source part = .ok call) :
    Met (needs [Schema.edgeSource, Schema.edgeTarget] part) :=
  (callOf_eq_ok_iff.mp h).met

/-- **The records of a dump are those of a call graph.** -/
theorem recordsOf_eq_ok_iff {records : Records} :
    recordsOf naming source block = .ok records ↔
      IsCallGraph block ∧ records.source = source ∧
        List.Forall₂ (FunctionOfNode naming) (block.blocksOfKind Schema.nodeKind)
          records.functions ∧
        List.Forall₂ (CallOfEdge naming) (block.blocksOfKind Schema.edgeKind) records.calls := by
  simp only [recordsOf, isCallGraph_iff]
  by_cases hkind : block.kind = Schema.graphKind
  swap
  · simp [hkind]
  rw [if_neg (not_not_intro hkind)]
  simp only [bind_eq_ok_iff]
  constructor
  · rintro ⟨functions, hfunctions, calls, hcalls, h⟩
    obtain rfl := Except.ok.inj h
    refine ⟨⟨hkind, met_append_iff.mpr ⟨?_, ?_⟩⟩, rfl, ?_, ?_⟩
    · exact met_of_mapM (fun _ _ => met_of_functionOf) hfunctions
    · exact met_of_mapM (fun _ _ => met_of_callOf) hcalls
    · exact (mapM_eq_ok_iff_forall₂.mp hfunctions).imp fun _ _ => functionOf_eq_ok_iff.mp
    · exact (mapM_eq_ok_iff_forall₂.mp hcalls).imp fun _ _ => callOf_eq_ok_iff.mp
  · rintro ⟨-, rfl, hfunctions, hcalls⟩
    refine ⟨records.functions, ?_, records.calls, ?_, rfl⟩
    · exact mapM_eq_ok_iff_forall₂.mpr (hfunctions.imp fun _ _ => functionOf_eq_ok_iff.mpr)
    · exact mapM_eq_ok_iff_forall₂.mpr (hcalls.imp fun _ _ => callOf_eq_ok_iff.mpr)

theorem exists_firstViolation_of_recordsOf (h : recordsOf naming source block = .error failure) :
    ∃ fault, FirstViolation block fault ∧ failure = schemaFailure source fault := by
  unfold recordsOf at h
  by_cases hkind : block.kind = Schema.graphKind
  swap
  · rw [if_pos hkind] at h
    exact ⟨_, .notAGraph hkind, (Except.error.inj h).symm⟩
  rw [if_neg (not_not_intro hkind)] at h
  have hlacks : FailsFor source (requirements block) failure := by
    rcases bind_eq_error_iff.mp h with h | ⟨functions, hfunctions, h⟩
    · obtain ⟨part, key, hfirst, rfl⟩ := failsFor_of_mapM (fun _ _ => met_of_functionOf)
        (fun _ _ => failsFor_of_functionOf) h
      exact ⟨part, key, hfirst.append_right, rfl⟩
    · rcases bind_eq_error_iff.mp h with h | ⟨calls, -, h⟩
      · -- an edge is looked at when no node lacks a field
        obtain ⟨part, key, hfirst, rfl⟩ := failsFor_of_mapM (fun _ _ => met_of_callOf)
          (fun _ _ => failsFor_of_callOf) h
        have hnodes := met_of_mapM (fun _ _ => met_of_functionOf) hfunctions
        exact ⟨part, key, hfirst.append_left hnodes, rfl⟩
      · cases h
  obtain ⟨part, key, hfirst, rfl⟩ := hlacks
  exact ⟨_, .missingField hkind hfirst, rfl⟩

/-- **A dump without records is refused for its first violation.** -/
theorem recordsOf_eq_error_iff :
    recordsOf naming source block = .error failure ↔
      ∃ fault, FirstViolation block fault ∧ failure = schemaFailure source fault := by
  refine ⟨exists_firstViolation_of_recordsOf, ?_⟩
  rintro ⟨fault, hfault, rfl⟩
  cases h : recordsOf naming source block with
  | ok records => exact absurd (recordsOf_eq_ok_iff.mp h).1 hfault.not_isCallGraph
  | error failure =>
    obtain ⟨fault', hfault', rfl⟩ := exists_firstViolation_of_recordsOf h
    rw [hfault.unique hfault']

theorem exists_recordsOf_iff :
    (∃ records, recordsOf naming source block = .ok records) ↔ IsCallGraph block := by
  refine ⟨fun ⟨records, h⟩ => (recordsOf_eq_ok_iff.mp h).1, fun hgraph => ?_⟩
  cases h : recordsOf naming source block with
  | ok records => exact ⟨records, rfl⟩
  | error failure =>
    obtain ⟨fault, hfault, -⟩ := recordsOf_eq_error_iff.mp h
    exact absurd hgraph hfault.not_isCallGraph

end Records

/-! ## What does not count -/

/-- Two blocks agree in the fields with some keys that count. -/
def AgreeOn (keys : List String) (part part' : Block) : Prop :=
  ∀ key ∈ keys, ∀ value, LastField part key value ↔ LastField part' key value

/-- Two blocks have the same call graph: one kind, and nodes and edges that agree in the fields that
count. -/
structure SameCallGraph (block block' : Block) : Prop where
  kind : block.kind = block'.kind
  nodes : List.Forall₂ (AgreeOn [Schema.nodeTitle, Schema.nodeLabel])
    (block.blocksOfKind Schema.nodeKind) (block'.blocksOfKind Schema.nodeKind)
  edges : List.Forall₂ (AgreeOn [Schema.edgeSource, Schema.edgeTarget, Schema.edgeLabel])
    (block.blocksOfKind Schema.edgeKind) (block'.blocksOfKind Schema.edgeKind)

section SameCallGraph

variable {nameOf : String → Action String} {source : String} {part part' : Block}
  {keys : List String}

theorem AgreeOn.field?_eq {key : String} (h : AgreeOn keys part part') (hkey : key ∈ keys) :
    part.field? key = part'.field? key :=
  Option.ext fun value => by rw [← lastField_iff, ← lastField_iff, h key hkey value]

theorem requireField_congr {key : String} (hkind : part.kind = part'.kind)
    (h : AgreeOn keys part part') (hkey : key ∈ keys) :
    requireField source part key = requireField source part' key := by
  rw [requireField, requireField, h.field?_eq hkey, hkind]

theorem functionRecord_congr (hkind : part.kind = part'.kind)
    (h : AgreeOn [Schema.nodeTitle, Schema.nodeLabel] part part') :
    functionRecord nameOf source part = functionRecord nameOf source part' := by
  have htitle : requireField source part Schema.nodeTitle =
      requireField source part' Schema.nodeTitle := requireField_congr hkind h (by simp)
  have hlabel : requireField source part Schema.nodeLabel =
      requireField source part' Schema.nodeLabel := requireField_congr hkind h (by simp)
  simp only [functionRecord, htitle, hlabel]

theorem callRecord_congr (hkind : part.kind = part'.kind)
    (h : AgreeOn [Schema.edgeSource, Schema.edgeTarget, Schema.edgeLabel] part part') :
    callRecord nameOf source part = callRecord nameOf source part' := by
  have hcaller : requireField source part Schema.edgeSource =
      requireField source part' Schema.edgeSource := requireField_congr hkind h (by simp)
  have hcallee : requireField source part Schema.edgeTarget =
      requireField source part' Schema.edgeTarget := requireField_congr hkind h (by simp)
  have hlabel : part.field? Schema.edgeLabel = part'.field? Schema.edgeLabel :=
    h.field?_eq (by simp)
  simp only [callRecord, hcaller, hcallee, hlabel]

/-- Blocks of one kind that agree are read alike, one after the other. -/
theorem mapM_blocksOfKind_congr {α : Type} {read : Block → Action α}
    (hread : ∀ part part', part.kind = part'.kind → AgreeOn keys part part' →
      read part = read part')
    {kind : String} {block block' : Block}
    (h : List.Forall₂ (AgreeOn keys) (block.blocksOfKind kind) (block'.blocksOfKind kind)) :
    (block.blocksOfKind kind).mapM read = (block'.blocksOfKind kind).mapM read := by
  have hkind : ∀ {block part : Block}, part ∈ block.blocksOfKind kind → part.kind = kind :=
    fun hpart => of_decide_eq_true (List.mem_filter.mp hpart).2
  have hkinds : ∀ part ∈ block.blocksOfKind kind, ∀ part' ∈ block'.blocksOfKind kind,
      part.kind = part'.kind :=
    fun part hpart part' hpart' => (hkind hpart).trans (hkind hpart').symm
  generalize block.blocksOfKind kind = parts at h hkinds
  generalize block'.blocksOfKind kind = parts' at h hkinds
  induction h with
  | nil => rfl
  | @cons part part' parts parts' hagree _ ih =>
    have hrest := ih fun other hother other' hother' =>
      hkinds other (List.mem_cons_of_mem part hother) other' (List.mem_cons_of_mem part' hother')
    have hfirst := hread part part' (hkinds part (by simp) part' (by simp)) hagree
    rw [List.mapM_cons, List.mapM_cons, hfirst, hrest]

/-- **Nothing counts but the call graph.** -/
theorem SameCallGraph.collect_eq {block block' : Block} (h : SameCallGraph block block')
    (demangle : Resolver.Demangler) (options : Options) (source : String) :
    collect demangle options source block = collect demangle options source block' := by
  have hnodes (nameOf : String → Action String) :
      (block.blocksOfKind Schema.nodeKind).mapM (functionRecord nameOf source) =
        (block'.blocksOfKind Schema.nodeKind).mapM (functionRecord nameOf source) :=
    mapM_blocksOfKind_congr (fun _ _ => functionRecord_congr) h.nodes
  have hedges (nameOf : String → Action String) :
      (block.blocksOfKind Schema.edgeKind).mapM (callRecord nameOf source) =
        (block'.blocksOfKind Schema.edgeKind).mapM (callRecord nameOf source) :=
    mapM_blocksOfKind_congr (fun _ _ => callRecord_congr) h.edges
  simp only [collect, h.kind, hnodes, hedges]

end SameCallGraph

/-! ## Collecting -/

/-- A fresh memory reads names as the demangler does. -/
theorem readsAs_readable (demangle : Resolver.Demangler) :
    ReadsAs demangle {} fun name => (Resolver.readable demangle name).1 := by
  intro name
  rw [resolve_fst, Std.HashMap.getElem?_empty]
  rfl

/-- **Collecting takes exactly call graphs, and takes exactly their nodes and edges.**  It succeeds
if the dump is a call graph; then its records are those of the nodes and of the edges, in their
order, and names are made readable if the options say so.  Otherwise the dump `source` is refused
for its first violation.  Nothing else in the dump has any influence. -/
theorem collect_takes_callGraphs (demangle : Resolver.Demangler) (options : Options)
    (source : String) (block : Block) {s : Session}
    (hreads : ReadsAs demangle s.memo fun name => (Resolver.readable demangle name).1) :
    let naming := namingUnder options fun name => (Resolver.readable demangle name).1
    let outcome := (collect demangle options source block).outcome s
    ((∃ records, outcome.1 = .ok records) ↔ IsCallGraph block) ∧
      (∀ records, outcome.1 = .ok records →
        records.source = source ∧
        List.Forall₂ (FunctionOfNode naming) (block.blocksOfKind "node") records.functions ∧
        List.Forall₂ (CallOfEdge naming) (block.blocksOfKind "edge") records.calls) ∧
      (∀ failure, outcome.1 = .error failure ↔ ∃ fault, FirstViolation block fault ∧
        failure = .diagnosed { cause := .schema fault, path := some source }) ∧
      (∀ block', SameCallGraph block block' →
        collect demangle options source block' = collect demangle options source block) ∧
      outcome.2.graph = s.graph ∧
      ReadsAs demangle outcome.2.memo fun name => (Resolver.readable demangle name).1 := by
  intro naming outcome
  obtain ⟨hresult, hgraph, hmemo⟩ := answers_collect options source block s hreads
  have hresult' : outcome.1 = recordsOf naming source block := hresult
  rw [hresult']
  refine ⟨exists_recordsOf_iff, ?_, fun _ => recordsOf_eq_error_iff, ?_, hgraph, hmemo⟩
  · intro records hrecords
    exact (recordsOf_eq_ok_iff.mp hrecords).2
  · intro block' hsame
    exact (hsame.collect_eq demangle options source).symm

/-- A graph whose node has its title twice and a block of its own, beside a node that is none of
its nodes. -/
def shadowedBlock : Block :=
  ⟨"graph", [.block "region" [.block "node" []],
    .block "node" [.field "title" "old", .field "label" "f", .block "info" [.field "title" "no"],
      .field "title" "_Z1fv"]]⟩

/-- A node that has a label only deeper in it. -/
def unlabelledNode : Block :=
  ⟨"node", [.field "title" "f", .block "info" [.field "label" "f"]]⟩

/-- A graph whose edge lacks its source, and whose node lacks its label. -/
def unlabelledBlock : Block :=
  ⟨"graph", [.block "edge" [.field "targetname" "f"],
    .block unlabelledNode.kind unlabelledNode.entries]⟩

theorem collect_takes_callGraphs_nested :
    (ReadsAs Symbol.demangle? {} fun name => (Resolver.readable Symbol.demangle? name).1) ∧
      IsCallGraph shadowedBlock ∧
      ((collect Symbol.demangle? {} "d" shadowedBlock).outcome {}).1 =
        .ok ⟨"d", [⟨"f()", "f"⟩], []⟩ ∧
      ((collect Symbol.demangle? {} "d" unlabelledBlock).outcome {}).1 =
        .error (.diagnosed
          { cause := .schema (.missingField "node" "label"), path := some "d" }) := by
  have hreads := readsAs_readable Symbol.demangle?
  obtain ⟨hok, -, -, -⟩ := collect_takes_callGraphs Symbol.demangle? {} "d" shadowedBlock
    (s := {}) hreads
  obtain ⟨-, -, herror, -⟩ := collect_takes_callGraphs Symbol.demangle? {} "d" unlabelledBlock
    (s := {}) hreads
  have hrecords : ((collect Symbol.demangle? {} "d" shadowedBlock).outcome {}).1 =
      .ok ⟨"d", [⟨"f()", "f"⟩], []⟩ := by
    cbv
  have htitle : HasField unlabelledNode "title" := ⟨"f", by simp [unlabelledNode]⟩
  have hlabel : ¬ HasField unlabelledNode "label" := not_hasField_iff.mpr (by decide)
  have hfirst : FirstLacking (requirements unlabelledBlock) unlabelledNode "label" :=
    ⟨needs ["title"] unlabelledNode, _, rfl, met_needs_iff.mpr (by simpa using htitle), hlabel⟩
  exact ⟨hreads, hok.mp ⟨_, hrecords⟩, hrecords, (herror _).mpr ⟨_, .missingField rfl hfirst, rfl⟩⟩

end CallAtlas.Ingest
