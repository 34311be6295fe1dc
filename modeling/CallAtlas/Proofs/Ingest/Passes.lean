import CallAtlas.Proofs.Ingest.Collecting
import CallAtlas.Proofs.Ingest.Entering
import Mathlib.Data.List.Forall2

/-!
# Passes over files

A file is folded by collecting its records and entering them.  Files that are folded together are
passed over three times: their records are collected, then the functions of all are registered, then
the calls of all are added.

## Main definitions

* `registerBatch`, `callBatch`: what the second and the third pass do with one dump

## Main results

* `forall₂_of_collectFiles`, `registerBatch_eq_ok`, `callBatch_eq_ok`: the passes, if they succeed
* `foldFile_of_entered`: a file is folded if its records can be entered
-/

namespace CallAtlas.Ingest

open CallAtlas.Graph (Knows Registry)

variable {setting : Setting} {options : Options} {nameOf : String → String}

/-- Registers the functions of one dump among several. -/
def registerBatch (setting : Setting) (options : Options) (records : Records) :
    Action (Records × Tally) := do
  let tally ← applyFunctions setting.idOf options.locations records.source records.functions
    { source := records.source }
  return (records, tally)

/-- Adds the calls of one dump among several. -/
def callBatch (options : Options) : Records × Tally → Action Tally
  | (records, tally) => do
    let tally ← applyCalls options.locations records.source records.calls tally
    Action.tell (.ingested tally)
    return tally

/-- Files are folded together in three passes. -/
theorem foldTogether_eq (paths : List String) :
    foldTogether setting options paths = (do
      let batches ← paths.mapM (collectFile setting options)
      let registered ← batches.mapM (registerBatch setting options)
      registered.mapM (callBatch options)) := rfl

/-- The tally of a dump whose functions are registered. -/
def Records.registered (records : Records) : Tally :=
  { source := records.source, functions := records.functions.length }

theorem registerBatch_eq_ok {records : Records} {batch : Records × Tally} {s t : Session}
    (h : (registerBatch setting options records).outcome s = (.ok batch, t)) :
    enterFunctions setting.idOf options.locations records.source records.functions s.graph =
        (.ok (), t.graph) ∧ batch = (records, records.registered) := by
  obtain ⟨tally, t', htally, h⟩ := Action.outcome_bind_eq_ok_iff.mp h
  obtain ⟨rfl, rfl⟩ := Action.outcome_pure_eq_ok_iff.mp h
  obtain ⟨⟨⟩, hentered, rfl⟩ := (follows_applyFunctions _ _ _ _ _ _).eq_ok_of_outcome htally
  exact ⟨hentered, by simp [Records.registered]⟩

theorem callBatch_eq_ok {records : Records} {tally tally' : Tally} {s t : Session}
    (h : (callBatch options (records, tally)).outcome s = (.ok tally', t)) :
    ∃ flags, enterCalls options.locations records.source records.calls s.graph =
        (.ok flags, t.graph) ∧ tally' = countCalls flags tally := by
  obtain ⟨counted, t', hcounted, h⟩ := Action.outcome_bind_eq_ok_iff.mp h
  obtain ⟨⟨⟩, t'', htell, h⟩ := Action.outcome_bind_eq_ok_iff.mp h
  obtain ⟨rfl, rfl⟩ := Action.outcome_pure_eq_ok_iff.mp h
  obtain ⟨flags, hentered, hcount⟩ := (follows_applyCalls _ _ _ _ _).eq_ok_of_outcome hcounted
  obtain ⟨-, rfl⟩ := Prod.mk.inj htell
  exact ⟨flags, hentered, hcount⟩

/-- Registering the functions of several dumps forgets none and leaves the calls. -/
theorem knows_registerBatches {batches : List Records} {registered : List (Records × Tally)}
    {s t : Session} (hs : Registry setting.idOf s.graph)
    (h : (batches.mapM (registerBatch setting options)).outcome s = (.ok registered, t)) :
    Knows t.graph s.graph ∧ t.graph.calls = s.graph.calls ∧
      t.graph.dropped = s.graph.dropped := by
  induction batches generalizing s registered with
  | nil =>
    obtain ⟨-, rfl⟩ := Action.outcome_mapM_nil_eq_ok_iff.mp h
    exact ⟨.refl s.graph, rfl, rfl⟩
  | cons records rest ih =>
    obtain ⟨batch, s', others, hbatch, hrest, -⟩ := Action.outcome_mapM_cons_eq_ok_iff.mp h
    obtain ⟨hfunctions, -⟩ := registerBatch_eq_ok hbatch
    obtain ⟨hregistry, hknows⟩ := registry_enterFunctions hs hfunctions
    obtain ⟨hcalls, hdropped⟩ := calls_enterFunctions hfunctions
    obtain ⟨hknows', hcalls', hdropped'⟩ := ih hregistry hrest
    exact ⟨hknows'.trans hknows, hcalls'.trans hcalls, hdropped'.trans hdropped⟩

/-- The dumps collected are those in the files. -/
theorem forall₂_of_collectFiles {paths : List String} {batches : List Records} {s t : Session}
    (hs : ReadsAs setting.demangle s.memo nameOf)
    (h : (paths.mapM (collectFile setting options)).outcome s = (.ok batches, t)) :
    List.Forall₂ (fun path records => fileRecordsOf setting options nameOf path = .ok records)
      paths batches ∧ t.graph = s.graph := by
  induction paths generalizing s batches with
  | nil =>
    obtain ⟨rfl, rfl⟩ := Action.outcome_mapM_nil_eq_ok_iff.mp h
    exact ⟨.nil, rfl⟩
  | cons path rest ih =>
    obtain ⟨records, s', others, hfile, hrest, rfl⟩ := Action.outcome_mapM_cons_eq_ok_iff.mp h
    obtain ⟨hrecords, hgraph, hs'⟩ := answers_collectFile setting options nameOf path s hs
    rw [hfile] at hrecords hgraph hs'
    obtain ⟨hothers, hgraph'⟩ := ih hs' hrest
    exact ⟨.cons hrecords.symm hothers, hgraph'.trans hgraph⟩

/-- A file is folded by collecting its records and entering them. -/
theorem foldFile_eq (path : String) :
    foldFile setting options path = (do
      let records ← collectFile setting options path
      let tally ← applyFunctions setting.idOf options.locations path records.functions
        { source := path }
      let tally ← applyCalls options.locations path records.calls tally
      Action.tell (.ingested tally)
      return tally) := by
  simp only [foldFile, foldBlock, collectFile, bind_assoc]

theorem foldFile_of_entered {path : String} {records : Records} {s : Session} {g g' : Graph}
    {flags : List Bool} (hs : ReadsAs setting.demangle s.memo nameOf)
    (hrecords : fileRecordsOf setting options nameOf path = .ok records)
    (hfunctions : enterFunctions setting.idOf options.locations records.source records.functions
      s.graph = (.ok (), g))
    (hcalls : enterCalls options.locations records.source records.calls g = (.ok flags, g')) :
    ∃ t, (foldFile setting options path).outcome s =
        (.ok (countCalls flags records.registered), t) ∧
      t.graph = g' ∧ ReadsAs setting.demangle t.memo nameOf := by
  obtain rfl := source_of_fileRecordsOf hrecords
  obtain ⟨hresult, hgraph, hreads⟩ := answers_collectFile setting options nameOf records.source s hs
  rcases hcollect : (collectFile setting options records.source).outcome s with ⟨result, s'⟩
  rw [hcollect] at hresult hgraph hreads
  obtain rfl : result = .ok records := hresult.trans hrecords
  obtain ⟨log, hregister⟩ := (follows_applyFunctions setting.idOf options.locations records.source
    records.functions { source := records.source } s').outcome_of_eq_ok (hgraph ▸ hfunctions)
  rw [Nat.zero_add] at hregister
  obtain ⟨log', hcount⟩ := (follows_applyCalls options.locations records.source records.calls
    records.registered { s' with graph := g, log }).outcome_of_eq_ok hcalls
  rw [foldFile_eq]
  let counted := countCalls flags records.registered
  refine ⟨{ s' with graph := g', log := log'.push (.ingested counted) },
    Action.outcome_bind_eq_ok_iff.mpr ⟨records, s', hcollect, ?_⟩, rfl, hreads⟩
  refine Action.outcome_bind_eq_ok_iff.mpr ⟨records.registered, _, hregister, ?_⟩
  exact Action.outcome_bind_eq_ok_iff.mpr ⟨_, _, hcount, rfl⟩

end CallAtlas.Ingest
