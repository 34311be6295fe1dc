import CallAtlas.Proofs.Ingest.Accounting
import CallAtlas.Proofs.Ingest.FileOrder
import CallAtlas.Proofs.Ingest.Steps

/-!
# Folding a dump again

A dump that has been folded can be folded again.  Its functions are registered by then: registering
them once more takes each of them from the place that the dump gave it last, through all the places
that the dump gives it, back to that place.  The same names are known to its calls as before, so the
same calls are added and the same are dropped.  Nothing but these calls comes twice.

## Main definitions

* `Graph.Repeats g g' g''`: the graph `g''` has what `g'` has, and once more the calls that `g'` has
  beyond those of `g`

## Main results

* `knownWith_enteredWith`: dumps that are entered again know the names that they knew
* `isLedger_enteredWith_again`: dumps that are entered can be entered again
* `repeats_enteredWith`: what entering dumps again leads to
* `foldBlock_again`: folding a dump again repeats its calls and nothing else
-/

namespace CallAtlas

/-! ## Graphs that repeat calls -/

namespace Graph

/-- The graph `g''` has the functions of `g'`, at the same places, and the calls and dropped calls
of `g'` with those that `g'` has behind the ones of `g` once more; only the numbers of calls go
on. -/
structure Repeats (g g' g'' : Graph) : Prop where
  functions : g''.functions = g'.functions
  locationOf : ∀ name, g''.locationOf name = g'.locationOf name
  namesAt : ∀ place, g''.namesAt place = g'.namesAt place
  calls : ∃ added again, g'.calls.toList = g.calls.toList ++ added ∧
    g''.calls.toList = g'.calls.toList ++ again ∧
    again.map Call.keyless = added.map Call.keyless
  dropped : ∃ lost, g'.dropped.toList = g.dropped.toList ++ lost ∧
    g''.dropped.toList = g'.dropped.toList ++ lost

/-- Names that are there already leave what there is without repetitions. -/
theorem eraseDups_append_of_subset {names more : List String} (h : more ⊆ names) :
    (names ++ more).eraseDups = names.eraseDups := by
  have hnone : more.removeAll names = [] := by
    simpa [List.removeAll, List.filter_eq_nil_iff] using fun name hname => h hname
  rw [List.eraseDups_append, hnone, List.eraseDups_nil, List.append_nil]

/-- Calls behind others are numbered behind them. -/
theorem exists_numbered_append (calls more : List Call) :
    ∃ behind, numbered (calls ++ more) = numbered calls ++ behind ∧
      behind.map Call.keyless = more.map Call.keyless := by
  obtain ⟨behind, hbehind⟩ : ∃ behind, numbered (calls ++ more) = numbered calls ++ behind :=
    ⟨_, List.mapIdx_append⟩
  have hkeyless := map_keyless_numbered (calls ++ more)
  rw [hbehind, List.map_append, map_keyless_numbered, List.map_append] at hkeyless
  exact ⟨behind, hbehind, List.append_cancel_left hkeyless⟩

end Graph

namespace Ingest

open CallAtlas.Dump (Block)
open CallAtlas.Graph (Operation after IsLedger Reachable Recounts Repeats callsAdded callsDropped
  namesIn placeIn)

/-! ## Dumps entered again -/

section Again

variable {idOf : IdScheme} {strictness : Strictness} {entries : List Operation}
  {batches : List Records} {g g' g'' : Graph}

/-- Dumps that are entered have their functions registered, and nothing else. -/
theorem namesIn_enteredWith (strictness : Strictness) (entries : List Operation)
    (batches : List Records) :
    namesIn (enteredWith strictness entries batches) =
      namesIn entries ++ namesIn (registrationsOf strictness batches) := by
  rw [enteredWith, ← List.append_assoc,
    Graph.namesIn_append_of_none _ fun _ => registration?_of_mem_callsOf, Graph.namesIn_append]

theorem placeIn_enteredWith (strictness : Strictness) (entries : List Operation)
    (batches : List Records) (name : String) :
    placeIn (enteredWith strictness entries batches) name =
      (placeIn (registrationsOf strictness batches) name).or (placeIn entries name) := by
  rw [enteredWith, ← List.append_assoc,
    Graph.placeIn_append_of_none _ fun _ => registration?_of_mem_callsOf, Graph.placeIn_append]

/-- Registering the functions of dumps again registers no further name. -/
theorem mem_namesIn_again (name : String) :
    name ∈ namesIn (enteredWith strictness entries batches ++ registrationsOf strictness batches) ↔
      name ∈ namesIn (entries ++ registrationsOf strictness batches) := by
  rw [Graph.namesIn_append, namesIn_enteredWith, Graph.namesIn_append]
  simp only [List.mem_append, or_assoc, or_self]

/-- **Dumps that are entered again know the names that they knew.** -/
theorem knownWith_enteredWith (strictness : Strictness) (entries : List Operation)
    (batches : List Records) :
    knownWith strictness (enteredWith strictness entries batches) batches =
      knownWith strictness entries batches := by
  funext name
  exact decide_eq_decide.mpr (mem_namesIn_again name)

/-- **Dumps that are entered can be entered again.** -/
theorem isLedger_enteredWith_again (h : IsLedger idOf (enteredWith strictness entries batches)) :
    IsLedger idOf
      (enteredWith strictness (enteredWith strictness entries batches) batches) := by
  have hregistrations : ∀ op ∈ registrationsOf strictness batches,
      op.registration?.isSome = true := fun _ => registration?_of_mem_registrationsOf
  have hcalls : ∀ op ∈ callsOf strictness (knownWith strictness entries batches) batches,
      op.registration? = none := fun _ => registration?_of_mem_callsOf
  have honce := h
  rw [enteredWith, ← List.append_assoc, Graph.isLedger_append_calls_iff hcalls,
    Graph.isLedger_append_registrations_iff hregistrations] at honce
  obtain ⟨⟨-, hread, hnames⟩, hadmits⟩ := honce
  rw [enteredWith, knownWith_enteredWith, ← List.append_assoc,
    Graph.isLedger_append_calls_iff hcalls, Graph.isLedger_append_registrations_iff hregistrations]
  -- what is asked of names and of calls depends only on which names are registered
  refine ⟨⟨h, hread, ?_⟩, fun op hop => ?_⟩
  · simpa only [Graph.Distinguishes, mem_namesIn_again] using hnames
  · exact (Graph.admits_congr mem_namesIn_again op).mpr (hadmits op hop)

/-- **What entering a dump again leads to**: the same functions at the same places, and its calls
once more. -/
theorem repeats_enteredWith {records : Records} (hg : Recounts idOf entries g)
    (hg' : Recounts idOf (enteredWith strictness entries [records]) g')
    (hg'' : Recounts idOf
      (enteredWith strictness (enteredWith strictness entries [records]) [records]) g'')
    (hreach : Reachable idOf g') (hreach' : Reachable idOf g'') : Repeats g g' g'' := by
  let calling := records.calling strictness (knownWith strictness entries [records])
  have hlocation (name : String) : g''.locationOf name = g'.locationOf name := by
    rw [hg'.locationOf_eq, hg''.locationOf_eq, placeIn_enteredWith, placeIn_enteredWith,
      ← Option.or_assoc, Option.or_self]
  refine ⟨?_, hlocation, fun place => Graph.namesAt_congr hreach' hreach hlocation place, ?_, ?_⟩
  · rw [Graph.functions, Graph.functions, hg'.order, hg''.order,
      namesIn_enteredWith strictness (enteredWith strictness entries [records])]
    refine Graph.eraseDups_append_of_subset ?_
    rw [namesIn_enteredWith]
    exact List.subset_append_right _ _
  · obtain ⟨added, hadded, hkeyless⟩ :=
      Graph.exists_numbered_append (callsAdded idOf entries) (callsAdded idOf calling)
    obtain ⟨again, hagain, hkeyless'⟩ := Graph.exists_numbered_append
      (callsAdded idOf (enteredWith strictness entries [records])) (callsAdded idOf calling)
    refine ⟨added, again, ?_, ?_, hkeyless'.trans hkeyless.symm⟩
    · rw [hg'.calls, hg.calls, callsAdded_enteredWith, hadded]
    · rw [hg''.calls, hg'.calls, callsAdded_enteredWith strictness (enteredWith _ _ _),
        knownWith_enteredWith, hagain]
  · refine ⟨callsDropped calling, ?_, ?_⟩
    · rw [hg'.dropped, hg.dropped, callsDropped_enteredWith]
    · rw [hg''.dropped, hg'.dropped, callsDropped_enteredWith strictness (enteredWith _ _ _),
        knownWith_enteredWith]

end Again

/-! ## Folding again -/

section Folding

variable {setting : Setting} {options : Options} {s t : Session} {source : String} {block : Block}
  {tally : Tally}

/-- Folding a dump leaves the reading of names. -/
theorem readsAs_of_foldBlock {nameOf : String → String} (hs : Reachable setting.idOf s.graph)
    (hreads : ReadsAs setting.demangle s.memo nameOf)
    (h : (foldBlock setting options source block).outcome s = (.ok tally, t)) :
    ReadsAs setting.demangle t.memo nameOf := by
  obtain ⟨hresult, hgraph, hreads'⟩ := answers_collect options source block s hreads
  rw [foldBlock] at h
  obtain ⟨records, s', hcollect, h⟩ := Action.outcome_bind_eq_ok_iff.mp h
  rw [hcollect] at hresult hgraph hreads'
  obtain rfl := source_of_recordsOf hresult.symm
  have henters : (enterRecords setting options records).outcome s' = (.ok tally, t) := h
  have hmemo := (enters_enterRecords setting options records (hgraph ▸ hs)).memo_eq
  rw [henters] at hmemo
  exact hmemo ▸ hreads'

/-- **Folding a dump again repeats its calls and nothing else.**  A dump that could be folded can be
folded again, with the same tally.  The functions, their order and their places stay; the calls and
the dropped calls that the dump brought come once more, in their order and under new numbers. -/
theorem foldBlock_again (setting : Setting) (options : Options) {s t : Session}
    (hs : Reachable setting.idOf s.graph) {source : String} {block : Block} {tally : Tally}
    (h : (foldBlock setting options source block).outcome s = (.ok tally, t)) :
    ∃ u, (foldBlock setting options source block).outcome t = (.ok tally, u) ∧
      Repeats s.graph t.graph u.graph := by
  have hreads := readsAs_resolve setting.demangle s.memo
  have hreads' := readsAs_of_foldBlock hs hreads h
  obtain ⟨entries, hentries, hgraph⟩ := hs.exists_ledger
  obtain ⟨records, hrecords, ⟨hledger, hg⟩, rfl⟩ :=
    (foldBlock_iff hreads hentries hgraph.symm source block tally t.graph).mp ⟨t, h, rfl⟩
  have hagain := isLedger_enteredWith_again hledger
  obtain ⟨u, hu, hg'⟩ := (foldBlock_iff hreads' hledger hg source block _ _).mpr
    ⟨records, hrecords, ⟨hagain, rfl⟩, rfl⟩
  rw [knownWith_enteredWith] at hu
  refine ⟨u, hu, ?_⟩
  -- all three graphs tell their ledgers
  rw [← hgraph, hg, hg']
  exact repeats_enteredWith hentries.recounts hledger.recounts hagain.recounts ⟨_, rfl⟩ ⟨_, rfl⟩

/-- A dump that places a function twice, with one call between its functions and one of a function
that it does not have. -/
def movingBlock : Block :=
  ⟨"graph", [.block "node" [.field "title" "f", .field "label" "f\\na.c:1:1"],
    .block "node" [.field "title" "gg", .field "label" "gg\\na.c:1:1"],
    .block "node" [.field "title" "f", .field "label" "f\\na.c:2:2"],
    .block "edge" [.field "sourcename" "f", .field "targetname" "gg", .field "label" "a.c:2:3"],
    .block "edge" [.field "sourcename" "f", .field "targetname" "absent"]]⟩

theorem foldBlock_again_moving :
    Reachable symbolSetting.idOf librarySession.graph ∧
      ∃ t u, (foldBlock symbolSetting {} "d" movingBlock).outcome librarySession =
          (.ok ⟨"d", 3, 1, 1⟩, t) ∧
        (foldBlock symbolSetting {} "d" movingBlock).outcome t = (.ok ⟨"d", 3, 1, 1⟩, u) ∧
        Repeats librarySession.graph t.graph u.graph := by
  have hreachable : Reachable symbolSetting.idOf librarySession.graph := by
    unfold librarySession
    exact ⟨[.addFunction "lib" none .strict], rfl⟩
  have hresult : ((foldBlock symbolSetting {} "d" movingBlock).outcome librarySession).1 =
      .ok ⟨"d", 3, 1, 1⟩ := by
    cbv
  rcases hfold : (foldBlock symbolSetting {} "d" movingBlock).outcome librarySession with
    ⟨result, t⟩
  rw [hfold] at hresult
  obtain rfl : result = _ := hresult
  obtain ⟨u, hu, hrepeats⟩ := foldBlock_again symbolSetting {} hreachable hfold
  exact ⟨hreachable, t, u, rfl, hu, hrepeats⟩

end Folding

end Ingest

end CallAtlas
