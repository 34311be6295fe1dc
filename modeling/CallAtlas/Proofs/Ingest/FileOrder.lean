import CallAtlas.Proofs.Graph.Sites
import CallAtlas.Proofs.Ingest.AcrossFiles
import CallAtlas.Proofs.Ingest.Booking
import Mathlib.Data.List.Perm.Basic
import Mathlib.Data.List.Sort

/-!
# The order of files

Files that are folded together register all their functions before any of their calls.  So the order
in which they are given decides about the order of functions and of calls, and about nothing else: a
call is dropped or added as its ends stand in some file or in none, and a fault in a file is a fault
wherever the file stands.  Only where two files place one function differently, the last of them
counts.

## Main definitions

* `Reordered g g'`: the graphs have the same functions, calls and dropped calls
* `Records.placeOf`: where a dump places a function
* `AgreeOnPlaces`: no two files place one function differently

## Main results

* `Graph.Recounts.reordered`: ledgers of the same entries lead to graphs of the same contents
* `foldTogether_reordered`: files that can be folded together can be in any order
* `foldFiles_perm`: what the order of files does not change
-/

namespace CallAtlas

/-! ## Graphs of the same contents -/

namespace Graph

/-- The graphs have the same functions under the same ids, and the same calls and dropped calls, but
for their order. -/
structure Reordered (g g' : Graph) : Prop where
  functions : g.functions.Perm g'.functions
  idOfName : ∀ name, g.idOfName name = g'.idOfName name
  nameOfId : ∀ id, g.nameOfId id = g'.nameOfId id
  calls : (g.calls.toList.map Call.keyless).Perm (g'.calls.toList.map Call.keyless)
  dropped : g.dropped.toList.Perm g'.dropped.toList

section Reordering

variable {idOf : IdScheme} {entries entries' : List Operation} {g g' : Graph}

/-- Numbers are all that numbering adds to calls. -/
theorem map_keyless_numbered (calls : List Call) :
    (numbered calls).map Call.keyless = calls.map Call.keyless := by
  induction calls using List.reverseRecOn with
  | nil => rfl
  | append_singleton calls call ih =>
    rw [numbered, List.mapIdx_concat, List.map_append, List.map_append, ← ih]
    rfl

/-- **Ledgers of the same entries** lead to graphs of the same contents. -/
theorem Recounts.reordered (h : Recounts idOf entries g) (h' : Recounts idOf entries' g')
    (hregistry : Registry idOf g) (hregistry' : Registry idOf g')
    (hperm : entries.Perm entries') : Reordered g g' := by
  have hnames (name : String) : name ∈ namesIn entries ↔ name ∈ namesIn entries' :=
    (namesIn_perm hperm).mem_iff
  refine ⟨?_, fun name => ?_, fun id => ?_, ?_, ?_⟩
  · rw [functions, functions, h.order, h'.order,
      List.perm_ext_iff_of_nodup (nodup_eraseDups _) (nodup_eraseDups _)]
    simp only [List.mem_eraseDups, hnames, implies_true]
  · simp only [h.idOfName_eq, h'.idOfName_eq, hnames]
  · have hsame : g.names[id]? = g'.names[id]? := Option.ext fun name => by
      rw [h.names_eq_some_iff hregistry, h'.names_eq_some_iff hregistry', hnames]
    rw [nameOfId, nameOfId, hsame]
  · rw [h.calls, h'.calls, map_keyless_numbered, map_keyless_numbered]
    exact (hperm.filterMap _).map _
  · rw [h.dropped, h'.dropped]
    exact hperm.filterMap _

/-- The functions at a place follow from the places of functions. -/
theorem namesAt_congr (hg : Reachable idOf g) (hg' : Reachable idOf g')
    (h : ∀ name, g.locationOf name = g'.locationOf name) (place : Location) :
    g.namesAt place = g'.namesAt place := by
  refine List.Subset.antisymm_of_pairwise (pairwise_namesAt hg place) (pairwise_namesAt hg' place)
    (fun name hname => ?_) (fun name hname => ?_)
  · rwa [mem_namesAt_iff hg', ← h, ← mem_namesAt_iff hg]
  · rwa [mem_namesAt_iff hg, h, ← mem_namesAt_iff hg']

end Reordering

end Graph

namespace Ingest

open CallAtlas.Graph (Operation after IsLedger Reachable Recounts Reordered placeIn siteTold)

/-! ## Places in dumps -/

/-- Where a dump places a function, if it has it: where the last of its nodes says. -/
def Records.placeOf (records : Records) (name : String) : Option (Option Location) :=
  (records.functions.reverse.find? fun function => function.name = name).map fun function =>
    siteTold (some function.location)

theorem placeIn_registering (strictness : Strictness) (records : Records) (name : String) :
    placeIn (records.registering strictness) name = records.placeOf name := by
  rw [Records.registering, Records.placeOf]
  induction records.functions using List.reverseRecOn with
  | nil => rfl
  | append_singleton functions function ih =>
    rw [List.map_append, Graph.placeIn_append, ih, List.map_singleton, FunctionRecord.operation,
      Graph.placeIn_addFunction, List.reverse_append, List.reverse_singleton, List.singleton_append,
      List.find?_cons]
    by_cases heq : name = function.name
    · simp [heq]
    · simp [heq, Ne.symm heq]

/-- The dumps place no function differently. -/
def Consistent (batches : List Records) : Prop :=
  ∀ records ∈ batches, ∀ records' ∈ batches, ∀ name place place',
    records.placeOf name = some place → records'.placeOf name = some place' → place = place'

/-- Dumps that place no function differently place it where one of them does. -/
theorem placeIn_registrationsOf_eq_some_iff {strictness : Strictness} {batches : List Records}
    (h : Consistent batches) {name : String} {place : Option Location} :
    placeIn (registrationsOf strictness batches) name = some place ↔
      ∃ records ∈ batches, records.placeOf name = some place := by
  -- Induction on the dumps: a later one that has the function decides, and the first agrees.
  induction batches generalizing place with
  | nil => simp [registrationsOf, placeIn, Graph.registrationsIn]
  | cons first rest ih =>
    have hrest : Consistent rest := fun records hmem records' hmem' =>
      h records (.tail _ hmem) records' (.tail _ hmem')
    rw [registrationsOf, List.flatMap_cons, Graph.placeIn_append, placeIn_registering,
      List.exists_mem_cons_iff, ← ih hrest, registrationsOf]
    cases hlater : placeIn (rest.flatMap (Records.registering strictness)) name with
    | none => simp
    | some later =>
      simp only [Option.some_or, Option.some.injEq]
      refine ⟨.inr, ?_⟩
      rintro (hfirst | hplace)
      · obtain ⟨records, hmem, hrecords⟩ := (ih hrest).mp hlater
        exact h records (.tail _ hmem) first (.head _) name later place hrecords hfirst
      · exact hplace

/-! ## Dumps in another order -/

section Batches

variable {idOf : IdScheme} {strictness : Strictness} {entries : List Operation}
  {batches batches' : List Records}

theorem registration?_of_mem_registrationsOf {op : Operation}
    (hop : op ∈ registrationsOf strictness batches) : op.registration?.isSome = true := by
  obtain ⟨records, -, hop⟩ := List.mem_flatMap.mp hop
  obtain ⟨function, -, rfl⟩ := List.mem_map.mp hop
  rfl

theorem registration?_of_mem_callsOf {known : String → Bool} {op : Operation}
    (hop : op ∈ callsOf strictness known batches) : op.registration? = none := by
  obtain ⟨records, -, hop⟩ := List.mem_flatMap.mp hop
  exact registration?_of_mem_calling op hop

/-- Which names are known does not depend on the order of dumps. -/
theorem knownWith_perm (hperm : batches.Perm batches') :
    knownWith strictness entries batches = knownWith strictness entries batches' := by
  funext name
  refine decide_eq_decide.mpr (Graph.namesIn_perm ?_).mem_iff
  exact (hperm.flatMap_right _).append_left entries

theorem enteredWith_perm (hperm : batches.Perm batches') :
    (enteredWith strictness entries batches).Perm (enteredWith strictness entries batches') := by
  rw [enteredWith, enteredWith, knownWith_perm hperm]
  exact ((hperm.flatMap_right _).append (hperm.flatMap_right _)).append_left entries

/-- **Dumps can be entered in any order, or in none.** -/
theorem isLedger_enteredWith_perm_iff (hperm : batches.Perm batches') :
    IsLedger idOf (enteredWith strictness entries batches) ↔
      IsLedger idOf (enteredWith strictness entries batches') := by
  rw [enteredWith, enteredWith, knownWith_perm hperm]
  exact Graph.isLedger_append_perm_iff (fun _ => registration?_of_mem_registrationsOf)
    (fun _ => registration?_of_mem_callsOf) (hperm.flatMap_right _) (hperm.flatMap_right _)

/-- Dumps that place no function differently leave it at the same place in any order. -/
theorem placeIn_enteredWith_perm (hperm : batches.Perm batches') (h : Consistent batches)
    (name : String) :
    placeIn (enteredWith strictness entries batches) name =
      placeIn (enteredWith strictness entries batches') name := by
  have h' : Consistent batches' := fun records hmem records' hmem' =>
    h records (hperm.mem_iff.mpr hmem) records' (hperm.mem_iff.mpr hmem')
  have hregistered : placeIn (registrationsOf strictness batches) name =
      placeIn (registrationsOf strictness batches') name := Option.ext fun place => by
    simp only [placeIn_registrationsOf_eq_some_iff h, placeIn_registrationsOf_eq_some_iff h',
      hperm.mem_iff]
  rw [enteredWith, enteredWith, ← List.append_assoc, ← List.append_assoc,
    Graph.placeIn_append_of_none _ fun _ => registration?_of_mem_callsOf,
    Graph.placeIn_append_of_none _ fun _ => registration?_of_mem_callsOf,
    Graph.placeIn_append, Graph.placeIn_append, hregistered]

end Batches

/-! ## Files in another order -/

section Files

variable {setting : Setting} {options : Options} {s : Session} {paths paths' : List String}

/-- No two files place one function differently. -/
def AgreeOnPlaces (setting : Setting) (options : Options) (s : Session) (paths : List String) :
    Prop :=
  ∀ path ∈ paths, ∀ path' ∈ paths, ∀ records records',
    ((collectFile setting options path).outcome s).1 = .ok records →
    ((collectFile setting options path').outcome s).1 = .ok records' →
    ∀ name place place',
      records.placeOf name = some place → records'.placeOf name = some place' → place = place'

/-- Files in another order have the same records in another order. -/
theorem FilesHold.perm {nameOf : String → String} {batches batches' : List Records}
    (hperm : paths.Perm paths') (hfiles : FilesHold setting options nameOf paths batches)
    (hfiles' : FilesHold setting options nameOf paths' batches') : batches.Perm batches' := by
  have hunique : Relator.RightUnique
      fun path records => fileRecordsOf setting options nameOf path = .ok records :=
    fun path records records' h h' => Except.ok.inj (h.symm.trans h')
  exact List.rel_perm_imp hunique hfiles hfiles' hperm

/-- **Files that can be folded together can be in any order.** -/
theorem foldTogether_of_perm (hs : Reachable setting.idOf s.graph) (hperm : paths.Perm paths')
    (h : ∃ tallies t, (foldTogether setting options paths).outcome s = (.ok tallies, t)) :
    ∃ tallies t, (foldTogether setting options paths').outcome s = (.ok tallies, t) := by
  have hreads := readsAs_resolve setting.demangle s.memo
  obtain ⟨entries, hentries, hgraph⟩ := hs.exists_ledger
  obtain ⟨tallies, t, ht⟩ := h
  obtain ⟨batches, hfiles, ⟨hledger, -⟩, -⟩ :=
    (foldTogether_iff hreads hentries hgraph.symm paths tallies t.graph).mp ⟨t, ht, rfl⟩
  -- the records come in the other order, and can be entered in it
  obtain ⟨batches', hfiles', hbatches⟩ := List.perm_comp_forall₂ hperm.symm hfiles
  obtain ⟨t', ht', -⟩ := (foldTogether_iff hreads hentries hgraph.symm paths' _ _).mpr
    ⟨batches', hfiles', ⟨(isLedger_enteredWith_perm_iff hbatches).mpr hledger, rfl⟩, rfl⟩
  exact ⟨_, t', ht'⟩

/-- The tally of each file, where the names that are known are given. -/
def tallyOf (setting : Setting) (options : Options) (nameOf : String → String)
    (known : String → Bool) (path : String) : Tally :=
  match fileRecordsOf setting options nameOf path with
  | .ok records => records.tally known
  | .error _ => { source := path }

theorem FilesHold.map_tally {nameOf : String → String} {batches : List Records}
    (hfiles : FilesHold setting options nameOf paths batches) (known : String → Bool) :
    batches.map (Records.tally known) = paths.map (tallyOf setting options nameOf known) := by
  obtain ⟨rfl, hrecords⟩ := filesHold_iff.mp hfiles
  rw [List.map_map]
  refine List.map_congr_left fun records hmem => ?_
  rw [Function.comp_apply, tallyOf, hrecords records hmem]

/-- Files place no function differently exactly when their records do not. -/
theorem agreeOnPlaces_iff {nameOf : String → String} {batches : List Records}
    (hreads : ReadsAs setting.demangle s.memo nameOf)
    (hfiles : FilesHold setting options nameOf paths batches) :
    AgreeOnPlaces setting options s paths ↔ Consistent batches := by
  obtain ⟨rfl, hrecords⟩ := filesHold_iff.mp hfiles
  have hcollect (records : Records) (hmem : records ∈ batches) :
      ((collectFile setting options records.source).outcome s).1 = .ok records :=
    (answers_collectFile setting options nameOf records.source s hreads).1.trans
      (hrecords records hmem)
  simp only [AgreeOnPlaces, List.forall_mem_map, Consistent]
  constructor
  · intro h records hmem records' hmem'
    exact h records hmem records' hmem' records records' (hcollect records hmem)
      (hcollect records' hmem')
  · intro h records hmem records' hmem' found found' hfound hfound'
    obtain rfl := Except.ok.inj ((hcollect records hmem).symm.trans hfound)
    obtain rfl := Except.ok.inj ((hcollect records' hmem').symm.trans hfound')
    exact h records hmem records' hmem'

/-- **Files that are folded together in two orders** lead to the same contents and the same tallies;
if they agree on places, to the same places. -/
theorem foldTogether_reordered (hs : Reachable setting.idOf s.graph) (hperm : paths.Perm paths')
    {tallies tallies' : List Tally} {t t' : Session}
    (ht : (foldTogether setting options paths).outcome s = (.ok tallies, t))
    (ht' : (foldTogether setting options paths').outcome s = (.ok tallies', t')) :
    Reordered t.graph t'.graph ∧
      (∃ tallyOf : String → Tally, tallies = paths.map tallyOf ∧ tallies' = paths'.map tallyOf) ∧
      (AgreeOnPlaces setting options s paths →
        (∀ name, t.graph.locationOf name = t'.graph.locationOf name) ∧
          ∀ place, t.graph.namesAt place = t'.graph.namesAt place) := by
  -- Names are read as they are on `s`, whatever is remembered later.
  have hreads := readsAs_resolve setting.demangle s.memo
  obtain ⟨entries, hentries, hgraph⟩ := hs.exists_ledger
  obtain ⟨batches, hfiles, ⟨hledger, hg⟩, rfl⟩ :=
    (foldTogether_iff hreads hentries hgraph.symm paths tallies t.graph).mp ⟨t, ht, rfl⟩
  obtain ⟨batches', hfiles', ⟨hledger', hg'⟩, rfl⟩ :=
    (foldTogether_iff hreads hentries hgraph.symm paths' tallies' t'.graph).mp ⟨t', ht', rfl⟩
  -- both graphs tell ledgers that have the same entries
  have hbatches := FilesHold.perm hperm hfiles hfiles'
  have hrecounts := hledger.recounts
  have hrecounts' := hledger'.recounts
  have hreach : Reachable setting.idOf t.graph := ⟨_, hg.symm⟩
  have hreach' : Reachable setting.idOf t'.graph := ⟨_, hg'.symm⟩
  rw [← hg] at hrecounts
  rw [← hg'] at hrecounts'
  refine ⟨?_, ?_, fun hagree => ?_⟩
  · exact hrecounts.reordered hrecounts' hreach.registry hreach'.registry
      (enteredWith_perm hbatches)
  · refine ⟨_, FilesHold.map_tally hfiles _, ?_⟩
    rw [← knownWith_perm hbatches]
    exact FilesHold.map_tally hfiles' _
  · have hlocation (name : String) : t.graph.locationOf name = t'.graph.locationOf name := by
      rw [hrecounts.locationOf_eq, hrecounts'.locationOf_eq,
        placeIn_enteredWith_perm hbatches ((agreeOnPlaces_iff hreads hfiles).mp hagree)]
    exact ⟨hlocation, Graph.namesAt_congr hreach hreach' hlocation⟩

end Files

/-- **The order of files does not matter where calls are resolved across files.**  Files can be
folded in one order exactly when they can be in another.  The functions, their ids, the calls and
the dropped calls are then the same but for their order and the numbers of calls, and each file has
the same tally.  If no two files place one function differently, the places are the same too. -/
theorem foldFiles_perm (setting : Setting) (options : Options) {s : Session}
    (hs : Reachable setting.idOf s.graph) {paths paths' : List String}
    (hperm : paths.Perm paths') :
    let fold := foldFiles setting { options with resolveAcrossFiles := true }
    ((∃ tallies t, (fold paths).outcome s = (.ok tallies, t)) ↔
        ∃ tallies t, (fold paths').outcome s = (.ok tallies, t)) ∧
      ∀ tallies t tallies' t', (fold paths).outcome s = (.ok tallies, t) →
        (fold paths').outcome s = (.ok tallies', t') →
        Reordered t.graph t'.graph ∧
          (∃ tallyOf : String → Tally,
            tallies = paths.map tallyOf ∧ tallies' = paths'.map tallyOf) ∧
          (AgreeOnPlaces setting options s paths →
            (∀ name, t.graph.locationOf name = t'.graph.locationOf name) ∧
              ∀ place, t.graph.namesAt place = t'.graph.namesAt place) := by
  simp only [foldFiles, if_true]
  refine ⟨⟨foldTogether_of_perm hs hperm, foldTogether_of_perm hs hperm.symm⟩, ?_⟩
  intro tallies t tallies' t' ht ht'
  exact foldTogether_reordered hs hperm ht ht'

/-- A dump with a function of a header, which calls a function of another dump. -/
def callerText : String :=
  "graph:\x7bnode:\x7btitle:f label:\"f\\nh.h:1:2\"\x7dedge:\x7bsourcename:f targetname:gg\x7d\x7d"

/-- The dump with the function that is called, and with the same function of the header. -/
def calleeText : String :=
  "graph:\x7bnode:\x7btitle:gg label:gg\x7dnode:\x7btitle:f label:\"f\\nh.h:1:2\"\x7d\x7d"

/-- Two files that define one function at one place. -/
def headerSetting : Setting where
  idOf := Graph.lengthIds
  demangle := some
  files := .ofFiles [("a", callerText.toUTF8.toList), ("b", calleeText.toUTF8.toList)]

/-- What `callerText` describes. -/
def callerRecords : Records :=
  { source := "a", functions := [⟨"f", "h.h:1:2"⟩], calls := [⟨"f", "gg", "intrinsic"⟩] }

/-- What `calleeText` describes. -/
def calleeRecords : Records :=
  { source := "b", functions := [⟨"gg", "gg"⟩, ⟨"f", "h.h:1:2"⟩] }

set_option maxRecDepth 4000 in
theorem fileRecordsOf_caller (nameOf : String → String) :
    fileRecordsOf headerSetting { demangle := false } nameOf "a" = .ok callerRecords := by
  have htext : headerSetting.files.readText (Path.ofString "a") "utf-8" = .ok callerText := by cbv
  have hblock : blockOf callerText (some (Path.ofString "a").toString) =
      .ok ⟨"graph", [.block "node" [.field "title" "f", .field "label" "f\\nh.h:1:2"],
        .block "edge" [.field "sourcename" "f", .field "targetname" "gg"]]⟩ :=
    blockOf_eq_ok_iff.mpr ⟨by decide +kernel, by decide +kernel⟩
  simp only [fileRecordsOf, dumpOf, htext, hblock]
  cbv

set_option maxRecDepth 4000 in
theorem fileRecordsOf_callee (nameOf : String → String) :
    fileRecordsOf headerSetting { demangle := false } nameOf "b" = .ok calleeRecords := by
  have htext : headerSetting.files.readText (Path.ofString "b") "utf-8" = .ok calleeText := by cbv
  have hblock : blockOf calleeText (some (Path.ofString "b").toString) =
      .ok ⟨"graph", [.block "node" [.field "title" "gg", .field "label" "gg"],
        .block "node" [.field "title" "f", .field "label" "f\\nh.h:1:2"]]⟩ :=
    blockOf_eq_ok_iff.mpr ⟨by decide +kernel, by decide +kernel⟩
  simp only [fileRecordsOf, dumpOf, htext, hblock]
  cbv

/-- Both dumps place the function of the header where the header has it. -/
theorem consistent_header : Consistent [callerRecords, calleeRecords] := by
  have hheader : siteTold (some "h.h:1:2") = some ⟨"h.h", 1, 2⟩ := by cbv
  have hnone : siteTold (some "gg") = none := by cbv
  have hplaces (records : Records) (hmem : records ∈ [callerRecords, calleeRecords])
      (name : String) (place : Option Location) (h : records.placeOf name = some place) :
      place = if name = "f" then some ⟨"h.h", 1, 2⟩ else none := by
    rw [List.mem_pair] at hmem
    rcases hmem with rfl | rfl <;>
      simp only [Records.placeOf, callerRecords, calleeRecords, Option.map_eq_some_iff] at h <;>
      grind
  intro records hmem records' hmem' name place place' h h'
  rw [hplaces records hmem name place h, hplaces records' hmem' name place' h']

/-- Both orders enter both functions and the call, with one tally for each file, and the function of
both files at its place. -/
theorem foldFiles_perm_shared :
    Reachable headerSetting.idOf ({} : Session).graph ∧ ["a", "b"].Perm ["b", "a"] ∧
      AgreeOnPlaces headerSetting { demangle := false } {} ["a", "b"] ∧
      ∃ t t',
        (foldFiles headerSetting { demangle := false, resolveAcrossFiles := true }
          ["a", "b"]).outcome {} = (.ok [⟨"a", 1, 1, 0⟩, ⟨"b", 2, 0, 0⟩], t) ∧
        (foldFiles headerSetting { demangle := false, resolveAcrossFiles := true }
          ["b", "a"]).outcome {} = (.ok [⟨"b", 2, 0, 0⟩, ⟨"a", 1, 1, 0⟩], t') ∧
        t.graph.functions = ["f", "gg"] ∧ t'.graph.functions = ["gg", "f"] ∧
        t.graph.calls.toList = [Graph.callBetween headerSetting.idOf 0 "f" "gg" "intrinsic"] ∧
        t'.graph.calls.toList = [Graph.callBetween headerSetting.idOf 0 "f" "gg" "intrinsic"] ∧
        t.graph.locationOf "f" = .ok (some ⟨"h.h", 1, 2⟩) ∧
        t'.graph.locationOf "f" = .ok (some ⟨"h.h", 1, 2⟩) ∧ Reordered t.graph t'.graph ∧
        ∀ place, t.graph.namesAt place = t'.graph.namesAt place := by
  have hreach : Reachable headerSetting.idOf ({} : Session).graph := ⟨[], rfl⟩
  have hperm : ["a", "b"].Perm ["b", "a"] := .swap "b" "a" []
  have hreads := readsAs_resolve headerSetting.demangle ({} : Session).memo
  have hcaller := fileRecordsOf_caller
    fun name => (Resolver.resolve headerSetting.demangle {} name).1
  have hcallee := fileRecordsOf_callee
    fun name => (Resolver.resolve headerSetting.demangle {} name).1
  have hagree : AgreeOnPlaces headerSetting { demangle := false } {} ["a", "b"] :=
    (agreeOnPlaces_iff hreads (.cons hcaller (.cons hcallee .nil))).mpr consistent_header
  have hledger : IsLedger headerSetting.idOf
      (enteredWith .strict [] [callerRecords, calleeRecords]) := by cbv
  have hledger' : IsLedger headerSetting.idOf
      (enteredWith .strict [] [calleeRecords, callerRecords]) :=
    (isLedger_enteredWith_perm_iff (.swap _ _ [])).mp hledger
  obtain ⟨t, ht, hgraph⟩ := (foldTogether_iff hreads Graph.isLedger_nil rfl ["a", "b"]
    [⟨"a", 1, 1, 0⟩, ⟨"b", 2, 0, 0⟩] _).mpr
      ⟨_, .cons hcaller (.cons hcallee .nil), ⟨hledger, rfl⟩, by decide +kernel⟩
  obtain ⟨t', ht', hgraph'⟩ := (foldTogether_iff hreads Graph.isLedger_nil rfl ["b", "a"]
    [⟨"b", 2, 0, 0⟩, ⟨"a", 1, 1, 0⟩] _).mpr
      ⟨_, .cons hcallee (.cons hcaller .nil), ⟨hledger', rfl⟩, by decide +kernel⟩
  obtain ⟨-, hsame⟩ := foldFiles_perm headerSetting { demangle := false } hreach hperm
  obtain ⟨hreordered, -, hplaces⟩ := hsame _ t _ t' ht ht'
  have hrecounts := hledger.recounts
  have hrecounts' := hledger'.recounts
  rw [← hgraph] at hrecounts
  rw [← hgraph'] at hrecounts'
  have hplace : t.graph.locationOf "f" = .ok (some ⟨"h.h", 1, 2⟩) := by
    rw [hrecounts.locationOf_eq]
    decide +kernel
  refine ⟨hreach, hperm, hagree, t, t', ht, ht', ?_, ?_, ?_, ?_, hplace,
    ((hplaces hagree).1 "f").symm.trans hplace, hreordered, (hplaces hagree).2⟩
  · rw [Graph.functions, hrecounts.order]
    decide +kernel
  · rw [Graph.functions, hrecounts'.order]
    decide +kernel
  · rw [hrecounts.calls]
    decide +kernel
  · rw [hrecounts'.calls]
    decide +kernel

end Ingest

end CallAtlas
