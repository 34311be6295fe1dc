import CallAtlas.Proofs.Ingest.Booking
import Mathlib.Data.Bool.Count

/-!
# The account of a dump

Every edge of a dump is accounted for once: it becomes a call of the graph, or it is recorded as
dropped.  It is dropped exactly if one of its ends is known neither to the graph nor to the dump,
and it does not matter where in the dump the node of an end stands.  Calls and dropped calls come in
the order of the edges, behind those that the graph had before, and the tally counts them.

## Main definitions

* `namingIn setting options s`: how the names of a dump are read in a session
* `titlesOf block`: the titles of the nodes of a dump
* `Fate idOf naming source known edge fate`: what an edge comes to

## Main results

* `of_recordsOf`: the records of a dump are those of its nodes and edges
* `knownWith_iff`: which ends of calls are known
* `fate_of_missing?_eq_none`, `fate_of_missing?_eq_some`: what one edge comes to
* `exists_fates`: what all edges of a dump come to
* `foldBlock_accounts`: the account of a dump
-/

namespace CallAtlas.Ingest

open CallAtlas.Dump (Block)
open CallAtlas.Graph (Operation after IsLedger Reachable callBetween callsAdded callsDropped
  numbered namesIn)

/-! ## Nodes and edges -/

/-- How the names of a dump are read in a session. -/
def namingIn (setting : Setting) (options : Options) (s : Session) : String → String :=
  namingUnder options fun name => (Resolver.resolve setting.demangle s.memo name).1

/-- The titles of the nodes of a dump, as they stand there. -/
def titlesOf (block : Block) : List String :=
  (block.blocksOfKind Schema.nodeKind).filterMap (·.field? Schema.nodeTitle)

/-- The label of an edge. -/
def labelOf (edge : Block) : String :=
  (edge.field? Schema.edgeLabel).getD Schema.intrinsicLabel

section Records

variable {naming : String → String} {source : String}

theorem bind_eq_ok_iff {ε α β : Type} {x : Except ε α} {f : α → Except ε β} {b : β} :
    (x >>= f) = .ok b ↔ ∃ a, x = .ok a ∧ f a = .ok b := by
  cases x with
  | error e => simp [Bind.bind, Except.bind]
  | ok a => simp [Bind.bind, Except.bind]

theorem fieldOf_eq_ok_iff {block : Block} {key value : String} :
    fieldOf source block key = .ok value ↔ block.field? key = some value := by
  unfold fieldOf
  cases block.field? key with
  | some found => simp
  | none => simp

/-- The function of a node has the title of the node as its name. -/
theorem name_of_functionOf {node : Block} {function : FunctionRecord}
    (h : functionOf naming source node = .ok function) :
    (node.field? Schema.nodeTitle).map naming = some function.name := by
  obtain ⟨title, htitle, h⟩ := bind_eq_ok_iff.mp h
  obtain ⟨label, -, h⟩ := bind_eq_ok_iff.mp h
  rw [fieldOf_eq_ok_iff.mp htitle, ← Except.ok.inj h, Option.map_some]

/-- The call of an edge is between the names that the edge has. -/
theorem fields_of_callOf {edge : Block} {record : CallRecord}
    (h : callOf naming source edge = .ok record) :
    ∃ caller callee, edge.field? Schema.edgeSource = some caller ∧
      edge.field? Schema.edgeTarget = some callee ∧
      record = ⟨naming caller, naming callee, labelOf edge⟩ := by
  obtain ⟨caller, hcaller, h⟩ := bind_eq_ok_iff.mp h
  obtain ⟨callee, hcallee, h⟩ := bind_eq_ok_iff.mp h
  exact ⟨caller, callee, fieldOf_eq_ok_iff.mp hcaller, fieldOf_eq_ok_iff.mp hcallee,
    (Except.ok.inj h).symm⟩

/-- **The records of a dump** are those of its nodes and of its edges, in their order. -/
theorem of_recordsOf {block : Block} {records : Records}
    (h : recordsOf naming source block = .ok records) :
    List.Forall₂ (fun node function => functionOf naming source node = .ok function)
        (block.blocksOfKind Schema.nodeKind) records.functions ∧
      List.Forall₂ (fun edge call => callOf naming source edge = .ok call)
        (block.blocksOfKind Schema.edgeKind) records.calls := by
  unfold recordsOf at h
  split at h
  · cases h
  · obtain ⟨functions, hfunctions, h⟩ := bind_eq_ok_iff.mp h
    obtain ⟨calls, hcalls, h⟩ := bind_eq_ok_iff.mp h
    obtain rfl := Except.ok.inj h
    exact ⟨mapM_eq_ok_iff_forall₂.mp hfunctions, mapM_eq_ok_iff_forall₂.mp hcalls⟩

/-- The functions of nodes are named by their titles. -/
theorem map_name_of_functionOf {nodes : List Block} {functions : List FunctionRecord}
    (h : List.Forall₂ (fun node function => functionOf naming source node = .ok function)
      nodes functions) :
    functions.map FunctionRecord.name =
      (nodes.filterMap (·.field? Schema.nodeTitle)).map naming := by
  induction h with
  | nil => rfl
  | cons hfunction _ ih =>
    obtain ⟨title, htitle, hname⟩ := Option.map_eq_some_iff.mp (name_of_functionOf hfunction)
    rw [List.filterMap_cons, htitle, List.map_cons, List.map_cons, hname, ih]

end Records

/-! ## Known names -/

theorem namesIn_registering (strictness : Strictness) (records : Records) :
    namesIn (records.registering strictness) = records.functions.map FunctionRecord.name := by
  rw [namesIn, Graph.registrationsIn, Records.registering, List.filterMap_map, List.map_filterMap]
  exact congrFun List.filterMap_eq_map records.functions

/-- **The ends of calls that are known**: those that the graph has, and those that the dump has. -/
theorem knownWith_iff {idOf : IdScheme} {entries : List Operation}
    (h : IsLedger idOf entries) (strictness : Strictness) (records : Records) (name : String) :
    knownWith strictness entries [records] name = true ↔
      (after idOf entries).contains name = true ∨
        name ∈ records.functions.map FunctionRecord.name := by
  rw [knownWith, knownIn, decide_eq_true_iff, registrationsOf, List.flatMap_singleton,
    Graph.namesIn_append, List.mem_append, namesIn_registering, h.recounts.contains_iff]

/-! ## Fates of edges -/

/-- **What an edge of the dump `source` comes to**, where the names that are `known` can be ends of
calls: a call, or a dropped call that lacks its source, or one that lacks only its target. -/
inductive Fate (idOf : IdScheme) (naming : String → String) (source : String)
    (known : String → Prop) (edge : Block) : Call ⊕ DroppedCall → Prop
  | added {caller callee : String} (key : Nat)
      (hcaller : edge.field? Schema.edgeSource = some caller)
      (hcallee : edge.field? Schema.edgeTarget = some callee)
      (hsource : known (naming caller)) (htarget : known (naming callee)) :
      Fate idOf naming source known edge
        (.inl (callBetween idOf key (naming caller) (naming callee) (labelOf edge)))
  | lacksSource {caller callee : String}
      (hcaller : edge.field? Schema.edgeSource = some caller)
      (hcallee : edge.field? Schema.edgeTarget = some callee)
      (hsource : ¬ known (naming caller)) :
      Fate idOf naming source known edge
        (.inr ⟨naming caller, naming callee, labelOf edge, Endpoint.source.word, some source⟩)
  | lacksTarget {caller callee : String}
      (hcaller : edge.field? Schema.edgeSource = some caller)
      (hcallee : edge.field? Schema.edgeTarget = some callee)
      (hsource : known (naming caller)) (htarget : ¬ known (naming callee)) :
      Fate idOf naming source known edge
        (.inr ⟨naming caller, naming callee, labelOf edge, Endpoint.target.word, some source⟩)

namespace Fate

variable {idOf : IdScheme} {naming : String → String} {source : String}
  {known : String → Prop} {edge : Block} {fate : Call ⊕ DroppedCall} {caller callee : String}

/-- An edge is dropped exactly if one of its ends is not known. -/
theorem isRight_iff (h : Fate idOf naming source known edge fate)
    (hcaller : edge.field? Schema.edgeSource = some caller)
    (hcallee : edge.field? Schema.edgeTarget = some callee) :
    fate.isRight = true ↔ ¬ known (naming caller) ∨ ¬ known (naming callee) := by
  cases h with
  | added key hcaller' hcallee' hsource htarget =>
    obtain rfl := Option.some.inj (hcaller.symm.trans hcaller')
    obtain rfl := Option.some.inj (hcallee.symm.trans hcallee')
    simp [hsource, htarget]
  | lacksSource hcaller' hcallee' hsource =>
    obtain rfl := Option.some.inj (hcaller.symm.trans hcaller')
    simp [hsource]
  | lacksTarget hcaller' hcallee' hsource htarget =>
    obtain rfl := Option.some.inj (hcallee.symm.trans hcallee')
    simp [htarget]

/-- A dropped call lacks its source if that is not known, and its target otherwise. -/
theorem missing_eq (h : Fate idOf naming source known edge fate) {dropped : DroppedCall}
    (hfate : fate = .inr dropped) (hcaller : edge.field? Schema.edgeSource = some caller) :
    (¬ known (naming caller) ∧ dropped.missing = "source" ∨
        known (naming caller) ∧ dropped.missing = "target") ∧ dropped.path = some source := by
  cases h with
  | added => cases hfate
  | lacksSource hcaller' hcallee' hsource =>
    obtain rfl := Option.some.inj (hcaller.symm.trans hcaller')
    obtain rfl := Sum.inr.inj hfate
    exact ⟨.inl ⟨hsource, rfl⟩, rfl⟩
  | lacksTarget hcaller' hcallee' hsource htarget =>
    obtain rfl := Option.some.inj (hcaller.symm.trans hcaller')
    obtain rfl := Sum.inr.inj hfate
    exact ⟨.inr ⟨hsource, rfl⟩, rfl⟩

end Fate

/-! ## Fates of all edges -/

section Fates

variable {idOf : IdScheme} {naming : String → String} {source : String}
  {known : String → Bool} {edge : Block} {record : CallRecord}

/-- An edge whose record lacks no end becomes a call. -/
theorem fate_of_missing?_eq_none (h : callOf naming source edge = .ok record)
    (hmissing : record.missing? known = none) (key : Nat) :
    Fate idOf naming source (known · = true) edge
      (.inl (callBetween idOf key record.source record.target record.label)) := by
  obtain ⟨caller, callee, hcaller, hcallee, rfl⟩ := fields_of_callOf h
  unfold CallRecord.missing? at hmissing
  split at hmissing
  · cases hmissing
  · next hsource =>
    split at hmissing
    · cases hmissing
    · next htarget =>
      exact .added key hcaller hcallee (by simpa using hsource) (by simpa using htarget)

/-- An edge whose record lacks an end is dropped. -/
theorem fate_of_missing?_eq_some {side : Endpoint} (h : callOf naming source edge = .ok record)
    (hmissing : record.missing? known = some side) :
    Fate idOf naming source (known · = true) edge (.inr (record.dropped source side)) := by
  obtain ⟨caller, callee, hcaller, hcallee, rfl⟩ := fields_of_callOf h
  unfold CallRecord.missing? at hmissing
  split at hmissing
  · next hsource =>
    obtain rfl := Option.some.inj hmissing
    exact .lacksSource hcaller hcallee (by simpa using hsource)
  · next hsource =>
    split at hmissing
    · next htarget =>
      obtain rfl := Option.some.inj hmissing
      exact .lacksTarget hcaller hcallee (by simpa using hsource) (by simpa using htarget)
    · cases hmissing

theorem numbered_concat (calls : List Call) (call : Call) :
    numbered (calls ++ [call]) = numbered calls ++ [{ call with key := calls.length }] :=
  List.mapIdx_concat

/-- **What all edges of a dump come to**: behind the calls of a graph, their records add and drop
the calls that the edges become. -/
theorem exists_fates (idOf : IdScheme) (strictness : Strictness) {edges : List Block}
    {records : List CallRecord}
    (h : List.Forall₂ (fun edge record => callOf naming source edge = .ok record) edges records)
    (calls : List Call) :
    let ops := records.map (CallRecord.operation strictness source known)
    ∃ fates : List (Call ⊕ DroppedCall),
      List.Forall₂ (Fate idOf naming source (known · = true)) edges fates ∧
      numbered (calls ++ callsAdded idOf ops) = numbered calls ++ fates.filterMap Sum.getLeft? ∧
      callsDropped ops = fates.filterMap Sum.getRight? := by
  -- Induction on the edges; a call that is added comes before those of the other edges.
  induction h generalizing calls with
  | nil => exact ⟨[], .nil, by simp [callsAdded], rfl⟩
  | @cons edge record _ _ hedge _ ih =>
    cases hmissing : record.missing? known with
    | none =>
      have hop : record.operation strictness source known =
          .addCall record.source record.target (some record.label) strictness := by
        rw [CallRecord.operation, hmissing]
      obtain ⟨fates, hfates, hadded, hdropped⟩ :=
        ih (calls ++ [callBetween idOf 0 record.source record.target record.label])
      refine ⟨_, .cons (fate_of_missing?_eq_none hedge hmissing calls.length) hfates, ?_, ?_⟩
      · rw [List.append_assoc, List.singleton_append, numbered_concat, List.append_assoc] at hadded
        rw [List.map_cons, hop]
        exact hadded
      · rw [List.map_cons, hop]
        exact hdropped
    | some side =>
      have hop : record.operation strictness source known =
          .recordDropped (record.dropped source side) := by
        rw [CallRecord.operation, hmissing]
      obtain ⟨fates, hfates, hadded, hdropped⟩ := ih calls
      refine ⟨_, .cons (fate_of_missing?_eq_some hedge hmissing) hfates, ?_, ?_⟩
      · rw [List.map_cons, hop]
        exact hadded
      · rw [List.map_cons, hop]
        exact congrArg (record.dropped source side :: ·) hdropped

theorem isSome_call?_operation (strictness : Strictness) (record : CallRecord) :
    ((record.operation strictness source known).call? idOf).isSome =
      (record.missing? known).isNone := by
  unfold CallRecord.operation
  cases record.missing? known <;> rfl

theorem isSome_dropped?_operation (strictness : Strictness) (record : CallRecord) :
    (record.operation strictness source known).dropped?.isSome =
      !(record.missing? known).isNone := by
  unfold CallRecord.operation
  cases record.missing? known <;> rfl

/-- The tally counts the calls added and the calls dropped. -/
theorem tally_eq (idOf : IdScheme) (strictness : Strictness) (records : Records) :
    records.tally known =
      { source := records.source
        functions := records.functions.length
        calls := (callsAdded idOf (records.calling strictness known)).length
        dropped := (callsDropped (records.calling strictness known)).length } := by
  simp only [Records.tally, countCalls, Records.registered, Records.calling, callsAdded,
    callsDropped, List.filterMap_map, List.length_filterMap_eq_countP, List.count, List.countP_map,
    Function.comp_def, isSome_call?_operation, isSome_dropped?_operation, Nat.zero_add, beq_true,
    beq_false]

theorem tally_calls_add_dropped (records : Records) :
    (records.tally known).calls + (records.tally known).dropped = records.calls.length := by
  simp only [Records.tally, countCalls, Records.registered, Nat.zero_add,
    List.count_true_add_count_false, List.length_map]

theorem callsAdded_enteredWith (strictness : Strictness) (entries : List Operation)
    (records : Records) :
    callsAdded idOf (enteredWith strictness entries [records]) = callsAdded idOf entries ++
      callsAdded idOf (records.calling strictness (knownWith strictness entries [records])) := by
  have hnone : callsAdded idOf (records.registering strictness) = [] := by
    simp [callsAdded, Records.registering, FunctionRecord.operation, Operation.call?]
  simp [enteredWith, registrationsOf, callsOf, hnone]

theorem callsDropped_enteredWith (strictness : Strictness) (entries : List Operation)
    (records : Records) :
    callsDropped (enteredWith strictness entries [records]) = callsDropped entries ++
      callsDropped (records.calling strictness (knownWith strictness entries [records])) := by
  have hnone : callsDropped (records.registering strictness) = [] := by
    simp [callsDropped, Records.registering, FunctionRecord.operation, Operation.dropped?]
  simp [enteredWith, registrationsOf, callsOf, hnone]

end Fates

/-! ## The account -/

/-- **Every edge of a dump is accounted for once, and dropped exactly if an end of it is unknown.**
The tally counts the nodes, and the edges as calls added and calls dropped.  Behind the calls and
the dropped calls that the graph had come those of the edges, in their order.  An edge is dropped
exactly if its source or its target, as it is read, is neither registered in the graph nor the title
of a node, as it is read, wherever that stands; so an edge between titles is never dropped. -/
theorem foldBlock_accounts (setting : Setting) (options : Options) {s t : Session}
    (hs : Reachable setting.idOf s.graph) {source : String} {block : Block} {tally : Tally}
    (h : (foldBlock setting options source block).outcome s = (.ok tally, t)) :
    let naming := namingIn setting options s
    let known := fun name => s.graph.contains name = true ∨ name ∈ (titlesOf block).map naming
    let edges := block.blocksOfKind Schema.edgeKind
    tally.source = source ∧
      tally.functions = (block.blocksOfKind Schema.nodeKind).length ∧
      tally.calls + tally.dropped = edges.length ∧
      ∃ fates : List (Call ⊕ DroppedCall),
        List.Forall₂ (Fate setting.idOf naming source known) edges fates ∧
        t.graph.calls.toList = s.graph.calls.toList ++ fates.filterMap Sum.getLeft? ∧
        t.graph.dropped.toList = s.graph.dropped.toList ++ fates.filterMap Sum.getRight? ∧
        (fates.filterMap Sum.getLeft?).length = tally.calls ∧
        (fates.filterMap Sum.getRight?).length = tally.dropped ∧
        ∀ edge fate, (edge, fate) ∈ edges.zip fates → ∀ caller callee,
          edge.field? Schema.edgeSource = some caller →
          edge.field? Schema.edgeTarget = some callee →
          (fate.isRight = true ↔ ¬ known (naming caller) ∨ ¬ known (naming callee)) ∧
          (∀ dropped, fate = .inr dropped →
            (¬ known (naming caller) ∧ dropped.missing = "source" ∨
              known (naming caller) ∧ dropped.missing = "target") ∧
            dropped.path = some source) ∧
          (caller ∈ titlesOf block → callee ∈ titlesOf block → fate.isRight = false) := by
  intro naming known edges
  obtain ⟨entries, hentries, hgraph⟩ := hs.exists_ledger
  obtain ⟨records, hrecords, ⟨hledger, hg⟩, rfl⟩ :=
    (foldBlock_iff (readsAs_resolve setting.demangle s.memo) hentries hgraph.symm source block
      tally t.graph).mp ⟨t, h, rfl⟩
  obtain rfl := source_of_recordsOf hrecords
  obtain ⟨hfunctions, hcalls⟩ := of_recordsOf hrecords
  have hknown : (fun name => knownWith options.locations entries [records] name = true) =
      known := by
    funext name
    rw [knownWith_iff hentries, hgraph, map_name_of_functionOf hfunctions]
    rfl
  obtain ⟨fates, hfates, hadded, hdropped⟩ :=
    exists_fates setting.idOf options.locations hcalls (callsAdded setting.idOf entries)
  rw [hknown] at hfates
  -- the graphs tell the calls of their ledgers
  have hbefore := hentries.recounts
  have hafter := hledger.recounts
  rw [hgraph] at hbefore
  rw [← hg] at hafter
  have hcallsLength : (fates.filterMap Sum.getLeft?).length =
      (callsAdded setting.idOf (records.calling options.locations
        (knownWith options.locations entries [records]))).length := by
    have hlength := congrArg List.length hadded
    simp only [numbered, List.length_mapIdx, List.length_append] at hlength
    exact (Nat.add_left_cancel hlength).symm
  have hedges : edges.length = records.calls.length := hcalls.length_eq
  rw [hedges, tally_calls_add_dropped, tally_eq setting.idOf options.locations]
  refine ⟨rfl, hfunctions.length_eq.symm, rfl, fates, hfates, ?_, ?_, hcallsLength,
    congrArg List.length hdropped.symm, ?_⟩
  · rw [hafter.calls, callsAdded_enteredWith, hbefore.calls]
    exact hadded
  · rw [hafter.dropped, callsDropped_enteredWith, hbefore.dropped]
    exact congrArg _ hdropped
  · intro edge fate hmem caller callee hcaller hcallee
    have hfate := List.forall₂_zip hfates hmem
    have hdropped_iff := hfate.isRight_iff hcaller hcallee
    refine ⟨hdropped_iff, fun dropped hright => hfate.missing_eq hright hcaller, ?_⟩
    intro htitle htitle'
    rw [Bool.eq_false_iff, Ne, hdropped_iff]
    rintro (hunknown | hunknown)
    · exact hunknown (.inr (List.mem_map_of_mem htitle))
    · exact hunknown (.inr (List.mem_map_of_mem htitle'))

/-- A demangler that reads one symbol. -/
def symbolSetting : Setting where
  idOf := Graph.lengthIds
  demangle symbol := some (if symbol = "_m" then "main" else symbol)

/-- A graph with one function. -/
def librarySession : Session where
  graph := after symbolSetting.idOf [.addFunction "lib" none .strict]

/-- A call of a later node, a call of the function that the graph has, a call without a known source
and one without a known target. -/
def mixedBlock : Block :=
  ⟨"graph", [.block "edge" [.field "sourcename" "_m", .field "targetname" "f"],
    .block "node" [.field "title" "_m", .field "label" "main"],
    .block "edge" [.field "sourcename" "f", .field "targetname" "lib"],
    .block "node" [.field "title" "f", .field "label" "f"],
    .block "edge" [.field "sourcename" "gg", .field "targetname" "f"],
    .block "edge" [.field "sourcename" "main", .field "targetname" "gg"]]⟩

theorem foldBlock_accounts_mixed :
    Reachable symbolSetting.idOf librarySession.graph ∧
      ∃ t, (foldBlock symbolSetting {} "d" mixedBlock).outcome librarySession =
          (.ok ⟨"d", 2, 2, 2⟩, t) ∧
        ∃ fates : List (Call ⊕ DroppedCall),
          t.graph.calls.toList = librarySession.graph.calls.toList ++
            fates.filterMap Sum.getLeft? ∧
          t.graph.dropped.toList = librarySession.graph.dropped.toList ++
            fates.filterMap Sum.getRight? ∧
          (fates.filterMap Sum.getLeft?).length = 2 ∧
          (fates.filterMap Sum.getRight?).length = 2 ∧
          ∀ edge fate, (edge, fate) ∈ (mixedBlock.blocksOfKind "edge").zip fates →
            edge.field? "sourcename" = some "_m" → edge.field? "targetname" = some "f" →
            fate.isRight = false := by
  have hreachable : Reachable symbolSetting.idOf librarySession.graph := by
    unfold librarySession
    exact ⟨[.addFunction "lib" none .strict], rfl⟩
  have hresult : ((foldBlock symbolSetting {} "d" mixedBlock).outcome librarySession).1 =
      .ok ⟨"d", 2, 2, 2⟩ := by
    cbv
  rcases hfold : (foldBlock symbolSetting {} "d" mixedBlock).outcome librarySession with ⟨result, t⟩
  rw [hfold] at hresult
  obtain rfl : result = _ := hresult
  obtain ⟨-, -, -, fates, -, hcalls, hdropped, hadded, hlost, hfates⟩ :=
    foldBlock_accounts symbolSetting {} hreachable hfold
  refine ⟨hreachable, t, rfl, fates, hcalls, hdropped, hadded, hlost, ?_⟩
  intro edge fate hmem hcaller hcallee
  exact (hfates edge fate hmem "_m" "f" hcaller hcallee).2.2 (by decide) (by decide)

end CallAtlas.Ingest
