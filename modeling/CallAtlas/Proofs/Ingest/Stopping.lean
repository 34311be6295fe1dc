import CallAtlas.Proofs.Ingest.Faults

/-!
# Where folding stops

Folding dumps first collects their records and then enters these in the graph, functions before
calls.  A failure to collect leaves the graph as it was.  A failure to enter leaves the graph that
the steps before the failing one lead to, and nothing of that step.

## Main definitions

* `Failure.isOfCollecting`, `Failure.isOfEntering`: the failures of the two phases
* `FailsWith x s failure g'`: the action `x` fails and leaves the graph `g'`
* `Stopped idOf strictness g collected failure g'`: where folding the dumps `collected` stops
* `StoppedAmong idOf strictness collected paths g failure g'`: where folding files in order stops

## Main results

* `failsWith_bind_iff`: collecting and entering fail where they stop
* `foldFile_failsWith_iff`, `foldTogether_failsWith_iff`, `foldEach_failsWith_iff`: one file, files
  that are folded together, and files in order
* `fold_fails_iff_stopped`: what is left of a graph when folding fails
-/

namespace CallAtlas

/-- A failure to read a file, or to make a call graph of what it holds. -/
def Failure.isOfCollecting : Failure → Bool
  | .unreadable _ => true
  | .tooDeep => true
  | .digitLimit _ => false
  | .unwritable => false
  | .unencodable _ => false
  | .diagnosed diagnostic =>
    match diagnostic.cause with
    | .malformedDump _ => true
    | .schema _ => true
    | _ => false

/-- A failure to enter a record: its place cannot be read, or its name has no id or the id of
another. -/
def Failure.isOfEntering : Failure → Bool
  | .digitLimit _ => true
  | .unencodable _ => true
  | .unreadable _ => false
  | .tooDeep => false
  | .unwritable => false
  | .diagnosed diagnostic =>
    match diagnostic.cause with
    | .location _ => true
    | .idCollision .. => true
    | _ => false

theorem Failure.isOfCollecting_of_isOfEntering {failure : Failure}
    (h : failure.isOfEntering = true) : failure.isOfCollecting = false := by
  cases failure with
  | unreadable fault => cases h
  | tooDeep => cases h
  | unwritable => cases h
  | digitLimit count => rfl
  | unencodable fault => rfl
  | diagnosed diagnostic =>
    obtain ⟨cause, path, line, column⟩ := diagnostic
    cases cause with
    | location fault => rfl
    | idCollision id owner incoming => rfl
    | _ => cases h

namespace Ingest

open CallAtlas.Dump (Block)
open CallAtlas.Graph (Reachable)

/-- On the session `s` the action `x` fails, and leaves the graph `g'`. -/
def FailsWith {α : Type} (x : Action α) (s : Session) (failure : Failure) (g' : Graph) : Prop :=
  ∃ t, x.outcome s = (.error failure, t) ∧ t.graph = g'

/-- **Where folding dumps into the graph `g` stops**, given what collecting them came to.  Either
they cannot be collected, and the graph stays as it is; or one of their steps fails, and the graph
is the one that exactly the steps before it lead to, which has the calls and the dropped calls of
`g` if that step is the registration of a function. -/
inductive Stopped (idOf : IdScheme) (strictness : Strictness) (g : Graph) :
    Except Failure (List Records) → Failure → Graph → Prop
  | collecting {failure : Failure} (hkind : failure.isOfCollecting = true) :
      Stopped idOf strictness g (.error failure) failure g
  | entering {batches : List Records} {done rest : List Step} {step : Step} {cause : Failure}
      {g' : Graph} (hsteps : stepsOf strictness g batches = done ++ step :: rest)
      (hdone : enterSteps idOf done g = (.ok (), g'))
      (hstep : (step.operation.attempt idOf g').result = .error cause)
      (hkind : (cause.locatedIn step.source).isOfEntering = true)
      (hcalls : step.operation.registration?.isSome = true →
        g'.calls = g.calls ∧ g'.dropped = g.dropped) :
      Stopped idOf strictness g (.ok batches) (cause.locatedIn step.source) g'

/-- Where folding files in order stops, given what each comes to: those before the file at fault are
entered whole. -/
inductive StoppedAmong (idOf : IdScheme) (strictness : Strictness)
    (collected : String → Except Failure Records) :
    List String → Graph → Failure → Graph → Prop
  | here {path : String} {later : List String} {g g' : Graph} {failure : Failure}
      (hstopped : Stopped idOf strictness g ((collected path).map ([·])) failure g') :
      StoppedAmong idOf strictness collected (path :: later) g failure g'
  | later {path : String} {later : List String} {records : Records} {g mid g' : Graph}
      {failure : Failure} (hrecords : collected path = .ok records)
      (hentered : enterSteps idOf (stepsOf strictness g [records]) g = (.ok (), mid))
      (hlater : StoppedAmong idOf strictness collected later mid failure g') :
      StoppedAmong idOf strictness collected (path :: later) g failure g'

/-! ## Kinds of failure -/

theorem isOfCollecting_of_refused {setting : Setting} {options : Options} {path : String}
    {failure : Failure} (h : Refused setting options path failure) :
    failure.isOfCollecting = true := by
  cases h <;> rfl

theorem isOfEntering_of_rejected {idOf : IdScheme} {strictness : Strictness} {g : Graph}
    {records : Records} {cause : Failure} (h : Rejected idOf strictness g records cause)
    (source : String) : (cause.locatedIn source).isOfEntering = true := by
  cases h with
  | definition _ hplace => cases hplace <;> rfl
  | site _ hplace => cases hplace <;> rfl
  | name => rfl
  | collision => rfl

/-! ## Collecting and entering -/

section Stopped

variable {α β : Type} {idOf : IdScheme} {strictness : Strictness} {g g' : Graph}
  {failure : Failure}

theorem stopped_error_iff {cause : Failure} (hkind : cause.isOfCollecting = true) :
    Stopped idOf strictness g (.error cause) failure g' ↔ cause = failure ∧ g = g' := by
  constructor
  · rintro ⟨-⟩
    exact ⟨rfl, rfl⟩
  · rintro ⟨rfl, rfl⟩
    exact .collecting hkind

/-- Entering stops at the first step that fails. -/
theorem stopped_ok_iff (hg : Reachable idOf g) {batches : List Records} :
    Stopped idOf strictness g (.ok batches) failure g' ↔
      enterSteps idOf (stepsOf strictness g batches) g = (.error failure, g') := by
  rw [enterSteps_eq_error_iff]
  constructor
  · intro h
    cases h with
    | entering hsteps hdone hstep => exact ⟨_, _, _, _, hsteps, hdone, hstep, rfl⟩
  · rintro ⟨done, step, rest, cause, hsteps, hdone, hstep, rfl⟩
    obtain ⟨records, -, -, hrejected⟩ := rejected_of_attempt hg hsteps hdone hstep
    refine .entering hsteps hdone hstep (isOfEntering_of_rejected hrejected step.source) ?_
    intro hregistration
    -- before a function there are only functions, and a call is no registration
    obtain ⟨records, -, ⟨record, -, -, hfunctions⟩ | ⟨record, -, rfl, -⟩⟩ := stepsOf_cases hsteps
    · exact calls_of_enterSteps hfunctions hdone
    · rw [record.registration?_operation] at hregistration
      cases hregistration

/-- The failures of the two phases differ, so one of collecting tells that nothing was entered. -/
theorem Stopped.eq_of_isOfCollecting {collected : Except Failure (List Records)}
    (h : Stopped idOf strictness g collected failure g') (hkind : failure.isOfCollecting = true) :
    g' = g := by
  cases h with
  | collecting => rfl
  | entering _ _ _ hentering =>
    rw [Failure.isOfCollecting_of_isOfEntering hentering] at hkind
    cases hkind

theorem failsWith_mapM_cons_iff {f : α → Action β} {a : α} {as : List α} {s : Session} :
    FailsWith ((a :: as).mapM f) s failure g' ↔
      FailsWith (f a) s failure g' ∨
        ∃ b s', (f a).outcome s = (.ok b, s') ∧ FailsWith (as.mapM f) s' failure g' := by
  rw [List.mapM_cons]
  constructor
  · rintro ⟨t, h, rfl⟩
    rcases Action.outcome_bind_eq_error_iff.mp h with h | ⟨b, s', hb, h⟩
    · exact .inl ⟨t, h, rfl⟩
    · rcases Action.outcome_bind_eq_error_iff.mp h with h | ⟨rest, t', -, h⟩
      · exact .inr ⟨b, s', hb, t, h, rfl⟩
      · rw [Action.outcome_pure] at h
        cases h
  · rintro (⟨t, h, rfl⟩ | ⟨b, s', hb, t, h, rfl⟩)
    · exact ⟨t, Action.outcome_bind_eq_error_iff.mpr (.inl h), rfl⟩
    · exact ⟨t, Action.outcome_bind_eq_error_iff.mpr
        (.inr ⟨b, s', hb, Action.outcome_bind_eq_error_iff.mpr (.inl h)⟩), rfl⟩

/-- **Collecting and entering fail where they stop.** -/
theorem failsWith_bind_iff {x : Action α} {f : α → Action β} (batches : α → List Records)
    {s : Session} (hs : Reachable idOf s.graph) (hgraph : (x.outcome s).2.graph = s.graph)
    (hkind : ∀ cause, (x.outcome s).1 = .error cause → cause.isOfCollecting = true)
    (hf : ∀ a s', x.outcome s = (.ok a, s') →
      Enters idOf (f a) (stepsOf strictness s'.graph (batches a)) s') :
    FailsWith (x >>= f) s failure g' ↔
      Stopped idOf strictness s.graph ((x.outcome s).1.map batches) failure g' := by
  rw [FailsWith, Action.outcome_bind]
  rcases hout : x.outcome s with ⟨cause | a, s'⟩
  · rw [hout] at hgraph hkind
    rw [Except.map, stopped_error_iff (hkind cause rfl)]
    simp only [Prod.mk.injEq, Except.error.injEq]
    constructor
    · rintro ⟨t, ⟨rfl, rfl⟩, rfl⟩
      exact ⟨rfl, hgraph.symm⟩
    · rintro ⟨rfl, rfl⟩
      exact ⟨s', ⟨rfl, rfl⟩, hgraph⟩
  · rw [hout] at hgraph
    rw [Except.map, stopped_ok_iff hs, ← hgraph]
    exact (hf a s' hout).fails_iff

end Stopped

/-! ## Folding -/

section Folding

variable {setting : Setting} {options : Options} {nameOf : String → String} {s : Session}
  {failure : Failure} {g' : Graph}

/-- One dump. -/
theorem foldBlock_failsWith_iff (hs : Reachable setting.idOf s.graph) (source : String)
    (block : Block) :
    FailsWith (foldBlock setting options source block) s failure g' ↔
      Stopped setting.idOf options.locations s.graph
        (((collect setting.demangle options source block).outcome s).1.map ([·])) failure g' := by
  obtain ⟨hresult, hgraph, -⟩ := answers_collect options source block s
    (readsAs_resolve setting.demangle s.memo)
  refine failsWith_bind_iff (fun records => [records]) hs hgraph ?_ ?_
  · intro cause hcause
    obtain ⟨fault, rfl, -⟩ := schemaFaultOf_of_recordsOf (hresult.symm.trans hcause)
    rfl
  · intro records s' hcollect
    rw [hcollect] at hresult hgraph
    obtain rfl := source_of_recordsOf hresult.symm
    exact enters_enterRecords setting options records (hgraph ▸ hs)

/-- One file. -/
theorem foldFile_failsWith_iff (hs : Reachable setting.idOf s.graph) (path : String) :
    FailsWith (foldFile setting options path) s failure g' ↔
      Stopped setting.idOf options.locations s.graph
        (((collectFile setting options path).outcome s).1.map ([·])) failure g' := by
  obtain ⟨hresult, hgraph, -⟩ := answers_collectFile setting options _ path s
    (readsAs_resolve setting.demangle s.memo)
  rw [foldFile_eq]
  refine failsWith_bind_iff (fun records => [records]) hs hgraph ?_ ?_
  · intro cause hcause
    exact isOfCollecting_of_refused (refused_of_fileRecordsOf (hresult.symm.trans hcause))
  · intro records s' hcollect
    rw [hcollect] at hresult hgraph
    obtain rfl := source_of_fileRecordsOf hresult.symm
    exact enters_enterRecords setting options records (hgraph ▸ hs)

/-- Files that are folded together. -/
theorem foldTogether_failsWith_iff (hs : Reachable setting.idOf s.graph) (paths : List String) :
    FailsWith (foldTogether setting options paths) s failure g' ↔
      Stopped setting.idOf options.locations s.graph
        ((paths.mapM (collectFile setting options)).outcome s).1 failure g' := by
  obtain ⟨hresult, hgraph, -⟩ :=
    Answers.mapM (answers_collectFile setting options _) paths s
      (readsAs_resolve setting.demangle s.memo)
  rw [foldTogether_eq, failsWith_bind_iff id hs hgraph]
  · rw [Except.map_id, id]
  · intro cause hcause
    obtain ⟨path, -, hpath⟩ := exists_of_mapM_eq_error (hresult.symm.trans hcause)
    exact isOfCollecting_of_refused (refused_of_fileRecordsOf hpath)
  · intro batches s' hcollect
    rw [hcollect] at hgraph
    exact enters_batches batches (hgraph ▸ hs)

/-- Files that are folded together are all collected first, so one that fails stops all. -/
theorem foldTogether_of_collectFile_eq_error (hs : Reachable setting.idOf s.graph)
    {paths : List String} {path : String} {cause : Failure} (hpath : path ∈ paths)
    (hcause : ((collectFile setting options path).outcome s).1 = .error cause) :
    ∃ failure, failure.isOfCollecting = true ∧
      FailsWith (foldTogether setting options paths) s failure s.graph := by
  have hreads := readsAs_resolve setting.demangle s.memo
  obtain ⟨hresult, -, -⟩ := answers_collectFile setting options _ path s hreads
  obtain ⟨hresults, -, -⟩ := Answers.mapM (answers_collectFile setting options _) paths s hreads
  cases hcollected : ((paths.mapM (collectFile setting options)).outcome s).1 with
  | error failure =>
    rw [hcollected] at hresults
    obtain ⟨first, -, hfirst⟩ := exists_of_mapM_eq_error hresults.symm
    have hkind := isOfCollecting_of_refused (refused_of_fileRecordsOf hfirst)
    refine ⟨failure, hkind, (foldTogether_failsWith_iff hs paths).mpr ?_⟩
    rw [hcollected]
    exact .collecting hkind
  | ok batches =>
    -- all files would have records, the one that fails among them
    rw [hcollected] at hresults
    obtain ⟨rfl, hrecords⟩ := filesHold_iff.mp (mapM_eq_ok_iff_forall₂.mp hresults.symm)
    obtain ⟨records, hmem, rfl⟩ := List.mem_map.mp hpath
    rw [hresult, hrecords records hmem] at hcause
    cases hcause

/-- A file that is folded is entered whole, and leaves the reading of names. -/
theorem foldFile_eq_ok {path : String} {tally : Tally} {t : Session}
    (hs : Reachable setting.idOf s.graph) (hreads : ReadsAs setting.demangle s.memo nameOf)
    (h : (foldFile setting options path).outcome s = (.ok tally, t)) :
    ∃ records, fileRecordsOf setting options nameOf path = .ok records ∧
      enterSteps setting.idOf (stepsOf options.locations s.graph [records]) s.graph =
        (.ok (), t.graph) ∧
      ReadsAs setting.demangle t.memo nameOf := by
  obtain ⟨hresult, hgraph, hreads'⟩ := answers_collectFile setting options nameOf path s hreads
  rw [foldFile_eq] at h
  obtain ⟨records, s', hcollect, h⟩ := Action.outcome_bind_eq_ok_iff.mp h
  rw [hcollect] at hresult hgraph hreads'
  obtain rfl := source_of_fileRecordsOf hresult.symm
  have h : (enterRecords setting options records).outcome s' = (.ok tally, t) := h
  have hs' : Reachable setting.idOf s'.graph := hgraph ▸ hs
  have henters := enters_enterRecords setting options records hs'
  refine ⟨records, hresult.symm, ?_, ?_⟩
  · rw [← hgraph]
    exact henters.succeeds_iff.mp ⟨tally, t, h, rfl⟩
  · have hmemo := henters.memo_eq
    rw [h] at hmemo
    rw [hmemo]
    exact hreads'

theorem foldFile_of_enterSteps {path : String} {records : Records} {mid : Graph}
    (hs : Reachable setting.idOf s.graph) (hreads : ReadsAs setting.demangle s.memo nameOf)
    (hrecords : fileRecordsOf setting options nameOf path = .ok records)
    (hentered : enterSteps setting.idOf (stepsOf options.locations s.graph [records]) s.graph =
      (.ok (), mid)) :
    ∃ tally t, (foldFile setting options path).outcome s = (.ok tally, t) ∧ t.graph = mid := by
  obtain ⟨hresult, hgraph, -⟩ := answers_collectFile setting options nameOf path s hreads
  rcases hcollect : (collectFile setting options path).outcome s with ⟨result, s'⟩
  rw [hcollect] at hresult hgraph
  obtain rfl : result = .ok records := hresult.trans hrecords
  obtain rfl := source_of_fileRecordsOf hrecords
  rw [← hgraph] at hs hentered
  obtain ⟨tally, t, h, hmid⟩ :=
    (enters_enterRecords setting options records hs).succeeds_iff.mpr hentered
  rw [foldFile_eq]
  exact ⟨tally, t, Action.outcome_bind_eq_ok_iff.mpr ⟨records, s', hcollect, h⟩, hmid⟩

/-- Files that are folded in order. -/
theorem foldEach_failsWith_iff (hs : Reachable setting.idOf s.graph)
    (hreads : ReadsAs setting.demangle s.memo nameOf) (paths : List String) :
    FailsWith (paths.mapM (foldFile setting options)) s failure g' ↔
      StoppedAmong setting.idOf options.locations (fileRecordsOf setting options nameOf) paths
        s.graph failure g' := by
  -- names are read alike in all sessions on the way, so the records of each file are fixed
  induction paths generalizing s with
  | nil =>
    rw [List.mapM_nil, FailsWith, Action.outcome_pure]
    constructor
    · rintro ⟨t, ⟨⟩, -⟩
    · rintro ⟨⟩
  | cons path rest ih =>
    rw [failsWith_mapM_cons_iff, foldFile_failsWith_iff hs,
      (answers_collectFile setting options nameOf path s hreads).1]
    constructor
    · rintro (hstopped | ⟨tally, s', hfold, hrest⟩)
      · exact .here hstopped
      · obtain ⟨records, hrecords, hentered, hreads'⟩ := foldFile_eq_ok hs hreads hfold
        exact .later hrecords hentered
          ((ih (reachable_of_enterSteps hs hentered) hreads').mp hrest)
    · intro h
      cases h with
      | here hstopped => exact .inl hstopped
      | later hrecords hentered hlater =>
        obtain ⟨tally, s', hfold, rfl⟩ := foldFile_of_enterSteps hs hreads hrecords hentered
        obtain ⟨-, -, -, hreads'⟩ := foldFile_eq_ok hs hreads hfold
        exact .inr ⟨tally, s', hfold, (ih (reachable_of_enterSteps hs hentered) hreads').mpr hlater⟩

theorem foldFiles_inOrder_failsWith_iff (hs : Reachable setting.idOf s.graph)
    (horder : options.resolveAcrossFiles = false) (paths : List String) :
    FailsWith (foldFiles setting options paths) s failure g' ↔
      StoppedAmong setting.idOf options.locations
        (fun path => ((collectFile setting options path).outcome s).1) paths s.graph failure
        g' := by
  have hreads := readsAs_resolve setting.demangle s.memo
  -- what a file comes to does not depend on when it is read
  have hcollected : (fun path => ((collectFile setting options path).outcome s).1) =
      fileRecordsOf setting options _ :=
    funext fun path => (answers_collectFile setting options _ path s hreads).1
  rw [foldFiles, if_neg (Bool.not_eq_true _ ▸ horder), hcollected]
  exact foldEach_failsWith_iff hs hreads paths

end Folding

/-- **What is left of a graph when folding fails.**  Folding a dump, a file or files fails exactly
where it stops: if they cannot be collected the graph is as it was, and if a record cannot be
entered the graph is the one that the records before it lead to, functions before calls.  Where
names are resolved across files, all files are collected before anything is entered, so the graph is
as it was if any of them cannot be; otherwise those before the file at fault are entered whole. -/
theorem fold_fails_iff_stopped (setting : Setting) (options : Options) {s : Session}
    (hs : Reachable setting.idOf s.graph) (failure : Failure) (g' : Graph) :
    (∀ source block, FailsWith (foldBlock setting options source block) s failure g' ↔
      Stopped setting.idOf options.locations s.graph
        (((collect setting.demangle options source block).outcome s).1.map ([·])) failure g') ∧
    (∀ path, FailsWith (foldFile setting options path) s failure g' ↔
      Stopped setting.idOf options.locations s.graph
        (((collectFile setting options path).outcome s).1.map ([·])) failure g') ∧
    (options.resolveAcrossFiles = true → ∀ paths,
      (FailsWith (foldFiles setting options paths) s failure g' ↔
        Stopped setting.idOf options.locations s.graph
          ((paths.mapM (collectFile setting options)).outcome s).1 failure g') ∧
      ∀ path ∈ paths, ∀ cause, ((collectFile setting options path).outcome s).1 = .error cause →
        ∃ first, first.isOfCollecting = true ∧
          FailsWith (foldFiles setting options paths) s first s.graph) ∧
    (options.resolveAcrossFiles = false → ∀ paths,
      (FailsWith (foldFiles setting options paths) s failure g' ↔
        StoppedAmong setting.idOf options.locations
          (fun path => ((collectFile setting options path).outcome s).1) paths s.graph failure
          g')) ∧
    (∀ collected, Stopped setting.idOf options.locations s.graph collected failure g' →
      failure.isOfCollecting = true → g' = s.graph) := by
  refine ⟨foldBlock_failsWith_iff hs, foldFile_failsWith_iff hs, ?_, ?_, ?_⟩
  · intro hresolve paths
    rw [foldFiles, if_pos hresolve]
    exact ⟨foldTogether_failsWith_iff hs paths, fun path hpath cause hcause =>
      foldTogether_of_collectFile_eq_error hs hpath hcause⟩
  · intro horder paths
    exact foldFiles_inOrder_failsWith_iff hs horder paths
  · intro collected hstopped hcollecting
    exact hstopped.eq_of_isOfCollecting hcollecting

/-- A dump whose second function has no line number where one should stand, and with a call. -/
def misplacedBlock : Block :=
  ⟨"graph", [.block "node" [.field "title" "f", .field "label" "f\\nf.c:1:2"],
    .block "node" [.field "title" "gg", .field "label" "gg\\nf.c:x:2"],
    .block "edge" [.field "sourcename" "f", .field "targetname" "f"]]⟩

/-- Names that are read as they stand, and no file. -/
def emptySetting : Setting where
  idOf := Graph.lengthIds
  demangle := some

theorem fold_fails_iff_stopped_misplaced :
    Reachable emptySetting.idOf ({} : Session).graph ∧
      (∃ g', Stopped emptySetting.idOf .strict {}
          (.ok [⟨"d", [⟨"f", "f.c:1:2"⟩, ⟨"gg", "f.c:x:2"⟩], [⟨"f", "f", "intrinsic"⟩]⟩])
          (.diagnosed { cause := .location (.notANumber .line "x" "f.c:x:2"), path := some "d" })
          g' ∧ g'.functions = ["f"] ∧ g'.calls = #[]) ∧
      ∃ first, first.isOfCollecting = true ∧
        FailsWith (foldFiles emptySetting { resolveAcrossFiles := true } ["a", "b"]) {} first
          {} := by
  have hreachable : Reachable emptySetting.idOf ({} : Session).graph := ⟨[], rfl⟩
  have hcollect : ((collect emptySetting.demangle {} "d" misplacedBlock).outcome {}).1.map ([·]) =
      .ok [⟨"d", [⟨"f", "f.c:1:2"⟩, ⟨"gg", "f.c:x:2"⟩], [⟨"f", "f", "intrinsic"⟩]⟩] := by
    cbv
  have hfails : ((foldBlock emptySetting {} "d" misplacedBlock).outcome {}).1 =
      .error (.diagnosed
        { cause := .location (.notANumber .line "x" "f.c:x:2"), path := some "d" }) := by
    cbv
  have hfunctions :
      ((foldBlock emptySetting {} "d" misplacedBlock).outcome {}).2.graph.functions = ["f"] := by
    cbv
  have hcalls :
      ((foldBlock emptySetting {} "d" misplacedBlock).outcome {}).2.graph.calls = #[] := by
    cbv
  have hmissing : ((collectFile emptySetting { resolveAcrossFiles := true } "b").outcome {}).1 =
      .error (.unreadable (.missing ⟨"", ["b"]⟩)) := by
    cbv
  obtain ⟨hblock, -⟩ := fold_fails_iff_stopped emptySetting {} hreachable
    (.diagnosed { cause := .location (.notANumber .line "x" "f.c:x:2"), path := some "d" })
    ((foldBlock emptySetting {} "d" misplacedBlock).outcome {}).2.graph
  obtain ⟨-, -, hresolved, -⟩ := fold_fails_iff_stopped emptySetting { resolveAcrossFiles := true }
    hreachable (.unreadable (.missing ⟨"", ["b"]⟩)) {}
  have hstopped := (hblock "d" misplacedBlock).mp ⟨_, Prod.ext hfails rfl, rfl⟩
  rw [hcollect] at hstopped
  exact ⟨hreachable, ⟨_, hstopped, hfunctions, hcalls⟩,
    (hresolved rfl ["a", "b"]).2 "b" (by simp) _ hmissing⟩

end Ingest

end CallAtlas
