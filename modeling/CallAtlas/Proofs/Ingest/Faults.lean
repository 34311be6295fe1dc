import CallAtlas.Proofs.Ingest.Steps

/-!
# Faults of dumps

How a dump can fail to be folded.  Its file is refused if it gives no text, if the text is no dump,
or if the dump is no call graph.  A record of it is rejected if its place is malformed or has a
number with too many digits, or if its name has no id or the id of another.

## Main definitions

* `SchemaFaultOf block fault`: what keeps a block from being a call graph
* `Refused setting options path failure`: why a file has no records
* `Rejected idOf strictness g records failure`: why a record of a dump cannot be entered in a graph

## Main results

* `schemaFaultOf_of_recordsOf`, `refused_of_fileRecordsOf`: how collecting fails
* `stepsOf_cases`: what the steps before a given one are
* `rejected_of_attempt`: how entering fails
-/

namespace CallAtlas.Ingest

open CallAtlas.Dump (Block)
open CallAtlas.Graph (Misplaced Operation Reachable)

/-! ## Collecting -/

/-- The fields that a call graph needs, each with the kind of block that needs it. -/
def requiredFields : List (String × String) :=
  [(Schema.nodeKind, Schema.nodeTitle), (Schema.nodeKind, Schema.nodeLabel),
    (Schema.edgeKind, Schema.edgeSource), (Schema.edgeKind, Schema.edgeTarget)]

/-- What keeps a block from being a call graph: its kind, or a field that a block in it lacks. -/
inductive SchemaFaultOf (block : Block) : SchemaFault → Prop
  | notAGraph (hkind : block.kind ≠ Schema.graphKind) : SchemaFaultOf block (.notAGraph block.kind)
  | missingField {part : Block} {key : String} (hpart : part ∈ block.blocks)
      (hrequired : (part.kind, key) ∈ requiredFields) (hfield : part.field? key = none) :
      SchemaFaultOf block (.missingField part.kind key)

/-- Why a file has no records: it gives no text, its text nests too deeply or is no dump, or its
dump is no call graph. -/
inductive Refused (setting : Setting) (options : Options) (path : String) : Failure → Prop
  | unreadable {fault : FileFault}
      (htext : setting.files.readText (Path.ofString path) options.encoding = .error fault) :
      Refused setting options path (.unreadable fault)
  | tooDeep {text : String}
      (htext : setting.files.readText (Path.ofString path) options.encoding = .ok text)
      (hdeep : canDescend text = false) : Refused setting options path .tooDeep
  | malformed {text excerpt : String} {line column : Int}
      (htext : setting.files.readText (Path.ofString path) options.encoding = .ok text)
      (hparse : Dump.parse text (some (Path.ofString path).toString) =
        .error ⟨.malformedDump (.near excerpt), some (Path.ofString path).toString, line, column⟩) :
      Refused setting options path
        (.diagnosed ⟨.malformedDump (.near excerpt), some (Path.ofString path).toString, line,
          column⟩)
  | schema {block : Block} {fault : SchemaFault}
      (hdump : dumpOf setting.files options.encoding path = .ok block)
      (hfault : SchemaFaultOf block fault) :
      Refused setting options path (schemaFailure path fault)

section Collecting

variable {naming : String → String} {source : String} {block : Block} {failure : Failure}

theorem bind_eq_error_iff {ε α β : Type} {x : Except ε α} {f : α → Except ε β} {e : ε} :
    (x >>= f) = .error e ↔ x = .error e ∨ ∃ a, x = .ok a ∧ f a = .error e := by
  cases x with
  | error e' => simp [Bind.bind, Except.bind]
  | ok a => simp [Bind.bind, Except.bind]

theorem exists_of_mapM_eq_error {ε α β : Type} {f : α → Except ε β} {as : List α} {e : ε}
    (h : as.mapM f = .error e) : ∃ a ∈ as, f a = .error e := by
  induction as with
  | nil => simp [pure, Except.pure] at h
  | cons a as ih =>
    rw [List.mapM_cons, bind_eq_error_iff] at h
    rcases h with h | ⟨b, -, h⟩
    · exact ⟨a, List.mem_cons_self, h⟩
    · rcases bind_eq_error_iff.mp h with h | ⟨rest, -, h⟩
      · obtain ⟨a', ha', h⟩ := ih h
        exact ⟨a', List.mem_cons_of_mem a ha', h⟩
      · cases h

theorem fieldOf_eq_error_iff {key : String} :
    fieldOf source block key = .error failure ↔
      block.field? key = none ∧ failure = schemaFailure source (.missingField block.kind key) := by
  unfold fieldOf
  cases block.field? key with
  | some value => simp
  | none => simp [eq_comm]

/-- A node fails for the want of a title or a label. -/
theorem functionOf_eq_error (h : functionOf naming source block = .error failure) :
    ∃ key, (Schema.nodeKind, key) ∈ requiredFields ∧ block.field? key = none ∧
      failure = schemaFailure source (.missingField block.kind key) := by
  rcases bind_eq_error_iff.mp h with h | ⟨title, -, h⟩
  · exact ⟨Schema.nodeTitle, by simp [requiredFields], fieldOf_eq_error_iff.mp h⟩
  · rcases bind_eq_error_iff.mp h with h | ⟨label, -, h⟩
    · exact ⟨Schema.nodeLabel, by simp [requiredFields], fieldOf_eq_error_iff.mp h⟩
    · cases h

/-- An edge fails for the want of an end. -/
theorem callOf_eq_error (h : callOf naming source block = .error failure) :
    ∃ key, (Schema.edgeKind, key) ∈ requiredFields ∧ block.field? key = none ∧
      failure = schemaFailure source (.missingField block.kind key) := by
  rcases bind_eq_error_iff.mp h with h | ⟨caller, -, h⟩
  · exact ⟨Schema.edgeSource, by simp [requiredFields], fieldOf_eq_error_iff.mp h⟩
  · rcases bind_eq_error_iff.mp h with h | ⟨callee, -, h⟩
    · exact ⟨Schema.edgeTarget, by simp [requiredFields], fieldOf_eq_error_iff.mp h⟩
    · cases h

/-- A block of some kind in a dump that lacks a field it needs. -/
theorem schemaFaultOf_of_mem_blocksOfKind {kind key : String} {part : Block}
    (hpart : part ∈ block.blocksOfKind kind) (hrequired : (kind, key) ∈ requiredFields)
    (hfield : part.field? key = none) : SchemaFaultOf block (.missingField part.kind key) := by
  obtain ⟨hmem, hkind⟩ := List.mem_filter.mp hpart
  obtain rfl := of_decide_eq_true hkind
  exact .missingField hmem hrequired hfield

/-- **A dump without records is no call graph.** -/
theorem schemaFaultOf_of_recordsOf (h : recordsOf naming source block = .error failure) :
    ∃ fault, failure = schemaFailure source fault ∧ SchemaFaultOf block fault := by
  unfold recordsOf at h
  by_cases hkind : block.kind = Schema.graphKind
  · rw [if_neg (not_not_intro hkind)] at h
    rcases bind_eq_error_iff.mp h with h | ⟨functions, -, h⟩
    · obtain ⟨node, hnode, h⟩ := exists_of_mapM_eq_error h
      obtain ⟨key, hrequired, hfield, rfl⟩ := functionOf_eq_error h
      exact ⟨_, rfl, schemaFaultOf_of_mem_blocksOfKind hnode hrequired hfield⟩
    · rcases bind_eq_error_iff.mp h with h | ⟨calls, -, h⟩
      · obtain ⟨edge, hedge, h⟩ := exists_of_mapM_eq_error h
        obtain ⟨key, hrequired, hfield, rfl⟩ := callOf_eq_error h
        exact ⟨_, rfl, schemaFaultOf_of_mem_blocksOfKind hedge hrequired hfield⟩
      · cases h
  · rw [if_pos hkind] at h
    exact ⟨_, (Except.error.inj h).symm, .notAGraph hkind⟩

/-- A text that is no dump is reported as malformed, for the file it is read from. -/
theorem malformed_of_parse {text : String} {file : Option String} {diagnostic : Diagnostic}
    (h : Dump.parse text file = .error diagnostic) :
    ∃ excerpt line column, diagnostic = ⟨.malformedDump (.near excerpt), file, line, column⟩ := by
  unfold Dump.parse at h
  cases hread : Dump.readDocument text.toList with
  | ok block => simp [hread] at h
  | error left =>
    rw [hread] at h
    rw [← Except.error.inj h]
    exact ⟨_, _, _, rfl⟩

/-- **A file without records is refused.** -/
theorem refused_of_fileRecordsOf {setting : Setting} {options : Options}
    {nameOf : String → String} {path : String}
    (h : fileRecordsOf setting options nameOf path = .error failure) :
    Refused setting options path failure := by
  rcases bind_eq_error_iff.mp h with h | ⟨block, hblock, h⟩
  · unfold dumpOf at h
    cases htext : setting.files.readText (Path.ofString path) options.encoding with
    | error fault =>
      rw [htext] at h
      rw [← Except.error.inj h]
      exact .unreadable htext
    | ok text =>
      simp only [htext, blockOf] at h
      split at h
      · cases hparse : Dump.parse text (some (Path.ofString path).toString) with
        | ok block => simp [hparse] at h
        | error diagnostic =>
          rw [hparse] at h
          obtain ⟨excerpt, line, column, rfl⟩ := malformed_of_parse hparse
          rw [← Except.error.inj h]
          exact .malformed htext hparse
      · next hdeep =>
        rw [← Except.error.inj h]
        exact .tooDeep htext (Bool.eq_false_iff.mpr hdeep)
  · obtain ⟨fault, rfl, hfault⟩ := schemaFaultOf_of_recordsOf h
    exact .schema hblock hfault

end Collecting

/-! ## Entering -/

/-- Why a record of a dump cannot be entered in the graph `g`: its place cannot be read, its name
has no id, or another name in the graph has the id of its name. -/
inductive Rejected (idOf : IdScheme) (strictness : Strictness) (g : Graph)
    (records : Records) : Failure → Prop
  | definition {record : FunctionRecord} {failure : Failure} (hrecord : record ∈ records.functions)
      (hplace : Misplaced strictness record.location failure) :
      Rejected idOf strictness g records failure
  | site {record : CallRecord} {failure : Failure} (hrecord : record ∈ records.calls)
      (hplace : Misplaced strictness record.label failure) :
      Rejected idOf strictness g records failure
  | name {record : FunctionRecord} {fault : Text.EncodeFault}
      (hrecord : record ∈ records.functions) (hfault : idOf.fault? record.name = some fault) :
      Rejected idOf strictness g records (.unencodable fault)
  | collision {record : FunctionRecord} {owner : String} (hrecord : record ∈ records.functions)
      (howner : g.names[idOf record.name]? = some owner) (hother : owner ≠ record.name) :
      Rejected idOf strictness g records
        (.ofCause (.idCollision (idOf record.name) owner record.name))

section Entering

variable {idOf : IdScheme} {strictness : Strictness} {g g' : Graph} {cause : Failure}

/-- A function of a dump fails as its registration does. -/
theorem rejected_of_function {records : Records} {record : FunctionRecord}
    (hrecord : record ∈ records.functions)
    (h : ((record.operation strictness).attempt idOf g).result = .error cause) :
    Rejected idOf strictness g records cause := by
  cases Graph.addFunction_eq_error_iff.mp (Graph.void_eq_error_iff.mp h) with
  | place htext hplace =>
    obtain rfl := Option.some.inj htext
    exact .definition hrecord hplace
  | name _ hfault => exact .name hrecord hfault
  | collision _ _ howner hother =>
    exact .collision hrecord (Graph.nameOfId_eq_ok_iff.mp howner) hother

/-- A call of a dump fails by its place, as its ends are looked up before. -/
theorem rejected_of_call {records : Records} {record : CallRecord}
    (hrecord : record ∈ records.calls)
    (h : ((record.operation strictness records.source g.contains).attempt idOf g).result =
      .error cause) : Rejected idOf strictness g records cause := by
  unfold CallRecord.operation CallRecord.missing? at h
  cases hsource : g.contains record.source with
  | false => simp [hsource, Operation.attempt] at h
  | true =>
    cases htarget : g.contains record.target with
    | false => simp [hsource, htarget, Operation.attempt] at h
    | true =>
      simp only [hsource, htarget, Bool.not_true, Bool.false_eq_true, if_false] at h
      cases Graph.addCall_eq_error_iff.mp (Graph.void_eq_error_iff.mp h) with
      | source hunknown => simp [hsource] at hunknown
      | target _ hunknown => simp [htarget] at hunknown
      | place _ _ hplace => exact .site hrecord hplace

/-- **A step of dumps is a function**, with none but functions before it, **or a call**, with all
functions before it. -/
theorem stepsOf_cases {batches : List Records} {done rest : List Step} {step : Step}
    (h : stepsOf strictness g batches = done ++ step :: rest) :
    ∃ records ∈ batches,
      (∃ record ∈ records.functions, step = ⟨records.source, record.operation strictness⟩ ∧
        ∀ earlier ∈ done, earlier.operation.registration?.isSome = true) ∨
      ∃ record ∈ records.calls,
        step = ⟨records.source,
          record.operation strictness records.source (knownTo g batches)⟩ ∧
        ∃ calls, done = batches.flatMap (Records.functionSteps strictness) ++ calls ∧
          ∀ earlier ∈ calls, earlier.operation.registration? = none := by
  have hcall {later : Step}
      (hlater : later ∈ batches.flatMap (Records.callSteps strictness (knownTo g batches))) :
      ∃ records ∈ batches, ∃ record ∈ records.calls, later = ⟨records.source,
        record.operation strictness records.source (knownTo g batches)⟩ := by
    obtain ⟨records, hrecords, hlater⟩ := List.mem_flatMap.mp hlater
    obtain ⟨record, hrecord, rfl⟩ := List.mem_map.mp hlater
    exact ⟨records, hrecords, record, hrecord, rfl⟩
  rcases List.append_eq_append_iff.mp h with ⟨calls, hdone, hcalls⟩ | ⟨functions, hfunctions, hrest⟩
  · -- the step is a call, since all functions are done before it
    have hstep : step ∈ calls ++ step :: rest := by simp
    obtain ⟨records, hrecords, record, hrecord, hstep⟩ := hcall (hcalls ▸ hstep)
    refine ⟨records, hrecords, .inr ⟨record, hrecord, hstep, calls, hdone, ?_⟩⟩
    intro earlier hearlier
    obtain ⟨records', -, record', -, rfl⟩ :=
      hcall (hcalls ▸ List.mem_append_left (step :: rest) hearlier)
    exact record'.registration?_operation _ _ _
  · cases functions with
    | nil =>
      obtain ⟨records, hrecords, record, hrecord, hstep⟩ := hcall (hrest ▸ List.mem_cons_self)
      refine ⟨records, hrecords, .inr ⟨record, hrecord, hstep, [], ?_, by simp⟩⟩
      simpa using hfunctions.symm
    | cons first others =>
      obtain ⟨rfl, -⟩ := List.cons.inj hrest
      have hmem : step ∈ batches.flatMap (Records.functionSteps strictness) := by
        simp [hfunctions]
      obtain ⟨records, hrecords, hstep⟩ := List.mem_flatMap.mp hmem
      obtain ⟨record, hrecord, hstep⟩ := List.mem_map.mp hstep
      refine ⟨records, hrecords, .inl ⟨record, hrecord, hstep.symm, ?_⟩⟩
      intro earlier hearlier
      exact registration?_of_mem_functionSteps earlier
        (hfunctions ▸ List.mem_append_left (step :: others) hearlier)

/-- **A step fails by a record of its dump.** -/
theorem rejected_of_attempt {batches : List Records} {done rest : List Step} {step : Step}
    (hg : Reachable idOf g) (hsteps : stepsOf strictness g batches = done ++ step :: rest)
    (hdone : enterSteps idOf done g = (.ok (), g'))
    (hstep : (step.operation.attempt idOf g').result = .error cause) :
    ∃ records ∈ batches, step.source = records.source ∧
      Rejected idOf strictness g' records cause := by
  obtain ⟨records, hrecords, hcases⟩ := stepsOf_cases hsteps
  rcases hcases with ⟨record, hrecord, rfl, -⟩ | ⟨record, hrecord, rfl, calls, rfl, hcalls⟩
  · exact ⟨records, hrecords, rfl, rejected_of_function hrecord hstep⟩
  · -- all functions are registered by now, and the calls so far have added none
    have hknown := contains_of_functionSteps_append hg hcalls hdone
    rw [← hknown] at hstep
    exact ⟨records, hrecords, rfl, rejected_of_call hrecord hstep⟩

end Entering

end CallAtlas.Ingest
