import CallAtlas.Proofs.Graph.Growth
import CallAtlas.Proofs.Ingest.Booking

/-!
# Folding step by step

Once dumps are collected, folding them is a list of steps, each an operation on the graph on behalf
of a dump: the functions of all dumps, and then the calls of all.  The steps are taken one after the
other until one fails.  A failed step leaves no trace, and what was done before it stays.

## Main definitions

* `Step`, `enterSteps`: an operation on behalf of a dump, and steps taken up to a failure
* `stepsOf strictness g batches`: the steps that fold dumps into the graph `g`
* `Enters idOf x steps s`: on the session `s` the action `x` takes the steps `steps`

## Main results

* `enterSteps_eq_error_iff`: the steps before a failed one succeed, and lead to the graph that is
  left
* `contains_of_enterSteps`: the names that are known after some steps
* `Enters.bind`, `Enters.mapM`: composed actions take their steps one after the other
* `enters_batches`: folding collected dumps takes their steps
-/

namespace CallAtlas

open CallAtlas.Graph (Operation Attempt Reachable IsLedger after namesIn SameFunctions
  attempt_careful result?_eq_some_iff yields_void_iff)

/-! ## Steps -/

namespace Ingest

/-- An operation on behalf of a dump. -/
structure Step where
  source : String
  operation : Operation
  deriving DecidableEq, Repr

/-- Takes steps one after the other, up to a failure. -/
def enterSteps (idOf : IdScheme) : List Step → Graph → Except Failure Unit × Graph
  | [], g => (.ok (), g)
  | step :: rest, g =>
    let attempt := step.operation.attempt idOf g
    match attempt.result with
    | .ok () => enterSteps idOf rest attempt.graph
    | .error failure => (.error (failure.locatedIn step.source), attempt.graph)

section Steps

variable {idOf : IdScheme} {g g' : Graph}

theorem enterSteps_cons_of_yields {step : Step} {mid : Graph}
    (h : (step.operation.attempt idOf g).Yields () mid) (rest : List Step) :
    enterSteps idOf (step :: rest) g = enterSteps idOf rest mid := by
  obtain ⟨hresult, rfl⟩ := h
  simp only [enterSteps, hresult]

/-- A step that fails leaves the graph. -/
theorem enterSteps_cons_of_error {step : Step} {cause : Failure}
    (h : (step.operation.attempt idOf g).result = .error cause) (rest : List Step) :
    enterSteps idOf (step :: rest) g = (.error (cause.locatedIn step.source), g) := by
  simp only [enterSteps, h, attempt_careful h]

theorem enterSteps_append (steps steps' : List Step) (g : Graph) :
    enterSteps idOf (steps ++ steps') g =
      match enterSteps idOf steps g with
      | (.ok (), g') => enterSteps idOf steps' g'
      | (.error failure, g') => (.error failure, g') := by
  induction steps generalizing g with
  | nil => rfl
  | cons step rest ih =>
    simp only [List.cons_append, enterSteps]
    cases (step.operation.attempt idOf g).result with
    | error failure => rfl
    | ok _ => exact ih _

/-- **Steps fail at one of them**: those before it succeed, and lead to the graph that is left. -/
theorem enterSteps_eq_error_iff {steps : List Step} {failure : Failure} :
    enterSteps idOf steps g = (.error failure, g') ↔
      ∃ done step rest cause, steps = done ++ step :: rest ∧
        enterSteps idOf done g = (.ok (), g') ∧
        (step.operation.attempt idOf g').result = .error cause ∧
        failure = cause.locatedIn step.source := by
  constructor
  · intro h
    -- along the steps: each that succeeds moves the graph, and is done before the one that fails
    induction steps generalizing g with
    | nil => simp [enterSteps] at h
    | cons step rest ih =>
      cases hstep : (step.operation.attempt idOf g).result with
      | error cause =>
        rw [enterSteps_cons_of_error hstep] at h
        obtain ⟨hfailure, rfl⟩ := Prod.mk.inj h
        exact ⟨[], step, rest, cause, rfl, rfl, hstep, (Except.error.inj hfailure).symm⟩
      | ok _ =>
        rw [enterSteps_cons_of_yields ⟨hstep, rfl⟩] at h
        obtain ⟨done, later, rest', cause, rfl, hdone, hlater, hfailure⟩ := ih h
        refine ⟨step :: done, later, rest', cause, rfl, ?_, hlater, hfailure⟩
        rw [enterSteps_cons_of_yields ⟨hstep, rfl⟩]
        exact hdone
  · rintro ⟨done, step, rest, cause, rfl, hdone, hstep, rfl⟩
    rw [enterSteps_append, hdone]
    exact enterSteps_cons_of_error hstep rest

/-- **Steps are entered in the ledger**, as far as they succeed. -/
theorem enterSteps_after {steps : List Step} {entries : List Operation}
    (h : IsLedger idOf entries)
    (hsteps : enterSteps idOf steps (after idOf entries) = (.ok (), g')) :
    IsLedger idOf (entries ++ steps.map Step.operation) ∧
      g' = after idOf (entries ++ steps.map Step.operation) := by
  induction steps generalizing entries with
  | nil =>
    obtain ⟨-, rfl⟩ := Prod.mk.inj hsteps
    simpa using h
  | cons step rest ih =>
    cases hstep : (step.operation.attempt idOf (after idOf entries)).result with
    | error failure => simp [enterSteps_cons_of_error hstep] at hsteps
    | ok _ =>
      rw [enterSteps_cons_of_yields ⟨hstep, rfl⟩] at hsteps
      obtain ⟨hledger, hmid⟩ := h.result?_eq_some_iff.mp (result?_eq_some_iff.mpr ⟨hstep, rfl⟩)
      rw [hmid] at hsteps
      simpa using ih hledger hsteps

/-- The names that are known after some steps. -/
theorem contains_of_enterSteps {steps : List Step} (hg : Reachable idOf g)
    (h : enterSteps idOf steps g = (.ok (), g')) (name : String) :
    g'.contains name = true ↔
      g.contains name = true ∨ name ∈ namesIn (steps.map Step.operation) := by
  obtain ⟨entries, hentries, rfl⟩ := hg.exists_ledger
  obtain ⟨hledger, rfl⟩ := enterSteps_after hentries h
  rw [hledger.recounts.contains_iff, hentries.recounts.contains_iff, Graph.namesIn_append,
    List.mem_append]

theorem reachable_of_enterSteps {steps : List Step} (hg : Reachable idOf g)
    (h : enterSteps idOf steps g = (.ok (), g')) : Reachable idOf g' := by
  obtain ⟨entries, hentries, rfl⟩ := hg.exists_ledger
  exact ⟨_, (enterSteps_after hentries h).2.symm⟩

/-- Registrations add no call and drop none. -/
theorem calls_of_enterSteps {steps : List Step}
    (hsteps : ∀ step ∈ steps, step.operation.registration?.isSome = true)
    (h : enterSteps idOf steps g = (.ok (), g')) :
    g'.calls = g.calls ∧ g'.dropped = g.dropped := by
  induction steps generalizing g with
  | nil =>
    obtain ⟨-, rfl⟩ := Prod.mk.inj h
    exact ⟨rfl, rfl⟩
  | cons step rest ih =>
    obtain ⟨hstep, hrest⟩ := List.forall_mem_cons.mp hsteps
    cases hresult : (step.operation.attempt idOf g).result with
    | error failure => simp [enterSteps_cons_of_error hresult] at h
    | ok _ =>
      rw [enterSteps_cons_of_yields ⟨hresult, rfl⟩] at h
      obtain ⟨source, op⟩ := step
      cases op with
      | addCall source target text strictness => cases hstep
      | recordDropped call => cases hstep
      | addFunction name text strictness =>
        obtain ⟨id, hadd⟩ := yields_void_iff.mp ⟨hresult, rfl⟩
        obtain ⟨hcalls, hdropped⟩ := Graph.calls_of_addFunction hadd
        obtain ⟨hcalls', hdropped'⟩ := ih hrest h
        exact ⟨hcalls'.trans hcalls, hdropped'.trans hdropped⟩

end Steps

/-! ## The steps of dumps -/

/-- The steps that register the functions of a dump. -/
def Records.functionSteps (strictness : Strictness) (records : Records) : List Step :=
  records.functions.map fun record => ⟨records.source, record.operation strictness⟩

/-- The steps that add the calls of a dump, or drop them, where `known` tells the names that are
registered. -/
def Records.callSteps (strictness : Strictness) (known : String → Bool) (records : Records) :
    List Step :=
  records.calls.map fun record =>
    ⟨records.source, record.operation strictness records.source known⟩

/-- A name is known to a graph with some dumps if it is registered, or a function of a dump. -/
def knownTo (g : Graph) (batches : List Records) (name : String) : Bool :=
  g.contains name ||
    batches.any fun records => records.functions.any fun record => record.name = name

/-- **The steps that fold dumps into a graph**: the functions of all before the calls of any. -/
def stepsOf (strictness : Strictness) (g : Graph) (batches : List Records) : List Step :=
  batches.flatMap (Records.functionSteps strictness) ++
    batches.flatMap (Records.callSteps strictness (knownTo g batches))

section Dumps

variable {idOf : IdScheme} {strictness : Strictness} {g g' : Graph}

theorem registration?_of_mem_functionSteps {batches : List Records} :
    ∀ step ∈ batches.flatMap (Records.functionSteps strictness),
      step.operation.registration?.isSome = true := by
  intro step hstep
  obtain ⟨records, -, hstep⟩ := List.mem_flatMap.mp hstep
  obtain ⟨record, -, rfl⟩ := List.mem_map.mp hstep
  rfl

theorem mem_namesIn_functionSteps {batches : List Records} {name : String} :
    name ∈ namesIn ((batches.flatMap (Records.functionSteps strictness)).map Step.operation) ↔
      ∃ records ∈ batches, ∃ record ∈ records.functions, record.name = name := by
  induction batches with
  | nil => simp [namesIn, Graph.registrationsIn]
  | cons records rest ih =>
    rw [List.flatMap_cons, List.map_append, Graph.namesIn_append, List.mem_append, ih]
    simp [namesIn, Graph.registrationsIn, Records.functionSteps, FunctionRecord.operation,
      Operation.registration?]

/-- Once the functions of all dumps are registered, the names that are known are those, whatever
calls follow. -/
theorem contains_of_functionSteps_append {batches : List Records} {calls : List Step}
    (hg : Reachable idOf g) (hcalls : ∀ step ∈ calls, step.operation.registration? = none)
    (h : enterSteps idOf (batches.flatMap (Records.functionSteps strictness) ++ calls) g =
      (.ok (), g')) :
    g'.contains = knownTo g batches := by
  have hnone : ∀ op ∈ calls.map Step.operation, op.registration? = none := by
    intro op hop
    obtain ⟨step, hstep, rfl⟩ := List.mem_map.mp hop
    exact hcalls step hstep
  funext name
  rw [Bool.eq_iff_iff, contains_of_enterSteps hg h, List.map_append,
    Graph.namesIn_append_of_none _ hnone, mem_namesIn_functionSteps]
  simp [knownTo]

theorem contains_of_functionSteps {batches : List Records} (hg : Reachable idOf g)
    (h : enterSteps idOf (batches.flatMap (Records.functionSteps strictness)) g = (.ok (), g')) :
    g'.contains = knownTo g batches := by
  rw [← List.append_nil (batches.flatMap _)] at h
  exact contains_of_functionSteps_append hg (List.forall_mem_nil _) h

/-- The functions of a dump are registered in steps. -/
theorem enterFunctions_eq_enterSteps (records : Records) (g : Graph) :
    enterFunctions idOf strictness records.source records.functions g =
      enterSteps idOf (records.functionSteps strictness) g := by
  rw [Records.functionSteps]
  generalize records.functions = functions
  induction functions generalizing g with
  | nil => rfl
  | cons record rest ih =>
    simp only [enterFunctions, List.map_cons, enterSteps, FunctionRecord.operation,
      Operation.attempt, Attempt.void]
    cases (g.addFunction idOf record.name (some record.location) strictness).result with
    | error failure => rfl
    | ok id => exact ih _

/-- A call of a dump is one step: it is added or dropped, as its ends are registered or not. -/
theorem enterCall_eq_attempt (source : String) (record : CallRecord) (g : Graph) :
    enterCall strictness source record g =
      let attempt := (record.operation strictness source g.contains).attempt idOf g
      match attempt.result with
      | .ok () => (.ok (record.missing? g.contains).isNone, attempt.graph)
      | .error failure => (.error (failure.locatedIn source), attempt.graph) := by
  unfold enterCall CallRecord.operation CallRecord.missing?
  rw [Graph.contains_eq_isSome, Graph.contains_eq_isSome]
  cases hsource : g.ids[record.source]? with
  | none => rfl
  | some caller =>
    cases htarget : g.ids[record.target]? with
    | none => rfl
    | some callee =>
      simp only [Option.isSome_some, Bool.not_true, Bool.false_eq_true, if_false,
        Operation.attempt, Attempt.void, Graph.addCall_of_ends hsource htarget,
        Graph.Reading.followedBy, Option.getD_some]
      cases (Graph.readSite strictness (some record.label)).result with
      | error failure => rfl
      | ok site => rfl

/-- The calls of a dump are entered in steps. -/
theorem enterCalls_eq_enterSteps {known : String → Bool} (records : Records)
    (hknown : g.contains = known) :
    ((enterCalls strictness records.source records.calls g).1.map fun _ => (),
      (enterCalls strictness records.source records.calls g).2) =
        enterSteps idOf (records.callSteps strictness known) g := by
  rw [Records.callSteps]
  generalize records.calls = calls
  induction calls generalizing g with
  | nil => rfl
  | cons record rest ih =>
    subst hknown
    have hcall := @enterCall_eq_attempt idOf strictness records.source record g
    simp only [List.map_cons, enterSteps, enterCalls]
    cases hstep :
      ((record.operation strictness records.source g.contains).attempt idOf g).result with
    | error failure =>
      simp only [hstep] at hcall
      simp only [hcall]
      rfl
    | ok _ =>
      simp only [hstep] at hcall
      -- a call registers no function, so the same names are known behind it
      have hsame := (sameFunctions_enterCall hcall).contains.symm
      simp only [hcall]
      refine Eq.trans ?_ (ih hsame)
      cases (enterCalls strictness records.source rest _).1 <;> rfl

end Dumps

/-! ## Actions that take steps -/

/-- On the session `s` the action `x` takes the steps `steps`: it fails where they fail, leaves the
graph that they leave, and remembers no name. -/
structure Enters {α : Type} (idOf : IdScheme) (x : Action α) (steps : List Step)
    (s : Session) : Prop where
  outcome_eq : ((x.outcome s).1.map (fun _ => ()), (x.outcome s).2.graph) =
    enterSteps idOf steps s.graph
  memo_eq : (x.outcome s).2.memo = s.memo

namespace Enters

variable {α β : Type} {idOf : IdScheme} {x : Action α} {steps : List Step}
  {s : Session} {g' : Graph}

theorem succeeds_iff (h : Enters idOf x steps s) :
    (∃ a t, x.outcome s = (.ok a, t) ∧ t.graph = g') ↔
      enterSteps idOf steps s.graph = (.ok (), g') := by
  rw [← h.outcome_eq]
  rcases x.outcome s with ⟨failure | a, t⟩
  · simp [Except.map]
  · simp [Except.map]

theorem fails_iff (h : Enters idOf x steps s) {failure : Failure} :
    (∃ t, x.outcome s = (.error failure, t) ∧ t.graph = g') ↔
      enterSteps idOf steps s.graph = (.error failure, g') := by
  rw [← h.outcome_eq]
  rcases x.outcome s with ⟨failure | a, t⟩
  · simp [Except.map]
  · simp [Except.map]

theorem pure (a : α) (s : Session) : Enters idOf (Pure.pure a : Action α) [] s := ⟨rfl, rfl⟩

theorem tell (event : Log.Event) (s : Session) : Enters idOf (Action.tell event) [] s := ⟨rfl, rfl⟩

/-- Composed actions take their steps one after the other. -/
theorem bind {f : α → Action β} {steps' : List Step} (hx : Enters idOf x steps s)
    (hf : ∀ a s', x.outcome s = (.ok a, s') → Enters idOf (f a) steps' s') :
    Enters idOf (x >>= f) (steps ++ steps') s := by
  obtain ⟨houtcome, hmemo⟩ := hx
  rcases hout : x.outcome s with ⟨failure | a, s'⟩
  · rw [hout] at houtcome hmemo
    constructor
    · rw [Action.outcome_bind, hout, enterSteps_append, ← houtcome]
      rfl
    · rw [Action.outcome_bind, hout]
      exact hmemo
  · rw [hout] at houtcome hmemo
    obtain ⟨houtcome', hmemo'⟩ := hf a s' hout
    constructor
    · rw [Action.outcome_bind, hout, enterSteps_append, ← houtcome]
      exact houtcome'
    · rw [Action.outcome_bind, hout]
      exact hmemo'.trans hmemo

/-- An action on each element of a list takes the steps of all of them, if each does so on the
sessions that have the property `P`. -/
theorem mapM {f : α → Action β} {steps : α → List Step} {P : Session → Prop}
    (hP : ∀ a s b s', P s → (f a).outcome s = (.ok b, s') → P s')
    (hf : ∀ a s, P s → Enters idOf (f a) (steps a) s) (as : List α) (hs : P s) :
    Enters idOf (as.mapM f) (as.flatMap steps) s := by
  induction as generalizing s with
  | nil =>
    rw [List.mapM_nil]
    exact .pure [] s
  | cons a as ih =>
    rw [List.mapM_cons, List.flatMap_cons, ← List.append_nil (as.flatMap steps)]
    exact (hf a s hs).bind fun b s' hb => (ih (hP a s b s' hs hb)).bind fun _ s'' _ => .pure _ s''

/-- An action that follows a rule takes the steps of the rule. -/
theorem of_follows {rule : Except Failure α × Graph} {y : Action β} {f : α → β}
    (h : Follows y s rule f)
    (hrule : (rule.1.map (fun _ => ()), rule.2) = enterSteps idOf steps s.graph) :
    Enters idOf y steps s := by
  obtain ⟨log, hlog⟩ := h
  constructor
  · rw [hlog, ← hrule]
    rcases rule with ⟨failure | a, g⟩ <;> rfl
  · rw [hlog]

end Enters

section Folding

variable {setting : Setting} {options : Options}

theorem enters_applyFunctions (idOf : IdScheme) (strictness : Strictness)
    (records : Records) (tally : Tally) (s : Session) :
    Enters idOf (applyFunctions idOf strictness records.source records.functions tally)
      (records.functionSteps strictness) s := by
  refine .of_follows (follows_applyFunctions idOf strictness _ _ tally s) ?_
  rw [← enterFunctions_eq_enterSteps]
  rcases enterFunctions idOf strictness records.source records.functions s.graph with
    ⟨failure | ⟨⟩, g⟩ <;> rfl

/-- The names that are known once the functions of a dump are registered. -/
theorem contains_of_applyFunctions {idOf : IdScheme} {strictness : Strictness}
    {records : Records} {tally registered : Tally} {s u : Session} (hs : Reachable idOf s.graph)
    (h : (applyFunctions idOf strictness records.source records.functions tally).outcome s =
      (.ok registered, u)) : u.graph.contains = knownTo s.graph [records] := by
  have henters := enters_applyFunctions idOf strictness records tally s
  rw [← List.flatMap_singleton (Records.functionSteps strictness)] at henters
  exact contains_of_functionSteps hs (henters.succeeds_iff.mp ⟨registered, u, h, rfl⟩)

theorem enters_callBatch (idOf : IdScheme) (options : Options) (records : Records)
    (tally : Tally) {known : String → Bool} {s : Session} (hs : s.graph.contains = known) :
    Enters idOf (callBatch options (records, tally)) (records.callSteps options.locations known)
      s := by
  have hcalls : Enters idOf (applyCalls options.locations records.source records.calls tally)
      (records.callSteps options.locations known) s :=
    .of_follows (follows_applyCalls options.locations _ _ tally s)
      (enterCalls_eq_enterSteps records hs)
  rw [← List.append_nil (records.callSteps options.locations known)]
  exact hcalls.bind fun counted s' _ => (Enters.tell _ s').bind fun _ s'' _ => .pure counted s''

/-- Folds the records of one dump. -/
def enterRecords (setting : Setting) (options : Options) (records : Records) : Action Tally := do
  let tally ← applyFunctions setting.idOf options.locations records.source records.functions
    { source := records.source }
  callBatch options (records, tally)

/-- **Folding the records of a dump takes their steps.** -/
theorem enters_enterRecords (setting : Setting) (options : Options) (records : Records)
    {s : Session} (hs : Reachable setting.idOf s.graph) :
    Enters setting.idOf (enterRecords setting options records)
      (stepsOf options.locations s.graph [records]) s := by
  rw [stepsOf, List.flatMap_singleton, List.flatMap_singleton]
  have hfunctions := enters_applyFunctions setting.idOf options.locations records
    { source := records.source } s
  refine hfunctions.bind fun tally s' htally => ?_
  -- the names known to the calls are those that the functions of the dump leave behind
  exact enters_callBatch setting.idOf options records tally (contains_of_applyFunctions hs htally)

/-- Registering keeps the dumps, each with its tally. -/
theorem fst_of_registerBatches {batches : List Records} {registered : List (Records × Tally)}
    {s t : Session}
    (h : (batches.mapM (registerBatch setting options)).outcome s = (.ok registered, t)) :
    registered.map Prod.fst = batches := by
  induction batches generalizing s registered with
  | nil =>
    obtain ⟨rfl, -⟩ := Action.outcome_mapM_nil_eq_ok_iff.mp h
    rfl
  | cons records rest ih =>
    obtain ⟨batch, s', others, hbatch, hrest, rfl⟩ := Action.outcome_mapM_cons_eq_ok_iff.mp h
    obtain ⟨-, rfl⟩ := registerBatch_eq_ok hbatch
    rw [List.map_cons, ih hrest]

/-- **Folding collected dumps takes their steps.** -/
theorem enters_batches (batches : List Records) {s : Session}
    (hs : Reachable setting.idOf s.graph) :
    Enters setting.idOf
      (do
        let registered ← batches.mapM (registerBatch setting options)
        registered.mapM (callBatch options))
      (stepsOf options.locations s.graph batches) s := by
  have hregister (records : Records) (s : Session) :
      Enters setting.idOf (registerBatch setting options records)
        (records.functionSteps options.locations) s := by
    rw [← List.append_nil (records.functionSteps options.locations)]
    exact (enters_applyFunctions setting.idOf options.locations records _ s).bind
      fun tally s' _ => .pure (records, tally) s'
  have hfunctions : Enters setting.idOf (batches.mapM (registerBatch setting options))
      (batches.flatMap (Records.functionSteps options.locations)) s :=
    .mapM (P := fun _ => True) (fun _ _ _ _ _ _ => trivial) (fun records s _ => hregister records s)
      batches trivial
  refine hfunctions.bind fun registered s' hregistered => ?_
  have hknown := contains_of_functionSteps hs
    (hfunctions.succeeds_iff.mp ⟨registered, s', hregistered, rfl⟩)
  rw [← fst_of_registerBatches hregistered] at hknown ⊢
  rw [List.flatMap_map]
  -- the calls of a dump leave the names that are known
  refine Enters.mapM (P := fun s' => s'.graph.contains = knownTo s.graph (registered.map Prod.fst))
    (fun batch t tally t' ht htally => ?_)
    (fun batch t ht => enters_callBatch setting.idOf options batch.1 batch.2 ht) registered hknown
  obtain ⟨flags, hcalls, -⟩ := callBatch_eq_ok htally
  exact (sameFunctions_enterCalls hcalls).contains.symm.trans ht

end Folding

end Ingest

end CallAtlas
