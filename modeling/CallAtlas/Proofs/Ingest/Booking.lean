import CallAtlas.Proofs.Graph.Extension
import CallAtlas.Proofs.Ingest.Passes

/-!
# Dumps as entries of a ledger

Each record of a dump comes to one operation on the graph: a function is registered, and a call is
added or dropped, as its ends are known or not.  Folding a dump succeeds exactly when these
operations can be entered behind the ledger of the graph, functions before calls, and the graph is
then the one that the longer ledger leads to.

## Main definitions

* `FunctionRecord.operation`, `CallRecord.operation`: the operation of a record
* `Records.registering`, `Records.calling`: the operations of a dump
* `Books idOf entries x ops b`: behind the ledger `entries`, the action `x` enters `ops` and gives
  `b`

## Main results

* `enterFunctions_after_iff`, `enterCalls_after_iff`: records are entered as operations
* `Books.bind`, `Books.mapM`: composed actions enter one after the other
* `foldBlock_iff`, `foldTogether_iff`: what folding one dump, and files together, comes to
-/

namespace CallAtlas.Ingest

open CallAtlas.Dump (Block)
open CallAtlas.Graph (Operation after IsLedger namesIn Readable)

/-! ## Operations of records -/

/-- The registration of a function of a dump. -/
def FunctionRecord.operation (strictness : Strictness) (record : FunctionRecord) : Operation :=
  .addFunction record.name (some record.location) strictness

/-- The end that a call of a dump lacks, where `known` tells the names that are registered. -/
def CallRecord.missing? (known : String → Bool) (record : CallRecord) : Option Endpoint :=
  if !known record.source then some .source
  else if !known record.target then some .target
  else none

/-- What becomes of a call of a dump: it is added, or dropped for the want of an end. -/
def CallRecord.operation (strictness : Strictness) (source : String) (known : String → Bool)
    (record : CallRecord) : Operation :=
  match record.missing? known with
  | none => .addCall record.source record.target (some record.label) strictness
  | some side => .recordDropped (record.dropped source side)

/-- The names that operations register, as a test. -/
def knownIn (entries : List Operation) (name : String) : Bool :=
  decide (name ∈ namesIn entries)

theorem CallRecord.registration?_operation (strictness : Strictness) (source : String)
    (known : String → Bool) (record : CallRecord) :
    (record.operation strictness source known).registration? = none := by
  unfold CallRecord.operation
  split <;> rfl

/-- Calls register no function. -/
theorem knownIn_append_of_none {more : List Operation}
    (hmore : ∀ op ∈ more, op.registration? = none) (entries : List Operation) :
    knownIn (entries ++ more) = knownIn entries := by
  funext name
  rw [knownIn, Graph.namesIn_append_of_none entries hmore, knownIn]

/-! ## Entering records -/

section Entering

variable {idOf : IdScheme} {strictness : Strictness} {source : String}
  {entries : List Operation} {g' : Graph}

/-- **The functions of a dump are entered as registrations.** -/
theorem enterFunctions_after_iff {records : List FunctionRecord} (h : IsLedger idOf entries) :
    enterFunctions idOf strictness source records (after idOf entries) = (.ok (), g') ↔
      IsLedger idOf (entries ++ records.map (FunctionRecord.operation strictness)) ∧
        g' = after idOf (entries ++ records.map (FunctionRecord.operation strictness)) := by
  induction records generalizing entries with
  | nil => simp [enterFunctions, h, eq_comm]
  | cons record rest ih =>
    have hsplit : entries ++ (record :: rest).map (FunctionRecord.operation strictness) =
        entries ++ [record.operation strictness] ++
          rest.map (FunctionRecord.operation strictness) := by simp
    have hfirst (mid : Graph) :
        (∃ id, ((after idOf entries).addFunction idOf record.name (some record.location)
          strictness).Yields id mid) ↔
        IsLedger idOf (entries ++ [record.operation strictness]) ∧
          mid = after idOf (entries ++ [record.operation strictness]) := by
      rw [← h.result?_eq_some_iff, Graph.result?_eq_some_iff]
      exact Graph.yields_void_iff.symm
    rw [hsplit, enterFunctions_cons_eq_ok_iff]
    constructor
    · rintro ⟨id, mid, hadd, hrest⟩
      obtain ⟨hledger, rfl⟩ := (hfirst mid).mp ⟨id, hadd⟩
      exact (ih hledger).mp hrest
    · intro hall
      have hledger := Graph.isLedger_of_append hall.1
      obtain ⟨id, hadd⟩ := (hfirst _).mpr ⟨hledger, rfl⟩
      exact ⟨id, _, hadd, (ih hledger).mpr hall⟩

/-- A call of a dump is entered as what becomes of it. -/
theorem enterCall_after_iff {record : CallRecord} {added : Bool} (h : IsLedger idOf entries) :
    enterCall strictness source record (after idOf entries) = (.ok added, g') ↔
      (IsLedger idOf (entries ++ [record.operation strictness source (knownIn entries)]) ∧
        g' = after idOf (entries ++ [record.operation strictness source (knownIn entries)])) ∧
        added = (record.missing? (knownIn entries)).isNone := by
  rw [← h.result?_eq_some_iff, enterCall, h.recounts.ids, h.recounts.ids]
  by_cases hsource : record.source ∈ namesIn entries
  · by_cases htarget : record.target ∈ namesIn entries
    · -- both ends are known: the call is added if its label can be read
      have hmissing : record.missing? (knownIn entries) = none := by
        simp [CallRecord.missing?, knownIn, hsource, htarget]
      simp only [CallRecord.operation, hmissing, hsource, htarget, if_true, Option.isNone_none,
        Graph.result?_addCall_eq_some_iff (Graph.registry_after idOf entries),
        h.recounts.mem_ids_iff, Option.getD_some, true_and]
      cases hsite : (Graph.readSite strictness (some record.label)).result with
      | error failure =>
        have hunread : ¬ Readable strictness (some record.label) := fun hread => by
          rw [Graph.readSite_eq_ok_iff.mpr ⟨hread, rfl⟩] at hsite
          cases hsite
        simp [hunread]
      | ok site =>
        obtain ⟨hread, rfl⟩ := Graph.readSite_eq_ok_iff.mp hsite
        simp only [hread, true_and, Prod.mk.injEq, Except.ok.injEq]
        constructor
        · rintro ⟨rfl, rfl⟩
          exact ⟨rfl, rfl⟩
        · rintro ⟨rfl, rfl⟩
          exact ⟨rfl, rfl⟩
    · have hmissing : record.missing? (knownIn entries) = some .target := by
        simp [CallRecord.missing?, knownIn, hsource, htarget]
      simp [CallRecord.operation, hmissing, hsource, htarget, eq_comm, and_comm]
  · have hmissing : record.missing? (knownIn entries) = some .source := by
      simp [CallRecord.missing?, knownIn, hsource]
    simp [CallRecord.operation, hmissing, hsource, eq_comm, and_comm]

/-- **The calls of a dump are entered as what becomes of them.** -/
theorem enterCalls_after_iff {records : List CallRecord} {known : String → Bool}
    {flags : List Bool} (h : IsLedger idOf entries) (hknown : knownIn entries = known) :
    enterCalls strictness source records (after idOf entries) = (.ok flags, g') ↔
      (IsLedger idOf (entries ++ records.map (CallRecord.operation strictness source known)) ∧
        g' = after idOf
          (entries ++ records.map (CallRecord.operation strictness source known))) ∧
        flags = records.map fun record => (record.missing? known).isNone := by
  subst hknown
  induction records generalizing entries flags with
  | nil => simp [enterCalls, h, eq_comm, and_comm]
  | cons record rest ih =>
    have hsplit : entries ++
          (record :: rest).map (CallRecord.operation strictness source (knownIn entries)) =
        entries ++ [record.operation strictness source (knownIn entries)] ++
          rest.map (CallRecord.operation strictness source (knownIn entries)) := by simp
    have hsame : knownIn (entries ++ [record.operation strictness source (knownIn entries)]) =
        knownIn entries := by
      refine knownIn_append_of_none (fun op hop => ?_) entries
      rw [List.mem_singleton.mp hop]
      exact record.registration?_operation strictness source _
    rw [hsplit, enterCalls_cons_eq_ok_iff, List.map_cons]
    constructor
    · rintro ⟨added, mid, others, hcall, hrest, rfl⟩
      obtain ⟨⟨hledger, rfl⟩, rfl⟩ := (enterCall_after_iff h).mp hcall
      obtain ⟨hall, rfl⟩ := (ih hledger).mp hrest
      rw [hsame] at hall
      rw [hsame]
      exact ⟨hall, rfl⟩
    · rintro ⟨hall, rfl⟩
      have hledger := Graph.isLedger_of_append hall.1
      refine ⟨_, _, _, (enterCall_after_iff h).mpr ⟨⟨hledger, rfl⟩, rfl⟩,
        (ih hledger).mpr ⟨?_, rfl⟩, ?_⟩
      · rw [hsame]
        exact hall
      · rw [hsame]

end Entering

/-! ## Actions that enter operations -/

/-- Behind the ledger `entries`, the action `x` succeeds exactly when the operations `ops` can be
entered; it then gives `b` and leaves the graph that they lead to. -/
def Books {β : Type} (idOf : IdScheme) (entries : List Operation) (x : Action β)
    (ops : List Operation) (b : β) : Prop :=
  IsLedger idOf entries → ∀ s : Session, s.graph = after idOf entries → ∀ (b' : β) (g' : Graph),
    (∃ t, x.outcome s = (.ok b', t) ∧ t.graph = g') ↔
      (IsLedger idOf (entries ++ ops) ∧ g' = after idOf (entries ++ ops)) ∧ b' = b

namespace Books

variable {α β : Type} {idOf : IdScheme} {entries : List Operation}

theorem pure (b : β) : Books idOf entries (Pure.pure b : Action β) [] b := by
  intro h s hs b' g'
  rw [List.append_nil]
  constructor
  · rintro ⟨t, ht, rfl⟩
    obtain ⟨rfl, rfl⟩ := Action.outcome_pure_eq_ok_iff.mp ht
    exact ⟨⟨h, hs⟩, rfl⟩
  · rintro ⟨⟨-, rfl⟩, rfl⟩
    exact ⟨s, rfl, hs⟩

theorem tell (event : Log.Event) : Books idOf entries (Action.tell event) [] () := by
  intro h s hs b' g'
  rw [List.append_nil]
  constructor
  · rintro ⟨t, ht, rfl⟩
    obtain ⟨-, rfl⟩ := Prod.mk.inj ht
    exact ⟨⟨h, hs⟩, rfl⟩
  · rintro ⟨⟨-, rfl⟩, rfl⟩
    exact ⟨_, rfl, hs⟩

/-- Composed actions enter one after the other. -/
theorem bind {x : Action α} {f : α → Action β} {ops ops' : List Operation} {a : α} {b : β}
    (hx : Books idOf entries x ops a) (hf : Books idOf (entries ++ ops) (f a) ops' b) :
    Books idOf entries (x >>= f) (ops ++ ops') b := by
  intro h s hs b' g'
  rw [← List.append_assoc]
  constructor
  · rintro ⟨t, ht, rfl⟩
    obtain ⟨a', s', hs', ht⟩ := Action.outcome_bind_eq_ok_iff.mp ht
    obtain ⟨⟨hledger, hgraph⟩, rfl⟩ := (hx h s hs a' s'.graph).mp ⟨s', hs', rfl⟩
    exact (hf hledger s' hgraph b' t.graph).mp ⟨t, ht, rfl⟩
  · intro hall
    have hledger := Graph.isLedger_of_append hall.1.1
    obtain ⟨s', hs', hgraph⟩ := (hx h s hs a _).mpr ⟨⟨hledger, rfl⟩, rfl⟩
    obtain ⟨t, ht, hg'⟩ := (hf hledger s' hgraph b' g').mpr hall
    exact ⟨t, Action.outcome_bind_eq_ok_iff.mpr ⟨a, s', hs', ht⟩, hg'⟩

/-- An action on each element of a list enters the operations of all of them, if each does so behind
the ledgers that have the property `P`. -/
theorem mapM {f : α → Action β} {ops : α → List Operation} {out : α → β}
    {P : List Operation → Prop} (hP : ∀ entries a, P entries → P (entries ++ ops a))
    (hf : ∀ entries a, P entries → Books idOf entries (f a) (ops a) (out a)) (as : List α)
    (hentries : P entries) :
    Books idOf entries (as.mapM f) (as.flatMap ops) (as.map out) := by
  induction as generalizing entries with
  | nil =>
    rw [List.mapM_nil]
    exact .pure []
  | cons a as ih =>
    rw [List.mapM_cons, List.flatMap_cons, ← List.append_nil (as.flatMap ops)]
    exact (hf entries a hentries).bind ((ih (hP entries a hentries)).bind (.pure _))

/-- An action that follows a rule enters what the rule does. -/
theorem of_follows {x : Action β} (rule : Graph → Except Failure α × Graph) {f : α → β}
    {ops : List Operation} (a : α) (hx : ∀ s : Session, Follows x s (rule s.graph) f)
    (hrule : IsLedger idOf entries → ∀ (a' : α) (g' : Graph),
      rule (after idOf entries) = (.ok a', g') ↔
        (IsLedger idOf (entries ++ ops) ∧ g' = after idOf (entries ++ ops)) ∧ a' = a) :
    Books idOf entries x ops (f a) := by
  intro h s hs b' g'
  constructor
  · rintro ⟨t, ht, rfl⟩
    obtain ⟨a', ha', rfl⟩ := (hx s).eq_ok_of_outcome ht
    rw [hs] at ha'
    obtain ⟨hall, rfl⟩ := (hrule h a' t.graph).mp ha'
    exact ⟨hall, rfl⟩
  · rintro ⟨hall, rfl⟩
    have ha' := (hrule h a g').mpr ⟨hall, rfl⟩
    rw [← hs] at ha'
    obtain ⟨log, hlog⟩ := (hx s).outcome_of_eq_ok ha'
    exact ⟨_, hlog, rfl⟩

end Books

/-! ## Folding dumps -/

/-- The registrations of a dump. -/
def Records.registering (strictness : Strictness) (records : Records) : List Operation :=
  records.functions.map (FunctionRecord.operation strictness)

/-- What becomes of the calls of a dump. -/
def Records.calling (strictness : Strictness) (known : String → Bool) (records : Records) :
    List Operation :=
  records.calls.map (CallRecord.operation strictness records.source known)

/-- The tally of a dump: its functions, and its calls by what becomes of them. -/
def Records.tally (known : String → Bool) (records : Records) : Tally :=
  countCalls (records.calls.map fun call => (call.missing? known).isNone) records.registered

section Folding

variable {setting : Setting} {options : Options} {nameOf : String → String}
  {entries : List Operation}

theorem registration?_of_mem_calling {strictness : Strictness} {known : String → Bool}
    {records : Records} : ∀ op ∈ records.calling strictness known, op.registration? = none := by
  intro op hop
  obtain ⟨call, -, rfl⟩ := List.mem_map.mp hop
  exact call.registration?_operation strictness records.source known

theorem books_applyFunctions (idOf : IdScheme) (strictness : Strictness)
    (records : Records) :
    Books idOf entries
      (applyFunctions idOf strictness records.source records.functions
        { source := records.source })
      (records.registering strictness) records.registered := by
  have htally : records.registered =
      (fun _ : Unit =>
        { source := records.source, functions := 0 + records.functions.length }) () := by
    rw [Records.registered, Nat.zero_add]
  rw [htally]
  refine .of_follows (enterFunctions idOf strictness records.source records.functions) ()
    (follows_applyFunctions idOf strictness records.source records.functions _) fun h a g' => ?_
  rw [enterFunctions_after_iff h, eq_self_iff_true, and_true]
  rfl

theorem books_applyCalls {idOf : IdScheme} {known : String → Bool}
    (hknown : knownIn entries = known) (strictness : Strictness) (records : Records) :
    Books idOf entries
      (applyCalls strictness records.source records.calls records.registered)
      (records.calling strictness known) (records.tally known) :=
  .of_follows (enterCalls strictness records.source records.calls) _
    (follows_applyCalls strictness records.source records.calls records.registered)
    fun h _ _ => enterCalls_after_iff h hknown

/-- Adding the calls of a dump and telling its tally. -/
theorem books_callBatch (idOf : IdScheme) (options : Options) {known : String → Bool}
    (hknown : knownIn entries = known) (records : Records) :
    Books idOf entries (callBatch options (records, records.registered))
      (records.calling options.locations known) (records.tally known) := by
  have htail : Books idOf (entries ++ records.calling options.locations known)
      (do
        Action.tell (.ingested (records.tally known))
        return records.tally known) [] (records.tally known) :=
    (Books.tell _).bind (.pure _)
  rw [← List.append_nil (records.calling options.locations known)]
  exact (books_applyCalls hknown options.locations records).bind htail

/-- The registrations of several dumps. -/
def registrationsOf (strictness : Strictness) (batches : List Records) : List Operation :=
  batches.flatMap (Records.registering strictness)

/-- What becomes of the calls of several dumps. -/
def callsOf (strictness : Strictness) (known : String → Bool) (batches : List Records) :
    List Operation :=
  batches.flatMap (Records.calling strictness known)

/-- The names known behind a ledger and the registrations of several dumps. -/
def knownWith (strictness : Strictness) (entries : List Operation) (batches : List Records) :
    String → Bool :=
  knownIn (entries ++ registrationsOf strictness batches)

/-- A ledger with the operations of several dumps behind it: the functions of all before the calls
of any. -/
def enteredWith (strictness : Strictness) (entries : List Operation) (batches : List Records) :
    List Operation :=
  entries ++ (registrationsOf strictness batches ++
    callsOf strictness (knownWith strictness entries batches) batches)

/-- **Dumps are entered together**: the functions of all before the calls of any. -/
theorem books_batches (batches : List Records) :
    Books setting.idOf entries
      (do
        let registered ← batches.mapM (registerBatch setting options)
        registered.mapM (callBatch options))
      (registrationsOf options.locations batches ++
        callsOf options.locations (knownWith options.locations entries batches) batches)
      (batches.map (Records.tally (knownWith options.locations entries batches))) := by
  have hregister (entries : List Operation) (records : Records) :
      Books setting.idOf entries (registerBatch setting options records)
        (records.registering options.locations) (records, records.registered) := by
    rw [← List.append_nil (records.registering options.locations)]
    exact (books_applyFunctions setting.idOf options.locations records).bind (.pure _)
  refine Books.bind (.mapM (P := fun _ => True) (fun _ _ _ => trivial)
    (fun entries records _ => hregister entries records) batches trivial) ?_
  rw [List.mapM_map]
  -- the calls of a dump leave the names that are known
  refine Books.mapM (P := fun later => knownIn later = knownWith options.locations entries batches)
    (fun later records hlater => ?_)
    (fun later records hlater => books_callBatch setting.idOf options hlater records) batches rfl
  rw [knownIn_append_of_none registration?_of_mem_calling]
  exact hlater

/-! ### Files -/

theorem mapM_eq_ok_iff_forall₂ {α β ε : Type} {f : α → Except ε β} {as : List α} {bs : List β} :
    as.mapM f = .ok bs ↔ List.Forall₂ (fun a b => f a = .ok b) as bs := by
  induction as generalizing bs with
  | nil => simp [pure, Except.pure, eq_comm]
  | cons a as ih =>
    rw [List.mapM_cons, List.forall₂_cons_left_iff]
    cases hb : f a with
    | error failure => simp [bind, Except.bind]
    | ok b =>
      cases hrest : as.mapM f with
      | error failure =>
        simp only [bind, Except.bind, reduceCtorEq, false_iff, not_exists, not_and]
        intro b' rest hb' hforall
        rw [ih.mpr hforall] at hrest
        cases hrest
      | ok rest =>
        simp only [bind, Except.bind, pure, Except.pure, Except.ok.injEq]
        constructor
        · rintro rfl
          exact ⟨b, rest, rfl, ih.mp hrest, rfl⟩
        · rintro ⟨b', rest', rfl, hforall, rfl⟩
          rw [ih.mpr hforall] at hrest
          rw [Except.ok.inj hrest]

/-- The files at `paths` hold dumps, and these have the records `batches`. -/
abbrev FilesHold (setting : Setting) (options : Options) (nameOf : String → String)
    (paths : List String) (batches : List Records) : Prop :=
  List.Forall₂ (fun path records => fileRecordsOf setting options nameOf path = .ok records)
    paths batches

/-- Records tell their file, so those of several files are told by the files. -/
theorem filesHold_iff {paths : List String} {batches : List Records} :
    FilesHold setting options nameOf paths batches ↔
      paths = batches.map Records.source ∧
        ∀ records ∈ batches,
          fileRecordsOf setting options nameOf records.source = .ok records := by
  unfold FilesHold
  induction batches generalizing paths with
  | nil => simp
  | cons records rest ih =>
    rw [List.forall₂_cons_right_iff, List.map_cons, List.forall_mem_cons]
    constructor
    · rintro ⟨path, others, hrecords, hothers, rfl⟩
      obtain ⟨rfl, hrest⟩ := ih.mp hothers
      obtain rfl := source_of_fileRecordsOf hrecords
      exact ⟨rfl, hrecords, hrest⟩
    · rintro ⟨rfl, hrecords, hrest⟩
      exact ⟨_, _, hrecords, ih.mpr ⟨rfl, hrest⟩, rfl⟩

/-- **Folding files together** succeeds exactly when each of them holds a dump and their operations
can be entered behind the ledger of the graph. -/
theorem foldTogether_iff {s : Session} (hreads : ReadsAs setting.demangle s.memo nameOf)
    (h : IsLedger setting.idOf entries) (hs : s.graph = after setting.idOf entries)
    (paths : List String) (tallies : List Tally) (g' : Graph) :
    (∃ t, (foldTogether setting options paths).outcome s = (.ok tallies, t) ∧ t.graph = g') ↔
      ∃ batches, FilesHold setting options nameOf paths batches ∧
        (IsLedger setting.idOf (enteredWith options.locations entries batches) ∧
          g' = after setting.idOf (enteredWith options.locations entries batches)) ∧
        tallies = batches.map (Records.tally (knownWith options.locations entries batches)) := by
  obtain ⟨hresult, hgraph, -⟩ :=
    Answers.mapM (answers_collectFile setting options nameOf) paths s hreads
  rw [foldTogether_eq]
  constructor
  · rintro ⟨t, ht, rfl⟩
    obtain ⟨batches, s', hcollect, ht⟩ := Action.outcome_bind_eq_ok_iff.mp ht
    rw [hcollect] at hresult hgraph
    exact ⟨batches, mapM_eq_ok_iff_forall₂.mp hresult.symm,
      (books_batches batches h s' (hgraph.trans hs) tallies t.graph).mp ⟨t, ht, rfl⟩⟩
  · rintro ⟨batches, hfiles, hall⟩
    rw [mapM_eq_ok_iff_forall₂.mpr hfiles] at hresult
    obtain ⟨t, ht, hg'⟩ := (books_batches batches h _ (hgraph.trans hs) tallies g').mpr hall
    exact ⟨t, Action.outcome_bind_eq_ok_iff.mpr ⟨batches, _, Prod.ext hresult rfl, ht⟩, hg'⟩

/-- **Folding a dump** succeeds exactly when it has records and their operations can be entered
behind the ledger of the graph. -/
theorem foldBlock_iff {s : Session} (hreads : ReadsAs setting.demangle s.memo nameOf)
    (h : IsLedger setting.idOf entries) (hs : s.graph = after setting.idOf entries)
    (source : String) (block : Block) (tally : Tally) (g' : Graph) :
    (∃ t, (foldBlock setting options source block).outcome s = (.ok tally, t) ∧ t.graph = g') ↔
      ∃ records, recordsOf (namingUnder options nameOf) source block = .ok records ∧
        (IsLedger setting.idOf (enteredWith options.locations entries [records]) ∧
          g' = after setting.idOf (enteredWith options.locations entries [records])) ∧
        tally = records.tally (knownWith options.locations entries [records]) := by
  have hbooks {records : Records}
      (hrecords : recordsOf (namingUnder options nameOf) source block = .ok records) :
      Books setting.idOf entries
        (do
          let tally ← applyFunctions setting.idOf options.locations source records.functions
            { source }
          let tally ← applyCalls options.locations source records.calls tally
          Action.tell (.ingested tally)
          return tally)
        (registrationsOf options.locations [records] ++
          callsOf options.locations (knownWith options.locations entries [records]) [records])
        (records.tally (knownWith options.locations entries [records])) := by
    obtain rfl := source_of_recordsOf hrecords
    rw [registrationsOf, callsOf, List.flatMap_singleton, List.flatMap_singleton]
    refine (books_applyFunctions setting.idOf options.locations records).bind ?_
    refine books_callBatch setting.idOf options ?_ records
    rw [knownWith, registrationsOf, List.flatMap_singleton]
  obtain ⟨hresult, hgraph, -⟩ := answers_collect options source block s hreads
  rw [foldBlock]
  constructor
  · rintro ⟨t, ht, rfl⟩
    obtain ⟨records, s', hcollect, ht⟩ := Action.outcome_bind_eq_ok_iff.mp ht
    rw [hcollect] at hresult hgraph
    exact ⟨records, hresult.symm,
      (hbooks hresult.symm h s' (hgraph.trans hs) tally t.graph).mp ⟨t, ht, rfl⟩⟩
  · rintro ⟨records, hrecords, hall⟩
    rw [hrecords] at hresult
    obtain ⟨t, ht, hg'⟩ := (hbooks hrecords h _ (hgraph.trans hs) tally g').mpr hall
    exact ⟨t, Action.outcome_bind_eq_ok_iff.mpr ⟨records, _, Prod.ext hresult rfl, ht⟩, hg'⟩

end Folding

end CallAtlas.Ingest
