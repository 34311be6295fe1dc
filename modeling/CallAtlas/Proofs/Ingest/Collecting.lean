import CallAtlas.Ingest.Fold
import CallAtlas.Proofs.Ingest.Outcome

/-!
# Collecting records

Reading a dump and taking its records depends on the session only through the names remembered in
it, and remembering never changes how a name is read.  So the records of a file are a function of
its path, whenever it is read, and reading it leaves the graph alone.

## Main definitions

* `ReadsAs demangle memo nameOf`: with what is remembered, names are read by `nameOf`
* `Answers demangle nameOf x r`: where names are read by `nameOf`, the action `x` comes to `r` and
  touches neither the graph nor the reading of names
* `blockOf`, `dumpOf`: the dump in a text and in a file
* `recordsOf`, `fileRecordsOf`: the records of a dump and of a file

## Main results

* `ReadsAs.resolve`: remembering a name leaves the reading of all names
* `answers_parseText`, `answers_readDump`: what reading a dump comes to
* `answers_collect`, `answers_collectFile`: what collecting comes to
-/

namespace CallAtlas.Ingest

open CallAtlas.Dump (Block)

/-! ## Readings of names -/

/-- With what `memo` remembers, names are read by `nameOf`. -/
def ReadsAs (demangle : Resolver.Demangler) (memo : Resolver.Memo) (nameOf : String → String) :
    Prop :=
  ∀ name, (Resolver.resolve demangle memo name).1 = nameOf name

/-- Names are read as the memory stands now. -/
theorem readsAs_resolve (demangle : Resolver.Demangler) (memo : Resolver.Memo) :
    ReadsAs demangle memo fun name => (Resolver.resolve demangle memo name).1 :=
  fun _ => rfl

theorem resolve_fst (demangle : Resolver.Demangler) (memo : Resolver.Memo) (name : String) :
    (Resolver.resolve demangle memo name).1 =
      memo.forms[name]?.getD (Resolver.readable demangle name).1 := by
  unfold Resolver.resolve
  cases memo.forms[name]? <;> rfl

/-- Remembering a name leaves the reading of all names. -/
theorem ReadsAs.resolve {demangle : Resolver.Demangler} {memo : Resolver.Memo}
    {nameOf : String → String} (h : ReadsAs demangle memo nameOf) (name : String) :
    ReadsAs demangle (Resolver.resolve demangle memo name).2.2 nameOf := by
  intro other
  rw [← h other]
  cases hform : memo.forms[name]? with
  | some form =>
    have hmemo : (Resolver.resolve demangle memo name).2.2 = memo := by
      simp only [Resolver.resolve, hform]
    rw [hmemo]
  | none =>
    have hforms : (Resolver.resolve demangle memo name).2.2.forms =
        memo.forms.insert name (Resolver.readable demangle name).1 := by
      simp only [Resolver.resolve, hform]
    rw [resolve_fst, resolve_fst, hforms, Std.HashMap.getElem?_insert]
    split
    · next heq =>
      -- the form that is now remembered is the one that would be found
      obtain rfl := beq_iff_eq.mp heq
      rw [hform, Option.getD_some, Option.getD_none]
    · rfl

/-! ## Actions that only answer -/

/-- Where names are read by `nameOf`, the action `x` comes to `r`, and leaves the graph and the
reading of names as they are. -/
def Answers {α : Type} (demangle : Resolver.Demangler) (nameOf : String → String) (x : Action α)
    (r : Except Failure α) : Prop :=
  ∀ s : Session, ReadsAs demangle s.memo nameOf →
    (x.outcome s).1 = r ∧ (x.outcome s).2.graph = s.graph ∧
      ReadsAs demangle (x.outcome s).2.memo nameOf

namespace Answers

variable {α β : Type} {demangle : Resolver.Demangler} {nameOf : String → String}

theorem pure (a : α) : Answers demangle nameOf (Pure.pure a) (.ok a) :=
  fun _ hs => ⟨rfl, rfl, hs⟩

theorem throw (failure : Failure) :
    Answers (α := α) demangle nameOf (MonadExcept.throw failure) (.error failure) :=
  fun _ hs => ⟨rfl, rfl, hs⟩

theorem tell (event : Log.Event) : Answers demangle nameOf (Action.tell event) (.ok ()) :=
  fun _ hs => ⟨rfl, rfl, hs⟩

theorem readable (name : String) :
    Answers demangle nameOf (Action.readable demangle name) (.ok (nameOf name)) :=
  fun _ hs => ⟨congrArg Except.ok (hs name), rfl, hs.resolve name⟩

theorem bind {x : Action α} {f : α → Action β} {r : Except Failure α}
    {k : α → Except Failure β} (hx : Answers demangle nameOf x r)
    (hf : ∀ a, Answers demangle nameOf (f a) (k a)) :
    Answers demangle nameOf (x >>= f) (r >>= k) := by
  intro s hs
  obtain ⟨hresult, hgraph, hreads⟩ := hx s hs
  rw [Action.outcome_bind]
  rcases hout : x.outcome s with ⟨failure | a, s'⟩
  · -- the first action fails, and so does its answer
    rw [hout] at hresult hgraph hreads
    exact ⟨by rw [← hresult]; rfl, hgraph, hreads⟩
  · rw [hout] at hresult hgraph hreads
    obtain ⟨hresult', hgraph', hreads'⟩ := hf a s' hreads
    exact ⟨by rw [← hresult]; exact hresult', hgraph'.trans hgraph, hreads'⟩

theorem bind_ok {x : Action α} {f : α → Action β} {a : α} {r : Except Failure β}
    (hx : Answers demangle nameOf x (.ok a)) (hf : Answers demangle nameOf (f a) r) :
    Answers demangle nameOf (x >>= f) r := by
  intro s hs
  obtain ⟨hresult, hgraph, hreads⟩ := hx s hs
  rw [Action.outcome_bind]
  rcases hout : x.outcome s with ⟨failure | a', s'⟩
  · rw [hout] at hresult
    cases hresult
  · rw [hout] at hresult hgraph hreads
    obtain rfl := Except.ok.inj hresult
    obtain ⟨hresult', hgraph', hreads'⟩ := hf s' hreads
    exact ⟨hresult', hgraph'.trans hgraph, hreads'⟩

theorem mapM {f : α → Action β} {k : α → Except Failure β}
    (hf : ∀ a, Answers demangle nameOf (f a) (k a)) (as : List α) :
    Answers demangle nameOf (as.mapM f) (as.mapM k) := by
  induction as with
  | nil =>
    rw [List.mapM_nil, List.mapM_nil]
    exact .pure []
  | cons a as ih =>
    rw [List.mapM_cons, List.mapM_cons]
    exact (hf a).bind fun b => ih.bind fun bs => .pure (b :: bs)

end Answers

/-! ## Records as a function of the dump -/

/-- The value of a field that a block must have. -/
def fieldOf (source : String) (block : Block) (key : String) : Except Failure String :=
  match block.field? key with
  | some value => .ok value
  | none => .error (schemaFailure source (.missingField block.kind key))

/-- The function that a node describes. -/
def functionOf (nameOf : String → String) (source : String) (node : Block) :
    Except Failure FunctionRecord := do
  let title ← fieldOf source node Schema.nodeTitle
  let label ← fieldOf source node Schema.nodeLabel
  return ⟨nameOf title, Label.locationLine label⟩

/-- The call that an edge describes. -/
def callOf (nameOf : String → String) (source : String) (edge : Block) :
    Except Failure CallRecord := do
  let caller ← fieldOf source edge Schema.edgeSource
  let callee ← fieldOf source edge Schema.edgeTarget
  return ⟨nameOf caller, nameOf callee, (edge.field? Schema.edgeLabel).getD Schema.intrinsicLabel⟩

/-- The records of a dump. -/
def recordsOf (nameOf : String → String) (source : String) (block : Block) :
    Except Failure Records :=
  if block.kind ≠ Schema.graphKind then .error (schemaFailure source (.notAGraph block.kind))
  else do
    let functions ← (block.blocksOfKind Schema.nodeKind).mapM (functionOf nameOf source)
    let calls ← (block.blocksOfKind Schema.edgeKind).mapM (callOf nameOf source)
    return { source, functions, calls }

/-- The outermost block of the dump in a text.  A text that nests too deeply is not looked into. -/
def blockOf (text : String) (source : Option String) : Except Failure Block :=
  if canDescend text then
    match Dump.parse text source with
    | .ok block => .ok block
    | .error diagnostic => .error (.diagnosed diagnostic)
  else .error .tooDeep

/-- The outermost block of the dump in a file. -/
def dumpOf (files : Workspace) (encoding path : String) : Except Failure Block :=
  match files.readText (Path.ofString path) encoding with
  | .error fault => .error (.unreadable fault)
  | .ok text => blockOf text (some (Path.ofString path).toString)

/-- How names in dumps are read under some options. -/
def namingUnder (options : Options) (nameOf : String → String) : String → String :=
  if options.demangle then nameOf else id

/-- The records of the dump in a file. -/
def fileRecordsOf (setting : Setting) (options : Options) (nameOf : String → String)
    (path : String) : Except Failure Records := do
  let block ← dumpOf setting.files options.encoding path
  recordsOf (namingUnder options nameOf) path block

/-- Records tell the dump that they are taken from. -/
theorem source_of_recordsOf {naming : String → String} {source : String} {block : Block}
    {records : Records} (h : recordsOf naming source block = .ok records) :
    records.source = source := by
  unfold recordsOf at h
  split at h
  · simp at h
  · cases hfunctions : (block.blocksOfKind Schema.nodeKind).mapM (functionOf naming source) with
    | error failure => simp [hfunctions, Bind.bind, Except.bind] at h
    | ok functions =>
      cases hcalls : (block.blocksOfKind Schema.edgeKind).mapM (callOf naming source) with
      | error failure => simp [hfunctions, hcalls, Bind.bind, Except.bind] at h
      | ok calls =>
        rw [hfunctions, hcalls] at h
        rw [← Except.ok.inj h]

theorem source_of_fileRecordsOf {setting : Setting} {options : Options} {nameOf : String → String}
    {path : String} {records : Records}
    (h : fileRecordsOf setting options nameOf path = .ok records) : records.source = path := by
  unfold fileRecordsOf at h
  cases hdump : dumpOf setting.files options.encoding path with
  | error failure => simp [hdump, Bind.bind, Except.bind] at h
  | ok block =>
    rw [hdump] at h
    exact source_of_recordsOf h

section Collect

variable {demangle : Resolver.Demangler} {nameOf : String → String}

theorem answers_requireField (source : String) (block : Block) (key : String) :
    Answers demangle nameOf (requireField source block key) (fieldOf source block key) := by
  unfold requireField fieldOf
  cases block.field? key with
  | some value => exact .pure value
  | none => exact .throw _

theorem answers_functionRecord {read : String → Action String} {naming : String → String}
    (hread : ∀ name, Answers demangle nameOf (read name) (.ok (naming name))) (source : String)
    (node : Block) :
    Answers demangle nameOf (functionRecord read source node) (functionOf naming source node) := by
  unfold functionRecord functionOf
  refine (answers_requireField source node _).bind fun title => ?_
  refine (answers_requireField source node _).bind fun label => ?_
  exact (hread title).bind_ok (.pure _)

theorem answers_callRecord {read : String → Action String} {naming : String → String}
    (hread : ∀ name, Answers demangle nameOf (read name) (.ok (naming name))) (source : String)
    (edge : Block) :
    Answers demangle nameOf (callRecord read source edge) (callOf naming source edge) := by
  unfold callRecord callOf
  refine (answers_requireField source edge _).bind fun caller => ?_
  refine (hread caller).bind_ok ?_
  refine (answers_requireField source edge _).bind fun callee => ?_
  exact (hread callee).bind_ok (.pure _)

/-- **Collecting comes to the records of the dump.** -/
theorem answers_collect (options : Options) (source : String) (block : Block) :
    Answers demangle nameOf (collect demangle options source block)
      (recordsOf (namingUnder options nameOf) source block) := by
  have hread : ∀ name, Answers demangle nameOf
      ((if options.demangle then Action.readable demangle else Pure.pure) name)
      (.ok (namingUnder options nameOf name)) := by
    intro name
    unfold namingUnder
    split
    · exact .readable name
    · exact .pure name
  unfold collect recordsOf
  by_cases hkind : block.kind = Schema.graphKind
  · rw [if_neg (not_not_intro hkind), if_neg (not_not_intro hkind)]
    refine (Answers.mapM (answers_functionRecord hread source) _).bind fun functions => ?_
    refine (Answers.mapM (answers_callRecord hread source) _).bind fun calls => ?_
    exact .pure _
  · rw [if_pos hkind, if_pos hkind]
    exact .throw _

theorem blockOf_eq_ok_iff {text : String} {source : Option String} {block : Block} :
    blockOf text source = .ok block ↔
      canDescend text = true ∧ Dump.parse text source = .ok block := by
  unfold blockOf
  split
  · next hdeep => cases Dump.parse text source <;> simp [hdeep]
  · next hdeep => simp [hdeep]

/-- Parsing a text comes to the dump in it. -/
theorem parseText_eq (text : String) (source : Option String) :
    parseText text source =
      match blockOf text source with
      | .ok block => pure block
      | .error failure => throw failure := by
  unfold parseText blockOf
  cases canDescend text with
  | false => rfl
  | true => cases Dump.parse text source <;> rfl

/-- A file that holds a dump is told and read. -/
theorem readDump_of_parse {files : Workspace} {encoding path name text : String} {block : Block}
    (hname : (Path.ofString path).toString = name)
    (htext : files.readText (Path.ofString path) encoding = .ok text)
    (hdescend : canDescend text = true) (hparse : Dump.parse text (some name) = .ok block) :
    readDump files encoding path = (do
      Action.tell (.reading name)
      return block) := by
  simp only [readDump, hname, htext, parseText_eq, blockOf_eq_ok_iff.mpr ⟨hdescend, hparse⟩]

theorem answers_parseText (text : String) (source : Option String) :
    Answers demangle nameOf (parseText text source) (blockOf text source) := by
  rw [parseText_eq]
  cases blockOf text source with
  | error failure => exact .throw _
  | ok block => exact .pure block

/-- Reading a file comes to the dump in it. -/
theorem answers_readDump (files : Workspace) (encoding path : String) :
    Answers demangle nameOf (readDump files encoding path) (dumpOf files encoding path) := by
  unfold readDump dumpOf
  refine (Answers.tell _).bind_ok ?_
  cases files.readText (Path.ofString path) encoding with
  | error fault => exact .throw _
  | ok text => exact answers_parseText text _

end Collect

/-- **Collecting from a file comes to its records.** -/
theorem answers_collectFile (setting : Setting) (options : Options) (nameOf : String → String)
    (path : String) :
    Answers setting.demangle nameOf (collectFile setting options path)
      (fileRecordsOf setting options nameOf path) :=
  (answers_readDump setting.files options.encoding path).bind fun block =>
    answers_collect options path block

end CallAtlas.Ingest
