import CallAtlas.Dump.Depth
import CallAtlas.Dump.Parse
import CallAtlas.Ingest.Records

/-!
# Folding dumps into a graph

The functions of a dump are registered before its calls are added, because calls refer to functions
by name.  A call with an end that is not registered is dropped: it is recorded and told, and does
not stop anything.  A malformed place does, unless the options are lenient, and so does an id that
two names share.

Several files are folded one after the other, or with the functions of all of them before the calls
of any, so that a call into a later file is not dropped.

## Main definitions

* `foldBlock`, `foldText` — one dump, already read or as a text;
* `foldFile`, `foldFiles` — dumps in files.
-/

namespace CallAtlas.Ingest

open CallAtlas.Dump (Block)

/-- What reading dumps depends on besides the dumps and the options. -/
structure Setting where
  /-- The id of each name. -/
  idOf : IdScheme
  /-- The readable form of each symbol. -/
  demangle : Resolver.Demangler
  /-- The files to read. -/
  files : Workspace := {}

/-- Registers the functions of a dump; the tally counts those registered. -/
def applyFunctions (idOf : IdScheme) (strictness : Strictness) (source : String) :
    List FunctionRecord → Tally → Action Tally
  | [], tally => pure tally
  | record :: rest, tally => do
    let register : Action FunctionId :=
      Action.perform fun g => g.addFunction idOf record.name (some record.location) strictness
    let _ ← tryCatch register fun failure => throw (failure.locatedIn source)
    applyFunctions idOf strictness source rest { tally with functions := tally.functions + 1 }

/-- Drops a call for the want of an end. -/
def dropCall (source : String) (record : CallRecord) (side name : String) : Action Unit := do
  let dropped : DroppedCall :=
    { source := record.source, target := record.target, label := record.label, missing := side,
      path := some source }
  modify fun s => { s with graph := s.graph.recordDropped dropped }
  Action.tell (.droppedCall source (.missingEndpoint side name))

/-- Adds a call of a dump, or drops it if an end is not registered.  Tells which. -/
def applyCall (strictness : Strictness) (source : String) (record : CallRecord) :
    Action Bool :=
  let add : Action Bool := do
    let _ ← Action.perform fun g =>
      g.addCall record.source record.target (some record.label) strictness
    return true
  tryCatch add fun failure =>
    match failure with
    | .diagnosed { cause := .missingEndpoint side name, .. } => do
      dropCall source record side name
      return false
    | other => throw (other.locatedIn source)

/-- Adds the calls of a dump; the tally counts those added and those dropped. -/
def applyCalls (strictness : Strictness) (source : String) :
    List CallRecord → Tally → Action Tally
  | [], tally => pure tally
  | record :: rest, tally => do
    let added ← applyCall strictness source record
    applyCalls strictness source rest
      (if added then { tally with calls := tally.calls + 1 }
       else { tally with dropped := tally.dropped + 1 })

/-- Folds the dump `source`, whose outermost block is given. -/
def foldBlock (setting : Setting) (options : Options) (source : String) (block : Block) :
    Action Tally := do
  let records ← collect setting.demangle options source block
  let tally ← applyFunctions setting.idOf options.locations source records.functions { source }
  let tally ← applyCalls options.locations source records.calls tally
  Action.tell (.ingested tally)
  return tally

/-- How many frames of the stack reading takes for each level of nesting. -/
def framesPerLevel : Nat := 25

/-- How many frames of the stack reading takes whatever the nesting. -/
def frameHeadroom : Nat := 200

/-- The greatest recursion limit that can be set, a signed number of 32 bits. -/
def frameLimit : Nat := 0x7fffffff

/-- Whether a recursion limit can be set under which a text is read. -/
def canDescend (text : String) : Bool :=
  Dump.nestingDepth text * framesPerLevel + frameHeadroom ≤ frameLimit

/-- Parses a text; `source` is the file that a diagnostic names.  The recursion limit is raised for
the nesting of the text before it is read. -/
def parseText (text : String) (source : Option String) : Action Block := do
  if !canDescend text then
    throw .tooDeep
  match Dump.parse text source with
  | .ok block => pure block
  | .error diagnostic => throw (.diagnosed diagnostic)

/-- What stands for the file of a dump that is given as a text. -/
def anonymousSource : String := "<string>"

/-- Folds a dump given as a text. -/
def foldText (setting : Setting) (options : Options) (text : String) (source : Option String) :
    Action Tally := do
  let block ← parseText text source
  foldBlock setting options (source.getD anonymousSource) block

/-- Reads and parses the dump in a file. -/
def readDump (files : Workspace) (encoding path : String) : Action Block := do
  let place := Path.ofString path
  Action.tell (.reading place.toString)
  match files.readText place encoding with
  | .error fault => throw (.unreadable fault)
  | .ok text => parseText text (some place.toString)

/-- Folds the dump in a file. -/
def foldFile (setting : Setting) (options : Options) (path : String) : Action Tally := do
  let block ← readDump setting.files options.encoding path
  foldBlock setting options path block

/-- Reads a dump and takes its records. -/
def collectFile (setting : Setting) (options : Options) (path : String) : Action Records := do
  let block ← readDump setting.files options.encoding path
  collect setting.demangle options path block

/-- Folds the dumps in several files: all functions before all calls. -/
def foldTogether (setting : Setting) (options : Options) (paths : List String) :
    Action (List Tally) := do
  let batches ← paths.mapM (collectFile setting options)
  let registered ← batches.mapM fun records => do
    let tally ← applyFunctions setting.idOf options.locations records.source records.functions
      { source := records.source }
    return (records, tally)
  registered.mapM fun (records, tally) => do
    let tally ← applyCalls options.locations records.source records.calls tally
    Action.tell (.ingested tally)
    return tally

/-- Folds the dumps in several files, one after the other or resolved across files. -/
def foldFiles (setting : Setting) (options : Options) (paths : List String) :
    Action (List Tally) :=
  if options.resolveAcrossFiles then foldTogether setting options paths
  else paths.mapM (foldFile setting options)

end CallAtlas.Ingest
