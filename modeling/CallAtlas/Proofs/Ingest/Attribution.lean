import CallAtlas.Proofs.Ingest.Stopping

/-!
# Whom a failure blames

Folding files fails because of one of them.  Which failures there are is told here, with what is
wrong in the file at fault and with the path that the failure carries: a malformed dump is told by
the normalised path of its file, a dump that is no call graph and a malformed place by the path as
it was given.  Only two names with one id are told without a path.

## Main definitions

* `FileFault.isOfSystem`, `FileFault.isOfEncoding`: why a file gives no text
* `AtFault setting options s path failure`: the file at `path` is to blame for a failure
* `Attributed setting options path failure`: what a failure is that the file at `path` is to blame
  for

## Main results

* `attributed_of_atFault`: the kinds of failure, and the path that each carries
* `atFault_of_stopped`: where folding stops a file is at fault
* `foldFiles_failures_attributed`: each failure blames one of the files
-/

namespace CallAtlas

/-- The system does not give the bytes of the file. -/
def FileFault.isOfSystem : FileFault → Bool
  | .missing _ => true
  | .isDirectory _ => true
  | .notADirectory _ => true
  | .nameTooLong _ => true
  | _ => false

/-- The bytes of the file cannot be read in the encoding. -/
def FileFault.isOfEncoding : FileFault → Bool
  | .unknownEncoding _ => true
  | .undecodable _ => true
  | _ => false

namespace Ingest

open CallAtlas.Graph (Misplaced Reachable)

/-- The texts that tell the places in a dump, of functions and of calls. -/
def Records.places (records : Records) : List String :=
  records.functions.map FunctionRecord.location ++ records.calls.map CallRecord.label

/-- **The file at `path` is at fault**: it is refused, a place in it cannot be read, or a function
of it has no id or the id of another name. -/
inductive AtFault (setting : Setting) (options : Options) (s : Session) (path : String) :
    Failure → Prop
  | refused {failure : Failure} (h : Refused setting options path failure) :
      AtFault setting options s path failure
  | digits {records : Records} {text : String} {count : Nat}
      (hrecords : ((collectFile setting options path).outcome s).1 = .ok records)
      (htext : text ∈ records.places)
      (hplace : Location.ofString? text = .error (.tooManyDigits count)) :
      AtFault setting options s path (.digitLimit count)
  | place {records : Records} {text digits source : String} {coordinate : Location.Coordinate}
      (hrecords : ((collectFile setting options path).outcome s).1 = .ok records)
      (htext : text ∈ records.places) (hstrict : options.locations = .strict)
      (hplace : Location.ofString? text = .error (.notANumber coordinate digits source)) :
      AtFault setting options s path
        (.diagnosed
          { cause := .location (.notANumber coordinate digits source), path := some path })
  | name {records : Records} {record : FunctionRecord} {fault : Text.EncodeFault}
      (hrecords : ((collectFile setting options path).outcome s).1 = .ok records)
      (hrecord : record ∈ records.functions)
      (hfault : setting.idOf.fault? record.name = some fault) :
      AtFault setting options s path (.unencodable fault)
  | collision {records : Records} {record : FunctionRecord} {owner : String}
      (hrecords : ((collectFile setting options path).outcome s).1 = .ok records)
      (hrecord : record ∈ records.functions) (hother : owner ≠ record.name)
      (hid : setting.idOf owner = setting.idOf record.name) :
      AtFault setting options s path
        (.diagnosed { cause := .idCollision (setting.idOf record.name) owner record.name })

/-- What a failure is that the file at `path` is to blame for, and the path that it carries. -/
def Attributed (setting : Setting) (options : Options) (path : String) : Failure → Prop
  | .unreadable fault =>
    fault.isOfSystem = true ∨ fault.isOfEncoding = true ∨
      (fault = .nullInPath ∧ (Path.ofString path).toString.contains '\x00' = true) ∨
      (fault = .nullInEncoding ∧ options.encoding.contains '\x00' = true) ∨
      (∃ reason, fault = .unencodablePath reason ∧
        setting.files.pathFault? (Path.ofString path).toString = some reason) ∨
      ∃ reason, fault = .unencodableEncoding reason ∧
        setting.files.encodingFault? options.encoding = some reason
  | .unencodable fault => ∃ name, setting.idOf.fault? name = some fault
  | .tooDeep => ∃ text, setting.files.readText (Path.ofString path) options.encoding = .ok text ∧
      canDescend text = false
  | .digitLimit _ => True
  | .unwritable => False
  | .diagnosed diagnostic =>
    match diagnostic.cause with
    | .malformedDump _ => diagnostic.path = some (Path.ofString path).toString
    | .schema _ => diagnostic.path = some path
    | .location _ => diagnostic.path = some path ∧ options.locations = .strict
    | .idCollision .. => diagnostic.path = none
    | _ => False

/-! ## Faults of files -/

section Reading

variable {files : Workspace} {fault : FileFault}

theorem isOfSystem_of_follow {path : Path} {place : Workspace.Place} {names : List String}
    (h : files.follow path place names = .error fault) : fault.isOfSystem = true := by
  fun_induction Workspace.follow files path place names with
  | case1 bytes => cases h
  | case7 place name rest _ _ _ ih => exact ih h
  | _ =>
    obtain rfl := Except.error.inj h
    rfl

/-- No bytes are found at a path by the system, or for what no path can be. -/
theorem of_contents_eq_error {path : Path} (h : files.contents path = .error fault) :
    fault.isOfSystem = true ∨ (fault = .nullInPath ∧ path.toString.contains '\x00' = true) ∨
      ∃ reason, fault = .unencodablePath reason ∧ files.pathFault? path.toString = some reason := by
  unfold Workspace.contents at h
  split at h
  · next reason hreason =>
    obtain rfl := Except.error.inj h
    exact .inr (.inr ⟨reason, rfl, hreason⟩)
  · split at h
    · next hnull =>
      obtain rfl := Except.error.inj h
      exact .inr (.inl ⟨rfl, hnull⟩)
    · split at h
      · obtain rfl := Except.error.inj h
        exact .inl rfl
      · exact .inl (isOfSystem_of_follow h)

theorem of_checkEncoding_eq_error {encoding : String}
    (h : files.checkEncoding encoding = .error fault) :
    (fault = .nullInEncoding ∧ encoding.contains '\x00' = true) ∨
      ∃ reason, fault = .unencodableEncoding reason ∧
        files.encodingFault? encoding = some reason := by
  unfold Workspace.checkEncoding at h
  split at h
  · next reason hreason =>
    obtain rfl := Except.error.inj h
    exact .inr ⟨reason, rfl, hreason⟩
  · split at h
    · next hnull =>
      obtain rfl := Except.error.inj h
      exact .inl ⟨rfl, hnull⟩
    · cases h

theorem isOfEncoding_of_decode {encoding : String} {bytes : List UInt8}
    (h : files.decode encoding bytes = .error fault) : fault.isOfEncoding = true := by
  unfold Workspace.decode at h
  split at h
  · obtain rfl := Except.error.inj h
    rfl
  · split at h
    · obtain rfl := Except.error.inj h
      rfl
    · cases h

/-- A file gives no text by the system, by its encoding, or for what neither name can be. -/
theorem attributed_unreadable {setting : Setting} {options : Options} {path : String}
    (h : setting.files.readText (Path.ofString path) options.encoding = .error fault) :
    Attributed setting options path (.unreadable fault) := by
  rcases bind_eq_error_iff.mp h with hencoding | ⟨_, -, hread⟩
  · rcases of_checkEncoding_eq_error hencoding with hnull | hreason
    · exact .inr (.inr (.inr (.inl hnull)))
    · exact .inr (.inr (.inr (.inr (.inr hreason))))
  -- the bytes are looked for before the encoding is
  rcases bind_eq_error_iff.mp hread with hcontents | ⟨bytes, -, hdecode⟩
  · rcases of_contents_eq_error hcontents with hsystem | hnull | hreason
    · exact .inl hsystem
    · exact .inr (.inr (.inl hnull))
    · exact .inr (.inr (.inr (.inr (.inl hreason))))
  · exact .inr (.inl (isOfEncoding_of_decode hdecode))

end Reading

/-! ## Files at fault -/

section AtFault

variable {setting : Setting} {options : Options} {s : Session} {path : String} {failure : Failure}

/-- **Each failure is of a known kind and carries the path that its kind tells.** -/
theorem attributed_of_atFault (h : AtFault setting options s path failure) :
    Attributed setting options path failure := by
  cases h with
  | refused hrefused =>
    cases hrefused with
    | unreadable htext => exact attributed_unreadable htext
    | tooDeep htext hdeep => exact ⟨_, htext, hdeep⟩
    | malformed => rfl
    | schema => rfl
  | digits => trivial
  | place _ _ hstrict => exact ⟨rfl, hstrict⟩
  | name _ _ hfault => exact ⟨_, hfault⟩
  | collision => rfl

theorem atFault_of_misplaced {records : Records} {text : String} {cause : Failure}
    (hrecords : ((collectFile setting options path).outcome s).1 = .ok records)
    (htext : text ∈ records.places) (h : Misplaced options.locations text cause) :
    AtFault setting options s path (cause.locatedIn path) := by
  cases h with
  | digits hplace => exact .digits hrecords htext hplace
  | place hstrict hplace => exact .place hrecords htext hstrict hplace

/-- A record that cannot be entered puts its file at fault. -/
theorem atFault_of_rejected {records : Records} {g : Graph} {cause : Failure}
    (hg : Reachable setting.idOf g)
    (hrecords : ((collectFile setting options path).outcome s).1 = .ok records)
    (h : Rejected setting.idOf options.locations g records cause) :
    AtFault setting options s path (cause.locatedIn path) := by
  cases h with
  | definition hrecord hplace =>
    exact atFault_of_misplaced hrecords
      (List.mem_append_left _ (List.mem_map_of_mem hrecord)) hplace
  | site hrecord hplace =>
    exact atFault_of_misplaced hrecords
      (List.mem_append_right _ (List.mem_map_of_mem hrecord)) hplace
  | name hrecord hfault => exact .name hrecords hrecord hfault
  | collision hrecord howner hother =>
    exact .collision hrecords hrecord hother (hg.registry.id_eq _ _ howner).symm

/-- **Where folding stops a file is at fault.** -/
theorem atFault_of_stopped {paths : List String} {collected : Except Failure (List Records)}
    {g g' : Graph} (hg : Reachable setting.idOf g)
    (hrefused : ∀ cause, collected = .error cause →
      ∃ path ∈ paths, Refused setting options path cause)
    (hrecords : ∀ batches, collected = .ok batches → ∀ records ∈ batches,
      records.source ∈ paths ∧
        ((collectFile setting options records.source).outcome s).1 = .ok records)
    (h : Stopped setting.idOf options.locations g collected failure g') :
    ∃ path ∈ paths, AtFault setting options s path failure := by
  cases h with
  | collecting =>
    obtain ⟨path, hpath, hrefused⟩ := hrefused failure rfl
    exact ⟨path, hpath, .refused hrefused⟩
  | entering hsteps hdone hstep =>
    obtain ⟨records, hmem, hsource, hrejected⟩ := rejected_of_attempt hg hsteps hdone hstep
    obtain ⟨hpath, hcollected⟩ := hrecords _ rfl records hmem
    rw [hsource]
    exact ⟨records.source, hpath,
      atFault_of_rejected (reachable_of_enterSteps hg hdone) hcollected hrejected⟩

theorem atFault_of_stopped_file {g g' : Graph} (hg : Reachable setting.idOf g)
    (h : Stopped setting.idOf options.locations g
      (((collectFile setting options path).outcome s).1.map ([·])) failure g') :
    AtFault setting options s path failure := by
  obtain ⟨hresult, -, -⟩ := answers_collectFile setting options _ path s
    (readsAs_resolve setting.demangle s.memo)
  have hfault : ∃ path' ∈ [path], AtFault setting options s path' failure := by
    refine atFault_of_stopped hg (fun cause hcause => ?_) (fun batches hbatches => ?_) h
    · cases hcollect : ((collectFile setting options path).outcome s).1 with
      | ok records => simp [hcollect, Except.map] at hcause
      | error first =>
        rw [hcollect] at hresult hcause
        obtain rfl := Except.error.inj hcause
        exact ⟨path, List.mem_singleton_self path, refused_of_fileRecordsOf hresult.symm⟩
    · cases hcollect : ((collectFile setting options path).outcome s).1 with
      | error first => simp [hcollect, Except.map] at hbatches
      | ok records =>
        rw [hcollect] at hresult hbatches
        obtain rfl := Except.ok.inj hbatches
        obtain rfl := source_of_fileRecordsOf hresult.symm
        simpa using hcollect
  simpa using hfault

/-- Files that are folded together. -/
theorem atFault_of_foldTogether (hs : Reachable setting.idOf s.graph) {paths : List String}
    {g' : Graph} (h : FailsWith (foldTogether setting options paths) s failure g') :
    ∃ path ∈ paths, AtFault setting options s path failure := by
  have hreads := readsAs_resolve setting.demangle s.memo
  obtain ⟨hresult, -, -⟩ := Answers.mapM (answers_collectFile setting options _) paths s hreads
  refine atFault_of_stopped hs (fun cause hcause => ?_) (fun batches hbatches => ?_)
    ((foldTogether_failsWith_iff hs paths).mp h)
  · obtain ⟨path, hpath, hrefused⟩ := exists_of_mapM_eq_error (hresult.symm.trans hcause)
    exact ⟨path, hpath, refused_of_fileRecordsOf hrefused⟩
  · obtain ⟨rfl, hrecords⟩ :=
      filesHold_iff.mp (mapM_eq_ok_iff_forall₂.mp (hresult.symm.trans hbatches))
    intro records hmem
    exact ⟨List.mem_map_of_mem hmem,
      (answers_collectFile setting options _ records.source s hreads).1.trans
        (hrecords records hmem)⟩

/-- Files that are folded in order. -/
theorem atFault_of_stoppedAmong {paths : List String} {g g' : Graph}
    (hg : Reachable setting.idOf g)
    (h : StoppedAmong setting.idOf options.locations
      (fun path => ((collectFile setting options path).outcome s).1) paths g failure g') :
    ∃ path ∈ paths, AtFault setting options s path failure := by
  -- along the files: those that were entered whole leave a reachable graph and no fault
  induction h with
  | here hstopped => exact ⟨_, List.mem_cons_self, atFault_of_stopped_file hg hstopped⟩
  | later hrecords hentered hlater ih =>
    obtain ⟨path, hpath, hfault⟩ := ih (reachable_of_enterSteps hg hentered)
    exact ⟨path, List.mem_cons_of_mem _ hpath, hfault⟩

theorem atFault_of_foldFiles (hs : Reachable setting.idOf s.graph) {paths : List String}
    {g' : Graph} (h : FailsWith (foldFiles setting options paths) s failure g') :
    ∃ path ∈ paths, AtFault setting options s path failure := by
  by_cases hresolve : options.resolveAcrossFiles = true
  · rw [foldFiles, if_pos hresolve] at h
    exact atFault_of_foldTogether hs h
  · have horder := Bool.eq_false_iff.mpr hresolve
    exact atFault_of_stoppedAmong hs ((foldFiles_inOrder_failsWith_iff hs horder paths).mp h)

end AtFault

/-- **Each failure blames one of the files**, which is at fault, and carries its path as its kind
tells: a file gives no text, its text nests too deeply or is no dump, its dump is no call graph, a
place in it has too many digits or, where places are read strictly, no number, or a function of it
has no id or the id of another name.  No other failure escapes, and of the diagnosed ones only the
last carries no path. -/
theorem foldFiles_failures_attributed (setting : Setting) (options : Options) {s : Session}
    (hs : Reachable setting.idOf s.graph) :
    (∀ path failure t, (foldFile setting options path).outcome s = (.error failure, t) →
      AtFault setting options s path failure ∧ Attributed setting options path failure) ∧
    (∀ paths failure t, (foldFiles setting options paths).outcome s = (.error failure, t) →
      ∃ path ∈ paths,
        AtFault setting options s path failure ∧ Attributed setting options path failure) := by
  constructor
  · intro path failure t h
    have hstopped := (foldFile_failsWith_iff hs path).mp ⟨t, h, rfl⟩
    have hfault := atFault_of_stopped_file hs hstopped
    exact ⟨hfault, attributed_of_atFault hfault⟩
  · intro paths failure t h
    obtain ⟨path, hpath, hfault⟩ := atFault_of_foldFiles hs ⟨t, h, rfl⟩
    exact ⟨path, hpath, hfault, attributed_of_atFault hfault⟩

/-- A file whose dump is no call graph. -/
def foreignSetting : Setting where
  idOf := Graph.lengthIds
  demangle := some
  files := .ofFiles [("a", "tree:\x7b\x7d".toUTF8.toList)]

theorem foldFiles_failures_attributed_foreign :
    Reachable foreignSetting.idOf ({} : Session).graph ∧
      ((foldFiles foreignSetting {} ["./a"]).outcome {}).1 =
        .error (.diagnosed { cause := .schema (.notAGraph "tree"), path := some "./a" }) ∧
      AtFault foreignSetting {} {} "./a"
        (.diagnosed { cause := .schema (.notAGraph "tree"), path := some "./a" }) := by
  have hreachable : Reachable foreignSetting.idOf ({} : Session).graph := ⟨[], rfl⟩
  have hdump : readDump foreignSetting.files "utf-8" "./a" = (do
      Action.tell (.reading "a")
      return ⟨"tree", []⟩) :=
    readDump_of_parse (by cbv) (by cbv : _ = Except.ok "tree:\x7b\x7d") (by decide +kernel)
      (by decide +kernel)
  have hfails : ((foldFiles foreignSetting {} ["./a"]).outcome {}).1 =
      .error (.diagnosed { cause := .schema (.notAGraph "tree"), path := some "./a" }) := by
    simp only [foldFiles, List.mapM_cons, List.mapM_nil, foldFile, hdump]
    cbv
  obtain ⟨-, hfiles⟩ := foldFiles_failures_attributed foreignSetting {} hreachable
  obtain ⟨path, hpath, hfault, -⟩ := hfiles ["./a"] _ _ (Prod.ext hfails rfl)
  obtain rfl := List.mem_singleton.mp hpath
  exact ⟨hreachable, hfails, hfault⟩

/-- A path with a null character is refused neither by the system nor by the encoding. -/
theorem unreadable_by_null_in_path :
    ¬ ∀ (path : String) (fault : FileFault) (t : Session),
      (foldFile emptySetting {} path).outcome {} = (.error (.unreadable fault), t) →
        fault.isOfSystem = true ∨ fault.isOfEncoding = true := by
  intro h
  have hnull : ((foldFile emptySetting {} "a\x00b").outcome {}).1 =
      .error (.unreadable .nullInPath) := by
    cbv
  rcases h "a\x00b" .nullInPath _ (Prod.ext hnull rfl) with h | h
  · cases h
  · cases h

end Ingest

end CallAtlas
