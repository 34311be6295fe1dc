import CallAtlas.Proofs.Ingest.Accounting
import CallAtlas.Proofs.Ingest.Steps

/-!
# Strict and lenient folding

Lenient folding passes over a malformed place with a warning, where strict folding stops.  Nothing
else tells them apart: as long as no warning is given, both do the same, and at the first warning
the strict one fails by the place that the lenient one warns of.  So a strict run is looked at
through the lenient run on the same session and the warnings in its log.

Whether a malformed label is warned of depends on the ends of the call.  A call that is dropped is
dropped before its label is read.

## Main definitions

* `malformation? text`: what is wrong with a malformed place
* `warningsIn events`: the malformed places that events warn of
* `Eases source x faults s`: where the lenient form of `x` warns, its strict form stops
* `FunctionsKept`, `CallsKept`: what becomes of malformed records in a lenient run

## Main results

* `Eases.bind`: composed actions
* `eases_of_ended`: an action that reads a place
* `eases_applyFunctions`, `eases_applyCalls`, `eases_foldBlock`: folding
* `functionsKept_of_applyFunctions`, `callsKept_of_enterCalls`: what a lenient run keeps
* `lenient_fold_eases_strict`: strict and lenient folding differ on malformed places alone
-/

namespace CallAtlas.Ingest

open CallAtlas.Dump (Block)
open CallAtlas.Graph (Attempt Reachable Reading SameFunctions contains_eq_isSome namesIn placeIn
  readSite siteTold)

/-! ## Malformed places -/

/-- What is wrong with the place in a text, if it is malformed.  A number with too many digits is no
such fault. -/
def malformation? (text : String) : Option LocationFault :=
  match Location.ofString? text with
  | .error (.notANumber coordinate digits source) => some (.notANumber coordinate digits source)
  | _ => none

/-- The failure of a malformed place in the dump `source`. -/
def malformedIn (source : String) (fault : LocationFault) : Failure :=
  .diagnosed { cause := .location fault, path := some source }

section Places

variable {text : String}

theorem readSite_of_malformed {fault : LocationFault} (h : malformation? text = some fault) :
    readSite .lenient (some text) = ⟨[.ignoredLocation fault], .ok none⟩ ∧
      readSite .strict (some text) = .fail (.ofCause (.location fault)) := by
  unfold malformation? at h
  split at h
  · next hplace =>
    obtain rfl := Option.some.inj h
    simp [readSite, hplace, Failure.ofLocationFault]
  · cases h

/-- A place that is not malformed is read alike either way, without a warning. -/
theorem readSite_of_not_malformed (h : malformation? text = none) :
    readSite .strict (some text) = readSite .lenient (some text) ∧
      (readSite .lenient (some text)).events = [] ∧
      ∀ failure, (readSite .lenient (some text)).result = .error failure →
        ∃ count, failure = .digitLimit count := by
  unfold malformation? at h
  rcases hplace : Location.ofString? text with (⟨coordinate, digits, source⟩ | count) | site
  · simp [hplace] at h
  · simp [readSite, hplace, Reading.fail, eq_comm]
  · simp [readSite, hplace, Reading.succeed]

theorem siteTold_of_malformed {fault : LocationFault} (h : malformation? text = some fault) :
    siteTold (some text) = none := by
  have hsite : (readSite .lenient (some text)).result = .ok none := by
    rw [(readSite_of_malformed h).1]
  exact (Graph.readSite_eq_ok_iff.mp hsite).2.symm

end Places

/-! ## Warnings -/

/-- The malformed place that an event warns of. -/
def ignoredPlace? : Log.Event → Option LocationFault
  | .ignoredLocation fault => some fault
  | _ => none

/-- The malformed places that events warn of, in their order. -/
def warningsIn (events : List Log.Event) : List LocationFault :=
  events.filterMap ignoredPlace?

@[simp] theorem warningsIn_append (events events' : List Log.Event) :
    warningsIn (events ++ events') = warningsIn events ++ warningsIn events' :=
  List.filterMap_append

/-- Looking up a name warns of nothing. -/
theorem warningsIn_resolve (demangle : Resolver.Demangler) (memo : Resolver.Memo) (name : String) :
    warningsIn (Resolver.resolve demangle memo name).2.1 = [] := by
  unfold Resolver.resolve
  cases memo.forms[name]? with
  | some form => rfl
  | none =>
    rcases Resolver.readable demangle name with ⟨form, _ | symbol⟩
    · rfl
    · rfl

/-! ## Strict and lenient forms of an action -/

/-- On the session `s` the lenient form of `x` tells `events`, and never fails by a malformed place.
Without a warning among the events the strict form does the same; otherwise it fails by the place
that is warned of first.  If the lenient form succeeds, it warns of the places `faults`. -/
structure EasedBy {α : Type} (source : String) (x : Strictness → Action α)
    (faults : List LocationFault) (s : Session) (events : List Log.Event) : Prop where
  log_eq : ((x .lenient).outcome s).2.log.toList = s.log.toList ++ events
  tolerant : ∀ diagnostic t, (x .lenient).outcome s = (.error (.diagnosed diagnostic), t) →
    diagnostic.cause.isBadValue = false
  warned : ∀ a t, (x .lenient).outcome s = (.ok a, t) → warningsIn events = faults
  same : warningsIn events = [] → (x .strict).outcome s = (x .lenient).outcome s
  stops : ∀ fault rest, warningsIn events = fault :: rest →
    ∃ t, (x .strict).outcome s = (.error (malformedIn source fault), t)

/-- Where the strict form succeeds, the lenient one warns of nothing. -/
theorem EasedBy.warningsIn_eq_nil {α : Type} {source : String} {x : Strictness → Action α}
    {faults : List LocationFault} {s t : Session} {events : List Log.Event} {a : α}
    (h : EasedBy source x faults s events) (hx : (x .strict).outcome s = (.ok a, t)) :
    warningsIn events = [] := by
  cases hwarned : warningsIn events with
  | nil => rfl
  | cons fault rest =>
    obtain ⟨t', ht'⟩ := h.stops fault rest hwarned
    cases (Prod.mk.inj (hx.symm.trans ht')).1

/-- **Where the lenient form of `x` warns, its strict form stops.**  On success the lenient form
warns of `faults`. -/
def Eases {α : Type} (source : String) (x : Strictness → Action α) (faults : List LocationFault)
    (s : Session) : Prop :=
  ∃ events, EasedBy source x faults s events

namespace Eases

variable {α β : Type} {source : String} {s : Session}

/-- An action that is the same either way, warns of nothing and does not fail by a place. -/
theorem of_eq {x : Strictness → Action α} (events : List Log.Event)
    (hsame : (x .strict).outcome s = (x .lenient).outcome s)
    (hlog : ((x .lenient).outcome s).2.log.toList = s.log.toList ++ events)
    (hevents : warningsIn events = [])
    (htolerant : ∀ diagnostic t, (x .lenient).outcome s = (.error (.diagnosed diagnostic), t) →
      diagnostic.cause.isBadValue = false) : Eases source x [] s := by
  refine ⟨events, hlog, htolerant, fun _ _ _ => hevents, fun _ => hsame, ?_⟩
  intro fault rest hcons
  rw [hevents] at hcons
  cases hcons

theorem pure (a : α) (s : Session) : Eases source (fun _ => (Pure.pure a : Action α)) [] s :=
  .of_eq [] rfl (by simp [Action.outcome_pure]) rfl (by simp [Action.outcome_pure])

theorem schemaFailure (fault : SchemaFault) (s : Session) :
    Eases source (fun _ => (throw (schemaFailure source fault) : Action α)) [] s := by
  refine .of_eq [] rfl (List.append_nil _).symm rfl fun diagnostic t h => ?_
  obtain ⟨hfailure, -⟩ := Prod.mk.inj h
  obtain rfl := Failure.diagnosed.inj (Except.error.inj hfailure)
  rfl

theorem readable (demangle : Resolver.Demangler) (name : String) (s : Session) :
    Eases source (fun _ => Action.readable demangle name) [] s := by
  refine .of_eq _ rfl ?_ (warningsIn_resolve demangle s.memo name) fun diagnostic t h => ?_
  · exact Array.toList_appendList
  · cases (Prod.mk.inj h).1

theorem tell {event : Log.Event} (hevent : ignoredPlace? event = none) (s : Session) :
    Eases source (fun _ => Action.tell event) [] s := by
  refine .of_eq [event] rfl ?_ ?_ fun diagnostic t h => ?_
  · exact Array.toList_push
  · simp [warningsIn, hevent]
  · cases (Prod.mk.inj h).1

/-- **Composed actions.**  The second part is looked at where the lenient form of the first
succeeds. -/
theorem bind {x : Strictness → Action α} {f : Strictness → α → Action β}
    {faults faults' : List LocationFault} (hx : Eases source x faults s)
    (hf : ∀ a s', (x .lenient).outcome s = (.ok a, s') → Eases source (f · a) faults' s') :
    Eases source (fun strictness => x strictness >>= f strictness) (faults ++ faults') s := by
  obtain ⟨events, hfirst⟩ := hx
  rcases hout : (x .lenient).outcome s with ⟨failure | a, s'⟩
  · -- the lenient form ends here, and the strict form here or before
    have hall : (x .lenient >>= f .lenient).outcome s = (.error failure, s') := by
      rw [Action.outcome_bind, hout]
    refine ⟨events, ?_, ?_, ?_, fun hnone => ?_, fun fault rest hwarned => ?_⟩
    · rw [hall, ← hfirst.log_eq, hout]
    · intro diagnostic t h
      obtain ⟨hfailure, rfl⟩ := Prod.mk.inj (hall.symm.trans h)
      obtain rfl := Except.error.inj hfailure
      exact hfirst.tolerant diagnostic s' hout
    · intro b t h
      cases (Prod.mk.inj (hall.symm.trans h)).1
    · rw [hall, Action.outcome_bind, hfirst.same hnone, hout]
    · obtain ⟨t, ht⟩ := hfirst.stops fault rest hwarned
      exact ⟨t, Action.outcome_bind_eq_error_iff.mpr (.inl ht)⟩
  · obtain ⟨events', hsecond⟩ := hf a s' hout
    have hall : (x .lenient >>= f .lenient).outcome s = (f .lenient a).outcome s' := by
      rw [Action.outcome_bind, hout]
    have hlog : s'.log.toList = s.log.toList ++ events := by rw [← hfirst.log_eq, hout]
    refine ⟨events ++ events', ?_, ?_, ?_, fun hnone => ?_, fun fault rest hwarned => ?_⟩
    · rw [hall, hsecond.log_eq, hlog, List.append_assoc]
    · intro diagnostic t h
      exact hsecond.tolerant diagnostic t (hall.symm.trans h)
    · intro b t h
      rw [warningsIn_append, hfirst.warned a s' hout, hsecond.warned b t (hall.symm.trans h)]
    · obtain ⟨hnone, hnone'⟩ := List.append_eq_nil_iff.mp (warningsIn_append _ _ ▸ hnone)
      rw [hall, Action.outcome_bind, hfirst.same hnone, hout]
      exact hsecond.same hnone'
    · rw [warningsIn_append] at hwarned
      -- the first warning decides which part of the strict form fails
      cases hwarnings : warningsIn events with
      | nil =>
        rw [hwarnings, List.nil_append] at hwarned
        obtain ⟨t, ht⟩ := hsecond.stops fault rest hwarned
        exact ⟨t, Action.outcome_bind_eq_error_iff.mpr
          (.inr ⟨a, s', (hfirst.same hwarnings).trans hout, ht⟩)⟩
      | cons first others =>
        rw [hwarnings] at hwarned
        obtain ⟨rfl, -⟩ := List.cons.inj hwarned
        obtain ⟨t, ht⟩ := hfirst.stops first others hwarnings
        exact ⟨t, Action.outcome_bind_eq_error_iff.mpr (.inl ht)⟩

theorem mapM {f : α → Action β} (hf : ∀ a s, Eases source (fun _ => f a) [] s) (as : List α)
    (s : Session) : Eases source (fun _ => as.mapM f) [] s := by
  induction as generalizing s with
  | nil =>
    simp only [List.mapM_nil]
    exact .pure [] s
  | cons a as ih =>
    simp only [List.mapM_cons]
    exact (hf a s).bind fun b s' _ => (ih s').bind fun bs s'' _ => .pure (b :: bs) s''

end Eases

/-! ## Folding -/

section Collecting

variable {source : String} {s : Session}

theorem eases_requireField (source : String) (block : Block) (key : String) (s : Session) :
    Eases source (fun _ => requireField source block key) [] s := by
  unfold requireField
  cases block.field? key with
  | some value => exact .pure value s
  | none => exact .schemaFailure _ s

theorem eases_functionRecord {nameOf : String → Action String}
    (hread : ∀ name s, Eases source (fun _ => nameOf name) [] s) (node : Block) (s : Session) :
    Eases source (fun _ => functionRecord nameOf source node) [] s := by
  unfold functionRecord
  refine (eases_requireField source node _ s).bind fun title s _ => ?_
  refine (eases_requireField source node _ s).bind fun label s _ => ?_
  exact (hread title s).bind fun name s _ => .pure _ s

theorem eases_callRecord {nameOf : String → Action String}
    (hread : ∀ name s, Eases source (fun _ => nameOf name) [] s) (edge : Block) (s : Session) :
    Eases source (fun _ => callRecord nameOf source edge) [] s := by
  unfold callRecord
  refine (eases_requireField source edge _ s).bind fun caller s _ => ?_
  refine (hread caller s).bind fun source s _ => ?_
  refine (eases_requireField _ edge _ s).bind fun callee s _ => ?_
  exact (hread callee s).bind fun target s _ => .pure _ s

/-- Collecting reads no place, so it is the same either way. -/
theorem eases_collect (demangle : Resolver.Demangler) (options : Options) (source : String)
    (block : Block) (s : Session) :
    Eases source (fun _ => collect demangle options source block) [] s := by
  have hread (name : String) (s : Session) : Eases source
      (fun _ => (if options.demangle then Action.readable demangle else Pure.pure) name) [] s := by
    split
    · exact .readable demangle name s
    · exact .pure name s
  unfold collect
  by_cases hkind : block.kind = Schema.graphKind
  · simp only [if_neg (not_not_intro hkind)]
    refine (Eases.mapM (eases_functionRecord hread) _ s).bind fun functions s _ => ?_
    refine (Eases.mapM (eases_callRecord hread) _ s).bind fun calls s _ => ?_
    exact .pure _ s
  · simp only [if_pos hkind]
    exact .schemaFailure _ s

end Collecting

section Entering

variable {source : String} {s : Session}

/-- What becomes of the session `s` by an attempt on behalf of the dump `source`. -/
def ended {α : Type} (source : String) (s : Session) (attempt : Attempt α) :
    Except Failure α × Session :=
  (attempt.result.mapError (Failure.locatedIn source),
    { s with graph := attempt.graph, log := s.log ++ attempt.events })

theorem log_ended {α : Type} (source : String) (s : Session) (attempt : Attempt α) :
    (ended source s attempt).2.log.toList = s.log.toList ++ attempt.events :=
  Array.toList_appendList

/-- The dump that is named with a failure does not change what is wrong. -/
theorem eq_diagnosed_of_locatedIn {failure : Failure} {diagnostic : Diagnostic}
    (h : failure.locatedIn source = .diagnosed diagnostic) :
    ∃ unlocated, failure = .diagnosed unlocated ∧ diagnostic.cause = unlocated.cause := by
  unfold Failure.locatedIn at h
  split at h
  · next unlocated =>
    refine ⟨unlocated, rfl, ?_⟩
    split at h
    · rw [← Failure.diagnosed.inj h, Diagnostic.withPath]
    · rw [← Failure.diagnosed.inj h]
  · next hother => exact absurd h (hother diagnostic)

/-- An action that reads a place first, and then goes on silently in a way that does not fail by a
place. -/
theorem eases_of_ended {α : Type} {x : Strictness → Action α} {text : String}
    (next : Option Location → Attempt α)
    (hx : ∀ strictness, (x strictness).outcome s =
      ended source s ((readSite strictness (some text)).followedBy s.graph next))
    (hsilent : ∀ site, (next site).events = [])
    (hnext : ∀ site diagnostic, (next site).result = .error (.diagnosed diagnostic) →
      diagnostic.cause.isBadValue = false) :
    Eases source x (malformation? text).toList s := by
  have hok (events : List Log.Event) (site : Option Location) (diagnostic : Diagnostic)
      (t : Session)
      (h : ended source s (Reading.followedBy ⟨events, .ok site⟩ s.graph next) =
        (.error (.diagnosed diagnostic), t)) : diagnostic.cause.isBadValue = false := by
    have hresult := (Prod.mk.inj h).1
    simp only [Reading.followedBy] at hresult
    cases hfailure : (next site).result with
    | ok a => simp [hfailure, Except.mapError] at hresult
    | error failure =>
      simp only [hfailure, Except.mapError] at hresult
      obtain ⟨unlocated, rfl, hcause⟩ := eq_diagnosed_of_locatedIn (Except.error.inj hresult)
      rw [hcause]
      exact hnext site unlocated hfailure
  cases hfault : malformation? text with
  | some fault =>
    -- one form warns and goes on without a place, the other stops
    obtain ⟨hlenient, hstrict⟩ := readSite_of_malformed hfault
    refine ⟨[.ignoredLocation fault], ?_, ?_, fun _ _ _ => rfl, ?_, ?_⟩
    · rw [hx, log_ended, hlenient]
      simp only [Reading.followedBy, hsilent, List.append_nil]
    · rw [hx, hlenient]
      exact hok _ _
    · intro hnone
      cases hnone
    · intro fault' rest hwarned
      obtain ⟨rfl, -⟩ := List.cons.inj hwarned
      rw [hx, hstrict]
      exact ⟨_, rfl⟩
  | none =>
    obtain ⟨hsame, hevents, hdigits⟩ := readSite_of_not_malformed hfault
    refine .of_eq [] ?_ ?_ rfl fun diagnostic t h => ?_
    · rw [hx, hx, hsame]
    · rw [hx, log_ended]
      rcases hread : readSite .lenient (some text) with ⟨events, failure | site⟩
      · rw [hread] at hevents
        exact congrArg _ hevents
      · obtain rfl : events = [] := by rw [hread] at hevents; exact hevents
        simp only [Reading.followedBy, hsilent, List.append_nil]
    · rw [hx] at h
      rcases hread : readSite .lenient (some text) with ⟨events, failure | site⟩
      · -- too many digits are no matter of strictness, and no malformed place
        obtain ⟨count, rfl⟩ := hdigits failure (by rw [hread])
        rw [hread] at h
        cases (Prod.mk.inj h).1
      · rw [hread] at h
        exact hok events site diagnostic t h

/-- The registration of a function, as a step of folding. -/
theorem eases_register (idOf : IdScheme) (source : String) (record : FunctionRecord)
    (s : Session) :
    Eases source
      (fun strictness => tryCatch
        (Action.perform fun g =>
          g.addFunction idOf record.name (some record.location) strictness)
        fun failure => throw (failure.locatedIn source))
      (malformation? record.location).toList s := by
  refine eases_of_ended (fun site => Graph.enterAt idOf record.name site s.graph)
    (fun strictness => ?_) (fun site => Graph.silent_enterAt idOf record.name site s.graph)
    fun site diagnostic h => ?_
  · rw [Action.outcome_tryCatch, Action.outcome_perform, ← Graph.addFunction_eq_followedBy, ended]
    cases (s.graph.addFunction idOf record.name (some record.location) strictness).result <;> rfl
  · rcases Graph.enterAt_eq_error h with ⟨fault, hfault⟩ | ⟨id, owner, hcollision⟩
    · cases hfault
    · rw [Failure.diagnosed.inj hcollision]
      rfl

theorem eases_applyFunctions (idOf : IdScheme) (source : String)
    (records : List FunctionRecord) (tally : Tally) (s : Session) :
    Eases source (fun strictness => applyFunctions idOf strictness source records tally)
      (records.filterMap fun record => malformation? record.location) s := by
  induction records generalizing tally s with
  | nil => exact .pure tally s
  | cons record rest ih =>
    -- each record has at most one malformed place
    simp only [List.filterMap_eq_flatMap_toList, List.flatMap_cons] at ih ⊢
    exact (eases_register idOf source record s).bind fun _ s' _ => ih _ s'

/-- The malformed place that a call of a dump is warned of, where `known` tells the names that are
registered. -/
def CallRecord.malformation? (known : String → Bool) (record : CallRecord) :
    Option LocationFault :=
  if known record.source && known record.target then Ingest.malformation? record.label else none

/-- A call without a registered end is dropped, whatever its label is. -/
theorem outcome_applyCall_of_missing (source : String) {record : CallRecord}
    (hmissing : s.graph.ids[record.source]? = none ∨ s.graph.ids[record.target]? = none) :
    ∃ (side : Endpoint) (name : String), ∀ strictness,
      (applyCall strictness source record).outcome s =
        (.ok false, { s with
          graph := s.graph.recordDropped (record.dropped source side)
          log := s.log.push (.droppedCall source (.missingEndpoint side.word name)) }) := by
  simp only [applyCall, Action.outcome_tryCatch, Action.outcome_bind, Action.outcome_perform]
  cases hsource : s.graph.ids[record.source]? with
  | none =>
    simp only [Graph.addCall_of_missing_source hsource]
    exact ⟨.source, record.source, fun _ => rfl⟩
  | some caller =>
    cases htarget : s.graph.ids[record.target]? with
    | none =>
      simp only [Graph.addCall_of_missing_target hsource htarget]
      exact ⟨.target, record.target, fun _ => rfl⟩
    | some callee => simp [hsource, htarget] at hmissing

/-- A call is read for its place if both ends are registered, and otherwise dropped either way. -/
theorem eases_applyCall (source : String) (record : CallRecord) (s : Session) :
    Eases source (fun strictness => applyCall strictness source record)
      (record.malformation? s.graph.contains).toList s := by
  have hdropped
      (hmissing : s.graph.ids[record.source]? = none ∨ s.graph.ids[record.target]? = none) :
      Eases source (fun strictness => applyCall strictness source record) [] s := by
    obtain ⟨side, name, houtcome⟩ := outcome_applyCall_of_missing source hmissing
    refine .of_eq [.droppedCall source (.missingEndpoint side.word name)] ?_ ?_ rfl
      fun diagnostic t h => ?_
    · rw [houtcome, houtcome]
    · rw [houtcome, Array.toList_push]
    · cases (Prod.mk.inj ((houtcome .lenient).symm.trans h)).1
  unfold CallRecord.malformation?
  rw [contains_eq_isSome, contains_eq_isSome]
  cases hsource : s.graph.ids[record.source]? with
  | none => exact hdropped (.inl hsource)
  | some caller =>
    cases htarget : s.graph.ids[record.target]? with
    | none => exact hdropped (.inr htarget)
    | some callee =>
      refine eases_of_ended
        (fun site =>
          ⟨[], .ok true, s.graph.append (record.call s.graph.calls.size caller callee site)⟩)
        (fun strictness => ?_) (fun _ => rfl) fun site diagnostic h => ?_
      · simp only [applyCall, Action.outcome_tryCatch, Action.outcome_bind, Action.outcome_perform,
          Graph.addCall_of_ends hsource htarget, ended, Reading.followedBy, Option.getD_some]
        cases hsite : (readSite strictness (some record.label)).result with
        | ok site => rfl
        | error failure =>
          cases Graph.misplaced_of_readSite hsite with
          | digits => rfl
          | place => rfl
      · cases h

theorem eases_applyCalls {known : String → Bool} (source : String) (records : List CallRecord)
    (tally : Tally) {s : Session} (hs : s.graph.contains = known) :
    Eases source (fun strictness => applyCalls strictness source records tally)
      (records.filterMap (CallRecord.malformation? known)) s := by
  induction records generalizing tally s with
  | nil => exact .pure tally s
  | cons record rest ih =>
    simp only [List.filterMap_eq_flatMap_toList, List.flatMap_cons] at ih ⊢
    subst hs
    refine (eases_applyCall source record s).bind fun added s' hadded => ih _ ?_
    -- a call registers no function
    have hfollows := follows_applyCall .lenient source record s
    obtain ⟨added', hcall, -⟩ := hfollows.eq_ok_of_outcome hadded
    exact (sameFunctions_enterCall hcall).contains.symm

end Entering

section Folding

variable {setting : Setting} {options : Options} {source : String} {block : Block} {s : Session}

/-- The malformed places of a dump that are warned of, where `known` tells the names that are
registered. -/
def Records.malformations (known : String → Bool) (records : Records) : List LocationFault :=
  records.functions.filterMap (fun record => malformation? record.location) ++
    records.calls.filterMap (CallRecord.malformation? known)

theorem length_malformations (known : String → Bool) (records : Records) :
    (records.malformations known).length =
      records.functions.countP (fun record => (malformation? record.location).isSome) +
      records.calls.countP (fun record =>
        (known record.source && known record.target) && (malformation? record.label).isSome) := by
  have hcall (record : CallRecord) : (record.malformation? known).isSome =
      ((known record.source && known record.target) && (malformation? record.label).isSome) := by
    unfold CallRecord.malformation?
    cases known record.source && known record.target <;> rfl
  rw [Records.malformations, List.length_append, List.length_filterMap_eq_countP,
    List.length_filterMap_eq_countP]
  simp only [hcall]

/-- Collecting gives records of its dump, and leaves the graph. -/
theorem of_collect {records : Records} {s' : Session}
    (h : (collect setting.demangle options source block).outcome s = (.ok records, s')) :
    records.source = source ∧ s'.graph = s.graph := by
  obtain ⟨hrecords, hgraph, -⟩ :=
    answers_collect options source block s (readsAs_resolve setting.demangle s.memo)
  rw [h] at hrecords hgraph
  exact ⟨source_of_recordsOf hrecords.symm, hgraph⟩

/-- Entering the records of a dump warns of their malformed places, or stops at the first. -/
theorem eases_enterRecords (setting : Setting) (options : Options) (records : Records)
    (hs : Reachable setting.idOf s.graph) :
    Eases records.source
      (fun strictness => enterRecords setting { options with locations := strictness } records)
      (records.malformations (knownTo s.graph [records])) s := by
  unfold enterRecords callBatch
  refine (eases_applyFunctions setting.idOf _ records.functions _ s).bind fun tally u hu => ?_
  -- the ends of calls are looked up behind the functions of the dump
  have hknown := contains_of_applyFunctions hs hu
  rw [← List.append_nil (records.calls.filterMap _)]
  refine (eases_applyCalls _ records.calls tally hknown).bind fun tally' v _ => ?_
  exact (Eases.tell rfl v).bind fun _ w _ => .pure tally' w

/-- **Folding a dump** warns of its malformed places, or stops at the first of them. -/
theorem eases_foldBlock (options : Options) (hs : Reachable setting.idOf s.graph) (source : String)
    (block : Block) :
    ∃ faults, Eases source
        (fun strictness => foldBlock setting { options with locations := strictness } source block)
        faults s ∧
      ∀ records s', (collect setting.demangle options source block).outcome s = (.ok records, s') →
        faults = records.malformations (knownTo s.graph [records]) := by
  have hcollect := eases_collect setting.demangle options source block s
  unfold foldBlock
  rcases hout : (collect setting.demangle options source block).outcome s with
    ⟨failure | records, s'⟩
  · refine ⟨[], hcollect.bind fun records s' h => ?_, fun records s' h => ?_⟩
    · cases (Prod.mk.inj (hout.symm.trans h)).1
    · cases (Prod.mk.inj h).1
  · obtain ⟨rfl, hgraph⟩ := of_collect hout
    refine ⟨records.malformations (knownTo s.graph [records]),
      hcollect.bind fun records' s'' h => ?_, fun records' s'' h => ?_⟩
    · obtain ⟨hrecords, rfl⟩ := Prod.mk.inj (hout.symm.trans h)
      obtain rfl := Except.ok.inj hrecords
      rw [← hgraph]
      exact eases_enterRecords setting options records (hgraph ▸ hs)
    · rw [Except.ok.inj (Prod.mk.inj h).1]

end Folding

/-! ## What is kept -/

/-- A function with a malformed place is registered without a place, and is still known on `t`; it
still has no place there unless a later record registers it again. -/
def FunctionsKept (idOf : IdScheme) (source : String) (functions : List FunctionRecord)
    (s t : Session) : Prop :=
  ∀ before record later, functions = before ++ record :: later →
    (malformation? record.location).isSome = true →
    (∃ registered u, (applyFunctions idOf .lenient source (before ++ [record])
        { source }).outcome s = (.ok registered, u) ∧ u.graph.locationOf record.name = .ok none) ∧
    t.graph.contains record.name = true ∧
    (record.name ∉ later.map FunctionRecord.name → t.graph.locationOf record.name = .ok none)

/-- The calls that `g'` has more than `g` are those of the records, in their order, and each has its
label; one with a malformed label has no place. -/
def CallsKept (records : List CallRecord) (g g' : Graph) : Prop :=
  ∃ added, g'.calls.toList = g.calls.toList ++ added ∧
    List.Forall₂
      (fun (record : CallRecord) (call : Call) => call.callerName = record.source ∧
        call.calleeName = record.target ∧ call.label = record.label ∧
        ((malformation? record.label).isSome = true → call.site = none))
      records added

section Kept

variable {idOf : IdScheme} {strictness : Strictness} {source : String} {g g' : Graph}

theorem enterFunctions_append_eq_ok_iff {first rest : List FunctionRecord} :
    enterFunctions idOf strictness source (first ++ rest) g = (.ok (), g') ↔
      ∃ mid, enterFunctions idOf strictness source first g = (.ok (), mid) ∧
        enterFunctions idOf strictness source rest mid = (.ok (), g') := by
  induction first generalizing g with
  | nil => simp [enterFunctions]
  | cons record others ih =>
    rw [List.cons_append, enterFunctions_cons_eq_ok_iff]
    simp only [enterFunctions_cons_eq_ok_iff, ih]
    constructor
    · rintro ⟨id, mid, hadd, mid', hothers, hrest⟩
      exact ⟨mid', ⟨id, mid, hadd, hothers⟩, hrest⟩
    · rintro ⟨mid', ⟨id, mid, hadd, hothers⟩, hrest⟩
      exact ⟨id, mid, hadd, mid', hothers, hrest⟩

/-- **A function is where the last record of it tells.** -/
theorem locationOf_of_enterFunctions (hg : Reachable idOf g) {before later : List FunctionRecord}
    {record : FunctionRecord}
    (h : enterFunctions idOf strictness source (before ++ record :: later) g = (.ok (), g'))
    (hlast : record.name ∉ later.map FunctionRecord.name) :
    g'.locationOf record.name = .ok (siteTold (some record.location)) := by
  obtain ⟨entries, hentries, rfl⟩ := hg.exists_ledger
  obtain ⟨hledger, rfl⟩ := (enterFunctions_after_iff hentries).mp h
  have hnames : namesIn (later.map (FunctionRecord.operation strictness)) =
      later.map FunctionRecord.name :=
    namesIn_registering strictness { source, functions := later }
  have hlater : placeIn (later.map (FunctionRecord.operation strictness)) record.name = none := by
    rw [← Option.not_isSome_iff_eq_none, Graph.placeIn_isSome_iff, hnames]
    exact hlast
  have hplace : placeIn (record.operation strictness ::
      later.map (FunctionRecord.operation strictness)) record.name =
        some (siteTold (some record.location)) := by
    rw [← List.singleton_append, Graph.placeIn_append, hlater, FunctionRecord.operation,
      Graph.placeIn_addFunction, if_pos rfl, Option.none_or]
  rw [hledger.recounts.locationOf_eq, List.map_append, List.map_cons, Graph.placeIn_append,
    Graph.placeIn_append, hplace]
  rfl

theorem functionsKept_of_applyFunctions {records : Records} {tally : Tally} {s u t : Session}
    (hs : Reachable idOf s.graph)
    (hu : (applyFunctions idOf .lenient records.source records.functions
      { source := records.source }).outcome s = (.ok tally, u))
    (hsame : SameFunctions u.graph t.graph) :
    FunctionsKept idOf records.source records.functions s t := by
  intro before record later hfunctions hmalformed
  obtain ⟨fault, hfault⟩ := Option.isSome_iff_exists.mp hmalformed
  obtain ⟨⟨⟩, henter, -⟩ := (follows_applyFunctions _ _ _ _ _ _).eq_ok_of_outcome hu
  rw [hfunctions] at henter
  refine ⟨?_, ?_, fun hlast => ?_⟩
  · -- where the record is entered, it is the last one of its function
    have hsplit : before ++ record :: later = (before ++ [record]) ++ later := by simp
    rw [hsplit] at henter
    obtain ⟨mid, hfirst, -⟩ := enterFunctions_append_eq_ok_iff.mp henter
    obtain ⟨log, hlog⟩ := (follows_applyFunctions idOf .lenient records.source (before ++ [record])
      { source := records.source } s).outcome_of_eq_ok hfirst
    refine ⟨_, _, hlog, ?_⟩
    rw [locationOf_of_enterFunctions hs hfirst (by simp), siteTold_of_malformed hfault]
  · rw [← hsame.contains, contains_of_applyFunctions hs hu]
    simp [knownTo, hfunctions]
  · rw [← hsame.locationOf, locationOf_of_enterFunctions hs henter hlast,
      siteTold_of_malformed hfault]

/-- **Calls between registered functions are kept with their labels.** -/
theorem callsKept_of_enterCalls {records : List CallRecord} {flags : List Bool}
    (h : enterCalls strictness source records g = (.ok flags, g')) :
    CallsKept (records.filter fun record => g.contains record.source && g.contains record.target)
      g g' := by
  induction records generalizing g flags with
  | nil =>
    obtain ⟨-, rfl⟩ := Prod.mk.inj h
    exact ⟨[], (List.append_nil _).symm, .nil⟩
  | cons record rest ih =>
    obtain ⟨added, mid, others, hcall, hrest, rfl⟩ := enterCalls_cons_eq_ok_iff.mp h
    obtain ⟨more, hmore, hall⟩ := ih hrest
    rw [← (sameFunctions_enterCall hcall).contains] at hall
    rcases enterCall_eq_ok hcall with
      ⟨-, caller, callee, site, hsource, htarget, hsite, rfl⟩ | ⟨-, hmissing, side, rfl⟩
    · -- the call is the next one, at the place that its label tells
      obtain ⟨-, rfl⟩ := Graph.readSite_eq_ok_iff.mp hsite
      refine ⟨record.call g.calls.size caller callee (siteTold (some record.label)) :: more, ?_, ?_⟩
      · rw [hmore]
        simp [Graph.append]
      · rw [List.filter_cons_of_pos (by simp [contains_eq_isSome, hsource, htarget])]
        refine .cons ⟨rfl, rfl, rfl, fun hmalformed => ?_⟩ hall
        obtain ⟨fault, hfault⟩ := Option.isSome_iff_exists.mp hmalformed
        exact siteTold_of_malformed hfault
    · refine ⟨more, hmore, ?_⟩
      rw [List.filter_cons_of_neg]
      · exact hall
      · rcases hmissing with hnone | hnone <;> simp [contains_eq_isSome, hnone]

end Kept

/-! ## Strict and lenient folding -/

/-- **Strict and lenient folding differ on malformed places alone.**  What strict folding makes of a
dump, lenient folding makes of it too; and lenient folding never fails by a malformed place.  Where
lenient folding succeeds, strict folding does exactly if the lenient run warns of nothing, and then
to the same end; otherwise it fails by the malformed place that the lenient run warns of first.  The
warnings are as many as the functions with a malformed place and the calls with a malformed label
whose ends are registered once the functions of the dump are.  Such a function is registered without
a place, and stays without one unless it is registered again; such a call is added without a place,
and keeps its label. -/
theorem lenient_fold_eases_strict (setting : Setting) (options : Options) {s : Session}
    (hs : Reachable setting.idOf s.graph) (source : String) (block : Block) :
    let fold := fun strictness : Strictness =>
      (foldBlock setting { options with locations := strictness } source block).outcome s
    (∀ tally t, fold .strict = (.ok tally, t) → fold .lenient = (.ok tally, t)) ∧
    (∀ diagnostic t, fold .lenient = (.error (.diagnosed diagnostic), t) →
      diagnostic.cause.isBadValue = false) ∧
    ∀ tally t, fold .lenient = (.ok tally, t) → ∃ records s' registered u events,
      (collect setting.demangle options source block).outcome s = (.ok records, s') ∧
      (applyFunctions setting.idOf .lenient source records.functions { source }).outcome s' =
        (.ok registered, u) ∧
      t.log.toList = s.log.toList ++ events ∧
      ((∃ tally' t', fold .strict = (.ok tally', t')) ↔ warningsIn events = []) ∧
      (warningsIn events = [] → fold .strict = fold .lenient) ∧
      (∀ fault rest, warningsIn events = fault :: rest →
        ∃ t', fold .strict = (.error (malformedIn source fault), t')) ∧
      (warningsIn events).length =
        records.functions.countP (fun record => (malformation? record.location).isSome) +
        records.calls.countP (fun record =>
          (u.graph.contains record.source && u.graph.contains record.target) &&
            (malformation? record.label).isSome) ∧
      FunctionsKept setting.idOf source records.functions s' t ∧
      CallsKept (records.calls.filter fun record =>
        u.graph.contains record.source && u.graph.contains record.target) s.graph t.graph := by
  intro fold
  obtain ⟨faults, ⟨events, heased⟩, hfaults⟩ := eases_foldBlock options hs source block
  refine ⟨fun tally t hstrict => ?_, heased.tolerant, fun tally t hfolded => ?_⟩
  · rw [← hstrict]
    exact (heased.same (heased.warningsIn_eq_nil hstrict)).symm
  · have hwarned := heased.warned tally t hfolded
    have hlog : t.log.toList = s.log.toList ++ events := by
      rw [← heased.log_eq]
      exact congrArg (fun outcome => outcome.2.log.toList) hfolded.symm
    obtain ⟨records, s', hcollect, hrest⟩ := Action.outcome_bind_eq_ok_iff.mp hfolded
    obtain ⟨registered, u, hu, hrest⟩ := Action.outcome_bind_eq_ok_iff.mp hrest
    obtain ⟨rfl, hgraph⟩ := of_collect hcollect
    have hcalled : (callBatch { options with locations := .lenient } (records, registered)).outcome
        u = (.ok tally, t) := hrest
    obtain ⟨flags, hcalls, -⟩ := callBatch_eq_ok hcalled
    obtain ⟨⟨⟩, henter, -⟩ := (follows_applyFunctions _ _ _ _ _ _).eq_ok_of_outcome hu
    obtain ⟨added, hadded, hkept⟩ := callsKept_of_enterCalls hcalls
    have hknown := contains_of_applyFunctions (hgraph ▸ hs) hu
    rw [hgraph] at hknown
    refine ⟨records, s', registered, u, events, hcollect, hu, hlog, ⟨?_, ?_⟩, heased.same,
      heased.stops, ?_,
      functionsKept_of_applyFunctions (hgraph ▸ hs) hu (sameFunctions_enterCalls hcalls),
      added, ?_, hkept⟩
    · rintro ⟨tally', t', hstrict⟩
      exact heased.warningsIn_eq_nil hstrict
    · intro hnone
      exact ⟨tally, t, (heased.same hnone).trans hfolded⟩
    · rw [hwarned, hfaults records s' hcollect, length_malformations, hknown]
    · rw [hadded, (calls_enterFunctions henter).1, hgraph]

/-- Names as they are, with their lengths as ids. -/
def plainSetting : Setting where
  idOf := Graph.lengthIds
  demangle symbol := some symbol

/-- A graph with one function, at a place. -/
def placedSession : Session where
  graph := Graph.after plainSetting.idOf [.addFunction "main" (some "m.c:1:2") .strict]

/-- The function again, at a malformed place, with two calls whose labels are malformed; one of them
has no target. -/
def faultyBlock : Block :=
  ⟨"graph", [.block "node" [.field "title" "main", .field "label" "main\nm.c:x:2"],
    .block "edge" [.field "sourcename" "main", .field "targetname" "main",
      .field "label" "m.c:7:y"],
    .block "edge" [.field "sourcename" "main", .field "targetname" "gone",
      .field "label" "m.c:z:1"]]⟩

/-- Two of the three malformed places are warned of, and the function loses its place. -/
theorem lenient_fold_eases_strict_faulty :
    Reachable plainSetting.idOf placedSession.graph ∧
      ∃ t events, (foldBlock plainSetting { locations := .lenient } "d" faultyBlock).outcome
          placedSession = (.ok ⟨"d", 1, 1, 1⟩, t) ∧
        t.log.toList = placedSession.log.toList ++ events ∧ (warningsIn events).length = 2 ∧
        t.graph.locationOf "main" = .ok none ∧
        ∃ fault t', (foldBlock plainSetting { locations := .strict } "d" faultyBlock).outcome
          placedSession = (.error (malformedIn "d" fault), t') := by
  have hreachable : Reachable plainSetting.idOf placedSession.graph := by
    unfold placedSession
    exact ⟨[.addFunction "main" (some "m.c:1:2") .strict], rfl⟩
  have hresult : ((foldBlock plainSetting { locations := .lenient } "d" faultyBlock).outcome
      placedSession).1 = .ok ⟨"d", 1, 1, 1⟩ := by
    cbv
  have hcollected : ((collect plainSetting.demangle {} "d" faultyBlock).outcome placedSession).1 =
      .ok ⟨"d", [⟨"main", "m.c:x:2"⟩],
        [⟨"main", "main", "m.c:7:y"⟩, ⟨"main", "gone", "m.c:z:1"⟩]⟩ := by
    cbv
  obtain ⟨-, -, hlenient⟩ := lenient_fold_eases_strict plainSetting {} hreachable "d" faultyBlock
  rcases hfold : (foldBlock plainSetting { locations := .lenient } "d" faultyBlock).outcome
    placedSession with ⟨result, t⟩
  rw [hfold] at hresult
  obtain rfl : result = _ := hresult
  obtain ⟨records, s', registered, u, events, hcollect, hu, hlog, -, -, hstops, hlength,
    hfunctions, -⟩ := hlenient _ t hfold
  rw [hcollect] at hcollected
  obtain rfl := Except.ok.inj hcollected
  obtain rfl : s' = ((collect plainSetting.demangle {} "d" faultyBlock).outcome
    placedSession).2 := by rw [hcollect]
  obtain rfl : u = _ := (congrArg Prod.snd hu).symm
  have hwarned : (warningsIn events).length = 2 := by
    rw [hlength]
    cbv
  obtain ⟨fault, rest, hfirst⟩ := List.exists_cons_of_length_eq_add_one hwarned
  exact ⟨hreachable, t, events, rfl, hlog, hwarned, (hfunctions [] _ [] rfl (by cbv)).2.2 (by simp),
    fault, hstops fault rest hfirst⟩

end CallAtlas.Ingest
