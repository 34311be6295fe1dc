import CallAtlas.Proofs.Ingest.Passes
import Mathlib.Data.Bool.Count

/-!
# Resolving calls across files

Several dumps can be folded with the functions of all of them before the calls of any, or one after
the other.  The two ways enter the same functions.  In the second a call into a later file is
dropped, and everything else is as in the first: so the second way succeeds whenever the first does,
and its graph lags behind by the calls that it dropped.

## Main definitions

* `Lags h g`: the calls of `h` are calls of `g`, and the calls dropped from `g` are dropped from `h`
* `TallyLags`: what this means for the tallies of a file

## Main results

* `Lags.enterCall`, `Lags.enterCalls`: entering calls keeps a graph lagging, if its functions are
  known to the other
* `Lags.foldFiles`: so does folding the rest of the files
* `foldFiles_resolved_refines`: the two ways compared
-/

namespace CallAtlas

/-- A call without its number. -/
def Call.keyless (call : Call) : Call := { call with key := 0 }

/-- A dropped call without the side that it was dropped for. -/
def DroppedCall.sideless (call : DroppedCall) : DroppedCall := { call with missing := "" }

namespace Ingest

open CallAtlas.Graph (SameFunctions Knows Registry)

/-! ## Lagging behind -/

/-- The graph `h` lags behind `g`: up to numbers, its calls are calls of `g` in the same order, and
up to sides, the calls dropped from `g` are dropped from it in the same order. -/
structure Lags (h g : Graph) : Prop where
  calls : (h.calls.toList.map Call.keyless).Sublist (g.calls.toList.map Call.keyless)
  dropped : (g.dropped.toList.map DroppedCall.sideless).Sublist
    (h.dropped.toList.map DroppedCall.sideless)

namespace Lags

variable {g h : Graph} {strictness : Strictness} {source : String} {record : CallRecord}

theorem refl (g : Graph) : Lags g g := ⟨.refl _, .refl _⟩

theorem of_eq (hlags : Lags h g) {h' : Graph} (hcalls : h'.calls = h.calls)
    (hdropped : h'.dropped = h.dropped) : Lags h' g :=
  ⟨by rw [hcalls]; exact hlags.calls, by rw [hdropped]; exact hlags.dropped⟩

/-- The same call added to both. -/
theorem append_append (hlags : Lags h g) {call call' : Call}
    (hcall : call.keyless = call'.keyless) : Lags (h.append call) (g.append call') where
  calls := by
    simp only [Graph.append, Array.toList_push, List.map_append, List.map_singleton, hcall]
    exact hlags.calls.append (.refl _)
  dropped := hlags.dropped

/-- A call dropped from the one that lags and added to the other. -/
theorem recordDropped_append (hlags : Lags h g) (call' : DroppedCall) (call : Call) :
    Lags (h.recordDropped call') (g.append call) where
  calls := by
    simp only [Graph.append, Array.toList_push, List.map_append]
    exact hlags.calls.trans (List.sublist_append_left _ _)
  dropped := by
    simp only [Graph.recordDropped, Array.toList_push, List.map_append]
    exact hlags.dropped.trans (List.sublist_append_left _ _)

/-- The same call dropped from both, maybe for different sides. -/
theorem recordDropped_recordDropped (hlags : Lags h g) {call' call : DroppedCall}
    (hcall : call.sideless = call'.sideless) :
    Lags (h.recordDropped call') (g.recordDropped call) where
  calls := hlags.calls
  dropped := by
    simp only [Graph.recordDropped, Array.toList_push, List.map_append, List.map_singleton, hcall]
    exact hlags.dropped.append (.refl _)

/-- **A call of a dump keeps a graph lagging.**  It is entered in both without failure, for the
place of a call is looked at only where its ends are known, and then they are known to both. -/
theorem enterCall (hlags : Lags h g) (hknows : Knows g h) {added : Bool} {g' : Graph}
    (hg : enterCall strictness source record g = (.ok added, g')) :
    ∃ added' h', Ingest.enterCall strictness source record h = (.ok added', h') ∧
      (added' = true → added = true) ∧ Lags h' g' := by
  by_cases hmissing : h.ids[record.source]? = none ∨ h.ids[record.target]? = none
  · -- an end is missing from `h`, which drops the call; `g` may add it or drop it too
    obtain ⟨side, hh⟩ := enterCall_of_missing strictness source hmissing
    refine ⟨false, _, hh, by simp, ?_⟩
    rcases enterCall_eq_ok hg with ⟨-, caller, callee, site, -, -, -, rfl⟩ | ⟨-, -, side', rfl⟩
    · exact hlags.recordDropped_append _ _
    · exact hlags.recordDropped_recordDropped rfl
  · -- both ends are known to `h`, so to `g`, which has read the place of the call
    obtain ⟨hsource, htarget⟩ := not_or.mp hmissing
    obtain ⟨caller, hcaller⟩ := Option.ne_none_iff_exists'.mp hsource
    obtain ⟨callee, hcallee⟩ := Option.ne_none_iff_exists'.mp htarget
    have hcaller' := hknows _ _ hcaller
    have hcallee' := hknows _ _ hcallee
    rcases enterCall_eq_ok hg with
      ⟨rfl, caller', callee', site, hids, hids', hsite, rfl⟩ | ⟨-, hnone | hnone, -⟩
    · obtain rfl := Option.some.inj (hcaller'.symm.trans hids)
      obtain rfl := Option.some.inj (hcallee'.symm.trans hids')
      exact ⟨true, _, enterCall_of_registered hcaller hcallee hsite, fun _ => rfl,
        hlags.append_append rfl⟩
    · simp [hnone] at hcaller'
    · simp [hnone] at hcallee'

/-- **The calls of a dump keep a graph lagging**, and it drops no fewer of them. -/
theorem enterCalls {records : List CallRecord} (hlags : Lags h g) (hknows : Knows g h)
    {flags : List Bool} {g' : Graph}
    (hg : enterCalls strictness source records g = (.ok flags, g')) :
    ∃ flags' h', Ingest.enterCalls strictness source records h = (.ok flags', h') ∧
      flags'.length = flags.length ∧ flags.count false ≤ flags'.count false ∧ Lags h' g' := by
  induction records generalizing g h flags with
  | nil =>
    obtain ⟨hflags, rfl⟩ := Prod.mk.inj hg
    obtain rfl := Except.ok.inj hflags
    exact ⟨[], h, rfl, rfl, Nat.le_refl _, hlags⟩
  | cons record rest ih =>
    obtain ⟨added, mid, others, hcall, hrest, rfl⟩ := enterCalls_cons_eq_ok_iff.mp hg
    obtain ⟨added', mid', hcall', hadded, hmid⟩ := hlags.enterCall hknows hcall
    have hknows' : Knows mid mid' :=
      hknows.of_sameFunctions (sameFunctions_enterCall hcall) (sameFunctions_enterCall hcall')
    obtain ⟨others', h', hrest', hlength, hcount, hlast⟩ := ih hmid hknows' hrest
    refine ⟨added' :: others', h', enterCalls_cons_eq_ok_iff.mpr ⟨_, _, _, hcall', hrest', rfl⟩,
      by simp [hlength], ?_, hlast⟩
    -- what is dropped from `g` is dropped from `h`
    cases added with
    | true =>
      rw [List.count_cons_of_ne (by decide)]
      exact Nat.le_trans hcount List.count_le_count_cons
    | false =>
      obtain rfl : added' = false := by simpa using hadded
      simpa using hcount

end Lags

/-! ## The two ways of folding files -/

section Files

variable {setting : Setting} {options : Options} {nameOf : String → String}

/-- The tallies of one file in the two ways: as many functions and as many calls in all, and no
fewer calls dropped. -/
structure TallyLags (inOrder resolved : Tally) : Prop where
  source : inOrder.source = resolved.source
  functions : inOrder.functions = resolved.functions
  calls : inOrder.calls + inOrder.dropped = resolved.calls + resolved.dropped
  dropped : resolved.dropped ≤ inOrder.dropped

theorem tallyLags_countCalls {inOrder resolved : List Bool} (tally : Tally)
    (hlength : inOrder.length = resolved.length)
    (hcount : resolved.count false ≤ inOrder.count false) :
    TallyLags (countCalls inOrder tally) (countCalls resolved tally) where
  source := rfl
  functions := rfl
  calls := by
    have hinOrder := List.count_true_add_count_false inOrder
    have hresolved := List.count_true_add_count_false resolved
    simp only [countCalls]
    omega
  dropped := Nat.add_le_add_left hcount _

/-- **Folding the rest of the files keeps a graph lagging.**  While the one way has come to the
session `r` in its pass over functions, and to `c` in its pass over calls, the other has come to `h`
in its only pass. -/
theorem Lags.foldFiles {paths : List String} {batches : List Records}
    {registered : List (Records × Tally)} {resolved : List Tally} {r r' c c' h : Session}
    (hfiles : List.Forall₂
      (fun path records => fileRecordsOf setting options nameOf path = .ok records) paths batches)
    (hregister : (batches.mapM (registerBatch setting options)).outcome r = (.ok registered, r'))
    (hcall : (registered.mapM (callBatch options)).outcome c = (.ok resolved, c'))
    (hreads : ReadsAs setting.demangle h.memo nameOf) (hregistry : Registry setting.idOf r.graph)
    (hsame : SameFunctions r.graph h.graph) (hall : SameFunctions r'.graph c.graph)
    (hlags : Lags h.graph c.graph) :
    ∃ inOrder h', (paths.mapM (foldFile setting options)).outcome h = (.ok inOrder, h') ∧
      SameFunctions c'.graph h'.graph ∧ Lags h'.graph c'.graph ∧
      List.Forall₂ TallyLags inOrder resolved := by
  -- Induction on the files, with the three passes at the same file.
  induction hfiles generalizing registered resolved r c h with
  | nil =>
    obtain ⟨rfl, rfl⟩ := Action.outcome_mapM_nil_eq_ok_iff.mp hregister
    obtain ⟨rfl, rfl⟩ := Action.outcome_mapM_nil_eq_ok_iff.mp hcall
    exact ⟨[], h, Action.outcome_mapM_nil_eq_ok_iff.mpr ⟨rfl, rfl⟩, hall.symm.trans hsame, hlags,
      .nil⟩
  | @cons path records paths batches hrecords hfiles ih =>
    obtain ⟨batch, r₁, batches', hbatch, hregister', rfl⟩ :=
      Action.outcome_mapM_cons_eq_ok_iff.mp hregister
    obtain ⟨tally, c₁, tallies, htally, hcall', rfl⟩ := Action.outcome_mapM_cons_eq_ok_iff.mp hcall
    obtain ⟨hfunctions, rfl⟩ := registerBatch_eq_ok hbatch
    obtain ⟨flags, hcalls, rfl⟩ := callBatch_eq_ok htally
    obtain ⟨hregistry', -⟩ := registry_enterFunctions hregistry hfunctions
    -- the functions of this file are entered alike ...
    obtain ⟨g₁, hfunctions', hsame'⟩ := enterFunctions_of_sameFunctions hsame hfunctions
    obtain ⟨hsameCalls, hsameDropped⟩ := calls_enterFunctions hfunctions'
    -- ... and `c` knows them all, as it has the functions of all files
    have hknows : Knows c.graph g₁ :=
      (knows_registerBatches hregistry' hregister').1.of_sameFunctions hall hsame'
    obtain ⟨flags', g₂, hcalls', hlength, hcount, hlags'⟩ :=
      (hlags.of_eq hsameCalls hsameDropped).enterCalls hknows hcalls
    obtain ⟨h₁, hfile, rfl, hreads'⟩ := foldFile_of_entered hreads hrecords hfunctions' hcalls'
    obtain ⟨inOrder, h', hrest, hfinal⟩ := ih hregister' hcall' hreads' hregistry'
      (hsame'.trans (sameFunctions_enterCalls hcalls'))
      (hall.trans (sameFunctions_enterCalls hcalls)) hlags'
    exact ⟨_, h', Action.outcome_mapM_cons_eq_ok_iff.mpr ⟨_, _, _, hfile, hrest, rfl⟩, hfinal.1,
      hfinal.2.1, .cons (tallyLags_countCalls _ hlength hcount) hfinal.2.2⟩

end Files

/-- **Resolving calls across files refines folding them in order.**  If files can be folded with all
functions before all calls, they can be folded one after the other.  The functions are then the
same, in the same order, with the same ids and at the same places.  Up to their numbers, the calls
added in order are among those added across files; up to the side, the calls dropped across files
are among those dropped in order.  For each file the tallies have as many functions and as many
calls in all, with no more dropped across files. -/
theorem foldFiles_resolved_refines (setting : Setting) (options : Options) {paths : List String}
    {s s₁ : Session} {resolved : List Tally} (hs : Graph.Reachable setting.idOf s.graph)
    (h : (foldFiles setting { options with resolveAcrossFiles := true } paths).outcome s =
      (.ok resolved, s₁)) :
    ∃ inOrder s₂, (foldFiles setting { options with resolveAcrossFiles := false } paths).outcome s =
        (.ok inOrder, s₂) ∧
      s₂.graph.functions = s₁.graph.functions ∧
      (∀ name, s₂.graph.idOfName name = s₁.graph.idOfName name) ∧
      (∀ id, s₂.graph.nameOfId id = s₁.graph.nameOfId id) ∧
      (∀ name, s₂.graph.locationOf name = s₁.graph.locationOf name) ∧
      (∀ place, s₂.graph.namesAt place = s₁.graph.namesAt place) ∧
      (s₂.graph.calls.toList.map Call.keyless).Sublist
        (s₁.graph.calls.toList.map Call.keyless) ∧
      (s₁.graph.dropped.toList.map DroppedCall.sideless).Sublist
        (s₂.graph.dropped.toList.map DroppedCall.sideless) ∧
      List.Forall₂ TallyLags inOrder resolved := by
  -- Names are read as they are on `s`, whatever is remembered later.
  have hreads : ReadsAs setting.demangle s.memo
      fun name => (Resolver.resolve setting.demangle s.memo name).1 := fun name => rfl
  rw [foldFiles, if_pos rfl, foldTogether_eq] at h
  obtain ⟨batches, r, hcollect, h⟩ := Action.outcome_bind_eq_ok_iff.mp h
  obtain ⟨registered, c, hregister, hcall⟩ := Action.outcome_bind_eq_ok_iff.mp h
  obtain ⟨hfiles, hgraph⟩ := forall₂_of_collectFiles hreads hcollect
  have hregistry : Registry setting.idOf r.graph := hgraph ▸ hs.registry
  obtain ⟨-, hcalls, hdropped⟩ := knows_registerBatches hregistry hregister
  rw [hgraph] at hcalls hdropped
  obtain ⟨inOrder, s₂, hfold, hsame, hlags, htallies⟩ :=
    Lags.foldFiles hfiles hregister hcall hreads hregistry (hgraph ▸ .refl s.graph)
      (.refl c.graph) ((Lags.refl c.graph).of_eq hcalls.symm hdropped.symm)
  rw [foldFiles, if_neg Bool.false_ne_true]
  exact ⟨inOrder, s₂, hfold, hsame.symm.functions, hsame.symm.idOfName, hsame.symm.nameOfId,
    hsame.symm.locationOf, hsame.symm.namesAt, hlags.calls, hlags.dropped, htallies⟩

/-- A dump with a call out of it. -/
def callingText : String :=
  "graph:{node:{title:f label:f}edge:{sourcename:f targetname:gg}}"

/-- The dump with the function that is called. -/
def calledText : String :=
  "graph:{node:{title:gg label:gg}}"

/-- Two files, the first with a call into the second. -/
def forwardSetting : Setting where
  idOf := Graph.lengthIds
  demangle := some
  files := .ofFiles [("a", callingText.toUTF8.toList), ("b", calledText.toUTF8.toList)]

set_option maxRecDepth 4000 in
theorem foldFiles_resolved_refines_forward :
    Graph.Reachable forwardSetting.idOf ({} : Session).graph ∧
      ∃ s₁, (foldFiles forwardSetting { resolveAcrossFiles := true } ["a", "b"]).outcome {} =
          (.ok [⟨"a", 1, 1, 0⟩, ⟨"b", 1, 0, 0⟩], s₁) ∧
        ∃ inOrder s₂, (foldFiles forwardSetting {} ["a", "b"]).outcome {} = (.ok inOrder, s₂) ∧
          s₂.graph.functions = s₁.graph.functions ∧
          List.Forall₂ TallyLags inOrder [⟨"a", 1, 1, 0⟩, ⟨"b", 1, 0, 0⟩] := by
  have hcalling : readDump forwardSetting.files "utf-8" "a" = (do
      Action.tell (.reading "a")
      return ⟨"graph", [.block "node" [.field "title" "f", .field "label" "f"],
        .block "edge" [.field "sourcename" "f", .field "targetname" "gg"]]⟩) :=
    readDump_of_parse (by cbv) (by cbv : _ = Except.ok callingText) (by decide +kernel)
      (by decide +kernel)
  have hcalled : readDump forwardSetting.files "utf-8" "b" = (do
      Action.tell (.reading "b")
      return ⟨"graph", [.block "node" [.field "title" "gg", .field "label" "gg"]]⟩) :=
    readDump_of_parse (by cbv) (by cbv : _ = Except.ok calledText) (by decide +kernel)
      (by decide +kernel)
  obtain ⟨s₁, hrun⟩ : ∃ s₁,
      (foldFiles forwardSetting { resolveAcrossFiles := true } ["a", "b"]).outcome {} =
        (.ok [⟨"a", 1, 1, 0⟩, ⟨"b", 1, 0, 0⟩], s₁) := by
    refine ⟨_, Prod.ext ?_ rfl⟩
    simp only [foldFiles, if_true, foldTogether, List.mapM_cons, List.mapM_nil, collectFile,
      hcalling, hcalled]
    cbv
  have hreachable : Graph.Reachable forwardSetting.idOf ({} : Session).graph := ⟨[], rfl⟩
  obtain ⟨inOrder, s₂, hfold, hfunctions, -, -, -, -, -, -, htallies⟩ :=
    foldFiles_resolved_refines forwardSetting {} hreachable hrun
  exact ⟨hreachable, s₁, hrun, inOrder, s₂, hfold, hfunctions, htallies⟩

end Ingest

end CallAtlas
