import CallAtlas.Ingest.Fold
import CallAtlas.Proofs.Graph.Functions
import CallAtlas.Proofs.Ingest.Outcome

/-!
# Entering records

Once the records of a dump are taken, entering them is a matter of the graph alone: what has been
remembered and told has no part in it.  The rules are stated here on the graph, record by record,
and the actions are shown to follow them.

## Main definitions

* `enterFunctions`: the graph after registering the functions of a dump, or up to a failure
* `enterCall`, `enterCalls`: the graph after a call and after the calls of a dump, and which of the
  calls were added
* `Follows x s rule f`: an action does what a rule says

## Main results

* `follows_applyFunctions`, `follows_applyCall`, `follows_applyCalls`: the actions follow the rules
* `enterCall_eq_ok`: what a call can do to the graph
* `enterFunctions_of_sameFunctions`, `registry_enterFunctions`: functions are registered regardless
  of calls, and none is forgotten
* `sameFunctions_enterCalls`: calls leave the functions
-/

namespace CallAtlas.Ingest

open CallAtlas.Graph (SameFunctions Knows Registry)

/-! ## The rules -/

/-- Registers the functions of a dump, one after the other up to a failure. -/
def enterFunctions (idOf : IdScheme) (strictness : Strictness) (source : String) :
    List FunctionRecord → Graph → Except Failure Unit × Graph
  | [], g => (.ok (), g)
  | record :: rest, g =>
    let attempt := g.addFunction idOf record.name (some record.location) strictness
    match attempt.result with
    | .ok _ => enterFunctions idOf strictness source rest attempt.graph
    | .error failure => (.error (failure.locatedIn source), attempt.graph)

/-- A call of a dump as it is recorded for the want of an end. -/
def CallRecord.dropped (record : CallRecord) (source : String) (side : Endpoint) : DroppedCall :=
  { source := record.source, target := record.target, label := record.label, missing := side.word,
    path := some source }

/-- A call of a dump as the `key`-th of a graph, between two ids and from a place. -/
def CallRecord.call (record : CallRecord) (key : Nat) (caller callee : FunctionId)
    (site : Option Location) : Call :=
  { key, caller, callee, callerName := record.source, calleeName := record.target,
    label := record.label, site }

/-- Adds a call between registered functions, unless its place cannot be read, and drops any other
call.  Tells which. -/
def enterCall (strictness : Strictness) (source : String) (record : CallRecord) (g : Graph) :
    Except Failure Bool × Graph :=
  match g.ids[record.source]? with
  | none => (.ok false, g.recordDropped (record.dropped source .source))
  | some caller =>
    match g.ids[record.target]? with
    | none => (.ok false, g.recordDropped (record.dropped source .target))
    | some callee =>
      match (Graph.readSite strictness (some record.label)).result with
      | .ok site => (.ok true, g.append (record.call g.calls.size caller callee site))
      | .error failure => (.error (failure.locatedIn source), g)

/-- Enters the calls of a dump, one after the other up to a failure, and tells which were added. -/
def enterCalls (strictness : Strictness) (source : String) :
    List CallRecord → Graph → Except Failure (List Bool) × Graph
  | [], g => (.ok [], g)
  | record :: rest, g =>
    match enterCall strictness source record g with
    | (.ok added, g') =>
      ((enterCalls strictness source rest g').1.map (added :: ·),
        (enterCalls strictness source rest g').2)
    | (.error failure, g') => (.error failure, g')

/-- A tally with calls counted in, each added or dropped. -/
def countCalls (added : List Bool) (tally : Tally) : Tally :=
  { tally with
    calls := tally.calls + added.count true
    dropped := tally.dropped + added.count false }

theorem countCalls_cons (added : Bool) (rest : List Bool) (tally : Tally) :
    countCalls (added :: rest) tally =
      countCalls rest (if added then { tally with calls := tally.calls + 1 }
        else { tally with dropped := tally.dropped + 1 }) := by
  cases added <;> simp [countCalls, Nat.add_comm, Nat.add_left_comm]

/-! ## The actions follow the rules -/

/-- On the session `s` the action `x` does to the graph what a rule says, gives `f` of what the rule
gives, and leaves the names remembered. -/
def Follows {α β : Type} (x : Action β) (s : Session) (rule : Except Failure α × Graph)
    (f : α → β) : Prop :=
  ∃ log, x.outcome s = (rule.1.map f, { s with graph := rule.2, log })

section Follows

variable {α β : Type} {x : Action β} {s : Session} {rule : Except Failure α × Graph} {f : α → β}

theorem Follows.outcome_of_eq_ok (h : Follows x s rule f) {a : α} {g : Graph}
    (hrule : rule = (.ok a, g)) :
    ∃ log, x.outcome s = (.ok (f a), { s with graph := g, log }) := by
  obtain ⟨log, hlog⟩ := h
  rw [hrule] at hlog
  exact ⟨log, hlog⟩

theorem Follows.eq_ok_of_outcome (h : Follows x s rule f) {b : β} {t : Session}
    (hx : x.outcome s = (.ok b, t)) : ∃ a, rule = (.ok a, t.graph) ∧ b = f a := by
  obtain ⟨log, hlog⟩ := h
  obtain ⟨hresult, rfl⟩ := Prod.mk.inj (hlog.symm.trans hx)
  rcases rule with ⟨failure | a, g⟩
  · simp [Except.map] at hresult
  · exact ⟨a, rfl, (Except.ok.inj hresult).symm⟩

end Follows

section Actions

variable (idOf : IdScheme) (strictness : Strictness) (source : String)

/-- **Registering the functions of a dump follows the rules.** -/
theorem follows_applyFunctions (records : List FunctionRecord) (tally : Tally) (s : Session) :
    Follows (applyFunctions idOf strictness source records tally) s
      (enterFunctions idOf strictness source records s.graph)
      fun _ => { tally with functions := tally.functions + records.length } := by
  induction records generalizing tally s with
  | nil => exact ⟨s.log, rfl⟩
  | cons record rest ih =>
    simp only [Follows, applyFunctions, enterFunctions, Action.outcome_bind,
      Action.outcome_tryCatch, Action.outcome_perform]
    cases (s.graph.addFunction idOf record.name (some record.location) strictness).result with
    | error failure => exact ⟨_, rfl⟩
    | ok id =>
      -- the rest is registered from the graph so far, with one function more in the tally
      obtain ⟨log, hrest⟩ := ih { tally with functions := tally.functions + 1 } _
      refine ⟨log, hrest.trans ?_⟩
      simp only [List.length_cons, Nat.add_comm, Nat.add_left_comm]

/-- **Adding a call of a dump, or dropping it, follows the rules.** -/
theorem follows_applyCall (record : CallRecord) (s : Session) :
    Follows (applyCall strictness source record) s (enterCall strictness source record s.graph)
      id := by
  simp only [Follows, applyCall, enterCall, Action.outcome_bind, Action.outcome_tryCatch,
    Action.outcome_perform]
  cases hsource : s.graph.ids[record.source]? with
  | none =>
    rw [Graph.addCall_of_missing_source hsource]
    exact ⟨_, rfl⟩
  | some caller =>
    cases htarget : s.graph.ids[record.target]? with
    | none =>
      rw [Graph.addCall_of_missing_target hsource htarget]
      exact ⟨_, rfl⟩
    | some callee =>
      simp only [Graph.addCall_of_ends hsource htarget, Graph.Reading.followedBy,
        Option.getD_some]
      cases hsite : (Graph.readSite strictness (some record.label)).result with
      | ok site => exact ⟨_, rfl⟩
      | error failure =>
        -- No place fails for the want of an end, so the failure is passed on.
        cases Graph.misplaced_of_readSite hsite with
        | digits => exact ⟨_, rfl⟩
        | place => exact ⟨_, rfl⟩

/-- **Adding the calls of a dump follows the rules.** -/
theorem follows_applyCalls (records : List CallRecord) (tally : Tally) (s : Session) :
    Follows (applyCalls strictness source records tally) s
      (enterCalls strictness source records s.graph) (countCalls · tally) := by
  induction records generalizing tally s with
  | nil => exact ⟨s.log, rfl⟩
  | cons record rest ih =>
    obtain ⟨log, hcall⟩ := follows_applyCall strictness source record s
    simp only [Follows, applyCalls, enterCalls, Action.outcome_bind, hcall]
    rcases enterCall strictness source record s.graph with ⟨failure | added, g'⟩
    · exact ⟨log, rfl⟩
    · -- the rest is entered from the graph so far, with this call counted in the tally
      obtain ⟨log', hrest⟩ := ih
        (if added then { tally with calls := tally.calls + 1 }
          else { tally with dropped := tally.dropped + 1 })
        { s with graph := g', log }
      refine ⟨log', hrest.trans (congrArg (·, _) ?_)⟩
      dsimp only
      cases (enterCalls strictness source rest g').1 with
      | error failure => rfl
      | ok others => exact congrArg Except.ok (countCalls_cons added others tally).symm

end Actions

/-! ## Success -/

section Success

variable {idOf : IdScheme} {strictness : Strictness} {source : String}

theorem enterFunctions_cons_eq_ok_iff {record : FunctionRecord} {rest : List FunctionRecord}
    {g g' : Graph} :
    enterFunctions idOf strictness source (record :: rest) g = (.ok (), g') ↔
      ∃ id mid, (g.addFunction idOf record.name (some record.location) strictness).Yields id mid ∧
        enterFunctions idOf strictness source rest mid = (.ok (), g') := by
  simp only [enterFunctions, Graph.Attempt.Yields]
  cases (g.addFunction idOf record.name (some record.location) strictness).result with
  | error failure => simp
  | ok id =>
    refine ⟨fun h => ⟨id, _, ⟨rfl, rfl⟩, h⟩, ?_⟩
    rintro ⟨_, _, ⟨-, rfl⟩, h⟩
    exact h

/-- A call between registered functions is added. -/
theorem enterCall_of_registered {record : CallRecord} {g : Graph} {caller callee : FunctionId}
    {site : Option Location} (hsource : g.ids[record.source]? = some caller)
    (htarget : g.ids[record.target]? = some callee)
    (hsite : (Graph.readSite strictness (some record.label)).result = .ok site) :
    enterCall strictness source record g =
      (.ok true, g.append (record.call g.calls.size caller callee site)) := by
  simp only [enterCall, hsource, htarget, hsite]

/-- Any other call is dropped, for the want of one end or the other. -/
theorem enterCall_of_missing (strictness : Strictness) (source : String) {record : CallRecord}
    {g : Graph}
    (hmissing : g.ids[record.source]? = none ∨ g.ids[record.target]? = none) :
    ∃ side, enterCall strictness source record g =
      (.ok false, g.recordDropped (record.dropped source side)) := by
  unfold enterCall
  cases hsource : g.ids[record.source]? with
  | none => exact ⟨.source, rfl⟩
  | some caller =>
    cases htarget : g.ids[record.target]? with
    | none => exact ⟨.target, rfl⟩
    | some callee => simp [hsource, htarget] at hmissing

/-- **What a call does to the graph, if it does not fail.** -/
theorem enterCall_eq_ok {record : CallRecord} {g g' : Graph} {added : Bool}
    (h : enterCall strictness source record g = (.ok added, g')) :
    (added = true ∧ ∃ caller callee site, g.ids[record.source]? = some caller ∧
        g.ids[record.target]? = some callee ∧
        (Graph.readSite strictness (some record.label)).result = .ok site ∧
        g' = g.append (record.call g.calls.size caller callee site)) ∨
      (added = false ∧ (g.ids[record.source]? = none ∨ g.ids[record.target]? = none) ∧
        ∃ side, g' = g.recordDropped (record.dropped source side)) := by
  unfold enterCall at h
  split at h
  · next hsource =>
    obtain ⟨hadded, rfl⟩ := Prod.mk.inj h
    exact .inr ⟨(Except.ok.inj hadded).symm, .inl hsource, .source, rfl⟩
  · next caller hsource =>
    split at h
    · next htarget =>
      obtain ⟨hadded, rfl⟩ := Prod.mk.inj h
      exact .inr ⟨(Except.ok.inj hadded).symm, .inr htarget, .target, rfl⟩
    · next callee htarget =>
      split at h
      · next site hsite =>
        obtain ⟨hadded, rfl⟩ := Prod.mk.inj h
        exact .inl ⟨(Except.ok.inj hadded).symm, caller, callee, site, hsource, htarget, hsite, rfl⟩
      · simp at h

theorem enterCalls_cons_eq_ok_iff {record : CallRecord} {rest : List CallRecord} {g g' : Graph}
    {flags : List Bool} :
    enterCalls strictness source (record :: rest) g = (.ok flags, g') ↔
      ∃ added mid others, enterCall strictness source record g = (.ok added, mid) ∧
        enterCalls strictness source rest mid = (.ok others, g') ∧ flags = added :: others := by
  rw [enterCalls]
  rcases enterCall strictness source record g with ⟨failure | added, mid⟩
  · simp
  · constructor
    · intro h
      obtain ⟨hflags, hlast⟩ := Prod.mk.inj h
      cases hothers : (enterCalls strictness source rest mid).1 with
      | error failure => simp [hothers, Except.map] at hflags
      | ok others =>
        rw [hothers] at hflags
        exact ⟨added, mid, others, rfl, Prod.ext hothers hlast, (Except.ok.inj hflags).symm⟩
    · rintro ⟨added', mid', others, hcall, hrest, rfl⟩
      obtain ⟨hadded, rfl⟩ := Prod.mk.inj hcall
      obtain rfl := Except.ok.inj hadded
      simp only [hrest, Except.map]

end Success

/-! ## Functions are registered regardless of calls -/

section Functions

variable {idOf : IdScheme} {strictness : Strictness} {source : String}
  {records : List FunctionRecord} {g g' : Graph}

/-- Functions that can be registered in a graph can be registered in any other with the same
functions. -/
theorem enterFunctions_of_sameFunctions {h : Graph} (hsame : SameFunctions g h)
    (hg : enterFunctions idOf strictness source records g = (.ok (), g')) :
    ∃ h', enterFunctions idOf strictness source records h = (.ok (), h') ∧
      SameFunctions g' h' := by
  induction records generalizing g h with
  | nil =>
    obtain ⟨-, rfl⟩ := Prod.mk.inj hg
    exact ⟨h, rfl, hsame⟩
  | cons record rest ih =>
    obtain ⟨id, mid, hadd, hrest⟩ := enterFunctions_cons_eq_ok_iff.mp hg
    obtain ⟨mid', hadd', hsame'⟩ := hsame.addFunction hadd
    obtain ⟨h', hrest', hlast⟩ := ih hsame' hrest
    exact ⟨h', enterFunctions_cons_eq_ok_iff.mpr ⟨id, mid', hadd', hrest'⟩, hlast⟩

theorem calls_enterFunctions
    (h : enterFunctions idOf strictness source records g = (.ok (), g')) :
    g'.calls = g.calls ∧ g'.dropped = g.dropped := by
  induction records generalizing g with
  | nil =>
    obtain ⟨-, rfl⟩ := Prod.mk.inj h
    exact ⟨rfl, rfl⟩
  | cons record rest ih =>
    obtain ⟨id, mid, hadd, hrest⟩ := enterFunctions_cons_eq_ok_iff.mp h
    obtain ⟨hcalls, hdropped⟩ := Graph.calls_of_addFunction hadd
    exact ⟨(ih hrest).1.trans hcalls, (ih hrest).2.trans hdropped⟩

/-- Registering functions keeps the register in order and forgets no function. -/
theorem registry_enterFunctions (hg : Registry idOf g)
    (h : enterFunctions idOf strictness source records g = (.ok (), g')) :
    Registry idOf g' ∧ Knows g' g := by
  induction records generalizing g with
  | nil =>
    obtain ⟨-, rfl⟩ := Prod.mk.inj h
    exact ⟨hg, .refl g⟩
  | cons record rest ih =>
    obtain ⟨id, mid, hadd, hrest⟩ := enterFunctions_cons_eq_ok_iff.mp h
    have hchange := Graph.change_of_addFunction hadd
    obtain ⟨hlast, hknows⟩ := ih (hg.change hchange) hrest
    exact ⟨hlast, hknows.trans (hg.knows hchange)⟩

end Functions

/-! ## Calls leave the functions -/

section Calls

variable {strictness : Strictness} {source : String} {g g' : Graph}

theorem sameFunctions_enterCall {record : CallRecord} {added : Bool}
    (h : enterCall strictness source record g = (.ok added, g')) : SameFunctions g g' := by
  rcases enterCall_eq_ok h with ⟨-, caller, callee, site, -, -, -, rfl⟩ | ⟨-, -, side, rfl⟩
  · exact .append g _
  · exact .recordDropped g _

theorem sameFunctions_enterCalls {records : List CallRecord} {flags : List Bool}
    (h : enterCalls strictness source records g = (.ok flags, g')) : SameFunctions g g' := by
  induction records generalizing g flags with
  | nil =>
    obtain ⟨-, rfl⟩ := Prod.mk.inj h
    exact .refl g
  | cons record rest ih =>
    obtain ⟨added, mid, others, hcall, hrest, rfl⟩ := enterCalls_cons_eq_ok_iff.mp h
    exact (sameFunctions_enterCall hcall).trans (ih hrest)

end Calls

end CallAtlas.Ingest
