import CallAtlas.Graph.Query
import CallAtlas.Proofs.Graph.Places

/-!
# Attempts

What an operation comes to, from the steps it is made of.  A failure ends the steps and undoes none
of them.  That an operation leaves the graph if it fails is therefore a matter of the order of its
steps: those that can fail come first, and those that change something cannot fail.

## Main definitions

* `Attempt.Yields attempt a g`: an attempt succeeds with `a` and leaves `g`
* `Update.Peeks`, `Update.Succeeds`, `Update.Careful`: steps that change nothing, that do not fail,
  and that change nothing if they fail
* `RegistrationFails`, `CallFails`: why an operation fails, in the order in which it is told

## Main results

* `addFunction_careful`, `addCall_careful`: an operation that fails leaves the graph
* `addFunction_yields_iff`, `addCall_yields_iff`: when operations succeed, and with which graph
* `addFunction_eq_error_iff`, `addCall_eq_error_iff`: when and how operations fail
-/

namespace CallAtlas.Graph

/-- An attempt succeeds with `a` and leaves the graph `g`. -/
def Attempt.Yields {α : Type} (attempt : Attempt α) (a : α) (g : Graph) : Prop :=
  attempt.result = .ok a ∧ attempt.graph = g

/-- What goes on from a reading on the graph `g`, unless it failed. -/
def Reading.followedBy {α β : Type} (reading : Reading α) (g : Graph) (next : α → Attempt β) :
    Attempt β :=
  match reading.result with
  | .error failure => ⟨reading.events, .error failure, g⟩
  | .ok a => ⟨reading.events ++ (next a).events, (next a).result, (next a).graph⟩

namespace Update

variable {α β : Type} {first : Update α} {next : α → Update β} {g g' : Graph}

/-! ## Steps in sequence -/

theorem bind_apply (first : Update α) (next : α → Update β) (g : Graph) :
    (first >>= next) g =
      match (first g).result with
      | .error failure => ⟨(first g).events, .error failure, (first g).graph⟩
      | .ok a =>
        ⟨(first g).events ++ (next a (first g).graph).events, (next a (first g).graph).result,
          (next a (first g).graph).graph⟩ := rfl

/-- Steps succeed one after the other, each on the graph before it. -/
theorem yields_bind_iff {b : β} :
    ((first >>= next) g).Yields b g' ↔
      ∃ a between, (first g).Yields a between ∧ (next a between).Yields b g' := by
  simp only [bind_apply, Attempt.Yields]
  cases (first g).result with
  | error failure => simp
  | ok a =>
    refine ⟨fun h => ⟨a, _, ⟨rfl, rfl⟩, h⟩, ?_⟩
    rintro ⟨_, _, ⟨ha, rfl⟩, h⟩
    obtain rfl := Except.ok.inj ha
    exact h

/-- The first step that fails ends them. -/
theorem bind_eq_error_iff {failure : Failure} :
    ((first >>= next) g).result = .error failure ↔ (first g).result = .error failure ∨
      ∃ a between, (first g).Yields a between ∧ (next a between).result = .error failure := by
  simp only [bind_apply, Attempt.Yields]
  cases (first g).result with
  | error failure' => simp
  | ok a =>
    refine ⟨fun h => .inr ⟨a, _, ⟨rfl, rfl⟩, h⟩, ?_⟩
    rintro (h | ⟨_, _, ⟨ha, rfl⟩, h⟩)
    · cases h
    · obtain rfl := Except.ok.inj ha
      exact h

@[simp] theorem yields_pure_iff {a b : α} :
    ((pure a : Update α) g).Yields b g' ↔ a = b ∧ g = g' := by
  change (Except.ok a = Except.ok b ∧ g = g') ↔ _
  rw [Except.ok.injEq]

@[simp] theorem yields_read_iff {reading : Reading α} {a : α} :
    (read reading g).Yields a g' ↔ reading.result = .ok a ∧ g = g' := .rfl

@[simp] theorem yields_look_iff {question : Graph → α} {a : α} :
    (look question g).Yields a g' ↔ question g = a ∧ g = g' := by
  change (Except.ok (question g) = Except.ok a ∧ g = g') ↔ _
  rw [Except.ok.injEq]

@[simp] theorem yields_change_iff {f : Graph → Graph} {u : Unit} :
    (change f g).Yields u g' ↔ f g = g' :=
  ⟨And.right, fun h => ⟨rfl, h⟩⟩

@[simp] theorem not_yields_fail {failure : Failure} {a : α} : ¬ (fail failure g).Yields a g' := by
  rintro ⟨h, -⟩
  cases h

@[simp] theorem result_pure (a : α) : ((pure a : Update α) g).result = .ok a := rfl

@[simp] theorem result_fail (failure : Failure) :
    (fail failure g : Attempt α).result = .error failure := rfl

@[simp] theorem result_read (reading : Reading α) : (read reading g).result = reading.result := rfl

@[simp] theorem result_look (question : Graph → α) : (look question g).result = .ok (question g) :=
  rfl

@[simp] theorem result_change (f : Graph → Graph) : (change f g).result = .ok () := rfl

/-! ## Care -/

/-- Steps that leave the graph, whether or not they fail. -/
def Peeks (update : Update α) : Prop :=
  ∀ g, (update g).graph = g

/-- Steps that do not fail. -/
def Succeeds (update : Update α) : Prop :=
  ∀ g, ∃ a, (update g).result = .ok a

/-- **Steps that leave the graph if they fail.** -/
def Careful (update : Update α) : Prop :=
  ∀ g failure, (update g).result = .error failure → (update g).graph = g

theorem peeks_pure (a : α) : (pure a : Update α).Peeks := fun _ => rfl

theorem peeks_fail (failure : Failure) : (fail failure : Update α).Peeks := fun _ => rfl

theorem peeks_read (reading : Reading α) : (read reading).Peeks := fun _ => rfl

theorem peeks_look (question : Graph → α) : (look question).Peeks := fun _ => rfl

theorem succeeds_pure (a : α) : (pure a : Update α).Succeeds := fun _ => ⟨a, rfl⟩

theorem succeeds_change (f : Graph → Graph) : (change f).Succeeds := fun _ => ⟨(), rfl⟩

theorem Peeks.bind (hfirst : first.Peeks) (hnext : ∀ a, (next a).Peeks) :
    (first >>= next).Peeks := by
  intro g
  rw [bind_apply]
  cases (first g).result with
  | error failure => exact hfirst g
  | ok a => exact (hnext a _).trans (hfirst g)

theorem Succeeds.bind (hfirst : first.Succeeds) (hnext : ∀ a, (next a).Succeeds) :
    (first >>= next).Succeeds := by
  intro g
  obtain ⟨a, ha⟩ := hfirst g
  obtain ⟨b, hb⟩ := hnext a (first g).graph
  exact ⟨b, by simp only [bind_apply, ha, hb]⟩

theorem Peeks.careful {update : Update α} (h : update.Peeks) : update.Careful :=
  fun g _ _ => h g

theorem Succeeds.careful {update : Update α} (h : update.Succeeds) : update.Careful := by
  intro g failure hfailure
  obtain ⟨a, ha⟩ := h g
  rw [ha] at hfailure
  cases hfailure

/-- Careful steps may be put behind such as change nothing. -/
theorem Careful.bind_of_peeks (hfirst : first.Peeks) (hnext : ∀ a, (next a).Careful) :
    (first >>= next).Careful := by
  intro g failure hfailure
  rw [bind_apply] at hfailure ⊢
  cases ha : (first g).result with
  | error failure' => exact hfirst g
  | ok a =>
    rw [ha] at hfailure
    exact (hnext a _ failure hfailure).trans (hfirst g)

/-- Careful steps may be put before such as do not fail. -/
theorem Careful.bind_of_succeeds (hfirst : first.Careful) (hnext : ∀ a, (next a).Succeeds) :
    (first >>= next).Careful := by
  intro g failure hfailure
  rw [bind_apply] at hfailure ⊢
  cases ha : (first g).result with
  | error failure' => exact hfirst g failure' ha
  | ok a =>
    obtain ⟨b, hb⟩ := hnext a (first g).graph
    rw [ha] at hfailure
    cases hb.symm.trans hfailure

/-! ## Silence -/

/-- Steps without events. -/
def Silent (update : Update α) : Prop :=
  ∀ g, (update g).events = []

theorem silent_pure (a : α) : (pure a : Update α).Silent := fun _ => rfl

theorem silent_fail (failure : Failure) : (fail failure : Update α).Silent := fun _ => rfl

theorem silent_look (question : Graph → α) : (look question).Silent := fun _ => rfl

theorem silent_change (f : Graph → Graph) : (change f).Silent := fun _ => rfl

theorem Silent.bind (hfirst : first.Silent) (hnext : ∀ a, (next a).Silent) :
    (first >>= next).Silent := by
  intro g
  rw [bind_apply]
  cases (first g).result with
  | error failure => exact hfirst g
  | ok a =>
    change (first g).events ++ (next a (first g).graph).events = []
    rw [hfirst, hnext, List.nil_append]

end Update

/-! ## Functions that are looked up -/

section Lookup

variable {g : Graph}

theorem contains_eq_isSome (g : Graph) (name : String) :
    g.contains name = g.ids[name]?.isSome := by
  rw [contains, Std.HashMap.contains_eq_isSome_getElem?]

theorem contains_eq_true_iff {name : String} :
    g.contains name = true ↔ ∃ id, g.ids[name]? = some id := by
  rw [contains_eq_isSome, Option.isSome_iff_exists]

theorem contains_eq_false_iff {name : String} :
    g.contains name = false ↔ g.ids[name]? = none := by
  rw [contains_eq_isSome, Option.isSome_eq_false_iff, Option.isNone_iff_eq_none]

theorem nameOfId_eq_ok_iff {id : FunctionId} {name : String} :
    g.nameOfId id = .ok name ↔ g.names[id]? = some name := by
  unfold nameOfId
  split <;> simp_all

end Lookup

/-! ## Registering functions -/

/-- **Why a function is not registered**: its place cannot be read or, if it can be, its name has no
id or, if it has one, another function has the id. -/
inductive RegistrationFails (idOf : IdScheme) (g : Graph) (name : String) (text : Option String)
    (strictness : Strictness) : Failure → Prop
  | place {place : String} {failure : Failure} (htext : text = some place)
      (hplace : Misplaced strictness place failure) :
      RegistrationFails idOf g name text strictness failure
  | name {fault : Text.EncodeFault} (hread : Readable strictness text)
      (hfault : idOf.fault? name = some fault) :
      RegistrationFails idOf g name text strictness (.unencodable fault)
  | collision {owner : String} (hread : Readable strictness text)
      (hfault : idOf.fault? name = none) (howner : g.nameOfId (idOf name) = .ok owner)
      (hother : owner ≠ name) :
      RegistrationFails idOf g name text strictness
        (.ofCause (.idCollision (idOf name) owner name))

section Registering

variable {idOf : IdScheme} {g g' : Graph} {name : String} {text : Option String}
  {strictness : Strictness}

theorem peeks_identify (idOf : IdScheme) (name : String) : (identify idOf name).Peeks := by
  unfold identify
  split
  · exact Update.peeks_fail _
  · exact Update.peeks_pure _

theorem yields_identify_iff {id : FunctionId} :
    (identify idOf name g).Yields id g' ↔ idOf.fault? name = none ∧ idOf name = id ∧ g = g' := by
  unfold identify
  cases idOf.fault? name <;> simp

theorem identify_eq_error_iff {failure : Failure} :
    (identify idOf name g).result = .error failure ↔
      ∃ fault, idOf.fault? name = some fault ∧ failure = .unencodable fault := by
  unfold identify
  cases idOf.fault? name <;> simp [eq_comm]

/-- An id is refused before anything is changed for it. -/
theorem careful_claim (name : String) (id : FunctionId) : (claim name id).Careful := by
  refine Update.Careful.bind_of_peeks (Update.peeks_look _) fun owner? => ?_
  cases owner? with
  | none => exact (Update.succeeds_change _).careful
  | some owner =>
    by_cases howner : owner = name
    · simp only [if_pos howner]
      exact (Update.succeeds_change _).careful
    · simp only [if_neg howner]
      exact (Update.peeks_fail _).careful

theorem yields_claim_iff {id : FunctionId} {u : Unit} :
    (claim name id g).Yields u g' ↔
      (g.names[id]? = none ∧ g' = g.enroll name id) ∨
        (g.names[id]? = some name ∧ g' = g.unbind id) := by
  simp only [claim, Update.yields_bind_iff, Update.yields_look_iff, and_assoc, exists_and_left,
    exists_eq_left']
  cases g.names[id]? with
  | none => simp [eq_comm]
  | some owner =>
    by_cases howner : owner = name
    · simp [howner, eq_comm]
    · simp [howner]

theorem claim_eq_error_iff {id : FunctionId} {failure : Failure} :
    (claim name id g).result = .error failure ↔
      ∃ owner, g.names[id]? = some owner ∧ owner ≠ name ∧
        failure = .ofCause (.idCollision id owner name) := by
  simp only [claim, Update.bind_eq_error_iff, Update.yields_look_iff, Update.result_look, and_assoc,
    exists_and_left, exists_eq_left']
  cases g.names[id]? with
  | none => simp
  | some owner =>
    by_cases howner : owner = name
    · simp [howner]
    · simp [howner, @eq_comm _ failure]

/-- **A registration that fails leaves the graph.** -/
theorem addFunction_careful {failure : Failure}
    (h : (g.addFunction idOf name text strictness).result = .error failure) :
    (g.addFunction idOf name text strictness).graph = g := by
  refine Update.Careful.bind_of_peeks (Update.peeks_read _) (fun site => ?_) g failure h
  refine .bind_of_peeks (peeks_identify idOf name) fun id => ?_
  -- from the claim on, nothing fails any more
  refine .bind_of_succeeds (careful_claim name id) fun _ => ?_
  exact (Update.succeeds_change _).bind fun _ => Update.succeeds_pure id

/-- **A registration succeeds** when its place can be read, its name has an id, and the id is free
or its own. -/
theorem addFunction_yields_iff {id : FunctionId} :
    (g.addFunction idOf name text strictness).Yields id g' ↔
      id = idOf name ∧ Readable strictness text ∧ idOf.fault? name = none ∧
        ((g.names[idOf name]? = none ∧
            g' = (g.enroll name (idOf name)).bind (idOf name) (siteTold text)) ∨
          (g.names[idOf name]? = some name ∧
            g' = (g.unbind (idOf name)).bind (idOf name) (siteTold text))) := by
  simp only [addFunction, Update.run, Update.yields_bind_iff, Update.yields_read_iff,
    readSite_eq_ok_iff, yields_identify_iff, yields_claim_iff, Update.yields_change_iff,
    Update.yields_pure_iff]
  constructor
  · rintro ⟨site, _, ⟨⟨hread, rfl⟩, rfl⟩, _, _, ⟨hfault, rfl, rfl⟩, _, _, hclaim, _, _, rfl, rfl,
      rfl⟩
    refine ⟨rfl, hread, hfault, ?_⟩
    rcases hclaim with ⟨hnew, rfl⟩ | ⟨hknown, rfl⟩
    · exact .inl ⟨hnew, rfl⟩
    · exact .inr ⟨hknown, rfl⟩
  · rintro ⟨rfl, hread, hfault, ⟨hnew, rfl⟩ | ⟨hknown, rfl⟩⟩
    · exact ⟨_, g, ⟨⟨hread, rfl⟩, rfl⟩, _, g, ⟨hfault, rfl, rfl⟩,
        (), _, .inl ⟨hnew, rfl⟩, (), _, rfl, rfl, rfl⟩
    · exact ⟨_, g, ⟨⟨hread, rfl⟩, rfl⟩, _, g, ⟨hfault, rfl, rfl⟩,
        (), _, .inr ⟨hknown, rfl⟩, (), _, rfl, rfl, rfl⟩

/-- **A registration fails by its place or, after that, by its name or, after that, by its id.** -/
theorem addFunction_eq_error_iff {failure : Failure} :
    (g.addFunction idOf name text strictness).result = .error failure ↔
      RegistrationFails idOf g name text strictness failure := by
  simp only [addFunction, Update.run, Update.bind_eq_error_iff, Update.result_read,
    Update.yields_read_iff, readSite_eq_ok_iff, identify_eq_error_iff, yields_identify_iff,
    claim_eq_error_iff, Update.result_change, Update.result_pure]
  constructor
  · rintro (hsite | ⟨_, _, ⟨⟨hread, rfl⟩, rfl⟩,
      (⟨fault, hfault, rfl⟩ | ⟨_, _, ⟨hfault, rfl, rfl⟩,
        (⟨owner, howner, hother, rfl⟩ | ⟨_, _, _, (h | ⟨_, _, _, h⟩)⟩)⟩)⟩)
    · cases text with
      | none => cases hsite
      | some place => exact .place rfl (readSite_eq_error_iff.mp hsite)
    · exact .name hread hfault
    · exact .collision hread hfault (nameOfId_eq_ok_iff.mpr howner) hother
    · cases h
    · cases h
  · rintro (⟨rfl, hplace⟩ | ⟨hread, hfault⟩ | ⟨hread, hfault, howner, hother⟩)
    · exact .inl (readSite_eq_error_iff.mpr hplace)
    · exact .inr ⟨_, g, ⟨⟨hread, rfl⟩, rfl⟩, .inl ⟨_, hfault, rfl⟩⟩
    · exact .inr ⟨_, g, ⟨⟨hread, rfl⟩, rfl⟩, .inr ⟨_, g, ⟨hfault, rfl, rfl⟩,
        .inl ⟨_, nameOfId_eq_ok_iff.mp howner, hother, rfl⟩⟩⟩

/-- The steps of a registration behind the reading of its place. -/
def enterAt (idOf : IdScheme) (name : String) (site : Option Location) : Update FunctionId := do
  let id ← identify idOf name
  claim name id
  Update.change (·.bind id site)
  return id

theorem addFunction_eq_followedBy :
    g.addFunction idOf name text strictness =
      (readSite strictness text).followedBy g fun site => enterAt idOf name site g := rfl

/-- Behind its place, a registration fails by its name or by its id. -/
theorem enterAt_eq_error {site : Option Location} {failure : Failure}
    (h : (enterAt idOf name site g).result = .error failure) :
    (∃ fault, failure = .unencodable fault) ∨
      ∃ id owner, failure = .ofCause (.idCollision id owner name) := by
  simp only [enterAt, Update.bind_eq_error_iff, identify_eq_error_iff, claim_eq_error_iff,
    Update.result_change, Update.result_pure] at h
  rcases h with ⟨fault, -, rfl⟩ | ⟨id, _, -, ⟨owner, -, -, rfl⟩ | ⟨_, _, -, h | ⟨_, _, -, h⟩⟩⟩
  · exact .inl ⟨fault, rfl⟩
  · exact .inr ⟨id, owner, rfl⟩
  · cases h
  · cases h

theorem silent_identify (idOf : IdScheme) (name : String) : (identify idOf name).Silent := by
  unfold identify
  split
  · exact Update.silent_fail _
  · exact Update.silent_pure _

theorem silent_claim (name : String) (id : FunctionId) : (claim name id).Silent := by
  refine (Update.silent_look _).bind fun owner? => ?_
  cases owner? with
  | none => exact Update.silent_change _
  | some owner =>
    by_cases howner : owner = name
    · simp only [if_pos howner]
      exact Update.silent_change _
    · simp only [if_neg howner]
      exact Update.silent_fail _

/-- Of the steps of a registration, only reading the place has events. -/
theorem silent_enterAt (idOf : IdScheme) (name : String) (site : Option Location) :
    (enterAt idOf name site).Silent := by
  refine (silent_identify idOf name).bind fun id => ?_
  refine (silent_claim name id).bind fun _ => ?_
  exact (Update.silent_change _).bind fun _ => Update.silent_pure id

end Registering

/-! ## Adding calls -/

/-- **Why a call is not added**: its source is not registered or, if it is, its target is not or, if
both are, its place cannot be read. -/
inductive CallFails (g : Graph) (source target : String) (text : Option String)
    (strictness : Strictness) : Failure → Prop
  | source (hsource : g.contains source = false) :
      CallFails g source target text strictness (.ofCause (.missingEndpoint "source" source))
  | target (hsource : g.contains source = true) (htarget : g.contains target = false) :
      CallFails g source target text strictness (.ofCause (.missingEndpoint "target" target))
  | place {failure : Failure} (hsource : g.contains source = true)
      (htarget : g.contains target = true)
      (hplace : Misplaced strictness (text.getD Schema.intrinsicLabel) failure) :
      CallFails g source target text strictness failure

section Adding

variable {g g' : Graph} {source target name : String} {text : Option String}
  {strictness : Strictness}

theorem endpoint_of_eq_some {side : Endpoint} {id : FunctionId} (h : g.ids[name]? = some id) :
    endpoint side name g = ⟨[], .ok id, g⟩ := by
  simp only [endpoint, Update.bind_apply, Update.look, h]
  rfl

theorem endpoint_of_eq_none {side : Endpoint} (h : g.ids[name]? = none) :
    endpoint side name g = ⟨[], .error (.ofCause (.missingEndpoint side.word name)), g⟩ := by
  simp only [endpoint, Update.bind_apply, Update.look, h]
  rfl

theorem yields_endpoint_iff {side : Endpoint} {id : FunctionId} :
    (endpoint side name g).Yields id g' ↔ g.ids[name]? = some id ∧ g = g' := by
  cases h : g.ids[name]? with
  | none => simp [endpoint_of_eq_none h, Attempt.Yields]
  | some found => simp [endpoint_of_eq_some h, Attempt.Yields]

theorem endpoint_eq_error_iff {side : Endpoint} {failure : Failure} :
    (endpoint side name g).result = .error failure ↔
      g.ids[name]? = none ∧ failure = .ofCause (.missingEndpoint side.word name) := by
  cases h : g.ids[name]? with
  | none => simp [endpoint_of_eq_none h, eq_comm]
  | some found => simp [endpoint_of_eq_some h]

theorem peeks_endpoint (side : Endpoint) (name : String) : (endpoint side name).Peeks := by
  refine (Update.peeks_look _).bind fun id? => ?_
  cases id? with
  | none => exact Update.peeks_fail _
  | some id => exact Update.peeks_pure _

/-- **A call that fails leaves the graph.** -/
theorem addCall_careful {failure : Failure}
    (h : (g.addCall source target text strictness).result = .error failure) :
    (g.addCall source target text strictness).graph = g := by
  refine Update.Careful.bind_of_peeks (peeks_endpoint _ _) (fun caller => ?_) g failure h
  refine .bind_of_peeks (peeks_endpoint _ _) fun callee => ?_
  refine .bind_of_peeks (Update.peeks_read _) fun site => ?_
  refine .bind_of_peeks (Update.peeks_look _) fun key => ?_
  exact ((Update.succeeds_change _).bind fun _ => Update.succeeds_pure _).careful

theorem addCall_of_missing_source (h : g.ids[source]? = none) :
    g.addCall source target text strictness =
      ⟨[], .error (.ofCause (.missingEndpoint Endpoint.source.word source)), g⟩ := by
  simp only [addCall, Update.run, Update.bind_apply, endpoint_of_eq_none h]

theorem addCall_of_missing_target {caller : FunctionId} (hsource : g.ids[source]? = some caller)
    (h : g.ids[target]? = none) :
    g.addCall source target text strictness =
      ⟨[], .error (.ofCause (.missingEndpoint Endpoint.target.word target)), g⟩ := by
  simp only [addCall, Update.run, Update.bind_apply, endpoint_of_eq_some hsource,
    endpoint_of_eq_none h, List.nil_append]

/-- **A call between registered functions is read for its place**, and added if it can be read. -/
theorem addCall_of_ends {caller callee : FunctionId} (hsource : g.ids[source]? = some caller)
    (htarget : g.ids[target]? = some callee) :
    g.addCall source target text strictness =
      (readSite strictness (some (text.getD Schema.intrinsicLabel))).followedBy g fun site =>
        let call : Call :=
          { key := g.calls.size, caller, callee, callerName := source, calleeName := target,
            label := text.getD Schema.intrinsicLabel, site }
        ⟨[], .ok call, g.append call⟩ := by
  simp only [addCall, Update.run, Update.bind_apply, endpoint_of_eq_some hsource,
    endpoint_of_eq_some htarget, List.nil_append]
  rfl

/-- **A call is added** when both ends are registered and its label can be read. -/
theorem addCall_yields_iff {call : Call} :
    (g.addCall source target text strictness).Yields call g' ↔
      ∃ caller callee, g.ids[source]? = some caller ∧ g.ids[target]? = some callee ∧
        Readable strictness (some (text.getD Schema.intrinsicLabel)) ∧
        call =
          { key := g.calls.size, caller, callee, callerName := source, calleeName := target,
            label := text.getD Schema.intrinsicLabel
            site := siteTold (some (text.getD Schema.intrinsicLabel)) } ∧
        g' = g.append call := by
  simp only [addCall, Update.run, Update.yields_bind_iff, yields_endpoint_iff,
    Update.yields_read_iff, readSite_eq_ok_iff, Update.yields_look_iff, Update.yields_change_iff,
    Update.yields_pure_iff]
  constructor
  · rintro ⟨caller, _, ⟨hcaller, rfl⟩, callee, _, ⟨hcallee, rfl⟩, _, _, ⟨⟨hread, rfl⟩, rfl⟩,
      _, _, ⟨rfl, rfl⟩, _, _, rfl, rfl, rfl⟩
    exact ⟨caller, callee, hcaller, hcallee, hread, rfl, rfl⟩
  · rintro ⟨caller, callee, hcaller, hcallee, hread, rfl, rfl⟩
    exact ⟨caller, g, ⟨hcaller, rfl⟩, callee, g, ⟨hcallee, rfl⟩, _, g, ⟨⟨hread, rfl⟩, rfl⟩,
      _, g, ⟨rfl, rfl⟩, (), _, rfl, rfl, rfl⟩

/-- **A call fails by its source, its target or its place**, whichever is wrong first. -/
theorem addCall_eq_error_iff {failure : Failure} :
    (g.addCall source target text strictness).result = .error failure ↔
      CallFails g source target text strictness failure := by
  simp only [addCall, Update.run, Update.bind_eq_error_iff, endpoint_eq_error_iff,
    yields_endpoint_iff, Update.result_read, readSite_eq_error_iff, Update.result_look,
    Update.result_change, Update.result_pure]
  constructor
  · rintro (⟨hsource, rfl⟩ | ⟨caller, _, ⟨hcaller, rfl⟩,
      (⟨htarget, rfl⟩ | ⟨callee, _, ⟨hcallee, rfl⟩,
        (hplace | ⟨_, _, _, (h | ⟨_, _, _, (h | ⟨_, _, _, h⟩)⟩)⟩)⟩)⟩)
    · exact .source (contains_eq_false_iff.mpr hsource)
    · exact .target (contains_eq_true_iff.mpr ⟨caller, hcaller⟩)
        (contains_eq_false_iff.mpr htarget)
    · exact .place (contains_eq_true_iff.mpr ⟨caller, hcaller⟩)
        (contains_eq_true_iff.mpr ⟨callee, hcallee⟩) hplace
    · cases h
    · cases h
    · cases h
  · rintro (hsource | ⟨hsource, htarget⟩ | ⟨hsource, htarget, hplace⟩)
    · exact .inl ⟨contains_eq_false_iff.mp hsource, rfl⟩
    · obtain ⟨caller, hcaller⟩ := contains_eq_true_iff.mp hsource
      exact .inr ⟨caller, g, ⟨hcaller, rfl⟩, .inl ⟨contains_eq_false_iff.mp htarget, rfl⟩⟩
    · obtain ⟨caller, hcaller⟩ := contains_eq_true_iff.mp hsource
      obtain ⟨callee, hcallee⟩ := contains_eq_true_iff.mp htarget
      exact .inr ⟨caller, g, ⟨hcaller, rfl⟩, .inr ⟨callee, g, ⟨hcallee, rfl⟩, .inl hplace⟩⟩

end Adding

end CallAtlas.Graph
