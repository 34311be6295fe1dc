import CallAtlas.Session

/-!
# Outcomes of actions

An action takes a session to an outcome: a result or a failure, with the session as it is then.  The
rules here tell the outcome of a composed action from those of its parts, so that no later proof
looks into how actions are built.

## Main definitions

* `Action.outcome x s`: what `x` gives on the session `s`

## Main results

* `outcome_bind`, `outcome_tryCatch`, `outcome_perform`: the outcomes of composed actions
* `outcome_bind_eq_ok_iff`: a composed action succeeds when its parts do, one after the other
* `outcome_mapM_cons_eq_ok_iff`: the same for an action on each element of a list
* `outcome_bind_eq_error_iff`: where a composed action fails
-/

namespace CallAtlas.Action

variable {α β : Type}

/-- The outcome of an action on a session. -/
def outcome (x : Action α) (s : Session) : Except Failure α × Session := x s

theorem outcome_pure (a : α) (s : Session) :
    (pure a : Action α).outcome s = (.ok a, s) := rfl

theorem outcome_bind (x : Action α) (f : α → Action β) (s : Session) :
    (x >>= f).outcome s =
      match x.outcome s with
      | (.ok a, s') => (f a).outcome s'
      | (.error failure, s') => (.error failure, s') := by
  -- The second action sees no more of the first than its outcome on `s`.
  rcases hx : x.outcome s with ⟨failure | a, s'⟩
  · exact congrArg (fun r : Except Failure α × Session => outcome ((fun _ => r) >>= f) s) hx
  · exact congrArg (fun r : Except Failure α × Session => outcome ((fun _ => r) >>= f) s) hx

theorem outcome_tryCatch (x : Action α) (handle : Failure → Action α) (s : Session) :
    (tryCatch x handle).outcome s =
      match x.outcome s with
      | (.ok a, s') => (.ok a, s')
      | (.error failure, s') => (handle failure).outcome s' := by
  rcases hx : x.outcome s with ⟨failure | a, s'⟩
  · exact congrArg
      (fun r : Except Failure α × Session => outcome (tryCatch (fun _ => r) handle) s) hx
  · exact congrArg
      (fun r : Except Failure α × Session => outcome (tryCatch (fun _ => r) handle) s) hx

theorem outcome_perform (operation : Graph → Graph.Attempt α) (s : Session) :
    (perform operation).outcome s =
      ((operation s.graph).result,
        { s with
          graph := (operation s.graph).graph
          log := s.log ++ (operation s.graph).events }) := rfl

/-! ## Success -/

/-- A composed action succeeds when its parts do, one after the other. -/
theorem outcome_bind_eq_ok_iff {x : Action α} {f : α → Action β} {s t : Session} {b : β} :
    (x >>= f).outcome s = (.ok b, t) ↔
      ∃ a s', x.outcome s = (.ok a, s') ∧ (f a).outcome s' = (.ok b, t) := by
  rw [outcome_bind]
  rcases x.outcome s with ⟨failure | a, s'⟩
  · simp
  · constructor
    · intro h
      exact ⟨a, s', rfl, h⟩
    · rintro ⟨a', t', hx, h⟩
      obtain ⟨ha, rfl⟩ := Prod.mk.inj hx
      obtain rfl := Except.ok.inj ha
      exact h

theorem outcome_pure_eq_ok_iff {a b : α} {s t : Session} :
    (pure a : Action α).outcome s = (.ok b, t) ↔ a = b ∧ s = t := by
  rw [outcome_pure, Prod.mk.injEq, Except.ok.injEq]

theorem outcome_mapM_nil_eq_ok_iff {f : α → Action β} {s t : Session} {bs : List β} :
    (([] : List α).mapM f).outcome s = (.ok bs, t) ↔ bs = [] ∧ s = t := by
  rw [List.mapM_nil, outcome_pure_eq_ok_iff, eq_comm]

theorem outcome_mapM_cons_eq_ok_iff {f : α → Action β} {a : α} {as : List α} {s t : Session}
    {bs : List β} :
    ((a :: as).mapM f).outcome s = (.ok bs, t) ↔
      ∃ b s' rest, (f a).outcome s = (.ok b, s') ∧ (as.mapM f).outcome s' = (.ok rest, t) ∧
        bs = b :: rest := by
  rw [List.mapM_cons, outcome_bind_eq_ok_iff]
  constructor
  · rintro ⟨b, s', hb, h⟩
    obtain ⟨rest, t', hrest, h⟩ := outcome_bind_eq_ok_iff.mp h
    obtain ⟨rfl, rfl⟩ := outcome_pure_eq_ok_iff.mp h
    exact ⟨b, s', rest, hb, hrest, rfl⟩
  · rintro ⟨b, s', rest, hb, hrest, rfl⟩
    exact ⟨b, s', hb, outcome_bind_eq_ok_iff.mpr
      ⟨rest, t, hrest, outcome_pure_eq_ok_iff.mpr ⟨rfl, rfl⟩⟩⟩

/-! ## Failure -/

/-- A composed action fails when its first part does, or its second after the first. -/
theorem outcome_bind_eq_error_iff {x : Action α} {f : α → Action β} {s t : Session}
    {failure : Failure} :
    (x >>= f).outcome s = (.error failure, t) ↔
      x.outcome s = (.error failure, t) ∨
        ∃ a s', x.outcome s = (.ok a, s') ∧ (f a).outcome s' = (.error failure, t) := by
  rw [outcome_bind]
  rcases x.outcome s with ⟨first | a, s'⟩
  · simp
  · constructor
    · intro h
      exact .inr ⟨a, s', rfl, h⟩
    · rintro (h | ⟨a', t', hx, h⟩)
      · simp at h
      · obtain ⟨ha, rfl⟩ := Prod.mk.inj hx
        obtain rfl := Except.ok.inj ha
        exact h

end CallAtlas.Action
