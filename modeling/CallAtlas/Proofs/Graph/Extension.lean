import CallAtlas.Proofs.Graph.Ledger

/-!
# Longer ledgers

What can be entered behind a ledger.  Registrations can, in any order, if their texts can be read,
their names have ids, and no two names share one.  Calls can, in any order, if the ledger admits
each of them, for calls do not bear on one another.

## Main results

* `IsLedger.result?_eq_some_iff`: an operation succeeds if it can be entered
* `isLedger_append_registrations_iff`, `isLedger_append_calls_iff`: what can be entered behind a
  ledger
* `isLedger_append_perm_iff`: registrations before calls can be entered in any order
-/

namespace CallAtlas.Graph

variable {idOf : IdScheme}

theorem isLedger_of_append {entries more : List Operation}
    (h : IsLedger idOf (entries ++ more)) : IsLedger idOf entries := by
  induction more using List.reverseRecOn with
  | nil => rwa [List.append_nil] at h
  | append_singleton more op ih =>
    rw [← List.append_assoc] at h
    exact ih (isLedger_concat_iff.mp h).1

/-- An operation succeeds on the graph of a ledger if it can be entered there. -/
theorem IsLedger.result?_eq_some_iff {entries : List Operation} (h : IsLedger idOf entries)
    {op : Operation} {g' : Graph} :
    op.result? idOf (after idOf entries) = some g' ↔
      IsLedger idOf (entries ++ [op]) ∧ g' = after idOf (entries ++ [op]) := by
  rw [isLedger_concat_iff_succeeds, after_concat, apply_eq_getD, Operation.succeeds]
  cases op.result? idOf (after idOf entries) with
  | none => simp
  | some found => simp [h, eq_comm]

/-- No two of the names have one id. -/
def Distinguishes (idOf : IdScheme) (names : List String) : Prop :=
  ∀ name ∈ names, ∀ other ∈ names, idOf other = idOf name → other = name

theorem distinguishes_concat_iff {names : List String} {name : String} :
    Distinguishes idOf (names ++ [name]) ↔
      Distinguishes idOf names ∧ ∀ other ∈ names, idOf other = idOf name → other = name := by
  simp only [Distinguishes, List.mem_append, List.mem_singleton]
  constructor
  · intro h
    exact ⟨fun one hone other hother => h one (.inl hone) other (.inl hother),
      fun other hother => h name (.inr rfl) other (.inl hother)⟩
  · rintro ⟨hnames, hname⟩ one (hone | rfl) other (hother | rfl) hid
    · exact hnames one hone other hother hid
    · exact (hname one hone hid.symm).symm
    · exact hname other hother hid
    · rfl

theorem IsLedger.distinguishes {entries : List Operation} (h : IsLedger idOf entries) :
    Distinguishes idOf (namesIn entries) := by
  intro name hname other hother hid
  have hregistry := registry_after idOf entries
  have hname' := (h.recounts.names_eq_some_iff hregistry).mpr ⟨hname, rfl⟩
  have hother' := (h.recounts.names_eq_some_iff hregistry).mpr ⟨hother, hid.symm⟩
  exact Option.some.inj (hother'.symm.trans hname')

/-- **Registrations extend a ledger** if their texts can be read, their names have ids, and no two
names have one id; their order is of no account. -/
theorem isLedger_append_registrations_iff {entries more : List Operation}
    (hmore : ∀ op ∈ more, op.registration?.isSome = true) :
    IsLedger idOf (entries ++ more) ↔
      IsLedger idOf entries ∧
        (∀ name text strictness, .addFunction name text strictness ∈ more →
          Readable strictness text ∧ idOf.fault? name = none) ∧
        Distinguishes idOf (namesIn (entries ++ more)) := by
  induction more using List.reverseRecOn with
  | nil =>
    rw [List.append_nil]
    exact ⟨fun h => ⟨h, by simp, h.distinguishes⟩, And.left⟩
  | append_singleton more op ih =>
    have hop := hmore op (by simp)
    cases op with
    | addCall source target text strictness => cases hop
    | recordDropped call => cases hop
    | addFunction name text strictness =>
      rw [← List.append_assoc, isLedger_concat_iff, ih fun op hop => hmore op (by simp [hop]),
        namesIn_append (entries ++ more), namesIn_addFunction, distinguishes_concat_iff]
      simp only [Admits, List.mem_append, List.mem_singleton]
      constructor
      · rintro ⟨⟨hentries, hread, hnames⟩, hlast, hfault, hname⟩
        refine ⟨hentries, ?_, hnames, hname⟩
        rintro name' text' strictness' (hmem | heq)
        · exact hread _ _ _ hmem
        · obtain ⟨rfl, rfl, rfl⟩ := Operation.addFunction.inj heq
          exact ⟨hlast, hfault⟩
      · rintro ⟨hentries, hread, hnames, hname⟩
        obtain ⟨hlast, hfault⟩ := hread _ _ _ (.inr rfl)
        exact ⟨⟨hentries, fun _ _ _ hmem => hread _ _ _ (.inl hmem), hnames⟩, hlast, hfault, hname⟩

/-- **Calls extend a ledger** if each of them is admitted; their order is of no account. -/
theorem isLedger_append_calls_iff {entries more : List Operation}
    (hmore : ∀ op ∈ more, op.registration? = none) :
    IsLedger idOf (entries ++ more) ↔
      IsLedger idOf entries ∧ ∀ op ∈ more, Admits idOf entries op := by
  induction more using List.reverseRecOn with
  | nil => simp
  | append_singleton more op ih =>
    have hinit : ∀ op ∈ more, op.registration? = none := fun op hop => hmore op (by simp [hop])
    have hnames := namesIn_append_of_none entries hinit
    have hadmits : Admits idOf (entries ++ more) op ↔ Admits idOf entries op := by
      have hop := hmore op (by simp)
      cases op with
      | addFunction name text strictness => cases hop
      | addCall source target text strictness => simp only [Admits, hnames]
      | recordDropped call => rfl
    rw [← List.append_assoc, isLedger_concat_iff, ih hinit, hadmits, and_assoc]
    simp only [List.forall_mem_append, List.forall_mem_singleton]

/-! ## Other orders -/

theorem namesIn_perm {entries entries' : List Operation} (h : entries.Perm entries') :
    (namesIn entries).Perm (namesIn entries') :=
  (h.filterMap Operation.registration?).map Prod.fst

/-- What is admitted depends on which names are registered. -/
theorem admits_congr {entries entries' : List Operation}
    (h : ∀ name, name ∈ namesIn entries ↔ name ∈ namesIn entries') (op : Operation) :
    Admits idOf entries op ↔ Admits idOf entries' op := by
  cases op <;> simp only [Admits, h]

/-- **Registrations before calls extend a ledger in any order, or in none.** -/
theorem isLedger_append_perm_iff {entries registrations registrations' calls calls' :
      List Operation}
    (hregistrations : ∀ op ∈ registrations, op.registration?.isSome = true)
    (hcalls : ∀ op ∈ calls, op.registration? = none)
    (hperm : registrations.Perm registrations') (hperm' : calls.Perm calls') :
    IsLedger idOf (entries ++ (registrations ++ calls)) ↔
      IsLedger idOf (entries ++ (registrations' ++ calls')) := by
  have hnames (name : String) : name ∈ namesIn (entries ++ registrations) ↔
      name ∈ namesIn (entries ++ registrations') :=
    (namesIn_perm (hperm.append_left entries)).mem_iff
  have hregistrations' : ∀ op ∈ registrations', op.registration?.isSome = true :=
    fun op hop => hregistrations op (hperm.mem_iff.mpr hop)
  have hcalls' : ∀ op ∈ calls', op.registration? = none :=
    fun op hop => hcalls op (hperm'.mem_iff.mpr hop)
  rw [← List.append_assoc, ← List.append_assoc, isLedger_append_calls_iff hcalls,
    isLedger_append_calls_iff hcalls', isLedger_append_registrations_iff hregistrations,
    isLedger_append_registrations_iff hregistrations']
  simp only [Distinguishes, hnames, admits_congr hnames, hperm.mem_iff, hperm'.mem_iff]

end CallAtlas.Graph
