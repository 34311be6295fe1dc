import CallAtlas.Proofs.Graph.Registry
import CallAtlas.Proofs.Location.RoundTrip

/-!
# The index of places

Every function has at most one place of definition, and the functions of a place are looked up in an
index of their own.  The index is kept up by hand: a function that is registered again is first
taken from its old place.  It is exact in every reachable graph, so that the questions about a place
have the answers that follow from the places of the functions.

## Main definitions

* `SitesExact g`: the index of places lists the functions of each place, each of them once
* `SitesExactBut g id`: the same, with the function `id` at no place

## Main results

* `Reachable.sitesExact`: the index is exact in every reachable graph
* `Reachable.writable_of_location`: the numbers of a place in use can be shown
* `mem_namesAt_iff`, `pairwise_namesAt`: the functions at a place, in ascending order
* `locationIndex_exact`: the index and all answers about a place
* `huge_line_not_unknown`: a place with a number of too many digits is not told as unknown
-/

namespace CallAtlas.Graph

/-! ## Exactness of the index -/

/-- The index of places lists the functions of each place, each of them once, and no place without
functions. -/
structure SitesExact (g : Graph) : Prop where
  mem_iff : ∀ (place : Location) (id : FunctionId),
    id ∈ g.sites.getD place [] ↔ g.locations[id]? = some (some place)
  nodup : ∀ place : Location, (g.sites.getD place []).Nodup
  ne_nil : ∀ place : Location, g.sites[place]? ≠ some []

/-- The index of places is exact but for the function `id`, which it lists nowhere. -/
structure SitesExactBut (g : Graph) (id : FunctionId) : Prop where
  mem_iff : ∀ (place : Location) (other : FunctionId),
    other ∈ g.sites.getD place [] ↔ other ≠ id ∧ g.locations[other]? = some (some place)
  nodup : ∀ place : Location, (g.sites.getD place []).Nodup
  ne_nil : ∀ place : Location, g.sites[place]? ≠ some []

section Binding

variable {g : Graph} {id : FunctionId}

theorem getD_sites_bind (g : Graph) (id : FunctionId) (site : Option Location)
    (place : Location) :
    (g.bind id site).sites.getD place [] =
      g.sites.getD place [] ++ if site = some place then [id] else [] := by
  cases site with
  | none => simp [bind]
  | some location =>
    simp only [bind, Std.HashMap.getD_insert, beq_iff_eq, Option.some.injEq]
    split
    · next heq => rw [heq]
    · rw [List.append_nil]

/-- Putting the missing function at a place, or at none, makes the index exact. -/
theorem SitesExactBut.bind (h : SitesExactBut g id) (site : Option Location) :
    SitesExact (g.bind id site) where
  mem_iff place other := by
    rw [getD_sites_bind, List.mem_append, h.mem_iff, bind_locations, Std.HashMap.getElem?_insert]
    by_cases hid : id = other
    · -- the missing function is listed at its new place and at no other
      subst hid
      by_cases hsite : site = some place <;> simp [hsite]
    · have hne : other ≠ id := fun heq => hid heq.symm
      by_cases hsite : site = some place <;> simp [hid, hne, hsite]
  nodup place := by
    rw [getD_sites_bind]
    split
    · have hout : id ∉ g.sites.getD place [] := fun hmem => ((h.mem_iff place id).mp hmem).1 rfl
      rw [List.nodup_append]
      refine ⟨h.nodup place, by simp, fun other hother last hlast => ?_⟩
      obtain rfl := List.mem_singleton.mp hlast
      exact fun heq => hout (heq ▸ hother)
    · rw [List.append_nil]
      exact h.nodup place
  ne_nil place := by
    cases site with
    | none => exact h.ne_nil place
    | some location =>
      simp only [Graph.bind, Std.HashMap.getElem?_insert]
      split
      · simp
      · exact h.ne_nil place

/-- Taking a function from its place takes it out of every list, and no other function. -/
theorem getD_sites_unbind (h : SitesExact g) (id : FunctionId) (place : Location) :
    (g.unbind id).sites.getD place [] = (g.sites.getD place []).erase id := by
  -- at a place where the function is not, there is nothing to take out
  have hstay (hplace : g.locations[id]? ≠ some (some place)) :
      (g.sites.getD place []).erase id = g.sites.getD place [] :=
    List.erase_of_not_mem fun hmem => hplace ((h.mem_iff place id).mp hmem)
  unfold unbind
  split
  · next old hold =>
    by_cases hplace : old = place
    · subst hplace
      -- an empty list is not kept, but reads as an empty list all the same
      split
      · next hnil => rw [Std.HashMap.getD_erase_self, hnil]
      · rw [Std.HashMap.getD_insert_self]
    · have herase := hstay (by rw [hold]; simpa using hplace)
      split
      · rw [Std.HashMap.getD_erase, if_neg (by simpa using hplace), herase]
      · rw [Std.HashMap.getD_insert, if_neg (by simpa using hplace), herase]
  · next hnone => exact (hstay (hnone place)).symm

theorem ne_nil_unbind (h : SitesExact g) (id : FunctionId) (place : Location) :
    (g.unbind id).sites[place]? ≠ some [] := by
  unfold unbind
  split
  · split
    · rw [Std.HashMap.getElem?_erase]
      split
      · simp
      · exact h.ne_nil place
    · next hne =>
      rw [Std.HashMap.getElem?_insert]
      split
      · exact fun hnil => hne (Option.some.inj hnil)
      · exact h.ne_nil place
  · exact h.ne_nil place

theorem SitesExact.unbind (h : SitesExact g) (id : FunctionId) :
    SitesExactBut (g.unbind id) id where
  mem_iff place other := by
    rw [getD_sites_unbind h, (h.nodup place).mem_erase_iff, h.mem_iff, unbind_locations]
  nodup place := by
    rw [getD_sites_unbind h]
    exact (h.nodup place).erase id
  ne_nil := ne_nil_unbind h id

/-- A new function is at no place. -/
theorem SitesExact.enroll (h : SitesExact g) {name : String} (hnew : g.locations[id]? = none) :
    SitesExactBut (g.enroll name id) id where
  mem_iff place other := by
    change other ∈ g.sites.getD place [] ↔ other ≠ id ∧ g.locations[other]? = some (some place)
    rw [h.mem_iff]
    refine ⟨fun hother => ⟨?_, hother⟩, And.right⟩
    rintro rfl
    simp [hnew] at hother
  nodup := h.nodup
  ne_nil := h.ne_nil

end Binding

/-! ## Reachable graphs -/

theorem SitesExact.of_empty : SitesExact empty := by
  constructor <;> simp [empty]

theorem SitesExact.change {idOf : IdScheme} {g g' : Graph} (h : SitesExact g)
    (hregistry : Registry idOf g) (hchange : Change idOf g g') : SitesExact g' := by
  cases hchange with
  | unchanged => exact h
  | @enrolled name text strictness site hnew _ =>
    refine (h.enroll (Std.HashMap.getElem?_eq_none fun hmem => ?_)).bind site
    exact notMem_names_of_eq_none hnew ((hregistry.mem_locations _).mp hmem)
  | @moved name text strictness site hknown _ => exact (h.unbind (idOf name)).bind site
  | called => exact ⟨h.mem_iff, h.nodup, h.ne_nil⟩
  | recorded call => exact ⟨h.mem_iff, h.nodup, h.ne_nil⟩

theorem Reachable.sitesExact {idOf : IdScheme} {g : Graph} (hg : Reachable idOf g) :
    SitesExact g :=
  hg.of_changes .of_empty fun _ _ hbefore hchange h => h.change hbefore.registry hchange

/-! ## Places in use -/

theorem writable_of_readSite {strictness : Strictness} {text : Option String} {place : Location}
    (h : (readSite strictness text).result = .ok (some place)) : place.Writable := by
  obtain ⟨-, hsite⟩ := readSite_eq_ok_iff.mp h
  cases text with
  | none => cases hsite
  | some text =>
    simp only [siteTold] at hsite
    cases hread : Location.ofString? text with
    | error fault => simp [hread] at hsite
    | ok found =>
      simp only [hread] at hsite
      rw [← hsite] at hread
      obtain ⟨rest, hparse⟩ := Location.exists_parse_of_ofString? hread
      exact (Location.of_parse hparse).1.writable

/-- The place of a function after an entry for one of them. -/
theorem writable_of_insert {places : Std.HashMap FunctionId (Option Location)}
    (h : ∀ (id : FunctionId) (place : Location), places[id]? = some (some place) → place.Writable)
    {site : Option Location} (hsite : ∀ place, site = some place → place.Writable)
    {id other : FunctionId} {place : Location}
    (hplace : (places.insert id site)[other]? = some (some place)) : place.Writable := by
  rw [Std.HashMap.getElem?_insert] at hplace
  split at hplace
  · exact hsite place (Option.some.inj hplace)
  · exact h other place hplace

/-- **The numbers of a place in use can be shown**: they were read, and no more digits are read than
are shown. -/
theorem Reachable.writable_of_location {idOf : IdScheme} {g : Graph} (hg : Reachable idOf g)
    (id : FunctionId) (place : Location) (h : g.locations[id]? = some (some place)) :
    place.Writable := by
  revert id place
  refine hg.of_changes
    (P := fun g => ∀ (id : FunctionId) (place : Location),
      g.locations[id]? = some (some place) → place.Writable) (by simp [empty]) ?_
  intro g g' _ hchange h id place hplace
  cases hchange with
  | unchanged => exact h id place hplace
  | enrolled _ hsite =>
    exact writable_of_insert h (fun _ heq => writable_of_readSite (heq ▸ hsite)) hplace
  | moved _ hsite =>
    rw [bind_locations, unbind_locations] at hplace
    exact writable_of_insert h (fun _ heq => writable_of_readSite (heq ▸ hsite)) hplace
  | called => exact h id place hplace
  | recorded => exact h id place hplace

/-! ## Questions about a place -/

section Questions

variable {idOf : IdScheme} {g : Graph}

/-- The names of the functions at a place, in no particular order. -/
def ownersAt (g : Graph) (place : Location) : List String :=
  (g.sites.getD place []).filterMap fun id => g.names[id]?

theorem nodup_ownersAt (hregistry : Registry idOf g) (hsites : SitesExact g) (place : Location) :
    (g.ownersAt place).Nodup := by
  refine List.pairwise_filterMap.mpr ((hsites.nodup place).imp ?_)
  intro id id' hne name hname other hother
  rintro rfl
  exact hne ((hregistry.id_eq _ _ hname).trans (hregistry.id_eq _ _ hother).symm)

theorem mem_ownersAt_iff (hregistry : Registry idOf g) (hsites : SitesExact g) {place : Location}
    {name : String} : name ∈ g.ownersAt place ↔ g.locationOf name = .ok (some place) := by
  rw [locationOf_eq_ok_some_iff, ownersAt, List.mem_filterMap]
  constructor
  · rintro ⟨id, hid, hname⟩
    exact ⟨id, (hregistry.ids_iff name id).mpr hname, (hsites.mem_iff place id).mp hid⟩
  · rintro ⟨id, hid, hlocation⟩
    exact ⟨id, (hsites.mem_iff place id).mpr hlocation, (hregistry.ids_iff name id).mp hid⟩

theorem namesAt_perm (g : Graph) (place : Location) :
    (g.namesAt place).Perm (g.ownersAt place) :=
  List.mergeSort_perm _ _

/-- The functions at a place are those whose place it is. -/
theorem mem_namesAt_iff (hg : Reachable idOf g) {place : Location} {name : String} :
    name ∈ g.namesAt place ↔ g.locationOf name = .ok (some place) := by
  rw [(namesAt_perm g place).mem_iff]
  exact mem_ownersAt_iff hg.registry hg.sitesExact

/-- The functions at a place are told in strictly ascending order. -/
theorem pairwise_namesAt (hg : Reachable idOf g) (place : Location) :
    (g.namesAt place).Pairwise (· < ·) := by
  have hsorted : (g.namesAt place).Pairwise (fun a b => decide (a ≤ b) = true) := by
    refine List.pairwise_mergeSort (fun a b c hab hbc => ?_) (fun a b => ?_) _
    · exact decide_eq_true (String.le_trans (of_decide_eq_true hab) (of_decide_eq_true hbc))
    · simpa using String.le_total a b
  have hnodup : (g.namesAt place).Nodup :=
    (namesAt_perm g place).nodup_iff.mpr (nodup_ownersAt hg.registry hg.sitesExact place)
  refine (hsorted.and hnodup).imp fun ⟨hle, hne⟩ => ?_
  rw [← String.not_le]
  exact fun hge => hne (String.le_antisymm (of_decide_eq_true hle) hge)

theorem isWritable_unknownLocation_iff {place : Location} :
    (Cause.unknownLocation (.site place)).isWritable = true ↔ place.Writable := by
  simp [Cause.isWritable, Cause.numbers, Mention.numbers, Location.Writable]

theorem isWritable_ambiguousLocation_iff {place : Location} {names : List String} :
    (Cause.ambiguousLocation (.site place) names).isWritable = true ↔ place.Writable := by
  simp [Cause.isWritable, Cause.numbers, Mention.numbers, Location.Writable]

/-- The question for the only function at a place fails where there is none, and where there are
several; then the place is in use, so that its numbers can be shown. -/
theorem nameAt_cases (hg : Reachable idOf g) (place : Location) :
    (g.namesAt place = [] ∧
        g.nameAt place = .error (.ofCause (.unknownLocation (.site place)))) ∨
      (∃ name, g.namesAt place = [name] ∧ g.nameAt place = .ok name) ∨
      (2 ≤ (g.namesAt place).length ∧
        g.nameAt place =
          .error (.diagnosed { cause := .ambiguousLocation (.site place) (g.namesAt place) })) := by
  have hmem (name : String) (hname : name ∈ g.namesAt place) :
      g.locationOf name = .ok (some place) := (mem_namesAt_iff hg).mp hname
  rw [nameAt]
  generalize g.namesAt place = found at hmem ⊢
  rcases found with _ | ⟨a, _ | ⟨b, rest⟩⟩
  · exact .inl ⟨rfl, rfl⟩
  · exact .inr (.inl ⟨a, rfl, rfl⟩)
  · obtain ⟨id, -, hid⟩ := locationOf_eq_ok_some_iff.mp (hmem a (.head _))
    have hwritable : (Cause.ambiguousLocation (.site place) (a :: b :: rest)).isWritable = true :=
      isWritable_ambiguousLocation_iff.mpr (hg.writable_of_location id place hid)
    exact .inr (.inr ⟨by simp, congrArg Except.error (Failure.ofCause_of_isWritable hwritable)⟩)

/-- A function is told as the only one at a place exactly when it is. -/
theorem nameAt_eq_ok_iff (hg : Reachable idOf g) {place : Location} {name : String} :
    g.nameAt place = .ok name ↔
      ∀ other, g.locationOf other = .ok (some place) ↔ other = name := by
  have hsorted := pairwise_namesAt hg place
  simp only [← mem_namesAt_iff hg, nameAt]
  generalize g.namesAt place = found at hsorted ⊢
  rcases found with _ | ⟨a, _ | ⟨b, rest⟩⟩
  · simp
  · simp [eq_comm]
  · -- two functions cannot both be the only one
    refine ⟨by simp, fun hall => ?_⟩
    have ha := (hall a).mp (by simp)
    have hb := (hall b).mp (by simp)
    have hlt : a < b := (List.pairwise_cons.mp hsorted).1 b (by simp)
    rw [ha, hb] at hlt
    exact absurd hlt (String.lt_irrefl name)

/-- No function is at a place. -/
theorem namesAt_eq_nil_iff (hg : Reachable idOf g) {place : Location} :
    g.namesAt place = [] ↔ ∀ name, g.locationOf name ≠ .ok (some place) := by
  simp only [ne_eq, ← mem_namesAt_iff hg, List.eq_nil_iff_forall_not_mem]

/-- A place without functions is told as unknown, if its numbers can be shown. -/
theorem nameAt_eq_unknown_iff (hg : Reachable idOf g) {place : Location} :
    g.nameAt place = .error (.diagnosed { cause := .unknownLocation (.site place) }) ↔
      (∀ name, g.locationOf name ≠ .ok (some place)) ∧ place.Writable := by
  rw [← namesAt_eq_nil_iff hg, ← isWritable_unknownLocation_iff]
  rcases nameAt_cases hg place with ⟨hnil, hname⟩ | ⟨name, hone, hname⟩ | ⟨htwo, hname⟩
  · simp [hnil, hname, Failure.ofCause]
  · simp [hone, hname]
  · have hne : g.namesAt place ≠ [] := fun hnil => by simp [hnil] at htwo
    simp [hne, hname]

/-- If they cannot be shown, the numbers of a place without functions are told instead. -/
theorem nameAt_eq_unwritable_iff (hg : Reachable idOf g) {place : Location} :
    g.nameAt place = .error .unwritable ↔
      (∀ name, g.locationOf name ≠ .ok (some place)) ∧ ¬ place.Writable := by
  rw [← namesAt_eq_nil_iff hg, ← isWritable_unknownLocation_iff]
  rcases nameAt_cases hg place with ⟨hnil, hname⟩ | ⟨name, hone, hname⟩ | ⟨htwo, hname⟩
  · simp [hnil, hname, Failure.ofCause]
  · simp [hone, hname]
  · have hne : g.namesAt place ≠ [] := fun hnil => by simp [hnil] at htwo
    simp [hne, hname]

/-- A place is ambiguous exactly when two functions are there, and then all of them are told. -/
theorem nameAt_eq_ambiguous_iff (hg : Reachable idOf g) {place : Location} {names : List String} :
    g.nameAt place =
        .error (.diagnosed { cause := .ambiguousLocation (.site place) names }) ↔
      names = g.namesAt place ∧ ∃ name other, name ≠ other ∧
        g.locationOf name = .ok (some place) ∧ g.locationOf other = .ok (some place) := by
  have hsorted := pairwise_namesAt hg place
  simp only [← mem_namesAt_iff hg]
  rcases nameAt_cases hg place with ⟨hnil, hname⟩ | ⟨name, hone, hname⟩ | ⟨htwo, hname⟩
  · simp [hnil, hname, Failure.ofCause]
    split <;> simp
  · rw [hname, hone]
    refine ⟨by simp, ?_⟩
    rintro ⟨-, name, other, hne, hname, hother⟩
    rw [List.mem_singleton.mp hname, List.mem_singleton.mp hother] at hne
    exact absurd rfl hne
  · rw [hname]
    generalize g.namesAt place = found at hsorted htwo ⊢
    obtain ⟨a, b, rest, rfl⟩ : ∃ a b rest, found = a :: b :: rest := by
      rcases found with _ | ⟨a, _ | ⟨b, rest⟩⟩ <;> simp at htwo ⊢
    have hlt : a < b := (List.pairwise_cons.mp hsorted).1 b (by simp)
    have hne : a ≠ b := fun heq => String.lt_irrefl b (heq ▸ hlt)
    simp only [Except.error.injEq, Failure.diagnosed.injEq, Diagnostic.mk.injEq,
      Cause.ambiguousLocation.injEq, true_and, and_true]
    exact ⟨fun heq => ⟨heq.symm, a, b, hne, by simp, by simp⟩, fun h => h.1.symm⟩

end Questions

/-- **The index of places is exact in every reachable graph.**  It lists exactly the functions of
each place, each of them once, and no place without functions; so a function that is moved is found
at its old place.  The functions told at a place are those whose place it is, in strictly ascending
order; a single one is told by itself, and none or several are told apart.  A place without
functions is told as unknown unless one of its numbers has too many digits to be shown, and then
that is told; where there are several functions, both numbers can be shown. -/
theorem locationIndex_exact {idOf : IdScheme} {g : Graph} (hg : Reachable idOf g)
    (place : Location) :
    (∀ id : FunctionId, (g.sites.getD place []).count id =
        if g.locations[id]? = some (some place) then 1 else 0) ∧
      g.sites[place]? ≠ some [] ∧
      (∀ id : FunctionId, g.locations[id]? = some (some place) →
        ∃ owners, g.sites[place]? = some owners ∧ id ∈ owners) ∧
      (g.namesAt place).Pairwise (· < ·) ∧
      (∀ name, name ∈ g.namesAt place ↔ g.locationOf name = .ok (some place)) ∧
      (∀ name, g.nameAt place = .ok name ↔
        ∀ other, g.locationOf other = .ok (some place) ↔ other = name) ∧
      (g.nameAt place = .error (.diagnosed { cause := .unknownLocation (.site place) }) ↔
        (∀ name, g.locationOf name ≠ .ok (some place)) ∧ place.Writable) ∧
      (g.nameAt place = .error .unwritable ↔
        (∀ name, g.locationOf name ≠ .ok (some place)) ∧ ¬ place.Writable) ∧
      (∀ names, g.nameAt place =
          .error (.diagnosed { cause := .ambiguousLocation (.site place) names }) ↔
        names = g.namesAt place ∧ ∃ name other, name ≠ other ∧
          g.locationOf name = .ok (some place) ∧ g.locationOf other = .ok (some place)) := by
  have hsites := hg.sitesExact
  refine ⟨fun id => ?_, hsites.ne_nil place, fun id hid => ?_, pairwise_namesAt hg place,
    fun name => mem_namesAt_iff hg, fun name => nameAt_eq_ok_iff hg, nameAt_eq_unknown_iff hg,
    nameAt_eq_unwritable_iff hg, fun names => nameAt_eq_ambiguous_iff hg⟩
  · rw [(hsites.nodup place).count]
    simp only [hsites.mem_iff]
  · have hmem := (hsites.mem_iff place id).mpr hid
    rw [Std.HashMap.getD_eq_getD_getElem?] at hmem
    cases howners : g.sites[place]? with
    | none => simp [howners] at hmem
    | some owners => exact ⟨owners, rfl, by simpa [howners] using hmem⟩

/-- A history in which a function leaves the place that it shares with another, and returns. -/
def returningHistory : List Operation :=
  [.addFunction "bb" (some "f.c:1:2") .strict, .addFunction "a" (some "f.c:1:2") .lenient,
    .addFunction "bb" (some "g.c:3:4") .strict, .addFunction "bb" (some "f.c:1:2:again") .strict]

theorem locationIndex_exact_returning :
    Reachable lengthIds (after lengthIds returningHistory) ∧
      (after lengthIds returningHistory).nameAt ⟨"f.c", 1, 2⟩ =
        .error (.diagnosed { cause := .ambiguousLocation (.site ⟨"f.c", 1, 2⟩) ["a", "bb"] }) := by
  have hreach : Reachable lengthIds (after lengthIds returningHistory) := ⟨returningHistory, rfl⟩
  obtain ⟨-, -, -, -, -, -, -, -, hambiguous⟩ := locationIndex_exact hreach ⟨"f.c", 1, 2⟩
  refine ⟨hreach, (hambiguous ["a", "bb"]).mpr ⟨by cbv, "a", "bb", by decide, by cbv, by cbv⟩⟩

/-- Not every place without functions is told as unknown: one with a number of too many digits is
not, for the number is to be shown. -/
theorem huge_line_not_unknown :
    ¬ ∀ (idOf : IdScheme) (g : Graph), Reachable idOf g → ∀ place : Location,
      (g.nameAt place = .error (.diagnosed { cause := .unknownLocation (.site place) }) ↔
        ∀ name, g.locationOf name ≠ .ok (some place)) := by
  intro h
  have hreach : Reachable lengthIds empty := ⟨[], rfl⟩
  -- in the empty graph nothing is defined anywhere
  have hnone (place : Location) (name : String) : empty.locationOf name ≠ .ok (some place) := by
    simp [locationOf, idOfName, empty, Except.map]
  have hunknown := (h lengthIds empty hreach
    ⟨"a.c", (10 ^ Location.digitLimit : Nat), 0⟩).mpr (hnone _)
  have hline := ((nameAt_eq_unknown_iff hreach).mp hunknown).2.1
  exact absurd Location.digitLimit_lt_digitCount (Nat.not_lt.mpr hline)

end CallAtlas.Graph
