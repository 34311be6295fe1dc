import CallAtlas.Proofs.Graph.Ledger
import CallAtlas.Proofs.Graph.Sites

/-!
# The identity of functions

A function is known by its name and by its id, and either leads to the other.  Ids follow from
names, and two names may have one id; then only the name that was registered first is ever known,
and any other is refused.  So no function is taken for another, and what is asked about a function
is answered alike by name and by id.

## Main definitions

* `AnsweredAs g name id`: the questions about a function are answered, by name and by id
* `UnknownName g name`, `UnknownId g id failure`: they fail, and how

## Main results

* `Registry.answeredAs`, `unknownName_of_eq_none`, `unknownId_of_eq_none`: what questions answer
* `ofCause_unknownId`: whether an unknown id can be told
* `knows_foldl_apply`: operations forget no function
* `addFunction_of_owner`: the id of another function is refused
* `names_ids_bijective`: names and ids are in bijection, and functions are never merged
* `place_and_digits_told_first`: neither a collision nor an unknown id is always told
-/

namespace CallAtlas.Graph

/-! ## Questions about a function -/

/-- The questions about the function with this name and this id, each answered from an index that
has the function. -/
structure AnsweredAs (g : Graph) (name : String) (id : FunctionId) : Prop where
  idOfName : g.idOfName name = .ok id
  nameOfId : g.nameOfId id = .ok name
  locationOf : ∃ site, g.locations[id]? = some site ∧ g.locationOf name = .ok site
  callsFrom : ∃ calls, g.outgoing[id]? = some calls ∧
    g.callsFrom (.name name) = .ok calls.toList ∧ g.callsFrom (.id id) = .ok calls.toList
  callsTo : ∃ calls, g.incoming[id]? = some calls ∧
    g.callsTo (.name name) = .ok calls.toList ∧ g.callsTo (.id id) = .ok calls.toList

/-- The questions about a name that no function has. -/
structure UnknownName (g : Graph) (name : String) : Prop where
  idOfName : g.idOfName name = .error (.diagnosed { cause := .unknownFunction (.text name) })
  locationOf : g.locationOf name = .error (.diagnosed { cause := .unknownFunction (.text name) })
  callsFrom :
    g.callsFrom (.name name) = .error (.diagnosed { cause := .unknownFunction (.text name) })
  callsTo : g.callsTo (.name name) = .error (.diagnosed { cause := .unknownFunction (.text name) })

/-- The questions about a number that no function has as its id, and how they fail. -/
structure UnknownId (g : Graph) (id : FunctionId) (failure : Failure) : Prop where
  nameOfId : g.nameOfId id = .error failure
  callsFrom : g.callsFrom (.id id) = .error failure
  callsTo : g.callsTo (.id id) = .error failure

section Questions

variable {idOf : IdScheme} {g : Graph} {name : String} {id : FunctionId}

/-- **Questions about a registered function are answered**, alike by name and by id. -/
theorem Registry.answeredAs (h : Registry idOf g) (hname : g.names[id]? = some name) :
    AnsweredAs g name id := by
  have hid : g.ids[name]? = some id := (h.ids_iff name id).mpr hname
  have hmem := mem_names_of_eq_some hname
  have hidOf : g.idOfName name = .ok id := by rw [idOfName, hid]
  have hnameOf : g.nameOfId id = .ok name := nameOfId_eq_ok_iff.mpr hname
  obtain ⟨site, hsite⟩ := Std.HashMap.mem_iff_isSome_getElem?.mp ((h.mem_locations id).mpr hmem) |>
    Option.isSome_iff_exists.mp
  obtain ⟨out, hout⟩ := Std.HashMap.mem_iff_isSome_getElem?.mp ((h.mem_outgoing id).mpr hmem) |>
    Option.isSome_iff_exists.mp
  obtain ⟨inc, hinc⟩ := Std.HashMap.mem_iff_isSome_getElem?.mp ((h.mem_incoming id).mpr hmem) |>
    Option.isSome_iff_exists.mp
  have hcallsOut : g.callsOut id = out := by
    rw [callsOut, Std.HashMap.getD_eq_getD_getElem?, hout, Option.getD_some]
  have hcallsIn : g.callsIn id = inc := by
    rw [callsIn, Std.HashMap.getD_eq_getD_getElem?, hinc, Option.getD_some]
  refine ⟨hidOf, hnameOf, ⟨site, hsite, ?_⟩, ⟨out, hout, ?_, ?_⟩, ⟨inc, hinc, ?_, ?_⟩⟩
  · rw [locationOf, hidOf, Except.map, hsite, Option.getD_some]
  · rw [callsFrom, resolve, hidOf, Except.map, hcallsOut]
  · rw [callsFrom, resolve, hnameOf, Except.map, Except.map, hcallsOut]
  · rw [callsTo, resolve, hidOf, Except.map, hcallsIn]
  · rw [callsTo, resolve, hnameOf, Except.map, Except.map, hcallsIn]

/-- A name that is not registered is told as unknown by every question. -/
theorem unknownName_of_eq_none (hname : g.ids[name]? = none) : UnknownName g name := by
  have hidOf :
      g.idOfName name = .error (.diagnosed { cause := .unknownFunction (.text name) }) := by
    rw [idOfName, hname]
    rfl
  refine ⟨hidOf, ?_, ?_, ?_⟩
  · rw [locationOf, hidOf, Except.map]
  · rw [callsFrom, resolve, hidOf, Except.map]
  · rw [callsTo, resolve, hidOf, Except.map]

/-- An id that is not registered is told as unknown by every question, as far as it can be told. -/
theorem unknownId_of_eq_none (hid : g.names[id]? = none) :
    UnknownId g id (.ofCause (.unknownFunction (.number id))) := by
  have hnameOf : g.nameOfId id = .error (.ofCause (.unknownFunction (.number id))) := by
    rw [nameOfId, hid]
  refine ⟨hnameOf, ?_, ?_⟩
  · rw [callsFrom, resolve, hnameOf, Except.map, Except.map]
  · rw [callsTo, resolve, hnameOf, Except.map, Except.map]

/-- An unknown id is told by its digits, unless it has too many. -/
theorem ofCause_unknownId (id : FunctionId) :
    Failure.ofCause (.unknownFunction (.number id)) =
      if Location.digitCount id ≤ Location.digitLimit then
        .diagnosed { cause := .unknownFunction (.number id) }
      else .unwritable := by
  simp [Failure.ofCause, Cause.isWritable, Cause.numbers, Mention.numbers]

end Questions

/-! ## Names with one id -/

section Collisions

variable {idOf : IdScheme} {g : Graph}

theorem Reachable.foldl_apply (hg : Reachable idOf g) (more : List Operation) :
    Reachable idOf (more.foldl (Operation.apply idOf) g) := by
  obtain ⟨history, rfl⟩ := hg
  exact ⟨history ++ more, List.foldl_append⟩

/-- Operations forget no function. -/
theorem knows_foldl_apply (hg : Reachable idOf g) (more : List Operation) :
    Knows (more.foldl (Operation.apply idOf) g) g := by
  induction more using List.reverseRecOn with
  | nil => exact .refl g
  | append_singleton more op ih =>
    rw [List.foldl_concat]
    have hregistry := (hg.foldl_apply more).registry
    exact (hregistry.knows (change_apply idOf _ op)).trans ih

/-- A name is known only as the owner of its id. -/
theorem Registry.eq_of_id_eq (h : Registry idOf g) {name owner : String} (hname : name ∈ g.ids)
    (howner : g.ids[owner]? = some (idOf name)) : name = owner := by
  obtain ⟨id, hid⟩ := Option.isSome_iff_exists.mp (Std.HashMap.mem_iff_isSome_getElem?.mp hname)
  have hthere := (h.ids_iff name id).mp hid
  rw [h.id_eq name id hthere] at hthere
  exact Option.some.inj (hthere.symm.trans ((h.ids_iff owner _).mp howner))

/-- **The id of another function is refused**, once the place can be read and the id is found. -/
theorem addFunction_of_owner {owner name : String} (hne : owner ≠ name)
    (howner : g.names[idOf name]? = some owner) (text : Option String) (strictness : Strictness) :
    (g.addFunction idOf name text strictness).result =
      match (readSite strictness text).result, idOf.fault? name with
      | .error failure, _ => .error failure
      | .ok _, some fault => .error (.unencodable fault)
      | .ok _, none => .error (.ofCause (.idCollision (idOf name) owner name)) := by
  cases hsite : (readSite strictness text).result with
  | error failure => simp only [addFunction_eq_followedBy, Reading.followedBy, hsite]
  | ok site =>
    have hread := (readSite_eq_ok_iff.mp hsite).1
    cases hfault : idOf.fault? name with
    | some fault => exact addFunction_eq_error_iff.mpr (.name hread hfault)
    | none =>
      have howner := nameOfId_eq_ok_iff.mpr howner
      exact addFunction_eq_error_iff.mpr (.collision hread hfault howner hne)

/-- A function is known from its registration on, and no other name with its id ever is. -/
theorem owner_of_contains (hg : Reachable idOf g) {owner name : String}
    (howner : g.contains owner = true) (hid : idOf name = idOf owner) (hne : owner ≠ name)
    (more : List Operation) :
    (more.foldl (Operation.apply idOf) g).ids[owner]? = some (idOf name) ∧
      name ∉ (more.foldl (Operation.apply idOf) g).ids := by
  obtain ⟨id, hfound⟩ := contains_eq_true_iff.mp howner
  have hlater := knows_foldl_apply hg more owner id hfound
  have hregistry := (hg.foldl_apply more).registry
  obtain rfl : id = idOf name := by
    rw [hid]
    exact hregistry.id_eq owner id ((hregistry.ids_iff owner id).mp hlater)
  exact ⟨hlater, fun hname => hne (hregistry.eq_of_id_eq hname hlater).symm⟩

end Collisions

/-- **Names and ids are in bijection, and functions are never merged.**  In a reachable graph the
maps between names and ids are inverse to each other, an id is that of its name, and all indices
have the same ids.  Every question about a registered function is answered, alike by name and by
id, and every question about another one tells that it is unknown; of a number with too many digits
to be shown it tells these instead.  Of the names with one id only the first that was registered is
ever known; another is refused with the owner of the id, unless it is refused already for its place
or has no id. -/
theorem names_ids_bijective {idOf : IdScheme} {g : Graph} (hg : Reachable idOf g) :
    (∀ (name : String) (id : FunctionId),
        g.ids[name]? = some id ↔ g.names[id]? = some name) ∧
      (∀ (name : String) (id : FunctionId), g.ids[name]? = some id → id = idOf name) ∧
      (∀ id : FunctionId, (id ∈ g.locations ↔ id ∈ g.names) ∧ (id ∈ g.outgoing ↔ id ∈ g.names) ∧
        (id ∈ g.incoming ↔ id ∈ g.names)) ∧
      (∀ (place : Location) (id : FunctionId), id ∈ g.sites.getD place [] → id ∈ g.names) ∧
      (∀ (name : String) (id : FunctionId), g.ids[name]? = some id → AnsweredAs g name id) ∧
      (∀ name : String, g.ids[name]? = none → UnknownName g name) ∧
      (∀ id : FunctionId, g.names[id]? = none → UnknownId g id
        (if Location.digitCount id ≤ Location.digitLimit then
          .diagnosed { cause := .unknownFunction (.number id) }
        else .unwritable)) ∧
      ∀ owner name : String, g.contains owner = true → idOf name = idOf owner → owner ≠ name →
        ∀ more : List Operation,
          (more.foldl (Operation.apply idOf) g).contains owner = true ∧
          (more.foldl (Operation.apply idOf) g).contains name = false ∧
          ∀ text strictness,
            ((more.foldl (Operation.apply idOf) g).addFunction idOf name text strictness).result =
              match (readSite strictness text).result, idOf.fault? name with
              | .error failure, _ => .error failure
              | .ok _, some fault => .error (.unencodable fault)
              | .ok _, none => .error (.ofCause (.idCollision (idOf name) owner name)) := by
  have h := hg.registry
  refine ⟨h.ids_iff, fun name id hid => h.id_eq name id ((h.ids_iff name id).mp hid),
    fun id => ⟨h.mem_locations id, h.mem_outgoing id, h.mem_incoming id⟩, fun place id hid => ?_,
    fun name id hid => h.answeredAs ((h.ids_iff name id).mp hid),
    fun name => unknownName_of_eq_none, fun id hid => ?_, fun owner name howner hid hne more => ?_⟩
  · -- what stands at a place has a place
    have hlocation := (hg.sitesExact.mem_iff place id).mp hid
    rw [← h.mem_locations, Std.HashMap.mem_iff_isSome_getElem?, hlocation]
    rfl
  · rw [← ofCause_unknownId]
    exact unknownId_of_eq_none hid
  · obtain ⟨hthere, hout⟩ := owner_of_contains hg howner hid hne more
    have hnames := ((hg.foldl_apply more).registry.ids_iff owner _).mp hthere
    exact ⟨contains_eq_true_iff.mpr ⟨_, hthere⟩,
      Std.HashMap.contains_eq_false_iff_not_mem.mpr hout, addFunction_of_owner hne hnames⟩

/-- One id for all names. -/
def sharedId : IdScheme := { ofName := fun _ => 7 }

/-- Two names with one id, of which the second is refused. -/
def collidingHistory : List Operation :=
  [.addFunction "a" (some "f.c:1:2") .strict, .addFunction "b" none .strict]

theorem names_ids_bijective_colliding :
    Reachable sharedId (after sharedId collidingHistory) ∧
      (after sharedId collidingHistory).contains "b" = false ∧
      ((after sharedId collidingHistory).addFunction sharedId "b" (some "g.c:3:4")
        .strict).result = .error (.ofCause (.idCollision 7 "a" "b")) := by
  have hreach : Reachable sharedId (after sharedId collidingHistory) := ⟨collidingHistory, rfl⟩
  obtain ⟨-, -, -, -, -, -, -, hmerge⟩ := names_ids_bijective hreach
  obtain ⟨-, hout, hrefused⟩ := hmerge "a" "b" (by cbv) rfl (by decide) []
  refine ⟨hreach, hout, (hrefused (some "g.c:3:4") .strict).trans ?_⟩
  have hread : (readSite .strict (some "g.c:3:4")).result = .ok (some ⟨"g.c", 3, 4⟩) := by cbv
  rw [hread]
  rfl

/-- Not every attempt to register a second name with an id is told as a collision: a malformed place
is told first.  Not every unknown id is told as unknown: one with too many digits is not. -/
theorem place_and_digits_told_first :
    (¬ ∀ (idOf : IdScheme) (g : Graph), Reachable idOf g → ∀ owner name : String,
      g.contains owner = true → idOf name = idOf owner → owner ≠ name → ∀ text strictness,
        (g.addFunction idOf name text strictness).result =
          .error (.ofCause (.idCollision (idOf name) owner name))) ∧
      ¬ ∀ (idOf : IdScheme) (g : Graph), Reachable idOf g → ∀ id : FunctionId,
        (g.nameOfId id = .error (.diagnosed { cause := .unknownFunction (.number id) }) ↔
          g.names[id]? = none) := by
  refine ⟨fun h => ?_, fun h => ?_⟩
  · have hcollision := h sharedId (after sharedId collidingHistory) ⟨collidingHistory, rfl⟩
      "a" "b" (by cbv) rfl (by decide) (some "f.c:x:1") .strict
    have hplace : ((after sharedId collidingHistory).addFunction sharedId "b"
        (some "f.c:x:1") .strict).result =
          .error (.ofCause (.location (.notANumber .line "x" "f.c:x:1"))) := by cbv
    rw [hplace] at hcollision
    simp [Failure.ofCause, Cause.isWritable, Cause.numbers] at hcollision
  · -- in the empty graph no number is the id of a function
    have hnone (id : FunctionId) : empty.names[id]? = none := by simp [empty]
    have hunknown := (h sharedId empty ⟨[], rfl⟩ (10 ^ Location.digitLimit : Nat)).mpr (hnone _)
    rw [(unknownId_of_eq_none (hnone _)).nameOfId, ofCause_unknownId,
      if_neg (Nat.not_le.mpr Location.digitLimit_lt_digitCount)] at hunknown
    cases hunknown

end CallAtlas.Graph
