import CallAtlas.Proofs.Graph.Growth

/-!
# Walks through a growing graph

Any number of cursors may be open on a graph while it changes, and each is advanced when its user
likes.  A walk is a cursor together with what it was opened for and all that it has found so far.
What a walk has delivered is always the beginning of the list it walks, as the list is now; its next
step follows from what it has found and from the list alone.

A walk over calls goes on with calls that were added behind it, until it has once come to the end.
A walk over functions is disturbed by a new name, and by nothing else.

## Main definitions

* `Request`, `Request.cursor`, `Request.items`: what a walk is opened for, the cursor it starts
  with, and the list it walks
* `Walk`, `Scene`, `Move`: a walk, a graph with the walks on it, and what may happen next
* `sceneAfter idOf moves`: the scene after some moves
* `Walk.Faithful idOf g walk items`: the walk has delivered the beginning of its list, and its next
  step is the one that is due

## Main results

* `Walk.InStep.grows`, `Walk.InStep.advance`: the cursor stays in step with what was found
* `inStep_sceneAfter`: so it is after all moves
* `walks_faithful`: walks are faithful, whatever happens between their steps
-/

namespace CallAtlas.Graph

/-! ## Walks and scenes -/

/-- What a walk is opened for. -/
inductive Request where
  | functions
  | calls
  | callsFrom (function : FunctionRef)
  | callsTo (function : FunctionRef)
  deriving DecidableEq, Repr

/-- The cursor that a walk starts with. -/
def Request.cursor (g : Graph) : Request → Except Failure Cursor
  | .functions => .ok (.overFunctions g)
  | .calls => .ok .overCalls
  | .callsFrom function => Cursor.overCallsFrom g function
  | .callsTo function => Cursor.overCallsTo g function

/-- The list that a walk goes through, as it is in a graph. -/
def Request.items (g : Graph) : Request → Except Failure (List Item)
  | .functions => .ok (g.functions.map .function)
  | .calls => .ok (g.calls.toList.map .call)
  | .callsFrom function => (g.callsFrom function).map (·.map .call)
  | .callsTo function => (g.callsTo function).map (·.map .call)

/-- A walk, with the graph that it was opened on and all that its steps have found. -/
structure Walk where
  request : Request
  opened : Graph
  cursor : Cursor
  found : List Found := []

/-- The item that a step finds, if it finds one. -/
def Found.item? : Found → Option Item
  | .item found => some found
  | .atEnd => none
  | .disturbed => none

/-- The items among what steps have found. -/
def delivered (found : List Found) : List Item :=
  found.filterMap Found.item?

/-- A walk after one more step. -/
def Walk.advance (g : Graph) (walk : Walk) : Walk :=
  { walk with
    cursor := (walk.cursor.next g).2
    found := walk.found ++ [(walk.cursor.next g).1] }

/-- A graph and the walks that were opened on it. -/
structure Scene where
  graph : Graph := empty
  walks : List Walk := []

/-- What may happen next: an operation on the graph, a new walk, or a step of one of the walks. -/
inductive Move where
  | operate (op : Operation)
  | start (request : Request)
  | advance (index : Nat)
  deriving DecidableEq, Repr

/-- The scene after a move.  A walk for an unknown function is not opened. -/
def Move.apply (idOf : IdScheme) (scene : Scene) : Move → Scene
  | .operate op => { scene with graph := op.apply idOf scene.graph }
  | .start request =>
    match request.cursor scene.graph with
    | .ok cursor =>
      { scene with walks := scene.walks ++ [{ request, opened := scene.graph, cursor }] }
    | .error _ => scene
  | .advance index =>
    { scene with walks := scene.walks.modify index (Walk.advance scene.graph) }

/-- The scene after some moves, from an empty graph without walks. -/
def sceneAfter (idOf : IdScheme) (moves : List Move) : Scene :=
  moves.foldl (Move.apply idOf) {}

theorem sceneAfter_concat (idOf : IdScheme) (moves : List Move) (move : Move) :
    sceneAfter idOf (moves ++ [move]) = move.apply idOf (sceneAfter idOf moves) := by
  simp [sceneAfter]

section Delivered

@[simp] theorem delivered_append (found found' : List Found) :
    delivered (found ++ found') = delivered found ++ delivered found' :=
  List.filterMap_append

@[simp] theorem delivered_item (item : Item) : delivered [.item item] = [item] := rfl

@[simp] theorem delivered_atEnd : delivered [.atEnd] = [] := rfl

@[simp] theorem delivered_disturbed : delivered [.disturbed] = [] := rfl

end Delivered

/-! ## Requests and their lists -/

section Requests

variable {idOf : IdScheme} {g g' : Graph}

/-- The list of calls that a request asks for. -/
inductive Request.AsksFor (g : Graph) : Request → CallList → Prop
  | calls : AsksFor g .calls .all
  | callsFrom {function : FunctionRef} {id : FunctionId} :
      g.resolve function = .ok id → AsksFor g (.callsFrom function) (.outOf id)
  | callsTo {function : FunctionRef} {id : FunctionId} :
      g.resolve function = .ok id → AsksFor g (.callsTo function) (.into id)

/-- The list that a walk goes through, told from the lists of the graph. -/
inductive Request.Lists (g : Graph) : Request → List Item → Prop
  | functions : Lists g .functions (g.functions.map .function)
  | calls {request : Request} {list : CallList} :
      request.AsksFor g list → Lists g request ((list.contents g).toList.map .call)

theorem Request.Lists.items_eq {request : Request} {items : List Item}
    (h : request.Lists g items) : request.items g = .ok items := by
  cases h with
  | functions => rfl
  | calls hlist =>
    cases hlist with
    | calls => rfl
    | callsFrom hid =>
      simp only [Request.items, Graph.callsFrom, hid]
      rfl
    | callsTo hid =>
      simp only [Request.items, Graph.callsTo, hid]
      rfl

theorem Request.AsksFor.grows {request : Request} {list : CallList} (h : request.AsksFor g list)
    (hgrows : Grows g g') (hg : Reachable idOf g) (hg' : Reachable idOf g') :
    request.AsksFor g' list := by
  cases h with
  | calls => exact .calls
  | callsFrom hid => exact .callsFrom (hgrows.resolve hg hg' hid)
  | callsTo hid => exact .callsTo (hgrows.resolve hg hg' hid)

/-- A walk goes on through the same list, which may have become longer. -/
theorem Request.Lists.grows {request : Request} {items : List Item} (h : request.Lists g items)
    (hgrows : Grows g g') (hg : Reachable idOf g) (hg' : Reachable idOf g') :
    ∃ items', request.Lists g' items' ∧ items <+: items' := by
  cases h with
  | functions => exact ⟨_, .functions, hgrows.functions.map _⟩
  | @calls _ list hlist =>
    exact ⟨_, .calls (hlist.grows hgrows hg hg'), (hgrows.contents hg hg' list).map _⟩

/-- A walk starts before the first function, or before the first call of the list it is for. -/
theorem Request.of_cursor {request : Request} {cursor : Cursor}
    (h : request.cursor g = .ok cursor) :
    (request = .functions ∧ cursor = .functions g.functionCount 0) ∨
      ∃ list, request.AsksFor g list ∧ cursor = .calls list 0 := by
  cases request with
  | functions => exact .inl ⟨rfl, (Except.ok.inj h).symm⟩
  | calls => exact .inr ⟨.all, .calls, (Except.ok.inj h).symm⟩
  | callsFrom function =>
    simp only [Request.cursor, Cursor.overCallsFrom] at h
    cases hid : g.resolve function with
    | error cause => simp [hid, Except.map] at h
    | ok id =>
      rw [hid] at h
      exact .inr ⟨.outOf id, .callsFrom hid, (Except.ok.inj h).symm⟩
  | callsTo function =>
    simp only [Request.cursor, Cursor.overCallsTo] at h
    cases hid : g.resolve function with
    | error cause => simp [hid, Except.map] at h
    | ok id =>
      rw [hid] at h
      exact .inr ⟨.into id, .callsTo hid, (Except.ok.inj h).symm⟩

end Requests

/-! ## Cursors in step -/

theorem prefix_concat_of_getElem? {α : Type} {l m : List α} {a : α} (h : l <+: m)
    (ha : m[l.length]? = some a) : l ++ [a] <+: m := by
  obtain ⟨rest, rfl⟩ := h
  rw [List.getElem?_append_right (Nat.le_refl _), Nat.sub_self] at ha
  cases rest with
  | nil => simp at ha
  | cons b rest =>
    obtain rfl : b = a := by simpa using ha
    exact ⟨rest, by simp⟩

namespace Walk

/-- **The cursor of a walk is in step** with what the walk has found, in the graph `g`: it stands
behind the items that were delivered, and is finished once the end was found. -/
inductive InStep (g : Graph) : Walk → Prop
  | calls {request : Request} {opened : Graph} {list : CallList} {found : List Found} :
      request.AsksFor g list → .atEnd ∉ found → .disturbed ∉ found →
      delivered found <+: (list.contents g).toList.map .call →
      InStep g ⟨request, opened, .calls list (delivered found).length, found⟩
  | functions {opened : Graph} {found : List Found} :
      .atEnd ∉ found → (.disturbed ∈ found → g.functionCount ≠ opened.functionCount) →
      delivered found <+: g.functions.map .function →
      InStep g ⟨.functions, opened, .functions opened.functionCount (delivered found).length, found⟩
  | finished {request : Request} {opened : Graph} {found : List Found} {items : List Item} :
      .atEnd ∈ found → .disturbed ∉ found → request.Lists g items → delivered found <+: items →
      InStep g ⟨request, opened, .finished, found⟩

section InStep

variable {idOf : IdScheme} {g g' : Graph} {walk : Walk}

/-- What a walk has delivered is the beginning of its list. -/
theorem InStep.delivered_prefix (h : walk.InStep g) :
    ∃ items, walk.request.Lists g items ∧ delivered walk.found <+: items := by
  cases h with
  | calls hlist _ _ hdelivered => exact ⟨_, .calls hlist, hdelivered⟩
  | functions _ _ hdelivered => exact ⟨_, .functions, hdelivered⟩
  | finished _ _ hlists hdelivered => exact ⟨_, hlists, hdelivered⟩

theorem inStep_of_cursor {request : Request} {cursor : Cursor}
    (h : request.cursor g = .ok cursor) : InStep g { request, opened := g, cursor } := by
  rcases Request.of_cursor h with ⟨rfl, rfl⟩ | ⟨list, hlist, rfl⟩
  · exact @InStep.functions g g [] (by simp) (by simp) List.nil_prefix
  · exact @InStep.calls g request g list [] hlist (by simp) (by simp) List.nil_prefix

/-- **The graph may grow** while a cursor rests. -/
theorem InStep.grows (h : walk.InStep g) (hopened : Grows walk.opened g) (hgrows : Grows g g')
    (hg : Reachable idOf g) (hg' : Reachable idOf g') : walk.InStep g' := by
  cases h with
  | calls hlist hend hdisturbed hdelivered =>
    exact .calls (hlist.grows hgrows hg hg') hend hdisturbed
      (hdelivered.trans ((hgrows.contents hg hg' _).map _))
  | @functions opened found hend hdisturbed hdelivered =>
    refine .functions hend (fun hfound => ?_) (hdelivered.trans (hgrows.functions.map _))
    -- functions that are too many do not become fewer
    have hne := hdisturbed hfound
    have hle : opened.functionCount ≤ g.functionCount := hopened.functionCount_le
    have hle' := hgrows.functionCount_le
    omega
  | finished hend hdisturbed hlists hdelivered =>
    obtain ⟨items', hlists', hitems⟩ := hlists.grows hgrows hg hg'
    exact .finished hend hdisturbed hlists' (hdelivered.trans hitems)

/-- **A step leaves the cursor in step.** -/
theorem InStep.advance (h : walk.InStep g) : (walk.advance g).InStep g := by
  cases h with
  | @calls request opened list found hlist hend hdisturbed hdelivered =>
    simp only [Walk.advance, Cursor.next]
    cases hnext : (list.contents g)[(delivered found).length]? with
    | none => exact .finished (by simp) (by simpa using hdisturbed) (.calls hlist) (by simpa)
    | some call =>
      have hlonger : delivered (found ++ [.item (.call call)]) <+:
          (list.contents g).toList.map .call := by
        rw [delivered_append, delivered_item]
        exact prefix_concat_of_getElem? hdelivered (by simp [hnext])
      have hcalls := @InStep.calls g request opened list _ hlist (by simpa using hend)
        (by simpa using hdisturbed) hlonger
      simpa using hcalls
  | @functions opened found hend hdisturbed hdelivered =>
    simp only [Walk.advance, Cursor.next]
    by_cases hcount : g.functionCount ≠ opened.functionCount
    · rw [if_pos hcount]
      have hfunctions := @InStep.functions g opened (found ++ [.disturbed])
        (by simpa using hend) (fun _ => hcount) (by simpa using hdelivered)
      simpa using hfunctions
    · rw [if_neg hcount]
      have hnever : .disturbed ∉ found := fun hfound => hcount (hdisturbed hfound)
      cases hnext : g.order[(delivered found).length]? with
      | none => exact .finished (by simp) (by simpa using hnever) .functions (by simpa)
      | some name =>
        have hlonger : delivered (found ++ [.item (.function name)]) <+:
            g.functions.map .function := by
          rw [delivered_append, delivered_item]
          exact prefix_concat_of_getElem? hdelivered (by simp [Graph.functions, hnext])
        have hfunctions := @InStep.functions g opened _ (by simpa using hend)
          (fun hfound => absurd hfound (by simpa using hnever)) hlonger
        simpa using hfunctions
  | @finished request opened found items hend hdisturbed hlists hdelivered =>
    simp only [Walk.advance, Cursor.next]
    exact .finished (by simp) (by simpa using hdisturbed) hlists (by simpa using hdelivered)

end InStep

end Walk

/-! ## Scenes -/

section Scenes

variable {idOf : IdScheme}

/-- Every walk was opened on a graph that has grown since, and is in step with it. -/
structure Scene.InStep (idOf : IdScheme) (scene : Scene) : Prop where
  graph : Reachable idOf scene.graph
  opened : ∀ walk ∈ scene.walks, Reachable idOf walk.opened ∧ Grows walk.opened scene.graph
  walks : ∀ walk ∈ scene.walks, walk.InStep scene.graph

theorem mem_modify {α : Type} {f : α → α} {as : List α} {index : Nat} {b : α}
    (h : b ∈ as.modify index f) : b ∈ as ∨ ∃ a ∈ as, b = f a := by
  obtain ⟨k, hk⟩ := List.mem_iff_getElem?.mp h
  rw [List.getElem?_modify] at hk
  split at hk
  · obtain ⟨a, ha, rfl⟩ := Option.map_eq_some_iff.mp hk
    exact .inr ⟨a, List.mem_of_getElem? ha, rfl⟩
  · exact .inl (List.mem_of_getElem? (by simpa using hk))

/-- **A move leaves all walks in step.** -/
theorem Scene.InStep.apply {scene : Scene} (h : scene.InStep idOf) (move : Move) :
    (move.apply idOf scene).InStep idOf := by
  cases move with
  | operate op =>
    have hgrows := h.graph.grows_apply op
    refine ⟨h.graph.apply op, fun walk hwalk => ?_, fun walk hwalk => ?_⟩
    · obtain ⟨hreach, hopened⟩ := h.opened walk hwalk
      exact ⟨hreach, hopened.trans hgrows⟩
    · exact (h.walks walk hwalk).grows (h.opened walk hwalk).2 hgrows h.graph (h.graph.apply op)
  | start request =>
    simp only [Move.apply]
    split
    · next cursor hcursor =>
      refine ⟨h.graph, List.forall_mem_append.mpr ⟨h.opened, ?_⟩,
        List.forall_mem_append.mpr ⟨h.walks, ?_⟩⟩
      · exact List.forall_mem_singleton.mpr ⟨h.graph, .refl _⟩
      · exact List.forall_mem_singleton.mpr (Walk.inStep_of_cursor hcursor)
    · exact h
  | advance index =>
    refine ⟨h.graph, fun walk hwalk => ?_, fun walk hwalk => ?_⟩
    · rcases mem_modify hwalk with hwalk | ⟨before, hbefore, rfl⟩
      · exact h.opened walk hwalk
      · exact h.opened before hbefore
    · rcases mem_modify hwalk with hwalk | ⟨before, hbefore, rfl⟩
      · exact h.walks walk hwalk
      · exact (h.walks before hbefore).advance

/-- **All walks are in step after any moves.** -/
theorem inStep_sceneAfter (idOf : IdScheme) (moves : List Move) :
    (sceneAfter idOf moves).InStep idOf := by
  induction moves using List.reverseRecOn with
  | nil => exact ⟨⟨[], rfl⟩, by simp [sceneAfter], by simp [sceneAfter]⟩
  | append_singleton moves move ih =>
    rw [sceneAfter_concat]
    exact ih.apply move

end Scenes

/-! ## Faithful walks -/

/-- **A walk is faithful** to the list `items` in the graph `g`. -/
structure Walk.Faithful (idOf : IdScheme) (g : Graph) (walk : Walk)
    (items : List Item) : Prop where
  /-- The list is the one that the walk was opened for, as it is now. -/
  items_eq : walk.request.items g = .ok items
  /-- What has been delivered is the beginning of it, without skips and repetitions. -/
  delivered_prefix : delivered walk.found <+: items
  /-- From the end on nothing else is found. -/
  next_of_ended : .atEnd ∈ walk.found → (walk.cursor.next g).1 = .atEnd
  /-- A walk over functions is disturbed by a new name, unless the end was found before. -/
  next_eq_disturbed_iff : (walk.cursor.next g).1 = .disturbed ↔
    walk.request = .functions ∧ .atEnd ∉ walk.found ∧
      ∃ name, g.contains name = true ∧ walk.opened.contains name = false
  /-- A walk that was disturbed remains so. -/
  next_of_disturbed : .disturbed ∈ walk.found → (walk.cursor.next g).1 = .disturbed
  /-- Otherwise the next item is found, and the end where there is none. -/
  next_eq : .atEnd ∉ walk.found → (walk.cursor.next g).1 ≠ .disturbed →
    (walk.cursor.next g).1 = (items[(delivered walk.found).length]?).elim .atEnd .item
  /-- At the end all items have been delivered. -/
  delivered_eq : .atEnd ∉ walk.found → (walk.cursor.next g).1 = .atEnd →
    delivered walk.found = items
  /-- A name registered again, a failed registration and a call disturb no walk over functions. -/
  next_apply : ∀ op : Operation,
    (∀ name text strictness, op = .addFunction name text strictness →
      g.contains name = true ∨ op.result? idOf g = none) →
    walk.request = .functions → walk.cursor.next (op.apply idOf g) = walk.cursor.next g

section Faithful

variable {idOf : IdScheme} {g : Graph}

theorem next_calls_fst (g : Graph) (list : CallList) (position : Nat) :
    ((Cursor.calls list position).next g).1 =
      (((list.contents g).toList.map Item.call)[position]?).elim .atEnd .item := by
  simp only [Cursor.next, List.getElem?_map, Array.getElem?_toList]
  cases (list.contents g)[position]? <;> rfl

theorem next_functions_fst {expected : Nat} (h : g.functionCount = expected) (position : Nat) :
    ((Cursor.functions expected position).next g).1 =
      ((g.functions.map Item.function)[position]?).elim .atEnd .item := by
  simp only [Cursor.next, if_neg (not_not_intro h), functions, List.getElem?_map,
    Array.getElem?_toList]
  cases g.order[position]? <;> rfl

theorem next_functions_of_ne {expected : Nat} (h : g.functionCount ≠ expected) (position : Nat) :
    (Cursor.functions expected position).next g =
      (.disturbed, .functions expected position) :=
  if_pos h

/-- A walk over functions looks at nothing but their order. -/
theorem next_functions_congr {g' : Graph} (h : g'.order = g.order) (expected position : Nat) :
    (Cursor.functions expected position).next g' = (Cursor.functions expected position).next g := by
  have hcount : g'.functionCount = g.functionCount := congrArg Array.size h
  simp only [Cursor.next, hcount, h]

theorem elim_item_ne_disturbed (item? : Option Item) :
    item?.elim Found.atEnd .item ≠ .disturbed := by
  cases item? <;> simp

/-- Where there is no next item, all have been delivered. -/
theorem eq_of_prefix_of_elim {l items : List Item} (h : l <+: items)
    (hend : (items[l.length]?).elim Found.atEnd .item = .atEnd) : l = items := by
  refine h.eq_of_length_le ?_
  cases hitem : items[l.length]? with
  | none => exact List.getElem?_eq_none_iff.mp hitem
  | some item => simp [hitem] at hend

/-- A walk over calls that goes on is faithful. -/
theorem Walk.faithful_calls {request : Request} {opened : Graph} {list : CallList}
    {found : List Found} (hlist : request.AsksFor g list) (hend : .atEnd ∉ found)
    (hdisturbed : .disturbed ∉ found)
    (hdelivered : delivered found <+: (list.contents g).toList.map .call) :
    Walk.Faithful idOf g ⟨request, opened, .calls list (delivered found).length, found⟩
      ((list.contents g).toList.map .call) where
  items_eq := (Request.Lists.calls hlist).items_eq
  delivered_prefix := hdelivered
  next_of_ended hfound := absurd hfound hend
  next_eq_disturbed_iff := by
    refine ⟨fun hnext => ?_, ?_⟩
    · rw [next_calls_fst] at hnext
      exact absurd hnext (elim_item_ne_disturbed _)
    · rintro ⟨rfl, -, -⟩
      cases hlist
  next_of_disturbed hfound := absurd hfound hdisturbed
  next_eq _ _ := next_calls_fst g list _
  delivered_eq _ hnext := eq_of_prefix_of_elim hdelivered (next_calls_fst g list _ ▸ hnext)
  next_apply op _ hrequest := by
    subst hrequest
    cases hlist

/-- A walk over functions that goes on, or is disturbed, is faithful. -/
theorem Walk.faithful_functions {opened : Graph} {found : List Found} (hg : Reachable idOf g)
    (hopened : Reachable idOf opened) (hgrows : Grows opened g) (hend : .atEnd ∉ found)
    (hdisturbed : .disturbed ∈ found → g.functionCount ≠ opened.functionCount)
    (hdelivered : delivered found <+: g.functions.map .function) :
    Walk.Faithful idOf g
      ⟨.functions, opened, .functions opened.functionCount (delivered found).length, found⟩
      (g.functions.map .function) := by
  -- the cursor is disturbed exactly when there is another number of functions
  have hnext : ((Cursor.functions opened.functionCount (delivered found).length).next g).1 =
      .disturbed ↔ g.functionCount ≠ opened.functionCount := by
    refine ⟨fun hnext hcount => ?_, fun hcount => ?_⟩
    · rw [next_functions_fst hcount] at hnext
      exact elim_item_ne_disturbed _ hnext
    · rw [next_functions_of_ne hcount]
  have hsame (hne : ((Cursor.functions opened.functionCount (delivered found).length).next g).1 ≠
      .disturbed) : g.functionCount = opened.functionCount :=
    Classical.not_not.mp (mt hnext.mpr hne)
  exact {
    items_eq := rfl
    delivered_prefix := hdelivered
    next_of_ended := fun hfound => absurd hfound hend
    next_eq_disturbed_iff := by
      rw [hnext, hgrows.functionCount_ne_iff hopened hg]
      exact ⟨fun hnew => ⟨rfl, hend, hnew⟩, fun hnew => hnew.2.2⟩
    next_of_disturbed := fun hfound => hnext.mpr (hdisturbed hfound)
    next_eq := fun _ hne => next_functions_fst (hsame hne) _
    delivered_eq := fun _ hatEnd => by
      refine eq_of_prefix_of_elim hdelivered ?_
      rw [← next_functions_fst (hsame (by simp [hatEnd]))]
      exact hatEnd
    next_apply := fun op hop _ =>
      next_functions_congr (order_apply_of_known hg.registry hop) _ _ }

/-- A walk that has come to the end is faithful. -/
theorem Walk.faithful_finished {request : Request} {opened : Graph} {found : List Found}
    {items : List Item} (hend : .atEnd ∈ found) (hdisturbed : .disturbed ∉ found)
    (hlists : request.Lists g items) (hdelivered : delivered found <+: items) :
    Walk.Faithful idOf g ⟨request, opened, .finished, found⟩ items where
  items_eq := hlists.items_eq
  delivered_prefix := hdelivered
  next_of_ended _ := rfl
  next_eq_disturbed_iff := by
    constructor
    · intro hnext
      cases hnext
    · rintro ⟨-, hnever, -⟩
      exact absurd hend hnever
  next_of_disturbed hfound := absurd hfound hdisturbed
  next_eq hnever := absurd hend hnever
  delivered_eq hnever := absurd hend hnever
  next_apply _ _ _ := rfl

/-- **Walks are faithful under interleaved changes.**  Let the graph be changed, walks be opened and
walks be advanced in any order.  Then each walk has delivered the beginning of the list it was
opened for, as the list is now, and its next step finds the next item of that list, with those that
were added since; it finds the end where all items have been delivered, and from then on finds
nothing else.  A walk over functions is disturbed, now and from then on, exactly if a new name was
registered since it was opened and it has not come to the end before; other operations do not
disturb it. -/
theorem walks_faithful (idOf : IdScheme) (moves : List Move) :
    ∀ walk ∈ (sceneAfter idOf moves).walks,
      ∃ items, walk.Faithful idOf (sceneAfter idOf moves).graph items := by
  intro walk hwalk
  have hscene := inStep_sceneAfter idOf moves
  obtain ⟨hopened, hgrows⟩ := hscene.opened walk hwalk
  cases hscene.walks walk hwalk with
  | calls hlist hend hdisturbed hdelivered =>
    exact ⟨_, Walk.faithful_calls hlist hend hdisturbed hdelivered⟩
  | functions hend hdisturbed hdelivered =>
    exact ⟨_, Walk.faithful_functions hscene.graph hopened hgrows hend hdisturbed hdelivered⟩
  | finished hend hdisturbed hlists hdelivered =>
    exact ⟨_, Walk.faithful_finished hend hdisturbed hlists hdelivered⟩

end Faithful

/-- Two walks, one over functions and one over the calls of a function, with a new name and more
calls between their steps. -/
def interleavedMoves : List Move :=
  [.operate (.addFunction "f" (some "f.c:1:2") .strict), .operate (.addFunction "gg" none .strict),
    .start .functions, .start (.callsFrom (.name "f")), .advance 0,
    .operate (.addCall "f" "f" none .strict), .operate (.addFunction "f" none .strict), .advance 1,
    .advance 0, .operate (.addCall "f" "gg" none .strict),
    .operate (.addFunction "hhh" none .strict), .advance 0, .advance 1, .advance 1,
    .operate (.addCall "f" "f" none .strict)]

theorem walks_faithful_interleaved :
    ∃ functions calls,
      (sceneAfter lengthIds interleavedMoves).walks = [functions, calls] ∧
        functions.found = [.item (.function "f"), .item (.function "gg"), .disturbed] ∧
        calls.found = [.item (.call ⟨0, 1, 1, "f", "f", "intrinsic", none⟩),
          .item (.call ⟨1, 1, 2, "f", "gg", "intrinsic", none⟩), .atEnd] ∧
        (functions.cursor.next (sceneAfter lengthIds interleavedMoves).graph).1 =
          .disturbed ∧
        (calls.cursor.next (sceneAfter lengthIds interleavedMoves).graph).1 =
          .atEnd := by
  have hfound : (sceneAfter lengthIds interleavedMoves).walks.map Walk.found =
      [[.item (.function "f"), .item (.function "gg"), .disturbed],
        [.item (.call ⟨0, 1, 1, "f", "f", "intrinsic", none⟩),
          .item (.call ⟨1, 1, 2, "f", "gg", "intrinsic", none⟩), .atEnd]] := by
    cbv
  obtain ⟨functions, rest, hwalks, hfunctions, hrest⟩ := List.map_eq_cons_iff.mp hfound
  obtain ⟨calls, rest, rfl, hcalls, hrest⟩ := List.map_eq_cons_iff.mp hrest
  obtain rfl := List.map_eq_nil_iff.mp hrest
  have hfaithful := walks_faithful lengthIds interleavedMoves
  rw [hwalks] at hfaithful
  obtain ⟨names, hnames⟩ := hfaithful functions (by simp)
  obtain ⟨items, hitems⟩ := hfaithful calls (by simp)
  exact ⟨functions, calls, hwalks, hfunctions, hcalls,
    hnames.next_of_disturbed (by simp [hfunctions]), hitems.next_of_ended (by simp [hcalls])⟩

end CallAtlas.Graph
