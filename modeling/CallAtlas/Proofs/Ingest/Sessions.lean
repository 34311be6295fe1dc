import CallAtlas.Proofs.Graph.Counts
import CallAtlas.Proofs.Ingest.Stopping

/-!
# Sessions

Over a session operations on the graph and dumps follow each other in any order, and any of them may
fail half-way.  A dump acts on the graph by operations alone, as far as it gets; so the graph of a
session is always one that operations lead to, and what holds of all those holds of it.

## Main definitions

* `Deed`: an operation, or the folding of a dump, a file or files
* `Deed.after idOf s deed`: the session that a deed leaves
* `sessionAfter idOf deeds`: the session after some deeds, with whatever failed among them
* `KeepsReachable idOf x s`: on the session `s`, the action `x` leaves a reachable graph

## Main results

* `reachable_enterSteps`: steps that fail leave such a graph
* `keepsReachable_foldBlock`, `keepsReachable_foldFiles`: so does folding
* `reachable_sessionAfter`: the graph of a session is one that operations lead to
* `sessionAfter_countsAgree`: its numbers agree with the answers to questions
-/

namespace CallAtlas.Ingest

open CallAtlas.Dump (Block)
open CallAtlas.Graph (CountsAgree Operation Reachable)

/-! ## Actions that keep the graph reachable -/

/-- On the session `s` the action `x` leaves a graph that operations lead to, if it finds one,
whether it succeeds or fails. -/
def KeepsReachable {α : Type} (idOf : IdScheme) (x : Action α) (s : Session) : Prop :=
  Reachable idOf s.graph → Reachable idOf (x.outcome s).2.graph

/-- **Steps lead to a reachable graph**, as far as they succeed. -/
theorem reachable_enterSteps {idOf : IdScheme} {g : Graph} (hg : Reachable idOf g)
    (steps : List Step) : Reachable idOf (enterSteps idOf steps g).2 := by
  rcases h : enterSteps idOf steps g with ⟨failure | ⟨⟩, g'⟩
  · obtain ⟨done, -, -, -, -, hdone, -, -⟩ := enterSteps_eq_error_iff.mp h
    exact reachable_of_enterSteps hg hdone
  · exact reachable_of_enterSteps hg h

namespace KeepsReachable

variable {α β : Type} {idOf : IdScheme} {x : Action α} {s : Session}

theorem of_graph_eq (h : (x.outcome s).2.graph = s.graph) : KeepsReachable idOf x s :=
  fun hs => h ▸ hs

theorem of_enters {steps : List Step} (h : Reachable idOf s.graph → Enters idOf x steps s) :
    KeepsReachable idOf x s := by
  intro hs
  have hgraph : (x.outcome s).2.graph = (enterSteps idOf steps s.graph).2 :=
    congrArg Prod.snd (h hs).outcome_eq
  rw [hgraph]
  exact reachable_enterSteps hs steps

theorem bind {f : α → Action β} (hx : KeepsReachable idOf x s)
    (hf : ∀ a s', x.outcome s = (.ok a, s') → KeepsReachable idOf (f a) s') :
    KeepsReachable idOf (x >>= f) s := by
  intro hs
  have hmid := hx hs
  rw [Action.outcome_bind]
  rcases hout : x.outcome s with ⟨failure | a, s'⟩
  · rw [hout] at hmid
    exact hmid
  · rw [hout] at hmid
    exact hf a s' hout hmid

theorem mapM {f : α → Action β} (hf : ∀ a s, KeepsReachable idOf (f a) s) (as : List α) :
    KeepsReachable idOf (as.mapM f) s := by
  induction as generalizing s with
  | nil =>
    rw [List.mapM_nil]
    exact .of_graph_eq rfl
  | cons a as ih =>
    rw [List.mapM_cons]
    exact (hf a s).bind fun b s' _ => ih.bind fun bs s'' _ => .of_graph_eq rfl

end KeepsReachable

/-! ## Folding -/

section Folding

variable (setting : Setting) (options : Options)

theorem keepsReachable_foldBlock (source : String) (block : Block) (s : Session) :
    KeepsReachable setting.idOf (foldBlock setting options source block) s := by
  obtain ⟨hresult, hgraph, -⟩ := answers_collect options source block s
    (readsAs_resolve setting.demangle s.memo)
  refine KeepsReachable.bind (.of_graph_eq hgraph) fun records s' hcollect => ?_
  rw [hcollect] at hresult
  obtain rfl := source_of_recordsOf hresult.symm
  exact .of_enters fun hs' => enters_enterRecords setting options records hs'

theorem keepsReachable_parseText (idOf : IdScheme) (text : String)
    (source : Option String) (s : Session) : KeepsReachable idOf (parseText text source) s :=
  -- parsing looks up no name, so any demangler serves
  .of_graph_eq (answers_parseText text source s (readsAs_resolve (fun _ => none) s.memo)).2.1

theorem keepsReachable_foldText (text : String) (source : Option String) (s : Session) :
    KeepsReachable setting.idOf (foldText setting options text source) s :=
  (keepsReachable_parseText setting.idOf text source s).bind fun block s' _ =>
    keepsReachable_foldBlock setting options _ block s'

theorem keepsReachable_foldFile (path : String) (s : Session) :
    KeepsReachable setting.idOf (foldFile setting options path) s := by
  obtain ⟨-, hgraph, -⟩ := answers_readDump setting.files options.encoding path s
    (readsAs_resolve setting.demangle s.memo)
  exact KeepsReachable.bind (.of_graph_eq hgraph) fun block s' _ =>
    keepsReachable_foldBlock setting options path block s'

theorem keepsReachable_foldFiles (paths : List String) (s : Session) :
    KeepsReachable setting.idOf (foldFiles setting options paths) s := by
  unfold foldFiles
  split
  · -- all files are collected before anything is entered
    obtain ⟨-, hgraph, -⟩ := Answers.mapM (answers_collectFile setting options _) paths s
      (readsAs_resolve setting.demangle s.memo)
    rw [foldTogether_eq]
    exact KeepsReachable.bind (.of_graph_eq hgraph) fun batches s' _ =>
      .of_enters fun hs' => enters_batches batches hs'
  · exact .mapM (keepsReachable_foldFile setting options) paths

end Folding

/-! ## Sessions -/

/-- Something that is done to a session. -/
inductive Deed where
  | operation (op : Operation)
  | foldBlock (setting : Setting) (options : Options) (source : String) (block : Block)
  | foldText (setting : Setting) (options : Options) (text : String) (source : Option String)
  | foldFile (setting : Setting) (options : Options) (path : String)
  | foldFiles (setting : Setting) (options : Options) (paths : List String)

/-- The session that an operation on the graph leaves. -/
def operate (idOf : IdScheme) (s : Session) : Operation → Session
  | .addFunction name text strictness =>
    ((Action.perform fun g => g.addFunction idOf name text strictness).outcome s).2
  | .addCall source target text strictness =>
    ((Action.perform fun g => g.addCall source target text strictness).outcome s).2
  | .recordDropped call => { s with graph := s.graph.recordDropped call }

/-- The session that a deed leaves, where names have the ids that `idOf` gives them.  A deed that
fails leaves what it did before. -/
def Deed.after (idOf : IdScheme) (s : Session) : Deed → Session
  | .operation op => operate idOf s op
  | .foldBlock setting options source block =>
    ((Ingest.foldBlock { setting with idOf } options source block).outcome s).2
  | .foldText setting options text source =>
    ((Ingest.foldText { setting with idOf } options text source).outcome s).2
  | .foldFile setting options path =>
    ((Ingest.foldFile { setting with idOf } options path).outcome s).2
  | .foldFiles setting options paths =>
    ((Ingest.foldFiles { setting with idOf } options paths).outcome s).2

/-- The session after some deeds on an empty one. -/
def sessionAfter (idOf : IdScheme) (deeds : List Deed) : Session :=
  deeds.foldl (Deed.after idOf) {}

section Sessions

variable (idOf : IdScheme)

/-- An operation on a session leaves the graph that it leaves by itself. -/
theorem graph_operate (op : Operation) (s : Session) :
    (operate idOf s op).graph = op.apply idOf s.graph := by
  cases op <;> rfl

/-- **A deed keeps the graph reachable.** -/
theorem reachable_after {s : Session} (hs : Reachable idOf s.graph) (deed : Deed) :
    Reachable idOf (deed.after idOf s).graph := by
  cases deed with
  | operation op =>
    rw [Deed.after, graph_operate]
    exact hs.apply op
  | foldBlock setting options source block =>
    exact keepsReachable_foldBlock { setting with idOf } options source block s hs
  | foldText setting options text source =>
    exact keepsReachable_foldText { setting with idOf } options text source s hs
  | foldFile setting options path =>
    exact keepsReachable_foldFile { setting with idOf } options path s hs
  | foldFiles setting options paths =>
    exact keepsReachable_foldFiles { setting with idOf } options paths s hs

/-- **The graph of a session is one that operations lead to**, whatever was done and whatever of it
failed. -/
theorem reachable_sessionAfter (deeds : List Deed) :
    Reachable idOf (sessionAfter idOf deeds).graph := by
  -- Induction on the deeds, from the last one.
  induction deeds using List.reverseRecOn with
  | nil => exact ⟨[], rfl⟩
  | append_singleton deeds deed ih =>
    rw [sessionAfter, List.foldl_concat]
    exact reachable_after idOf ih deed

/-- **The numbers of a session's graph agree with the answers to questions about it**, whatever was
done and whatever of it failed: functions with and without a place, by name and by place; calls, by
caller and by callee; calls that are intrinsic, and calls that were dropped. -/
theorem sessionAfter_countsAgree (deeds : List Deed) :
    CountsAgree (sessionAfter idOf deeds).graph :=
  (reachable_sessionAfter idOf deeds).countsAgree

end Sessions

end CallAtlas.Ingest
