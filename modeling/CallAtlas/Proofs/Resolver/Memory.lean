import CallAtlas.Proofs.Ingest.Outcome
import CallAtlas.Proofs.Resolver.Segments
import CallAtlas.Symbol.Demangle
import Mathlib.Data.Finset.Card
import Mathlib.Data.List.Induction

/-!
# Names that are remembered

A memory answers a name that it has been asked for before without looking at it again.  The answer
is the same, since it is kept as it was found; but a rejected symbol is told only when it is found
to be one.  A memory of bounded size may have to forget a name, and tells of its symbol again.  It
forgets none while it is asked for no more names than it keeps, each counted once; so far it cannot
be told from one that keeps all.

## Main definitions

* `answers ask memory names`, `memoryAfter ask memory names`: what a memory answers, one name after
  the other, and the memory that is left
* `Answered demangle before name`: the answer that is owed for a name behind others
* `Recent.Faithful`, `Recent.Keeps`: a memory of bounded size has readable forms, and has those of
  all names that it has been asked for

## Main results

* `getElem?_answers`, `answers_congr`: each answer is that of the memory which the names before it
  leave, and memories that agree in this have the same answers
* `resolve_memoryAfter`, `resolveWithin_memoryAfter`: the answers of the two memories
* `answers_resolveWithin`: within its bounds, a memory of bounded size answers as one that keeps all
* `names_read_by_last_segment`: how names are read, with and without a memory
-/

namespace CallAtlas.Resolver

open CallAtlas.Location (segments)

/-! ## Asking for names one after the other -/

section Asking

variable {μ : Type} (ask : μ → String → String × List Log.Event × μ)

/-- The answers of a memory that is asked for names one after the other: their readable forms, each
with the events of finding it. -/
def answers : μ → List String → List (String × List Log.Event)
  | _, [] => []
  | memory, name :: rest =>
    let (form, events, memory') := ask memory name
    (form, events) :: answers memory' rest

/-- The memory that some names leave. -/
def memoryAfter (memory : μ) (names : List String) : μ :=
  names.foldl (fun memory name => (ask memory name).2.2) memory

theorem memoryAfter_concat (memory : μ) (names : List String) (name : String) :
    memoryAfter ask memory (names ++ [name]) = (ask (memoryAfter ask memory names) name).2.2 := by
  rw [memoryAfter, List.foldl_concat]
  rfl

/-- **Each answer is that of the memory which the names before it leave.** -/
theorem getElem?_answers (memory : μ) (before : List String) (name : String) (after : List String) :
    (answers ask memory (before ++ name :: after))[before.length]? =
      some ((ask (memoryAfter ask memory before) name).1,
        (ask (memoryAfter ask memory before) name).2.1) := by
  induction before generalizing memory with
  | nil => rfl
  | cons first before ih => exact ih _

variable {ask} {ν : Type} {ask' : ν → String → String × List Log.Event × ν}

/-- Two memories that answer each name alike behind those before it have the same answers. -/
theorem answers_congr {memory : μ} {memory' : ν} {names : List String}
    (h : ∀ before name after, names = before ++ name :: after →
      ((ask (memoryAfter ask memory before) name).1,
          (ask (memoryAfter ask memory before) name).2.1) =
        ((ask' (memoryAfter ask' memory' before) name).1,
          (ask' (memoryAfter ask' memory' before) name).2.1)) :
    answers ask memory names = answers ask' memory' names := by
  induction names generalizing memory memory' with
  | nil => rfl
  | cons first names ih =>
    refine congrArg₂ List.cons (h [] first names rfl) (ih fun before name after hnames => ?_)
    exact h (first :: before) name after (congrArg (first :: ·) hnames)

end Asking

/-- The answer that is owed for a name behind others: its readable form, and its symbol if that is
rejected and the name has not been asked for. -/
def owed (demangle : Demangler) (before : List String) (name : String) :
    String × List Log.Event :=
  ((readable demangle name).1,
    if name ∈ before then [] else (readable demangle name).2.toList.map .leftMangled)

/-! ## A memory that keeps all -/

section Unbounded

variable (demangle : Demangler)

/-- A memory that keeps all names has those that it has been asked for, and no other. -/
theorem forms_memoryAfter (before : List String) (name : String) :
    (memoryAfter (resolve demangle) {} before).forms[name]? =
      if name ∈ before then some (readable demangle name).1 else none := by
  -- Induction on the names, from the last one.
  induction before using List.reverseRecOn generalizing name with
  | nil => exact Std.HashMap.getElem?_empty
  | append_singleton before last ih =>
    rw [memoryAfter_concat, resolve, ih last]
    by_cases hlast : last ∈ before
    · -- a name that is there already
      rw [if_pos hlast, ih name]
      have hmem : name ∈ before ++ [last] ↔ name ∈ before := by
        constructor
        · intro hname
          rcases List.mem_append.mp hname with hname | hname
          · exact hname
          · rwa [List.mem_singleton.mp hname]
        · exact List.mem_append_left [last]
      simp only [hmem]
    · rw [if_neg hlast]
      simp only [Std.HashMap.getElem?_insert, ih name, beq_iff_eq, List.mem_append,
        List.mem_singleton]
      by_cases heq : last = name
      · subst heq
        simp
      · simp [heq, Ne.symm heq]

/-- **The answers of a memory that keeps all.** -/
theorem resolve_memoryAfter (before : List String) (name : String) :
    let memory := memoryAfter (resolve demangle) {} before
    ((resolve demangle memory name).1, (resolve demangle memory name).2.1) =
      owed demangle before name := by
  intro memory
  rw [owed, resolve, forms_memoryAfter]
  by_cases hname : name ∈ before
  · simp [hname]
  · simp [hname]

end Unbounded

/-! ## A memory of bounded size -/

namespace Recent

variable {demangle : Demangler} {recent : Recent} {before : List String}

/-- What is remembered are readable forms. -/
def Faithful (demangle : Demangler) (recent : Recent) : Prop :=
  ∀ entry ∈ recent.forms, entry.2 = (readable demangle entry.1).1

/-- The names that are remembered are those asked for, each of them once. -/
structure Keeps (recent : Recent) (before : List String) : Prop where
  nodup : (recent.forms.map Prod.fst).Nodup
  mem_iff : ∀ name, name ∈ recent.forms.map Prod.fst ↔ name ∈ before

theorem lookup_eq_none_iff {name : String} :
    recent.forms.lookup name = none ↔ name ∉ recent.forms.map Prod.fst := by
  rw [List.lookup_eq_none_iff, List.mem_map, not_exists]
  constructor
  · rintro hall entry ⟨hentry, rfl⟩
    simpa using hall entry hentry
  · intro hall entry hentry
    exact bne_iff_ne.mpr fun heq => hall entry ⟨hentry, heq.symm⟩

theorem Faithful.eq_of_lookup (h : recent.Faithful demangle) {name form : String}
    (hform : recent.forms.lookup name = some form) : form = (readable demangle name).1 := by
  obtain ⟨front, rest, hforms, -⟩ := List.lookup_eq_some_iff.mp hform
  exact h (name, form) (by simp [hforms])

/-- **A memory of readable forms answers with them**, whatever it has forgotten. -/
theorem Faithful.resolveWithin_fst (h : recent.Faithful demangle) (capacity : Nat) (name : String) :
    (resolveWithin capacity demangle recent name).1 = (readable demangle name).1 := by
  rw [resolveWithin]
  cases hform : recent.forms.lookup name with
  | none => rfl
  | some form => exact h.eq_of_lookup hform

theorem Faithful.resolveWithin (h : recent.Faithful demangle) (capacity : Nat) (name : String) :
    (resolveWithin capacity demangle recent name).2.2.Faithful demangle := by
  rw [Resolver.resolveWithin]
  cases hform : recent.forms.lookup name with
  | none =>
    intro entry hentry
    rcases List.mem_cons.mp (List.mem_of_mem_take hentry) with rfl | hentry
    · rfl
    · exact h entry hentry
  | some form =>
    intro entry hentry
    rcases List.mem_cons.mp hentry with rfl | hentry
    · exact h.eq_of_lookup hform
    · exact h entry (List.mem_of_mem_filter hentry)

theorem Keeps.lookup_eq_none_iff (h : recent.Keeps before) {name : String} :
    recent.forms.lookup name = none ↔ name ∉ before := by
  rw [Recent.lookup_eq_none_iff, h.mem_iff]

theorem Keeps.mem_of_lookup (h : recent.Keeps before) {name form : String}
    (hform : recent.forms.lookup name = some form) : name ∈ before := by
  by_contra hnew
  rw [h.lookup_eq_none_iff.mpr hnew] at hform
  cases hform

/-- A memory has as many names as it has been asked for, each counted once. -/
theorem Keeps.length_eq (h : recent.Keeps before) : recent.forms.length = before.toFinset.card := by
  have hsame : (recent.forms.map Prod.fst).toFinset = before.toFinset := by
    ext name
    rw [List.mem_toFinset, List.mem_toFinset, h.mem_iff]
  rw [← hsame, List.toFinset_card_of_nodup h.nodup, List.length_map]

/-- A name that is new comes to the front. -/
theorem Keeps.cons (h : recent.Keeps before) {name : String} (hnew : name ∉ before)
    (form : String) : Keeps ⟨(name, form) :: recent.forms⟩ (before ++ [name]) := by
  constructor
  · exact List.nodup_cons.mpr ⟨fun hname => hnew ((h.mem_iff name).mp hname), h.nodup⟩
  · intro other
    rw [List.map_cons, List.mem_cons, h.mem_iff, List.mem_append, List.mem_singleton, or_comm]

/-- A name that is known comes to the front too, and is taken out behind. -/
theorem Keeps.toFront (h : recent.Keeps before) (name form : String) :
    Keeps ⟨(name, form) :: recent.forms.filter fun entry => entry.1 != name⟩
      (before ++ [name]) := by
  have hsub : (recent.forms.filter fun entry => entry.1 != name).Sublist recent.forms :=
    List.filter_sublist
  constructor
  · refine List.nodup_cons.mpr ⟨?_, (hsub.map Prod.fst).nodup h.nodup⟩
    intro hmem
    obtain ⟨entry, hentry, heq⟩ := List.mem_map.mp hmem
    exact bne_iff_ne.mp (List.mem_filter.mp hentry).2 heq
  · intro other
    rw [List.map_cons, List.mem_cons, List.mem_append, List.mem_singleton, ← h.mem_iff]
    constructor
    · rintro (rfl | hother)
      · exact .inr rfl
      · exact .inl ((hsub.map Prod.fst).subset hother)
    · rintro (hother | rfl)
      · by_cases heq : other = name
        · exact .inl heq
        · obtain ⟨entry, hentry, rfl⟩ := List.mem_map.mp hother
          exact .inr (List.mem_map_of_mem (List.mem_filter.mpr ⟨hentry, bne_iff_ne.mpr heq⟩))
      · exact .inl rfl

/-- **A memory that has not been asked for more names than it keeps has all of them.** -/
theorem Keeps.resolveWithin (h : recent.Keeps before) {capacity : Nat} {name : String}
    (hcapacity : (before ++ [name]).toFinset.card ≤ capacity) (demangle : Demangler) :
    (resolveWithin capacity demangle recent name).2.2.Keeps (before ++ [name]) := by
  rw [Resolver.resolveWithin]
  cases hform : recent.forms.lookup name with
  | none =>
    have hcons := h.cons (h.lookup_eq_none_iff.mp hform) (readable demangle name).1
    -- there is room for the new name, so that none is driven out
    have hroom : ((name, (readable demangle name).1) :: recent.forms).length ≤ capacity :=
      hcons.length_eq.trans_le hcapacity
    simp only [List.take_of_length_le hroom]
    exact hcons
  | some form => exact h.toFront name form

end Recent

section Bounded

variable (demangle : Demangler)

theorem faithful_empty : Recent.Faithful demangle {} := by
  intro entry hentry
  cases hentry

theorem faithful_memoryAfter (capacity : Nat) (before : List String) :
    (memoryAfter (resolveWithin capacity demangle) {} before).Faithful demangle := by
  induction before using List.reverseRecOn with
  | nil => exact faithful_empty demangle
  | append_singleton before name ih =>
    rw [memoryAfter_concat]
    exact ih.resolveWithin capacity name

/-- **A memory of bounded size answers with readable forms**, however many names it is asked for. -/
theorem map_fst_answers (capacity : Nat) {recent : Recent} (h : recent.Faithful demangle)
    (names : List String) :
    (answers (resolveWithin capacity demangle) recent names).map Prod.fst =
      names.map fun name => (readable demangle name).1 := by
  induction names generalizing recent with
  | nil => rfl
  | cons name names ih =>
    rw [answers, List.map_cons, List.map_cons, ih (h.resolveWithin capacity name)]
    exact congrArg (· :: _) (h.resolveWithin_fst capacity name)

theorem card_toFinset_le_append (before after : List String) :
    before.toFinset.card ≤ (before ++ after).toFinset.card := by
  rw [List.toFinset_append]
  exact Finset.card_le_card Finset.subset_union_left

theorem keeps_memoryAfter {capacity : Nat} {before : List String}
    (h : before.toFinset.card ≤ capacity) :
    (memoryAfter (resolveWithin capacity demangle) {} before).Keeps before := by
  induction before using List.reverseRecOn with
  | nil => exact ⟨List.nodup_nil, fun name => Iff.rfl⟩
  | append_singleton before name ih =>
    rw [memoryAfter_concat]
    exact (ih ((card_toFinset_le_append before [name]).trans h)).resolveWithin h demangle

/-- **The answers of a memory of bounded size** that has not been asked for more names than it
keeps. -/
theorem resolveWithin_memoryAfter {capacity : Nat} {before : List String}
    (h : before.toFinset.card ≤ capacity) (name : String) :
    let memory := memoryAfter (resolveWithin capacity demangle) {} before
    ((resolveWithin capacity demangle memory name).1,
        (resolveWithin capacity demangle memory name).2.1) = owed demangle before name := by
  intro memory
  have hfaithful : memory.Faithful demangle := faithful_memoryAfter demangle capacity before
  have hkeeps : memory.Keeps before := keeps_memoryAfter demangle h
  refine Prod.ext (hfaithful.resolveWithin_fst capacity name) ?_
  rw [owed, resolveWithin]
  cases hform : memory.forms.lookup name with
  | none =>
    have hnew : name ∉ before := hkeeps.lookup_eq_none_iff.mp hform
    simp [hnew]
  | some form =>
    have hknown : name ∈ before := hkeeps.mem_of_lookup hform
    simp [hknown]

/-- **Within its bounds, a memory of bounded size answers as one that keeps all.** -/
theorem answers_resolveWithin {capacity : Nat} {names : List String}
    (h : names.toFinset.card ≤ capacity) :
    answers (resolveWithin capacity demangle) {} names = answers (resolve demangle) {} names := by
  refine answers_congr fun before name after hnames => ?_
  have hbefore : before.toFinset.card ≤ capacity := by
    rw [hnames] at h
    exact (card_toFinset_le_append before (name :: after)).trans h
  exact (resolveWithin_memoryAfter demangle hbefore name).trans
    (resolve_memoryAfter demangle before name).symm

/-- A memory that is too small tells of a symbol again. -/
example : answers (resolveWithin 1 fun _ => none) {} ["a", "b", "a"] =
    [("a", [.leftMangled "a"]), ("b", [.leftMangled "b"]), ("a", [.leftMangled "a"])] := by
  decide +kernel

end Bounded

/-! ## Names in a session -/

/-- Names that are read one after the other in a session are answered from its memory, and their
events are told. -/
theorem outcome_mapM_readable (demangle : Demangler) (names : List String) (s : Session) :
    ∃ t, (names.mapM (Action.readable demangle)).outcome s =
        (.ok ((answers (resolve demangle) s.memo names).map Prod.fst), t) ∧
      t.graph = s.graph ∧
      t.log.toList =
        s.log.toList ++ (answers (resolve demangle) s.memo names).flatMap Prod.snd := by
  induction names generalizing s with
  | nil =>
    rw [List.mapM_nil]
    exact ⟨s, rfl, rfl, (List.append_nil _).symm⟩
  | cons name names ih =>
    obtain ⟨t, hrest, hgraph, hlog⟩ := ih
      { s with
        memo := (resolve demangle s.memo name).2.2
        log := s.log ++ (resolve demangle s.memo name).2.1 }
    refine ⟨t, ?_, hgraph, ?_⟩
    · exact Action.outcome_mapM_cons_eq_ok_iff.mpr ⟨_, _, _, rfl, hrest, rfl⟩
    · rw [hlog, Array.toList_appendList, List.append_assoc]
      rfl

/-- **A name is read by its last segment, and alike from memory.**  Each name has a last segment;
where that has a readable form the name is read with it in that place, and as it stands where it is
rejected, so that the other segments never change.  A memory of bounded size answers with the forms
that are found without it.  As long as it is asked for no more names than it keeps, each counted
once, a rejected symbol is told when its name is asked for the first time, and then only; and names
that are read in a session come to the same. -/
theorem names_read_by_last_segment (demangle : Demangler) :
    (∀ name, ∃ front last, LastSegment name front last) ∧
    (∀ name front last, LastSegment name front last →
      (∀ form, demangle last = some form → readable demangle name = (front ++ form, none)) ∧
      (demangle last = none → readable demangle name = (name, some last)) ∧
      ∃ earlier, segments name = earlier ++ [last.toList] ∧
        earlier <+: segments (readable demangle name).1) ∧
    (∀ names, (answers (resolveWithin memoCapacity demangle) {} names).map Prod.fst =
      names.map fun name => (readable demangle name).1) ∧
    (∀ before name after front last, LastSegment name front last →
      (before ++ name :: after).toFinset.card ≤ memoCapacity →
      (answers (resolveWithin memoCapacity demangle) {} (before ++ name :: after))[before.length]? =
        some ((readable demangle name).1,
          if name ∉ before ∧ demangle last = none then [.leftMangled last] else [])) ∧
    ∀ names, names.toFinset.card ≤ memoCapacity → ∀ s : Session, s.memo = {} →
      ∃ t, (names.mapM (Action.readable demangle)).outcome s =
          (.ok (names.map fun name => (readable demangle name).1), t) ∧
        t.graph = s.graph ∧
        t.log.toList = s.log.toList ++
          (answers (resolveWithin memoCapacity demangle) {} names).flatMap Prod.snd := by
  refine ⟨exists_lastSegment, fun name front last h => ?_, fun names => ?_, ?_, ?_⟩
  · exact ⟨fun form => h.readable_of_some, h.readable_of_none, h.exists_earlier demangle⟩
  · exact map_fst_answers demangle memoCapacity (faithful_empty demangle) names
  · intro before name after front last h hcapacity
    have hbefore := (card_toFinset_le_append before (name :: after)).trans hcapacity
    rw [getElem?_answers, resolveWithin_memoryAfter demangle hbefore, owed, h.snd_readable]
    by_cases hname : name ∈ before
    · simp [hname]
    · by_cases hform : demangle last = none <;> simp [hname, hform]
  · intro names hcapacity s hs
    obtain ⟨t, houtcome, hgraph, hlog⟩ := outcome_mapM_readable demangle names s
    rw [hs, ← answers_resolveWithin demangle hcapacity] at houtcome hlog
    rw [map_fst_answers demangle memoCapacity (faithful_empty demangle)] at houtcome
    exact ⟨t, houtcome, hgraph, hlog⟩

/-- A name with a symbol in front of one that is rejected, asked for twice: a session tells of the
rejected symbol once. -/
theorem names_read_by_last_segment_again :
    let names := ["_Z1fv:_Zx", "a::_Z1fv", "_Z1fv:_Zx"]
    let told := answers (resolveWithin memoCapacity Symbol.demangle?) {} names
    LastSegment "_Z1fv:_Zx" "_Z1fv:" "_Zx" ∧ LastSegment "a::_Z1fv" "a::" "_Z1fv" ∧
      names.toFinset.card ≤ memoCapacity ∧
      told[0]? = some ("_Z1fv:_Zx", [.leftMangled "_Zx"]) ∧ told[1]? = some ("a::f()", []) ∧
      told[2]? = some ("_Z1fv:_Zx", []) ∧
      ∃ t, (names.mapM (Action.readable Symbol.demangle?)).outcome {} =
          (.ok ["_Z1fv:_Zx", "a::f()", "_Z1fv:_Zx"], t) ∧
        t.log.toList = [.leftMangled "_Zx"] := by
  intro names told
  have hsymbol : LastSegment "_Z1fv:_Zx" "_Z1fv:" "_Zx" := ⟨by decide, by decide, .inr (by decide)⟩
  have hscope : LastSegment "a::_Z1fv" "a::" "_Z1fv" := ⟨by decide, by decide, .inr (by decide)⟩
  have hrejected : Symbol.demangle? "_Zx" = none := by decide +kernel
  have haccepted : Symbol.demangle? "_Z1fv" = some "f()" := by decide +kernel
  have hcapacity : names.toFinset.card ≤ memoCapacity :=
    (List.toFinset_card_le names).trans (by decide)
  obtain ⟨-, hreadable, -, htold, hsession⟩ := names_read_by_last_segment Symbol.demangle?
  have hfirst := htold [] _ ["a::_Z1fv", "_Z1fv:_Zx"] _ _ hsymbol hcapacity
  have hsecond := htold ["_Z1fv:_Zx"] _ ["_Z1fv:_Zx"] _ _ hscope hcapacity
  have hthird := htold ["_Z1fv:_Zx", "a::_Z1fv"] _ [] _ _ hsymbol hcapacity
  have hfront := (hreadable _ _ _ hsymbol).2.1 hrejected
  have hback := (hreadable _ _ _ hscope).1 _ haccepted
  rw [hfront] at hfirst hthird
  rw [hback] at hsecond
  refine ⟨hsymbol, hscope, hcapacity, ?_, ?_, ?_, ?_⟩
  · simpa [hrejected] using hfirst
  · simpa [haccepted] using hsecond
  · simpa [hrejected] using hthird
  · obtain ⟨t, houtcome, -, hlog⟩ := hsession names hcapacity {} rfl
    have hforms : (names.map fun name => (readable Symbol.demangle? name).1) =
        ["_Z1fv:_Zx", "a::f()", "_Z1fv:_Zx"] := by
      simp only [names, List.map_cons, List.map_nil, hfront, hback]
      rfl
    have hevents : told.flatMap Prod.snd = [.leftMangled "_Zx"] := by
      decide +kernel
    rw [hforms] at houtcome
    exact ⟨t, houtcome, hlog.trans hevents⟩

end CallAtlas.Resolver
