import CallAtlas.Proofs.Location.Segments
import CallAtlas.Proofs.Text.LastSeparator
import CallAtlas.Resolver

/-!
# The symbol in a name

Only the last segment of a name can be a symbol.  A name is read by putting the readable form of
that segment in its place; what stands in front of it, with the colon behind it, is kept as it is.
So the other segments of a name are those of its readable form, even where one of them is a symbol
too.  The readable form may have colons of its own, and then has more segments than the name.

## Main definitions

* `LastSegment name front last`: a name as its last segment and the text in front of it

## Main results

* `LastSegment.split_eq`, `exists_lastSegment`: each name is divided at its last segment
* `LastSegment.readable_of_some`, `LastSegment.readable_of_none`: a name whose symbol is accepted,
  and one whose symbol is rejected
* `LastSegment.exists_earlier`: the other segments are kept
-/

namespace CallAtlas.Resolver

open CallAtlas.Location (segments)
open CallAtlas.Text (behindLast behindLast_append notMem_behindLast throughLast throughLast_append
  throughLast_append_behindLast throughLast_end)

/-- The text `last` is the last segment of a name, and `front` stands in front of it: nothing, or a
text that ends in a colon. -/
structure LastSegment (name front last : String) : Prop where
  name_eq : name = front ++ last
  colon_notMem : ':' ∉ last.toList
  front_end : front = "" ∨ front.toList.getLast? = some ':'

theorem exists_lastSegment (name : String) : ∃ front last, LastSegment name front last := by
  refine ⟨String.ofList (throughLast ':' name.toList), String.ofList (behindLast ':' name.toList),
    ?_, ?_, ?_⟩
  · rw [← String.ofList_append, throughLast_append_behindLast, String.ofList_toList]
  · rw [String.toList_ofList]
    exact notMem_behindLast ':' name.toList
  · rw [String.toList_ofList]
    refine (throughLast_end ':' name.toList).imp_left fun hnil => ?_
    rw [hnil]

namespace LastSegment

variable {name front last : String} {demangle : Demangler}

theorem split_eq (h : LastSegment name front last) :
    split name.toList = (front.toList, last.toList) := by
  have hfront : front.toList = [] ∨ front.toList.getLast? = some ':' :=
    h.front_end.imp_left fun hnil => by rw [hnil]; rfl
  rw [h.name_eq, String.toList_append]
  exact Prod.ext (throughLast_append h.colon_notMem hfront)
    (behindLast_append h.colon_notMem hfront)

/-- A name whose symbol has a readable form is read with that form in the place of the symbol. -/
theorem readable_of_some (h : LastSegment name front last) {form : String}
    (hform : demangle last = some form) : readable demangle name = (front ++ form, none) := by
  simp only [readable, h.split_eq, String.ofList_toList, hform]

/-- A name whose symbol is rejected is read as it stands. -/
theorem readable_of_none (h : LastSegment name front last) (hform : demangle last = none) :
    readable demangle name = (name, some last) := by
  simp only [readable, h.split_eq, String.ofList_toList, hform]

/-- A name rejects its last segment or nothing. -/
theorem snd_readable (h : LastSegment name front last) :
    (readable demangle name).2 = if demangle last = none then some last else none := by
  cases hform : demangle last with
  | none => rw [h.readable_of_none hform, if_pos rfl]
  | some form => rw [h.readable_of_some hform, if_neg (by simp)]

/-- The segments in front of the last one do not depend on what stands behind the last colon. -/
theorem exists_segments_append (h : LastSegment name front last) :
    ∃ earlier, ∀ tail : String, segments (front ++ tail) = earlier ++ segments tail := by
  rcases h.front_end with rfl | hcolon
  · exact ⟨[], fun tail => by rw [String.empty_append]; rfl⟩
  · obtain ⟨before, hbefore⟩ := List.getLast?_eq_some_iff.mp hcolon
    refine ⟨before.splitOn ':', fun tail => ?_⟩
    rw [segments, String.toList_append, hbefore, List.append_assoc]
    exact Location.splitOn_append_colon before tail.toList

/-- **The other segments of a name are kept** by its readable form. -/
theorem exists_earlier (h : LastSegment name front last) (demangle : Demangler) :
    ∃ earlier, segments name = earlier ++ [last.toList] ∧
      earlier <+: segments (readable demangle name).1 := by
  obtain ⟨earlier, hearlier⟩ := h.exists_segments_append
  have hlast : segments last = [last.toList] := Location.splitOn_of_notMem h.colon_notMem
  have hname : segments name = earlier ++ [last.toList] := by
    rw [h.name_eq, hearlier, hlast]
  refine ⟨earlier, hname, ?_⟩
  cases hform : demangle last with
  | none =>
    rw [h.readable_of_none hform, hname]
    exact List.prefix_append _ _
  | some form =>
    rw [h.readable_of_some hform, hearlier]
    exact List.prefix_append _ _

end LastSegment

end CallAtlas.Resolver
