import Mathlib.Data.List.Basic

/-!
# The last separator of a text

A text is divided behind the last place where a separator stands in it.  The part in front is empty
or ends in the separator, and the part behind has none.  Lines are told from the text in front of a
place in this way, and symbols from names.

## Main definitions

* `throughLast separator text`, `behindLast separator text`: the two parts

## Main results

* `throughLast_append_behindLast`: the parts make up the text
* `throughLast_end`, `notMem_behindLast`: what they look like
* `throughLast_append`, `behindLast_append`: any two parts that look so are these
-/

namespace CallAtlas.Text

variable (separator : Char) (text : List Char)

/-- The text up to and with the last separator. -/
def throughLast : List Char :=
  (text.reverse.dropWhile (· != separator)).reverse

/-- The text behind the last separator. -/
def behindLast : List Char :=
  (text.reverse.takeWhile (· != separator)).reverse

theorem throughLast_append_behindLast :
    throughLast separator text ++ behindLast separator text = text := by
  rw [throughLast, behindLast, ← List.reverse_append, List.takeWhile_append_dropWhile,
    List.reverse_reverse]

theorem throughLast_end :
    throughLast separator text = [] ∨ (throughLast separator text).getLast? = some separator := by
  -- what is dropped from the back stops at a separator, if anything is left
  have hhead := List.head?_dropWhile_not (· != separator) text.reverse
  rw [throughLast, List.getLast?_reverse]
  cases hfront : text.reverse.dropWhile (· != separator) with
  | nil => exact .inl rfl
  | cons c front =>
    rw [hfront] at hhead
    exact .inr (by simpa using hhead)

theorem notMem_behindLast : separator ∉ behindLast separator text := by
  intro hmem
  have hplain := List.all_eq_true.mp List.all_takeWhile _ (List.mem_reverse.mp hmem)
  simp at hplain

variable {separator} {front back : List Char}

theorem behindLast_append (hback : separator ∉ back)
    (hfront : front = [] ∨ front.getLast? = some separator) :
    behindLast separator (front ++ back) = back := by
  have hplain : ∀ c ∈ back.reverse, (c != separator) = true := by
    intro c hc
    refine bne_iff_ne.mpr ?_
    rintro rfl
    exact hback (List.mem_reverse.mp hc)
  -- from the back, the separator at the end of the part in front stops
  have hstop : front.reverse.takeWhile (· != separator) = [] := by
    rcases hfront with rfl | hend
    · rfl
    · rw [← List.head?_reverse] at hend
      obtain ⟨rest, hrest⟩ := List.head?_eq_some_iff.mp hend
      rw [hrest, List.takeWhile_cons_of_neg (by simp)]
  rw [behindLast, List.reverse_append, List.takeWhile_append_of_pos hplain, hstop, List.append_nil,
    List.reverse_reverse]

theorem throughLast_append (hback : separator ∉ back)
    (hfront : front = [] ∨ front.getLast? = some separator) :
    throughLast separator (front ++ back) = front := by
  have hparts := throughLast_append_behindLast separator (front ++ back)
  rw [behindLast_append hback hfront] at hparts
  exact List.append_cancel_right hparts

end CallAtlas.Text
