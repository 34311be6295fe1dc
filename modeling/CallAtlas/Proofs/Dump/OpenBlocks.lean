import CallAtlas.Proofs.Dump.Nesting
import Mathlib.Logic.Relation

/-!
# Open blocks

A block is open from its opening brace on, until its closing brace is read or is found missing.
How many blocks are open at once while a text is read can be told beforehand: never more than its
nesting depth, whether the text is a dump or not.  What the reader has passed is always in step with
what was counted, for it passes a double quote only together with the whole quoted value.

Two accounts are given of how many blocks are open.  One follows the reader from moment to moment.
The other is a reader that gives up when it would have to open one block too many.

## Main definitions

* `Moment`, `Moment.Next`: entries are read somewhere with some blocks open, and what comes next
* `MomentOf text moment`: the moments of reading a whole text
* `readEntriesWithin`, `parseWithin`: reading with a bound on the number of open blocks

## Main results

* `Moment.Next.inStep`, `MomentOf.inStep`: counting braces goes in step with reading
* `eq_readEntries_of_readEntriesWithin`: a bound changes nothing where it is kept
* `readEntriesWithin_eq_none`, `openBlocks_le_of_readEntriesWithin`: the reader gives up exactly if
  some moment has more open blocks than the bound
* `nestingDepth_bounds_openBlocks`: the nesting depth bounds the number of open blocks
-/

namespace CallAtlas.Dump

open CallAtlas.Text
open Relation (ReflTransGen)

/-! ## Moments -/

/-- A moment of reading: some blocks are open, and entries are read at the head of what is left. -/
structure Moment where
  openBlocks : Nat
  left : List Char

/-- **What comes next.**  A field is passed, a block is opened to read the entries in it, or a block
that is closed is passed as a whole. -/
inductive Moment.Next : Moment → Moment → Prop
  | field {n : Nat} {s key after value word rest : List Char} :
      identifier? s = some (key, after) →
      continuation (skipBlanks after) = .assigns value → ValueAt value word rest →
      Next ⟨n, s⟩ ⟨n, skipBlanks rest⟩
  | opening {n : Nat} {s kind after inner : List Char} {colon : Bool} :
      identifier? s = some (kind, after) →
      continuation (skipBlanks after) = .opens colon inner →
      Next ⟨n, s⟩ ⟨n + 1, skipBlanks inner⟩
  | block {n : Nat} {s kind after inner rest : List Char} {colon : Bool} {entries : List Entry} :
      identifier? s = some (kind, after) →
      continuation (skipBlanks after) = .opens colon inner →
      EntriesAt (skipBlanks inner) entries ('}' :: rest) →
      Next ⟨n, s⟩ ⟨n, skipBlanks rest⟩

/-- **The moments of reading a whole text**, from the one where its block has been opened. -/
inductive MomentOf (text : List Char) : Moment → Prop
  | intro {kind after inner : List Char} {colon : Bool} {moment : Moment} :
      identifier? (skipBlanks text) = some (kind, after) →
      continuation (skipBlanks after) = .opens colon inner →
      ReflTransGen Moment.Next ⟨1, skipBlanks inner⟩ moment → MomentOf text moment

section Next

variable {n : Nat} {s key after : List Char} {moment : Moment}

theorem Moment.not_next_of_stops
    (h : ∀ key after, identifier? s = some (key, after) →
      continuation (skipBlanks after) = .stops) : ¬ Next ⟨n, s⟩ moment := by
  intro hnext
  cases hnext with
  | field hkey hcolon => simp [h _ _ hkey] at hcolon
  | opening hkind hopen => simp [h _ _ hkind] at hopen
  | block hkind hopen => simp [h _ _ hkind] at hopen

theorem Moment.next_iff_of_assigns {value : List Char} (hkey : identifier? s = some (key, after))
    (hcolon : continuation (skipBlanks after) = .assigns value) :
    Next ⟨n, s⟩ moment ↔
      ∃ word rest, ValueAt value word rest ∧ moment = ⟨n, skipBlanks rest⟩ := by
  constructor
  · intro hnext
    cases hnext with
    | field hkey' hcolon' hvalue =>
      obtain ⟨rfl, rfl⟩ := Prod.mk.inj (Option.some.inj (hkey.symm.trans hkey'))
      obtain rfl := Continuation.assigns.inj (hcolon.symm.trans hcolon')
      exact ⟨_, _, hvalue, rfl⟩
    | opening hkind hopen => simp_all
    | block hkind hopen => simp_all
  · rintro ⟨word, rest, hvalue, rfl⟩
    exact .field hkey hcolon hvalue

theorem Moment.next_iff_of_opens {inner : List Char} {colon : Bool}
    (hkind : identifier? s = some (key, after))
    (hopen : continuation (skipBlanks after) = .opens colon inner) :
    Next ⟨n, s⟩ moment ↔
      moment = ⟨n + 1, skipBlanks inner⟩ ∨
        ∃ entries rest, EntriesAt (skipBlanks inner) entries ('}' :: rest) ∧
          moment = ⟨n, skipBlanks rest⟩ := by
  constructor
  · intro hnext
    cases hnext with
    | field hkey hcolon => simp_all
    | opening hkind' hopen' =>
      obtain ⟨rfl, rfl⟩ := Prod.mk.inj (Option.some.inj (hkind.symm.trans hkind'))
      obtain ⟨rfl, rfl⟩ := Continuation.opens.inj (hopen.symm.trans hopen')
      exact .inl rfl
    | block hkind' hopen' hentries =>
      obtain ⟨rfl, rfl⟩ := Prod.mk.inj (Option.some.inj (hkind.symm.trans hkind'))
      obtain ⟨rfl, rfl⟩ := Continuation.opens.inj (hopen.symm.trans hopen')
      exact .inr ⟨_, _, hentries, rfl⟩
  · rintro (rfl | ⟨entries, rest, hentries, rfl⟩)
    · exact .opening hkind hopen
    · exact .block hkind hopen hentries

/-- Where nothing comes next, no more blocks are opened. -/
theorem openBlocks_le_of_not_next {room : Nat} (h : ∀ moment, ¬ Moment.Next ⟨n, s⟩ moment)
    (hmoments : ReflTransGen Moment.Next ⟨n, s⟩ moment) : moment.openBlocks ≤ n + room := by
  rcases hmoments.cases_head with rfl | ⟨second, hnext, -⟩
  · exact Nat.le_add_right n room
  · exact (h second hnext).elim

end Next

/-! ## Counting goes in step -/

section InStep

theorem deepestIn_skipBlanks (depth deepest : Int) (s : List Char) :
    deepestIn depth deepest (skipBlanks s) = deepestIn depth deepest s := by
  obtain ⟨gap, hgap, hs⟩ := exists_blanks_skipBlanks s
  rw [hs, deepestIn_append hgap.isPlain, ← hs]

/-- Counting the braces of `text` comes to what is left at a moment, at the depth of the open
blocks. -/
def InStep (text : List Char) (moment : Moment) : Prop :=
  ∃ deepest : Int, moment.openBlocks ≤ deepest ∧
    deepestIn 0 0 text = deepestIn moment.openBlocks deepest moment.left

theorem deepestIn_of_opens {s kind after inner : List Char} {colon : Bool}
    (hkind : identifier? s = some (kind, after))
    (hopen : continuation (skipBlanks after) = .opens colon inner) (depth deepest : Int) :
    deepestIn depth deepest s =
      deepestIn (depth + 1) (max deepest (depth + 1)) (skipBlanks inner) := by
  obtain ⟨gap, mark, gap', hword, hgap, hmark, hgap', rfl⟩ := exists_words_of_opens hkind hopen
  rw [deepestIn_opening hword hgap hmark hgap', deepestIn_skipBlanks]

/-- What is passed at a depth leaves the depth, whatever depth it nests to. -/
theorem InStep.pass {text s rest : List Char} {n d : Nat} (hstep : InStep text ⟨n, s⟩)
    (hpass : ∀ deepest : Int, n ≤ deepest →
      deepestIn n deepest s = deepestIn n (max deepest (n + d)) rest) :
    InStep text ⟨n, skipBlanks rest⟩ := by
  obtain ⟨deepest, hle, hcount⟩ := hstep
  have hle : (n : Int) ≤ deepest := hle
  refine ⟨max deepest (n + d), Int.le_trans hle (Int.le_max_left _ _), ?_⟩
  rw [hcount, hpass deepest hle, deepestIn_skipBlanks]

/-- **Counting braces goes in step with reading.** -/
theorem Moment.Next.inStep {text : List Char} {moment moment' : Moment}
    (h : moment.Next moment') (hstep : InStep text moment) : InStep text moment' := by
  cases h with
  | field hkey hcolon hvalue =>
    obtain ⟨blame, hread⟩ := readValue_of_valueAt hvalue none
    exact hstep.pass fun deepest hle => (entryAt_field hkey hcolon hread).deepestIn_eq hle
  | opening hkind hopen =>
    obtain ⟨deepest, -, hcount⟩ := hstep
    refine ⟨_, Int.le_max_right deepest _, ?_⟩
    rw [hcount, deepestIn_of_opens hkind hopen]
    rfl
  | block hkind hopen hentries =>
    exact hstep.pass fun deepest hle => (blockAt_braces hkind hopen hentries).deepestIn_eq hle

theorem MomentOf.inStep {text : List Char} {moment : Moment} (h : MomentOf text moment) :
    InStep text moment := by
  obtain ⟨hkind, hopen, hmoments⟩ := h
  induction hmoments with
  | refl =>
    refine ⟨_, Int.le_max_right 0 _, ?_⟩
    rw [← deepestIn_skipBlanks, deepestIn_of_opens hkind hopen]
    rfl
  | tail _ hnext ih => exact hnext.inStep ih

/-- At no moment are more blocks open than the nesting depth tells. -/
theorem MomentOf.openBlocks_le {text : String} {moment : Moment}
    (h : MomentOf text.toList moment) : moment.openBlocks ≤ nestingDepth text := by
  obtain ⟨deepest, hle, hcount⟩ := h.inStep
  have hdeepest := le_deepestIn moment.openBlocks deepest moment.left
  rw [nestingDepth_eq_deepestIn, hcount]
  omega

end InStep

/-! ## A bounded reader -/

/-- As many entries as stand at the head of a text, unless more than `room` blocks would be open at
once. -/
def readEntriesWithin (room : Nat) (blame : Blame) (s : List Char) : Option (Reading s) :=
  if s.isEmpty then some (.stop blame s)
  else
    match hname : identifier? s with
    | none => some (.stop (blame.atRule s) s)
    | some (name, afterName) =>
      have hhead : (skipBlanks afterName).length < s.length :=
        Nat.lt_of_le_of_lt (length_skipBlanks_le _) (length_lt_of_identifier? hname)
      match hnext : continuation (skipBlanks afterName) with
      | .stops => some (.stop ((blame.atMark (skipBlanks afterName)).atRule s) s)
      | .assigns value =>
        match hvalue : readValue ((blame.atMark value).atRule s) value with
        | (blame, none) => some (.stop ((blame.atRule value).atRule s) s)
        | (blame, some (word, after)) =>
          have hafter : (skipBlanks after).length < s.length :=
            Nat.lt_of_le_of_lt (length_skipBlanks_le _) <|
              Nat.lt_trans (length_lt_of_readValue hvalue) <|
                Nat.lt_trans (length_lt_of_assigns hnext) hhead
          (readEntriesWithin room blame (skipBlanks after)).map fun more =>
            more.cons (.field (String.ofList name) (String.ofList word)) (Nat.le_of_lt hafter)
      | .opens colon inner =>
        have hinner : (skipBlanks inner).length < s.length :=
          Nat.lt_of_le_of_lt (length_skipBlanks_le _) <|
            Nat.lt_trans (length_lt_of_opens hnext) hhead
        match room with
        | 0 => none
        | room + 1 =>
          let opened := if colon then blame else blame.atMark (skipBlanks afterName)
          match readEntriesWithin room opened (skipBlanks inner) with
          | none => none
          | some block =>
            match hrest : block.rest with
            | '}' :: after =>
              have hafter : (skipBlanks after).length < s.length := by
                have := block.rest_le
                have := length_skipBlanks_le after
                rw [hrest, List.length_cons] at *
                omega
              (readEntriesWithin (room + 1) block.blame (skipBlanks after)).map fun more =>
                more.cons (.block (String.ofList name) block.entries) (Nat.le_of_lt hafter)
            | left =>
              let missed := (block.blame.atMark left).atRule s
              some (.stop (if colon then missed.atRule ('{' :: inner) else missed) s)
termination_by s.length

/-- The block that a whole text stands for, or the amount of text left at the place to blame, unless
more than `bound` blocks would be open at once. -/
def readDocumentWithin (bound : Nat) (text : List Char) : Option (Except Nat Block) :=
  let s := skipBlanks text
  match identifier? s with
  | none => some (.error s.length)
  | some (name, afterName) =>
    let head := skipBlanks afterName
    match continuation head with
    | .stops => some (.error head.length)
    | .assigns value => some (.error value.length)
    | .opens colon inner =>
      match bound with
      | 0 => none
      | room + 1 =>
        let opened := if colon then none else Blame.atMark none head
        (readEntriesWithin room opened (skipBlanks inner)).map fun block =>
          match block.rest with
          | '}' :: after =>
            match skipBlanks after with
            | [] => .ok ⟨String.ofList name, block.entries⟩
            | left => .error left.length
          | left => .error (((block.blame.atMark left).atRule s).getD 0)

/-- The block that a whole text stands for, or the diagnostic, unless more than `bound` blocks would
be open at once. -/
def parseWithin (bound : Nat) (text : String) (source : Option String) :
    Option (Except Diagnostic Block) :=
  (readDocumentWithin bound text.toList).map fun
    | .ok block => .ok block
    | .error left => .error (malformed text.toList left source)

/-! ## A bound that is kept changes nothing -/

section Bounded

theorem eq_readEntries_of_readEntriesWithin {room : Nat} {blame : Blame} {s : List Char}
    (reading : Reading s) (h : readEntriesWithin room blame s = some reading) :
    reading = readEntries blame s := by
  -- Induction along the bounded reader, which takes the same way as the other.
  fun_induction readEntriesWithin room blame s with
  | case1 room blame s hempty =>
    rw [readEntries]
    grind
  | case2 room blame s hempty hnone =>
    rw [readEntries]
    grind
  | case3 room blame s hempty name after hname _ hstops =>
    rw [readEntries]
    grind
  | case4 room blame s hempty key after hkey _ value hcolon blame' hvalue =>
    rw [readEntries]
    grind
  | case5 room blame s hempty key after hkey _ value hcolon blame' word rest hvalue _ ih =>
    obtain ⟨more, hmore, rfl⟩ := Option.map_eq_some_iff.mp h
    rw [ih more hmore, readEntries.eq_def blame s]
    grind
  | case6 => cases h
  | case7 => cases h
  | case8 blame s hempty kind after hkind _ colon inner hopen _ room opened block hblock rest hrest
      _ ihBlock ih =>
    obtain ⟨more, hmore, rfl⟩ := Option.map_eq_some_iff.mp h
    obtain rfl := ihBlock block hblock
    rw [ih more hmore, readEntries.eq_def blame s]
    grind
  | case9 blame s hempty kind after hkind _ colon inner hopen _ room opened block hblock hrest
      missed ihBlock =>
    obtain rfl := ihBlock block hblock
    simp only [opened, dite_eq_ite] at hrest
    rw [readEntries.eq_def blame s]
    grind

/-- The bounded reader gives up only where some moment has too many open blocks. -/
theorem readEntriesWithin_eq_none {room : Nat} {blame : Blame} {s : List Char}
    (h : readEntriesWithin room blame s = none) (n : Nat) :
    ∃ moment, ReflTransGen Moment.Next ⟨n, s⟩ moment ∧ n + room < moment.openBlocks := by
  fun_induction readEntriesWithin room blame s generalizing n with
  | case1 => cases h
  | case2 => cases h
  | case3 => cases h
  | case4 => cases h
  | case5 room blame s hempty key after hkey _ value hcolon blame' word rest hvalue _ ih =>
    obtain ⟨moment, hmoments, hmany⟩ := ih (Option.map_eq_none_iff.mp h) n
    exact ⟨moment, .head (.field hkey hcolon (valueAt_of_readValue hvalue)) hmoments, hmany⟩
  | case6 blame s hempty kind after hkind _ colon inner hopen =>
    exact ⟨_, .single (.opening hkind hopen), Nat.lt_succ_self n⟩
  | case7 blame s hempty kind after hkind _ colon inner hopen _ room opened hblock ihBlock =>
    -- one more block is open, and there is room for one less
    obtain ⟨moment, hmoments, hmany⟩ := ihBlock hblock (n + 1)
    exact ⟨moment, .head (.opening hkind hopen) hmoments, by omega⟩
  | case8 blame s hempty kind after hkind _ colon inner hopen _ room opened block hblock rest hrest
      _ _ ih =>
    obtain ⟨moment, hmoments, hmany⟩ := ih (Option.map_eq_none_iff.mp h) n
    have hentries := entriesAt_readEntries opened (skipBlanks inner)
    rw [← eq_readEntries_of_readEntriesWithin block hblock, hrest] at hentries
    exact ⟨moment, .head (.block hkind hopen hentries) hmoments, hmany⟩
  | case9 => cases h

/-- **The bounded reader does not give up only if no moment has too many open blocks.** -/
theorem openBlocks_le_of_readEntriesWithin {room : Nat} {s : List Char} {blame : Blame}
    {moment : Moment} (reading : Reading s) (h : readEntriesWithin room blame s = some reading)
    (n : Nat) (hmoments : ReflTransGen Moment.Next ⟨n, s⟩ moment) :
    moment.openBlocks ≤ n + room := by
  fun_induction readEntriesWithin room blame s generalizing n with
  | case1 room blame s hempty =>
    rw [List.isEmpty_iff.mp hempty] at hmoments
    exact openBlocks_le_of_not_next (fun _ => Moment.not_next_of_stops (by simp [identifier?]))
      hmoments
  | case2 room blame s hempty hnone =>
    exact openBlocks_le_of_not_next (fun _ => Moment.not_next_of_stops (by simp [hnone])) hmoments
  | case3 room blame s hempty name after hname _ hstops =>
    exact openBlocks_le_of_not_next (fun _ => Moment.not_next_of_stops (by simp_all)) hmoments
  | case4 room blame s hempty key after hkey _ value hcolon blame' hvalue =>
    refine openBlocks_le_of_not_next (fun moment' hnext => ?_) hmoments
    obtain ⟨word, rest, hword, -⟩ := (Moment.next_iff_of_assigns hkey hcolon).mp hnext
    obtain ⟨_, hread⟩ := readValue_of_valueAt hword ((blame.atMark value).atRule s)
    rw [hvalue] at hread
    cases hread
  | case5 room blame s hempty key after hkey _ value hcolon blame' word rest hvalue _ ih =>
    obtain ⟨more, hmore, -⟩ := Option.map_eq_some_iff.mp h
    rcases hmoments.cases_head with rfl | ⟨second, hnext, hmoments⟩
    · exact Nat.le_add_right n room
    · obtain ⟨word', rest', hword, rfl⟩ := (Moment.next_iff_of_assigns hkey hcolon).mp hnext
      obtain ⟨_, hread⟩ := readValue_of_valueAt hword ((blame.atMark value).atRule s)
      obtain ⟨-, heq⟩ := Prod.mk.inj (hvalue.symm.trans hread)
      obtain ⟨-, rfl⟩ := Prod.mk.inj (Option.some.inj heq)
      exact ih more hmore n hmoments
  | case6 => cases h
  | case7 => cases h
  | case8 blame s hempty kind after hkind _ colon inner hopen _ room opened block hblock rest hrest
      _ ihBlock ih =>
    obtain ⟨more, hmore, -⟩ := Option.map_eq_some_iff.mp h
    rcases hmoments.cases_head with rfl | ⟨second, hnext, hmoments⟩
    · exact Nat.le_add_right n _
    · obtain rfl | ⟨entries, rest', hentries, rfl⟩ :=
        (Moment.next_iff_of_opens hkind hopen).mp hnext
      · have hle := ihBlock block hblock (n + 1) hmoments
        omega
      · -- the block that is passed is the one that was read
        have hread := (readEntries_of_entriesAt hentries rfl opened).2
        rw [← eq_readEntries_of_readEntriesWithin block hblock, hrest] at hread
        obtain ⟨-, rfl⟩ := List.cons.inj hread
        exact ih more hmore n hmoments
  | case9 blame s hempty kind after hkind _ colon inner hopen _ room opened block hblock hrest
      missed ihBlock =>
    rcases hmoments.cases_head with rfl | ⟨second, hnext, hmoments⟩
    · exact Nat.le_add_right n _
    · obtain rfl | ⟨entries, rest', hentries, rfl⟩ :=
        (Moment.next_iff_of_opens hkind hopen).mp hnext
      · have hle := ihBlock block hblock (n + 1) hmoments
        omega
      · have hread := (readEntries_of_entriesAt hentries rfl opened).2
        rw [← eq_readEntries_of_readEntriesWithin block hblock] at hread
        exact (hrest rest' hread).elim

/-! ### Whole texts -/

theorem eq_readDocument_of_readDocumentWithin {bound : Nat} {text : List Char}
    {result : Except Nat Block} (h : readDocumentWithin bound text = some result) :
    result = readDocument text := by
  simp only [readDocumentWithin] at h
  simp only [readDocument]
  cases hname : identifier? (skipBlanks text) with
  | none => simp_all
  | some found =>
    obtain ⟨kind, after⟩ := found
    cases hnext : continuation (skipBlanks after) with
    | stops => simp_all
    | assigns value => simp_all
    | opens colon inner =>
      simp only [hname, hnext] at h ⊢
      cases bound with
      | zero => cases h
      | succ room =>
        obtain ⟨block, hblock, rfl⟩ := Option.map_eq_some_iff.mp h
        obtain rfl := eq_readEntries_of_readEntriesWithin block hblock
        rfl

theorem readDocumentWithin_eq_none_iff {bound : Nat} {text : List Char} :
    readDocumentWithin bound text = none ↔
      ∃ moment, MomentOf text moment ∧ bound < moment.openBlocks := by
  constructor
  · intro h
    simp only [readDocumentWithin] at h
    split at h
    · cases h
    · next kind after hkind =>
      split at h
      · cases h
      · cases h
      · next colon inner hopen =>
        split at h
        · exact ⟨_, .intro hkind hopen .refl, Nat.zero_lt_one⟩
        · next room =>
          obtain ⟨moment, hmoments, hmany⟩ :=
            readEntriesWithin_eq_none (Option.map_eq_none_iff.mp h) 1
          exact ⟨moment, .intro hkind hopen hmoments, by omega⟩
  · rintro ⟨moment, ⟨hkind, hopen, hmoments⟩, hmany⟩
    simp only [readDocumentWithin, hkind, hopen]
    cases bound with
    | zero => rfl
    | succ room =>
      rw [Option.map_eq_none_iff, Option.eq_none_iff_forall_ne_some]
      intro block hblock
      have hle := openBlocks_le_of_readEntriesWithin block hblock 1 hmoments
      omega

theorem parseWithin_eq_none_iff {bound : Nat} {text : String} {source : Option String} :
    parseWithin bound text source = none ↔
      ∃ moment, MomentOf text.toList moment ∧ bound < moment.openBlocks := by
  rw [parseWithin, Option.map_eq_none_iff, readDocumentWithin_eq_none_iff]

theorem eq_parse_of_parseWithin {bound : Nat} {text : String} {source : Option String}
    {result : Except Diagnostic Block} (h : parseWithin bound text source = some result) :
    result = parse text source := by
  obtain ⟨read, hread, rfl⟩ := Option.map_eq_some_iff.mp h
  obtain rfl := eq_readDocument_of_readDocumentWithin hread
  rfl

end Bounded

/-- **The nesting depth bounds the number of open blocks**, for every text.  At no moment of reading
it are more blocks open.  So a reader that gives up as soon as more are open gives what the other
gives, be it a block or a diagnostic; with any other bound it gives up exactly if more blocks are
open at some moment, and gives the same otherwise. -/
theorem nestingDepth_bounds_openBlocks (text : String) (source : Option String) :
    (∀ moment, MomentOf text.toList moment → moment.openBlocks ≤ nestingDepth text) ∧
      parseWithin (nestingDepth text) text source = some (parse text source) ∧
      ∀ bound,
        (parseWithin bound text source = none ↔
          ∃ moment, MomentOf text.toList moment ∧ bound < moment.openBlocks) ∧
        ∀ result, parseWithin bound text source = some result → result = parse text source := by
  have hopen (moment : Moment) (h : MomentOf text.toList moment) :
      moment.openBlocks ≤ nestingDepth text := h.openBlocks_le
  refine ⟨hopen, ?_, fun bound => ⟨parseWithin_eq_none_iff, fun _ => eq_parse_of_parseWithin⟩⟩
  cases hparse : parseWithin (nestingDepth text) text source with
  | none =>
    obtain ⟨moment, hmoment, hmany⟩ := parseWithin_eq_none_iff.mp hparse
    have hle := hopen moment hmoment
    omega
  | some result => rw [eq_parse_of_parseWithin hparse]

end CallAtlas.Dump
