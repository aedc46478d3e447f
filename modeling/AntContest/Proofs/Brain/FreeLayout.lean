import AntContest.Proofs.Brain.Grammar
import AntContest.Proofs.Text.Splicing
import Mathlib

/-! # The layout of a brain text

What is read of a text are the words of its lines, in upper case and without comments.  They stay
the same if letters change their case (`lineWords_map_toUpper`), if a run of gaps is changed that is
at the edge of a word (`lineWords_append_gaps`), and if a comment is put at the end of a line
(`lineWords_comment`).  A line without words is passed over, but counts (`readLines_insert`).

`Restyled` are the changes of a text that leave its lines where they are, `Inserted` is one more
idle line, and `Relaid` is any number of both together with how far each line has moved.  A text
that is relaid is read as the same program, or refused for the same fault (`read_relaid`). -/

namespace AntContest

open Text

namespace Brain

/-! ### The words of a line -/

/-- A run of gaps at the edge of a word is as good as a space. -/
theorem lineWords_append_gaps {l gaps r : List Char} (hgaps : ∀ c ∈ gaps, isGap c = true)
    (hedge : Edge l gaps r) : lineWords (l ++ gaps ++ r) = lineWords (l ++ [' '] ++ r) := by
  have hspace : ∀ c ∈ [' '], isGap c = true := List.forall_mem_singleton.mpr rfl
  by_cases hl : ';' ∈ l
  · -- What is in the comment is of no account.
    simp only [lineWords_eq, List.append_assoc, before_append_of_mem hl]
  · have hcode {gaps : List Char} (hgaps : ∀ c ∈ gaps, isGap c = true) :
        before ';' (l ++ gaps ++ r) = l ++ gaps ++ before ';' r := by
      refine before_append_of_not_mem (fun hmem => ?_) r
      exact (List.mem_append.mp hmem).elim hl fun hmem => absurd (hgaps _ hmem) (by decide)
    have hhead {gaps : List Char} (hgaps : ∀ c ∈ gaps, isGap c = true) (code : List Char) :
        (dropBlanks (l ++ gaps ++ code)).head? =
          (dropBlanks l).head?.or (dropBlanks code).head? := by
      rw [head?_dropBlanks_append, head?_dropBlanks_append, dropBlanks_of_gaps hgaps,
        List.head?_nil, Option.or_none]
    have hedge' : Edge l gaps (before ';' r) := hedge.imp_right fun h =>
      h.imp_right fun hr c hc => hr c ((List.takeWhile_sublist _).subset hc)
    rw [lineWords_eq, lineWords_eq, hcode hgaps, hcode hspace, hhead hgaps, hhead hspace,
      words_append_gaps hgaps hedge', words_append_gaps hspace (.inl (List.cons_ne_nil _ _))]

theorem lineWords_append_of_gaps {l gaps : List Char} (hgaps : ∀ c ∈ gaps, isGap c = true) :
    lineWords (l ++ gaps) = lineWords l := by
  have hend (gaps : List Char) : Edge l gaps [] := .inr (.inr (List.forall_mem_nil _))
  have hmore := lineWords_append_gaps hgaps (hend gaps)
  have hnone := lineWords_append_gaps (List.forall_mem_nil _) (hend [])
  simp only [List.append_nil] at hmore hnone
  rw [hmore, hnone]

theorem lineWords_comment (l comment : List Char) :
    lineWords (l ++ ';' :: comment) = lineWords l := by
  rw [lineWords_eq, before_append_sep, lineWords_eq]

theorem lineWords_map_toUpper (line : List Char) :
    lineWords (line.map Char.toUpper) = lineWords line := by
  have hhash (first : Option Char) : first.map Char.toUpper = some '#' ↔ first = some '#' := by
    cases first with
    | none => exact Iff.rfl
    | some c =>
      rw [Option.map_some, Option.some.injEq, Option.some.injEq, ← beq_iff_eq,
        ← beq_iff_eq (a := c), beq_toUpper (by decide)]
  have hupper (ws : List (List Char)) : (ws.map (·.map Char.toUpper)).map (·.map Char.toUpper) =
      ws.map (·.map Char.toUpper) := by
    rw [List.map_map]
    refine List.map_congr_left fun w _ => ?_
    rw [Function.comp_apply, List.map_map]
    exact List.map_congr_left fun c _ => c.toUpper_toUpper_eq_toUpper
  rw [lineWords_eq, lineWords_eq, before_map_toUpper (by decide), dropBlanks_map_toUpper,
    List.head?_map, words_map isGap_toUpper, hupper]
  simp only [hhash]

/-! ### Lines that hold nothing -/

/-- A line without words: nothing but gaps, nothing but a comment, or a line that begins with
`#`. -/
def Idle (line : List Char) : Prop :=
  '\n' ∉ line ∧ ((∀ c ∈ line, isGap c = true) ∨
    (∃ gaps comment, line = gaps ++ ';' :: comment ∧ ∀ c ∈ gaps, isGap c = true) ∨ HashLine line)

theorem lineWords_of_gaps {gaps : List Char} (h : ∀ c ∈ gaps, isGap c = true) :
    lineWords gaps = [] :=
  lineWords_append_of_gaps (l := []) h

theorem Idle.lineWords_eq_nil {line : List Char} (h : Idle line) : lineWords line = [] := by
  obtain ⟨-, hgaps | ⟨gaps, comment, rfl, hgaps⟩ | ⟨blanks, rest, rfl, hblanks⟩⟩ := h
  · exact lineWords_of_gaps hgaps
  · rw [lineWords_comment, lineWords_of_gaps hgaps]
  · have hcode : before ';' (blanks ++ '#' :: rest) = blanks ++ '#' :: before ';' rest := by
      rw [before_append_of_not_mem fun hmem => absurd (hblanks _ hmem) (by decide), before,
        List.takeWhile_cons_of_pos (by decide), before]
    rw [lineWords_eq, hcode, if_pos (hashLine_iff.mp ⟨blanks, _, rfl, hblanks⟩)]

/-! ### Lines and their numbers -/

theorem readLines_congr {ls ls' : List (List Char)} (h : ls.map lineWords = ls'.map lineWords)
    (n : Nat) : readLines n ls = readLines n ls' := by
  induction ls generalizing ls' n with
  | nil =>
    cases ls' with
    | nil => rfl
    | cons l' ls' => cases h
  | cons l ls ih =>
    cases ls' with
    | nil => cases h
    | cons l' ls' =>
      obtain ⟨hline, hrest⟩ := List.cons.inj h
      rw [readLines, readLines, hline, ih hrest]

/-- The ends of lines hold no words, nor does what is behind the last one. -/
theorem readLines_lines (n : Nat) (cs : List Char) :
    readLines n (lines cs) = readLines n (rawLines cs) := by
  have hreturn (p : List Char) : lineWords (dropReturn p) = lineWords p := by
    unfold dropReturn
    split
    · next h =>
      obtain ⟨front, rfl⟩ := List.getLast?_eq_some_iff.mp h
      rw [List.dropLast_concat, lineWords_append_of_gaps (List.forall_mem_singleton.mpr rfl)]
    · rfl
  show readLines n (linesOfPieces (rawLines cs)) = _
  generalize rawLines cs = ps
  induction ps generalizing n with
  | nil => rfl
  | cons p ps ih =>
    cases ps with
    | nil =>
      rw [linesOfPieces]
      split
      · next h =>
        rw [List.isEmpty_iff.mp h]
        rfl
      · rfl
    | cons q ps =>
      rw [linesOfPieces, readLines, readLines, hreturn, ih]
      exact List.cons_ne_nil q ps

end Brain

/-- The error about a line, when so many lines have been put above it. -/
def BrainError.moved (above : Nat → Nat) : BrainError → BrainError
  | atLine number cause => atLine (number + above number) cause
  | tooManyStates count => tooManyStates count
  | noStates => noStates

theorem BrainError.moved_zero (e : BrainError) : e.moved (fun _ => 0) = e := by
  cases e <;> rfl

theorem BrainError.moved_moved (above above' : Nat → Nat) (e : BrainError) :
    (e.moved above).moved above' = e.moved fun n => above n + above' (n + above n) := by
  cases e with
  | atLine n cause => rw [moved, moved, moved, Nat.add_assoc]
  | tooManyStates count => rfl
  | noStates => rfl

namespace Brain

/-- A line above all but the first `m` lines. -/
def oneAbove (m n : Nat) : Nat := if n ≤ m then 0 else 1

section Moved

variable {m n n' : Nat} {ls ls' : List (List Char)} {line : List Char}

theorem readLines_cons_mapError {f : BrainError → BrainError}
    (hrest : readLines (n' + 1) ls' = (readLines (n + 1) ls).mapError f)
    (hline : ∀ cause, f (.atLine n cause) = .atLine n' cause) :
    readLines n' (line :: ls') = (readLines n (line :: ls)).mapError f := by
  rw [readLines, readLines, hrest]
  split
  · rw [Except.mapError, hline]
  · rfl
  · cases readLines (n + 1) ls <;> rfl

theorem readLines_succ (hn : m < n) (ls : List (List Char)) :
    readLines (n + 1) ls = (readLines n ls).mapError (·.moved (oneAbove m)) := by
  induction ls generalizing n with
  | nil => rfl
  | cons l ls ih =>
    refine readLines_cons_mapError (ih (by omega)) fun cause => ?_
    rw [BrainError.moved, oneAbove, if_neg (Nat.not_le_of_lt hn)]

/-- A line without words is passed over, but counts. -/
theorem readLines_insert (hline : lineWords line = []) (front back : List (List Char)) (n : Nat) :
    readLines (n + 1) (front ++ line :: back) =
      (readLines (n + 1) (front ++ back)).mapError (·.moved (oneAbove (n + front.length))) := by
  induction front generalizing n with
  | nil =>
    rw [List.nil_append, List.nil_append, readLines, hline]
    exact readLines_succ (Nat.lt_succ_self n) back
  | cons l front ih =>
    have hlength : n + (l :: front).length = n + 1 + front.length := by
      rw [List.length_cons]
      omega
    rw [hlength]
    refine readLines_cons_mapError (ih (n + 1)) fun cause => ?_
    rw [BrainError.moved, oneAbove, if_pos (by omega)]

end Moved

/-! ### Changes within lines -/

def Spaces (run : List Char) : Prop := ∀ c ∈ run, c = ' ' ∨ c = '\t'

-- The characters of the run are looked through, not all characters.
instance (run : List Char) : Decidable (Spaces run) :=
  List.decidableBAll (fun c => c = ' ' ∨ c = '\t') run

/-- A change of a text that leaves its lines where they are. -/
inductive Restyled : List Char → List Char → Prop
  /-- Letters change their case. -/
  | recase {text text' : List Char} : text.map Char.toUpper = text'.map Char.toUpper →
      Restyled text text'
  /-- A run of spaces and tabs is replaced by another one. -/
  | respace {front run run' back : List Char} : Spaces run → Spaces run' → run ≠ [] → run' ≠ [] →
      Restyled (front ++ run ++ back) (front ++ run' ++ back)
  /-- Spaces and tabs are put at the beginning of a line, or taken away there. -/
  | indent {front run run' back : List Char} : Spaces run → Spaces run' → LineStart front →
      Restyled (front ++ run ++ back) (front ++ run' ++ back)
  /-- Spaces and tabs are put at the end of a line, or taken away there. -/
  | trail {front run run' back : List Char} : Spaces run → Spaces run' → LineEnd back →
      Restyled (front ++ run ++ back) (front ++ run' ++ back)
  /-- A comment is put at the end of a line. -/
  | comment {front comment back : List Char} : '\n' ∉ comment → LineEnd back →
      Restyled (front ++ back) (front ++ ';' :: comment ++ back)
  /-- A line that ends in a line feed now ends in a return and a line feed. -/
  | returnFeed {front back : List Char} :
      Restyled (front ++ '\n' :: back) (front ++ '\r' :: '\n' :: back)

section Within

variable {front mid mid' back : List Char}

theorem Spaces.isGap {run : List Char} (h : Spaces run) : ∀ c ∈ run, isGap c = true := by
  intro c hc
  rcases h c hc with rfl | rfl <;> decide

theorem Spaces.feed_not_mem {run : List Char} (h : Spaces run) : '\n' ∉ run :=
  fun hmem => absurd (h _ hmem) (by decide)

/-- Of a change within a line only this line is of account. -/
theorem map_lineWords_of_mid (hmid : '\n' ∉ mid) (hmid' : '\n' ∉ mid')
    (h : lineWords (lineFront front ++ mid ++ lineBack back) =
      lineWords (lineFront front ++ mid' ++ lineBack back)) :
    (rawLines (front ++ mid ++ back)).map lineWords =
      (rawLines (front ++ mid' ++ back)).map lineWords := by
  obtain ⟨ps, qs, hraw⟩ := exists_rawLines front back
  rw [hraw mid hmid, hraw mid' hmid', List.map_append, List.map_append, List.map_cons,
    List.map_cons, h]

theorem map_lineWords_of_spaces (hmid : Spaces mid) (hmid' : Spaces mid')
    (hedge : Edge (lineFront front) mid (lineBack back))
    (hedge' : Edge (lineFront front) mid' (lineBack back)) :
    (rawLines (front ++ mid ++ back)).map lineWords =
      (rawLines (front ++ mid' ++ back)).map lineWords := by
  refine map_lineWords_of_mid hmid.feed_not_mem hmid'.feed_not_mem ?_
  rw [lineWords_append_gaps hmid.isGap hedge, lineWords_append_gaps hmid'.isGap hedge']

theorem rawLines_map_toUpper (text : List Char) :
    rawLines (text.map Char.toUpper) = (rawLines text).map (·.map Char.toUpper) :=
  pieces_map (beq_toUpper (by decide)) text

/-- Such changes leave the words of all lines as they are. -/
theorem Restyled.map_lineWords {text text' : List Char} (h : Restyled text text') :
    (rawLines text).map lineWords = (rawLines text').map lineWords := by
  cases h with
  | recase hcase =>
    have hupper (text : List Char) : (rawLines (text.map Char.toUpper)).map lineWords =
        (rawLines text).map lineWords := by
      rw [rawLines_map_toUpper, List.map_map]
      exact List.map_congr_left fun line _ => lineWords_map_toUpper line
    rw [← hupper, hcase, hupper]
  | respace hrun hrun' hne hne' => exact map_lineWords_of_spaces hrun hrun' (.inl hne) (.inl hne')
  | indent hrun hrun' hstart =>
    have hfront := hstart.lineFront_eq
    exact map_lineWords_of_spaces hrun hrun' (.inr (.inl hfront)) (.inr (.inl hfront))
  | trail hrun hrun' hend =>
    exact map_lineWords_of_spaces hrun hrun' (.inr (.inr hend.isGap)) (.inr (.inr hend.isGap))
  | @comment front comment back hcomment hend =>
    have hmid : '\n' ∉ ';' :: comment := by simpa using hcomment
    have hline : lineWords (lineFront front ++ [] ++ lineBack back) =
        lineWords (lineFront front ++ ';' :: comment ++ lineBack back) := by
      rw [List.append_nil, List.append_assoc, List.cons_append, lineWords_comment,
        lineWords_append_of_gaps hend.isGap]
    have hraw := map_lineWords_of_mid List.not_mem_nil hmid hline
    rwa [List.append_nil] at hraw
  | @returnFeed front back =>
    have hback : lineBack ('\n' :: back) = [] := rfl
    have hline : lineWords (lineFront front ++ [] ++ lineBack ('\n' :: back)) =
        lineWords (lineFront front ++ ['\r'] ++ lineBack ('\n' :: back)) := by
      rw [hback, List.append_nil, List.append_nil, List.append_nil,
        lineWords_append_of_gaps (List.forall_mem_singleton.mpr rfl)]
    have hraw := map_lineWords_of_mid List.not_mem_nil (by decide) hline
    rwa [List.append_nil, List.append_assoc] at hraw

end Within

/-! ### Further lines -/

/-- One idle line is put into a text, behind so many of its lines. -/
inductive Inserted : Nat → List Char → List Char → Prop
  | above {front line back : List Char} : LineStart front → Idle line →
      Inserted (front.count '\n') (front ++ back) (front ++ line ++ '\n' :: back)
  | below {text line : List Char} : Idle line →
      Inserted (text.count '\n' + 1) text (text ++ '\n' :: line)

theorem Inserted.readLines_eq {m : Nat} {text text' : List Char} (h : Inserted m text text') :
    readLines 1 (rawLines text') =
      (readLines 1 (rawLines text)).mapError (·.moved (oneAbove m)) := by
  have hinsert {line : List Char} (hidle : Idle line) (front back : List (List Char)) :=
    readLines_insert hidle.lineWords_eq_nil front back 0
  simp only [Nat.zero_add] at hinsert
  cases h with
  | @above front line back hstart hidle =>
    have hback : rawLines (line ++ '\n' :: back) = line :: rawLines back := by
      rw [rawLines_append_feed, rawLines_of_not_mem hidle.1]
      rfl
    rw [List.append_assoc]
    rcases hstart with rfl | ⟨f, rfl⟩
    · exact hback ▸ hinsert hidle [] (rawLines back)
    · have hcount : (f ++ ['\n']).count '\n' = (rawLines f).length := by
        rw [List.count_append, length_rawLines]
        rfl
      rw [hcount, List.append_assoc, List.append_assoc, List.singleton_append,
        List.singleton_append, rawLines_append_feed f, rawLines_append_feed f, hback]
      exact hinsert hidle _ _
  | @below text line hidle =>
    have h := hinsert hidle (rawLines text) []
    rwa [List.append_nil, ← rawLines_of_not_mem hidle.1, ← rawLines_append_feed,
      length_rawLines] at h

/-! ### Any changes -/

/-- Any number of changes, and how many lines have then been put above each line. -/
inductive Relaid (text : List Char) : List Char → (Nat → Nat) → Prop
  | refl : Relaid text text fun _ => 0
  | restyle {text' text'' : List Char} {above : Nat → Nat} : Relaid text text' above →
      Restyled text' text'' → Relaid text text'' above
  | insert {m : Nat} {text' text'' : List Char} {above : Nat → Nat} : Relaid text text' above →
      Inserted m text' text'' → Relaid text text'' fun n => above n + oneAbove m (n + above n)

theorem Relaid.readLines_eq {text text' : List Char} {above : Nat → Nat}
    (h : Relaid text text' above) :
    readLines 1 (rawLines text') = (readLines 1 (rawLines text)).mapError (·.moved above) := by
  induction h with
  | refl =>
    cases readLines 1 (rawLines text) with
    | error e => exact congrArg Except.error e.moved_zero.symm
    | ok program => rfl
  | restyle _ hrestyled ih => rw [← readLines_congr hrestyled.map_lineWords, ih]
  | insert _ hinserted ih =>
    rw [hinserted.readLines_eq, ih]
    cases readLines 1 (rawLines text) with
    | error e => exact congrArg Except.error (e.moved_moved _ _)
    | ok program => rfl

/-- A text that is relaid is read as the same brain; or it is refused for the same fault, at the
line that has become of the bad one if the fault is in a line. -/
theorem read_relaid (name : String) {text text' : String} {above : Nat → Nat}
    (h : Relaid text.toList text'.toList above) :
    read name text' = (read name text).mapError (·.moved above) := by
  have hstates (states : Array Instruction) :
      (ofStates name states).mapError (·.moved above) = ofStates name states := by
    unfold ofStates
    split
    · split <;> rfl
    · rfl
  unfold read
  rw [readLines_lines, readLines_lines, h.readLines_eq]
  cases readLines 1 (rawLines text.toList) with
  | error e => rfl
  | ok program => exact (hstates program.toArray).symm

/-- For example with a line above, letters of another case, a tab, a comment and a return. -/
theorem read_relaid_scout :
    read "scout" "move 0 0\nfly away" = .error (.atLine 2 (.unknownInstruction "FLY")) ∧
      read "scout" "# a scout\nMove\t0 0; on\r\nfly AWAY" =
        .error (.atLine 3 (.unknownInstruction "FLY")) := by
  have hread : read "scout" "move 0 0\nfly away" =
      .error (.atLine 2 (.unknownInstruction "FLY")) := by decide +kernel
  have hcase : Restyled "move 0 0\nfly away".toList "Move 0 0\nfly AWAY".toList :=
    .recase (by decide)
  have htitle : Inserted 0 ([] ++ "Move 0 0\nfly AWAY".toList)
      ([] ++ "# a scout".toList ++ '\n' :: "Move 0 0\nfly AWAY".toList) :=
    .above (.inl rfl) ⟨by decide, .inr (.inr ⟨[], _, rfl, List.forall_mem_nil _⟩)⟩
  have htab : Restyled ("# a scout\nMove".toList ++ [' '] ++ "0 0\nfly AWAY".toList)
      ("# a scout\nMove".toList ++ ['\t'] ++ "0 0\nfly AWAY".toList) :=
    .respace (by decide) (by decide) (by decide) (by decide)
  have hcomment : Restyled ("# a scout\nMove\t0 0".toList ++ "\nfly AWAY".toList)
      ("# a scout\nMove\t0 0".toList ++ ';' :: " on".toList ++ "\nfly AWAY".toList) :=
    .comment (by decide) (.inr ⟨_, .inl rfl⟩)
  have hreturn : Restyled ("# a scout\nMove\t0 0; on".toList ++ '\n' :: "fly AWAY".toList)
      ("# a scout\nMove\t0 0; on".toList ++ '\r' :: '\n' :: "fly AWAY".toList) := .returnFeed
  have htext : "# a scout\nMove\t0 0; on".toList ++ '\r' :: '\n' :: "fly AWAY".toList =
      "# a scout\nMove\t0 0; on\r\nfly AWAY".toList := by decide
  have hrelaid := ((((Relaid.refl.restyle hcase).insert htitle).restyle htab).restyle
    hcomment).restyle hreturn
  rw [htext] at hrelaid
  rw [read_relaid "scout" hrelaid, hread]
  exact ⟨rfl, rfl⟩

/-- A vertical tab is blank and yet no gap, so a line of one is not idle. -/
example : read "scout" "\x0b\ndrop 0" = .error (.atLine 1 (.unknownInstruction "\x0b")) := by
  decide +kernel

end Brain

end AntContest
