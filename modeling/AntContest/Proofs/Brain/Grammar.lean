import AntContest.Proofs.Brain.CanonicalText
import AntContest.Proofs.Ground.Built
import AntContest.Proofs.Text.Cutting

/-! # The grammar of brains

The grammar is stated here as relations on the words of a line and on the lines of a text, apart
from the reader.

* `Condition.WrittenAs` and `Instruction.WrittenAs` are the grammar of a line, with one rule for
  each instruction.
* `Kept` says which lines of a text hold an instruction, or should, and which words stand in them;
  a line is `Bad` if these words are none of any instruction.
* `Listing` is the program in the lines of a text, and `FirstBad` the number of the first bad one.

Each part of the reader finds exactly what the relation for it says: `readCondition_eq_ok_iff` and
its neighbours for the operands, `ofWords_eq_ok_iff`, `kept_iff`, `readLines_eq_ok_iff` and
`exists_atLine_iff`.

`brain_grammar` puts this together: what is read is what the grammar says, and what is refused is
refused for its first bad line, or else because there are no instructions or too many. -/

namespace AntContest

open Text

/-! ### The grammar of a line -/

/-- The words of a condition: a fixed word, or the marker word and a number, together or apart. -/
inductive Condition.WrittenAs : Condition → List (List Char) → Prop
  | plain {condition : Condition} {word : String} : (condition, word) ∈ plain →
      WrittenAs condition [word.toList]
  | joined {m : Marker} {number : List Char} : Numeral number m.val →
      WrittenAs (.marker m) [markerWord.toList ++ number]
  | apart {m : Marker} {number : List Char} : Numeral number m.val →
      WrittenAs (.marker m) [markerWord.toList, number]

/-- The words of an instruction. -/
inductive Instruction.WrittenAs : Instruction → List (List Char) → Prop
  | sense {view : View} {onTrue onFalse : StateIndex} {condition : Condition} {a b : List Char}
      {ws : List (List Char)} : Numeral a onTrue.val → Numeral b onFalse.val →
      condition.WrittenAs ws → WrittenAs (.sense view onTrue onFalse condition)
        (Opcode.sense.word.toList :: view.word.toList :: a :: b :: ws)
  | mark {m : Marker} {next : StateIndex} {a b : List Char} : Numeral a m.val →
      Numeral b next.val → WrittenAs (.mark m next) [Opcode.mark.word.toList, a, b]
  | unmark {m : Marker} {next : StateIndex} {a b : List Char} : Numeral a m.val →
      Numeral b next.val → WrittenAs (.unmark m next) [Opcode.unmark.word.toList, a, b]
  | pickUp {onSuccess onFailure : StateIndex} {a b : List Char} : Numeral a onSuccess.val →
      Numeral b onFailure.val →
      WrittenAs (.pickUp onSuccess onFailure) [Opcode.pickUp.word.toList, a, b]
  | drop {next : StateIndex} {a : List Char} : Numeral a next.val →
      WrittenAs (.drop next) [Opcode.drop.word.toList, a]
  | turn {side : TurnSide} {next : StateIndex} {a : List Char} : Numeral a next.val →
      WrittenAs (.turn side next) [Opcode.turn.word.toList, side.word.toList, a]
  | move {onSuccess onFailure : StateIndex} {a b : List Char} : Numeral a onSuccess.val →
      Numeral b onFailure.val →
      WrittenAs (.move onSuccess onFailure) [Opcode.move.word.toList, a, b]
  | flip {die : Die} {onZero onOther : StateIndex} {a b c : List Char} :
      Numeral a die.val.toNat → Numeral b onZero.val → Numeral c onOther.val →
      WrittenAs (.flip die onZero onOther) [Opcode.flip.word.toList, a, b, c]

/-! ### Operands -/

namespace Operand

theorem orBad_eq_ok_iff {α : Type} {operand : Operand} {w : List Char} {o : Option α} {a : α} :
    operand.orBad w o = .ok a ↔ o = some a := by
  cases o <;> simp [orBad]

theorem natBelow?_bind_eq_some_iff {limit k : Nat} (hk : k ≤ limit) {w : List Char} {i : Fin k} :
    ((natBelow? limit w).bind fun n => if h : n < k then some ⟨n, h⟩ else none) = some i ↔
      Numeral w i.val := by
  rw [Option.bind_eq_some_iff]
  constructor
  · rintro ⟨n, hn, hi⟩
    split at hi <;> cases hi
    exact (natBelow?_eq_some_iff.mp hn).1
  · intro h
    exact ⟨i.val, natBelow?_eq_some_iff.mpr ⟨h, i.isLt.trans_le hk⟩, dif_pos i.isLt⟩

theorem readState_eq_ok_iff {w : List Char} {s : StateIndex} :
    readState w = .ok s ↔ Numeral w s.val :=
  orBad_eq_ok_iff.trans (natBelow?_bind_eq_some_iff (by decide))

theorem readMarker_eq_ok_iff {w : List Char} {m : Marker} :
    readMarker w = .ok m ↔ Numeral w m.val :=
  orBad_eq_ok_iff.trans (natBelow?_bind_eq_some_iff (by decide))

theorem readDie_eq_ok_iff {w : List Char} {die : Die} :
    readDie w = .ok die ↔ Numeral w die.val.toNat := by
  rw [readDie, orBad_eq_ok_iff, Option.bind_eq_some_iff]
  constructor
  · rintro ⟨n, hn, hdie⟩
    obtain ⟨hnumeral, hlt⟩ := natBelow?_eq_some_iff.mp hn
    split at hdie <;> cases hdie
    rw [UInt32.toNat_ofNat_of_lt' hlt]
    exact hnumeral
  · intro h
    have hval : UInt32.ofNat die.val.toNat = die.val := UInt32.ofNat_toNat
    have hsome : UInt32.ofNat die.val.toNat ≠ 0 := by
      rw [hval]
      exact die.property
    refine ⟨die.val.toNat, natBelow?_eq_some_iff.mpr ⟨h, die.val.toNat_lt⟩, ?_⟩
    rw [dif_pos hsome]
    exact congrArg some (Subtype.ext hval)

theorem readView_eq_ok_iff {w : List Char} {view : View} :
    readView w = .ok view ↔ w = view.word.toList := by
  rw [readView, orBad_eq_ok_iff]
  constructor
  · intro h
    exact (eq_of_beq (List.find?_some h :)).symm
  · rintro rfl
    exact View.ofWord?_word view

theorem readSide_eq_ok_iff {w : List Char} {side : TurnSide} :
    readSide w = .ok side ↔ w = side.word.toList := by
  rw [readSide, orBad_eq_ok_iff]
  constructor
  · intro h
    exact (eq_of_beq (List.find?_some h :)).symm
  · rintro rfl
    exact TurnSide.ofWord?_word side

theorem ofPlainWord?_markerWord_append (number : List Char) :
    Condition.ofPlainWord? (Condition.markerWord.toList ++ number) = none := by
  have hplain : ∀ entry ∈ Condition.plain,
      ¬ (entry.2.toList == Condition.markerWord.toList ++ number) = true := by
    intro entry hentry
    simp only [Condition.plain, List.mem_cons, List.not_mem_nil, or_false] at hentry
    rcases hentry with rfl | rfl | rfl | rfl | rfl | rfl | rfl | rfl | rfl <;>
      simp [Condition.markerWord]
  rw [Condition.ofPlainWord?, List.find?_eq_none.mpr hplain]
  rfl

theorem ofPlainWord?_eq_some_iff {w : List Char} {condition : Condition} :
    Condition.ofPlainWord? w = some condition ↔
      ∃ word, (condition, word) ∈ Condition.plain ∧ w = word.toList := by
  constructor
  · intro h
    obtain ⟨⟨c, word⟩, hfind, rfl⟩ := Option.map_eq_some_iff.mp h
    exact ⟨word, List.mem_of_find?_eq_some hfind, (eq_of_beq (List.find?_some hfind :)).symm⟩
  · rintro ⟨word, hmem, rfl⟩
    simp only [Condition.plain, List.mem_cons, Prod.mk.injEq, List.not_mem_nil, or_false] at hmem
    rcases hmem with ⟨rfl, rfl⟩ | ⟨rfl, rfl⟩ | ⟨rfl, rfl⟩ | ⟨rfl, rfl⟩ | ⟨rfl, rfl⟩ | ⟨rfl, rfl⟩ |
      ⟨rfl, rfl⟩ | ⟨rfl, rfl⟩ | ⟨rfl, rfl⟩ <;> rfl

theorem markerSuffix?_eq_some_iff {w number : List Char} :
    markerSuffix? w = some number ↔ number ≠ [] ∧ w = Condition.markerWord.toList ++ number := by
  constructor
  · intro h
    unfold markerSuffix? at h
    dsimp only at h
    split at h <;> cases h
    next hkey =>
    obtain ⟨hfront, hlength⟩ := Bool.and_eq_true_iff.mp hkey
    obtain ⟨number, rfl⟩ := List.isPrefixOf_iff_prefix.mp hfront
    rw [List.drop_left]
    refine ⟨?_, rfl⟩
    rintro rfl
    simp at hlength
  · rintro ⟨hnumber, rfl⟩
    exact markerSuffix?_append hnumber

theorem readCondition_eq_ok_iff {w : List Char} {condition : Condition} :
    readCondition w = .ok condition ↔ condition.WrittenAs [w] := by
  unfold readCondition
  constructor
  · intro h
    split at h
    · next c hplain =>
      cases h
      obtain ⟨word, hmem, rfl⟩ := ofPlainWord?_eq_some_iff.mp hplain
      exact .plain hmem
    · split at h
      · next number hsuffix =>
        obtain ⟨-, rfl⟩ := markerSuffix?_eq_some_iff.mp hsuffix
        cases hm : readMarker number with
        | error e =>
          rw [hm] at h
          cases h
        | ok m =>
          rw [hm] at h
          cases h
          exact .joined (readMarker_eq_ok_iff.mp hm)
      · cases h
  · intro h
    cases h with
    | plain hmem => rw [ofPlainWord?_eq_some_iff.mpr ⟨_, hmem, rfl⟩]
    | joined hnumber =>
      rw [ofPlainWord?_markerWord_append,
        markerSuffix?_eq_some_iff.mpr ⟨hnumber.ne_nil, rfl⟩]
      dsimp only
      rw [readMarker_eq_ok_iff.mpr hnumber]
      rfl

end Operand

/-! ### Instructions -/

namespace Instruction

open Operand

theorem writtenAs_of_ofOperands {opcode : Opcode} {operands : List (List Char)}
    {instruction : Instruction} (h : ofOperands opcode operands = .ok instruction) :
    instruction.WrittenAs (opcode.word.toList :: operands) := by
  unfold ofOperands at h
  split at h
  · dsimp only at h
    split at h
    · cases h
    · obtain ⟨condition, hcondition, h⟩ := ok_of_bind h
      obtain ⟨view, hview, h⟩ := ok_of_bind h
      obtain ⟨onTrue, onFalse, htrue, hfalse, rfl⟩ := ok_of_bind₂ h
      obtain rfl := readView_eq_ok_iff.mp hview
      exact .sense (readState_eq_ok_iff.mp htrue) (readState_eq_ok_iff.mp hfalse)
        (readCondition_eq_ok_iff.mp hcondition)
  · dsimp only at h
    split at h
    · cases h
    · next hkey =>
      obtain rfl := not_not.mp hkey
      obtain ⟨m, hm, h⟩ := ok_of_bind h
      obtain ⟨view, hview, h⟩ := ok_of_bind h
      obtain ⟨onTrue, onFalse, htrue, hfalse, rfl⟩ := ok_of_bind₂ h
      obtain rfl := readView_eq_ok_iff.mp hview
      exact .sense (readState_eq_ok_iff.mp htrue) (readState_eq_ok_iff.mp hfalse)
        (.apart (readMarker_eq_ok_iff.mp hm))
  · cases h
  · obtain ⟨m, next, hm, hnext, rfl⟩ := ok_of_bind₂ h
    exact .mark (readMarker_eq_ok_iff.mp hm) (readState_eq_ok_iff.mp hnext)
  · obtain ⟨m, next, hm, hnext, rfl⟩ := ok_of_bind₂ h
    exact .unmark (readMarker_eq_ok_iff.mp hm) (readState_eq_ok_iff.mp hnext)
  · obtain ⟨onSuccess, onFailure, hsuccess, hfailure, rfl⟩ := ok_of_bind₂ h
    exact .pickUp (readState_eq_ok_iff.mp hsuccess) (readState_eq_ok_iff.mp hfailure)
  · obtain ⟨next, hnext, h⟩ := ok_of_bind h
    cases h
    exact .drop (readState_eq_ok_iff.mp hnext)
  · obtain ⟨side, next, hside, hnext, rfl⟩ := ok_of_bind₂ h
    obtain rfl := readSide_eq_ok_iff.mp hside
    exact .turn (readState_eq_ok_iff.mp hnext)
  · obtain ⟨onSuccess, onFailure, hsuccess, hfailure, rfl⟩ := ok_of_bind₂ h
    exact .move (readState_eq_ok_iff.mp hsuccess) (readState_eq_ok_iff.mp hfailure)
  · obtain ⟨die, hdie, h⟩ := ok_of_bind h
    obtain ⟨onZero, onOther, hzero, hother, rfl⟩ := ok_of_bind₂ h
    exact .flip (readDie_eq_ok_iff.mp hdie) (readState_eq_ok_iff.mp hzero)
      (readState_eq_ok_iff.mp hother)
  · cases h
  · cases h
  · cases h

theorem ofOperands_sense_of_writtenAs {view : View} {onTrue onFalse : StateIndex}
    {condition : Condition} {a b : List Char} {ws : List (List Char)}
    (ha : Numeral a onTrue.val) (hb : Numeral b onFalse.val) (h : condition.WrittenAs ws) :
    ofOperands .sense (view.word.toList :: a :: b :: ws) =
      .ok (.sense view onTrue onFalse condition) := by
  have ha := readState_eq_ok_iff.mpr ha
  have hb := readState_eq_ok_iff.mpr hb
  have hone {w : List Char} (hw : condition.WrittenAs [w])
      (hne : w ≠ Condition.markerWord.toList) : ofOperands .sense [view.word.toList, a, b, w] =
        .ok (.sense view onTrue onFalse condition) := by
    simp only [ofOperands, if_neg hne, readCondition_eq_ok_iff.mpr hw, readView_word, ha, hb]
    rfl
  cases h with
  | plain hmem =>
    refine hone (.plain hmem) fun hword => ?_
    have hplain := ofPlainWord?_eq_some_iff.mpr ⟨_, hmem, rfl⟩
    rw [hword] at hplain
    cases hplain
  | joined hnumber =>
    exact hone (.joined hnumber) fun hword =>
      hnumber.ne_nil (List.append_right_eq_self.mp hword)
  | apart hnumber =>
    simp only [ofOperands, readMarker_eq_ok_iff.mpr hnumber, readView_word, ha, hb]
    rfl

/-- The words of an instruction are read as that instruction. -/
theorem ofWords_of_writtenAs {instruction : Instruction} {ws : List (List Char)}
    (h : instruction.WrittenAs ws) : ofWords ws = .ok (some instruction) := by
  cases h with
  | sense ha hb h =>
    rw [ofWords, Opcode.ofWord?_word]
    dsimp only
    rw [ofOperands_sense_of_writtenAs ha hb h]
    rfl
  | mark ha hb =>
    simp only [ofWords, Opcode.ofWord?_word, ofOperands, readMarker_eq_ok_iff.mpr ha,
      readState_eq_ok_iff.mpr hb]
    rfl
  | unmark ha hb =>
    simp only [ofWords, Opcode.ofWord?_word, ofOperands, readMarker_eq_ok_iff.mpr ha,
      readState_eq_ok_iff.mpr hb]
    rfl
  | pickUp ha hb =>
    simp only [ofWords, Opcode.ofWord?_word, ofOperands, readState_eq_ok_iff.mpr ha,
      readState_eq_ok_iff.mpr hb]
    rfl
  | drop ha =>
    simp only [ofWords, Opcode.ofWord?_word, ofOperands, readState_eq_ok_iff.mpr ha]
    rfl
  | turn ha =>
    simp only [ofWords, Opcode.ofWord?_word, ofOperands, readSide_word,
      readState_eq_ok_iff.mpr ha]
    rfl
  | move ha hb =>
    simp only [ofWords, Opcode.ofWord?_word, ofOperands, readState_eq_ok_iff.mpr ha,
      readState_eq_ok_iff.mpr hb]
    rfl
  | flip ha hb hc =>
    simp only [ofWords, Opcode.ofWord?_word, ofOperands, readDie_eq_ok_iff.mpr ha,
      readState_eq_ok_iff.mpr hb, readState_eq_ok_iff.mpr hc]
    rfl

theorem ofWords_eq_ok_iff {instruction : Instruction} {ws : List (List Char)} :
    ofWords ws = .ok (some instruction) ↔ instruction.WrittenAs ws := by
  refine ⟨fun h => ?_, ofWords_of_writtenAs⟩
  cases ws with
  | nil => cases h
  | cons word operands =>
    unfold ofWords at h
    dsimp only at h
    split at h
    · cases h
    · next opcode hopcode =>
      obtain rfl : opcode.word.toList = word := eq_of_beq (List.find?_some hopcode :)
      cases hread : ofOperands opcode operands with
      | error e =>
        rw [hread] at h
        cases h
      | ok i =>
        rw [hread] at h
        cases h
        exact writtenAs_of_ofOperands hread

theorem ofWords_eq_none_iff {ws : List (List Char)} : ofWords ws = .ok none ↔ ws = [] := by
  refine ⟨fun h => ?_, ?_⟩
  · cases ws with
    | nil => rfl
    | cons word operands =>
      unfold ofWords at h
      dsimp only at h
      split at h
      · cases h
      · next opcode _ =>
        cases hread : ofOperands opcode operands <;> rw [hread] at h <;> cases h
  · rintro rfl
    rfl

end Instruction

/-! ### Lines -/

namespace Brain

/-- The first visible character of a line is `#`. -/
def HashLine (code : List Char) : Prop :=
  ∃ blanks rest, code = blanks ++ '#' :: rest ∧ ∀ c ∈ blanks, isBlank c = true

/-- The words of a line that is kept, in upper case: there are some in front of its first semicolon,
and the first visible character is not `#`. -/
def Kept (line : List Char) (ws : List (List Char)) : Prop :=
  ∃ code tokens, CutAt ';' line code ∧ ¬ HashLine code ∧ WordsOf code tokens ∧ tokens ≠ [] ∧
    ws = tokens.map (·.map Char.toUpper)

/-- A line that is kept has the words of no instruction. -/
def Bad (line : List Char) : Prop :=
  ∃ ws, Kept line ws ∧ ∀ instruction : Instruction, ¬ instruction.WrittenAs ws

/-- The instructions in the lines that are kept, in their order. -/
inductive Listing : List (List Char) → List Instruction → Prop
  | nil : Listing [] []
  | skip {line : List Char} {ls : List (List Char)} {program : List Instruction} :
      (∀ ws, ¬ Kept line ws) → Listing ls program → Listing (line :: ls) program
  | instruction {line : List Char} {ws ls : List (List Char)} {instruction : Instruction}
      {program : List Instruction} : Kept line ws → instruction.WrittenAs ws →
      Listing ls program → Listing (line :: ls) (instruction :: program)

/-- The number of the first bad line, counted from one. -/
def FirstBad (ls : List (List Char)) (n : Nat) : Prop :=
  ∃ i line, n = i + 1 ∧ ls[i]? = some line ∧ Bad line ∧
    ∀ j < i, ∀ other, ls[j]? = some other → ¬ Bad other

theorem hashLine_iff {code : List Char} : HashLine code ↔ (dropBlanks code).head? = some '#' := by
  constructor
  · rintro ⟨blanks, rest, rfl, hblanks⟩
    rw [dropBlanks, List.dropWhile_append_of_pos hblanks]
    rfl
  · intro h
    obtain ⟨blanks, hcode, hblanks, -⟩ := dropWhile_eq_iff.mp (rfl : dropBlanks code = _)
    obtain ⟨rest, hrest⟩ := List.head?_eq_some_iff.mp h
    exact ⟨blanks, rest, by rw [← hrest]; exact hcode, hblanks⟩

theorem lineWords_eq (line : List Char) : lineWords line =
    if (dropBlanks (before ';' line)).head? = some '#' then []
    else (words (before ';' line)).map (·.map Char.toUpper) := by
  rw [← words_map isGap_toUpper]
  rfl

theorem kept_iff {line : List Char} {ws : List (List Char)} :
    Kept line ws ↔ lineWords line = ws ∧ ws ≠ [] := by
  rw [lineWords_eq]
  constructor
  · rintro ⟨code, tokens, hcode, hhash, htokens, hne, rfl⟩
    obtain rfl := cutAt_iff.mp hcode
    obtain rfl := wordsOf_iff.mp htokens
    rw [if_neg (hashLine_iff.not.mp hhash)]
    exact ⟨rfl, by simpa using hne⟩
  · rintro ⟨rfl, hne⟩
    split at hne
    · exact absurd rfl hne
    · next hhash =>
      rw [if_neg hhash]
      exact ⟨_, _, cutAt_before _ _, hashLine_iff.not.mpr hhash, wordsOf_words _,
        by simpa using hne, rfl⟩

/-- A line that is not kept is skipped. -/
theorem lineWords_eq_nil {line : List Char} (h : ∀ ws, ¬ Kept line ws) : lineWords line = [] := by
  by_contra hne
  exact h _ (kept_iff.mpr ⟨rfl, hne⟩)

theorem bad_iff {line : List Char} :
    Bad line ↔ ∃ cause, Instruction.ofWords (lineWords line) = .error cause := by
  constructor
  · rintro ⟨ws, hkept, hnone⟩
    obtain ⟨rfl, hne⟩ := kept_iff.mp hkept
    cases hread : Instruction.ofWords (lineWords line) with
    | error cause => exact ⟨cause, rfl⟩
    | ok instruction? =>
      cases instruction? with
      | none => exact absurd (Instruction.ofWords_eq_none_iff.mp hread) hne
      | some instruction => exact absurd (Instruction.ofWords_eq_ok_iff.mp hread) (hnone _)
  · rintro ⟨cause, hread⟩
    refine ⟨lineWords line, kept_iff.mpr ⟨rfl, fun hnil => ?_⟩, fun instruction hwritten => ?_⟩
    · rw [hnil] at hread
      cases hread
    · rw [Instruction.ofWords_of_writtenAs hwritten] at hread
      cases hread

/-! ### Texts -/

theorem readLines_of_listing {ls : List (List Char)} {program : List Instruction}
    (h : Listing ls program) (n : Nat) : readLines n ls = .ok program := by
  induction h generalizing n with
  | nil => rfl
  | skip hskip _ ih =>
    rw [readLines, lineWords_eq_nil hskip]
    exact ih (n + 1)
  | instruction hkept hwritten _ ih =>
    rw [readLines, (kept_iff.mp hkept).1, Instruction.ofWords_of_writtenAs hwritten]
    dsimp only
    rw [ih (n + 1)]
    rfl

theorem readLines_eq_ok_iff {n : Nat} {ls : List (List Char)} {program : List Instruction} :
    readLines n ls = .ok program ↔ Listing ls program := by
  refine ⟨fun h => ?_, fun h => readLines_of_listing h n⟩
  induction ls generalizing n program with
  | nil =>
    cases h
    exact .nil
  | cons line ls ih =>
    unfold readLines at h
    split at h
    · cases h
    · next hread =>
      refine .skip (fun ws hkept => ?_) (ih h)
      obtain ⟨rfl, hne⟩ := kept_iff.mp hkept
      exact hne (Instruction.ofWords_eq_none_iff.mp hread)
    · next instruction hread =>
      cases hrest : readLines (n + 1) ls with
      | error e =>
        rw [hrest] at h
        cases h
      | ok rest =>
        rw [hrest] at h
        cases h
        have hwritten := Instruction.ofWords_eq_ok_iff.mp hread
        refine .instruction (kept_iff.mpr ⟨rfl, fun hnil => ?_⟩) hwritten (ih hrest)
        rw [hnil] at hwritten
        cases hwritten

theorem readLines_eq_error_iff {ls : List (List Char)} {e : BrainError} :
    readLines 1 ls = .error e ↔ ∃ i line, ls[i]? = some line ∧
      (∃ cause, Instruction.ofWords (lineWords line) = .error cause ∧ e = .atLine (i + 1) cause) ∧
      ∀ j < i, ∀ other, ls[j]? = some other → ¬ Bad other := by
  have hgood (n : Nat) (line : List Char) :
      (∀ e', ¬ ∃ cause, Instruction.ofWords (lineWords line) = .error cause ∧
        e' = BrainError.atLine n cause) ↔ ¬ Bad line := by
    rw [bad_iff, not_exists]
    exact ⟨fun h cause hcause => h _ ⟨cause, hcause, rfl⟩,
      fun h e' ⟨cause, hcause, _⟩ => h cause hcause⟩
  rw [eq_error_iff_first readLines fun n line e =>
    ∃ cause, Instruction.ofWords (lineWords line) = .error cause ∧ e = BrainError.atLine n cause]
  · simp only [hgood, Nat.add_comm 1]
  · simp [readLines]
  · intro n line ls e
    rw [readLines]
    split
    · next hread => simp [hread, eq_comm]
    · next hread => simp [hread]
    · next hread =>
      cases readLines (n + 1) ls <;> simp [hread, Except.map]

theorem exists_atLine_iff {ls : List (List Char)} {n : Nat} :
    (∃ cause, readLines 1 ls = .error (.atLine n cause)) ↔ FirstBad ls n := by
  constructor
  · rintro ⟨cause, h⟩
    obtain ⟨i, line, hline, ⟨cause', hcause, he⟩, hbefore⟩ := readLines_eq_error_iff.mp h
    cases he
    exact ⟨i, line, rfl, hline, bad_iff.mpr ⟨cause, hcause⟩, hbefore⟩
  · rintro ⟨i, line, rfl, hline, hbad, hbefore⟩
    obtain ⟨cause, hcause⟩ := bad_iff.mp hbad
    exact ⟨cause, readLines_eq_error_iff.mpr ⟨i, line, hline, ⟨cause, hcause, rfl⟩, hbefore⟩⟩

theorem Listing.not_bad {ls : List (List Char)} {program : List Instruction}
    (h : Listing ls program) : ∀ line ∈ ls, ¬ Bad line := by
  induction h with
  | nil => simp
  | skip hskip _ ih =>
    exact List.forall_mem_cons.mpr ⟨fun ⟨ws, hkept, _⟩ => hskip ws hkept, ih⟩
  | instruction hkept hwritten _ ih =>
    refine List.forall_mem_cons.mpr ⟨fun ⟨ws, hkept', hnone⟩ => ?_, ih⟩
    obtain rfl := (kept_iff.mp hkept').1.symm.trans (kept_iff.mp hkept).1
    exact hnone _ hwritten

section OfStates

variable {name : String} {program : List Instruction}

theorem ofStates_eq_ok_iff {b : Brain} :
    ofStates name program.toArray = .ok b ↔ b.name = name ∧ b.states.toList = program := by
  constructor
  · intro h
    unfold ofStates at h
    split at h
    · split at h <;> cases h
      exact ⟨rfl, rfl⟩
    · cases h
  · rintro ⟨rfl, rfl⟩
    exact b.ofStates_states

theorem ofStates_eq_error_iff {e : BrainError} :
    ofStates name program.toArray = .error e ↔ program = [] ∧ e = .noStates ∨
      stateLimit < program.length ∧ e = .tooManyStates program.length := by
  unfold ofStates
  simp only [List.size_toArray]
  split
  · next hpos =>
    have hne : program ≠ [] := List.length_pos_iff.mp hpos
    split
    · next hle => simp [hne, Nat.not_lt_of_le hle]
    · next hlong => simp [hne, Nat.lt_of_not_le hlong, eq_comm]
  · next hnil =>
    obtain rfl : program = [] := List.length_eq_zero_iff.mp (Nat.eq_zero_of_not_pos hnil)
    simp [eq_comm]

end OfStates

section Read

variable {name text : String}

theorem read_eq_ok_iff {b : Brain} :
    read name text = .ok b ↔ b.name = name ∧ Listing (lines text.toList) b.states.toList := by
  constructor
  · intro h
    obtain ⟨program, hprogram, h⟩ := ok_of_bind h
    obtain ⟨hname, rfl⟩ := ofStates_eq_ok_iff.mp h
    exact ⟨hname, readLines_eq_ok_iff.mp hprogram⟩
  · rintro ⟨rfl, hlisting⟩
    unfold read
    rw [readLines_of_listing hlisting]
    exact b.ofStates_states

theorem read_eq_error_iff {e : BrainError} :
    read name text = .error e ↔ readLines 1 (lines text.toList) = .error e ∨
      ∃ program, Listing (lines text.toList) program ∧
        (program = [] ∧ e = .noStates ∨
          stateLimit < program.length ∧ e = .tooManyStates program.length) := by
  have hstates (program : List Instruction) : ofStates name program.toArray = .error e ↔
      program = [] ∧ e = .noStates ∨
        stateLimit < program.length ∧ e = .tooManyStates program.length := ofStates_eq_error_iff
  simp only [← readLines_eq_ok_iff (n := 1), ← hstates]
  unfold read
  cases readLines 1 (lines text.toList) with
  | error e' => simp [bind, Except.bind]
  | ok program => simp [bind, Except.bind]

theorem read_eq_atLine_iff {n : Nat} :
    (∃ cause, read name text = .error (.atLine n cause)) ↔ FirstBad (lines text.toList) n := by
  rw [← exists_atLine_iff]
  simp [read_eq_error_iff]

theorem exists_atLine_of_readLines {ls : List (List Char)} {e : BrainError}
    (h : readLines 1 ls = .error e) : ∃ n cause, e = .atLine (n + 1) cause := by
  obtain ⟨i, -, -, ⟨cause, -, he⟩, -⟩ := readLines_eq_error_iff.mp h
  exact ⟨i, cause, he⟩

theorem read_eq_noStates_iff :
    read name text = .error .noStates ↔ Listing (lines text.toList) [] := by
  rw [read_eq_error_iff]
  constructor
  · rintro (h | ⟨program, hprogram, ⟨rfl, -⟩ | ⟨-, he⟩⟩)
    · obtain ⟨n, cause, he⟩ := exists_atLine_of_readLines h
      cases he
    · exact hprogram
    · cases he
  · exact fun h => .inr ⟨[], h, .inl ⟨rfl, rfl⟩⟩

theorem read_eq_tooManyStates_iff {count : Nat} :
    read name text = .error (.tooManyStates count) ↔
      ∃ program, Listing (lines text.toList) program ∧ program.length = count ∧
        stateLimit < count := by
  rw [read_eq_error_iff]
  constructor
  · rintro (h | ⟨program, hprogram, ⟨-, he⟩ | ⟨hlong, he⟩⟩)
    · obtain ⟨n, cause, he⟩ := exists_atLine_of_readLines h
      cases he
    · cases he
    · cases he
      exact ⟨program, hprogram, rfl, hlong⟩
  · rintro ⟨program, hprogram, rfl, hlong⟩
    exact .inr ⟨program, hprogram, .inr ⟨hlong, rfl⟩⟩

/-- An error is about the program as a whole only if no line is bad. -/
theorem line_eq_zero_iff {e : BrainError} (h : read name text = .error e) :
    e.line = 0 ↔ ∀ line ∈ lines text.toList, ¬ Bad line := by
  rcases read_eq_error_iff.mp h with hlines | ⟨program, hprogram, ⟨-, rfl⟩ | ⟨-, rfl⟩⟩
  · obtain ⟨i, line, hline, ⟨cause, hcause, rfl⟩, -⟩ := readLines_eq_error_iff.mp hlines
    have hbad : Bad line := bad_iff.mpr ⟨cause, hcause⟩
    exact iff_of_false (Nat.succ_ne_zero i) fun hgood =>
      hgood line (List.mem_of_getElem? hline) hbad
  · exact iff_of_true rfl hprogram.not_bad
  · exact iff_of_true rfl hprogram.not_bad

end Read

/-- A text falls into lines in one way.  It is read as a brain exactly if an instruction is written
in each line that is kept, and there are one to ten thousand of these; the brain has just these
instructions, in their order.  Any other text is refused for its first bad line, whatever follows
it, and only if no line is bad for the number of its instructions. -/
theorem brain_grammar (name text : String) : ∃ ls, (∀ ls', LinesOf text.toList ls' ↔ ls' = ls) ∧
    ((∃ b, read name text = .ok b) ↔
      ∃ program, Listing ls program ∧ 1 ≤ program.length ∧ program.length ≤ 10000) ∧
    (∀ b, read name text = .ok b ↔ b.name = name ∧ Listing ls b.states.toList) ∧
    (∀ n, (∃ cause, read name text = .error (.atLine n cause)) ↔ FirstBad ls n) ∧
    (read name text = .error .noStates ↔ Listing ls []) ∧
    (∀ count, read name text = .error (.tooManyStates count) ↔
      ∃ program, Listing ls program ∧ program.length = count ∧ 10000 < count) ∧
    ∀ e, read name text = .error e → (e.line = 0 ↔ ∀ line ∈ ls, ¬ Bad line) := by
  refine ⟨lines text.toList, fun ls' => linesOf_iff.trans eq_comm, ⟨?_, ?_⟩,
    fun b => read_eq_ok_iff, fun n => read_eq_atLine_iff, read_eq_noStates_iff,
    fun count => read_eq_tooManyStates_iff, fun e => line_eq_zero_iff⟩
  · rintro ⟨b, hread⟩
    exact ⟨b.states.toList, (read_eq_ok_iff.mp hread).2, b.size_pos, b.size_le⟩
  · rintro ⟨program, hprogram, hpos, hle⟩
    exact ⟨⟨name, program.toArray, hpos, hle⟩, read_eq_ok_iff.mpr ⟨rfl, hprogram⟩⟩

/-- For example with a vertical tab in front of `#`, which is blank, and with plus signs in front of
numbers; and with two bad lines, of which the first is blamed. -/
example :
    (read "scout" "move 0 0 ; on\n\x0b# not kept\nSense here 1 +2 Marker+5").isOk = true ∧
      read "scout" "drop 0\ndrop\nfly" = .error (.atLine 2 (.wordCount .drop 2 1)) := by
  decide +kernel

end Brain

end AntContest
