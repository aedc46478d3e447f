import AntContest.Brain.Reader
import AntContest.Brain.Source
import AntContest.Proofs.Text.Layout
import Mathlib.Data.List.TakeWhile

/-! # The canonical text of a brain is read back

Every word of a canonical text is plain (`PlainWord`).  Such words are left alone by all that the
reader does to a line before it looks at the words (`lineWords_unwords`).

* `ofWords_wordsOf`: the words of an instruction's line give the instruction back.
* `read_source`: the canonical text of a brain gives the brain back, whatever its name. -/

namespace AntContest

open Text

/-! ### Lines of plain words -/

theorem mem_unwords {ws : List (List Char)} (h : ∀ w ∈ ws, PlainWord w) {c : Char}
    (hc : c ∈ unwords ws) : IsPlain c ∨ c = ' ' := by
  induction ws with
  | nil => cases hc
  | cons w ws ih =>
    have hw := (h w List.mem_cons_self).2
    cases ws with
    | nil =>
      rw [unwords, List.intercalate_singleton] at hc
      exact .inl (hw c hc)
    | cons v ws =>
      rw [unwords, List.intercalate_cons_cons, List.mem_append, List.mem_append] at hc
      rcases hc with (hc | hc) | hc
      · exact .inl (hw c hc)
      · exact .inr (List.mem_singleton.mp hc)
      · exact ih (fun u hu => h u (List.mem_cons_of_mem w hu)) hc

theorem ne_of_mem_unwords {ws : List (List Char)} (h : ∀ w ∈ ws, PlainWord w) {c d : Char}
    (hc : c ∈ unwords ws) (hd : ¬ IsPlain d) (hspace : d ≠ ' ') : c ≠ d := by
  rintro rfl
  exact (mem_unwords h hc).elim hd hspace

/-- What the reader does to a line before it looks at the words leaves plain words alone. -/
theorem lineWords_unwords {ws : List (List Char)} (h : ∀ w ∈ ws, PlainWord w) :
    Brain.lineWords (unwords ws) = ws := by
  have hbefore : before ';' (unwords ws) = unwords ws := by
    rw [before, List.takeWhile_eq_self_iff]
    intro c hc
    simpa using ne_of_mem_unwords h hc (by decide) (by decide)
  have hcomment : (dropBlanks (unwords ws)).head? ≠ some '#' := by
    intro hhead
    have hmem := (List.dropWhile_suffix _).subset (List.mem_of_head? hhead)
    exact ne_of_mem_unwords h hmem (by decide) (by decide) rfl
  have hupper : (unwords ws).map Char.toUpper = unwords ws := by
    refine (List.map_congr_left fun c hc => ?_).trans (List.map_id _)
    rcases mem_unwords h hc with hplain | rfl
    · exact toUpper_of_isPlain hplain
    · rfl
  unfold Brain.lineWords
  simp only [hbefore, if_neg hcomment, hupper]
  exact words_unwords fun w hw => (h w hw).isWord

theorem isLine_unwords {ws : List (List Char)} (h : ∀ w ∈ ws, PlainWord w) :
    IsLine (unwords ws) :=
  isLine_of_forall fun _ hc => ⟨ne_of_mem_unwords h hc (by decide) (by decide),
    ne_of_mem_unwords h hc (by decide) (by decide)⟩

/-! ### Words of instructions -/

def Condition.wordsOf : Condition → List (List Char)
  | .marker m => [markerWord.toList, digits m.val]
  | condition => [condition.text.toList]

def Instruction.wordsOf : Instruction → List (List Char)
  | .sense view onTrue onFalse condition =>
    [Opcode.sense.word.toList, view.word.toList, digits onTrue.val, digits onFalse.val] ++
      condition.wordsOf
  | .mark m next => [Opcode.mark.word.toList, digits m.val, digits next.val]
  | .unmark m next => [Opcode.unmark.word.toList, digits m.val, digits next.val]
  | .pickUp onSuccess onFailure =>
    [Opcode.pickUp.word.toList, digits onSuccess.val, digits onFailure.val]
  | .drop next => [Opcode.drop.word.toList, digits next.val]
  | .turn side next => [Opcode.turn.word.toList, side.word.toList, digits next.val]
  | .move onSuccess onFailure =>
    [Opcode.move.word.toList, digits onSuccess.val, digits onFailure.val]
  | .flip die onZero onOther =>
    [Opcode.flip.word.toList, digits die.val.toNat, digits onZero.val, digits onOther.val]

theorem toList_text (instruction : Instruction) :
    instruction.text.toList = unwords instruction.wordsOf := by
  cases instruction with
  | sense view onTrue onFalse condition =>
    cases condition <;>
      simp [Instruction.text, Instruction.wordsOf, Condition.wordsOf, Condition.text, unwords,
        digits, toString_text]
  | _ => simp [Instruction.text, Instruction.wordsOf, unwords, digits, toString_text]

theorem plainWord_opcode (opcode : Opcode) : PlainWord opcode.word.toList := by
  cases opcode <;> decide

theorem plainWord_wordsOf (instruction : Instruction) :
    ∀ w ∈ instruction.wordsOf, PlainWord w := by
  have hview (view : View) : PlainWord view.word.toList := by cases view <;> decide
  have hside (side : TurnSide) : PlainWord side.word.toList := by cases side <;> decide
  have hcondition (condition : Condition) : ∀ w ∈ condition.wordsOf, PlainWord w := by
    cases condition with
    | marker m =>
      simp only [Condition.wordsOf, List.forall_mem_cons]
      exact ⟨by decide, plainWord_digits _, by simp⟩
    | _ => decide
  cases instruction with
  | sense view onTrue onFalse condition =>
    simp only [Instruction.wordsOf, List.cons_append, List.nil_append, List.forall_mem_cons]
    exact ⟨plainWord_opcode _, hview view, plainWord_digits _, plainWord_digits _,
      hcondition condition⟩
  | turn side next =>
    simp only [Instruction.wordsOf, List.forall_mem_cons]
    exact ⟨plainWord_opcode _, hside side, plainWord_digits _, by simp⟩
  | _ => simp [Instruction.wordsOf, plainWord_opcode, plainWord_digits]

/-! ### Reading the words back -/

theorem readState_digits (state : StateIndex) :
    Operand.readState (digits state.val) = .ok state := by
  have hlimit : state.val < Position.limit := state.isLt.trans (by decide)
  rw [Operand.readState, natBelow?_digits hlimit, Option.bind_some, dif_pos state.isLt]
  rfl

theorem readMarker_digits (m : Marker) : Operand.readMarker (digits m.val) = .ok m := by
  rw [Operand.readMarker, natBelow?_digits (m.isLt.trans (by decide)), Option.bind_some,
    dif_pos m.isLt]
  rfl

theorem readDie_digits (die : Die) : Operand.readDie (digits die.val.toNat) = .ok die := by
  have hval : UInt32.ofNat die.val.toNat = die.val := UInt32.ofNat_toNat
  have hsome : UInt32.ofNat die.val.toNat ≠ 0 := by
    rw [hval]
    exact die.property
  rw [Operand.readDie, natBelow?_digits die.val.toNat_lt, Option.bind_some, dif_pos hsome]
  exact congrArg Except.ok (Subtype.ext hval)

theorem readView_word (view : View) : Operand.readView view.word.toList = .ok view := by
  rw [Operand.readView, View.ofWord?_word]
  rfl

theorem readSide_word (side : TurnSide) : Operand.readSide side.word.toList = .ok side := by
  rw [Operand.readSide, TurnSide.ofWord?_word]
  rfl

theorem ofOperands_sense (view : View) (onTrue onFalse : StateIndex) (condition : Condition) :
    Instruction.ofOperands .sense ([view.word.toList, digits onTrue.val, digits onFalse.val] ++
      condition.wordsOf) = .ok (.sense view onTrue onFalse condition) := by
  cases condition with
  | marker m =>
    simp only [Condition.wordsOf, List.cons_append, List.nil_append, Instruction.ofOperands,
      readMarker_digits, readView_word, readState_digits]
    rfl
  | _ =>
    simp only [Condition.wordsOf, List.cons_append, List.nil_append, Instruction.ofOperands,
      readView_word, readState_digits]
    rfl

/-- The words of an instruction's line are read as that instruction. -/
theorem ofWords_wordsOf (instruction : Instruction) :
    Instruction.ofWords instruction.wordsOf = .ok (some instruction) := by
  cases instruction with
  | sense view onTrue onFalse condition =>
    have hoperands := ofOperands_sense view onTrue onFalse condition
    simp only [Instruction.wordsOf, List.cons_append, Instruction.ofWords, Opcode.ofWord?_word]
    simp only [List.cons_append] at hoperands
    rw [hoperands]
    rfl
  | _ =>
    simp only [Instruction.wordsOf, Instruction.ofWords, Opcode.ofWord?_word,
      Instruction.ofOperands, readState_digits, readMarker_digits, readDie_digits, readSide_word]
    rfl

/-! ### Whole brains -/

namespace Brain

section Lines

variable {α : Type} (wordsOf : α → List (List Char)) (instruction : α → Instruction)

theorem readLines_unwords (hplain : ∀ a, ∀ w ∈ wordsOf a, PlainWord w)
    (hread : ∀ a, Instruction.ofWords (wordsOf a) = .ok (some (instruction a))) (n : Nat)
    (as : List α) :
    readLines n (as.map fun a => unwords (wordsOf a)) = .ok (as.map instruction) := by
  induction as generalizing n with
  | nil => rfl
  | cons a as ih =>
    rw [List.map_cons, readLines, lineWords_unwords (hplain a), hread]
    simp only [ih]
    rfl

/-- A text with a line of plain words for each instruction is read as these instructions. -/
theorem read_unlines (hplain : ∀ a, ∀ w ∈ wordsOf a, PlainWord w)
    (hread : ∀ a, Instruction.ofWords (wordsOf a) = .ok (some (instruction a))) (name : String)
    (as : List α) :
    Brain.read name (String.ofList (unlines (as.map fun a => unwords (wordsOf a)))) =
      ofStates name (as.map instruction).toArray := by
  have hlines : lines (unlines (as.map fun a => unwords (wordsOf a))) =
      as.map fun a => unwords (wordsOf a) := by
    refine lines_unlines fun l hl => ?_
    obtain ⟨a, -, rfl⟩ := List.mem_map.mp hl
    exact isLine_unwords (hplain a)
  rw [Brain.read, String.toList_ofList, hlines,
    readLines_unwords wordsOf instruction hplain hread]
  rfl

end Lines

theorem toList_source (b : Brain) : b.source.toList =
    unlines (b.states.toList.map fun instruction => unwords instruction.wordsOf) := by
  rw [source, String.toList_join, unlines, List.flatMap_map, List.flatMap_map]
  simp only [String.toList_append, toList_text]
  rfl

theorem ofStates_states (b : Brain) : ofStates b.name b.states = .ok b := by
  rw [ofStates, dif_pos b.size_pos, dif_pos b.size_le]

/-- The canonical text of a brain is read as that brain. -/
theorem read_source (b : Brain) : Brain.read b.name b.source = .ok b := by
  have htext : b.source = String.ofList
      (unlines (b.states.toList.map fun instruction => unwords instruction.wordsOf)) := by
    rw [← toList_source, String.ofList_toList]
  rw [htext, read_unlines Instruction.wordsOf id plainWord_wordsOf ofWords_wordsOf, List.map_id,
    Array.toArray_toList, ofStates_states]

end Brain

end AntContest
