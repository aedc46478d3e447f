import AntContest.Proofs.Brain.SourceRoundTrip

/-! # Nothing of a brain is lost in its canonical text

A text that is read as a brain can be replaced by the canonical text of that brain: it is read as
the same brain, under the same name, and a second replacement changes nothing.

There are texts for all brains, also with the marker conditions spelled as one word.

* `Condition.spelled` and `Instruction.spelled` are the two spellings; both are read as the same
  instruction (`ofWords_spelled`).
* `read_spelledText`: so every list of instructions that is not too long is read from a text, in
  any mixture of spellings.
* `canonical_text_lossless` puts the two sides together. -/

namespace AntContest

open Text

/-- How a marker condition is written: its keyword and its number as two words, or as one. -/
inductive MarkerSpelling where
  | apart
  | joined
deriving DecidableEq, Repr

/-- The words of a condition in a spelling. -/
def Condition.spelled : MarkerSpelling → Condition → List (List Char)
  | .joined, .marker m => [markerWord.toList ++ digits m.val]
  | _, condition => condition.wordsOf

/-- The words of an instruction's line, with its marker condition in a spelling. -/
def Instruction.spelled (spelling : MarkerSpelling) : Instruction → List (List Char)
  | .sense view onTrue onFalse condition =>
    [Opcode.sense.word.toList, view.word.toList, digits onTrue.val, digits onFalse.val] ++
      condition.spelled spelling
  | instruction => instruction.wordsOf

/-- Only a marker condition in one word is not written in the words of the canonical text. -/
theorem Instruction.spelled_cases (spelling : MarkerSpelling) (instruction : Instruction) :
    instruction.spelled spelling = instruction.wordsOf ∨
      ∃ view onTrue onFalse m, instruction = .sense view onTrue onFalse (.marker m) ∧
        instruction.spelled spelling =
          [Opcode.sense.word.toList, view.word.toList, digits onTrue.val, digits onFalse.val,
            Condition.markerWord.toList ++ digits m.val] := by
  cases instruction with
  | sense view onTrue onFalse condition =>
    cases condition with
    | marker m =>
      cases spelling with
      | apart => exact .inl rfl
      | joined => exact .inr ⟨view, onTrue, onFalse, m, rfl, rfl⟩
    | _ => cases spelling <;> exact .inl rfl
  | _ => exact .inl rfl

theorem plainWord_append_digits {w : List Char} (h : PlainWord w) (n : Nat) :
    PlainWord (w ++ digits n) := by
  refine ⟨fun hnil => h.1 (List.append_eq_nil_iff.mp hnil).1, fun c hc => ?_⟩
  rcases List.mem_append.mp hc with hc | hc
  · exact h.2 c hc
  · exact (plainWord_digits n).2 c hc

theorem plainWord_spelled (spelling : MarkerSpelling) (instruction : Instruction) :
    ∀ w ∈ instruction.spelled spelling, PlainWord w := by
  have hwords := plainWord_wordsOf instruction
  rcases instruction.spelled_cases spelling with hplain | ⟨view, onTrue, onFalse, m, rfl, hjoined⟩
  · rw [hplain]
    exact hwords
  · rw [hjoined]
    simp only [Instruction.wordsOf, Condition.wordsOf, List.cons_append, List.nil_append,
      List.forall_mem_cons] at hwords
    obtain ⟨hsense, hview, htrue, hfalse, hkey, -⟩ := hwords
    simp only [List.forall_mem_cons]
    exact ⟨hsense, hview, htrue, hfalse, plainWord_append_digits hkey m.val, by simp⟩

/-! ### Both spellings are read -/

theorem markerWord_append_digits_ne (m : Marker) :
    Condition.markerWord.toList ++ digits m.val ≠ Condition.markerWord.toList := by
  intro h
  exact digits_ne_nil m.val (List.append_right_eq_self.mp h)

theorem markerSuffix?_append {number : List Char} (h : number ≠ []) :
    Operand.markerSuffix? (Condition.markerWord.toList ++ number) = some number := by
  have hlength : Condition.markerWord.toList.length <
      (Condition.markerWord.toList ++ number).length := by
    have := List.length_pos_iff.mpr h
    rw [List.length_append]
    omega
  simp [Operand.markerSuffix?, h]

theorem readCondition_joined (m : Marker) :
    Operand.readCondition (Condition.markerWord.toList ++ digits m.val) = .ok (.marker m) := by
  -- There are few markers: none of them is a condition that is one word.
  have hplain : ∀ m : Marker,
      Condition.ofPlainWord? (Condition.markerWord.toList ++ digits m.val) = none := by
    decide +kernel
  rw [Operand.readCondition, hplain m, markerSuffix?_append (digits_ne_nil m.val)]
  dsimp only
  rw [readMarker_digits]
  rfl

/-- The words of an instruction's line are read as that instruction in both spellings. -/
theorem ofWords_spelled (spelling : MarkerSpelling) (instruction : Instruction) :
    Instruction.ofWords (instruction.spelled spelling) = .ok (some instruction) := by
  rcases instruction.spelled_cases spelling with hplain | ⟨view, onTrue, onFalse, m, rfl, hjoined⟩
  · rw [hplain]
    exact ofWords_wordsOf instruction
  · rw [hjoined]
    simp only [Instruction.ofWords, Opcode.ofWord?_word, Instruction.ofOperands,
      if_neg (markerWord_append_digits_ne m), readCondition_joined, readView_word,
      readState_digits]
    rfl

/-! ### Texts of all brains -/

namespace Brain

/-- A text of instructions, each in its spelling. -/
def spelledText (lines : List (MarkerSpelling × Instruction)) : String :=
  String.ofList (unlines (lines.map fun l => unwords (l.2.spelled l.1)))

theorem read_spelledText (name : String) {lines : List (MarkerSpelling × Instruction)}
    (hpos : 0 < lines.length) (hle : lines.length ≤ stateLimit) :
    ∃ b, Brain.read name (spelledText lines) = .ok b ∧ b.states.toList = lines.map (·.2) := by
  have hread := read_unlines (α := MarkerSpelling × Instruction) (fun l => l.2.spelled l.1) (·.2)
    (fun l => plainWord_spelled l.1 l.2) (fun l => ofWords_spelled l.1 l.2) name lines
  have hsize : (lines.map (·.2)).toArray.size = lines.length := by simp
  rw [spelledText, hread, ofStates, dif_pos (by rw [hsize]; exact hpos),
    dif_pos (by rw [hsize]; exact hle)]
  exact ⟨_, rfl, rfl⟩

/-! ### Texts that are replaced -/

theorem name_of_ofStates {name : String} {states : Array Instruction} {b : Brain}
    (h : ofStates name states = .ok b) : b.name = name := by
  unfold ofStates at h
  split at h
  · split at h
    · cases h
      rfl
    · cases h
  · cases h

theorem name_of_read {name text : String} {b : Brain} (h : Brain.read name text = .ok b) :
    b.name = name := by
  unfold Brain.read at h
  cases hlines : readLines 1 (lines text.toList) with
  | error e =>
    rw [hlines] at h
    cases h
  | ok states =>
    rw [hlines] at h
    exact name_of_ofStates h

theorem read_source_of_read {name text : String} {b : Brain} (h : Brain.read name text = .ok b) :
    Brain.read name b.source = .ok b := by
  have hname := name_of_read h
  subst hname
  exact b.read_source

/-- The canonical text of a brain that was read stands for the same brain as the text it was read
from: under the same name it is read again, as the same brain, whose canonical text it is.  And
every list of instructions, with any states and numbers in them, is read from a text, whichever of
its marker conditions are written as one word; its brain has these instructions in this order. -/
theorem canonical_text_lossless (name : String) :
    (∀ text b, Brain.read name text = .ok b → b.name = name ∧ Brain.read name b.source = .ok b ∧
      ∀ b', Brain.read name b.source = .ok b' → b'.source = b.source) ∧
    ∀ lines : List (MarkerSpelling × Instruction), 0 < lines.length → lines.length ≤ stateLimit →
      ∃ b, Brain.read name (spelledText lines) = .ok b ∧ b.states.toList = lines.map (·.2) ∧
        Brain.read name b.source = .ok b := by
  refine ⟨fun text b hread => ?_, fun lines hpos hle => ?_⟩
  · have hagain := read_source_of_read hread
    refine ⟨name_of_read hread, hagain, fun b' hread' => ?_⟩
    rw [hagain] at hread'
    cases hread'
    rfl
  · obtain ⟨b, hread, hstates⟩ := read_spelledText name hpos hle
    exact ⟨b, hread, hstates, read_source_of_read hread⟩

/-- For example a text with a comment, a marker condition in one word, and the largest numbers. -/
theorem canonical_text_of_two_lines :
    ∃ (sense flip : Instruction) (b : Brain),
      Brain.read "scout" "sense ahead 0 1 Marker5 ; trail\n\nFlip 4294967295 9999 0" = .ok b ∧
      b.states = #[sense, flip] ∧
      b.source = "SENSE AHEAD 0 1 MARKER 5\nFLIP 4294967295 9999 0\n" ∧
      Brain.read "scout" b.source = .ok b ∧
      ∃ b' : Brain, Brain.read "scout" (spelledText [(.joined, sense), (.apart, flip)]) = .ok b' ∧
        b'.states.toList = [sense, flip] := by
  let sense : Instruction := .sense .ahead ⟨0, by decide⟩ ⟨1, by decide⟩ (.marker 5)
  let flip : Instruction := .flip ⟨4294967295, by decide⟩ ⟨9999, by decide⟩ ⟨0, by decide⟩
  let b : Brain := ⟨"scout", #[sense, flip], by decide, by decide⟩
  obtain ⟨hlossless, hspelled⟩ := canonical_text_lossless "scout"
  have hread : Brain.read "scout"
      "sense ahead 0 1 Marker5 ; trail\n\nFlip 4294967295 9999 0" = .ok b := by decide +kernel
  obtain ⟨b', hread', hstates, -⟩ :=
    hspelled [(.joined, sense), (.apart, flip)] (by decide) (by decide)
  exact ⟨sense, flip, b, hread, rfl, by decide +kernel, (hlossless _ b hread).2.1, b', hread',
    hstates⟩

end Brain

end AntContest
