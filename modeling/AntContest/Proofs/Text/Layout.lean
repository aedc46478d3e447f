import AntContest.Text.Decimal
import AntContest.Text.Pieces

/-! # Text that is laid out is read back

Texts are written as lines with an end, as words with single spaces, and as decimal numerals.

* `lines_unlines`: the lines of a text are those that it was written from, if none of them has an
  end of a line in it.
* `words_unwords`: so are the words of a line.
* `natBelow?_digits`: a numeral is read as the number that it was written from.

Before a text is read it is put in upper case, of which tests of blanks and separators take no
account (`apply_toUpper`).  Numerals and keywords are made of upper-case letters and digits, which
are neither blank nor changed by that: such words are plain (`PlainWord`). -/

namespace AntContest.Text

/-! ### Pieces -/

theorem pieces_of_forall {isSep : Char → Bool} {cs : List Char}
    (h : ∀ c ∈ cs, isSep c = false) : pieces isSep cs = [cs] := by
  induction cs with
  | nil => rfl
  | cons c cs ih =>
    rw [pieces_cons, h c List.mem_cons_self, ih fun d hd => h d (List.mem_cons_of_mem c hd)]
    rfl

/-- A separator cuts a text in two. -/
theorem pieces_append_sep {isSep : Char → Bool} {sep : Char} (front rest : List Char)
    (hsep : isSep sep = true) :
    pieces isSep (front ++ sep :: rest) = pieces isSep front ++ pieces isSep rest := by
  induction front with
  | nil =>
    rw [List.nil_append, pieces_cons, if_pos hsep]
    rfl
  | cons c front ih =>
    rw [List.cons_append, pieces_cons, pieces_cons, ih]
    split
    · rfl
    · cases hfront : pieces isSep front with
      | nil => exact absurd hfront (pieces_ne_nil isSep front)
      | cons p ps => rfl

theorem pieces_append {isSep : Char → Bool} {sep : Char} {cs : List Char} (rest : List Char)
    (hsep : isSep sep = true) (h : ∀ c ∈ cs, isSep c = false) :
    pieces isSep (cs ++ sep :: rest) = cs :: pieces isSep rest := by
  rw [pieces_append_sep cs rest hsep, pieces_of_forall h]
  rfl

theorem pieces_map {isSep : Char → Bool} {f : Char → Char} (hf : ∀ c, isSep (f c) = isSep c)
    (cs : List Char) : pieces isSep (cs.map f) = (pieces isSep cs).map (·.map f) := by
  induction cs with
  | nil => rfl
  | cons c cs ih =>
    rw [List.map_cons, pieces_cons, pieces_cons, hf, ih]
    split
    · rfl
    · cases pieces isSep cs <;> rfl

/-! ### Lines -/

/-- A text of the given lines, each with its end. -/
def unlines (ls : List (List Char)) : List Char := ls.flatMap (· ++ ['\n'])

theorem unlines_append (front back : List (List Char)) :
    unlines (front ++ back) = unlines front ++ unlines back := List.flatMap_append

/-- A list of characters that can be a line: no line ends in it, and none begins to end. -/
def IsLine (l : List Char) : Prop := '\n' ∉ l ∧ l.getLast? ≠ some '\r'

theorem isLine_of_forall {l : List Char} (h : ∀ c ∈ l, c ≠ '\n' ∧ c ≠ '\r') : IsLine l :=
  ⟨fun hmem => (h _ hmem).1 rfl, fun hlast => (h _ (List.mem_of_getLast? hlast)).2 rfl⟩

/-- What stands between the line feeds of a text. -/
def rawLines (cs : List Char) : List (List Char) := pieces (· == '\n') cs

theorem rawLines_of_not_mem {l : List Char} (h : '\n' ∉ l) : rawLines l = [l] :=
  pieces_of_forall fun c hc => by
    rw [beq_eq_false_iff_ne]
    rintro rfl
    exact h hc

theorem rawLines_append_feed (front back : List Char) :
    rawLines (front ++ '\n' :: back) = rawLines front ++ rawLines back :=
  pieces_append_sep front back rfl

/-- A line without a line feed in it is cut off at the next one. -/
theorem lines_append {l : List Char} (h : '\n' ∉ l) (rest : List Char) :
    lines (l ++ '\n' :: rest) = dropReturn l :: lines rest := by
  have hraw : rawLines (l ++ '\n' :: rest) = l :: rawLines rest := by
    rw [rawLines_append_feed, rawLines_of_not_mem h]
    rfl
  show linesOfPieces (rawLines (l ++ '\n' :: rest)) = dropReturn l :: linesOfPieces (rawLines rest)
  rw [hraw]
  cases hrest : rawLines rest with
  | nil => exact absurd hrest (pieces_ne_nil _ _)
  | cons p ps =>
    rw [linesOfPieces]
    exact List.cons_ne_nil p ps

theorem lines_unlines {ls : List (List Char)} (h : ∀ l ∈ ls, IsLine l) :
    lines (unlines ls) = ls := by
  induction ls with
  | nil => rfl
  | cons l ls ih =>
    obtain ⟨hfeed, hreturn⟩ := h l List.mem_cons_self
    have htext : unlines (l :: ls) = l ++ '\n' :: unlines ls := by
      rw [unlines, List.flatMap_cons, List.append_assoc]
      rfl
    rw [htext, lines_append hfeed, ih fun k hk => h k (List.mem_cons_of_mem l hk), dropReturn,
      if_neg hreturn]

/-! ### Words -/

/-- A list of characters that can be a word. -/
def IsWord (w : List Char) : Prop := w ≠ [] ∧ ∀ c ∈ w, isGap c = false

def unwords (ws : List (List Char)) : List Char := [' '].intercalate ws

theorem words_unwords {ws : List (List Char)} (h : ∀ w ∈ ws, IsWord w) :
    words (unwords ws) = ws := by
  have hkeep (w : List Char) (hw : IsWord w) (rest : List (List Char)) :
      (w :: rest).filter (fun w => !w.isEmpty) = w :: rest.filter fun w => !w.isEmpty := by
    rw [List.filter_cons_of_pos]
    simpa using hw.1
  unfold words
  induction ws with
  | nil => rfl
  | cons w ws ih =>
    have hw := h w List.mem_cons_self
    have ih := ih fun v hv => h v (List.mem_cons_of_mem w hv)
    cases ws with
    | nil =>
      rw [unwords, List.intercalate_singleton, pieces_of_forall hw.2, hkeep w hw]
      rfl
    | cons v ws =>
      rw [unwords, List.intercalate_cons_cons, List.append_assoc]
      show (pieces isGap (w ++ ' ' :: unwords (v :: ws))).filter _ = _
      rw [pieces_append _ rfl hw.2, hkeep w hw, ih]

/-! ### Numerals -/

theorem all_isDigit_digits (n : Nat) : (digits n).all Char.isDigit = true := by
  rw [List.all_eq_true]
  intro c hc
  exact Nat.isDigit_of_mem_toDigits (by decide) (by decide) hc

theorem isDigit_of_mem_digits {n : Nat} {c : Char} (h : c ∈ digits n) : c.isDigit = true :=
  List.all_eq_true.mp (all_isDigit_digits n) c h

theorem not_mem_digits {n : Nat} {c : Char} (h : c.isDigit = false) : c ∉ digits n := fun hmem => by
  rw [isDigit_of_mem_digits hmem] at h
  cases h

theorem toList_toString (n : Nat) : (toString n).toList = digits n := by
  simp [digits, toString]

theorem toString_text (s : String) : toString s = s := rfl

theorem digits_ne_nil (n : Nat) : digits n ≠ [] := Nat.toDigits_ne_nil

theorem valueOf_digits (n : Nat) : valueOf (digits n) = n := by
  have h := Nat.ofDigitChars_ten_toDigits (n := n)
  rwa [Nat.ofDigitChars_eq_foldl] at h

theorem digits_inj {m n : Nat} : digits m = digits n ↔ m = n := by
  refine ⟨fun h => ?_, congrArg digits⟩
  rw [← valueOf_digits m, h, valueOf_digits]

theorem natBelow?_digits {limit n : Nat} (h : n < limit) : natBelow? limit (digits n) = some n := by
  have hplus : dropPlus (digits n) = digits n := by
    unfold dropPlus
    split
    · next cs heq =>
      have hall := all_isDigit_digits n
      rw [heq, List.all_cons, Bool.and_eq_true] at hall
      exact absurd hall.1 (by decide)
    · rfl
  rw [natBelow?, hplus, digitsBelow?_eq, valueOf_digits,
    if_pos ⟨digits_ne_nil n, all_isDigit_digits n, h⟩]

/-! ### Case -/

theorem toUpper_of_not_lower {c : Char} (h : ¬ (97 ≤ c.toNat ∧ c.toNat ≤ 122)) :
    c.toUpper = c := by
  unfold Char.toUpper
  rw [dif_neg]
  rw [UInt32.le_iff_toNat_le, UInt32.le_iff_toNat_le]
  exact h

theorem toNat_toUpper {c : Char} (h : 97 ≤ c.toNat ∧ c.toNat ≤ 122) :
    c.toUpper.toNat = c.toNat - 32 := by
  have hlower : 'a'.val ≤ c.val ∧ c.val ≤ 'z'.val :=
    ⟨UInt32.le_iff_toNat_le.mpr h.1, UInt32.le_iff_toNat_le.mpr h.2⟩
  unfold Char.toUpper
  rw [dif_pos hlower]
  show (c.val + 4294967264).toNat = _
  rw [UInt32.toNat_add]
  show (c.toNat + 4294967264) % 4294967296 = _
  omega

/-- A test that no letter passes takes no account of case. -/
theorem apply_toUpper {q : Char → Bool}
    (hq : ∀ c : Char, 65 ≤ c.toNat → c.toNat ≤ 122 → q c = false) (c : Char) :
    q c.toUpper = q c := by
  by_cases h : 97 ≤ c.toNat ∧ c.toNat ≤ 122
  · have hupper := toNat_toUpper h
    rw [hq c (by omega) h.2, hq c.toUpper (by omega) (by omega)]
  · rw [toUpper_of_not_lower h]

/-! ### Plain words -/

/-- An upper-case letter or a digit. -/
def IsPlain (c : Char) : Prop := c.isDigit = true ∨ c.isUpper = true

instance (c : Char) : Decidable (IsPlain c) := inferInstanceAs (Decidable (_ ∨ _))

/-- A word of upper-case letters and digits. -/
def PlainWord (w : List Char) : Prop := w ≠ [] ∧ ∀ c ∈ w, IsPlain c

-- The characters of the word are looked through, not all characters.
instance (w : List Char) : Decidable (PlainWord w) :=
  haveI : Decidable (∀ c ∈ w, IsPlain c) := List.decidableBAll IsPlain w
  inferInstanceAs (Decidable (_ ∧ _))

theorem toNat_of_isPlain {c : Char} (h : IsPlain c) :
    48 ≤ c.toNat ∧ c.toNat ≤ 57 ∨ 65 ≤ c.toNat ∧ c.toNat ≤ 90 := by
  rcases h with h | h
  · exact .inl (Char.isDigit_iff_toNat.mp h)
  · obtain ⟨hlow, hhigh⟩ : 'A'.val ≤ c.val ∧ c.val ≤ 'Z'.val := of_decide_eq_true h
    exact .inr ⟨UInt32.le_iff_toNat_le.mp hlow, UInt32.le_iff_toNat_le.mp hhigh⟩

theorem not_isBlank_of_isPlain {c : Char} (h : IsPlain c) : isBlank c = false := by
  have := toNat_of_isPlain h
  simp only [isBlank, Bool.or_eq_false_iff, Bool.and_eq_false_iff, decide_eq_false_iff_not,
    beq_eq_false_iff_ne, ne_eq]
  omega

theorem not_isGap_of_isPlain {c : Char} (h : IsPlain c) : isGap c = false := by
  have hblank := not_isBlank_of_isPlain h
  cases hgap : isGap c with
  | false => rfl
  | true =>
    exact absurd (isBlank_of_isGap hgap) (by rw [hblank]; decide)

theorem toUpper_of_isPlain {c : Char} (h : IsPlain c) : c.toUpper = c := by
  have hrange := toNat_of_isPlain h
  exact toUpper_of_not_lower (by omega)

theorem PlainWord.isWord {w : List Char} (h : PlainWord w) : IsWord w :=
  ⟨h.1, fun c hc => not_isGap_of_isPlain (h.2 c hc)⟩

theorem isPlain_of_mem_digits {n : Nat} {c : Char} (h : c ∈ digits n) : IsPlain c :=
  .inl (isDigit_of_mem_digits h)

theorem plainWord_digits (n : Nat) : PlainWord (digits n) :=
  ⟨digits_ne_nil n, fun _ => isPlain_of_mem_digits⟩

theorem isLine_digits (n : Nat) : IsLine (digits n) := by
  refine isLine_of_forall fun c hc => ⟨?_, ?_⟩ <;> rintro rfl
  · exact absurd (isPlain_of_mem_digits hc) (by decide)
  · exact absurd (isPlain_of_mem_digits hc) (by decide)

/-! ### Blanks around a word -/

theorem dropBlanks_of_forall {cs : List Char} (h : ∀ c ∈ cs, isBlank c = false) :
    dropBlanks cs = cs := by
  cases cs with
  | nil => rfl
  | cons c cs => rw [dropBlanks, List.dropWhile_cons_of_neg (by rw [h c List.mem_cons_self]; simp)]

theorem trim_of_forall {cs : List Char} (h : ∀ c ∈ cs, isBlank c = false) : trim cs = cs := by
  rw [trim, dropBlanks_of_forall h, dropBlanks_of_forall, List.reverse_reverse]
  exact fun c hc => h c (List.mem_reverse.mp hc)

theorem trim_digits (n : Nat) : trim (digits n) = digits n :=
  trim_of_forall fun _ hc => not_isBlank_of_isPlain (isPlain_of_mem_digits hc)

end AntContest.Text
