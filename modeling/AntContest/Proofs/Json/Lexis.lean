import AntContest.Json.Token
import AntContest.Json.Writer
import AntContest.Proofs.Text.Layout
import Mathlib.Data.List.Basic
import Mathlib.Data.List.TakeWhile

/-! # The words of JSON are scanned as they are written

What the scanner makes of a text is stated for the text in front of any rest, and whatever tokens
have been completed before.

* `scanFrom_blanks`, `scanFrom_mark`: blanks are passed over, and a mark is a token.
* `scanFrom_word`: a word ends where no letter of a word follows (`Delimited`).
* `scanFrom_writeText`: a string is scanned as the text that it was written from.  Every character
  is read back by itself, since a control character is written as one unit (`piece`).
* `scanFrom_writeInt`: so is an integer that a 64-bit word and a sign can hold. -/

namespace AntContest

namespace Json

/-! ### Blanks and marks -/

theorem enter_of_isSpace {c : Char} (h : isSpace c = true) : enter c = some ([], .free) := by
  have hquote : (c == '"') = false := by
    cases hc : c == '"' with
    | false => rfl
    | true =>
      rw [beq_iff_eq.mp hc] at h
      cases h
  rw [enter, hquote, h]
  rfl

theorem enter_of_mark {c : Char} {t : Token} (h : mark? c = some t) :
    enter c = some ([t], .free) := by
  unfold mark? at h
  split at h <;> cases h <;> rfl

theorem scanFrom_blanks (done : List Token) {blanks : List Char}
    (h : ∀ c ∈ blanks, isSpace c = true) (rest : List Char) :
    scanFrom done .free (blanks ++ rest) = scanFrom done .free rest := by
  induction blanks with
  | nil => rfl
  | cons c blanks ih =>
    rw [List.cons_append, scanFrom, scanChar, enter_of_isSpace (h c List.mem_cons_self)]
    exact ih fun b hb => h b (List.mem_cons_of_mem c hb)

theorem scanFrom_mark (done : List Token) {c : Char} {t : Token} (h : mark? c = some t)
    (rest : List Char) : scanFrom done .free (c :: rest) = scanFrom (t :: done) .free rest := by
  rw [scanFrom, scanChar, enter_of_mark h]
  rfl

/-! ### Words -/

/-- Whether a character goes on with a word. -/
def isWordChar (c : Char) : Bool := !(c == '"' || isSpace c || (mark? c).isSome)

/-- A text does not go on with a word. -/
def Delimited (rest : List Char) : Prop := ∀ c ∈ rest.head?, isWordChar c = false

theorem delimited_nil : Delimited [] := by simp [Delimited]

theorem delimited_mark {c : Char} (h : (mark? c).isSome = true) (rest : List Char) :
    Delimited (c :: rest) := by
  simp [Delimited, isWordChar, h]

theorem delimited_blanks {blanks : List Char} (h : ∀ c ∈ blanks, isSpace c = true)
    {rest : List Char} (hrest : Delimited rest) : Delimited (blanks ++ rest) := by
  cases blanks with
  | nil => exact hrest
  | cons c blanks => simp [Delimited, isWordChar, h c List.mem_cons_self]

theorem enter_of_isWordChar {c : Char} (h : isWordChar c = true) :
    enter c = some ([], .word [c]) := by
  simp only [isWordChar, Bool.not_eq_true', Bool.or_eq_false_iff, Option.isSome_eq_false_iff,
    Option.isNone_iff_eq_none] at h
  obtain ⟨⟨hquote, hspace⟩, hmark⟩ := h
  simp [enter, hquote, hspace, hmark]

theorem scanFrom_inWord (done : List Token) (read : List Char) {w : List Char}
    (h : ∀ c ∈ w, isWordChar c = true) (rest : List Char) :
    scanFrom done (.word read) (w ++ rest) = scanFrom done (.word (w.reverse ++ read)) rest := by
  induction w generalizing read with
  | nil => rfl
  | cons c w ih =>
    have hc := h c List.mem_cons_self
    rw [isWordChar, Bool.not_eq_true'] at hc
    rw [List.cons_append, scanFrom, scanChar, hc]
    refine (ih (c :: read) fun b hb => h b (List.mem_cons_of_mem c hb)).trans ?_
    simp

/-- The end of a word completes its token. -/
theorem scanFrom_endOfWord (done : List Token) {read : List Char} {t : Token}
    (h : wordToken? read.reverse = some t) {rest : List Char} (hrest : Delimited rest) :
    scanFrom done (.word read) rest = scanFrom (t :: done) .free rest := by
  cases rest with
  | nil =>
    rw [scanFrom, scanEnd, h]
    rfl
  | cons c rest =>
    have hc := hrest c rfl
    rw [isWordChar, Bool.not_eq_false'] at hc
    have hscan : scanChar c (.word read) = (enter c).map fun next => (t :: next.1, next.2) := by
      rw [scanChar, if_pos hc, h]
      cases enter c <;> rfl
    rw [scanFrom, scanFrom, hscan, scanChar]
    cases enter c with
    | none => rfl
    | some next => simp

theorem scanFrom_word (done : List Token) {w : List Char} {t : Token} (hne : w ≠ [])
    (hw : ∀ c ∈ w, isWordChar c = true) (ht : wordToken? w = some t) {rest : List Char}
    (hrest : Delimited rest) :
    scanFrom done .free (w ++ rest) = scanFrom (t :: done) .free rest := by
  cases w with
  | nil => exact absurd rfl hne
  | cons c w =>
    rw [List.cons_append, scanFrom, scanChar, enter_of_isWordChar (hw c List.mem_cons_self)]
    refine (scanFrom_inWord done [c] (fun b hb => hw b (List.mem_cons_of_mem c hb)) rest).trans ?_
    refine scanFrom_endOfWord done ?_ hrest
    rw [List.reverse_append, List.reverse_reverse]
    exact ht

/-! ### Strings -/

/-- The part of a string that a character is read as: a control character without a letter of its
own is written as a unit. -/
def piece (c : Char) : Piece :=
  if c.toNat < 32 ∧ c ∉ ['\n', '\r', '\t', '\x08', '\x0C'] then .unit c.toNat else .char c

theorem hexValue?_hexDigit {n : Nat} (h : n < 16) : hexValue? (hexDigit n) = some n := by
  have hall : ∀ n : Fin 16, hexValue? (hexDigit n) = some n.val := by decide
  exact hall ⟨n, h⟩

theorem scanFrom_unit (done : List Token) (read : List Piece) {n : Nat} (h : n < 32)
    (rest : List Char) :
    scanFrom done (.string read)
        ('\\' :: 'u' :: '0' :: '0' :: hexDigit (n / 16) :: hexDigit (n % 16) :: rest) =
      scanFrom done (.string (.unit n :: read)) rest := by
  have hhigh : hexValue? (hexDigit (n / 16)) = some (n / 16) := hexValue?_hexDigit (by omega)
  have hlow : hexValue? (hexDigit (n % 16)) = some (n % 16) := hexValue?_hexDigit (by omega)
  have hzero : hexValue? '0' = some 0 := rfl
  simp [scanFrom, scanChar, hhigh, hlow, hzero, Nat.div_add_mod]

/-- A written character is read as its part of the string. -/
theorem scanFrom_escape (done : List Token) (read : List Piece) (c : Char) (rest : List Char) :
    scanFrom done (.string read) (escape c ++ rest) =
      scanFrom done (.string (piece c :: read)) rest := by
  by_cases hnamed : c ∈ ['"', '\\', '\n', '\r', '\t', '\x08', '\x0C']
  · simp only [List.mem_cons, List.not_mem_nil, or_false] at hnamed
    rcases hnamed with rfl | rfl | rfl | rfl | rfl | rfl | rfl <;> rfl
  · simp only [List.mem_cons, List.not_mem_nil, or_false, not_or] at hnamed
    obtain ⟨hquote, hslash, hfeed, hreturn, htab, hback, hform⟩ := hnamed
    by_cases hcontrol : c.toNat < 32
    · have hpiece : piece c = .unit c.toNat := if_pos ⟨hcontrol, by simp [*]⟩
      have hescape : escape c =
          ['\\', 'u', '0', '0', hexDigit (c.toNat / 16), hexDigit (c.toNat % 16)] := by
        simp only [escape, *, if_true, if_false]
      rw [hpiece, hescape]
      exact scanFrom_unit done read hcontrol rest
    · simp [escape, piece, hquote, hslash, hfeed, hreturn, htab, hback, hform, hcontrol, scanFrom,
        scanChar]

theorem scanFrom_escapes (done : List Token) (read : List Piece) (cs rest : List Char) :
    scanFrom done (.string read) (cs.flatMap escape ++ rest) =
      scanFrom done (.string ((cs.map piece).reverse ++ read)) rest := by
  induction cs generalizing read with
  | nil => rfl
  | cons c cs ih =>
    rw [List.flatMap_cons, List.append_assoc, scanFrom_escape, ih]
    simp

theorem assemble_map_piece (text cs : List Char) :
    assemble text none (cs.map piece) = some (cs.reverse ++ text) := by
  induction cs generalizing text with
  | nil => rfl
  | cons c cs ih =>
    -- A unit below the space is no half of a pair, so nothing waits for another unit.
    have hhead : assemble text none (piece c :: cs.map piece) =
        assemble (c :: text) none (cs.map piece) := by
      unfold piece
      split
      · next hcontrol =>
        have hlow : isLowHalf c.toNat = false := by
          simp only [isLowHalf, Bool.and_eq_false_iff, decide_eq_false_iff_not]
          omega
        have hhigh : isHighHalf c.toNat = false := by
          simp only [isHighHalf, Bool.and_eq_false_iff, decide_eq_false_iff_not]
          omega
        simp [assemble, hlow, hhigh]
      · rfl
    rw [List.map_cons, hhead, ih]
    simp

theorem scanFrom_openQuote (done : List Token) (rest : List Char) :
    scanFrom done .free ('"' :: rest) = scanFrom done (.string []) rest := by
  rw [scanFrom, scanChar, enter, if_pos (beq_self_eq_true '"')]
  rfl

theorem scanFrom_closeQuote (done : List Token) (read : List Piece) (rest : List Char) :
    scanFrom done (.string read) ('"' :: rest) =
      scanFrom (.str ((assemble [] none read).map String.ofList) :: done) .free rest := by
  rw [scanFrom, scanChar, if_pos (beq_self_eq_true '"')]
  rfl

/-- A string is scanned as it was written, and so is half of a surrogate pair. -/
theorem scanFrom_writeText (done : List Token) (t : JsonText) (rest : List Char) :
    scanFrom done .free (writeText t rest) = scanFrom (.str t :: done) .free rest := by
  cases t with
  | none =>
    have hlone : writeText none rest = '"' :: ("\\ud800".toList ++ '"' :: rest) := rfl
    have hhalf : scanFrom done (.string []) ("\\ud800".toList ++ '"' :: rest) =
        scanFrom done (.string [.unit 0xD800]) ('"' :: rest) := by
      simp [scanFrom, scanChar, hexValue?]
    rw [hlone, scanFrom_openQuote, hhalf, scanFrom_closeQuote]
    rfl
  | some s =>
    have htext : writeText (some s) rest = '"' :: (s.toList.flatMap escape ++ '"' :: rest) := rfl
    have hread : (assemble [] none (s.toList.map piece).reverse).map String.ofList = some s := by
      rw [← List.map_reverse, assemble_map_piece, List.reverse_reverse, List.append_nil,
        Option.map_some, String.ofList_toList]
    rw [htext, scanFrom_openQuote, scanFrom_escapes, scanFrom_closeQuote, List.append_nil, hread]

/-! ### Integers -/

theorem isWordChar_of_isDigit {c : Char} (h : c.isDigit = true) : isWordChar c = true := by
  cases hc : isWordChar c with
  | true => rfl
  | false =>
    simp only [isWordChar, isSpace, Bool.not_eq_false', Bool.or_eq_true, beq_iff_eq] at hc
    rcases hc with (rfl | (((rfl | rfl) | rfl) | rfl)) | hmark
    all_goals try cases h
    unfold mark? at hmark
    split at hmark <;> first | cases h | cases hmark

theorem head?_digits_ne {n : Nat} (hpos : 0 < n) : (Text.digits n).head? ≠ some '0' := by
  induction n using Nat.strongRecOn with
  | ind n ih =>
    by_cases hn : n < 10
    · have hall : ∀ n : Fin 10, 0 < n.val → Nat.digitChar n ≠ '0' := by decide
      rw [Text.digits, Nat.toDigits_of_lt_base hn, List.head?_cons, ne_eq, Option.some.injEq]
      exact hall ⟨n, hn⟩ hpos
    · rw [Text.digits, Nat.toDigits_of_base_le (by decide) (Nat.le_of_not_lt hn),
        List.head?_append_of_ne_nil _ Nat.toDigits_ne_nil]
      exact ih (n / 10) (by omega) (by omega)

theorem unsigned?_digits {n : Nat} (h : n < wordLimit) :
    unsigned? (Text.digits n) = some (some n) := by
  have hdigits : ∀ c ∈ Text.digits n, c.isDigit = true := fun _ => Text.isDigit_of_mem_digits
  have hwhole : (Text.digits n).takeWhile Char.isDigit = Text.digits n :=
    List.takeWhile_eq_self_iff.mpr hdigits
  have htail : (Text.digits n).dropWhile Char.isDigit = [] :=
    List.dropWhile_eq_nil_iff.mpr hdigits
  have hzero : ¬ ((Text.digits n).head? = some '0' ∧ (Text.digits n).length ≠ 1) := by
    rintro ⟨hhead, hlength⟩
    rcases Nat.eq_zero_or_pos n with rfl | hpos
    · exact hlength rfl
    · exact head?_digits_ne hpos hhead
  have hvalue : Text.digitsBelow? wordLimit (Text.digits n) = some n := by
    rw [Text.digitsBelow?_eq, Text.valueOf_digits,
      if_pos ⟨Text.digits_ne_nil n, Text.all_isDigit_digits n, h⟩]
  simp only [unsigned?, hwhole, htail]
  rw [if_neg (not_or.mpr ⟨Text.digits_ne_nil n, hzero⟩), if_pos trivial, hvalue]

theorem writeInt_eq (i : Int) (rest : List Char) : writeInt i rest = writeInt i [] ++ rest := by
  cases i <;> simp [writeInt]

theorem wordToken?_digits {n : Nat} (h : n < wordLimit) :
    wordToken? (Text.digits n) = some (.int n) := by
  have hunsigned := unsigned?_digits h
  obtain ⟨c, ds, hds⟩ := List.exists_cons_of_ne_nil (Text.digits_ne_nil n)
  have hdigit : c.isDigit = true := by
    refine Text.isDigit_of_mem_digits (n := n) ?_
    rw [hds]
    exact List.mem_cons_self
  rw [hds] at hunsigned ⊢
  unfold wordToken?
  rw [if_neg, if_neg, if_neg]
  · split
    · next heq =>
      cases heq
      cases hdigit
    · rw [hunsigned]
      rfl
  -- The names begin with letters.
  all_goals
    rintro heq
    cases heq
    cases hdigit

theorem wordToken?_writeInt {i : Int} (h : i.natAbs < wordLimit) :
    wordToken? (writeInt i []) = some (.int i) := by
  cases i with
  | ofNat n =>
    rw [writeInt, List.append_nil]
    exact wordToken?_digits h
  | negSucc n =>
    have hunsigned := unsigned?_digits (n := n + 1) h
    rw [writeInt, List.append_nil]
    unfold wordToken?
    rw [if_neg (by simp), if_neg (by simp), if_neg (by simp)]
    simp only [hunsigned]
    rfl

/-- An integer that a word and a sign can hold is scanned as it was written. -/
theorem scanFrom_writeInt (done : List Token) {i : Int} (h : i.natAbs < wordLimit)
    {rest : List Char} (hrest : Delimited rest) :
    scanFrom done .free (writeInt i rest) = scanFrom (.int i :: done) .free rest := by
  have hdigits : ∀ n, ∀ c ∈ Text.digits n, isWordChar c = true := fun n c hc =>
    isWordChar_of_isDigit (Text.isDigit_of_mem_digits hc)
  have hword : writeInt i [] ≠ [] ∧ ∀ c ∈ writeInt i [], isWordChar c = true := by
    cases i with
    | ofNat n =>
      rw [writeInt, List.append_nil]
      exact ⟨Text.digits_ne_nil n, hdigits n⟩
    | negSucc n =>
      rw [writeInt, List.append_nil]
      exact ⟨List.cons_ne_nil _ _, List.forall_mem_cons.mpr ⟨rfl, hdigits (n + 1)⟩⟩
  rw [writeInt_eq]
  exact scanFrom_word done hword.1 hword.2 (wordToken?_writeInt h) hrest

end Json

end AntContest
