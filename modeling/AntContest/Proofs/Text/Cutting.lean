import AntContest.Proofs.Text.Layout
import Mathlib.Data.List.TakeWhile

/-! # What is cut out of a text

Relations between a text and what is read of it, stated without the functions that cut.

* `LinesOf` says how a text falls into lines; these are what `lines` finds (`linesOf_iff`).
* `CutAt` takes what stands in front of a separator, and `WordsOf` says how a line falls into
  words; these are what `before` and `words` find (`cutAt_iff`, `wordsOf_iff`).
* `Trimmed` takes the blanks off both ends; the rest is what `trim` leaves (`trimmed_iff`).
* `Numeral` is a decimal numeral with its value; `natBelow?` reads those below its limit
  (`natBelow?_eq_some_iff`).  Where a numeral ends shows by what is behind it (`digits_key_inj`). -/

namespace AntContest.Text

/-! ### Lines -/

/-- How a text falls into lines.  A line ends at a line feed or at a return with a line feed behind
it; the last one may end with the text, if something stands in it. -/
inductive LinesOf : List Char → List (List Char) → Prop
  | nil : LinesOf [] []
  | last {l : List Char} : l ≠ [] → '\n' ∉ l → LinesOf l [l]
  | feed {l rest : List Char} {ls : List (List Char)} : '\n' ∉ l → l.getLast? ≠ some '\r' →
      LinesOf rest ls → LinesOf (l ++ '\n' :: rest) (l :: ls)
  | returnFeed {l rest : List Char} {ls : List (List Char)} : '\n' ∉ l →
      LinesOf rest ls → LinesOf (l ++ '\r' :: '\n' :: rest) (l :: ls)

theorem lines_of_not_mem {l : List Char} (h : '\n' ∉ l) : lines l = if l = [] then [] else [l] := by
  show linesOfPieces (rawLines l) = _
  rw [rawLines_of_not_mem h, linesOfPieces]
  cases l <;> rfl

theorem LinesOf.lines_eq {cs : List Char} {ls : List (List Char)} (h : LinesOf cs ls) :
    lines cs = ls := by
  induction h with
  | nil => rfl
  | last hne hfeed => rw [lines_of_not_mem hfeed, if_neg hne]
  | feed hfeed hreturn _ ih => rw [lines_append hfeed, ih, dropReturn, if_neg hreturn]
  | @returnFeed l rest ls hfeed _ ih =>
    have hline : '\n' ∉ l ++ ['\r'] := by simpa using hfeed
    have htext : l ++ '\r' :: '\n' :: rest = (l ++ ['\r']) ++ '\n' :: rest := by simp
    rw [htext, lines_append hline, ih, dropReturn, if_pos (by simp), List.dropLast_concat]

theorem linesOf_lines (cs : List Char) : LinesOf cs (lines cs) := by
  induction hn : cs.length using Nat.strongRecOn generalizing cs with | ind n ih
  subst hn
  by_cases hfeed : '\n' ∈ cs
  · -- The text is cut at its first line feed, and what stands behind it is shorter.
    obtain ⟨l, rest, rfl, hl⟩ := List.eq_append_cons_of_mem hfeed
    have hrest := ih rest.length (by rw [List.length_append, List.length_cons]; omega) rest rfl
    rw [lines_append hl, dropReturn]
    split
    · next hreturn =>
      obtain ⟨front, rfl⟩ := List.getLast?_eq_some_iff.mp hreturn
      rw [List.dropLast_concat, List.append_assoc]
      exact .returnFeed (fun h => hl (List.mem_append_left _ h)) hrest
    · next hreturn => exact .feed hl hreturn hrest
  · rw [lines_of_not_mem hfeed]
    split
    · next hnil =>
      subst hnil
      exact .nil
    · next hne => exact .last hne hfeed

/-- A text falls into its lines in one way. -/
theorem linesOf_iff {cs : List Char} {ls : List (List Char)} : LinesOf cs ls ↔ lines cs = ls :=
  ⟨LinesOf.lines_eq, fun h => h ▸ linesOf_lines cs⟩

/-! ### Words -/

section Words

variable {sep : Char} {cs front : List Char}

/-- What stands in front of the first separator, or all if there is none. -/
def CutAt (sep : Char) (cs front : List Char) : Prop :=
  sep ∉ front ∧ (cs = front ∨ ∃ rest, cs = front ++ sep :: rest)

theorem cutAt_before (sep : Char) (cs : List Char) : CutAt sep cs (before sep cs) := by
  have hcs : before sep cs ++ cs.dropWhile (· != sep) = cs := List.takeWhile_append_dropWhile
  refine ⟨fun hmem => ?_, ?_⟩
  · have hne := List.mem_takeWhile_imp hmem
    simp at hne
  · cases hrest : cs.dropWhile (· != sep) with
    | nil => exact .inl (by rw [hrest, List.append_nil] at hcs; exact hcs.symm)
    | cons c rest =>
      have hhead := List.head?_dropWhile_not (· != sep) cs
      rw [hrest] at hhead hcs
      obtain rfl : c = sep := by simpa using hhead
      exact .inr ⟨rest, hcs.symm⟩

theorem cutAt_iff : CutAt sep cs front ↔ before sep cs = front := by
  refine ⟨?_, fun h => h ▸ cutAt_before sep cs⟩
  have hkeep (hsep : sep ∉ front) : ∀ c ∈ front, (c != sep) = true := fun c hc => by
    rw [bne_iff_ne]
    rintro rfl
    exact hsep hc
  rintro ⟨hsep, rfl | ⟨rest, rfl⟩⟩
  · exact List.takeWhile_eq_self_iff.mpr (hkeep hsep)
  · rw [before, List.takeWhile_append_of_pos (hkeep hsep), List.takeWhile_cons_of_neg (by simp),
      List.append_nil]

/-- How a line falls into words: each begins behind gaps or at the front of the line, and ends in
front of a gap or with the line. -/
inductive WordsOf : List Char → List (List Char) → Prop
  | nil {gaps : List Char} : (∀ c ∈ gaps, isGap c = true) → WordsOf gaps []
  | cons {gaps w rest : List Char} {ws : List (List Char)} : (∀ c ∈ gaps, isGap c = true) →
      IsWord w → (∀ c, rest.head? = some c → isGap c = true) → WordsOf rest ws →
      WordsOf (gaps ++ w ++ rest) (w :: ws)

theorem words_gaps_append {gaps : List Char} (h : ∀ c ∈ gaps, isGap c = true) (cs : List Char) :
    words (gaps ++ cs) = words cs := by
  induction gaps with
  | nil => rfl
  | cons c gaps ih =>
    rw [← ih fun d hd => h d (List.mem_cons_of_mem c hd), words, List.cons_append, pieces_cons,
      if_pos (h c List.mem_cons_self)]
    rfl

theorem words_word_append {w rest : List Char} (hw : IsWord w)
    (hrest : ∀ c, rest.head? = some c → isGap c = true) : words (w ++ rest) = w :: words rest := by
  have hkeep (ws : List (List Char)) :
      (w :: ws).filter (fun w => !w.isEmpty) = w :: ws.filter fun w => !w.isEmpty :=
    List.filter_cons_of_pos (by simpa using hw.1)
  cases rest with
  | nil =>
    rw [words, List.append_nil, pieces_of_forall hw.2, hkeep]
    rfl
  | cons c rest =>
    have hgap := hrest c rfl
    rw [words, pieces_append rest hgap hw.2, hkeep, words, pieces_cons, if_pos hgap]
    rfl

theorem WordsOf.words_eq {ws : List (List Char)} (h : WordsOf cs ws) : words cs = ws := by
  induction h with
  | nil hgaps => exact (List.append_nil _ ▸ words_gaps_append hgaps [] : _)
  | cons hgaps hw hrest _ ih =>
    rw [List.append_assoc, words_gaps_append hgaps, words_word_append hw hrest, ih]

theorem wordsOf_words (cs : List Char) : WordsOf cs (words cs) := by
  suffices h : ∃ ws, WordsOf cs ws by
    obtain ⟨ws, hws⟩ := h
    rw [hws.words_eq]
    exact hws
  induction cs with
  | nil => exact ⟨[], .nil (by simp)⟩
  | cons c cs ih =>
    obtain ⟨ws, hws⟩ := ih
    cases hgap : isGap c with
    | true =>
      have hmore {gaps : List Char} (hgaps : ∀ d ∈ gaps, isGap d = true) :
          ∀ d ∈ c :: gaps, isGap d = true := List.forall_mem_cons.mpr ⟨hgap, hgaps⟩
      cases hws with
      | nil hgaps => exact ⟨[], .nil (hmore hgaps)⟩
      | cons hgaps hw hrest hws => exact ⟨_, .cons (hmore hgaps) hw hrest hws⟩
    | false =>
      have hlone : IsWord [c] := ⟨List.cons_ne_nil c [], by simpa using hgap⟩
      have hnone : ∀ d ∈ ([] : List Char), isGap d = true := by simp
      cases hws with
      | nil hgaps =>
        exact ⟨_, .cons hnone hlone
          (fun d hd => hgaps d (List.mem_of_head? hd)) (.nil hgaps)⟩
      | @cons gaps w rest ws hgaps hw hrest hws =>
        cases gaps with
        | nil =>
          -- The character stands in front of the first word and belongs to it.
          have hlonger : IsWord (c :: w) :=
            ⟨List.cons_ne_nil c w, List.forall_mem_cons.mpr ⟨hgap, hw.2⟩⟩
          exact ⟨_, .cons hnone hlonger hrest hws⟩
        | cons d gaps =>
          refine ⟨_, .cons hnone hlone (fun e he => ?_)
            (.cons hgaps hw hrest hws)⟩
          obtain rfl : d = e := Option.some.inj he
          exact hgaps d List.mem_cons_self

/-- A line falls into words in one way. -/
theorem wordsOf_iff {ws : List (List Char)} : WordsOf cs ws ↔ words cs = ws :=
  ⟨WordsOf.words_eq, fun h => h ▸ wordsOf_words cs⟩

/-- A change of characters that makes no gaps and fills none changes the words alone. -/
theorem words_map {f : Char → Char} (hf : ∀ c, isGap (f c) = isGap c) (cs : List Char) :
    words (cs.map f) = (words cs).map (·.map f) := by
  rw [words, pieces_map hf, List.filter_map, words]
  congr 2
  funext w
  simp

theorem toNat_le_of_isGap {c : Char} (h : isGap c = true) : c.toNat ≤ 32 := by
  simp only [isGap, Bool.or_eq_true, beq_iff_eq] at h
  rcases h with (((rfl | rfl) | rfl) | rfl) | rfl <;> decide

theorem isGap_toUpper (c : Char) : isGap c.toUpper = isGap c := by
  refine apply_toUpper (fun d hlow _ => ?_) c
  by_contra hgap
  have := toNat_le_of_isGap (Bool.of_not_eq_false hgap)
  omega

end Words

/-! ### Ends that are taken off -/

section Ends

variable {α : Type} {q : α → Bool} {l body : List α}

theorem dropWhile_eq_iff : l.dropWhile q = body ↔
    ∃ front, l = front ++ body ∧ (∀ a ∈ front, q a = true) ∧
      ∀ a, body.head? = some a → q a = false := by
  constructor
  · rintro rfl
    refine ⟨l.takeWhile q, List.takeWhile_append_dropWhile.symm,
      List.all_eq_true.mp List.all_takeWhile, fun a ha => ?_⟩
    have hhead := List.head?_dropWhile_not q l
    rw [ha] at hhead
    simpa using hhead
  · rintro ⟨front, rfl, hfront, hbody⟩
    rw [List.dropWhile_append_of_pos hfront]
    cases body with
    | nil => rfl
    | cons a body => rw [List.dropWhile_cons_of_neg (by simp [hbody a rfl])]

theorem reverse_dropWhile_reverse_eq_iff : (l.reverse.dropWhile q).reverse = body ↔
    ∃ back, l = body ++ back ∧ (∀ a ∈ back, q a = true) ∧
      ∀ a, body.getLast? = some a → q a = false := by
  rw [List.reverse_eq_iff, dropWhile_eq_iff]
  constructor
  · rintro ⟨front, hl, hfront, hbody⟩
    refine ⟨front.reverse, ?_, fun a ha => hfront a (List.mem_reverse.mp ha), fun a ha =>
      hbody a (by rwa [List.head?_reverse])⟩
    rw [← List.reverse_eq_iff.mpr hl.symm, List.reverse_append, List.reverse_reverse]
  · rintro ⟨back, rfl, hback, hbody⟩
    refine ⟨back.reverse, List.reverse_append, fun a ha => hback a (List.mem_reverse.mp ha),
      fun a ha => hbody a (by rwa [List.head?_reverse] at ha)⟩

/-- A front of entries of one kind, with none of that kind behind it, is told by the whole. -/
theorem append_inj_of_forall {l' r r' : List α} (hl : ∀ a ∈ l, q a = true)
    (hl' : ∀ a ∈ l', q a = true) (hr : ∀ a, r.head? = some a → q a = false)
    (hr' : ∀ a, r'.head? = some a → q a = false) (h : l ++ r = l' ++ r') : l = l' ∧ r = r' := by
  have hrest : (l ++ r).dropWhile q = r := dropWhile_eq_iff.mpr ⟨l, rfl, hl, hr⟩
  have hrest' : (l ++ r).dropWhile q = r' := dropWhile_eq_iff.mpr ⟨l', h, hl', hr'⟩
  obtain rfl : r = r' := hrest.symm.trans hrest'
  exact ⟨List.append_cancel_right h, rfl⟩

end Ends

/-- A text without the blanks at both of its ends. -/
def Trimmed (cs core : List Char) : Prop :=
  ∃ front back, cs = front ++ core ++ back ∧ (∀ c ∈ front, isBlank c = true) ∧
    (∀ c ∈ back, isBlank c = true) ∧ (∀ c, core.head? = some c → isBlank c = false) ∧
    ∀ c, core.getLast? = some c → isBlank c = false

theorem trimmed_trim (cs : List Char) : Trimmed cs (trim cs) := by
  obtain ⟨front, hcs, hfront, hhead⟩ := dropWhile_eq_iff.mp (rfl : dropBlanks cs = _)
  obtain ⟨back, hrest, hback, hlast⟩ := reverse_dropWhile_reverse_eq_iff.mp (rfl : trim cs = _)
  refine ⟨front, back, ?_, hfront, hback, fun c hc => hhead c ?_, hlast⟩
  · rw [List.append_assoc]
    exact hcs.trans (congrArg (front ++ ·) hrest)
  · rw [hrest, List.head?_append, hc]
    rfl

theorem trimmed_iff {cs core : List Char} : Trimmed cs core ↔ trim cs = core := by
  refine ⟨?_, fun h => h ▸ trimmed_trim cs⟩
  rintro ⟨front, back, rfl, hfront, hback, hhead, hlast⟩
  cases core with
  | nil =>
    have hblank : dropBlanks (front ++ [] ++ back) = [] := by
      rw [List.append_nil, dropBlanks, List.dropWhile_append_of_pos hfront]
      exact List.dropWhile_eq_nil_iff.mpr hback
    rw [trim, hblank]
    rfl
  | cons c core =>
    have hfirst : dropBlanks (front ++ c :: core ++ back) = c :: core ++ back :=
      dropWhile_eq_iff.mpr ⟨front, List.append_assoc .., hfront, hhead⟩
    rw [trim, hfirst]
    exact reverse_dropWhile_reverse_eq_iff.mpr ⟨back, rfl, hback, hlast⟩

/-! ### Numerals -/

/-- A numeral in decimal with its value: digits, perhaps with a plus sign in front of them. -/
def Numeral (cs : List Char) (n : Nat) : Prop :=
  ∃ ds, (cs = ds ∨ cs = '+' :: ds) ∧ ds ≠ [] ∧ (∀ c ∈ ds, c.isDigit = true) ∧ valueOf ds = n

theorem Numeral.ne_nil {cs : List Char} {n : Nat} (h : Numeral cs n) : cs ≠ [] := by
  obtain ⟨ds, rfl | rfl, hne, -⟩ := h
  · exact hne
  · exact List.cons_ne_nil '+' ds

theorem natBelow?_eq_some_iff {limit n : Nat} {cs : List Char} :
    natBelow? limit cs = some n ↔ Numeral cs n ∧ n < limit := by
  have hread (ds : List Char) : digitsBelow? limit ds = some n ↔
      (ds ≠ [] ∧ (∀ c ∈ ds, c.isDigit = true) ∧ valueOf ds = n) ∧ n < limit := by
    rw [digitsBelow?_eq]
    split
    · next h =>
      rw [Option.some.injEq, ← List.all_eq_true]
      exact ⟨fun hn => ⟨⟨h.1, h.2.1, hn⟩, hn ▸ h.2.2⟩, fun hn => hn.1.2.2⟩
    · next h =>
      constructor
      · intro hn
        cases hn
      · rintro ⟨⟨hne, hdigits, rfl⟩, hlt⟩
        exact absurd ⟨hne, List.all_eq_true.mpr hdigits, hlt⟩ h
  rw [natBelow?, hread]
  unfold dropPlus
  refine and_congr_left fun _ => ?_
  split
  · next ds =>
    constructor
    · exact fun h => ⟨ds, .inr rfl, h⟩
    · rintro ⟨ds', hcs | hcs, h⟩
      · -- A plus sign is no digit.
        subst hcs
        exact absurd (h.2.1 '+' List.mem_cons_self) (by decide)
      · cases hcs
        exact h
  · next hplus =>
    constructor
    · exact fun h => ⟨cs, .inl rfl, h⟩
    · rintro ⟨ds, rfl | hcs, h⟩
      · exact h
      · exact absurd hcs (hplus ds)

theorem append_key_inj {ds ds' key r r' : List Char} (hds : ∀ c ∈ ds, c.isDigit = true)
    (hds' : ∀ c ∈ ds', c.isDigit = true) (hkey : key.head?.any (!·.isDigit) = true)
    (h : ds ++ (key ++ r) = ds' ++ (key ++ r')) : ds = ds' ∧ r = r' := by
  have hhead (r : List Char) : ∀ c, (key ++ r).head? = some c → c.isDigit = false := by
    obtain ⟨c, hc, hdigit⟩ := (Option.any_eq_true _ _).mp hkey
    intro d hd
    rw [List.head?_append, hc] at hd
    cases hd
    simpa using hdigit
  obtain ⟨hfront, hrest⟩ := append_inj_of_forall hds hds' (hhead r) (hhead r') h
  exact ⟨hfront, List.append_cancel_left hrest⟩

theorem digits_key_inj {m n : Nat} {key r r' : List Char}
    (hkey : key.head?.any (!·.isDigit) = true)
    (h : digits m ++ (key ++ r) = digits n ++ (key ++ r')) : m = n ∧ r = r' := by
  obtain ⟨hdigits, hrest⟩ := append_key_inj (fun _ => isDigit_of_mem_digits)
    (fun _ => isDigit_of_mem_digits) hkey h
  exact ⟨digits_inj.mp hdigits, hrest⟩

end AntContest.Text
