import AntContest.Proofs.Text.Cutting

/-! # Changes in the middle of a text

What is cut out of a text depends on its surroundings only as far as the next separator.

* `rawLines` are the pieces between line feeds.  What is put into a text without a line feed goes
  into one of them, and the others stay what they are (`exists_rawLines`).
* A run of gaps stands between the words of what is around it (`words_append_gaps`).
* What stands in front of a separator, and the first visible character of a text, are found in its
  front if it has any (`before_append_of_mem`, `head?_dropBlanks_append`). -/

namespace AntContest.Text

/-! ### Lines -/

theorem length_rawLines (cs : List Char) : (rawLines cs).length = cs.count '\n' + 1 := by
  induction cs with
  | nil => rfl
  | cons c cs ih =>
    by_cases hc : c = '\n'
    · subst hc
      rw [← List.nil_append ('\n' :: cs), rawLines_append_feed, List.length_append, ih,
        List.nil_append, List.count_cons_self, Nat.add_comm]
      rfl
    · have hcons : rawLines (c :: cs) = consFirst c (rawLines cs) := by
        rw [rawLines, pieces_cons, if_neg (by simpa using hc)]
        rfl
      rw [hcons, List.count_cons_of_ne hc, ← ih]
      cases hlines : rawLines cs with
      | nil => exact absurd hlines (pieces_ne_nil _ _)
      | cons l ls => rfl

/-- The beginning of the line that is open behind a text. -/
def lineFront (front : List Char) : List Char := (before '\n' front.reverse).reverse

/-- The end of the line that is open in front of a text. -/
def lineBack (back : List Char) : List Char := before '\n' back

theorem exists_rawLines_append (front : List Char) :
    ∃ ps, ∀ rest, rawLines (front ++ rest) = ps ++ rawLines (lineFront front ++ rest) := by
  obtain ⟨-, hreverse | ⟨f, hreverse⟩⟩ := cutAt_before '\n' front.reverse
  · have hfront : lineFront front = front := by rw [lineFront, ← hreverse, List.reverse_reverse]
    exact ⟨[], fun rest => by rw [hfront]; rfl⟩
  · have hfront : front = f.reverse ++ '\n' :: lineFront front := by
      rw [List.reverse_eq_iff, List.reverse_append] at hreverse
      simpa [lineFront] using hreverse
    refine ⟨rawLines f.reverse, fun rest => ?_⟩
    rw [← rawLines_append_feed, ← List.cons_append, ← List.append_assoc, ← hfront]

theorem exists_append_rawLines (back : List Char) :
    ∃ qs, ∀ l, '\n' ∉ l → rawLines (l ++ back) = (l ++ lineBack back) :: qs := by
  obtain ⟨hfeed, hback | ⟨b, hback⟩⟩ := cutAt_before '\n' back
  all_goals
    have hline {l : List Char} (hl : '\n' ∉ l) : '\n' ∉ l ++ lineBack back := fun hmem =>
      (List.mem_append.mp hmem).elim hl hfeed
  · refine ⟨[], fun l hl => ?_⟩
    rw [← rawLines_of_not_mem (hline hl), lineBack, ← hback]
  · refine ⟨rawLines b, fun l hl => ?_⟩
    have htext : l ++ back = (l ++ lineBack back) ++ '\n' :: b := by
      rw [List.append_assoc, lineBack, ← hback]
    rw [htext, rawLines_append_feed, rawLines_of_not_mem (hline hl)]
    rfl

/-- What has no line feed in it goes into one line. -/
theorem exists_rawLines (front back : List Char) : ∃ ps qs, ∀ mid, '\n' ∉ mid →
    rawLines (front ++ mid ++ back) = ps ++ (lineFront front ++ mid ++ lineBack back) :: qs := by
  obtain ⟨ps, hfront⟩ := exists_rawLines_append front
  obtain ⟨qs, hback⟩ := exists_append_rawLines back
  refine ⟨ps, qs, fun mid hmid => ?_⟩
  have hline : '\n' ∉ lineFront front ++ mid := by
    have hfeed : '\n' ∉ lineFront front := fun hmem =>
      (cutAt_before '\n' front.reverse).1 (List.mem_reverse.mp hmem)
    exact fun hmem => (List.mem_append.mp hmem).elim hfeed hmid
  rw [List.append_assoc, hfront, ← List.append_assoc, hback _ hline]

/-- A place where a line begins. -/
def LineStart (front : List Char) : Prop := front = [] ∨ ∃ f, front = f ++ ['\n']

/-- A place where a line ends. -/
def LineEnd (back : List Char) : Prop :=
  back = [] ∨ ∃ b, back = '\n' :: b ∨ back = '\r' :: '\n' :: b

theorem LineStart.lineFront_eq {front : List Char} (h : LineStart front) :
    lineFront front = [] := by
  rcases h with rfl | ⟨f, rfl⟩
  · rfl
  · rw [lineFront, List.reverse_append]
    rfl

theorem LineEnd.isGap {back : List Char} (h : LineEnd back) :
    ∀ c ∈ lineBack back, isGap c = true := by
  rcases h with rfl | ⟨b, rfl | rfl⟩
  · exact List.forall_mem_nil _
  · exact List.forall_mem_nil _
  · exact List.forall_mem_singleton.mpr rfl

/-! ### Words -/

theorem words_append_gap {g : Char} (hg : isGap g = true) (a b : List Char) :
    words (a ++ g :: b) = words a ++ words b := by
  rw [words, pieces_append_sep a b hg, List.filter_append, words, words]

theorem words_of_gaps {gaps : List Char} (h : ∀ c ∈ gaps, isGap c = true) : words gaps = [] := by
  have hwords := words_gaps_append h []
  rwa [List.append_nil] at hwords

/-- A run of gaps is at the edge of a word: there are some, or nothing but gaps is on one of its
sides. -/
def Edge (a gaps b : List Char) : Prop := gaps ≠ [] ∨ a = [] ∨ ∀ c ∈ b, isGap c = true

theorem words_append_gaps {a gaps b : List Char} (hgaps : ∀ c ∈ gaps, isGap c = true)
    (hedge : Edge a gaps b) : words (a ++ gaps ++ b) = words a ++ words b := by
  cases gaps with
  | nil =>
    rw [List.append_nil]
    rcases hedge with hne | rfl | hb
    · exact absurd rfl hne
    · rfl
    · cases b with
      | nil => rw [List.append_nil, words_of_gaps hb, List.append_nil]
      | cons g b =>
        obtain ⟨hg, hb'⟩ := List.forall_mem_cons.mp hb
        rw [words_append_gap hg, words_of_gaps hb, words_of_gaps hb']
  | cons g gaps =>
    obtain ⟨hg, hgaps⟩ := List.forall_mem_cons.mp hgaps
    rw [List.append_assoc, List.cons_append, words_append_gap hg, words_gaps_append hgaps]

/-! ### Comments and blanks -/

theorem before_append_of_mem {sep : Char} {a : List Char} (h : sep ∈ a) (b : List Char) :
    before sep (a ++ b) = before sep a := by
  obtain ⟨front, rest, rfl, hfront⟩ := List.eq_append_cons_of_mem h
  have hcut (rest : List Char) : before sep (front ++ sep :: rest) = front :=
    cutAt_iff.mp ⟨hfront, .inr ⟨rest, rfl⟩⟩
  rw [List.append_assoc, List.cons_append, hcut, hcut]

theorem before_append_of_not_mem {sep : Char} {a : List Char} (h : sep ∉ a) (b : List Char) :
    before sep (a ++ b) = a ++ before sep b := by
  refine List.takeWhile_append_of_pos fun c hc => ?_
  rw [bne_iff_ne]
  rintro rfl
  exact h hc

theorem before_append_sep (sep : Char) (a b : List Char) :
    before sep (a ++ sep :: b) = before sep a := by
  by_cases h : sep ∈ a
  · exact before_append_of_mem h _
  · have hnil : before sep (sep :: b) = [] := List.takeWhile_cons_of_neg (by simp)
    have hself := before_append_of_not_mem h []
    rw [before_append_of_not_mem h, hnil]
    rw [List.append_nil] at hself
    exact hself.symm

theorem head?_dropBlanks_append (a b : List Char) :
    (dropBlanks (a ++ b)).head? = (dropBlanks a).head?.or (dropBlanks b).head? := by
  unfold dropBlanks
  rw [List.dropWhile_append]
  cases hrest : a.dropWhile isBlank with
  | nil => rfl
  | cons c rest => rfl

theorem dropBlanks_of_gaps {gaps : List Char} (h : ∀ c ∈ gaps, isGap c = true) :
    dropBlanks gaps = [] :=
  List.dropWhile_eq_nil_iff.mpr fun c hc => isBlank_of_isGap (h c hc)

/-! ### Case -/

theorem beq_toUpper {d : Char} (hd : d.toNat < 65) (c : Char) : (c.toUpper == d) = (c == d) := by
  refine apply_toUpper (q := (· == d)) (fun c hlow _ => ?_) c
  rw [beq_eq_false_iff_ne]
  rintro rfl
  omega

theorem isBlank_toUpper (c : Char) : isBlank c.toUpper = isBlank c := by
  refine apply_toUpper (fun c hlow hhigh => ?_) c
  simp only [isBlank, Bool.or_eq_false_iff, Bool.and_eq_false_iff, decide_eq_false_iff_not,
    beq_eq_false_iff_ne, ne_eq]
  omega

theorem before_map_toUpper {sep : Char} (hsep : sep.toNat < 65) (cs : List Char) :
    before sep (cs.map Char.toUpper) = (before sep cs).map Char.toUpper := by
  rw [before, List.takeWhile_map, before]
  congr 2
  exact funext fun c => congrArg (!·) (beq_toUpper hsep c)

theorem dropBlanks_map_toUpper (cs : List Char) :
    dropBlanks (cs.map Char.toUpper) = (dropBlanks cs).map Char.toUpper := by
  rw [dropBlanks, List.dropWhile_map, dropBlanks]
  congr 2
  exact funext isBlank_toUpper

end AntContest.Text
