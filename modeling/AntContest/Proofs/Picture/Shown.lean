import AntContest.Picture
import AntContest.Proofs.Game.CellLine
import AntContest.Proofs.Ground.MapRoundTrip

/-! # Pictures as they are shown

A terminal shows a text without its control sequences.  A picture is put together from pieces that
are each painted on their own, so that each of them is shown as it is without its paint, whatever
comes after it: `ShownAs` says so, and passes from the pieces to the whole.

* `exists_shownAs_apply`: this is so even for a painted name with an escape in it.  Whatever is
  swallowed then is within the paint, as the sequence that ends the paint also ends that.
* `lines_shown_render`: a picture is shown as a title, a line for each row of the map, and three
  lines below it. -/

namespace AntContest

open Text

/-! ### Control sequences -/

/-- What is shown of a text that is read inside or outside a control sequence: a sequence begins
with an escape and ends with the next `m`. -/
def shownFrom (inside : Bool) : List Char → List Char
  | [] => []
  | c :: cs =>
    if inside then shownFrom (c != 'm') cs
    else if c = '\x1b' then shownFrom true cs
    else c :: shownFrom false cs

/-- What is shown of a text. -/
def shown (text : List Char) : List Char := shownFrom false text

/-- A text is shown as another one, before any rest. -/
def ShownAs (text view : List Char) : Prop := ∀ rest, shown (text ++ rest) = view ++ shown rest

theorem ShownAs.shown_eq {text view : List Char} (h : ShownAs text view) : shown text = view := by
  have hnil := h []
  rwa [List.append_nil, shown, shown, shownFrom, List.append_nil] at hnil

theorem ShownAs.append {text text' view view' : List Char} (h : ShownAs text view)
    (h' : ShownAs text' view') : ShownAs (text ++ text') (view ++ view') := fun rest => by
  rw [List.append_assoc, h, h', List.append_assoc]

theorem ShownAs.flatMap {α : Type} {l : List α} {text view : α → List Char}
    (h : ∀ a ∈ l, ShownAs (text a) (view a)) : ShownAs (l.flatMap text) (l.flatMap view) := by
  induction l with
  | nil => exact fun _ => rfl
  | cons a l ih =>
    exact (h a List.mem_cons_self).append (ih fun b hb => h b (List.mem_cons_of_mem a hb))

theorem shownAs_self {text : List Char} (h : '\x1b' ∉ text) : ShownAs text text := by
  intro rest
  induction text with
  | nil => rfl
  | cons c text ih =>
    obtain ⟨hc, htext⟩ := not_or.mp (mt List.mem_cons.mpr h)
    show shownFrom false (c :: (text ++ rest)) = _
    rw [shownFrom, if_neg Bool.false_ne_true, if_neg (Ne.symm hc)]
    exact congrArg (c :: ·) (ih htext)

namespace Paint

theorem shownAs_start (p : Paint) : ShownAs p.start.toList [] := by
  rcases p with _ | _ | _ | _ | _ | _ <;> exact fun _ => rfl

theorem shownAs_reset : ShownAs reset.toList [] := fun _ => rfl

theorem toList_apply {p : Paint} (h : p ≠ plain) (text : String) :
    (p.apply text).toList = p.start.toList ++ (text.toList ++ reset.toList) := by
  rw [apply, if_neg h, String.toList_append, String.toList_append, List.append_assoc]

theorem shownAs_apply (p : Paint) {text : String} (h : '\x1b' ∉ text.toList) :
    ShownAs (p.apply text).toList text.toList := by
  by_cases hp : p = plain
  · rw [apply, if_pos hp]
    exact shownAs_self h
  · rw [toList_apply hp]
    have hall := p.shownAs_start.append ((shownAs_self h).append shownAs_reset)
    rwa [List.nil_append, List.append_nil] at hall

/-- The end of a paint ends every sequence before it, so what comes after it is shown. -/
theorem exists_shownFrom_reset (inside : Bool) {text : List Char} (h : '\n' ∉ text) :
    ∃ view, '\n' ∉ view ∧
      ∀ rest, shownFrom inside (text ++ reset.toList ++ rest) = view ++ shown rest := by
  -- Inside a sequence too: it ends with the `m` of the reset, if not before.
  induction text generalizing inside with
  | nil => exact ⟨[], List.not_mem_nil, fun rest => by cases inside <;> rfl⟩
  | cons c text ih =>
    obtain ⟨hc, htext⟩ := not_or.mp (mt List.mem_cons.mpr h)
    cases inside with
    | true => exact ih _ htext
    | false =>
      by_cases hescape : c = '\x1b'
      · subst hescape
        exact ih true htext
      · obtain ⟨view, hview, hrest⟩ := ih false htext
        refine ⟨c :: view, ?_, fun rest => ?_⟩
        · rw [List.mem_cons, not_or]
          exact ⟨hc, hview⟩
        · show (if c = '\x1b' then _ else _) = _
          rw [if_neg hescape]
          exact congrArg (c :: ·) (hrest rest)

/-- Whatever is painted, if it is within a line, then what is shown of it is so too. -/
theorem exists_shownAs_apply {p : Paint} (hp : p ≠ plain) {text : String} (h : '\n' ∉ text.toList) :
    ∃ view, '\n' ∉ view ∧ ShownAs (p.apply text).toList view := by
  obtain ⟨view, hview, hrest⟩ := exists_shownFrom_reset false h
  refine ⟨view, hview, fun rest => ?_⟩
  rw [toList_apply hp, List.append_assoc, p.shownAs_start]
  exact hrest rest

end Paint

/-! ### Characters of cells -/

def antLetter : Colony → Bool → Char
  | .red, false => 'r'
  | .red, true => 'R'
  | .black, false => 'b'
  | .black, true => 'B'

theorem Ant.glyph_eq (a : Ant) : a.glyph = antLetter a.colony a.carrying := by
  unfold glyph antLetter
  rfl

theorem antLetter_inj {c c' : Colony} {carrying carrying' : Bool} :
    antLetter c carrying = antLetter c' carrying' ↔ c = c' ∧ carrying = carrying' := by
  cases c <;> cases c' <;> cases carrying <;> cases carrying' <;> decide

theorem antLetter_mem (c : Colony) (carrying : Bool) :
    antLetter c carrying ∈ ['r', 'R', 'b', 'B'] := by
  cases c <;> cases carrying <;> decide

theorem not_isBlank_antLetter (c : Colony) (carrying : Bool) :
    isBlank (antLetter c carrying) = false := by
  cases c <;> cases carrying <;> decide

namespace Cell

/-- Without an ant, a cell looks like a cell of a map. -/
theorem exists_ofMapChar?_glyph (c : Cell) : ∃ d, ofMapChar? (c.glyph none) = some d := by
  have hdigit : ∀ n < 10, n ≠ 0 → (ofMapChar? (Nat.digitChar n)).isSome := by decide
  refine Option.isSome_iff_exists.mp ?_
  unfold glyph
  dsimp only
  split
  · rfl
  · split
    · next hfood =>
      have : c.food.toNat ≠ 0 := fun h => hfood (UInt32.toNat_inj.mp h)
      exact hdigit _ (by omega) (by omega)
    · split <;> rfl

/-- A character that is not for ants and not for maps does not appear. -/
theorem glyph_ne {ch : Char} (hmap : ofMapChar? ch = none)
    (hants : ch ∉ ['r', 'R', 'b', 'B']) (c : Cell) (ant : Option Ant) : c.glyph ant ≠ ch := by
  rintro rfl
  cases ant with
  | none =>
    obtain ⟨d, hd⟩ := c.exists_ofMapChar?_glyph
    exact nomatch hmap.symm.trans hd
  | some a =>
    have hletter := antLetter_mem a.colony a.carrying
    rw [← a.glyph_eq] at hletter
    exact hants hletter

theorem not_isBlank_glyph (c : Cell) (ant : Option Ant) : isBlank (c.glyph ant) = false := by
  cases ant with
  | none =>
    obtain ⟨d, hd⟩ := c.exists_ofMapChar?_glyph
    exact not_isBlank_of_ofMapChar? hd
  | some a =>
    show isBlank a.glyph = false
    rw [a.glyph_eq]
    exact not_isBlank_antLetter a.colony a.carrying

theorem glyph_eq_antLetter_iff {c : Cell} {ant : Option Ant} {colony : Colony} {carrying : Bool} :
    c.glyph ant = antLetter colony carrying ↔
      ∃ a, ant = some a ∧ a.colony = colony ∧ a.carrying = carrying := by
  cases ant with
  | none =>
    obtain ⟨d, hd⟩ := c.exists_ofMapChar?_glyph
    refine ⟨fun h => ?_, fun ⟨a, h, _⟩ => nomatch h⟩
    rw [h] at hd
    cases colony <;> cases carrying <;> cases hd
  | some a =>
    show a.glyph = _ ↔ _
    rw [a.glyph_eq, antLetter_inj]
    simp

theorem glyph_none_of_written {c : Cell} (h : c.written = c) : c.glyph none = c.mapChar := by
  have hfood : c.terrain ≠ .clear → c.food = 0 := fun hterrain => by
    rw [← h]
    exact if_neg hterrain
  unfold glyph mapChar
  cases hterrain : c.terrain with
  | rock => rfl
  | hill owner =>
    rw [hfood (by simp [hterrain])]
    cases owner <;> rfl
  | clear =>
    by_cases hzero : c.food = 0
    · rw [hzero]
      rfl
    · simp [hzero, foodDigit]

end Cell

/-! ### Rows and lines -/

namespace Game.Snapshot

variable (s : Snapshot)

def shownRow (y : Nat) : List Char :=
  Ground.stagger y ++ (s.ground.row y).flatMap fun c => [c.glyph (s.occupant? c), ' ']

theorem shownAs_cellText (c : Cell) :
    ShownAs (s.cellText c).toList [c.glyph (s.occupant? c), ' '] := by
  have hescape : '\x1b' ∉ (String.singleton (c.glyph (s.occupant? c))).toList := by
    rw [String.toList_singleton, List.mem_singleton]
    exact (Cell.glyph_ne rfl (by decide) c (s.occupant? c)).symm
  have hglyph := (c.paint (s.occupant? c)).shownAs_apply hescape
  rw [String.toList_singleton] at hglyph
  rw [cellText, String.toList_append]
  exact hglyph.append (shownAs_self (by decide))

theorem shownAs_rowText (y : Nat) : ShownAs (s.rowText y).toList (s.shownRow y ++ ['\n']) := by
  have hstagger : (if y % 2 = 1 then " " else "").toList = Ground.stagger y := by
    unfold Ground.stagger
    split <;> rfl
  have hcells : (String.join ((List.range s.ground.width.val).filterMap fun x =>
      (s.ground.cell? ⟨x, y⟩).map s.cellText)).toList =
        (s.ground.row y).flatMap fun c => (s.cellText c).toList := by
    rw [String.toList_join, ← List.map_filterMap, List.flatMap_map]
    rfl
  rw [rowText, String.toList_append, String.toList_append, hstagger, hcells, shownRow]
  refine ((shownAs_self ?_).append (.flatMap fun c _ => s.shownAs_cellText c)).append
    (shownAs_self (by decide))
  unfold Ground.stagger
  split <;> decide

theorem shownAs_mapRows :
    ShownAs s.mapRows.toList (unlines ((List.range s.ground.height.val).map s.shownRow)) := by
  rw [mapRows, String.toList_join, unlines, List.flatMap_map, List.flatMap_map]
  exact .flatMap fun y _ => s.shownAs_rowText y

theorem isLine_shownRow (y : Nat) : IsLine (s.shownRow y) := by
  have hspace : ∀ ch ∈ Ground.stagger y, ch = ' ' := by
    unfold Ground.stagger
    split <;> simp
  refine isLine_of_forall fun ch hch => ?_
  rw [shownRow, List.mem_append, List.mem_flatMap] at hch
  rcases hch with hch | ⟨c, -, hch⟩
  · rw [hspace ch hch]
    decide
  · rw [List.mem_cons, List.mem_singleton] at hch
    rcases hch with rfl | rfl
    · exact ⟨Cell.glyph_ne rfl (by decide) c _, Cell.glyph_ne rfl (by decide) c _⟩
    · decide

theorem rowChars_shownRow (y : Nat) :
    Ground.rowChars (s.shownRow y) =
      (s.ground.row y).map fun c => c.glyph (s.occupant? c) := by
  have hcell (c : Cell) : [c.glyph (s.occupant? c), ' '].filter (fun ch => !isBlank ch) =
      [c.glyph (s.occupant? c)] := by
    rw [List.filter_cons_of_pos (by rw [Cell.not_isBlank_glyph]; rfl)]
    rfl
  rw [shownRow, Ground.rowChars, List.filter_append, ← Ground.rowChars, Ground.rowChars_stagger,
    List.nil_append, List.filter_flatMap, List.map_eq_flatMap]
  simp only [hcell]

/-! ### Above and below the map -/

/-- The line with the numbers of the living. -/
def countsLine (red black : Nat) : String :=
  s!"red: {red} ants alive   black: {black} ants alive   "

def legendLine : String :=
  "Legend: r/b=ant  R/B=ant with food  +/-=anthill  1-9=food  #=rock"

theorem feed_not_mem_turn (turn maxTurns : Nat) :
    '\n' ∉ (s!"Turn {turn}/{maxTurns}").toList := by
  simp only [toString_text, String.toList_append, List.mem_append, not_or, toList_toString]
  exact ⟨⟨⟨by decide, not_mem_digits rfl⟩, by decide⟩, not_mem_digits rfl⟩

theorem feed_not_mem_score (c : Colony) {name : String} (h : '\n' ∉ name.toList) (score : Nat) :
    '\n' ∉ (s!"[{c} {name}: {score}]").toList := by
  have hcolony : '\n' ∉ (toString c).toList := by cases c <;> decide
  simp only [toString_text, String.toList_append, List.mem_append, not_or, toList_toString]
  exact ⟨⟨⟨⟨⟨⟨by decide, hcolony⟩, by decide⟩, h⟩, by decide⟩, not_mem_digits rfl⟩, by decide⟩

theorem exists_shownAs_title (maxTurns : Nat) {red black : String} (hred : '\n' ∉ red.toList)
    (hblack : '\n' ∉ black.toList) :
    ∃ title, '\n' ∉ title ∧
      ShownAs (s.turnText maxTurns ++ s.scoreText .red red ++ s.scoreText .black black).toList
        title := by
  have hspace : ShownAs " ".toList [' '] := shownAs_self (by decide)
  have hscore (c : Colony) {name : String} (h : '\n' ∉ name.toList) :
      ∃ view, '\n' ∉ view ∧ ShownAs (s.scoreText c name).toList view := by
    obtain ⟨view, hview, hshown⟩ := Paint.exists_shownAs_apply (p := .colony c) (by simp)
      (feed_not_mem_score c h (s.score c).toNat)
    refine ⟨view ++ [' '], by simpa using hview, ?_⟩
    rw [scoreText, String.toList_append]
    exact hshown.append hspace
  obtain ⟨turn, hturn, hshown⟩ := Paint.exists_shownAs_apply (p := .bold) (by simp)
    (feed_not_mem_turn s.turn maxTurns)
  obtain ⟨first, hfirst, hshownRed⟩ := hscore .red hred
  obtain ⟨second, hsecond, hshownBlack⟩ := hscore .black hblack
  let gap := List.replicate (turnWidth - (s!"Turn {s.turn}/{maxTurns}").length) ' '
  have hgap : ∀ ch ∈ gap, ch = ' ' := fun ch => List.eq_of_mem_replicate
  refine ⟨turn ++ gap ++ first ++ second, ?_, ?_⟩
  · simp only [List.mem_append, not_or]
    exact ⟨⟨⟨hturn, fun h => nomatch hgap _ h⟩, hfirst⟩, hsecond⟩
  · simp only [turnText, String.toList_append, String.toList_ofList]
    exact ((hshown.append (shownAs_self fun h => nomatch hgap _ h)).append hshownRed).append
      hshownBlack

theorem escape_not_mem_countsLine (red black : Nat) :
    '\x1b' ∉ (countsLine red black).toList := by
  simp only [countsLine, toString_text, String.toList_append, List.mem_append, not_or,
    toList_toString]
  exact ⟨⟨⟨⟨by decide, not_mem_digits rfl⟩, by decide⟩, not_mem_digits rfl⟩, by decide⟩

theorem isLine_countsLine (red black : Nat) : IsLine (countsLine red black).toList := by
  refine isLine_of_all ?_
  simp only [countsLine, toString_text, String.toList_append, List.all_append, toList_toString,
    all_inLine_digits]
  decide

theorem aliveText_append :
    s.aliveText .red ++ s.aliveText .black =
      countsLine (s.aliveCount .red) (s.aliveCount .black) := by
  have hfront : "red: " = toString Colony.red ++ ": " := by decide
  have hmiddle : " ants alive   black: " = " ants alive   " ++ (toString Colony.black ++ ": ") := by
    decide
  simp only [aliveText, countsLine, toString_text, hfront, hmiddle, String.append_assoc]

def linesBelow : List (List Char) :=
  [[], legendLine.toList, (countsLine (s.aliveCount .red) (s.aliveCount .black)).toList]

theorem isLine_of_mem_linesBelow {l : List Char} (h : l ∈ s.linesBelow) : IsLine l := by
  rw [linesBelow, List.mem_cons, List.mem_cons, List.mem_singleton] at h
  rcases h with rfl | rfl | rfl
  · exact isLine_of_all rfl
  · exact isLine_of_all (by decide)
  · exact isLine_countsLine _ _

theorem shownAs_below :
    ShownAs (legend ++ s.aliveText .red ++ s.aliveText .black ++ "\n").toList
      (unlines s.linesBelow) := by
  have hlegend : legend.toList = unlines [[], legendLine.toList] := by decide
  have hplain : '\x1b' ∉ legend.toList := by decide
  have hcounts := escape_not_mem_countsLine (s.aliveCount .red) (s.aliveCount .black)
  have hbelow : legend ++ s.aliveText .red ++ s.aliveText .black ++ "\n" =
      legend ++ (countsLine (s.aliveCount .red) (s.aliveCount .black) ++ "\n") := by
    rw [← aliveText_append, String.append_assoc, String.append_assoc, String.append_assoc]
  have hlines : unlines s.linesBelow = legend.toList ++
      ((countsLine (s.aliveCount .red) (s.aliveCount .black)).toList ++ ['\n']) := by
    rw [hlegend, linesBelow]
    generalize legendLine.toList = line
    simp [unlines]
  rw [hbelow, hlines, String.toList_append, String.toList_append]
  exact (shownAs_self hplain).append ((shownAs_self hcounts).append (shownAs_self (by decide)))

/-- A picture is shown as a title, the rows of the map, an empty line, the legend, and the numbers
of the living. -/
theorem lines_shown_render (maxTurns : Nat) {red black : String} (hred : '\n' ∉ red.toList)
    (hblack : '\n' ∉ black.toList) :
    ∃ title, lines (shown (s.render maxTurns red black).toList) =
      title :: ((List.range s.ground.height.val).map s.shownRow ++ s.linesBelow) := by
  obtain ⟨title, hfeed, htitle⟩ := s.exists_shownAs_title maxTurns hred hblack
  have hrender : s.render maxTurns red black =
      s.turnText maxTurns ++ s.scoreText .red red ++ s.scoreText .black black ++ ("\n" ++
        (s.mapRows ++ (legend ++ s.aliveText .red ++ s.aliveText .black ++ "\n"))) := by
    simp only [render, String.append_assoc]
  have hshown : ShownAs (s.render maxTurns red black).toList (title ++ '\n' ::
      unlines ((List.range s.ground.height.val).map s.shownRow ++ s.linesBelow)) := by
    have hend : ShownAs "\n".toList ['\n'] := shownAs_self (by decide)
    rw [hrender, unlines_append, ← List.singleton_append, String.toList_append,
      String.toList_append (s := "\n"), String.toList_append (s := s.mapRows)]
    exact htitle.append (hend.append (s.shownAs_mapRows.append s.shownAs_below))
  refine ⟨dropReturn title, ?_⟩
  rw [hshown.shown_eq, lines_append hfeed, lines_unlines]
  intro l hl
  rcases List.mem_append.mp hl with hl | hl
  · obtain ⟨y, -, rfl⟩ := List.mem_map.mp hl
    exact s.isLine_shownRow y
  · exact s.isLine_of_mem_linesBelow hl

end Game.Snapshot

end AntContest
