import AntContest.Proofs.Ground.MapFormat
import Mathlib.Data.List.Basic

/-! # The text of a map is read back

A map shows the terrain of its cells and up to nine particles of food on clear ones.  `written` is
what is left of a ground in its text.

* `readMap_mapText`: the text of any ground is read as what is left of it, or its open border is
  reported.
* `readMap_mapText_of_readMap` and `readMap_mapText_of_generate`: nothing is lost of a ground that
  was read itself, or generated.
* `map_text_round_trip`: what becomes of a ground in its text, cell by cell. -/

namespace AntContest

open Text

/-! ### Cells -/

/-- What is left of a cell in the text of a map. -/
def Cell.written (c : Cell) : Cell :=
  .fresh c.terrain (if c.terrain = .clear then .ofNat (min c.food.toNat 9) else 0)

theorem Cell.ofMapChar?_mapChar (c : Cell) : ofMapChar? c.mapChar = some c.written := by
  have hdigit : ∀ n < 10, n ≠ 0 →
      ofMapChar? (Nat.digitChar n) = some (fresh .clear (.ofNat n)) := by decide
  unfold mapChar written
  split
  · next h => simp [h, ofMapChar?]
  · next h => simp [h, ofMapChar?]
  · next h => simp [h, ofMapChar?]
  · next h =>
    rw [h, if_pos rfl]
    split
    · next hzero => rw [hzero]; rfl
    · next hfood =>
      have : c.food.toNat ≠ 0 := fun h => hfood (UInt32.toNat_inj.mp h)
      exact hdigit (min c.food.toNat 9) (by omega) (by omega)

theorem Cell.toNat_food_written (c : Cell) :
    c.written.food.toNat = if c.terrain = .clear then min c.food.toNat 9 else 0 := by
  show (if c.terrain = .clear then UInt32.ofNat (min c.food.toNat 9) else 0).toNat = _
  split
  · rw [UInt32.toNat_ofNat', Nat.mod_eq_of_lt (by omega)]
  · rfl

theorem not_isBlank_of_ofMapChar? {ch : Char} {c : Cell} (h : Cell.ofMapChar? ch = some c) :
    isBlank ch = false := by
  unfold Cell.ofMapChar? at h
  split at h <;> cases h <;> decide

theorem Cell.written_of_ofMapChar? {ch : Char} {c : Cell} (h : ofMapChar? ch = some c) :
    c.written = c := by
  unfold ofMapChar? at h
  split at h <;> cases h <;> decide

namespace Ground

/-- What is left of a ground in its text. -/
def written (g : Ground) : Ground :=
  tabulate g.width g.height fun p => ((g.cell? p).getD default).written

theorem cell?_written (g : Ground) (p : Position) :
    g.written.cell? p = (g.cell? p).map Cell.written := by
  cases hp : g.contains p with
  | true =>
    obtain ⟨c, hc⟩ := exists_cell? hp
    rw [written, cell?_tabulate, if_pos (contains_iff.mp hp), hc]
    rfl
  | false =>
    rw [cell?_eq_none hp]
    exact cell?_eq_none hp

theorem written_eq_self {g : Ground} (h : ∀ p c, g.cell? p = some c → c.written = c) :
    g.written = g := by
  refine ext_cell? rfl rfl fun p => ?_
  rw [cell?_written]
  cases hc : g.cell? p with
  | none => rfl
  | some c => rw [Option.map_some, h p c hc]

/-! ### The text as a list of lines -/

/-- The characters of the line of a row. -/
def line (g : Ground) (y : Nat) : List Char :=
  stagger y ++ ((g.row y).map Cell.mapChar).intersperse ' '

theorem toList_mapText (g : Ground) :
    g.mapText.toList =
      unlines
        (digits g.width.val :: digits g.height.val :: (List.range g.height.val).map g.line) := by
  have hrow (y : Nat) : (g.rowText y).toList = g.line y ++ ['\n'] := by
    rw [rowText, String.toList_ofList, line]
  simp [mapText, unlines, toString_text, hrow, digits, List.flatMap_map]

theorem mem_of_mem_intersperse {α : Type} {sep a : α} {l : List α} (h : a ∈ l.intersperse sep) :
    a = sep ∨ a ∈ l := by
  induction l with
  | nil => cases h
  | cons b l ih =>
    cases l with
    | nil => exact .inr h
    | cons c l =>
      rw [List.intersperse_cons_cons, List.mem_cons, List.mem_cons] at h
      rcases h with rfl | rfl | h
      · exact .inr List.mem_cons_self
      · exact .inl rfl
      · exact (ih h).imp_right (List.mem_cons_of_mem b)

theorem mem_line {g : Ground} {y : Nat} {ch : Char} (h : ch ∈ g.line y) :
    ch = ' ' ∨ ∃ c, Cell.ofMapChar? ch = some c := by
  rw [line, List.mem_append] at h
  rcases h with h | h
  · unfold stagger at h
    split at h
    · exact .inl (List.mem_singleton.mp h)
    · cases h
  · refine (mem_of_mem_intersperse h).imp_right fun hcell => ?_
    obtain ⟨c, -, rfl⟩ := List.mem_map.mp hcell
    exact ⟨_, c.ofMapChar?_mapChar⟩

theorem isLine_line (g : Ground) (y : Nat) : IsLine (g.line y) := by
  refine isLine_of_forall fun ch hch => ?_
  rcases mem_line hch with rfl | ⟨c, hc⟩
  · decide
  · constructor <;> rintro rfl <;> cases hc

theorem rowChars_stagger (y : Nat) : rowChars (stagger y) = [] := by
  unfold stagger
  split <;> rfl

theorem rowChars_line (g : Ground) (y : Nat) :
    rowChars (g.line y) = (g.row y).map Cell.mapChar := by
  have hvisible (c : Cell) : (!isBlank c.mapChar) = true := by
    rw [not_isBlank_of_ofMapChar? c.ofMapChar?_mapChar]
    rfl
  have hrow (cells : List Cell) :
      ((cells.map Cell.mapChar).intersperse ' ').filter (fun ch => !isBlank ch) =
        cells.map Cell.mapChar := by
    induction cells with
    | nil => rfl
    | cons c cells ih =>
      cases cells with
      | nil => exact List.filter_cons_of_pos (hvisible c)
      | cons d cells =>
        have hspace : (!isBlank ' ') = false := rfl
        simp only [List.map_cons, List.intersperse_cons_cons] at ih ⊢
        rw [List.filter_cons, List.filter_cons, ih]
        simp only [hvisible, hspace, if_true, Bool.false_eq_true, if_false]
  rw [rowChars, line, List.filter_append, hrow, ← rowChars, rowChars_stagger, List.nil_append]

/-! ### Reading the lines -/

theorem readSide_digits (d : Dimension) (side : Side) :
    readSide d (some (digits side.val)) = .ok side := by
  have hside : Side.ofNat? side.val = some side := dif_pos side.property
  simp only [readSide, trim_digits, natBelow?_digits side.property.2, hside]

theorem readRows_map (rows : List (List Cell)) :
    readRows 0 (rows.map (·.map Cell.mapChar)) = .ok (rows.map (·.map Cell.written)) := by
  refine readRows_eq_ok_iff.mpr ?_
  simp only [List.map_map, Function.comp_def, Cell.ofMapChar?_mapChar]

theorem row_eq_map {g : Ground} {y : Nat} (hy : y < g.height.val) :
    g.row y = (List.range g.width.val).map fun x => (g.cell? ⟨x, y⟩).getD default := by
  rw [row, List.filterMap_eq_map_iff_forall_eq_some]
  intro x hx
  obtain ⟨c, hc⟩ := exists_cell? (contains_iff.mpr ⟨List.mem_range.mp hx, hy⟩ : g.contains ⟨x, y⟩)
  rw [hc]
  rfl

theorem ofRows_written (g : Ground) :
    ofRows g.width g.height
      ((List.range g.height.val).map fun y => (g.row y).map Cell.written) = g.written := by
  refine ext_cell? rfl rfl fun p => ?_
  rw [ofRows, written, cell?_tabulate, cell?_tabulate]
  split
  · next h =>
    simp [h.1, h.2, row_eq_map h.2]
  · rfl

theorem dropBlankLines_eq_self {ls : List (List Char)}
    (h : ∀ l ∈ ls, (l.all isBlank) = false) : dropBlankLines ls = ls :=
  reverse_dropWhile_reverse_eq_iff.mpr
    ⟨[], (List.append_nil ls).symm, by simp, fun l hl => h l (List.mem_of_getLast? hl)⟩

theorem length_row {g : Ground} {y : Nat} (hy : y < g.height.val) :
    (g.row y).length = g.width.val := by
  rw [row_eq_map hy, List.length_map, List.length_range]

theorem not_all_isBlank_of_rowChars {g : Ground} {y : Nat} {l : List Char}
    (hl : rowChars l = (g.row y).map Cell.mapChar) (hy : y < g.height.val) :
    l.all isBlank = false := by
  have hlength := length_row hy
  have hwidth := g.width.property.1
  rw [← Bool.not_eq_true, List.all_eq_true]
  intro hblank
  have hnil : rowChars l = [] := by
    rw [rowChars, List.filter_eq_nil_iff]
    intro ch hch
    simp [hblank ch hch]
  rw [hl, List.map_eq_nil_iff] at hnil
  rw [hnil, List.length_nil] at hlength
  omega

/-! ### Reading the text -/

theorem openBorder?_written (g : Ground) : g.written.openBorder? = g.openBorder? := by
  have hpositions : g.written.positions = g.positions := by
    simp only [positions, size_cells]
    rfl
  rw [openBorder?, hpositions, openBorder?]
  congr 1
  funext p
  rw [cell?_written, Option.any_map]
  rfl

/-- A text whose lines show the sides and the rows of a ground is read as what is left of the
ground, unless its border is open; where the spaces are does not matter. -/
theorem readMap_of_lines {g : Ground} {text : String} {line : Nat → List Char}
    (hlines : lines text.toList =
      digits g.width.val :: digits g.height.val :: (List.range g.height.val).map line)
    (hline : ∀ y < g.height.val, rowChars (line y) = (g.row y).map Cell.mapChar) :
    readMap text =
      match g.openBorder? with
      | some p => .error (.openBorder p)
      | none => .ok g.written := by
  have hrows : dropBlankLines ((List.range g.height.val).map line) =
      (List.range g.height.val).map line := by
    refine dropBlankLines_eq_self fun l hl => ?_
    obtain ⟨y, hy, rfl⟩ := List.mem_map.mp hl
    have hy := List.mem_range.mp hy
    exact not_all_isBlank_of_rowChars (hline y hy) hy
  have hchars : ((List.range g.height.val).map line).map rowChars =
      ((List.range g.height.val).map g.row).map (·.map Cell.mapChar) := by
    rw [List.map_map, List.map_map]
    exact List.map_congr_left fun y hy => hline y (List.mem_range.mp hy)
  have hlengths : checkLengths g.width.val 0
      (((List.range g.height.val).map g.row).map (·.map Cell.mapChar)) = .ok () := by
    refine checkLengths_eq_ok_iff.mpr fun row hrow => ?_
    rw [List.map_map] at hrow
    obtain ⟨y, hy, rfl⟩ := List.mem_map.mp hrow
    show ((g.row y).map Cell.mapChar).length = g.width.val
    rw [List.length_map, length_row (List.mem_range.mp hy)]
  have hground : ofRows g.width g.height
      (((List.range g.height.val).map g.row).map (·.map Cell.written)) = g.written := by
    rw [List.map_map]
    exact ofRows_written g
  have hcount : ((List.range g.height.val).map line).length = g.height.val := by
    rw [List.length_map, List.length_range]
  unfold readMap
  simp only [hlines, List.getElem?_cons_zero, List.getElem?_cons_succ, List.drop_succ_cons,
    List.drop_zero, readSide_digits, hrows, hchars, bind, Except.bind, hcount, ne_eq,
    not_true_eq_false, if_false, hlengths, readRows_map, hground, openBorder?_written]
  cases g.openBorder? <;> rfl

/-- The text of a ground is read as what is left of it, unless its border is open. -/
theorem readMap_mapText (g : Ground) : readMap g.mapText =
    match g.openBorder? with
    | some p => .error (.openBorder p)
    | none => .ok g.written := by
  have hlines : lines g.mapText.toList =
      digits g.width.val :: digits g.height.val :: (List.range g.height.val).map g.line := by
    rw [toList_mapText]
    refine lines_unlines fun l hl => ?_
    rw [List.mem_cons, List.mem_cons, List.mem_map] at hl
    rcases hl with rfl | rfl | ⟨y, -, rfl⟩
    · exact isLine_digits _
    · exact isLine_digits _
    · exact isLine_line g y
  exact readMap_of_lines hlines fun y _ => rowChars_line g y

/-- Nothing is lost of a ground that was read. -/
theorem written_of_readMap {text : String} {g : Ground} (h : readMap text = .ok g) :
    g.written = g :=
  written_eq_self fun p c hc => by
    obtain ⟨ch, hch⟩ := cell?_of_readMap h hc
    exact Cell.written_of_ofMapChar? hch

theorem readMap_mapText_of_readMap {text : String} {g : Ground} (h : readMap text = .ok g) :
    readMap g.mapText = .ok g := by
  obtain ⟨hborder, -⟩ := readMap_eq_ofRows h
  rw [readMap_mapText, hborder, written_of_readMap h]

/-- The text of a ground is refused for the first open cell of its border.  If there is none, it is
read as a ground of the same sides and terrains, with up to nine particles of food on clear cells
and none elsewhere, without ants and marks.  A ground that was read is read again from its text,
and no other ground that is read has the same text. -/
theorem map_text_round_trip (g : Ground) :
    (∀ p, g.OpenBorder p → ∃ first, g.OpenBorder first ∧
      (∀ q, q.Precedes first → ¬ g.OpenBorder q) ∧
        readMap g.mapText = .error (.openBorder first)) ∧
    ((∀ p, ¬ g.OpenBorder p) → ∃ g', readMap g.mapText = .ok g' ∧
      g'.width = g.width ∧ g'.height = g.height ∧
      ∀ p c, g.cell? p = some c → ∃ c', g'.cell? p = some c' ∧ c'.terrain = c.terrain ∧
        c'.food.toNat = (if c.terrain = .clear then min c.food.toNat 9 else 0) ∧
        c'.occupant = none ∧ ∀ colony, c'.marks colony = .empty) ∧
    ∀ text, readMap text = .ok g → readMap g.mapText = .ok g ∧
      ∀ text' g', readMap text' = .ok g' → g'.mapText = g.mapText → g' = g := by
  refine ⟨fun p hp => ?_, fun hclosed => ?_, fun text hg => ?_⟩
  · cases hborder : g.openBorder? with
    | none => exact absurd hp (openBorder?_eq_none_iff.mp hborder p)
    | some first =>
      obtain ⟨hopen, hfirst⟩ := openBorder?_eq_some_iff.mp hborder
      exact ⟨first, hopen, hfirst, by rw [readMap_mapText, hborder]⟩
  · refine ⟨g.written, ?_, rfl, rfl, fun p c hc => ⟨c.written, ?_, rfl, c.toNat_food_written, rfl,
      fun colony => by cases colony <;> rfl⟩⟩
    · rw [readMap_mapText, openBorder?_eq_none_iff.mpr hclosed]
    · rw [cell?_written, hc, Option.map_some]
  · have hagain := readMap_mapText_of_readMap hg
    refine ⟨hagain, fun text' g' hg' htext => ?_⟩
    have hagain' := readMap_mapText_of_readMap hg'
    rw [htext, hagain] at hagain'
    exact (Except.ok.inj hagain').symm

/-- For example a ground in play, where more than nine particles lie on a cell with marks; a field
without a border; and a map that is written without spaces. -/
theorem map_text_of_three_grounds :
    ∃ (used field read : Ground) (text : String),
      used.cell? ⟨1, 1⟩ = some ⟨.clear, 12, some 0, .insert .empty 2, .empty⟩ ∧
      (∀ p, ¬ used.OpenBorder p) ∧
      (∃ g' c', readMap used.mapText = .ok g' ∧ g'.cell? ⟨1, 1⟩ = some c' ∧
        c'.food.toNat = 9 ∧ c'.occupant = none ∧ c'.marks .red = .empty) ∧
      field.OpenBorder ⟨0, 0⟩ ∧ readMap field.mapText = .error (.openBorder ⟨0, 0⟩) ∧
      readMap text = .ok read ∧ readMap read.mapText = .ok read := by
  let side : Side := ⟨3, by decide⟩
  let used := (walled side side).modify ⟨1, 1⟩ fun _ =>
    ⟨.clear, 12, some 0, .insert .empty 2, .empty⟩
  let field := clear side side
  let read := (walled side side).modify ⟨1, 1⟩ fun _ => .fresh (.hill .red) 0
  have hcell : used.cell? ⟨1, 1⟩ = some ⟨.clear, 12, some 0, .insert .empty 2, .empty⟩ := by
    decide +kernel
  have hclosed : ∀ p, ¬ used.OpenBorder p := openBorder?_eq_none_iff.mp (by decide +kernel)
  have hcorner : field.OpenBorder ⟨0, 0⟩ :=
    ⟨by decide, .fresh .clear 0, by decide +kernel, by decide⟩
  have hread : readMap "3\n3\n###\n#+#\n###\n" = .ok read := by decide +kernel
  obtain ⟨g', hg', -, -, hcells⟩ := (map_text_round_trip used).2.1 hclosed
  obtain ⟨c', hc', -, hfood, hoccupant, hmarks⟩ := hcells ⟨1, 1⟩ _ hcell
  obtain ⟨⟨x, y⟩, -, hfirst, hrefused⟩ := (map_text_round_trip field).1 _ hcorner
  have hnone : ¬ (⟨0, 0⟩ : Position).Precedes ⟨x, y⟩ := fun hbefore => hfirst _ hbefore hcorner
  obtain ⟨rfl, rfl⟩ : x = 0 ∧ y = 0 := by
    simp only [Position.Precedes] at hnone
    omega
  exact ⟨used, field, read, _, hcell, hclosed, ⟨g', c', hg', hc', hfood, hoccupant, hmarks .red⟩,
    hcorner, hrefused, hread, ((map_text_round_trip read).2.2 _ hread).1⟩

/-! ### Generated maps -/

/-- No feature reaches the border: a region that reaches it has its margin there. -/
theorem featureCell?_of_onBorder {board : Array (Option Feature)} {plan : MapPlan}
    {width height : Side} (hwidth : width.val = plan.width) (hheight : height.val = plan.height)
    {p : Position} (hp : onBorder width height p = true) : featureCell? board plan p = none := by
  cases hcell : featureCell? board plan p with
  | none => rfl
  | some c =>
    obtain ⟨hregion, hmargins, -⟩ := featureCell?_eq_some hcell
    have hinside : p.x / 18 < plan.width / 18 ∧ p.y / 18 < plan.height / 18 := by
      unfold regionOf? at hregion
      dsimp only at hregion
      split at hregion
      · next h => exact h
      · cases hregion
    simp only [inMargins, Bool.and_eq_true, decide_eq_true_eq] at hmargins
    simp only [withinRegion, regionMargin, regionSide] at hmargins
    simp only [onBorder, Bool.or_eq_true, beq_iff_eq, hwidth, hheight] at hp
    omega

theorem openBorder?_of_generate {seed : Int64} {plan : MapPlan} {g : Ground}
    (h : generate seed plan = .ok g) : g.openBorder? = none := by
  obtain ⟨width, height, board, hwidth, hheight, rfl⟩ := generate_eq_tabulate h
  rw [openBorder?, List.find?_eq_none]
  intro p _ hopen
  obtain ⟨hborder, hcell⟩ := Bool.and_eq_true_iff.mp hopen
  obtain ⟨c, hc, hterrain⟩ := Option.any_eq_true _ _ |>.mp hcell
  have hborder : onBorder width height p = true := hborder
  rw [cell?_eq_some_of_tabulate hc, paint, featureCell?_of_onBorder hwidth hheight hborder,
    Option.getD_none, if_pos hborder] at hterrain
  exact absurd hterrain (by decide)

theorem written_of_generate {seed : Int64} {plan : MapPlan} {g : Ground}
    (h : generate seed plan = .ok g) : g.written = g :=
  written_eq_self fun p c hc => by
    rcases cell?_of_generate h hc with ⟨feature, rfl⟩ | rfl | rfl
    · cases feature <;> rfl
    · rfl
    · rfl

theorem readMap_mapText_of_generate {seed : Int64} {plan : MapPlan} {g : Ground}
    (h : generate seed plan = .ok g) : readMap g.mapText = .ok g := by
  rw [readMap_mapText, openBorder?_of_generate h, written_of_generate h]

end Ground

end AntContest
