import AntContest.Proofs.Ground.Built
import AntContest.Proofs.Ground.RowMajor
import AntContest.Proofs.Text.Cutting

/-! # The format of maps

The format is stated here as relations on the lines of a text, apart from the reader.

* `Cell.DrawnAs` is the legend: what each character stands for.
* `SideLine` says what the line of a number at the head says, or what is wrong with it.
* `Sheet`, `Table` and `IsMap` go from the two numbers and the rows to the whole format.
* `FirstFault` names the first check that a text fails, in the order of the checks; each of its
  cases contains that the checks before it succeed.

Each part of the reader is shown to find exactly what the relation for it says: `readSide_iff`,
`rowsOf_iff`, `checkLengths_eq_error_iff`, `readRows_eq_error_iff`.  The last two, and the reading
of one row, go through a list to its first fault, and are instances of `eq_error_iff_first`.

`map_format` puts this together: what is read is what the format says, and what is refused is
refused for the first fault. -/

namespace AntContest

open Text

/-! ### The legend -/

/-- What the characters of a map stand for. -/
inductive Cell.DrawnAs : Char → Cell → Prop
  | rock : DrawnAs '#' (.fresh .rock 0)
  | clear : DrawnAs '.' (.fresh .clear 0)
  | redHill : DrawnAs '+' (.fresh (.hill .red) 0)
  | blackHill : DrawnAs '-' (.fresh (.hill .black) 0)
  | food {n : Nat} : 1 ≤ n → n ≤ 9 → DrawnAs (Nat.digitChar n) (.fresh .clear (.ofNat n))

/-- A character that stands for a cell. -/
def Legible (ch : Char) : Prop := ∃ c, Cell.DrawnAs ch c

theorem Cell.drawnAs_iff {ch : Char} {c : Cell} : DrawnAs ch c ↔ ofMapChar? ch = some c := by
  have hdigit : ∀ n ≤ 9, 1 ≤ n →
      ofMapChar? (Nat.digitChar n) = some (fresh .clear (.ofNat n)) := by decide
  have hfood {n : Nat} (h : 1 ≤ n ∧ n ≤ 9) : DrawnAs (Nat.digitChar n) (fresh .clear (.ofNat n)) :=
    .food h.1 h.2
  constructor
  · rintro (_ | _ | _ | _ | ⟨hone, hnine⟩)
    · rfl
    · rfl
    · rfl
    · rfl
    · exact hdigit _ hnine hone
  · intro h
    unfold ofMapChar? at h
    split at h <;> cases h
    · exact .clear
    · exact .rock
    · exact .redHill
    · exact .blackHill
    · exact hfood (n := 1) (by decide)
    · exact hfood (n := 2) (by decide)
    · exact hfood (n := 3) (by decide)
    · exact hfood (n := 4) (by decide)
    · exact hfood (n := 5) (by decide)
    · exact hfood (n := 6) (by decide)
    · exact hfood (n := 7) (by decide)
    · exact hfood (n := 8) (by decide)
    · exact hfood (n := 9) (by decide)

theorem legible_iff {ch : Char} : Legible ch ↔ (Cell.ofMapChar? ch).isSome = true := by
  rw [Option.isSome_iff_exists]
  exact exists_congr fun c => Cell.drawnAs_iff

/-- Only one character stands for rock. -/
theorem Cell.DrawnAs.terrain_eq_rock_iff {ch : Char} {c : Cell} (h : DrawnAs ch c) :
    c.terrain = .rock ↔ ch = '#' := by
  have hdigit : ∀ n ≤ 9, 1 ≤ n → Nat.digitChar n ≠ '#' := by decide
  cases h with
  | rock => simp [fresh]
  | clear => simp [fresh]
  | redHill => simp [fresh]
  | blackHill => simp [fresh]
  | food hone hnine => simp [fresh, hdigit _ hnine hone]

namespace Ground

/-! ### The format -/

/-- What the line of a number at the head of a map says, or what is wrong with it. -/
inductive SideLine (d : Dimension) : Option (List Char) → Except MapError Side → Prop
  | missing : SideLine d none (.error (.missing d))
  | notANumber {line core : List Char} : Trimmed line core →
      (∀ n, Numeral core n → Position.limit ≤ n) →
      SideLine d (some line) (.error (.notANumber d (String.ofList core)))
  | zero {line core : List Char} : Trimmed line core → Numeral core 0 →
      SideLine d (some line) (.error (.zero d))
  | stated {line core : List Char} {side : Side} : Trimmed line core → Numeral core side.val →
      SideLine d (some line) (.ok side)

/-- The rows among the lines of a map: those of blanks at the end are left out, and of each row the
blanks. -/
def RowsOf (ls rows : List (List Char)) : Prop :=
  ∃ kept blanks, ls = kept ++ blanks ∧ (∀ l ∈ blanks, ∀ c ∈ l, isBlank c = true) ∧
    (∀ l, kept.getLast? = some l → ∃ c ∈ l, isBlank c = false) ∧ rows = kept.map rowChars

/-- The character for a position. -/
def charAt? (rows : List (List Char)) (p : Position) : Option Char :=
  rows[p.y]?.bind fun row => row[p.x]?

/-- Lines with the two numbers of a map at their head. -/
structure Sheet (ls : List (List Char)) (width height : Side) (rows : List (List Char)) :
    Prop where
  width_line : SideLine .width ls[0]? (.ok width)
  height_line : SideLine .height ls[1]? (.ok height)
  rows_of : RowsOf (ls.drop 2) rows

/-- The numbers are those of the rows and of the characters in each of them. -/
structure Table (ls : List (List Char)) (width height : Side) (rows : List (List Char)) : Prop
    extends Sheet ls width height rows where
  count : rows.length = height.val
  lengths : ∀ row ∈ rows, row.length = width.val

/-- The lines of a map. -/
structure IsMap (ls : List (List Char)) (width height : Side) (rows : List (List Char)) : Prop
    extends Table ls width height rows where
  legible : ∀ p ch, charAt? rows p = some ch → Legible ch
  closed : ∀ p ch, charAt? rows p = some ch → onBorder width height p = true → ch = '#'

/-- The first check that the lines of a text fail. -/
inductive FirstFault (ls : List (List Char)) : MapError → Prop
  | width {e : MapError} : SideLine .width ls[0]? (.error e) → FirstFault ls e
  | height {width : Side} {e : MapError} : SideLine .width ls[0]? (.ok width) →
      SideLine .height ls[1]? (.error e) → FirstFault ls e
  | rowCount {width height : Side} {rows : List (List Char)} : Sheet ls width height rows →
      rows.length ≠ height.val → FirstFault ls (.rowCount height.val rows.length)
  | rowLength {width height : Side} {rows : List (List Char)} {y : Nat} {row : List Char} :
      Sheet ls width height rows → rows.length = height.val → rows[y]? = some row →
      row.length ≠ width.val →
      (∀ y' < y, ∀ row', rows[y']? = some row' → row'.length = width.val) →
      FirstFault ls (.rowLength y width.val row.length)
  | badChar {width height : Side} {rows : List (List Char)} {p : Position} {ch : Char} :
      Table ls width height rows → charAt? rows p = some ch → ¬ Legible ch →
      (∀ q ch', q.Precedes p → charAt? rows q = some ch' → Legible ch') →
      FirstFault ls (.badChar p.y p.x ch)
  | openBorder {width height : Side} {rows : List (List Char)} {p : Position} {ch : Char} :
      Table ls width height rows → (∀ q ch', charAt? rows q = some ch' → Legible ch') →
      charAt? rows p = some ch → onBorder width height p = true → ch ≠ '#' →
      (∀ q ch', q.Precedes p → charAt? rows q = some ch' → onBorder width height q = true →
        ch' = '#') →
      FirstFault ls (.openBorder p)

/-! ### The head and the rows -/

theorem sideLine_readSide (d : Dimension) (line : Option (List Char)) :
    SideLine d line (readSide d line) := by
  cases line with
  | none => exact .missing
  | some line =>
    cases hn : natBelow? Position.limit (trim line) with
    | none =>
      simp only [readSide, hn]
      refine .notANumber (trimmed_trim line) fun n hnumeral => Nat.le_of_not_lt fun hlt => ?_
      rw [natBelow?_eq_some_iff.mpr ⟨hnumeral, hlt⟩] at hn
      cases hn
    | some n =>
      obtain ⟨hnumeral, hlt⟩ := natBelow?_eq_some_iff.mp hn
      cases hside : Side.ofNat? n with
      | none =>
        have hzero : n = 0 := by
          unfold Side.ofNat? at hside
          split at hside
          · cases hside
          · omega
        simp only [readSide, hn, hside]
        exact .zero (trimmed_trim line) (hzero ▸ hnumeral)
      | some side =>
        simp only [readSide, hn, hside]
        exact .stated (trimmed_trim line) (Side.val_of_ofNat? hside ▸ hnumeral)

theorem readSide_iff {d : Dimension} {line : Option (List Char)} {r : Except MapError Side} :
    readSide d line = r ↔ SideLine d line r := by
  refine ⟨fun h => h ▸ sideLine_readSide d line, fun h => ?_⟩
  cases h with
  | missing => rfl
  | @notANumber line core hcore hnone =>
    have hread : natBelow? Position.limit core = none := by
      rw [Option.eq_none_iff_forall_ne_some]
      intro n hn
      obtain ⟨hnumeral, hlt⟩ := natBelow?_eq_some_iff.mp hn
      exact absurd (hnone n hnumeral) (Nat.not_le_of_lt hlt)
    simp only [readSide, trimmed_iff.mp hcore, hread]
  | zero hcore hnumeral =>
    have hread := natBelow?_eq_some_iff.mpr ⟨hnumeral, (by decide : 0 < Position.limit)⟩
    simp only [readSide, trimmed_iff.mp hcore, hread]
    rfl
  | @stated line core side hcore hnumeral =>
    have hread := natBelow?_eq_some_iff.mpr ⟨hnumeral, side.property.2⟩
    have hside : Side.ofNat? side.val = some side := dif_pos side.property
    simp only [readSide, trimmed_iff.mp hcore, hread, hside]

theorem rowsOf_iff {ls rows : List (List Char)} :
    RowsOf ls rows ↔ (dropBlankLines ls).map rowChars = rows := by
  have hkept (kept : List (List Char)) : dropBlankLines ls = kept ↔
      ∃ blanks, ls = kept ++ blanks ∧ (∀ l ∈ blanks, ∀ c ∈ l, isBlank c = true) ∧
        ∀ l, kept.getLast? = some l → ∃ c ∈ l, isBlank c = false := by
    rw [dropBlankLines, reverse_dropWhile_reverse_eq_iff]
    simp only [List.all_eq_true, List.all_eq_false, Bool.not_eq_true]
  constructor
  · rintro ⟨kept, blanks, hls, hblanks, hlast, rfl⟩
    rw [(hkept kept).mpr ⟨blanks, hls, hblanks, hlast⟩]
  · rintro rfl
    obtain ⟨blanks, hls, hblanks, hlast⟩ := (hkept _).mp rfl
    exact ⟨_, blanks, hls, hblanks, hlast, rfl⟩

/-! ### The lengths of the rows -/

theorem checkLengths_eq_ok_iff {width y : Nat} {rows : List (List Char)} :
    checkLengths width y rows = .ok () ↔ ∀ row ∈ rows, row.length = width := by
  induction rows generalizing y with
  | nil => simp [checkLengths]
  | cons row rows ih =>
    rw [checkLengths, List.forall_mem_cons]
    split
    · next hrow => rw [ih, and_iff_right hrow]
    · next hrow => simp [hrow]

theorem checkLengths_eq_error_iff {width : Nat} {rows : List (List Char)} {e : MapError} :
    checkLengths width 0 rows = .error e ↔ ∃ y row, rows[y]? = some row ∧
      (row.length ≠ width ∧ e = .rowLength y width row.length) ∧
      ∀ y' < y, ∀ row', rows[y']? = some row' → row'.length = width := by
  rw [eq_error_iff_first (checkLengths width)
    fun y row e => row.length ≠ width ∧ e = .rowLength y width row.length]
  · simp
  · simp [checkLengths]
  · intro y row rows e
    rw [checkLengths]
    split
    · next hrow => simp [hrow]
    · next hrow => simp [hrow, eq_comm]

/-! ### The characters of the rows -/

theorem readCells_eq_ok_iff {y x : Nat} {chars : List Char} {cells : List Cell} :
    readCells y x chars = .ok cells ↔ chars.map Cell.ofMapChar? = cells.map some := by
  induction chars generalizing x cells with
  | nil => cases cells <;> simp [readCells]
  | cons ch chars ih =>
    rw [readCells, List.map_cons]
    cases hch : Cell.ofMapChar? ch with
    | none => cases cells <;> simp
    | some cell =>
      dsimp only
      cases cells with
      | nil => cases readCells y (x + 1) chars <;> simp [Except.map]
      | cons c cells =>
        rw [List.map_cons, List.cons.injEq, ← ih (x := x + 1)]
        cases readCells y (x + 1) chars <;> simp [Except.map]

theorem legible_of_readCells {y x : Nat} {chars : List Char} {cells : List Cell}
    (h : readCells y x chars = .ok cells) : ∀ ch ∈ chars, Legible ch := by
  intro ch hch
  have hmem := List.mem_map_of_mem (f := Cell.ofMapChar?) hch
  rw [readCells_eq_ok_iff.mp h] at hmem
  obtain ⟨c, -, hc⟩ := List.mem_map.mp hmem
  exact ⟨c, Cell.drawnAs_iff.mpr hc.symm⟩

theorem readCells_eq_error_iff {y : Nat} {chars : List Char} {e : MapError} :
    readCells y 0 chars = .error e ↔ ∃ x ch, chars[x]? = some ch ∧
      (¬ Legible ch ∧ e = .badChar y x ch) ∧
      ∀ x' < x, ∀ ch', chars[x']? = some ch' → Legible ch' := by
  rw [eq_error_iff_first (readCells y) fun x ch e => ¬ Legible ch ∧ e = .badChar y x ch]
  · simp
  · simp [readCells]
  · intro x ch chars e
    rw [readCells, legible_iff]
    cases Cell.ofMapChar? ch with
    | none => simp [eq_comm]
    | some cell => cases readCells y (x + 1) chars <;> simp [Except.map]

theorem readRows_eq_ok_iff {y : Nat} {rows : List (List Char)} {table : List (List Cell)} :
    readRows y rows = .ok table ↔
      rows.map (·.map Cell.ofMapChar?) = table.map (·.map some) := by
  induction rows generalizing y table with
  | nil => cases table <;> simp [readRows]
  | cons row rows ih =>
    rw [readRows, List.map_cons]
    cases table with
    | nil =>
      cases readCells y 0 row <;> cases readRows (y + 1) rows <;>
        simp [bind, Except.bind, pure, Except.pure]
    | cons cells table =>
      rw [List.map_cons, List.cons.injEq, ← readCells_eq_ok_iff (y := y) (x := 0),
        ← ih (y := y + 1)]
      cases readCells y 0 row <;> cases readRows (y + 1) rows <;>
        simp [bind, Except.bind, pure, Except.pure]

theorem readRows_eq_error_iff {rows : List (List Char)} {e : MapError} :
    readRows 0 rows = .error e ↔ ∃ p ch, charAt? rows p = some ch ∧
      (¬ Legible ch ∧ e = .badChar p.y p.x ch) ∧
      ∀ q ch', q.Precedes p → charAt? rows q = some ch' → Legible ch' := by
  rw [eq_error_iff_first readRows (fun y row e => readCells y 0 row = .error e)
    (by simp [readRows])]
  · simp only [Nat.zero_add]
    constructor
    · rintro ⟨y, row, hrow, hread, hrows⟩
      obtain ⟨x, ch, hch, hbad, hchars⟩ := readCells_eq_error_iff.mp hread
      refine ⟨⟨x, y⟩, ch, by rw [charAt?, hrow]; exact hch, hbad, fun q ch' hq hch' => ?_⟩
      obtain ⟨row', hrow', hx'⟩ := Option.bind_eq_some_iff.mp hch'
      rcases hq with hlt | ⟨heq, hlt⟩
      · cases hread' : readCells q.y 0 row' with
        | error e' => exact absurd hread' (hrows q.y hlt row' hrow' e')
        | ok cells => exact legible_of_readCells hread' ch' (List.mem_of_getElem? hx')
      · rw [show q.y = y from heq, hrow] at hrow'
        cases hrow'
        exact hchars q.x hlt ch' hx'
    · rintro ⟨p, ch, hch, hbad, hbefore⟩
      obtain ⟨row, hrow, hx⟩ := Option.bind_eq_some_iff.mp hch
      refine ⟨p.y, row, hrow, readCells_eq_error_iff.mpr ⟨p.x, ch, hx, hbad,
        fun x hlt ch' hch' => ?_⟩, fun y hlt row' hrow' e' hread' => ?_⟩
      · exact hbefore ⟨x, p.y⟩ ch' (.inr ⟨rfl, hlt⟩) (by rw [charAt?, hrow]; exact hch')
      · obtain ⟨x, ch', hch', ⟨hbad', -⟩, -⟩ := readCells_eq_error_iff.mp hread'
        exact hbad' (hbefore ⟨x, y⟩ ch' (.inl hlt) (by rw [charAt?, hrow']; exact hch'))
  · intro y row rows e
    rw [readRows]
    cases readCells y 0 row with
    | error e' => simp [bind, Except.bind]
    | ok cells => cases readRows (y + 1) rows <;> simp [bind, Except.bind, pure, Except.pure]

/-! ### The ground of a table -/

section Drawn

variable {ls rows : List (List Char)} {width height : Side} {cells : List (List Cell)}
  {p : Position} {ch : Char}

theorem Table.exists_charAt? (h : Table ls width height rows) (hx : p.x < width.val)
    (hy : p.y < height.val) : ∃ ch, charAt? rows p = some ch := by
  have hrow := List.getElem?_eq_getElem (h.count ▸ hy : p.y < rows.length)
  have hlength := h.lengths _ (List.mem_of_getElem? hrow)
  exact ⟨_, by rw [charAt?, hrow]; exact List.getElem?_eq_getElem (hlength ▸ hx)⟩

theorem Table.lt_of_charAt? (h : Table ls width height rows) (hch : charAt? rows p = some ch) :
    p.x < width.val ∧ p.y < height.val := by
  obtain ⟨row, hrow, hx⟩ := Option.bind_eq_some_iff.mp hch
  rw [← h.count, ← h.lengths row (List.mem_of_getElem? hrow)]
  exact ⟨(List.getElem?_eq_some_iff.mp hx).1, (List.getElem?_eq_some_iff.mp hrow).1⟩

/-- What is read of the rows is drawn by their characters. -/
theorem cell?_ofRows (h : Table ls width height rows) (hread : readRows 0 rows = .ok cells)
    (hch : charAt? rows p = some ch) :
    ∃ c, Cell.DrawnAs ch c ∧ (ofRows width height cells).cell? p = some c := by
  have hlt := h.lt_of_charAt? hch
  obtain ⟨row, hrow, hx⟩ := Option.bind_eq_some_iff.mp hch
  have hy := congrArg (·[p.y]?) (readRows_eq_ok_iff.mp hread)
  simp only [List.getElem?_map, hrow, Option.map_some] at hy
  obtain ⟨cellRow, hcellRow, hmap⟩ := Option.map_eq_some_iff.mp hy.symm
  have hxs := congrArg (·[p.x]?) hmap
  simp only [List.getElem?_map, hx, Option.map_some] at hxs
  obtain ⟨c, hc, hdrawn⟩ := Option.map_eq_some_iff.mp hxs
  refine ⟨c, Cell.drawnAs_iff.mpr hdrawn.symm, ?_⟩
  rw [ofRows, cell?_tabulate, if_pos hlt]
  simp [hcellRow, hc]

theorem openBorder_ofRows_iff (h : Table ls width height rows)
    (hread : readRows 0 rows = .ok cells) : (ofRows width height cells).OpenBorder p ↔
      onBorder width height p = true ∧ ∃ ch, charAt? rows p = some ch ∧ ch ≠ '#' := by
  refine and_congr_right fun _ => ⟨?_, ?_⟩
  · rintro ⟨c, hc, hterrain⟩
    have hp := contains_iff.mp ((isSome_cell? _ p).symm.trans (by rw [hc]; rfl))
    obtain ⟨ch, hch⟩ := h.exists_charAt? hp.1 hp.2
    obtain ⟨d, hdrawn, hd⟩ := cell?_ofRows h hread hch
    obtain rfl : c = d := Option.some.inj (hc.symm.trans hd)
    exact ⟨ch, hch, fun hrock => hterrain (hdrawn.terrain_eq_rock_iff.mpr hrock)⟩
  · rintro ⟨ch, hch, hne⟩
    obtain ⟨c, hdrawn, hc⟩ := cell?_ofRows h hread hch
    exact ⟨c, hc, fun hrock => hne (hdrawn.terrain_eq_rock_iff.mp hrock)⟩

end Drawn

/-! ### Reading a text -/

/-- A ground with the cells that characters stand for. -/
def DrawnBy (g : Ground) (rows : List (List Char)) : Prop :=
  ∀ p ch, charAt? rows p = some ch → ∃ c, Cell.DrawnAs ch c ∧ g.cell? p = some c

/-- The ground of the given cells, unless its border is open. -/
def ofRows? (width height : Side) (cells : List (List Cell)) : Except MapError Ground :=
  match (ofRows width height cells).openBorder? with
  | some p => .error (.openBorder p)
  | none => .ok (ofRows width height cells)

section Text

variable {text : String} {width height : Side} {rows : List (List Char)}

theorem readMap_of_sheet (h : Sheet (lines text.toList) width height rows) :
    readMap text =
      if rows.length ≠ height.val then .error (.rowCount height.val rows.length)
      else checkLengths width.val 0 rows >>= fun _ => readRows 0 rows >>= ofRows? width height := by
  have hrows := rowsOf_iff.mp h.rows_of
  have hlength : (dropBlankLines ((lines text.toList).drop 2)).length = rows.length := by
    rw [← hrows, List.length_map]
  unfold readMap
  simp only [readSide_iff.mpr h.width_line, readSide_iff.mpr h.height_line, hrows, hlength]
  rfl

theorem readMap_of_table (h : Table (lines text.toList) width height rows) :
    readMap text = readRows 0 rows >>= ofRows? width height := by
  rw [readMap_of_sheet h.toSheet, if_neg (not_not_intro h.count),
    checkLengths_eq_ok_iff.mpr h.lengths]
  rfl

theorem exists_readRows_of_legible (h : ∀ p ch, charAt? rows p = some ch → Legible ch) :
    ∃ cells, readRows 0 rows = .ok cells := by
  cases hread : readRows 0 rows with
  | error e =>
    obtain ⟨p, ch, hch, ⟨hbad, -⟩, -⟩ := readRows_eq_error_iff.mp hread
    exact absurd (h p ch hch) hbad
  | ok cells => exact ⟨cells, rfl⟩

theorem readMap_of_readRows {cells : List (List Cell)}
    (h : Table (lines text.toList) width height rows) (hread : readRows 0 rows = .ok cells) :
    readMap text = ofRows? width height cells := by
  rw [readMap_of_table h, hread]
  rfl

/-- A text is refused for its first fault. -/
theorem readMap_of_firstFault {e : MapError} (h : FirstFault (lines text.toList) e) :
    readMap text = .error e := by
  cases h with
  | width hwidth =>
    simp only [readMap, readSide_iff.mpr hwidth]
    rfl
  | height hwidth hheight =>
    simp only [readMap, readSide_iff.mpr hwidth, readSide_iff.mpr hheight]
    rfl
  | rowCount hsheet hcount => rw [readMap_of_sheet hsheet, if_pos hcount]
  | rowLength hsheet hcount hrow hlength hbefore =>
    rw [readMap_of_sheet hsheet, if_neg (not_not_intro hcount),
      checkLengths_eq_error_iff.mpr ⟨_, _, hrow, ⟨hlength, rfl⟩, hbefore⟩]
    rfl
  | badChar htable hch hbad hbefore =>
    rw [readMap_of_table htable, readRows_eq_error_iff.mpr ⟨_, _, hch, ⟨hbad, rfl⟩, hbefore⟩]
    rfl
  | @openBorder width height _ p ch htable hlegible hch hborder hne hbefore =>
    obtain ⟨cells, hread⟩ := exists_readRows_of_legible hlegible
    have hfirst : (ofRows width height cells).openBorder? = some p := by
      refine openBorder?_eq_some_iff.mpr
        ⟨(openBorder_ofRows_iff htable hread).mpr ⟨hborder, ch, hch, hne⟩, fun q hq hopen => ?_⟩
      obtain ⟨hborder', ch', hch', hne'⟩ := (openBorder_ofRows_iff htable hread).mp hopen
      exact hne' (hbefore q ch' hq hch' hborder')
    rw [readMap_of_readRows htable hread, ofRows?, hfirst]

/-- A map is read as the ground that its characters draw. -/
theorem readMap_of_isMap {g : Ground} (h : IsMap (lines text.toList) g.width g.height rows)
    (hdrawn : g.DrawnBy rows) : readMap text = .ok g := by
  obtain ⟨cells, hread⟩ := exists_readRows_of_legible h.legible
  have hclosed : (ofRows g.width g.height cells).openBorder? = none := by
    refine openBorder?_eq_none_iff.mpr fun p hopen => ?_
    obtain ⟨hborder, ch, hch, hne⟩ := (openBorder_ofRows_iff h.toTable hread).mp hopen
    exact hne (h.closed p ch hch hborder)
  have hground : ofRows g.width g.height cells = g := by
    refine ext_cell? rfl rfl fun p => ?_
    cases hp : g.contains p with
    | false =>
      have hp' : (ofRows g.width g.height cells).contains p = false := hp
      rw [cell?_eq_none hp, cell?_eq_none hp']
    | true =>
      obtain ⟨hx, hy⟩ := contains_iff.mp hp
      obtain ⟨ch, hch⟩ := h.exists_charAt? hx hy
      obtain ⟨c, hc, hcell⟩ := cell?_ofRows h.toTable hread hch
      obtain ⟨d, hd, hcell'⟩ := hdrawn p ch hch
      rw [hcell, hcell', ← Cell.drawnAs_iff.mp hc, Cell.drawnAs_iff.mp hd]
  rw [readMap_of_readRows h.toTable hread, ofRows?, hclosed, hground]

end Text

/-! ### Nothing else can be the matter -/

section Cases

variable {ls rows : List (List Char)} {width height : Side}

theorem isMap_or_firstFault_of_table (h : Table ls width height rows) :
    (∃ g : Ground, IsMap ls g.width g.height rows ∧ g.DrawnBy rows) ∨ ∃ e, FirstFault ls e := by
  cases hread : readRows 0 rows with
  | error e =>
    obtain ⟨p, ch, hch, ⟨hbad, -⟩, hbefore⟩ := readRows_eq_error_iff.mp hread
    exact .inr ⟨_, .badChar h hch hbad hbefore⟩
  | ok cells =>
    have hdrawn : (ofRows width height cells).DrawnBy rows := fun p ch => cell?_ofRows h hread
    have hlegible (p : Position) (ch : Char) (hch : charAt? rows p = some ch) : Legible ch := by
      obtain ⟨c, hc, -⟩ := hdrawn p ch hch
      exact ⟨c, hc⟩
    -- A cell of the border is closed if it is drawn as rock.
    have hclosed {p : Position} {ch : Char} (hch : charAt? rows p = some ch)
        (hborder : onBorder width height p = true)
        (hnone : ¬ (ofRows width height cells).OpenBorder p) : ch = '#' := by
      by_contra hne
      exact hnone ((openBorder_ofRows_iff h hread).mpr ⟨hborder, ch, hch, hne⟩)
    cases hopen : (ofRows width height cells).openBorder? with
    | none =>
      refine .inl ⟨_, ⟨h, hlegible, fun p ch hch hborder => ?_⟩, hdrawn⟩
      exact hclosed hch hborder (openBorder?_eq_none_iff.mp hopen p)
    | some p =>
      obtain ⟨hp, hbefore⟩ := openBorder?_eq_some_iff.mp hopen
      obtain ⟨hborder, ch, hch, hne⟩ := (openBorder_ofRows_iff h hread).mp hp
      exact .inr ⟨_, .openBorder h hlegible hch hborder hne fun q ch' hq hch' hborder' =>
        hclosed hch' hborder' (hbefore q hq)⟩

theorem isMap_or_firstFault_of_sheet (h : Sheet ls width height rows) :
    (∃ g : Ground, IsMap ls g.width g.height rows ∧ g.DrawnBy rows) ∨ ∃ e, FirstFault ls e := by
  by_cases hcount : rows.length = height.val
  · cases hlengths : checkLengths width.val 0 rows with
    | ok _ =>
      exact isMap_or_firstFault_of_table ⟨h, hcount, checkLengths_eq_ok_iff.mp hlengths⟩
    | error e =>
      obtain ⟨y, row, hrow, ⟨hlength, -⟩, hbefore⟩ := checkLengths_eq_error_iff.mp hlengths
      exact .inr ⟨_, .rowLength h hcount hrow hlength hbefore⟩
  · exact .inr ⟨_, .rowCount h hcount⟩

/-- Lines are those of a map, or there is a first fault in them. -/
theorem isMap_or_firstFault (ls : List (List Char)) :
    (∃ (g : Ground) (rows : List (List Char)), IsMap ls g.width g.height rows ∧ g.DrawnBy rows) ∨
      ∃ e, FirstFault ls e := by
  have hwidth := sideLine_readSide .width ls[0]?
  have hheight := sideLine_readSide .height ls[1]?
  cases hw : readSide .width ls[0]? with
  | error e => exact .inr ⟨e, .width (hw ▸ hwidth)⟩
  | ok width =>
    cases hh : readSide .height ls[1]? with
    | error e => exact .inr ⟨e, .height (hw ▸ hwidth) (hh ▸ hheight)⟩
    | ok height =>
      have hsheet : Sheet ls width height _ := ⟨hw ▸ hwidth, hh ▸ hheight, rowsOf_iff.mpr rfl⟩
      rcases isMap_or_firstFault_of_sheet hsheet with ⟨g, hg⟩ | hfault
      · exact .inl ⟨g, _, hg⟩
      · exact .inr hfault

end Cases

/-- A text falls into lines in one way.  It is read as a map exactly if these are the lines of one:
the two numbers, and as many rows of as many legible characters as they say, with rock at the
border.  What is read is the ground that the characters draw.  Any other text is refused for the
first check that it fails. -/
theorem map_format (text : String) : ∃ ls, (∀ ls', LinesOf text.toList ls' ↔ ls' = ls) ∧
    ((∃ g, readMap text = .ok g) ↔ ∃ width height rows, IsMap ls width height rows) ∧
    (∀ g, readMap text = .ok g ↔
      ∃ rows, IsMap ls g.width g.height rows ∧ g.DrawnBy rows) ∧
    ∀ e, readMap text = .error e ↔ FirstFault ls e := by
  refine ⟨lines text.toList, fun ls' => linesOf_iff.trans eq_comm, ⟨?_, ?_⟩,
    fun g => ⟨fun hg => ?_, ?_⟩, fun e => ⟨fun he => ?_, readMap_of_firstFault⟩⟩
  · rintro ⟨g, hg⟩
    rcases isMap_or_firstFault (lines text.toList) with ⟨g', rows, hmap, -⟩ | ⟨e, hfault⟩
    · exact ⟨_, _, rows, hmap⟩
    · cases hg.symm.trans (readMap_of_firstFault hfault)
  · rintro ⟨width, height, rows, hmap⟩
    obtain ⟨cells, hread⟩ := exists_readRows_of_legible hmap.legible
    exact ⟨ofRows width height cells,
      readMap_of_isMap hmap fun p ch => cell?_ofRows hmap.toTable hread⟩
  · rcases isMap_or_firstFault (lines text.toList) with ⟨g', rows, hmap, hdrawn⟩ | ⟨e, hfault⟩
    · cases hg.symm.trans (readMap_of_isMap hmap hdrawn)
      exact ⟨rows, hmap, hdrawn⟩
    · cases hg.symm.trans (readMap_of_firstFault hfault)
  · rintro ⟨rows, hmap, hdrawn⟩
    exact readMap_of_isMap hmap hdrawn
  · rcases isMap_or_firstFault (lines text.toList) with ⟨g', rows, hmap, hdrawn⟩ | ⟨e', hfault⟩
    · cases he.symm.trans (readMap_of_isMap hmap hdrawn)
    · cases he.symm.trans (readMap_of_firstFault hfault)
      exact hfault

/-- For example with other ends of lines, a plus sign, blanks inside a row, and blank lines at the
end; and with a second row that is too short, which hides what is wrong in the last one. -/
example :
    (readMap "+3\r\n 3\r\n###\r\n#\t+ #\n###\n \n").isOk = true ∧
      readMap "3\n3\n###\n#.\n#?#" = .error (.rowLength 1 3 2) := by
  decide +kernel

end Ground

end AntContest
