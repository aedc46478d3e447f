import AntContest.Proofs.Game.Coherence
import AntContest.Proofs.Picture.Shown

/-! # Pictures are faithful

A picture is taken by its lines as they are shown: the rows of the map stand below the title, with
the cell of column `x` at place `2 * x`, or one place further on in odd rows.

* `charAt?_eq_antLetter_iff`: the letters of ants are drawn exactly where living ants stand.
* `count_antLetter`: so there are as many letters of each kind as there are living ants of that
  kind.  The places with a letter and the positions of the ants are two lists of the same members,
  neither with a repetition; the second as no two of the living share a cell.
* `readMap_mapLines`: before a game is begun its map can be read as a map.
* `picture_faithful` puts them together. -/

namespace AntContest

open Text Ground

/-! ### Characters of a row -/

theorem getElem?_flatMap_pair {α β : Type} (f : α → β) (b : β) (l : List α) (i : Nat) :
    (l.flatMap fun a => [f a, b])[2 * i]? = (l[i]?).map f := by
  induction l generalizing i with
  | nil => rfl
  | cons a l ih =>
    cases i with
    | zero => rfl
    | succ i =>
      rw [List.flatMap_cons, Nat.mul_succ]
      exact ih i

theorem Ground.length_stagger (y : Nat) : (stagger y).length = y % 2 := by
  unfold stagger
  split
  · next h => exact h.symm
  · next h =>
    show 0 = y % 2
    omega

theorem Ground.getElem?_row {g : Ground} {p : Position} (hy : p.y < g.height.val) :
    (g.row p.y)[p.x]? = g.cell? p := by
  rw [row_eq_map hy, List.getElem?_map]
  by_cases hx : p.x < g.width.val
  · obtain ⟨c, hc⟩ := exists_cell? (contains_iff.mpr ⟨hx, hy⟩ : g.contains p)
    rw [List.getElem?_range hx, hc, Option.map_some, hc]
    rfl
  · have hout : g.contains p = false := by
      rw [← Bool.not_eq_true, contains_iff]
      exact fun h => hx h.1
    rw [List.getElem?_eq_none (by simpa using hx), cell?_eq_none hout]
    rfl

theorem Ground.cell_written {g : Ground} {p : Position} {c : Cell} (h : g.written = g)
    (hc : g.cell? p = some c) : c.written = c := by
  have hcell := g.cell?_written p
  rw [h, hc] at hcell
  exact (Option.some.inj hcell).symm

namespace Game

/-! ### The lines of a picture -/

/-- What is shown of the picture of a game, line by line. -/
def pictureLines (g : Game) : List (List Char) := lines (shown g.render.toList)

/-- The rows of the map in the picture of a game. -/
def mapLines (g : Game) : List (List Char) := (g.pictureLines.drop 1).take g.ground.height.val

def linesBelow (g : Game) : List (List Char) := (g.pictureLines.drop 1).drop g.ground.height.val

def charAt? (rows : List (List Char)) (p : Position) : Option Char :=
  rows[p.y]?.bind (·[p.y % 2 + 2 * p.x]?)

/-- No line ends in the name of a brain. -/
def NamesInLine (g : Game) : Prop :=
  ∀ colony name, g.teamName? colony = some name → '\n' ∉ name.toList

section Picture

variable {g : Game}

theorem NamesInLine.getD (h : g.NamesInLine) (colony : Colony) :
    '\n' ∉ ((g.teamName? colony).getD "?").toList := by
  cases hname : g.teamName? colony with
  | none => decide
  | some name => exact h colony name hname

theorem drop_pictureLines (h : g.NamesInLine) : g.pictureLines.drop 1 =
    (List.range g.ground.height.val).map g.snapshot.shownRow ++ g.snapshot.linesBelow := by
  obtain ⟨title, hlines⟩ :=
    g.snapshot.lines_shown_render g.config.maxTurns.toNat (h.getD .red) (h.getD .black)
  rw [pictureLines, render, hlines]
  rfl

theorem mapLines_eq (h : g.NamesInLine) :
    g.mapLines = (List.range g.ground.height.val).map g.snapshot.shownRow := by
  rw [mapLines, drop_pictureLines h]
  refine List.take_left' ?_
  rw [List.length_map, List.length_range]

theorem linesBelow_eq (h : g.NamesInLine) : g.linesBelow =
    [[], Snapshot.legendLine.toList,
      (Snapshot.countsLine (g.aliveCount .red) (g.aliveCount .black)).toList] := by
  rw [linesBelow, drop_pictureLines h]
  refine List.drop_left' ?_
  rw [List.length_map, List.length_range]

/-- Each position of the ground shows its cell with the ant on it. -/
theorem charAt?_mapLines (h : g.NamesInLine) (p : Position) :
    charAt? g.mapLines p =
      (g.ground.cell? p).map fun c => c.glyph (g.snapshot.occupant? c) := by
  rw [charAt?, mapLines_eq h, List.getElem?_map]
  by_cases hy : p.y < g.ground.height.val
  · rw [List.getElem?_range hy, Option.map_some, Option.bind_some, Snapshot.shownRow,
      List.getElem?_append_right (by rw [length_stagger]; omega), length_stagger,
      Nat.add_sub_cancel_left, getElem?_flatMap_pair]
    exact congrArg (Option.map _) (getElem?_row hy)
  · have hout : g.ground.contains p = false := by
      rw [← Bool.not_eq_true, contains_iff]
      exact fun h => hy h.2
    rw [List.getElem?_eq_none (by simpa using hy), cell?_eq_none hout]
    rfl

/-! ### Ants and their letters -/

theorem AtPosts.exists_occupant?_iff (h : AtPosts g) {p : Position} {ant : Ant} :
    (∃ c, g.ground.cell? p = some c ∧ g.snapshot.occupant? c = some ant) ↔
      ant ∈ g.ants ∧ ant.alive = true ∧ ant.position = p := by
  constructor
  · rintro ⟨c, hc, hoccupant⟩
    obtain ⟨i, hi, hant⟩ := Option.bind_eq_some_iff.mp hoccupant
    have hant : g.ants[i]? = some ant := hant
    obtain ⟨other, hother, halive, hposition⟩ :=
      (h.occupant_iff p i).mp (by rw [hc, Option.bind_some, hi])
    obtain rfl : other = ant := Option.some.inj (hother.symm.trans hant)
    exact ⟨Array.mem_of_getElem? hant, halive, hposition⟩
  · rintro ⟨hmem, halive, rfl⟩
    obtain ⟨i, hi⟩ := Array.getElem?_of_mem hmem
    obtain ⟨c, hc, hoccupant⟩ := Option.bind_eq_some_iff.mp (h.occupant_eq hi halive)
    exact ⟨c, hc, Option.bind_eq_some_iff.mpr ⟨i, hoccupant, hi⟩⟩

theorem charAt?_eq_antLetter_iff (hposts : AtPosts g) (hnames : g.NamesInLine) {p : Position}
    {colony : Colony} {carrying : Bool} :
    charAt? g.mapLines p = some (antLetter colony carrying) ↔
      ∃ ant ∈ g.ants, ant.alive = true ∧ ant.position = p ∧ ant.colony = colony ∧
        ant.carrying = carrying := by
  rw [charAt?_mapLines hnames, Option.map_eq_some_iff]
  simp only [Cell.glyph_eq_antLetter_iff]
  constructor
  · rintro ⟨c, hc, ant, hoccupant, hkind⟩
    obtain ⟨hmem, halive, hposition⟩ := hposts.exists_occupant?_iff.mp ⟨c, hc, hoccupant⟩
    exact ⟨ant, hmem, halive, hposition, hkind⟩
  · rintro ⟨ant, hmem, halive, hposition, hkind⟩
    obtain ⟨c, hc, hoccupant⟩ := hposts.exists_occupant?_iff.mpr ⟨hmem, halive, hposition⟩
    exact ⟨c, hc, ant, hoccupant, hkind⟩

/-! ### Numbers of letters -/

theorem AtPosts.nodup_positions (h : AtPosts g) {q : Ant → Bool}
    (hq : ∀ ant, q ant = true → ant.alive = true) :
    ((g.ants.toList.filter q).map Ant.position).Nodup := by
  have hpairwise : g.ants.toList.Pairwise fun a b =>
      a.alive = true → b.alive = true → a.position ≠ b.position := by
    rw [List.pairwise_iff_getElem]
    intro i j hi hj hij ha hb heq
    have hne := h.eq_of_position_eq (i := i) (j := j) (by simp) ha (by simp) hb heq
    omega
  rw [List.Nodup, List.pairwise_map]
  refine (hpairwise.filter q).imp_of_mem fun ha hb hab => ?_
  exact hab (hq _ (List.mem_filter.mp ha).2) (hq _ (List.mem_filter.mp hb).2)

/-- Without its spaces, the map shows one character for each position. -/
theorem map_some_rowChars_mapLines (h : g.NamesInLine) :
    (rowChars g.mapLines.flatten).map some = g.ground.places.map (charAt? g.mapLines) := by
  have hrow : ∀ y ∈ List.range g.ground.height.val,
      (rowChars (g.snapshot.shownRow y)).map some =
        (List.range g.ground.width.val).map fun x => charAt? g.mapLines ⟨x, y⟩ := by
    intro y hy
    have hy := List.mem_range.mp hy
    rw [Snapshot.rowChars_shownRow, show g.snapshot.ground = g.ground from rfl, row_eq_map hy,
      List.map_map, List.map_map]
    refine List.map_congr_left fun x hx => ?_
    obtain ⟨c, hc⟩ := exists_cell?
      (contains_iff.mpr ⟨List.mem_range.mp hx, hy⟩ : g.ground.contains ⟨x, y⟩)
    rw [charAt?_mapLines h]
    simp only [Function.comp_apply, hc, Option.getD_some, Option.map_some]
  calc (rowChars g.mapLines.flatten).map some
      = ((List.range g.ground.height.val).map fun y =>
          (rowChars (g.snapshot.shownRow y)).map some).flatten := by
        rw [mapLines_eq h, rowChars, List.filter_flatten, List.map_flatten, List.map_map,
          List.map_map]
        rfl
    _ = ((List.range g.ground.height.val).map fun y =>
          (List.range g.ground.width.val).map fun x => charAt? g.mapLines ⟨x, y⟩).flatten := by
        rw [List.map_congr_left hrow]
    _ = g.ground.places.map (charAt? g.mapLines) := by
        rw [places, List.map_flatMap, List.flatMap_def]
        simp only [List.map_map, Function.comp_def]

/-- The living ants of a kind, in the order of their numbers, stand on the places that show their
letter, in the order of the rows. -/
theorem perm_places_of_antLetter (hposts : AtPosts g) (hnames : g.NamesInLine) (colony : Colony)
    (carrying : Bool) :
    ((g.ants.toList.filter fun ant =>
        ant.alive && (ant.colony == colony && ant.carrying == carrying)).map Ant.position).Perm
      (g.ground.places.filter fun p =>
        charAt? g.mapLines p == some (antLetter colony carrying)) := by
  have hliving := hposts.nodup_positions (q := fun ant =>
    ant.alive && (ant.colony == colony && ant.carrying == carrying)) fun ant hant =>
      (Bool.and_eq_true_iff.mp hant).1
  -- Neither list repeats a position, so it is enough that they have the same members.
  refine (List.perm_ext_iff_of_nodup hliving (g.ground.nodup_places.filter _)).mpr fun p => ?_
  rw [List.mem_filter, beq_iff_eq, charAt?_eq_antLetter_iff hposts hnames, mem_places]
  simp only [List.mem_map, List.mem_filter, Array.mem_toList_iff, Bool.and_eq_true, beq_iff_eq]
  constructor
  · rintro ⟨ant, ⟨hmem, halive, hkind⟩, rfl⟩
    refine ⟨?_, ant, hmem, halive, rfl, hkind⟩
    obtain ⟨c, hc, -⟩ := hposts.exists_occupant?_iff.mpr ⟨hmem, halive, rfl⟩
    rw [← isSome_cell?, hc]
    rfl
  · rintro ⟨-, ant, hmem, halive, rfl, hkind⟩
    exact ⟨ant, ⟨hmem, halive, hkind⟩, rfl⟩

theorem count_antLetter (hposts : AtPosts g) (hnames : g.NamesInLine) (colony : Colony)
    (carrying : Bool) :
    g.mapLines.flatten.count (antLetter colony carrying) =
      g.ants.countP fun ant => ant.alive && (ant.colony == colony && ant.carrying == carrying) := by
  have hvisible : (!isBlank (antLetter colony carrying)) = true := by
    rw [not_isBlank_antLetter]
    rfl
  calc g.mapLines.flatten.count (antLetter colony carrying)
      = (rowChars g.mapLines.flatten).count (antLetter colony carrying) :=
        (List.count_filter (p := fun ch => !isBlank ch) hvisible).symm
    _ = ((rowChars g.mapLines.flatten).map some).count (some (antLetter colony carrying)) := by
        rw [List.count, List.count, List.countP_map]
        rfl
    _ = g.ground.places.countP fun p =>
          charAt? g.mapLines p == some (antLetter colony carrying) := by
        rw [map_some_rowChars_mapLines hnames, List.count, List.countP_map]
        rfl
    _ = ((g.ants.toList.filter fun ant =>
          ant.alive && (ant.colony == colony && ant.carrying == carrying)).map
            Ant.position).length := by
        rw [List.countP_eq_length_filter,
          (perm_places_of_antLetter hposts hnames colony carrying).length_eq]
    _ = _ := by
        rw [List.length_map, ← List.countP_eq_length_filter, Array.countP_toList]

/-- The letters of a colony are as many as its living ants. -/
theorem count_letters (hposts : AtPosts g) (hnames : g.NamesInLine) (colony : Colony) :
    g.mapLines.flatten.count (antLetter colony false) +
      g.mapLines.flatten.count (antLetter colony true) = g.aliveCount colony := by
  have hladen (b : Bool) : (b == true) = !(b == false) := by cases b <;> rfl
  have hsplit := g.ants.toList.countP_eq_countP_filter_add
    (fun ant => ant.alive && ant.colony == colony) fun ant => ant.carrying == false
  simp only [List.countP_filter, Array.countP_toList] at hsplit
  rw [count_antLetter hposts hnames, count_antLetter hposts hnames, aliveCount, hsplit]
  simp only [Bool.and_assoc, hladen]

end Picture

/-! ### Maps before play -/

/-- As long as a game has no brains, it is as it was loaded. -/
theorem Course.unbegun {ground : Ground} {config : Config} {g : Game}
    (h : Course (load ground config) g) (hteams : g.teams? = none) :
    g.ground = ground ∧ g.ants = #[] := by
  refine h.keeps_play (I := fun g => g.teams? = none → g.ground = ground ∧ g.ants = #[])
    (fun _ => ⟨rfl, rfl⟩) (fun _ _ _ h => nomatch h) ?_ (fun _ _ _ _ hg => hg) hteams
  intro g teams hsome _
  rw [(Frame.playTurn g teams).teams, hsome]
  exact fun h => nomatch h

theorem readMap_mapLines {g : Game} (hants : g.ants = #[]) (hnames : g.NamesInLine)
    (hborder : g.ground.openBorder? = none) (hwritten : g.ground.written = g.ground) :
    readMap (String.ofList (unlines
      (digits g.ground.width.val :: digits g.ground.height.val :: g.mapLines))) = .ok g.ground := by
  have hlines : lines (String.ofList (unlines (digits g.ground.width.val ::
      digits g.ground.height.val :: g.mapLines))).toList =
        digits g.ground.width.val :: digits g.ground.height.val ::
          (List.range g.ground.height.val).map g.snapshot.shownRow := by
    rw [String.toList_ofList, mapLines_eq hnames]
    refine lines_unlines fun l hl => ?_
    rw [List.mem_cons, List.mem_cons, List.mem_map] at hl
    rcases hl with rfl | rfl | ⟨y, -, rfl⟩
    · exact isLine_digits _
    · exact isLine_digits _
    · exact g.snapshot.isLine_shownRow y
  have hcells : ∀ y < g.ground.height.val, rowChars (g.snapshot.shownRow y) =
      (g.ground.row y).map Cell.mapChar := by
    intro y _
    rw [Snapshot.rowChars_shownRow]
    refine List.map_congr_left fun c hc => ?_
    obtain ⟨x, -, hx⟩ := List.mem_filterMap.mp hc
    have hempty : g.snapshot.occupant? c = none := by
      show c.occupant.bind (g.ants[·]?) = none
      rw [hants]
      simp
    rw [hempty, Cell.glyph_none_of_written]
    exact cell_written hwritten hx
  rw [readMap_of_lines hlines hcells, hborder, hwritten]

/-- The picture of a game is faithful.  Before the game is begun, its map with the sides above it is
read as the ground itself, if that was read or generated.  In any game the letters of ants stand
exactly where such ants are alive, there are as many letters of a colony as it has living ants, and
the same numbers are told below the map. -/
theorem picture_faithful {ground : Ground} {config : Config} {g : Game} (hground : ground.Built)
    (h : Course (load ground config) g) (hnames : g.NamesInLine) :
    (g.teams? = none →
      ((∃ text, readMap text = .ok ground) ∨ ∃ seed plan, generate seed plan = .ok ground) →
        readMap (String.ofList (unlines
          (digits ground.width.val :: digits ground.height.val :: g.mapLines))) = .ok ground) ∧
    (∀ p colony carrying, charAt? g.mapLines p = some (antLetter colony carrying) ↔
      ∃ ant ∈ g.ants, ant.alive = true ∧ ant.position = p ∧ ant.colony = colony ∧
        ant.carrying = carrying) ∧
    (∀ colony, g.mapLines.flatten.count (antLetter colony false) +
      g.mapLines.flatten.count (antLetter colony true) = g.aliveCount colony) ∧
    g.linesBelow = [[], Snapshot.legendLine.toList,
      (Snapshot.countsLine (g.aliveCount .red) (g.aliveCount .black)).toList] := by
  have hposts : AtPosts g := atPosts_of_course hground.pristine.unoccupied h
  refine ⟨fun hteams hmap => ?_, fun p colony carrying => charAt?_eq_antLetter_iff hposts hnames,
    count_letters hposts hnames, linesBelow_eq hnames⟩
  obtain ⟨rfl, hants⟩ := Course.unbegun h hteams
  rcases hmap with ⟨text, hread⟩ | ⟨seed, plan, hgenerate⟩
  · exact readMap_mapLines hants hnames (readMap_eq_ofRows hread).1 (written_of_readMap hread)
  · exact readMap_mapLines hants hnames (openBorder?_of_generate hgenerate)
      (written_of_generate hgenerate)

/-- For example before the beginning, and after one step of an ant whose name begins a control
sequence and does not end it. -/
theorem picture_of_first_step :
    ∃ (text : String) (ground : Ground) (g g' : Game), readMap text = .ok ground ∧
      Course (load ground {}) g ∧ g.teams? = none ∧ g.NamesInLine ∧
      readMap (String.ofList (unlines
        (digits ground.width.val :: digits ground.height.val :: g.mapLines))) = .ok ground ∧
      Course (load ground {}) g' ∧ g'.teamName? .red = some "\x1b[" ∧ g'.NamesInLine ∧
      charAt? g'.mapLines ⟨2, 1⟩ = some 'r' ∧
      g'.mapLines.flatten.count 'r' + g'.mapLines.flatten.count 'R' = 1 := by
  let text := "4\n3\n# # # #\n # + . #\n# # # #\n"
  let ground := (walled ⟨4, by decide⟩ ⟨3, by decide⟩).modify ⟨1, 1⟩ fun c =>
    .fresh (.hill .red) c.food
  let brain : Brain := ⟨"\x1b[", #[.move ⟨0, by decide⟩ ⟨0, by decide⟩], by decide, by decide⟩
  let g := load ground {}
  let g' := (g.begin ⟨brain, brain⟩).step.2
  have hread : readMap text = .ok ground := by decide +kernel
  have hcourse : Course g g' := .tail (.single (.begin ⟨brain, brain⟩)) .step
  have hnames : g.NamesInLine := fun colony name h => nomatch h
  have hbrains : g'.teams? = some ⟨brain, brain⟩ := by decide +kernel
  have hname (colony : Colony) : g'.teamName? colony = some "\x1b[" := by
    rw [teamName?, hbrains]
    cases colony <;> rfl
  have hnames' : g'.NamesInLine := by
    intro colony name h
    rw [hname, Option.some.injEq] at h
    subst h
    decide
  have hant : ∃ ant ∈ g'.ants, ant.alive = true ∧ ant.position = ⟨2, 1⟩ ∧ ant.colony = .red ∧
      ant.carrying = false := by decide +kernel
  have halive : g'.aliveCount .red = 1 := by decide +kernel
  obtain ⟨hmap, -⟩ := picture_faithful (.read hread) (.refl : Course g g) hnames
  obtain ⟨-, hletters, hcounts, -⟩ := picture_faithful (.read hread) hcourse hnames'
  exact ⟨text, ground, g, g', hread, .refl, rfl, hnames, hmap rfl (.inl ⟨text, hread⟩), hcourse,
    hname .red, hnames', (hletters ⟨2, 1⟩ .red false).mpr hant, (hcounts .red).trans halive⟩

end Game

end AntContest
