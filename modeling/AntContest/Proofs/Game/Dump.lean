import AntContest.Proofs.Game.CellLine
import AntContest.Proofs.Game.Posts

/-! # What a dump tells

A dump is a line with the number of turns above the lines of all cells, so two dumps are equal
exactly if the numbers and the lists of lines are (`dump_eq_iff`).  A line names its cell, hence
equal lists belong to grounds with the same positions, and so with the same sides, and they agree
cell by cell (`cellLines_eq_iff`).

Of an ant, a line shows all but where it stands, and where it stands is what the line is about.  So
if cells and ants agree on where the ants stand, then the cells show the living ants, each with all
its data (`sightOf_occupant?_eq_some_iff`, `looksLike_iff`). -/

namespace AntContest

open Text

/-! ### Lines -/

/-- The line above the lines of the cells. -/
def titleLine (turn : Nat) : List Char := "After round ".toList ++ (digits turn ++ "...".toList)

theorem titleLine_inj {m n : Nat} (h : titleLine m = titleLine n) : m = n := by
  have hdigits : digits m ++ "...".toList = digits n ++ "...".toList := by
    unfold titleLine at h
    exact List.append_cancel_left h
  exact digits_inj.mp (List.append_cancel_right hdigits)

theorem isLine_titleLine (turn : Nat) : IsLine (titleLine turn) := by
  refine isLine_of_all ?_
  unfold titleLine
  rw [List.all_append, List.all_append, all_inLine_digits]
  decide

theorem toList_title (turn : Nat) :
    (s!"\nAfter round {turn}...\n").toList = unlines [[], titleLine turn] := by
  have hbegin : "\nAfter round ".toList = '\n' :: "After round ".toList := by decide
  have hend : "...\n".toList = "...".toList ++ ['\n'] := by decide
  rw [toString_text, toString_text, String.toList_append, String.toList_append, hbegin, hend,
    toList_toString]
  unfold titleLine
  generalize "After round ".toList = front
  generalize "...".toList = back
  simp [unlines]

namespace Game

variable {g h : Game}

theorem toList_dump (g : Game) :
    g.dump.toList = unlines ([] :: titleLine g.turn :: g.cellLines.map String.toList) := by
  have hcells : (String.join (g.cellLines.map (· ++ "\n"))).toList =
      unlines (g.cellLines.map String.toList) := by
    rw [String.toList_join, unlines, List.flatMap_map, List.flatMap_map]
    simp only [String.toList_append]
    rfl
  rw [dump, String.toList_append, hcells, toList_title]
  simp only [unlines, List.flatMap_cons, List.flatMap_nil, List.append_assoc, List.append_nil]

theorem lines_dump (g : Game) :
    lines g.dump.toList = [] :: titleLine g.turn :: g.cellLines.map String.toList := by
  rw [toList_dump]
  refine lines_unlines ?_
  simp only [List.forall_mem_cons, List.forall_mem_map]
  refine ⟨isLine_of_forall (by simp), isLine_titleLine g.turn, fun line hline => ?_⟩
  obtain ⟨⟨p, c⟩, -, rfl⟩ := List.mem_map.mp hline
  exact isLine_describeCell p c _

theorem dump_eq_iff : g.dump = h.dump ↔ g.turn = h.turn ∧ g.cellLines = h.cellLines := by
  constructor
  · intro hdump
    have hlines := g.lines_dump
    rw [hdump, h.lines_dump] at hlines
    obtain ⟨hturn, hcells⟩ := List.cons.inj (List.cons.inj hlines).2
    refine ⟨(titleLine_inj hturn).symm, ?_⟩
    exact (List.map_injective_iff.mpr fun _ _ => String.toList_inj.mp) hcells.symm
  · rintro ⟨hturn, hcells⟩
    rw [dump, dump, hturn, hcells]

/-- The cells of two games show the same. -/
structure SameCells (g h : Game) : Prop where
  width_eq : g.ground.width = h.ground.width
  height_eq : g.ground.height = h.ground.height
  looksLike : ∀ p c d, g.ground.cell? p = some c → h.ground.cell? p = some d → c.LooksLike d
  sight_eq : ∀ p c d, g.ground.cell? p = some c → h.ground.cell? p = some d →
    sightOf (g.occupant? c) = sightOf (h.occupant? d)

theorem SameCells.symm (hcells : SameCells g h) : SameCells h g where
  width_eq := hcells.width_eq.symm
  height_eq := hcells.height_eq.symm
  looksLike p c d hc hd := (hcells.looksLike p d c hd hc).symm
  sight_eq p c d hc hd := (hcells.sight_eq p d c hd hc).symm

theorem mem_cellLines {line : String} : line ∈ g.cellLines ↔
    ∃ p c, g.ground.cell? p = some c ∧ describeCell p c (g.occupant? c) = line := by
  rw [cellLines, List.mem_map]
  constructor
  · rintro ⟨⟨p, c⟩, hc, hline⟩
    exact ⟨p, c, Ground.mem_entries.mp hc, hline⟩
  · rintro ⟨p, c, hc, hline⟩
    exact ⟨⟨p, c⟩, Ground.mem_entries.mpr hc, hline⟩

/-- A line that two games have in common is about the same cell of both. -/
theorem exists_cell?_of_cellLines (hlines : g.cellLines = h.cellLines) {p : Position} {c : Cell}
    (hc : g.ground.cell? p = some c) : ∃ d, h.ground.cell? p = some d ∧ c.LooksLike d ∧
      sightOf (g.occupant? c) = sightOf (h.occupant? d) := by
  have hline : describeCell p c (g.occupant? c) ∈ h.cellLines :=
    hlines ▸ mem_cellLines.mpr ⟨p, c, hc, rfl⟩
  obtain ⟨q, d, hd, hline⟩ := mem_cellLines.mp hline
  obtain ⟨hqp, hlooks, hsight⟩ := describeCell_eq_iff.mp hline.symm
  exact ⟨d, hqp ▸ hd, hlooks, hsight⟩

theorem cellLines_eq_iff : g.cellLines = h.cellLines ↔ SameCells g h := by
  constructor
  · intro hlines
    have hcontains (p : Position) : g.ground.contains p = h.ground.contains p := by
      rw [← Ground.isSome_cell?, ← Ground.isSome_cell?, Bool.eq_iff_iff,
        Option.isSome_iff_exists, Option.isSome_iff_exists]
      constructor
      · rintro ⟨c, hc⟩
        obtain ⟨d, hd, -⟩ := exists_cell?_of_cellLines hlines hc
        exact ⟨d, hd⟩
      · rintro ⟨d, hd⟩
        obtain ⟨c, hc, -⟩ := exists_cell?_of_cellLines hlines.symm hd
        exact ⟨c, hc⟩
    have hcells (p : Position) (c d : Cell) (hc : g.ground.cell? p = some c)
        (hd : h.ground.cell? p = some d) :
        c.LooksLike d ∧ sightOf (g.occupant? c) = sightOf (h.occupant? d) := by
      obtain ⟨e, he, hshown⟩ := exists_cell?_of_cellLines hlines hc
      rwa [Option.some.inj (hd.symm.trans he)]
    obtain ⟨hwidth, hheight⟩ := Ground.sides_eq_of_contains hcontains
    exact ⟨hwidth, hheight, fun p c d hc hd => (hcells p c d hc hd).1,
      fun p c d hc hd => (hcells p c d hc hd).2⟩
  · rintro ⟨hwidth, hheight, hlooks, hsight⟩
    have hline (p : Position) (hp : g.ground.contains p = true) :
        (g.ground.cell? p).map (fun c => describeCell p c (g.occupant? c)) =
          (h.ground.cell? p).map fun d => describeCell p d (h.occupant? d) := by
      obtain ⟨c, hc⟩ := Ground.exists_cell? hp
      obtain ⟨d, hd⟩ := Ground.exists_cell? (g := h.ground) (p := p)
        ((Ground.contains_eq hwidth hheight p).symm.trans hp)
      rw [hc, hd, Option.map_some, Option.map_some,
        describeCell_eq_iff.mpr ⟨rfl, hlooks p c d hc hd, hsight p c d hc hd⟩]
    simp only [cellLines, Ground.entries, List.map_filterMap, Option.map_map,
      ← Ground.positions_eq hwidth hheight]
    exact List.filterMap_congr fun p hp => hline p (Ground.mem_positions.mp hp)

/-! ### Ants -/

/-- Living ants are their numbers, their places, and what can be seen of them. -/
theorem eq_of_sight_eq {a b : Ant} (ha : a.alive = true) (hb : b.alive = true)
    (hposition : a.position = b.position) (hsight : a.sight a.id = b.sight b.id) : a = b := by
  cases a
  cases b
  simp_all [Ant.sight]

theorem sightOf_occupant?_eq_some_iff (hposts : AtPosts g) {p : Position} {c : Cell}
    (hc : g.ground.cell? p = some c) {s : AntSight} : sightOf (g.occupant? c) = some s ↔
      ∃ a ∈ g.ants, a.alive = true ∧ a.position = p ∧ a.sight a.id = s := by
  have hoccupant (i : Nat) := hposts.occupant_iff p i
  rw [hc, Option.bind_some] at hoccupant
  rw [sightOf, occupant?, Option.map_eq_some_iff]
  constructor
  · rintro ⟨⟨i, a⟩, hia, rfl⟩
    obtain ⟨i, hi, ha⟩ := Option.bind_eq_some_iff.mp hia
    obtain ⟨b, hb, he⟩ := Option.map_eq_some_iff.mp ha
    cases he
    obtain ⟨a', ha', halive, hposition⟩ := (hoccupant i).mp hi
    obtain rfl : a' = a := Option.some.inj (ha'.symm.trans hb)
    exact ⟨a', Array.mem_of_getElem? hb, halive, hposition, by rw [hposts.id_eq i a' hb]⟩
  · rintro ⟨a, hmem, halive, hposition, rfl⟩
    obtain ⟨i, hi⟩ := Array.getElem?_of_mem hmem
    have hnamed : c.occupant = some i := (hoccupant i).mpr ⟨a, hi, halive, hposition⟩
    exact ⟨(i, a), by rw [hnamed, Option.bind_some, hi]; rfl, by rw [hposts.id_eq i a hi]⟩

theorem mem_ants_of_sameCells (hg : AtPosts g) (hh : AtPosts h) (hcells : SameCells g h) {a : Ant}
    (halive : a.alive = true) (ha : a ∈ g.ants) : a ∈ h.ants := by
  obtain ⟨i, hi⟩ := Array.getElem?_of_mem ha
  have hon := hg.contains hi
  obtain ⟨c, hc⟩ := Ground.exists_cell? hon
  obtain ⟨d, hd⟩ := Ground.exists_cell? (g := h.ground) (p := a.position)
    ((Ground.contains_eq hcells.width_eq hcells.height_eq a.position).symm.trans hon)
  have hsight := (sightOf_occupant?_eq_some_iff hg hc).mpr ⟨a, ha, halive, rfl, rfl⟩
  rw [hcells.sight_eq _ c d hc hd] at hsight
  obtain ⟨b, hb, halive', hposition, hsight⟩ := (sightOf_occupant?_eq_some_iff hh hd).mp hsight
  rwa [eq_of_sight_eq halive halive' hposition.symm hsight.symm]

/-- What can be seen of two games is the same. -/
structure LooksLike (g h : Game) : Prop where
  turn_eq : g.turn = h.turn
  width_eq : g.ground.width = h.ground.width
  height_eq : g.ground.height = h.ground.height
  /-- Cell by cell, the terrains, the food and the marks of both colonies are equal. -/
  cells : ∀ p c d, g.ground.cell? p = some c → h.ground.cell? p = some d → c.LooksLike d
  /-- The living ants are equal, with all their data. -/
  ants : ∀ a : Ant, a.alive = true → (a ∈ g.ants ↔ a ∈ h.ants)

/-- If ants stand where the cells say, then they are seen on the cells, and all else is. -/
theorem looksLike_iff (hg : AtPosts g) (hh : AtPosts h) :
    g.LooksLike h ↔ g.turn = h.turn ∧ SameCells g h := by
  constructor
  · rintro ⟨hturn, hwidth, hheight, hlooks, hants⟩
    refine ⟨hturn, hwidth, hheight, hlooks, fun p c d hc hd => Option.ext fun s => ?_⟩
    rw [sightOf_occupant?_eq_some_iff hg hc, sightOf_occupant?_eq_some_iff hh hd]
    constructor
    · rintro ⟨a, ha, halive, hseen⟩
      exact ⟨a, (hants a halive).mp ha, halive, hseen⟩
    · rintro ⟨a, ha, halive, hseen⟩
      exact ⟨a, (hants a halive).mpr ha, halive, hseen⟩
  · rintro ⟨hturn, hcells⟩
    exact ⟨hturn, hcells.width_eq, hcells.height_eq, hcells.looksLike, fun a halive =>
      ⟨mem_ants_of_sameCells hg hh hcells halive, mem_ants_of_sameCells hh hg hcells.symm halive⟩⟩

/-- For two games that have been played from grounds without ants, the dumps are equal exactly if
what can be seen of the games is the same: the turn, the sides, and cell by cell the terrain, the
food, the marks of both colonies and the living ants with all their data.  This is so for every
line: two lines are equal exactly if they are about the same position, a cell that looks the same,
and the same or no ant on it. -/
theorem dump_eq_iff_looksLike {ground ground' : Ground} {config config' : Config} {g h : Game}
    (hground : ground.Unoccupied) (hcourse : Course (load ground config) g)
    (hground' : ground'.Unoccupied) (hcourse' : Course (load ground' config') h) :
    (g.dump = h.dump ↔ g.LooksLike h) ∧
      ∀ (p q : Position) (c d : Cell) (ant ant' : Option (Nat × Ant)),
        describeCell p c ant = describeCell q d ant' ↔
          p = q ∧ c.LooksLike d ∧ sightOf ant = sightOf ant' := by
  have hg := atPosts_of_course hground hcourse
  have hh := atPosts_of_course hground' hcourse'
  refine ⟨?_, fun _ _ _ _ _ _ => describeCell_eq_iff⟩
  rw [dump_eq_iff, cellLines_eq_iff, looksLike_iff hg hh]

/-- For example two games that differ in the brain that has not yet had its turn, in the seed and
in the limit, and a third one in which the ant has turned the other way. -/
theorem dumps_after_first_turn :
    ∃ f g h : Game, g ≠ h ∧ g.dump = h.dump ∧ g.LooksLike h ∧ f.dump ≠ g.dump ∧
      ¬ f.LooksLike g := by
  let side : Side := ⟨3, by decide⟩
  let left : Brain := ⟨"left", #[.turn .left ⟨0, by decide⟩], by decide, by decide⟩
  let right : Brain := ⟨"right", #[.turn .right ⟨0, by decide⟩], by decide, by decide⟩
  let ground := (Ground.walled side side).modify ⟨1, 1⟩ fun c => .fresh (.hill .red) c.food
  have hset : (Ground.walled side side).setTerrain? ⟨1, 1⟩ (.hill .red) = some ground := rfl
  have hground : ground.Unoccupied :=
    (Ground.Built.setTerrain (.walled side side) hset).pristine.unoccupied
  have hcourse (config : Config) (teams : Teams) :
      Course (load ground config) ((load ground config).begin teams).step.2 :=
    .tail (.single (.begin _)) .step
  have hsame := dump_eq_iff_looksLike hground (hcourse {} ⟨left, right⟩) hground
    (hcourse ⟨7, 100, 3, 0⟩ ⟨left, left⟩)
  have hother := dump_eq_iff_looksLike hground (hcourse {} ⟨right, right⟩) hground
    (hcourse {} ⟨left, right⟩)
  have hdump : ((load ground {}).begin ⟨left, right⟩).step.2.dump =
      ((load ground ⟨7, 100, 3, 0⟩).begin ⟨left, left⟩).step.2.dump := by decide +kernel
  have hdump' : ((load ground {}).begin ⟨right, right⟩).step.2.dump ≠
      ((load ground {}).begin ⟨left, right⟩).step.2.dump := by decide +kernel
  exact ⟨_, _, _, by decide +kernel, hdump, hsame.1.mp hdump, hdump', fun hlooks =>
    hdump' (hother.1.mpr hlooks)⟩

end Game

end AntContest
