import AntContest.Ground.Basic
import Mathlib.Algebra.Order.BigOperators.Group.List
import Mathlib.Algebra.Order.Ring.Nat

/-! # Counting over the cells of a ground

The cells are listed row by row (`mem_entries`), the hills among them too (`mem_hills`,
`pairwise_hills`), and food is summed over the cells.  `sumOf w` is the sum of a weight over all
cells; changing one cell changes it by what the weight of that cell changes (`sumOf_modify`).  All
the food of a ground is the food on the hills of either colony and the food off the hills
(`totalFood_eq_add`), and the food that is counted on the hills of a colony is what lies there, as
long as that fits the counter (`toNat_hillFood`). -/

namespace AntContest

theorem sum_map_modify {α : Type} (w : α → Nat) (f : α → α) {l : List α} {i : Nat} {a : α}
    (h : l[i]? = some a) : ((l.modify i f).map w).sum + w a = (l.map w).sum + w (f a) := by
  induction l generalizing i with
  | nil => cases h
  | cons b l ih =>
    cases i with
    | zero =>
      obtain rfl : b = a := Option.some.inj h
      simp only [List.modify_zero_cons, List.map_cons, List.sum_cons]
      omega
    | succ i =>
      have := ih (i := i) h
      simp only [List.modify_succ_cons, List.map_cons, List.sum_cons]
      omega

theorem sum_map_toNat {α : Type} (q : α → Bool) (l : List α) :
    (l.map fun a => (q a).toNat).sum = l.countP q := by
  induction l with
  | nil => rfl
  | cons b l ih =>
    rw [List.map_cons, List.sum_cons, ih, List.countP_cons, Nat.add_comm]
    cases q b <;> rfl

theorem countP_modify {α : Type} (q : α → Bool) (f : α → α) {xs : Array α} {i : Nat} {a : α}
    (h : xs[i]? = some a) :
    (xs.modify i f).countP q + (q a).toNat = xs.countP q + (q (f a)).toNat := by
  rw [← Array.countP_toList, ← Array.countP_toList, ← sum_map_toNat, ← sum_map_toNat,
    Array.toList_modify]
  exact sum_map_modify (fun b => (q b).toNat) f (by rw [Array.getElem?_toList, h])

namespace Ground

/-! ### Positions and cells -/

theorem positions_eq {g h : Ground} (hwidth : g.width = h.width) (hheight : g.height = h.height) :
    g.positions = h.positions := by
  simp only [positions, size_cells, hwidth, hheight]
  exact List.map_congr_left fun i _ => by simp only [positionAt, hwidth]

theorem contains_eq {g h : Ground} (hwidth : g.width = h.width) (hheight : g.height = h.height)
    (p : Position) : g.contains p = h.contains p := by
  rw [contains, contains, hwidth, hheight]

theorem sides_eq_of_contains {g h : Ground}
    (hcontains : ∀ p, g.contains p = h.contains p) : g.width = h.width ∧ g.height = h.height := by
  have hiff (p : Position) : (p.x < g.width.val ∧ p.y < g.height.val) ↔
      (p.x < h.width.val ∧ p.y < h.height.val) := by
    rw [← contains_iff, ← contains_iff, hcontains]
  have hg := g.width.property.1
  have hg' := g.height.property.1
  have hh := h.width.property.1
  have hh' := h.height.property.1
  constructor
  · have hleft := hiff ⟨g.width.val, 0⟩
    have hright := hiff ⟨h.width.val, 0⟩
    exact Subtype.ext (by simp only at hleft hright; omega)
  · have hleft := hiff ⟨0, g.height.val⟩
    have hright := hiff ⟨0, h.height.val⟩
    exact Subtype.ext (by simp only at hleft hright; omega)

theorem mem_entries {g : Ground} {p : Position} {c : Cell} :
    (p, c) ∈ g.entries ↔ g.cell? p = some c := by
  rw [entries, List.mem_filterMap]
  constructor
  · rintro ⟨q, -, hq⟩
    obtain ⟨d, hd, he⟩ := Option.map_eq_some_iff.mp hq
    cases he
    exact hd
  · intro hc
    have hcontains : g.contains p = true := by
      rw [← isSome_cell?, hc]
      rfl
    exact ⟨p, mem_positions.mpr hcontains, by rw [hc]; rfl⟩

/-! ### Hills -/

theorem mem_hills {g : Ground} {p : Position} {colony : Colony} :
    (p, colony) ∈ g.hills ↔ ∃ c, g.cell? p = some c ∧ c.terrain = .hill colony := by
  have owner (t : Terrain) : t.owner? = some colony ↔ t = .hill colony := by
    cases t <;> simp [Terrain.owner?]
  simp only [hills, List.mem_filterMap, List.mem_range, Option.map_eq_some_iff, Prod.mk.injEq,
    Option.bind_eq_some_iff]
  constructor
  · rintro ⟨i, hi, _, ⟨c, hc, howner⟩, rfl, rfl⟩
    exact ⟨c, by rw [cell?_positionAt hi, hc], (owner _).mp howner⟩
  · rintro ⟨c, hc, hterrain⟩
    have hp : g.contains p = true := by rw [← isSome_cell?, hc]; rfl
    refine ⟨g.offset p, offset_lt hp, colony, ⟨c, ?_, (owner _).mpr hterrain⟩,
      positionAt_offset hp, rfl⟩
    rw [← cell?_positionAt (offset_lt hp), positionAt_offset hp, hc]

theorem pairwise_hills (g : Ground) :
    g.hills.Pairwise fun a b => g.offset a.1 < g.offset b.1 := by
  rw [hills, List.pairwise_filterMap]
  refine List.Pairwise.imp ?_ List.pairwise_lt_range
  intro i j hij a ha b hb
  obtain ⟨_, -, rfl⟩ := Option.map_eq_some_iff.mp ha
  obtain ⟨_, -, rfl⟩ := Option.map_eq_some_iff.mp hb
  simpa using hij

/-! ### Sums over cells -/

def sumOf (g : Ground) (w : Cell → Nat) : Nat := (g.cells.toList.map w).sum

theorem length_hills_le (g : Ground) : g.hills.length ≤ g.cells.size :=
  (List.length_filterMap_le _ _).trans_eq List.length_range

/-- The hills of a colony are counted cell by cell. -/
theorem countP_hills (g : Ground) (colony : Colony) :
    g.hills.countP (·.2 == colony) = g.sumOf fun c => (c.terrain.isHillOf colony).toNat := by
  have hcells : g.cells.toList.map some = (List.range g.cells.size).map fun i => g.cells[i]? :=
    List.ext_getElem (by simp) fun i hi _ => by simp
  have hplaces : g.hills.countP (·.2 == colony) =
      ((List.range g.cells.size).map fun i => g.cells[i]?).countP
        fun c => c.any (·.terrain.isHillOf colony) := by
    rw [hills, List.countP_filterMap, List.countP_map]
    refine List.countP_congr fun i _ => ?_
    rw [Function.comp_apply]
    cases g.cells[i]? with
    | none => rfl
    | some c => cases h : c.terrain <;> simp [h, Terrain.owner?, Terrain.isHillOf]
  rw [hplaces, ← hcells, List.countP_map, sumOf, sum_map_toNat]
  rfl

theorem sumOf_modify {g : Ground} {p : Position} {c : Cell} (w : Cell → Nat) (f : Cell → Cell)
    (hc : g.cell? p = some c) : (g.modify p f).sumOf w + w c = g.sumOf w + w (f c) := by
  have hp : g.contains p = true := by rw [← isSome_cell?, hc]; rfl
  rw [cell?, if_pos hp] at hc
  simp only [sumOf, modify, hp, if_true, Array.toList_modify]
  exact sum_map_modify w f (by rw [Array.getElem?_toList, hc])

theorem sumOf_modify_of_eq {g : Ground} {p : Position} {w : Cell → Nat} {f : Cell → Cell}
    (h : ∀ c, w (f c) = w c) : (g.modify p f).sumOf w = g.sumOf w := by
  cases hc : g.cell? p with
  | none =>
    have hp : ¬ g.contains p = true := by rw [← isSome_cell?, hc]; simp
    rw [modify, if_neg hp]
  | some c =>
    have := sumOf_modify w f hc
    rw [h c] at this
    omega

theorem le_sumOf {g : Ground} {p : Position} {c : Cell} (w : Cell → Nat)
    (hc : g.cell? p = some c) : w c ≤ g.sumOf w := by
  unfold cell? at hc
  split at hc
  · have hmem := Array.mem_toList_iff.mpr (Array.mem_of_getElem? hc)
    exact List.le_sum_of_mem (List.mem_map_of_mem hmem)
  · cases hc

/-! ### Food -/

theorem totalFood_eq_sumOf (g : Ground) : g.totalFood = g.sumOf fun c => c.food.toNat := by
  rw [totalFood, ← Array.foldl_toList, sumOf, List.sum_eq_foldl, List.foldl_map]

theorem totalFood_modify {g : Ground} {p : Position} {c : Cell} (f : Cell → Cell)
    (hc : g.cell? p = some c) :
    (g.modify p f).totalFood + c.food.toNat = g.totalFood + (f c).food.toNat := by
  rw [totalFood_eq_sumOf, totalFood_eq_sumOf]
  exact sumOf_modify (fun c => c.food.toNat) f hc

theorem totalFood_modify_of_eq {g : Ground} {p : Position} {f : Cell → Cell}
    (h : ∀ c, (f c).food = c.food) : (g.modify p f).totalFood = g.totalFood := by
  rw [totalFood_eq_sumOf, totalFood_eq_sumOf]
  exact sumOf_modify_of_eq fun c => congrArg UInt32.toNat (h c)

theorem food_le_totalFood {g : Ground} {p : Position} {c : Cell} (hc : g.cell? p = some c) :
    c.food.toNat ≤ g.totalFood := by
  rw [totalFood_eq_sumOf]
  exact le_sumOf (fun c => c.food.toNat) hc

theorem totalFood_le (g : Ground) : g.totalFood ≤ g.cells.size * (2 ^ 32 - 1) := by
  have hcell : ∀ n ∈ g.cells.toList.map fun c => c.food.toNat, n ≤ 2 ^ 32 - 1 := by
    intro n hn
    obtain ⟨c, -, rfl⟩ := List.mem_map.mp hn
    exact Nat.le_sub_one_of_lt c.food.toNat_lt
  have hsum := List.sum_le_card_nsmul _ _ hcell
  rw [List.length_map, Array.length_toList, Nat.nsmul_eq_mul] at hsum
  rwa [totalFood_eq_sumOf]

/-- What a cell adds to the food on the hills of a colony. -/
def hillShare (colony : Colony) (c : Cell) : Nat :=
  if c.terrain.isHillOf colony then c.food.toNat else 0

/-- Food that lies on no hill. -/
def foodOffHills (g : Ground) : Nat :=
  g.sumOf fun c => if c.terrain.owner?.isNone then c.food.toNat else 0

/-- Food lies on the hills of red, on those of black, or off the hills. -/
theorem totalFood_eq_add (g : Ground) :
    g.totalFood = g.sumOf (hillShare .red) + g.sumOf (hillShare .black) + g.foodOffHills := by
  rw [totalFood_eq_sumOf, foodOffHills, sumOf, sumOf, sumOf, sumOf, ← List.sum_map_add,
    ← List.sum_map_add]
  congr 2
  funext c
  unfold hillShare
  cases c.terrain with
  | rock => simp [Terrain.isHillOf, Terrain.owner?]
  | clear => simp [Terrain.isHillOf, Terrain.owner?]
  | hill owner => cases owner <;> simp [Terrain.isHillOf, Terrain.owner?]

/-- The food counted on the hills of a colony: all that lies there, up to the counter's limit. -/
theorem toNat_hillFood (g : Ground) (colony : Colony) :
    (g.hillFood colony).toNat = min (g.sumOf (hillShare colony)) foodLimit.toNat := by
  have hfold (cells : List Cell) (sum : UInt32) :
      (cells.foldl (fun sum c =>
        if c.terrain.isHillOf colony then addFood sum c.food else sum) sum).toNat =
      min (sum.toNat + (cells.map (hillShare colony)).sum) foodLimit.toNat := by
    have hlimit : foodLimit.toNat = 4294967295 := rfl
    induction cells generalizing sum with
    | nil =>
      have := sum.toNat_lt
      simp only [List.foldl_nil, List.map_nil, List.sum_nil]
      omega
    | cons c cells ih =>
      rw [List.foldl_cons, ih, List.map_cons, List.sum_cons, hillShare]
      split
      · rw [toNat_addFood]
        omega
      · omega
  rw [hillFood, ← Array.foldl_toList, hfold, sumOf]
  simp

theorem hillFood_modify_of_eq {g : Ground} {p : Position} {f : Cell → Cell}
    (hterrain : ∀ c, (f c).terrain = c.terrain) (hfood : ∀ c, (f c).food = c.food)
    (colony : Colony) : (g.modify p f).hillFood colony = g.hillFood colony := by
  rw [← UInt32.toNat_inj, toNat_hillFood, toNat_hillFood, sumOf_modify_of_eq]
  intro c
  rw [hillShare, hillShare, hterrain, hfood]

end Ground

end AntContest
