import AntContest.Ground.MapReader

/-! # The order of a map

Positions are ordered row by row, and each row from west to east.  The places of the order follow
it (`precedes_of_offset_lt`), and so does the list of all positions (`pairwise_positions`), which
two loops go through, the rows outside and the columns inside (`places_eq_positions`).  What is
searched for in that list is therefore found where it comes first; in particular `openBorder?` is
the first open cell of the border (`openBorder?_eq_some_iff`). -/

namespace AntContest

/-- One position comes before another, row by row and each row from west to east. -/
def Position.Precedes (p q : Position) : Prop := p.y < q.y ∨ p.y = q.y ∧ p.x < q.x

theorem Position.Precedes.asymm {p q : Position} (h : p.Precedes q) : ¬ q.Precedes p := by
  unfold Precedes at h ⊢
  omega

theorem find?_eq_some_iff_of_pairwise {α : Type} {R : α → α → Prop} {l : List α} {q : α → Bool}
    {a : α} (hasymm : ∀ {a b}, R a b → ¬ R b a) (hl : l.Pairwise R) :
    l.find? q = some a ↔ a ∈ l ∧ q a = true ∧ ∀ b ∈ l, R b a → q b = false := by
  rw [List.find?_eq_some_iff_append]
  constructor
  · rintro ⟨ha, front, back, rfl, hfront⟩
    refine ⟨by simp, ha, fun b hb hba => ?_⟩
    have hback := (List.pairwise_cons.mp (List.pairwise_append.mp hl).2.1).1
    rcases List.mem_append.mp hb with hb | hb
    · simpa using hfront b hb
    · rcases List.mem_cons.mp hb with rfl | hb
      · exact absurd hba (hasymm hba)
      · exact absurd hba (hasymm (hback b hb))
  · rintro ⟨hmem, ha, hfirst⟩
    obtain ⟨front, back, rfl⟩ := List.append_of_mem hmem
    refine ⟨ha, front, back, rfl, fun b hb => ?_⟩
    have hba := (List.pairwise_append.mp hl).2.2 b hb a List.mem_cons_self
    rw [hfirst b (List.mem_append_left _ hb) hba]
    rfl

namespace Ground

theorem precedes_of_offset_lt {g : Ground} {p q : Position} (hp : g.contains p = true)
    (h : g.offset p < g.offset q) (hq : g.contains q = true) : p.Precedes q := by
  obtain ⟨hpx, -⟩ := contains_iff.mp hp
  obtain ⟨hqx, -⟩ := contains_iff.mp hq
  unfold offset at h
  rcases Nat.lt_trichotomy p.y q.y with hlt | heq | hgt
  · exact .inl hlt
  · rw [heq] at h
    exact .inr ⟨heq, by omega⟩
  · have hrows := Nat.mul_le_mul_right g.width.val (Nat.succ_le_of_lt hgt)
    rw [Nat.succ_mul] at hrows
    omega

theorem pairwise_positions (g : Ground) : g.positions.Pairwise Position.Precedes := by
  rw [positions, List.pairwise_map]
  refine List.Pairwise.imp_of_mem (fun hi hj hij => ?_) List.pairwise_lt_range
  exact precedes_of_offset_lt (contains_positionAt (List.mem_range.mp hi)) (by simpa using hij)
    (contains_positionAt (List.mem_range.mp hj))

theorem nodup_positions (g : Ground) : g.positions.Nodup :=
  g.pairwise_positions.imp fun h heq => by
    subst heq
    exact h.asymm h

/-! ### Rows and columns -/

/-- The positions of a ground, row by row. -/
def places (g : Ground) : List Position :=
  (List.range g.height.val).flatMap fun y => (List.range g.width.val).map fun x => ⟨x, y⟩

/-- Rows of the same length, put together, are numbered through. -/
theorem flatMap_rows {width : Nat} (hwidth : 0 < width) (height : Nat) :
    ((List.range height).flatMap fun y => (List.range width).map fun x => (⟨x, y⟩ : Position)) =
      (List.range (width * height)).map fun i => ⟨i % width, i / width⟩ := by
  induction height with
  | zero => rfl
  | succ y ih =>
    rw [List.range_succ, List.flatMap_append, List.flatMap_singleton, ih, Nat.mul_succ,
      List.range_add, List.map_append, List.map_map]
    refine congrArg _ (List.map_congr_left fun x hx => ?_)
    have hlt : x < width := List.mem_range.mp hx
    rw [Function.comp_apply, Nat.mul_add_mod, Nat.mod_eq_of_lt hlt, Nat.mul_add_div hwidth,
      Nat.div_eq_of_lt hlt, Nat.add_zero]

theorem places_eq_positions (g : Ground) : g.places = g.positions := by
  rw [places, flatMap_rows g.width.property.1, positions, size_cells]
  rfl

theorem mem_places {g : Ground} {p : Position} : p ∈ g.places ↔ g.contains p = true := by
  rw [places_eq_positions, mem_positions]

theorem nodup_places (g : Ground) : g.places.Nodup := by
  rw [places_eq_positions]
  exact g.nodup_positions

/-! ### The border -/

/-- A cell of the border that is not rock. -/
def OpenBorder (g : Ground) (p : Position) : Prop :=
  g.isBorder p = true ∧ ∃ c, g.cell? p = some c ∧ c.terrain ≠ .rock

theorem openBorder_iff {g : Ground} {p : Position} :
    (g.isBorder p && (g.cell? p).any fun c => c.terrain != .rock) = true ↔ g.OpenBorder p := by
  rw [Bool.and_eq_true, Option.any_eq_true, OpenBorder]
  simp only [bne_iff_ne]

theorem OpenBorder.contains {g : Ground} {p : Position} (h : g.OpenBorder p) :
    g.contains p = true := by
  obtain ⟨-, c, hc, -⟩ := h
  rw [← isSome_cell?, hc]
  rfl

/-- What is found at the border comes first of all that is open there. -/
theorem openBorder?_eq_some_iff {g : Ground} {p : Position} :
    g.openBorder? = some p ↔ g.OpenBorder p ∧ ∀ q, q.Precedes p → ¬ g.OpenBorder q := by
  rw [openBorder?, find?_eq_some_iff_of_pairwise Position.Precedes.asymm g.pairwise_positions,
    openBorder_iff]
  simp only [← Bool.not_eq_true, openBorder_iff, mem_positions]
  constructor
  · rintro ⟨-, hopen, hfirst⟩
    exact ⟨hopen, fun q hqp hq => hfirst q hq.contains hqp hq⟩
  · rintro ⟨hopen, hfirst⟩
    exact ⟨hopen.contains, hopen, fun q _ hqp => hfirst q hqp⟩

theorem openBorder?_eq_none_iff {g : Ground} :
    g.openBorder? = none ↔ ∀ p, ¬ g.OpenBorder p := by
  rw [openBorder?, List.find?_eq_none]
  simp only [openBorder_iff, mem_positions]
  exact ⟨fun h p hp => h p hp.contains hp, fun h p _ => h p⟩

end Ground

end AntContest
