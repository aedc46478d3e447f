import AntContest.Game.Dump
import AntContest.Proofs.Text.Cutting

/-! # What the line of a cell says

The line of a cell in a dump says where the cell is, makes remarks on it, and ends with the ant on
the cell, if there is one.  Remarks differ in their lengths and share their words with each other
and with what is said of the ant, but the first characters of what is still to be read are a `Cue`
to what comes next (`cue_text_append`), and every remark ends itself (`text_append_inj`).  So a line
is read in one way (`flatMap_text_append_inj`), and two lines are equal exactly if they say the same
(`describeCell_eq_iff`). -/

namespace AntContest

open Text

/-! ### Remarks on a cell -/

/-- What a line remarks on a cell. -/
inductive Remark where
  | food (amount : UInt32)
  | rock
  | hill (owner : Colony)
  | marks (colony : Colony) (set : MarkSet)
deriving DecidableEq

def Remark.text : Remark → List Char
  | food amount => digits amount.toNat ++ " food; ".toList
  | rock => "rock ".toList
  | hill owner => owner.name.toList ++ " hill; ".toList
  | marks colony set =>
    colony.name.toList ++ (" marks: ".toList ++ (set.text.toList ++ "; ".toList))

/-- The remark on the terrain of a cell. -/
def Terrain.remarks : Terrain → List Remark
  | .rock => [.rock]
  | .hill owner => [.hill owner]
  | .clear => []

namespace Cell

/-- The remark on the marks of a colony. -/
def markRemarks (c : Cell) (colony : Colony) : List Remark :=
  if (c.marks colony).isEmpty then [] else [.marks colony (c.marks colony)]

def remarks (c : Cell) : List Remark :=
  (if c.food = 0 then [] else [.food c.food]) ++ c.terrain.remarks ++ c.markRemarks .red ++
    c.markRemarks .black

/-- What can be seen of a cell, apart from the ant on it, is the same. -/
structure LooksLike (c d : Cell) : Prop where
  terrain_eq : c.terrain = d.terrain
  food_eq : c.food = d.food
  marks_eq : ∀ colony, c.marks colony = d.marks colony

theorem LooksLike.symm {c d : Cell} (h : c.LooksLike d) : d.LooksLike c :=
  ⟨h.terrain_eq.symm, h.food_eq.symm, fun colony => (h.marks_eq colony).symm⟩

end Cell

/-- The cell bears a remark out. -/
def Remark.Holds (c : Cell) : Remark → Prop
  | food amount => c.food = amount ∧ amount ≠ 0
  | rock => c.terrain = .rock
  | hill owner => c.terrain = .hill owner
  | marks colony set => c.marks colony = set ∧ set ≠ .empty

theorem MarkSet.isEmpty_iff {s : MarkSet} : s.isEmpty = true ↔ s = empty := by
  cases s
  simp [isEmpty, empty]

theorem eq_of_forall_ne {α : Type} {a b z : α} (h : ∀ x, a = x ∧ x ≠ z ↔ b = x ∧ x ≠ z) :
    a = b := by
  by_cases ha : a = z
  · by_contra hne
    exact hne ((h b).mpr ⟨rfl, fun hb => hne (ha.trans hb.symm)⟩).1
  · exact ((h a).mp ⟨rfl, ha⟩).1.symm

namespace Cell

variable {c d : Cell} {remark : Remark}

theorem mem_markRemarks {colony : Colony} : remark ∈ c.markRemarks colony ↔
    remark = .marks colony (c.marks colony) ∧ c.marks colony ≠ .empty := by
  unfold markRemarks
  split
  · next hempty => simp [MarkSet.isEmpty_iff.mp hempty]
  · next hsome => simp [MarkSet.isEmpty_iff.not.mp hsome]

theorem mem_terrain_remarks {t : Terrain} : remark ∈ t.remarks ↔
    t = .rock ∧ remark = .rock ∨ ∃ owner, t = .hill owner ∧ remark = .hill owner := by
  cases t <;> simp [Terrain.remarks]

theorem mem_remarks : remark ∈ c.remarks ↔ remark.Holds c := by
  have hfood : remark ∈ (if c.food = 0 then [] else [Remark.food c.food]) ↔
      remark = .food c.food ∧ c.food ≠ 0 := by split <;> simp [*]
  rw [remarks, List.mem_append, List.mem_append, List.mem_append, hfood, mem_terrain_remarks,
    mem_markRemarks, mem_markRemarks]
  cases remark with
  | food amount => grind [Remark.Holds]
  | rock => grind [Remark.Holds]
  | hill owner => grind [Remark.Holds]
  | marks colony set => cases colony <;> grind [Remark.Holds]

/-- Cells on which the same is remarked look the same. -/
theorem remarks_eq_iff : c.remarks = d.remarks ↔ c.LooksLike d := by
  constructor
  · intro h
    have hholds (remark : Remark) : remark.Holds c ↔ remark.Holds d := by
      rw [← mem_remarks, ← mem_remarks, h]
    have hhill (owner : Colony) : c.terrain = .hill owner ↔ d.terrain = .hill owner :=
      hholds (.hill owner)
    have hrock : c.terrain = .rock ↔ d.terrain = .rock := hholds .rock
    refine ⟨?_, eq_of_forall_ne fun amount => hholds (.food amount),
      fun colony => eq_of_forall_ne fun set => hholds (.marks colony set)⟩
    cases hc : c.terrain with
    | rock => exact (hrock.mp hc).symm
    | hill owner => exact ((hhill owner).mp hc).symm
    | clear =>
      cases hd : d.terrain with
      | rock => exact hc.symm.trans (hrock.mpr hd)
      | hill owner => exact hc.symm.trans ((hhill owner).mpr hd)
      | clear => rfl
  · rintro ⟨hterrain, hfood, hmarks⟩
    unfold remarks markRemarks
    rw [hterrain, hfood, hmarks, hmarks]

end Cell

/-! ### Ants -/

/-- What can be seen of an ant, apart from where it is. -/
structure AntSight where
  id : Nat
  colony : Colony
  facing : Direction
  carrying : Bool
  state : StateIndex
  resting : Nat
deriving DecidableEq

/-- What can be seen of the ant of a number. -/
def Ant.sight (i : Nat) (a : Ant) : AntSight :=
  ⟨i, a.colony, a.facing, a.carrying, a.state, a.resting⟩

def AntSight.text (s : AntSight) : List Char :=
  s.colony.name.toList ++ (" ant of id ".toList ++ (digits s.id ++ (", dir ".toList ++
    (digits s.facing.index ++ (", food ".toList ++ (digits s.carrying.toNat ++
      (", state ".toList ++ (digits s.state.val ++ (", resting ".toList ++ digits s.resting)))))))))

/-- The end of a line. -/
def AntSight.lineEnd : Option AntSight → List Char
  | none => []
  | some s => s.text

theorem Colony.name_append_inj {c d : Colony} {r r' : List Char}
    (h : c.name.toList ++ r = d.name.toList ++ r') : c = d ∧ r = r' := by
  cases c <;> cases d <;> simp_all [name]

theorem AntSight.text_inj {s t : AntSight} (h : s.text = t.text) : s = t := by
  unfold text at h
  obtain ⟨hcolony, h⟩ := Colony.name_append_inj h
  obtain ⟨hid, h⟩ := digits_key_inj rfl (List.append_cancel_left h)
  obtain ⟨hfacing, h⟩ := digits_key_inj rfl h
  obtain ⟨hcarrying, h⟩ := digits_key_inj rfl h
  obtain ⟨hstate, h⟩ := digits_key_inj rfl h
  have hresting := digits_inj.mp h
  have hfacing : s.facing = t.facing := by
    rw [← Direction.ofIndex_index s.facing, hfacing, Direction.ofIndex_index]
  have hcarrying : s.carrying = t.carrying := by
    revert hcarrying
    cases s.carrying <;> cases t.carrying <;> decide
  have hstate : s.state = t.state := Fin.ext hstate
  cases s
  cases t
  simp_all

/-! ### Cues -/

/-- What comes next in a line, as its next characters show. -/
inductive Cue where
  | food
  | rock
  | hill (owner : Colony)
  | marks (colony : Colony)
  | ant (colony : Colony)
  | lineEnd
deriving DecidableEq

namespace Cue

/-- What comes next behind the name of a colony and a space. -/
def ofColony (colony : Colony) : List Char → Cue
  | 'h' :: _ => hill colony
  | 'm' :: _ => marks colony
  | _ => ant colony

/-- What comes next. -/
def of : List Char → Cue
  | [] => lineEnd
  | 'r' :: 'o' :: _ => rock
  | 'r' :: 'e' :: 'd' :: ' ' :: cs => ofColony .red cs
  | 'b' :: 'l' :: 'a' :: 'c' :: 'k' :: ' ' :: cs => ofColony .black cs
  | _ => food

end Cue

def Remark.cue : Remark → Cue
  | food _ => .food
  | rock => .rock
  | hill owner => .hill owner
  | marks colony _ => .marks colony

def AntSight.cue : Option AntSight → Cue
  | none => .lineEnd
  | some s => .ant s.colony

theorem cue_text_append (remark : Remark) (r : List Char) :
    Cue.of (remark.text ++ r) = remark.cue := by
  cases remark with
  | food amount =>
    -- A numeral begins with a digit, and all other cues with a letter.
    obtain ⟨c, cs, hcs⟩ := List.exists_cons_of_ne_nil (digits_ne_nil amount.toNat)
    have hdigit : c.isDigit = true := isDigit_of_mem_digits (hcs ▸ List.mem_cons_self)
    rw [Remark.text, hcs]
    show Cue.of (c :: (cs ++ " food; ".toList ++ r)) = .food
    unfold Cue.of
    split <;> simp_all [Char.isDigit]
  | rock => simp [Remark.text, Cue.of, Remark.cue]
  | hill owner => cases owner <;> simp [Remark.text, Colony.name, Cue.of, Cue.ofColony, Remark.cue]
  | marks colony set =>
    cases colony <;> simp [Remark.text, Colony.name, Cue.of, Cue.ofColony, Remark.cue]

theorem cue_lineEnd (s : Option AntSight) : Cue.of (AntSight.lineEnd s) = AntSight.cue s := by
  cases s with
  | none => rfl
  | some s =>
    obtain ⟨id, colony⟩ := s
    cases colony <;>
      simp [AntSight.lineEnd, AntSight.text, Colony.name, Cue.of, Cue.ofColony, AntSight.cue]

/-! ### Remarks end themselves -/

theorem MarkSet.toList_text (s : MarkSet) :
    s.text.toList = s.toList.map fun m : Marker => Nat.digitChar m.val :=
  String.toList_ofList

theorem MarkSet.isDigit_of_mem_text {s : MarkSet} : ∀ c ∈ s.text.toList, c.isDigit = true := by
  have hdigit : ∀ m : Marker, (Nat.digitChar m.val).isDigit = true := by decide
  rw [toList_text]
  intro c hc
  obtain ⟨m, -, rfl⟩ := List.mem_map.mp hc
  exact hdigit m

theorem MarkSet.text_inj {s t : MarkSet} (h : s.text.toList = t.text.toList) : s = t := by
  have hdigit : ∀ m k : Marker, Nat.digitChar m.val = Nat.digitChar k.val → m = k := by decide
  have hmem (u : MarkSet) (m : Marker) : m ∈ u.toList ↔ u.contains m = true := by simp [toList]
  rw [toList_text, toList_text] at h
  have hlist : s.toList = t.toList := (List.map_inj_right hdigit).mp h
  refine MarkSet.ext fun m => ?_
  rw [Bool.eq_iff_iff, ← hmem, ← hmem, hlist]

theorem Remark.text_append_inj {remark remark' : Remark} {r r' : List Char}
    (h : remark.text ++ r = remark'.text ++ r') : remark = remark' ∧ r = r' := by
  have hcue : remark.cue = remark'.cue := by
    rw [← cue_text_append remark r, h, cue_text_append]
  cases remark with
  | food amount =>
    cases remark' with
    | food amount' =>
      rw [text, text, List.append_assoc, List.append_assoc] at h
      obtain ⟨hamount, hrest⟩ := digits_key_inj rfl h
      rw [UInt32.toNat_inj.mp hamount]
      exact ⟨rfl, hrest⟩
    | _ => cases hcue
  | rock =>
    cases remark' with
    | rock => exact ⟨rfl, List.append_cancel_left h⟩
    | _ => cases hcue
  | hill owner =>
    cases remark' with
    | hill owner' =>
      cases hcue
      exact ⟨rfl, List.append_cancel_left h⟩
    | _ => cases hcue
  | marks colony set =>
    cases remark' with
    | marks colony' set' =>
      cases hcue
      simp only [text, List.append_assoc] at h
      obtain ⟨hset, hrest⟩ := append_key_inj MarkSet.isDigit_of_mem_text
        MarkSet.isDigit_of_mem_text rfl (List.append_cancel_left (List.append_cancel_left h))
      rw [MarkSet.text_inj hset]
      exact ⟨rfl, hrest⟩
    | _ => cases hcue

theorem AntSight.lineEnd_inj {s t : Option AntSight} (h : lineEnd s = lineEnd t) : s = t := by
  have hcue : cue s = cue t := by rw [← cue_lineEnd, h, cue_lineEnd]
  cases s with
  | none =>
    cases t with
    | none => rfl
    | some t => cases hcue
  | some s =>
    cases t with
    | none => cases hcue
    | some t => rw [text_inj h]

theorem Remark.cue_ne (remark : Remark) (s : Option AntSight) : remark.cue ≠ AntSight.cue s := by
  cases remark <;> cases s <;> simp [cue, AntSight.cue]

/-- Remarks with the end of a line behind them are told by the whole. -/
theorem flatMap_text_append_inj {remarks remarks' : List Remark} {s t : Option AntSight}
    (h : remarks.flatMap Remark.text ++ AntSight.lineEnd s =
      remarks'.flatMap Remark.text ++ AntSight.lineEnd t) : remarks = remarks' ∧ s = t := by
  have hcue (remarks : List Remark) (s : Option AntSight) :
      Cue.of (remarks.flatMap Remark.text ++ AntSight.lineEnd s) =
        (remarks.head?.map Remark.cue).getD (AntSight.cue s) := by
    cases remarks with
    | nil => exact cue_lineEnd s
    | cons remark remarks =>
      rw [List.flatMap_cons, List.append_assoc]
      exact cue_text_append remark _
  have hcues := (hcue remarks s).symm.trans ((congrArg Cue.of h).trans (hcue remarks' t))
  induction remarks generalizing remarks' with
  | nil =>
    cases remarks' with
    | nil => exact ⟨rfl, AntSight.lineEnd_inj h⟩
    | cons remark' remarks' => exact absurd hcues.symm (remark'.cue_ne s)
  | cons remark remarks ih =>
    cases remarks' with
    | nil => exact absurd hcues (remark.cue_ne t)
    | cons remark' remarks' =>
      rw [List.flatMap_cons, List.flatMap_cons, List.append_assoc, List.append_assoc] at h
      obtain ⟨rfl, hrest⟩ := Remark.text_append_inj h
      obtain ⟨rfl, rfl⟩ := ih hrest
        ((hcue remarks s).symm.trans ((congrArg Cue.of hrest).trans (hcue remarks' t)))
      exact ⟨rfl, rfl⟩

/-! ### Lines -/

theorem Cell.toList_foodText (c : Cell) : c.foodText.toList =
    (if c.food = 0 then [] else [Remark.food c.food]).flatMap Remark.text := by
  unfold foodText
  split
  · rfl
  · simp [Remark.text, digits, toString]

theorem Cell.toList_terrainText (c : Cell) :
    c.terrainText.toList = c.terrain.remarks.flatMap Remark.text := by
  unfold terrainText
  cases c.terrain <;> simp [Terrain.remarks, Remark.text, toString]

theorem Cell.toList_marksText (c : Cell) (colony : Colony) :
    (c.marksText colony).toList = (c.markRemarks colony).flatMap Remark.text := by
  unfold marksText markRemarks
  dsimp only
  split
  · rfl
  · simp [Remark.text, toString]

theorem Ant.toList_text (i : Nat) (a : Ant) : (a.text i).toList = (a.sight i).text := by
  simp [Ant.text, Ant.sight, AntSight.text, digits, toString]

/-- The ant on a cell, as far as it can be seen. -/
def sightOf (ant : Option (Nat × Ant)) : Option AntSight := ant.map fun (i, a) => a.sight i

theorem toList_describeCell (p : Position) (c : Cell) (ant : Option (Nat × Ant)) :
    (describeCell p c ant).toList = "cell (".toList ++ (digits p.x ++ (", ".toList ++
      (digits p.y ++ ("): ".toList ++
        (c.remarks.flatMap Remark.text ++ AntSight.lineEnd (sightOf ant)))))) := by
  have hposition : (toString p).toList =
      "(".toList ++ (digits p.x ++ (", ".toList ++ (digits p.y ++ ")".toList))) := by
    simp [toString, Position.text, digits]
  cases ant with
  | none =>
    simp [describeCell, toString_text, hposition, Cell.remarks, Cell.toList_foodText,
      Cell.toList_terrainText, Cell.toList_marksText, sightOf, AntSight.lineEnd]
  | some entry =>
    simp [describeCell, toString_text, hposition, Cell.remarks, Cell.toList_foodText,
      Cell.toList_terrainText, Cell.toList_marksText, sightOf, AntSight.lineEnd, Ant.toList_text]

/-- Two lines are equal exactly if they are about the same place, the cells look the same, and the
same can be seen of an ant on them. -/
theorem describeCell_eq_iff {p q : Position} {c d : Cell} {ant ant' : Option (Nat × Ant)} :
    describeCell p c ant = describeCell q d ant' ↔
      p = q ∧ c.LooksLike d ∧ sightOf ant = sightOf ant' := by
  rw [← String.toList_inj, toList_describeCell, toList_describeCell, ← Cell.remarks_eq_iff]
  constructor
  · intro h
    obtain ⟨hx, h⟩ := digits_key_inj rfl (List.append_cancel_left h)
    obtain ⟨hy, h⟩ := digits_key_inj rfl h
    obtain ⟨hremarks, hsight⟩ := flatMap_text_append_inj h
    refine ⟨?_, hremarks, hsight⟩
    cases p
    cases q
    simp_all
  · rintro ⟨rfl, hremarks, hsight⟩
    rw [hremarks, hsight]

/-- Characters in which no line ends. -/
def inLine (c : Char) : Bool := c != '\n' && c != '\r'

theorem isLine_of_all {l : List Char} (h : l.all inLine = true) : IsLine l := by
  refine isLine_of_forall fun c hc => ?_
  simpa [inLine] using List.all_eq_true.mp h c hc

theorem all_inLine_of_isDigit {l : List Char} (h : ∀ c ∈ l, c.isDigit = true) :
    l.all inLine = true := by
  refine List.all_eq_true.mpr fun c hc => ?_
  have hdigit := h c hc
  rw [inLine, Bool.and_eq_true, bne_iff_ne, bne_iff_ne]
  constructor <;> rintro rfl <;> exact absurd hdigit (by decide)

theorem all_inLine_digits (n : Nat) : (digits n).all inLine = true :=
  all_inLine_of_isDigit fun _ => isDigit_of_mem_digits

theorem Colony.all_inLine_name (colony : Colony) : colony.name.toList.all inLine = true := by
  cases colony <;> decide

theorem Remark.all_inLine_text (remark : Remark) : remark.text.all inLine = true := by
  cases remark with
  | food amount =>
    rw [text, List.all_append, all_inLine_digits]
    decide
  | rock => decide
  | hill owner =>
    rw [text, List.all_append, owner.all_inLine_name]
    decide
  | marks colony set =>
    rw [text, List.all_append, List.all_append, List.all_append, colony.all_inLine_name,
      all_inLine_of_isDigit MarkSet.isDigit_of_mem_text]
    decide

theorem AntSight.all_inLine_lineEnd (s : Option AntSight) : (lineEnd s).all inLine = true := by
  cases s with
  | none => rfl
  | some s =>
    simp only [lineEnd, text, List.all_append, s.colony.all_inLine_name, all_inLine_digits]
    decide

theorem isLine_describeCell (p : Position) (c : Cell) (ant : Option (Nat × Ant)) :
    IsLine (describeCell p c ant).toList := by
  have hremarks : (c.remarks.flatMap Remark.text).all inLine = true := by
    rw [List.all_flatMap]
    exact List.all_eq_true.mpr fun remark _ => remark.all_inLine_text
  refine isLine_of_all ?_
  rw [toList_describeCell]
  simp only [List.all_append, all_inLine_digits, hremarks, AntSight.all_inLine_lineEnd]
  decide

end AntContest
