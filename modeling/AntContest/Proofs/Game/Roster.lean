import AntContest.Game.Play
import AntContest.Proofs.Game.Deed
import AntContest.Proofs.Ground.Census

/-! # The roster of ants

In every game that has been begun, on whatever ground, the ants are numbered by their places, each
stands or lies on a cell that is not rock, and the dead carry nothing.  `Roster` says so of a
ground and a list of ants.

* `enrolled_begin`, `Enrolled.playTurn`: it holds when a game begins and every turn keeps it.
* `Enrolled.doomed_victims`: hence the victims of a turn are different ants that are alive. -/

namespace AntContest

/-- The ants are in order on a ground. -/
structure Roster (ground : Ground) (ants : Array Ant) : Prop where
  id_eq : ∀ (i : Nat) (ant : Ant), ants[i]? = some ant → ant.id = i
  footing : ∀ (i : Nat) (ant : Ant), ants[i]? = some ant →
    ∃ c, ground.cell? ant.position = some c ∧ c.terrain.isPassable = true
  unladen : ∀ (i : Nat) (ant : Ant), ants[i]? = some ant → ant.alive = false →
    ant.carrying = false

theorem getElem?_modify_cases {ants : Array Ant} {i j : Nat} {f : Ant → Ant} {ant : Ant}
    (h : (ants.modify i f)[j]? = some ant) :
    (∃ old, i = j ∧ ants[j]? = some old ∧ ant = f old) ∨ (i ≠ j ∧ ants[j]? = some ant) := by
  rw [Array.getElem?_modify] at h
  split at h
  · next hij =>
    obtain ⟨old, hold, rfl⟩ := Option.map_eq_some_iff.mp h
    exact .inl ⟨old, hij, hold, rfl⟩
  · next hij => exact .inr ⟨hij, h⟩

namespace Roster

variable {ground : Ground} {ants : Array Ant}

theorem contains (h : Roster ground ants) {i : Nat} {ant : Ant} (hant : ants[i]? = some ant) :
    ground.contains ant.position = true := by
  obtain ⟨c, hc, -⟩ := h.footing i ant hant
  rw [← Ground.isSome_cell?, hc]
  rfl

/-- An ant may change in all but its number and its place, as long as no dead ant carries. -/
theorem modifyAnt (h : Roster ground ants) {i : Nat} {f : Ant → Ant}
    (hid : ∀ a, (f a).id = a.id) (hposition : ∀ a, (f a).position = a.position)
    (hload : ∀ a, ants[i]? = some a → (f a).alive = false → (f a).carrying = false) :
    Roster ground (ants.modify i f) where
  id_eq j ant hant := by
    rcases getElem?_modify_cases hant with ⟨old, -, hold, rfl⟩ | ⟨-, hold⟩
    · rw [hid, h.id_eq j old hold]
    · exact h.id_eq j ant hold
  footing j ant hant := by
    rcases getElem?_modify_cases hant with ⟨old, -, hold, rfl⟩ | ⟨-, hold⟩
    · rw [hposition]
      exact h.footing j old hold
    · exact h.footing j ant hold
  unladen j ant hant := by
    rcases getElem?_modify_cases hant with ⟨old, rfl, hold, rfl⟩ | ⟨-, hold⟩
    · exact hload old hold
    · exact h.unladen j ant hold

theorem modifyCell (h : Roster ground ants) {p : Position} {f : Cell → Cell}
    (hterrain : ∀ c, ground.cell? p = some c → (f c).terrain = c.terrain) :
    Roster (ground.modify p f) ants where
  id_eq := h.id_eq
  footing i ant hant := by
    obtain ⟨c, hc, hpassable⟩ := h.footing i ant hant
    rw [Ground.cell?_modify]
    split
    · next hp =>
      subst hp
      exact ⟨f c, by rw [hc]; rfl, by rw [hterrain c hc]; exact hpassable⟩
    · exact ⟨c, hc, hpassable⟩
  unladen := h.unladen

/-- An ant may be put on any cell that is not rock. -/
theorem moveAnt (h : Roster ground ants) {i : Nat} {target : Position} {c : Cell}
    (hc : ground.cell? target = some c) (hpassable : c.terrain.isPassable = true) :
    Roster ground (ants.modify i ({ · with position := target })) where
  id_eq j ant hant := by
    rcases getElem?_modify_cases hant with ⟨old, -, hold, rfl⟩ | ⟨-, hold⟩
    · exact h.id_eq j old hold
    · exact h.id_eq j ant hold
  footing j ant hant := by
    rcases getElem?_modify_cases hant with ⟨old, -, hold, rfl⟩ | ⟨-, hold⟩
    · exact ⟨c, hc, hpassable⟩
    · exact h.footing j ant hold
  unladen j ant hant := by
    rcases getElem?_modify_cases hant with ⟨old, -, hold, rfl⟩ | ⟨-, hold⟩
    · exact h.unladen j old hold
    · exact h.unladen j ant hold

end Roster

namespace Game

/-- The ants of a game are in order on its ground. -/
abbrev Enrolled (g : Game) : Prop := Roster g.ground g.ants

theorem Enrolled.modifyAnt {g : Game} (h : Enrolled g) {i : Nat} {f : Ant → Ant}
    (hid : ∀ a, (f a).id = a.id) (hposition : ∀ a, (f a).position = a.position)
    (hload : ∀ a, g.ants[i]? = some a → (f a).alive = false → (f a).carrying = false) :
    Enrolled (g.modifyAnt i f) :=
  Roster.modifyAnt h hid hposition hload

theorem Enrolled.modifyCell {g : Game} (h : Enrolled g) {p : Position} {f : Cell → Cell}
    (hterrain : ∀ c, g.ground.cell? p = some c → (f c).terrain = c.terrain) :
    Enrolled (g.modifyCell p f) :=
  Roster.modifyCell h hterrain

theorem isPassable_of_isFree {c : Cell} (h : c.isFree = true) : c.terrain.isPassable = true :=
  (Bool.and_eq_true_iff.mp h).1

theorem Enrolled.relocate {g : Game} (h : Enrolled g) {i : Nat} {source target : Position}
    {c : Cell} (hc : g.ground.cell? target = some c) (hfree : c.isFree = true) :
    Enrolled (g.relocate i source target) := by
  have hmoved := h.moveAnt (i := i) hc (isPassable_of_isFree hfree)
  have hleft := hmoved.modifyCell (p := source) (f := (·.withOccupant none)) fun _ _ => rfl
  exact hleft.modifyCell (p := target) (f := (·.withOccupant (some i))) fun _ _ => rfl

theorem Enrolled.deed {g g' : Game} {i : Nat} {ant : Ant} (h : Enrolled g)
    (hant : g.ants[i]? = some ant) (halive : ant.alive = true) (hdeed : Deed g i ant g') :
    Enrolled g' := by
  -- The acting ant is alive, so whatever it carries is no load of the dead.
  have hload (b : Bool) (a : Ant) (ha : g.ants[i]? = some a) (hdead : a.alive = false) :
      b = false := by
    obtain rfl : ant = a := Option.some.inj (hant.symm.trans ha)
    rw [halive] at hdead
    cases hdead
  cases hdeed with
  | idle => exact h
  | mark f => exact h.modifyCell fun c _ => by cases ant.colony <;> rfl
  | pickUp _ hc _ =>
    refine Enrolled.modifyAnt (h.modifyCell fun d hd => ?_) (fun _ => rfl) (fun _ => rfl)
      (hload true)
    rw [Option.some.inj (hc.symm.trans hd)]
  | drop _ _ =>
    have hgain : Enrolled (g.modifyCell ant.position (·.gain 1)) := h.modifyCell fun _ _ => rfl
    exact hgain.modifyAnt (fun _ => rfl) (fun _ => rfl) (hload false)
  | face d => exact h.modifyAnt (fun _ => rfl) (fun _ => rfl) (h.unladen i)
  | step htarget =>
    obtain ⟨-, c, hc, hfree⟩ := stepTarget?_eq_some htarget
    have hmoved : Enrolled (g.relocate i ant.position _) := h.relocate hc hfree
    exact hmoved.modifyAnt (fun _ => rfl) (fun _ => rfl) (hmoved.unladen i)
  | draw random => exact h

theorem Enrolled.removeAnt {g : Game} (h : Enrolled g) (i : Nat) (bonus : UInt32) :
    Enrolled (g.removeAnt i bonus) := by
  unfold Game.removeAnt
  split
  · exact h
  · refine Enrolled.modifyAnt (h.modifyCell ?_) ?_ ?_ ?_ <;> intros <;> rfl

theorem Enrolled.slot {g : Game} (h : Enrolled g) (teams : Teams) (i : Nat) :
    Enrolled (g.slot teams i).1 := by
  generalize hresult : g.slot teams i = result
  have hslot := slotResult_slot g teams i
  rw [hresult] at hslot
  cases hslot with
  | absent _ => exact h
  | dead _ _ => exact h
  | resting _ _ _ => exact Enrolled.modifyAnt h (fun _ => rfl) (fun _ => rfl) (h.unladen i)
  | acted next hant halive _ hdeed =>
    have hdone := h.deed hant halive hdeed
    exact Enrolled.modifyAnt hdone (fun _ => rfl) (fun _ => rfl) (hdone.unladen i)
  | faulted _ _ _ _ => exact h.removeAnt i 0

theorem Enrolled.slots {g : Game} (h : Enrolled g) (teams : Teams) (is : List Nat) :
    Enrolled (Game.slots teams is g).1 :=
  slots_keeps (fun _ i hg => hg.slot teams i) is h

theorem Enrolled.nodup_ids {g : Game} (h : Enrolled g) (kind : Ant → Bool) :
    ((g.ants.toList.filter kind).map (·.id)).Nodup := by
  have hids : g.ants.toList.map (·.id) = List.range g.ants.size := by
    refine List.ext_getElem (by simp) fun i hi _ => ?_
    rw [List.length_map, Array.length_toList] at hi
    rw [List.getElem_map, List.getElem_range]
    exact h.id_eq i _ (by simp [hi])
  have hnodup : (g.ants.toList.map (·.id)).Nodup := by
    rw [hids]
    exact List.nodup_range
  exact hnodup.sublist (List.filter_sublist.map _)

theorem Enrolled.mem_ids {g : Game} (h : Enrolled g) {kind : Ant → Bool} {i : Nat} :
    i ∈ (g.ants.toList.filter kind).map (·.id) ↔
      ∃ ant, g.ants[i]? = some ant ∧ kind ant = true := by
  simp only [List.mem_map, List.mem_filter, Array.mem_toList_iff]
  constructor
  · rintro ⟨ant, ⟨hmem, hkind⟩, rfl⟩
    obtain ⟨i, hi⟩ := Array.getElem?_of_mem hmem
    exact ⟨ant, by rw [h.id_eq i ant hi, hi], hkind⟩
  · rintro ⟨ant, hant, hkind⟩
    exact ⟨ant, ⟨Array.mem_of_getElem? hant, hkind⟩, h.id_eq i ant hant⟩

/-- The victims of a turn stand in the order of their numbers. -/
theorem Enrolled.pairwise_victims {g : Game} (h : Enrolled g) :
    g.victims.Pairwise fun k l => k.ant < l.ant := by
  rw [victims, List.pairwise_filterMap, List.pairwise_iff_getElem]
  intro i j hi hj hij k hk l hl
  have hid (n : Nat) (hn : n < g.ants.toList.length) : g.ants.toList[n].id = n :=
    h.id_eq n _ (by simp)
  unfold victim? at hk hl
  split at hk <;> cases hk
  split at hl <;> cases hl
  show g.ants.toList[i].id < g.ants.toList[j].id
  rw [hid i hi, hid j hj]
  exact hij

theorem Enrolled.doomed_victims {g : Game} (h : Enrolled g) : Doomed g g.victims where
  alive k hk := by
    obtain ⟨ant, hmem, hkill⟩ := List.mem_filterMap.mp hk
    unfold victim? at hkill
    split at hkill <;> cases hkill
    next hvictim =>
    obtain ⟨i, hi⟩ := List.getElem?_of_mem hmem
    rw [Array.getElem?_toList] at hi
    exact ⟨ant, by rw [h.id_eq i ant hi, hi], (Bool.and_eq_true_iff.mp hvictim).1⟩
  distinct := h.pairwise_victims.imp Nat.ne_of_lt

theorem Enrolled.bury {g : Game} (h : Enrolled g) (kills : List Kill) :
    Enrolled (g.bury kills) := by
  induction kills generalizing g with
  | nil => exact h
  | cons k kills ih => exact ih (h.removeAnt k.ant _)

theorem Enrolled.kill {g : Game} (h : Enrolled g) (kills : List Kill) :
    Enrolled (g.kill kills) := by
  unfold Game.kill
  split
  · exact h
  · exact h.bury kills

theorem Enrolled.endAtLimit {g : Game} (h : Enrolled g) : Enrolled g.endAtLimit := by
  unfold Game.endAtLimit
  split <;> exact h

theorem Enrolled.playTurn {g : Game} (h : Enrolled g) (teams : Teams) :
    Enrolled (g.playTurn teams).2 := by
  have hslots : Enrolled (Game.slots teams (List.range g.ants.size) g).1.recount :=
    h.slots teams _
  exact Enrolled.endAtLimit (hslots.kill _)

/-! ### The beginning of a game -/

theorem getElem?_newborns {ground : Ground} {i : Nat} {ant : Ant} :
    (newborns ground)[i]? = some ant ↔
      ∃ p c, ground.hills[i]? = some (p, c) ∧ ant = .newborn c p i := by
  rw [newborns, List.getElem?_toArray, List.getElem?_map, List.getElem?_zipIdx]
  cases ground.hills[i]? with
  | none => simp
  | some hill =>
    obtain ⟨p, c⟩ := hill
    simp [eq_comm]

/-- Setting ants on a ground touches neither its measures nor its terrain nor its food. -/
theorem seat_keeps {I : Ground → Prop}
    (hseat : ∀ g p i, I g → I (g.modify p (·.withOccupant (some i)))) (ants : List Ant)
    {ground : Ground} (h : I ground) : I (seat ants ground) := by
  induction ants generalizing ground with
  | nil => exact h
  | cons ant ants ih => exact ih (hseat _ _ _ h)

theorem roster_newborns (ground : Ground) : Roster ground (newborns ground) where
  id_eq i ant hant := by
    obtain ⟨p, c, -, rfl⟩ := getElem?_newborns.mp hant
    rfl
  footing i ant hant := by
    obtain ⟨p, c, hhill, rfl⟩ := getElem?_newborns.mp hant
    obtain ⟨cell, hcell, hterrain⟩ := Ground.mem_hills.mp (List.mem_of_getElem? hhill)
    exact ⟨cell, hcell, by rw [hterrain]; rfl⟩
  unladen i ant hant := by
    obtain ⟨p, c, -, rfl⟩ := getElem?_newborns.mp hant
    simp [Ant.newborn]

theorem contains_of_newborns {ground : Ground} {i : Nat} {ant : Ant}
    (h : (newborns ground)[i]? = some ant) : ground.contains ant.position = true :=
  (roster_newborns ground).contains h

theorem enrolled_load (ground : Ground) (config : Config) : Enrolled (load ground config) :=
  ⟨fun _ _ h => (nomatch h), fun _ _ h => (nomatch h), fun _ _ h => (nomatch h)⟩

theorem enrolled_begin (g : Game) (teams : Teams) : Enrolled (g.begin teams) :=
  seat_keeps (I := fun ground => Roster ground (newborns g.home))
    (fun _ _ _ h => h.modifyCell fun _ _ => rfl) _ (roster_newborns g.home)

end Game

end AntContest
