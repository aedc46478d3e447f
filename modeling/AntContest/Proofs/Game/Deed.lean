import AntContest.Game.Turn

/-! # What an ant can do to a game

The eight instructions have seven kinds of effect on a game, listed by `Deed`, and a slot has five
kinds of outcome, listed by `SlotResult`.  Whatever holds of games along a turn is shown by going
through these lists, so nothing else has to open the interpreter or the scheduler.

* `deed_perform` and `slotResult_slot`: the lists are complete.  The five outcomes are told apart
  by the ant and its program (`slot_of_absent` and its neighbours), and the slots of a turn come
  one after the other (`slots_cons`).
* `Frame` is what a turn leaves alone until it is counted: the ground as it was loaded, the
  parameters, the brains, the course of the game, the number of ants and the sides of the ground.
* `slots_keeps` and `bury_keeps` carry an invariant through the slots of a turn and through the
  burial of its victims.
* `playOut` is a turn before the look at the limit of turns. -/

namespace AntContest

namespace Game

/-- What ant `i` can do to a game by following an instruction, apart from going over to the next
state. -/
inductive Deed (g : Game) (i : Nat) (ant : Ant) : Game → Prop
  /-- It looks about, or does not succeed. -/
  | idle : Deed g i ant g
  | mark (f : MarkSet → MarkSet) :
      Deed g i ant (g.modifyCell ant.position (·.modifyMarks ant.colony f))
  | pickUp {c : Cell} : ant.carrying = false → g.ground.cell? ant.position = some c →
      c.food ≠ 0 →
      Deed g i ant ((g.modifyCell ant.position fun _ => { c with food := c.food - 1 }).modifyAnt i
        ({ · with carrying := true }))
  | drop : ant.carrying = true → g.ground.contains ant.position = true →
      Deed g i ant ((g.modifyCell ant.position (·.gain 1)).modifyAnt i
        ({ · with carrying := false }))
  | face (d : Direction) : Deed g i ant (g.modifyAnt i ({ · with facing := d }))
  | step {target : Position} : g.stepTarget? ant = some target →
      Deed g i ant ((g.relocate i ant.position target).modifyAnt i
        ({ · with resting := g.config.restAfterMove.toNat }))
  | draw (random : Random) : Deed g i ant { g with random }

/-- Following an instruction does one of these. -/
theorem deed_perform (g : Game) (i : Nat) (ant : Ant) (instruction : Instruction) :
    Deed g i ant (g.perform i ant instruction).2 := by
  cases instruction with
  | sense view onTrue onFalse condition => exact .idle
  | mark m next => exact .mark _
  | unmark m next => exact .mark _
  | pickUp onSuccess onFailure =>
    unfold perform
    dsimp only
    split
    · exact .idle
    · next taken htaken =>
      split at htaken
      · cases htaken
      · next hload =>
        obtain ⟨c, hc, htake⟩ := Option.bind_eq_some_iff.mp htaken
        unfold Cell.take? at htake
        split at htake <;> cases htake
        next hfood => exact .pickUp (by simpa using hload) hc hfood
  | drop next =>
    unfold perform
    dsimp only
    split
    · next h =>
      obtain ⟨hload, hp⟩ := Bool.and_eq_true_iff.mp h
      exact .drop hload hp
    · exact .idle
  | turn side next => exact .face _
  | move onSuccess onFailure =>
    unfold perform
    dsimp only
    split
    · exact .idle
    · next target htarget => exact .step htarget
  | flip die onZero onOther => exact .draw _

theorem stepTarget?_eq_some {g : Game} {ant : Ant} {target : Position}
    (h : g.stepTarget? ant = some target) :
    g.ground.adjacent? ant.position ant.facing = some target ∧
      ∃ c, g.ground.cell? target = some c ∧ c.isFree = true := by
  obtain ⟨hadjacent, hfree⟩ := Option.filter_eq_some_iff.mp h
  refine ⟨hadjacent, ?_⟩
  simpa [Option.any_eq_true] using hfree

section Slot

variable {g : Game} {teams : Teams} {i : Nat} {ant : Ant}

theorem slot_of_absent (h : g.ants[i]? = none) : g.slot teams i = (g, none) := by
  unfold slot
  rw [h]

theorem slot_of_dead (h : g.ants[i]? = some ant) (hdead : ant.alive = false) :
    g.slot teams i = (g, none) := by
  unfold slot
  rw [h]
  simp only [hdead, Bool.not_false, if_true]

theorem slot_of_resting (h : g.ants[i]? = some ant) (halive : ant.alive = true)
    (hrest : 0 < ant.resting) :
    g.slot teams i = (g.modifyAnt i fun a => { a with resting := a.resting - 1 }, none) := by
  unfold slot
  rw [h]
  simp only [halive, Bool.not_true, Bool.false_eq_true, if_false, if_pos hrest]

/-- An ant that is awake follows the instruction of its state. -/
theorem slot_of_instruction (h : g.ants[i]? = some ant) (halive : ant.alive = true)
    (hrest : ant.resting = 0) {instruction : Instruction}
    (hstate : (teams.brain ant.colony).state? ant.state.val = some instruction) :
    g.slot teams i =
      ((g.perform i ant instruction).2.modifyAnt i
        ({ · with state := (g.perform i ant instruction).1 }), none) := by
  unfold slot act
  rw [h]
  simp only [halive, hrest, hstate, Bool.not_true, Bool.false_eq_true, if_false,
    Nat.lt_irrefl]

theorem slot_of_fault (h : g.ants[i]? = some ant) (halive : ant.alive = true)
    (hrest : ant.resting = 0)
    (hstate : (teams.brain ant.colony).state? ant.state.val = none) :
    g.slot teams i =
      ({ g.removeAnt i 0 with faulted := (g.removeAnt i 0).faulted + 1 },
        some ⟨i, ant.position, ant.state, (teams.brain ant.colony).size⟩) := by
  unfold slot act
  rw [h]
  simp only [halive, hrest, hstate, Bool.not_true, Bool.false_eq_true, if_false,
    Nat.lt_irrefl]

end Slot

/-- What can come out of the slot of ant `i`. -/
inductive SlotResult (g : Game) (teams : Teams) (i : Nat) : Game × Option Fault → Prop
  | absent : g.ants[i]? = none → SlotResult g teams i (g, none)
  | dead {ant : Ant} : g.ants[i]? = some ant → ant.alive = false → SlotResult g teams i (g, none)
  | resting {ant : Ant} : g.ants[i]? = some ant → ant.alive = true → 0 < ant.resting →
      SlotResult g teams i (g.modifyAnt i fun a => { a with resting := a.resting - 1 }, none)
  | acted {ant : Ant} {g' : Game} (next : StateIndex) : g.ants[i]? = some ant →
      ant.alive = true → ant.resting = 0 → Deed g i ant g' →
      SlotResult g teams i (g'.modifyAnt i ({ · with state := next }), none)
  | faulted {ant : Ant} : g.ants[i]? = some ant → ant.alive = true → ant.resting = 0 →
      (teams.brain ant.colony).state? ant.state.val = none →
      SlotResult g teams i
        ({ g.removeAnt i 0 with faulted := (g.removeAnt i 0).faulted + 1 },
          some ⟨i, ant.position, ant.state, (teams.brain ant.colony).size⟩)

/-- A slot comes out in one of these ways. -/
theorem slotResult_slot (g : Game) (teams : Teams) (i : Nat) :
    SlotResult g teams i (g.slot teams i) := by
  cases hant : g.ants[i]? with
  | none =>
    rw [slot_of_absent hant]
    exact .absent hant
  | some ant =>
    cases halive : ant.alive with
    | false =>
      rw [slot_of_dead hant halive]
      exact .dead hant halive
    | true =>
      rcases Nat.eq_zero_or_pos ant.resting with hrest | hrest
      · cases hstate : (teams.brain ant.colony).state? ant.state.val with
        | none =>
          rw [slot_of_fault hant halive hrest hstate]
          exact .faulted hant halive hrest hstate
        | some instruction =>
          rw [slot_of_instruction hant halive hrest hstate]
          exact .acted _ hant halive hrest (deed_perform g i ant instruction)
      · rw [slot_of_resting hant halive hrest]
        exact .resting hant halive hrest

/-! ### What a turn leaves alone -/

/-- The second game is at the same point of the same course as the first. -/
structure Frame (g g' : Game) : Prop where
  home : g'.home = g.home
  config : g'.config = g.config
  teams : g'.teams? = g.teams?
  phase : g'.phase = g.phase
  flags : g'.flags = g.flags
  turn : g'.turn = g.turn
  initialFood : g'.initialFood = g.initialFood
  size : g'.ants.size = g.ants.size
  width : g'.ground.width = g.ground.width
  height : g'.ground.height = g.ground.height

namespace Frame

theorem refl (g : Game) : Frame g g := ⟨rfl, rfl, rfl, rfl, rfl, rfl, rfl, rfl, rfl, rfl⟩

theorem trans {g₁ g₂ g₃ : Game} (h : Frame g₁ g₂) (h' : Frame g₂ g₃) : Frame g₁ g₃ :=
  ⟨h'.home.trans h.home, h'.config.trans h.config, h'.teams.trans h.teams, h'.phase.trans h.phase,
    h'.flags.trans h.flags, h'.turn.trans h.turn, h'.initialFood.trans h.initialFood,
    h'.size.trans h.size, h'.width.trans h.width, h'.height.trans h.height⟩

theorem modifyAnt (g : Game) (i : Nat) (f : Ant → Ant) : Frame g (g.modifyAnt i f) :=
  ⟨rfl, rfl, rfl, rfl, rfl, rfl, rfl, Array.size_modify, rfl, rfl⟩

theorem modifyCell (g : Game) (p : Position) (f : Cell → Cell) : Frame g (g.modifyCell p f) :=
  ⟨rfl, rfl, rfl, rfl, rfl, rfl, rfl, rfl, Ground.width_modify _ _ _, Ground.height_modify _ _ _⟩

theorem recount (g : Game) : Frame g g.recount :=
  ⟨rfl, rfl, rfl, rfl, rfl, rfl, rfl, rfl, rfl, rfl⟩

theorem removeAnt (g : Game) (i : Nat) (bonus : UInt32) : Frame g (g.removeAnt i bonus) := by
  unfold Game.removeAnt
  split
  · exact refl g
  · exact (modifyCell g _ _).trans (modifyAnt _ _ _)

theorem of_deed {g g' : Game} {i : Nat} {ant : Ant} (h : Deed g i ant g') : Frame g g' := by
  cases h with
  | idle => exact refl g
  | mark f => exact modifyCell g _ _
  | pickUp _ _ _ => exact (modifyCell g _ _).trans (modifyAnt _ _ _)
  | drop _ _ => exact (modifyCell g _ _).trans (modifyAnt _ _ _)
  | face d => exact modifyAnt g _ _
  | step _ =>
    exact (((modifyCell g _ _).trans (modifyCell _ _ _)).trans (modifyAnt _ _ _)).trans
      (modifyAnt _ _ _)
  | draw random => exact ⟨rfl, rfl, rfl, rfl, rfl, rfl, rfl, rfl, rfl, rfl⟩

theorem slot (g : Game) (teams : Teams) (i : Nat) : Frame g (g.slot teams i).1 := by
  generalize hresult : g.slot teams i = result
  have h := slotResult_slot g teams i
  rw [hresult] at h
  cases h with
  | absent _ => exact refl g
  | dead _ _ => exact refl g
  | resting _ _ _ => exact modifyAnt g _ _
  | acted next _ _ _ hdeed => exact (of_deed hdeed).trans (modifyAnt _ _ _)
  | faulted _ _ _ _ =>
    have h := removeAnt g i 0
    exact ⟨h.home, h.config, h.teams, h.phase, h.flags, h.turn, h.initialFood, h.size, h.width,
      h.height⟩

end Frame

/-! ### Invariants along a turn -/

theorem slots_cons (g : Game) (teams : Teams) (i : Nat) (is : List Nat) :
    slots teams (i :: is) g =
      ((slots teams is (g.slot teams i).1).1,
        (g.slot teams i).2.toList ++ (slots teams is (g.slot teams i).1).2) := by
  rw [slots]
  obtain ⟨g', fault?⟩ := g.slot teams i
  cases fault? <;> rfl

/-- What every slot keeps, the slots of a turn keep. -/
theorem slots_keeps {I : Game → Prop} {teams : Teams}
    (hslot : ∀ g i, I g → I (g.slot teams i).1) (is : List Nat) {g : Game} (hg : I g) :
    I (slots teams is g).1 := by
  induction is generalizing g with
  | nil => exact hg
  | cons i is ih =>
    rw [slots_cons]
    exact ih (hslot g i hg)

/-- The victims are different ants that are alive. -/
structure Doomed (g : Game) (kills : List Kill) : Prop where
  alive : ∀ k ∈ kills, ∃ ant, g.ants[k.ant]? = some ant ∧ ant.alive = true
  distinct : kills.Pairwise fun k l => k.ant ≠ l.ant

theorem getElem?_ants_removeAnt (g : Game) (i j : Nat) (bonus : UInt32) :
    (g.removeAnt i bonus).ants[j]? =
      if i = j then
        g.ants[j]?.map ({ · with alive := false, carrying := false, resting := 0 })
      else g.ants[j]? := by
  unfold removeAnt
  split
  · next h =>
    split
    · next hij =>
      subst hij
      simp [h]
    · rfl
  · exact Array.getElem?_modify

theorem Doomed.tail {g : Game} {k : Kill} {kills : List Kill} (h : Doomed g (k :: kills))
    (bonus : UInt32) : Doomed (g.removeAnt k.ant bonus) kills := by
  obtain ⟨hne, hdistinct⟩ := List.pairwise_cons.mp h.distinct
  refine ⟨fun l hl => ?_, hdistinct⟩
  obtain ⟨ant, hant, halive⟩ := h.alive l (List.mem_cons_of_mem k hl)
  refine ⟨ant, ?_, halive⟩
  rw [getElem?_ants_removeAnt, if_neg (hne l hl), hant]

/-- What the removal of a living ant keeps, the burial of victims keeps. -/
theorem bury_keeps {I : Game → Prop}
    (hremove : ∀ g i ant, I g → g.ants[i]? = some ant → ant.alive = true →
      I (g.removeAnt i encirclementBonus))
    {kills : List Kill} {g : Game} (hkills : Doomed g kills) (hg : I g) : I (g.bury kills) := by
  induction kills generalizing g with
  | nil => exact hg
  | cons k kills ih =>
    obtain ⟨ant, hant, halive⟩ := hkills.alive k List.mem_cons_self
    exact ih (hkills.tail _) (hremove g k.ant ant hg hant halive)

theorem Frame.slots (teams : Teams) (is : List Nat) (g : Game) :
    Frame g (Game.slots teams is g).1 :=
  slots_keeps (fun _ i h => h.trans (Frame.slot _ teams i)) is (Frame.refl g)

theorem Frame.bury (g : Game) (kills : List Kill) : Frame g (g.bury kills) := by
  induction kills generalizing g with
  | nil => exact refl g
  | cons k kills ih => exact (Frame.removeAnt g k.ant _).trans (ih _)

theorem Frame.kill (g : Game) (kills : List Kill) : Frame g (g.kill kills) := by
  unfold Game.kill
  split
  · exact refl g
  · have h := Frame.bury g kills
    exact ⟨h.home, h.config, h.teams, h.phase, h.flags, h.turn, h.initialFood, h.size, h.width,
      h.height⟩

/-! ### Turns -/

/-- A turn as it is played out, before the look at the limit. -/
def playOut (g : Game) (teams : Teams) : TurnReport × Game :=
  let (g, faults) := slots teams (List.range g.ants.size) g
  let g := g.recount
  let kills := g.victims
  let g := g.kill kills
  let g := { g with turn := g.turn + 1 }
  (⟨g.turn, kills, faults⟩, g)

theorem playTurn_eq_playOut (g : Game) (teams : Teams) :
    g.playTurn teams = ((g.playOut teams).1, (g.playOut teams).2.endAtLimit) := rfl

/-- What is played out counts a turn; for the rest the course goes on. -/
theorem Frame.playOut (g : Game) (teams : Teams) :
    Frame { g with turn := g.turn + 1 } (g.playOut teams).2 := by
  generalize hdone : (Game.slots teams (List.range g.ants.size) g).1.recount = done
  have hslots : Frame g done := hdone ▸ (Frame.slots teams _ g).trans (Frame.recount _)
  have h := hslots.trans (Frame.kill done done.victims)
  unfold Game.playOut
  simp only [hdone]
  exact ⟨h.home, h.config, h.teams, h.phase, h.flags, congrArg (· + 1) h.turn, h.initialFood,
    h.size, h.width, h.height⟩

theorem Frame.playTurn (g : Game) (teams : Teams) :
    Frame
      { g with
        turn := g.turn + 1
        phase := if g.config.maxTurns.toNat ≤ g.turn + 1 then .finished else g.phase }
      (g.playTurn teams).2 := by
  have h := Frame.playOut g teams
  rw [playTurn_eq_playOut]
  unfold Game.endAtLimit
  simp only [h.config, h.turn]
  split
  · exact ⟨h.home, rfl, h.teams, rfl, h.flags, rfl, h.initialFood, h.size, h.width, h.height⟩
  · exact ⟨h.home, h.config, h.teams, h.phase, h.flags, h.turn, h.initialFood, h.size, h.width,
      h.height⟩

end Game

end AntContest
