import AntContest.Proofs.Game.Course
import AntContest.Proofs.Ground.Distance

/-! # The effect of an instruction

An ant that follows an instruction looks about first and changes something then.  What it is going
to change is its `Effect`: `Game.effect` is what the ant makes of what it sees, and `Effect.apply`
makes the change.  The interpreter does just that (`act_eq_apply`), so that what an instruction
reads and what it writes can be told apart.

* `Effect.Lawful` says what the effect of an instruction can be, and `lawful_effect` that it is so.
* `act_footprint`: hence what one ant leaves alone when it acts, in every game whatsoever. -/

namespace AntContest

namespace Game

/-- What an instruction is going to change. -/
structure Effect where
  /-- The state that the ant goes over to. -/
  next : StateIndex
  /-- What becomes of the ant, apart from its state. -/
  onAnt : Ant → Ant := id
  /-- What becomes of the cell that the ant stands on. -/
  onCell : Cell → Cell := id
  /-- The cell that the ant steps onto. -/
  target? : Option Position := none
  /-- Whether a die is thrown. -/
  throws : Bool := false

/-- The game in which ant `i`, which stands at `p`, has made the change. -/
def Effect.apply (e : Effect) (i : Nat) (p : Position) (g : Game) : Game :=
  { g with
    ground :=
      match e.target? with
      | none => g.ground.modify p e.onCell
      | some q => (g.ground.modify p e.onCell).modify q (·.withOccupant (some i))
    ants := g.ants.modify i fun a => { e.onAnt a with state := e.next }
    random := if e.throws then g.random.advance else g.random }

/-- What an ant makes of what it sees. -/
def effect (g : Game) (ant : Ant) : Instruction → Effect
  | .sense view onTrue onFalse condition =>
    { next :=
        if (g.viewed? ant view).any (g.senses · condition ant.colony) then onTrue else onFalse }
  | .mark m next => { next, onCell := (·.modifyMarks ant.colony (·.insert m)) }
  | .unmark m next => { next, onCell := (·.modifyMarks ant.colony (·.erase m)) }
  | .pickUp onSuccess onFailure =>
    if !ant.carrying && (g.ground.cell? ant.position).any (·.food != 0) then
      { next := onSuccess
        onAnt := ({ · with carrying := true })
        onCell := fun c => { c with food := c.food - 1 } }
    else { next := onFailure }
  | .drop next =>
    if ant.carrying && g.ground.contains ant.position then
      { next, onAnt := ({ · with carrying := false }), onCell := (·.gain 1) }
    else { next }
  | .turn side next => { next, onAnt := ({ · with facing := side.turn ant.facing }) }
  | .move onSuccess onFailure =>
    match g.stepTarget? ant with
    | none => { next := onFailure }
    | some q =>
      { next := onSuccess
        onAnt := ({ · with position := q, resting := g.config.restAfterMove.toNat })
        onCell := (·.withOccupant none)
        target? := some q }
  | .flip die onZero onOther =>
    { next := if (g.random.draw die.val).1 = 0 then onZero else onOther, throws := true }

/-! ### The interpreter makes the change -/

theorem modify_modify (ants : Array Ant) (i : Nat) (f f' : Ant → Ant) :
    (ants.modify i f).modify i f' = ants.modify i fun a => f' (f a) := by
  refine Array.ext_getElem? fun j => ?_
  simp only [Array.getElem?_modify]
  split
  · rw [Option.map_map]
    rfl
  · rfl

theorem apply_idle (next : StateIndex) (i : Nat) (p : Position) (g : Game) :
    ({ next : Effect }).apply i p g = g.modifyAnt i ({ · with state := next }) := by
  unfold Effect.apply
  dsimp only
  rw [Ground.modify_id]
  rfl

theorem perform_pickUp_eq_apply (g : Game) (i : Nat) (ant : Ant)
    (onSuccess onFailure : StateIndex) :
    (g.perform i ant (.pickUp onSuccess onFailure)).2.modifyAnt i
        ({ · with state := (g.perform i ant (.pickUp onSuccess onFailure)).1 }) =
      (g.effect ant (.pickUp onSuccess onFailure)).apply i ant.position g := by
  unfold perform effect
  dsimp only
  cases hload : ant.carrying with
  | true => exact (apply_idle _ i _ g).symm
  | false =>
    cases hc : g.ground.cell? ant.position with
    | none => exact (apply_idle _ i _ g).symm
    | some c =>
      by_cases hfood : c.food = 0
      · simp only [Bool.false_eq_true, if_false, Option.bind_some, Cell.take?, hfood, if_true,
          Option.any_some, bne_self_eq_false, Bool.and_false]
        exact (apply_idle _ i _ g).symm
      · have htaken : g.ground.modify ant.position (fun _ => { c with food := c.food - 1 }) =
            g.ground.modify ant.position fun c => { c with food := c.food - 1 } :=
          Ground.modify_congr fun d hd => by rw [Option.some.inj (hc.symm.trans hd)]
        simp only [Bool.false_eq_true, if_false, Option.bind_some, Cell.take?, hfood,
          Option.any_some, Bool.not_false, Bool.true_and, bne_iff_ne, ne_eq, not_false_eq_true,
          if_true]
        unfold Effect.apply modifyAnt modifyCell
        dsimp only
        rw [modify_modify, htaken]
        rfl

/-- Following an instruction, and going over to the next state, is making its change. -/
theorem perform_eq_apply (g : Game) (i : Nat) (ant : Ant) (instruction : Instruction) :
    (g.perform i ant instruction).2.modifyAnt i
        ({ · with state := (g.perform i ant instruction).1 }) =
      (g.effect ant instruction).apply i ant.position g := by
  cases instruction with
  | sense view onTrue onFalse condition => exact (apply_idle _ i _ g).symm
  | mark m next => rfl
  | unmark m next => rfl
  | pickUp onSuccess onFailure => exact perform_pickUp_eq_apply g i ant onSuccess onFailure
  | drop next =>
    unfold perform effect
    dsimp only
    split
    · unfold Effect.apply modifyAnt modifyCell
      dsimp only
      rw [modify_modify]
      rfl
    · exact (apply_idle _ i _ g).symm
  | turn side next =>
    unfold perform effect Effect.apply modifyAnt
    dsimp only
    rw [modify_modify, Ground.modify_id]
    rfl
  | move onSuccess onFailure =>
    unfold perform effect
    dsimp only
    cases g.stepTarget? ant with
    | none => exact (apply_idle _ i _ g).symm
    | some q =>
      unfold Effect.apply relocate modifyAnt modifyCell
      dsimp only
      rw [modify_modify, modify_modify]
      rfl
  | flip die onZero onOther =>
    unfold perform effect
    dsimp only
    rw [Random.draw_snd]
    generalize (if (g.random.draw die.val).1 = 0 then onZero else onOther) = next
    unfold Effect.apply modifyAnt
    dsimp only
    rw [Ground.modify_id]
    rfl

/-- The instruction that an ant follows next, if it has any. -/
def nextInstruction? (teams : Teams) (ant : Ant) : Option Instruction :=
  (teams.brain ant.colony).state? ant.state.val

section Act

variable {g : Game} {teams : Teams} {ant : Ant}

theorem act_of_none (h : nextInstruction? teams ant = none) (i : Nat) :
    g.act teams i ant =
      (g, some ⟨i, ant.position, ant.state, (teams.brain ant.colony).size⟩) := by
  unfold nextInstruction? at h
  unfold act
  dsimp only
  rw [h]

theorem act_eq_apply {instruction : Instruction}
    (h : nextInstruction? teams ant = some instruction) (i : Nat) :
    g.act teams i ant = ((g.effect ant instruction).apply i ant.position g, none) := by
  unfold nextInstruction? at h
  unfold act
  dsimp only
  rw [h, ← perform_eq_apply]

end Act

/-! ### What an effect can be -/

end Game

namespace Instruction

/-- Steps. -/
def isMove : Instruction → Bool
  | move _ _ => true
  | _ => false

/-- Sets or clears a marker. -/
def isMarking : Instruction → Bool
  | mark _ _ => true
  | unmark _ _ => true
  | _ => false

/-- Throws a die. -/
def isFlip : Instruction → Bool
  | flip _ _ _ => true
  | _ => false

end Instruction

namespace Game

/-- What the effect of an instruction can be. -/
structure Effect.Lawful (e : Effect) (g : Game) (ant : Ant) (instruction : Instruction) : Prop where
  id_eq : ∀ a, (e.onAnt a).id = a.id
  colony_eq : ∀ a, (e.onAnt a).colony = a.colony
  alive_eq : ∀ a, (e.onAnt a).alive = a.alive
  terrain_eq : ∀ c, (e.onCell c).terrain = c.terrain
  marks : ∀ c colony, (e.onCell c).marks colony ≠ c.marks colony →
    colony = ant.colony ∧ instruction.isMarking = true
  /-- What a cell has less of, the ant has more of. -/
  food : ∀ c, g.ground.cell? ant.position = some c → c.food < foodLimit →
    (e.onCell c).food.toNat + (e.onAnt ant).carrying.toNat = c.food.toNat + ant.carrying.toNat
  target_eq : e.target? = if instruction.isMove then g.stepTarget? ant else none
  throws_eq : e.throws = instruction.isFlip

/-- An effect that changes the ant at most, and that in neither its load nor its place on the list
nor its life, is lawful. -/
theorem Effect.Lawful.of_onAnt {g : Game} {ant : Ant} {instruction : Instruction} {e : Effect}
    (hcell : e.onCell = id) (hid : ∀ a, (e.onAnt a).id = a.id)
    (hcolony : ∀ a, (e.onAnt a).colony = a.colony) (halive : ∀ a, (e.onAnt a).alive = a.alive)
    (hload : ∀ a, (e.onAnt a).carrying = a.carrying) (htarget : e.target? = none)
    (hmove : instruction.isMove = true → g.stepTarget? ant = none)
    (hflip : e.throws = instruction.isFlip) : e.Lawful g ant instruction where
  id_eq := hid
  colony_eq := hcolony
  alive_eq := halive
  terrain_eq c := by rw [hcell]; rfl
  marks c colony h := by
    rw [hcell] at h
    exact (h rfl).elim
  food c _ _ := by rw [hcell, hload]; rfl
  target_eq := by
    rw [htarget]
    split
    · next h => exact (hmove h).symm
    · rfl
  throws_eq := hflip

theorem Effect.Lawful.idle {g : Game} {ant : Ant} {instruction : Instruction} (next : StateIndex)
    (hmove : instruction.isMove = true → g.stepTarget? ant = none)
    (hflip : instruction.isFlip = false) : ({ next : Effect }).Lawful g ant instruction :=
  .of_onAnt rfl (fun _ => rfl) (fun _ => rfl) (fun _ => rfl) (fun _ => rfl) rfl hmove hflip.symm

theorem Effect.Lawful.marking {g : Game} {ant : Ant} {instruction : Instruction} (next : StateIndex)
    (f : MarkSet → MarkSet) (hmarking : instruction.isMarking = true)
    (hmove : instruction.isMove = false) (hflip : instruction.isFlip = false) :
    ({ next, onCell := (·.modifyMarks ant.colony f) : Effect }).Lawful g ant instruction where
  id_eq _ := rfl
  colony_eq _ := rfl
  alive_eq _ := rfl
  terrain_eq c := by cases ant.colony <;> rfl
  marks c colony h := by
    refine ⟨?_, hmarking⟩
    by_cases hother : colony = ant.colony
    · exact hother
    · rw [Colony.eq_foe_of_ne hother] at h
      exact (h (by dsimp only; cases ant.colony <;> rfl)).elim
  food c _ _ := by
    dsimp only
    cases ant.colony <;> rfl
  target_eq := by rw [hmove]; rfl
  throws_eq := hflip.symm

theorem lawful_pickUp (g : Game) (ant : Ant) (onSuccess onFailure : StateIndex) :
    (g.effect ant (.pickUp onSuccess onFailure)).Lawful g ant (.pickUp onSuccess onFailure) := by
  unfold effect
  dsimp only
  split
  · next h =>
    obtain ⟨hload, hany⟩ := Bool.and_eq_true_iff.mp h
    refine ⟨fun _ => rfl, fun _ => rfl, fun _ => rfl, fun _ => rfl,
      fun c colony hmarks => (hmarks (by cases colony <;> rfl)).elim, fun c hc _ => ?_, rfl, rfl⟩
    rw [hc, Option.any_some, bne_iff_ne] at hany
    have hsome : 1 ≤ c.food.toNat := Nat.pos_of_ne_zero fun h0 => hany (UInt32.toNat_inj.mp h0)
    have htake : (c.food - 1).toNat = c.food.toNat - 1 :=
      UInt32.toNat_sub_of_le _ _ (UInt32.le_iff_toNat_le.mpr hsome)
    rw [Bool.not_eq_true'] at hload
    simp only [htake, hload, Bool.toNat_true, Bool.toNat_false]
    omega
  · exact .idle _ (fun h => nomatch h) rfl

theorem lawful_drop (g : Game) (ant : Ant) (next : StateIndex) :
    (g.effect ant (.drop next)).Lawful g ant (.drop next) := by
  unfold effect
  dsimp only
  split
  · next h =>
    obtain ⟨hload, -⟩ := Bool.and_eq_true_iff.mp h
    refine ⟨fun _ => rfl, fun _ => rfl, fun _ => rfl, fun _ => rfl,
      fun c colony hmarks => (hmarks (by cases colony <;> rfl)).elim, fun c _ hlt => ?_, rfl, rfl⟩
    have hgain : (c.gain 1).food.toNat = min (c.food.toNat + 1) foodLimit.toNat :=
      toNat_addFood c.food 1
    have hroom := UInt32.lt_iff_toNat_lt.mp hlt
    simp only [hgain, hload, Bool.toNat_true, Bool.toNat_false]
    omega
  · exact .idle _ (fun h => nomatch h) rfl

theorem lawful_move (g : Game) (ant : Ant) (onSuccess onFailure : StateIndex) :
    (g.effect ant (.move onSuccess onFailure)).Lawful g ant (.move onSuccess onFailure) := by
  unfold effect
  dsimp only
  cases htarget : g.stepTarget? ant with
  | none => exact .idle _ (fun _ => htarget) rfl
  | some q =>
    exact ⟨fun _ => rfl, fun _ => rfl, fun _ => rfl, fun _ => rfl,
      fun c colony hmarks => (hmarks (by cases colony <;> rfl)).elim, fun c _ _ => rfl,
      htarget.symm, rfl⟩

/-- The effect of every instruction is lawful. -/
theorem lawful_effect (g : Game) (ant : Ant) (instruction : Instruction) :
    (g.effect ant instruction).Lawful g ant instruction := by
  cases instruction with
  | sense view onTrue onFalse condition => exact .idle _ (fun h => nomatch h) rfl
  | mark m next => exact .marking _ _ rfl rfl rfl
  | unmark m next => exact .marking _ _ rfl rfl rfl
  | pickUp onSuccess onFailure => exact lawful_pickUp g ant onSuccess onFailure
  | drop next => exact lawful_drop g ant next
  | turn side next =>
    exact .of_onAnt rfl (fun _ => rfl) (fun _ => rfl) (fun _ => rfl) (fun _ => rfl) rfl
      (fun h => nomatch h) rfl
  | move onSuccess onFailure => exact lawful_move g ant onSuccess onFailure
  | flip die onZero onOther =>
    exact .of_onAnt rfl (fun _ => rfl) (fun _ => rfl) (fun _ => rfl) (fun _ => rfl) rfl
      (fun h => nomatch h) rfl

/-! ### What an ant leaves alone -/

section Apply

variable {g : Game} {e : Effect} {i : Nat} {p q : Position}

theorem getElem?_ants_apply (e : Effect) (i j : Nat) (p : Position) (g : Game) :
    (e.apply i p g).ants[j]? =
      if i = j then g.ants[j]?.map fun a => { e.onAnt a with state := e.next } else g.ants[j]? :=
  Array.getElem?_modify

theorem random_apply (e : Effect) (i : Nat) (p : Position) (g : Game) :
    (e.apply i p g).random = if e.throws then g.random.advance else g.random := rfl

theorem contains_apply (e : Effect) (i : Nat) (p q : Position) (g : Game) :
    (e.apply i p g).ground.contains q = g.ground.contains q := by
  unfold Effect.apply
  cases e.target? <;> simp

theorem frame_apply (e : Effect) (i : Nat) (p : Position) (g : Game) :
    e.apply i p g =
      { g with
        ground := (e.apply i p g).ground
        ants := (e.apply i p g).ants
        random := (e.apply i p g).random } := rfl

theorem width_apply (e : Effect) (i : Nat) (p : Position) (g : Game) :
    (e.apply i p g).ground.width = g.ground.width := by
  unfold Effect.apply
  cases e.target? <;> simp

theorem height_apply (e : Effect) (i : Nat) (p : Position) (g : Game) :
    (e.apply i p g).ground.height = g.ground.height := by
  unfold Effect.apply
  cases e.target? <;> simp

/-- The cells after a change: that under the ant, that which it steps onto, and the others. -/
theorem cell?_apply (htarget : e.target? ≠ some p) :
    (e.apply i p g).ground.cell? q =
      if q = p then (g.ground.cell? q).map e.onCell
      else if e.target? = some q then (g.ground.cell? q).map (·.withOccupant (some i))
      else g.ground.cell? q := by
  unfold Effect.apply
  cases hq : e.target? with
  | none => simp [Ground.cell?_modify, eq_comm]
  | some t =>
    rw [hq] at htarget
    simp only [Ground.cell?_modify, Option.some.injEq, ne_eq] at htarget ⊢
    grind

theorem target?_apply {ant : Ant} {instruction : Instruction} (he : e.Lawful g ant instruction)
    (hq : e.target? = some q) : instruction.isMove = true ∧ g.stepTarget? ant = some q := by
  rw [he.target_eq] at hq
  split at hq
  · next hmove => exact ⟨hmove, hq⟩
  · cases hq

end Apply

theorem getElem?_ants_act {i j : Nat} (hij : i ≠ j) (g : Game) (teams : Teams) (ant : Ant) :
    (g.act teams i ant).1.ants[j]? = g.ants[j]? := by
  cases hstate : nextInstruction? teams ant with
  | none => rw [act_of_none hstate]
  | some instruction =>
    rw [act_eq_apply hstate]
    exact (getElem?_ants_apply _ _ _ _ _).trans (if_neg hij)

/-- What may differ after ant `i` has followed an instruction, and what becomes of that. -/
structure Footprint (g : Game) (i : Nat) (ant : Ant) (instruction : Instruction) (g' : Game) :
    Prop where
  /-- Apart from the ground, the ants and the random source, the game is the same. -/
  frame : g' = { g with ground := g'.ground, ants := g'.ants, random := g'.random }
  width_eq : g'.ground.width = g.ground.width
  height_eq : g'.ground.height = g.ground.height
  /-- The other ants are the same. -/
  others : ∀ j, j ≠ i → g'.ants[j]? = g.ants[j]?
  /-- The ant has its number, its colony and its life still.  Food goes from its cell to the ant or
  back, and none is lost unless the cell is full. -/
  self : ∃ ant', g'.ants[i]? = some ant' ∧ ant'.id = ant.id ∧ ant'.colony = ant.colony ∧
    ant'.alive = ant.alive ∧
    ∀ c, g.ground.cell? ant.position = some c → c.food < foodLimit →
      ∃ c', g'.ground.cell? ant.position = some c' ∧
        c'.food.toNat + ant'.carrying.toNat = c.food.toNat + ant.carrying.toNat
  terrain_eq : ∀ p, (g'.ground.cell? p).map (·.terrain) = (g.ground.cell? p).map (·.terrain)
  /-- Its own cell may change, and the cell that it steps onto. -/
  elsewhere : ∀ p, p ≠ ant.position → (instruction.isMove = true → g.stepTarget? ant ≠ some p) →
    g'.ground.cell? p = g.ground.cell? p
  /-- Of the cell that it steps onto, nothing changes but whom it names. -/
  ahead : ∀ p, instruction.isMove = true → g.stepTarget? ant = some p →
    g'.ground.cell? p = (g.ground.cell? p).map (·.withOccupant (some i))
  marks : ∀ p colony,
    (g'.ground.cell? p).map (·.marks colony) ≠ (g.ground.cell? p).map (·.marks colony) →
      p = ant.position ∧ colony = ant.colony ∧ instruction.isMarking = true
  random_eq : g'.random = if instruction.isFlip then g.random.advance else g.random

theorem stepTarget?_ne {g : Game} {ant : Ant} : g.stepTarget? ant ≠ some ant.position := by
  intro h
  have hone := Ground.stepsApart_of_adjacent? (stepTarget?_eq_some h).1
  rw [Position.stepsApart_self] at hone
  cases hone

theorem Effect.Lawful.footprint {g : Game} {e : Effect} {i : Nat} {ant : Ant}
    {instruction : Instruction} (he : e.Lawful g ant instruction) (hant : g.ants[i]? = some ant) :
    Footprint g i ant instruction (e.apply i ant.position g) := by
  have htarget : e.target? ≠ some ant.position := fun h => stepTarget?_ne (target?_apply he h).2
  have hself := getElem?_ants_apply e i i ant.position g
  rw [if_pos rfl, hant] at hself
  refine
    { frame := frame_apply e i _ g
      width_eq := width_apply e i _ g
      height_eq := height_apply e i _ g
      others := fun j hj => (getElem?_ants_apply e i j _ g).trans (if_neg hj.symm)
      self := ⟨_, hself, he.id_eq ant, he.colony_eq ant, he.alive_eq ant, fun c hc hlt => ?_⟩
      terrain_eq := fun p => ?_
      elsewhere := fun p hp hmove => ?_
      ahead := fun p hmove hp => ?_
      marks := fun p colony hne => ?_
      random_eq := ?_ }
  · refine ⟨e.onCell c, ?_, he.food c hc hlt⟩
    rw [cell?_apply htarget, if_pos rfl, hc]
    rfl
  · rw [cell?_apply htarget]
    cases g.ground.cell? p with
    | none => split <;> first | rfl | split <;> rfl
    | some c =>
      split
      · exact congrArg some (he.terrain_eq c)
      · split <;> rfl
  · have hother : e.target? ≠ some p := fun h =>
      hmove (target?_apply he h).1 (target?_apply he h).2
    rw [cell?_apply htarget, if_neg hp, if_neg hother]
  · have hstep : e.target? = some p := by rw [he.target_eq, if_pos hmove, hp]
    have hne : p ≠ ant.position := by
      rintro rfl
      exact htarget hstep
    rw [cell?_apply htarget, if_neg hne, if_pos hstep]
  · rw [cell?_apply htarget] at hne
    cases hc : g.ground.cell? p with
    | none => simp [hc] at hne
    | some c =>
      rw [hc] at hne
      split at hne
      · next hp =>
        have hmarks := he.marks c colony fun h => hne (congrArg some h)
        exact ⟨hp, hmarks⟩
      · split at hne
        · exact (hne (by cases colony <;> rfl)).elim
        · exact (hne rfl).elim
  · rw [random_apply, he.throws_eq]

/-- Whatever the game, an ant that acts either has no instruction to follow, and then nothing
changes, or it follows the instruction of its state and leaves its footprint. -/
theorem act_footprint {g : Game} {i : Nat} {ant : Ant} (hant : g.ants[i]? = some ant)
    (teams : Teams) :
    (nextInstruction? teams ant = none →
      g.act teams i ant =
        (g, some ⟨i, ant.position, ant.state, (teams.brain ant.colony).size⟩)) ∧
    ∀ instruction, nextInstruction? teams ant = some instruction →
      ∃ g', g.act teams i ant = (g', none) ∧ Footprint g i ant instruction g' :=
  ⟨fun hnone => act_of_none hnone i, fun instruction hsome =>
    ⟨_, act_eq_apply hsome i, (lawful_effect g ant instruction).footprint hant⟩⟩

/-- For example an ant that picks food up from its hill at the beginning of a game. -/
theorem act_footprint_of_pickUp :
    ∃ (g : Game) (teams : Teams) (ant : Ant) (g' : Game),
      g.teams? = some teams ∧ g.phase = .running ∧ g.ants[0]? = some ant ∧ ant.alive = true ∧
      g.act teams 0 ant = (g', none) ∧
      Footprint g 0 ant (.pickUp ⟨1, by decide⟩ ⟨0, by decide⟩) g' ∧
      (g.ground.cell? ant.position).map (·.food.toNat) = some 5 ∧
      (g'.ground.cell? ant.position).map (·.food.toNat) = some 4 := by
  let brain : Brain := ⟨"gather", #[.pickUp ⟨1, by decide⟩ ⟨0, by decide⟩], by decide, by decide⟩
  let ground := (Ground.walled ⟨3, by decide⟩ ⟨3, by decide⟩).modify ⟨1, 1⟩
    fun _ => .fresh (.hill .red) 5
  let g := (load ground {}).begin ⟨brain, brain⟩
  let ant := Ant.newborn .red ⟨1, 1⟩
  have hant : g.ants[0]? = some ant := by decide +kernel
  obtain ⟨g', hact, hprint⟩ :=
    (act_footprint hant ⟨brain, brain⟩).2 (.pickUp ⟨1, by decide⟩ ⟨0, by decide⟩) rfl
  have hfood : ((g.act ⟨brain, brain⟩ 0 ant).1.ground.cell? ant.position).map (·.food.toNat) =
      some 4 := by decide +kernel
  rw [hact] at hfood
  exact ⟨g, ⟨brain, brain⟩, ant, g', rfl, by decide +kernel, hant, rfl, hact, hprint,
    by decide +kernel, hfood⟩

end Game

end AntContest
