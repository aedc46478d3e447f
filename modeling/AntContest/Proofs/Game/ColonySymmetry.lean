import AntContest.Cup.Match
import AntContest.Proofs.Game.Lockstep
import AntContest.Proofs.Ground.Exchange

/-! # No colony is favoured

Let the colonies exchange their hills, their marks and their brains.  The game on the exchanged
ground is then turn by turn the given game with the colonies exchanged: the same ants do the same
things, and whatever is reported of one colony is now reported of the other.

* `Game.exchange` is a game with the colonies exchanged.  What a turn is made of goes along with
  it (`faithful_exchanging`), so steps do (`step_exchange`), and so does the beginning of a game
  (`begin_exchange`).
* `colony_symmetry`: hence the symmetry of whole games, of their reports and of their results. -/

namespace AntContest

@[simp] theorem Teams.brain_swap (teams : Teams) (c : Colony) :
    teams.swap.brain c = teams.brain c.foe := by
  cases c <;> rfl

/-- The ant in the other colony. -/
def Ant.exchange (a : Ant) : Ant := { a with colony := a.colony.foe }

namespace Ant

@[simp] theorem colony_exchange (a : Ant) : a.exchange.colony = a.colony.foe := rfl

@[simp] theorem position_exchange (a : Ant) : a.exchange.position = a.position := rfl

@[simp] theorem carrying_exchange (a : Ant) : a.exchange.carrying = a.carrying := rfl

@[simp] theorem alive_exchange (a : Ant) : a.exchange.alive = a.alive := rfl

end Ant

/-- The kill of an ant of the other colony. -/
def Kill.exchange (k : Kill) : Kill := { k with colony := k.colony.foe }

/-- The report with the colonies of the victims exchanged. -/
def TurnReport.exchange (r : TurnReport) : TurnReport :=
  { r with kills := r.kills.map Kill.exchange }

namespace Game

/-- The game with the colonies exchanged: their hills and marks, now and when the ground was
loaded, their brains, their ants, and their scores. -/
def exchange (g : Game) : Game :=
  { g with
    home := g.home.exchange
    teams? := g.teams?.map Teams.swap
    ground := g.ground.exchange
    ants := g.ants.map Ant.exchange
    redScore := g.blackScore
    blackScore := g.redScore }

theorem getElem?_ants_exchange (g : Game) (i : Nat) :
    g.exchange.ants[i]? = g.ants[i]?.map Ant.exchange :=
  Array.getElem?_map

theorem cell?_ground_exchange (g : Game) (p : Position) :
    g.exchange.ground.cell? p = (g.ground.cell? p).map Cell.exchange :=
  Ground.cell?_exchange g.ground p

/-! ### Changes of one ant and of one cell -/

theorem exchange_modifyAnt (g : Game) (i : Nat) {f : Ant → Ant}
    (h : ∀ a, (f a).exchange = f a.exchange) :
    (g.modifyAnt i f).exchange = g.exchange.modifyAnt i f := by
  have hants : (g.ants.modify i f).map Ant.exchange = (g.ants.map Ant.exchange).modify i f := by
    refine Array.ext_getElem? fun j => ?_
    rw [Array.getElem?_map, Array.getElem?_modify, Array.getElem?_modify, Array.getElem?_map]
    split
    · cases g.ants[j]? with
      | none => rfl
      | some a => exact congrArg some (h a)
    · rfl
  unfold modifyAnt exchange
  rw [hants]

theorem exchange_modifyCell (g : Game) (p : Position) {f f' : Cell → Cell}
    (h : ∀ c, (f c).exchange = f' c.exchange) :
    (g.modifyCell p f).exchange = g.exchange.modifyCell p f' := by
  unfold modifyCell exchange
  rw [Ground.exchange_modify g.ground p h]

theorem exchange_relocate (g : Game) (i : Nat) (source target : Position) :
    (g.relocate i source target).exchange = g.exchange.relocate i source target := by
  have hleft : (g.modifyCell source (·.withOccupant none)).exchange =
      g.exchange.modifyCell source (·.withOccupant none) :=
    exchange_modifyCell g source fun _ => rfl
  have hentered : ((g.modifyCell source (·.withOccupant none)).modifyCell target
      (·.withOccupant (some i))).exchange =
      (g.exchange.modifyCell source (·.withOccupant none)).modifyCell target
        (·.withOccupant (some i)) := by
    rw [← hleft]
    exact exchange_modifyCell _ target fun _ => rfl
  unfold relocate
  rw [← hentered]
  exact exchange_modifyAnt _ i fun _ => rfl

/-! ### What an ant sees and does -/

theorem antOn?_exchange (g : Game) (c : Cell) :
    g.exchange.antOn? c.exchange = (g.antOn? c).map Ant.exchange := by
  unfold antOn?
  rw [Cell.occupant_exchange]
  cases c.occupant with
  | none => rfl
  | some i => exact g.getElem?_ants_exchange i

theorem foe_beq_foe (c d : Colony) : (c.foe == d.foe) = (c == d) := by
  cases c <;> cases d <;> rfl

theorem senses_exchange (g : Game) (p : Position) (condition : Condition) (c : Colony) :
    g.exchange.senses p condition c.foe = g.senses p condition c := by
  unfold senses
  rw [cell?_ground_exchange]
  cases g.ground.cell? p with
  | none => rfl
  | some cell =>
    simp only [Option.map_some, antOn?_exchange]
    cases condition <;> simp [Option.any_map, foe_beq_foe, bne]

theorem viewed?_exchange (g : Game) (ant : Ant) (view : View) :
    g.exchange.viewed? ant.exchange view = g.viewed? ant view := rfl

theorem stepTarget?_exchange (g : Game) (ant : Ant) :
    g.exchange.stepTarget? ant.exchange = g.stepTarget? ant := by
  have hfree (q : Position) : (g.exchange.ground.cell? q).any Cell.isFree =
      (g.ground.cell? q).any Cell.isFree := by
    rw [cell?_ground_exchange, Option.any_map]
    simp
  unfold stepTarget?
  simp only [hfree]
  rfl

/-- The ant goes over to the same state, and what it does is the same with the colonies
exchanged. -/
theorem perform_exchange (g : Game) (i : Nat) (ant : Ant) (instruction : Instruction) :
    g.exchange.perform i ant.exchange instruction =
      ((g.perform i ant instruction).1, (g.perform i ant instruction).2.exchange) := by
  cases instruction with
  | sense view onTrue onFalse condition =>
    have hsenses : (g.exchange.viewed? ant.exchange view).any
        (g.exchange.senses · condition ant.exchange.colony) =
        (g.viewed? ant view).any (g.senses · condition ant.colony) := by
      rw [viewed?_exchange]
      congr 1
      funext p
      exact g.senses_exchange p condition ant.colony
    unfold perform
    simp only [hsenses]
  | mark m next =>
    refine congrArg (Prod.mk next) (Eq.symm ?_)
    exact exchange_modifyCell g ant.position fun c => c.exchange_modifyMarks ant.colony _
  | unmark m next =>
    refine congrArg (Prod.mk next) (Eq.symm ?_)
    exact exchange_modifyCell g ant.position fun c => c.exchange_modifyMarks ant.colony _
  | pickUp onSuccess onFailure =>
    have htake : (g.exchange.ground.cell? ant.position).bind Cell.take? =
        ((g.ground.cell? ant.position).bind Cell.take?).map Cell.exchange := by
      rw [cell?_ground_exchange]
      cases g.ground.cell? ant.position with
      | none => rfl
      | some c => exact c.take?_exchange
    unfold perform
    simp only [Ant.carrying_exchange, Ant.position_exchange, htake]
    by_cases hload : ant.carrying = true
    · rw [if_pos hload, if_pos hload]
    · rw [if_neg hload, if_neg hload]
      cases (g.ground.cell? ant.position).bind Cell.take? with
      | none => rfl
      | some c =>
        refine congrArg (Prod.mk onSuccess) (Eq.symm ?_)
        rw [exchange_modifyAnt _ i (by intro a; rfl)]
        exact congrArg (modifyAnt · i _) (exchange_modifyCell g ant.position fun _ => rfl)
  | drop next =>
    unfold perform
    dsimp only
    by_cases hload : (ant.carrying && g.ground.contains ant.position) = true
    · have hload' : (ant.exchange.carrying && g.exchange.ground.contains ant.exchange.position) =
          true := hload
      rw [if_pos hload, if_pos hload']
      refine congrArg (Prod.mk next) (Eq.symm ?_)
      rw [exchange_modifyAnt _ i (by intro a; rfl)]
      exact congrArg (modifyAnt · i _) (exchange_modifyCell g ant.position fun _ => rfl)
    · have hload' : ¬ (ant.exchange.carrying &&
          g.exchange.ground.contains ant.exchange.position) = true := hload
      rw [if_neg hload, if_neg hload']
  | turn side next =>
    refine congrArg (Prod.mk next) (Eq.symm ?_)
    exact exchange_modifyAnt g i fun _ => rfl
  | move onSuccess onFailure =>
    unfold perform
    dsimp only
    rw [stepTarget?_exchange]
    cases g.stepTarget? ant with
    | none => rfl
    | some target =>
      refine congrArg (Prod.mk onSuccess) (Eq.symm ?_)
      rw [exchange_modifyAnt _ i (by intro a; rfl), exchange_relocate]
      rfl
  | flip die onZero onOther =>
    unfold perform
    dsimp only
    rw [show g.exchange.random = g.random from rfl]
    generalize (if (g.random.draw die.val).1 = 0 then onZero else onOther) = next
    rfl

/-! ### Deaths -/

theorem exchange_removeAnt (g : Game) (i : Nat) (bonus : UInt32) :
    (g.removeAnt i bonus).exchange = g.exchange.removeAnt i bonus := by
  unfold removeAnt
  rw [getElem?_ants_exchange]
  cases g.ants[i]? with
  | none => rfl
  | some ant =>
    dsimp only [Option.map_some]
    rw [exchange_modifyAnt _ i (by intro a; rfl)]
    exact congrArg (modifyAnt · i _) (exchange_modifyCell g ant.position fun _ => rfl)

theorem enemyNeighbours_exchange (g : Game) (p : Position) (c : Colony) :
    g.exchange.enemyNeighbours p c.foe = g.enemyNeighbours p c := by
  have henemy (d : Direction) :
      (((p.step d).bind g.exchange.ground.cell?).bind g.exchange.antOn?).any (·.colony != c.foe) =
        (((p.step d).bind g.ground.cell?).bind g.antOn?).any (·.colony != c) := by
    cases p.step d with
    | none => rfl
    | some q =>
      rw [Option.bind_some, Option.bind_some, cell?_ground_exchange]
      cases g.ground.cell? q with
      | none => rfl
      | some cell =>
        rw [Option.map_some, Option.bind_some, Option.bind_some, antOn?_exchange, Option.any_map]
        simp [foe_beq_foe, bne]
  unfold enemyNeighbours
  simp only [henemy]

theorem victim?_exchange (g : Game) (ant : Ant) :
    g.exchange.victim? ant.exchange = (g.victim? ant).map Kill.exchange := by
  unfold victim?
  simp only [Ant.alive_exchange, Ant.position_exchange, Ant.colony_exchange,
    enemyNeighbours_exchange]
  split <;> rfl

theorem victims_exchange (g : Game) : g.exchange.victims = g.victims.map Kill.exchange := by
  unfold victims
  rw [show g.exchange.ants.toList = g.ants.toList.map Ant.exchange from Array.toList_map,
    List.filterMap_map, List.map_filterMap]
  congr 1
  funext ant
  exact g.victim?_exchange ant

theorem exchange_recount (g : Game) : g.recount.exchange = g.exchange.recount := by
  have hfood (c : Colony) : g.exchange.ground.hillFood c = g.ground.hillFood c.foe :=
    Ground.hillFood_exchange g.ground c
  unfold recount
  rw [hfood, hfood]
  rfl

/-! ### Steps -/

/-- The exchange of the colonies as another game for every game. -/
def exchanging : Recast := ⟨exchange, Colony.foe, Teams.swap⟩

/-- A turn goes along with the exchange of the colonies, whatever the parameters and the brains. -/
theorem faithful_exchanging : exchanging.Faithful fun _ _ => True where
  ants _ := rfl
  teams _ := rfl
  brain teams c := (teams.brain_swap c.foe).trans (congrArg teams.brain c.foe_foe)
  phase _ := rfl
  flags _ := rfl
  turn _ := rfl
  encircled _ := rfl
  faulted _ := rfl
  withPhase _ _ := rfl
  withTurn _ _ := rfl
  withEncircled _ _ := rfl
  withFaulted _ _ := rfl
  modifyAnt g i _ h := exchange_modifyAnt g i h
  removeAnt := exchange_removeAnt
  recount := exchange_recount
  victims := victims_exchange
  perform g _ i ant instruction _ _ := perform_exchange g i ant instruction
  limit _ _ _ := rfl

theorem step_exchange (g : Game) :
    g.exchange.step = (g.step.1.map TurnReport.exchange, g.step.2.exchange) :=
  faithful_exchanging.step fun _ _ => trivial

theorem steps_exchange (g : Game) (n : Nat) : g.exchange.steps n = (g.steps n).exchange :=
  faithful_exchanging.steps (fun _ _ => trivial) n

/-! ### Whole games -/

theorem newborns_exchange (ground : Ground) :
    newborns ground.exchange = (newborns ground).map Ant.exchange := by
  unfold newborns
  rw [Ground.hills_exchange, List.map_toArray, List.map_map, List.zipIdx_map, List.map_map]
  rfl

theorem seat_exchange (ants : List Ant) (ground : Ground) :
    seat (ants.map Ant.exchange) ground.exchange = (seat ants ground).exchange := by
  induction ants generalizing ground with
  | nil => rfl
  | cons ant ants ih =>
    have hfirst : (ground.modify ant.position (·.withOccupant (some ant.id))).exchange =
        ground.exchange.modify ant.position (·.withOccupant (some ant.id)) :=
      ground.exchange_modify ant.position fun _ => rfl
    rw [List.map_cons, seat, seat, ← ih, hfirst]
    rfl

/-- The exchanged game begins as the game does, exchanged. -/
theorem begin_exchange (g : Game) (teams : Teams) :
    g.exchange.begin teams.swap = (g.begin teams).exchange := by
  have hants : newborns g.exchange.home = (newborns g.home).map Ant.exchange :=
    newborns_exchange g.home
  have hground : seat (newborns g.exchange.home).toList g.exchange.home =
      (seat (newborns g.home).toList g.home).exchange := by
    rw [hants, Array.toList_map]
    exact seat_exchange _ g.home
  unfold begin
  dsimp only
  rw [exchange_recount, hground, hants, Ground.totalFood_exchange]
  rfl

theorem load_exchange (ground : Ground) (config : Config) :
    (load ground config).exchange = load ground.exchange config := by
  unfold load exchange
  dsimp only
  rw [Ground.totalFood_exchange, Array.map_empty]
  rfl

theorem aliveCount_exchange (g : Game) (c : Colony) :
    g.exchange.aliveCount c = g.aliveCount c.foe := by
  have hcolony (a : Ant) : (a.colony.foe == c) = (a.colony == c.foe) := by
    cases a.colony <;> cases c <;> rfl
  unfold aliveCount
  rw [show g.exchange.ants = g.ants.map Ant.exchange from rfl, Array.countP_map]
  simp [Function.comp_def, hcolony]

end Game

def GameResult.exchange (r : GameResult) : GameResult :=
  { r with
    red := r.black
    black := r.red
    redScore := r.blackScore
    blackScore := r.redScore
    redAlive := r.blackAlive
    blackAlive := r.redAlive }

theorem GameResult.ofGame_exchange (g : Game) : ofGame g.exchange = (ofGame g).exchange := by
  have hname (c : Colony) : g.exchange.teamName? c = g.teamName? c.foe := by
    unfold Game.teamName?
    rw [show g.exchange.teams? = g.teams?.map Teams.swap from rfl, Option.map_map]
    congr 1
    funext teams
    exact congrArg Brain.name (teams.brain_swap c)
  unfold ofGame GameResult.exchange
  dsimp only
  rw [hname, hname, Game.aliveCount_exchange, Game.aliveCount_exchange]
  rfl

namespace Game

/-- Played by the brains in exchanged colonies on the exchanged ground, a game is at every turn
the given game with the colonies exchanged.  So is what the next step reports, and so is the
result. -/
theorem colony_symmetry (ground : Ground) (a b : Brain) (config : Config) :
    (∀ n,
      let game := ((load ground config).begin ⟨a, b⟩).steps n
      let exchanged := ((load ground.exchange config).begin ⟨b, a⟩).steps n
      exchanged = game.exchange ∧ exchanged.step.1 = game.step.1.map TurnReport.exchange) ∧
    playGame ground.exchange ⟨b, a⟩ config = (playGame ground ⟨a, b⟩ config).exchange := by
  have hbegin : (load ground.exchange config).begin ⟨b, a⟩ =
      ((load ground config).begin ⟨a, b⟩).exchange := by
    rw [← load_exchange]
    exact begin_exchange (load ground config) ⟨a, b⟩
  have hsteps (n : Nat) : ((load ground.exchange config).begin ⟨b, a⟩).steps n =
      (((load ground config).begin ⟨a, b⟩).steps n).exchange := by
    rw [hbegin, steps_exchange]
  refine ⟨fun n => ⟨hsteps n, ?_⟩, ?_⟩
  · rw [hsteps n, step_exchange]
  · unfold playGame
    rw [(underway_begin (load ground.exchange config) ⟨b, a⟩).play_eq_steps,
      (underway_begin (load ground config) ⟨a, b⟩).play_eq_steps, ← GameResult.ofGame_exchange]
    exact congrArg GameResult.ofGame (hsteps _)

end Game

end AntContest
