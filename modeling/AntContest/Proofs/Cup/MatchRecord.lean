import AntContest.Cup.Match
import AntContest.Proofs.Game.Stepping
import AntContest.Proofs.Text.ByteOrder
import Mathlib.Algebra.Order.Ring.Nat

/-! # The record of a match

The first brain of a match plays red in the games at even places and black in the others
(`firstColony`).  A match is played round by round: `roundsPlayed` is the tally after a number of
rounds, however the points stand, and a match is such a tally, with the first number of rounds after
which the points differ or with all rounds (`exists_playRounds_eq`).

A tally agrees with the list of its games, in which each game stands beside the colony that a brain
played in it (`Tally.Records`): points are the games won and food is the sum of the scores, in
whichever colony they were made.  So the result of a match can be read off its games: `MatchRecord`
lists what it says, and `match_record` is that every match has such a result. -/

namespace AntContest

namespace GameResult

theorem winner?_eq_some_iff {r : GameResult} {c : Colony} :
    r.winner? = some c ↔ r.score c.foe < r.score c := by
  have hasymm : ¬ (r.blackScore < r.redScore ∧ r.redScore < r.blackScore) :=
    fun h => absurd (UInt32.lt_trans h.1 h.2) (UInt32.lt_irrefl _)
  unfold winner?
  cases c <;> simp only [score, Colony.foe] <;> split <;> simp_all

theorem name_playGame (ground : Ground) (teams : Teams) (config : Config) (c : Colony) :
    (playGame ground teams config).name c = (teams.brain c).name := by
  have hunderway := Game.underway_begin (Game.load ground config) teams
  obtain ⟨-, hteams, -⟩ := Game.settings_steps ((Game.load ground config).begin teams)
    (config.maxTurns.toNat - 0)
  have hplayed : ((Game.load ground config).begin teams).play.teams? = some teams := by
    rw [hunderway.play_eq_steps]
    exact hteams
  cases c <;> simp only [playGame, ofGame, name, Game.teamName?, hplayed] <;> rfl

end GameResult

/-! ### Games from the side of one brain -/

/-- Games, each with the colony that one of the brains played in it. -/
abbrev SidedGames := List (GameResult × Colony)

namespace SidedGames

/-- The games that the brain won. -/
def won (games : SidedGames) : Nat := games.countP fun p => p.1.winner? = some p.2

/-- All food that the brain scored. -/
def food (games : SidedGames) : Nat := (games.map fun p => (p.1.score p.2).toNat).sum

/-- The same games from the side of the other brain. -/
def turned (games : SidedGames) : SidedGames := games.map fun p => (p.1, p.2.foe)

section

variable (games games' : SidedGames)

@[simp] theorem won_append : (games ++ games').won = games.won + games'.won :=
  List.countP_append

@[simp] theorem food_append : (games ++ games').food = games.food + games'.food := by
  unfold food
  rw [List.map_append, List.sum_append]

@[simp] theorem length_turned : games.turned.length = games.length :=
  List.length_map _

@[simp] theorem turned_append : (games ++ games').turned = games.turned ++ games'.turned :=
  List.map_append

end

end SidedGames

/-- A tally agrees with its games, seen from the side of the first brain. -/
structure Tally.Records (t : Tally) (games : SidedGames) : Prop where
  games_eq : t.games.reverse = games.map (·.1)
  firstPoints_eq : t.firstPoints = games.won
  secondPoints_eq : t.secondPoints = games.turned.won
  firstFood_eq : t.firstFood = games.food
  secondFood_eq : t.secondFood = games.turned.food

theorem Tally.Records.add {t : Tally} {games : SidedGames} (h : t.Records games) (c : Colony)
    (r : GameResult) : (t.add c r).Records (games ++ [(r, c)]) where
  games_eq := by
    rw [Tally.add, List.reverse_cons, h.games_eq, List.map_append]
    rfl
  firstPoints_eq := by
    rw [SidedGames.won_append, ← h.firstPoints_eq]
    simp only [Tally.add, SidedGames.won, List.countP_singleton, GameResult.winner?_eq_some_iff]
    cases decide (r.score c.foe < r.score c) <;> rfl
  secondPoints_eq := by
    rw [SidedGames.turned_append, SidedGames.won_append, ← h.secondPoints_eq]
    simp only [Tally.add, SidedGames.won, SidedGames.turned, List.map_cons, List.map_nil,
      List.countP_singleton, GameResult.winner?_eq_some_iff, Colony.foe_foe]
    cases decide (r.score c < r.score c.foe) <;> rfl
  firstFood_eq := by
    rw [SidedGames.food_append, ← h.firstFood_eq]
    rfl
  secondFood_eq := by
    rw [SidedGames.turned_append, SidedGames.food_append, ← h.secondFood_eq]
    rfl

theorem SidedGames.won_add_won_turned_le (games : SidedGames) :
    games.won + games.turned.won ≤ games.length := by
  induction games with
  | nil => exact Nat.le_refl 0
  | cons p games ih =>
    have hboth : ¬ (p.1.winner? = some p.2 ∧ p.1.winner? = some p.2.foe) := by
      rintro ⟨hown, hother⟩
      rw [hown, Option.some.injEq] at hother
      exact p.2.foe_ne hother.symm
    unfold won turned at ih ⊢
    simp only [List.map_cons, List.countP_cons, List.length_cons, decide_eq_true_eq]
    split <;> split <;> first | omega | exact (hboth ⟨‹_›, ‹_›⟩).elim

theorem SidedGames.food_le (games : SidedGames) :
    games.food ≤ games.length * (2 ^ 32 - 1) := by
  unfold food
  induction games with
  | nil => exact Nat.zero_le _
  | cons p games ih =>
    have hscore := (p.1.score p.2).toNat_lt
    rw [List.map_cons, List.sum_cons, List.length_cons]
    omega

/-! ### Rounds -/

section Rounds

variable (ground : Ground) (first second : Brain) (config : Config)

def gamesOfRound (round : Nat) : SidedGames :=
  [(playGame ground ⟨first, second⟩ (roundConfig config round), .red),
    (playGame ground ⟨second, first⟩ (roundConfig config round), .black)]

def gamesOfRounds (k : Nat) : SidedGames :=
  (List.range k).flatMap (gamesOfRound ground first second config)

theorem gamesOfRounds_succ (k : Nat) :
    gamesOfRounds ground first second config (k + 1) =
      gamesOfRounds ground first second config k ++ gamesOfRound ground first second config k := by
  unfold gamesOfRounds
  rw [List.range_succ, List.flatMap_append, List.flatMap_singleton]

@[simp] theorem length_gamesOfRounds (k : Nat) :
    (gamesOfRounds ground first second config k).length = 2 * k := by
  induction k with
  | zero => rfl
  | succ k ih =>
    rw [gamesOfRounds_succ, List.length_append, ih]
    rfl

theorem take_gamesOfRounds {j k : Nat} (h : j ≤ k) :
    (gamesOfRounds ground first second config k).take (2 * j) =
      gamesOfRounds ground first second config j := by
  obtain ⟨m, rfl⟩ := Nat.exists_eq_add_of_le h
  have hsplit : gamesOfRounds ground first second config (j + m) =
      gamesOfRounds ground first second config j ++
        ((List.range m).map (j + ·)).flatMap (gamesOfRound ground first second config) := by
    unfold gamesOfRounds
    rw [List.range_add, List.flatMap_append]
  rw [hsplit, List.take_left' (length_gamesOfRounds ground first second config j)]

/-- The two games of a round of the match. -/
theorem getElem?_gamesOfRounds {j k : Nat} (h : j < k) :
    (gamesOfRounds ground first second config k)[2 * j]? =
        some (playGame ground ⟨first, second⟩ (roundConfig config j), .red) ∧
      (gamesOfRounds ground first second config k)[2 * j + 1]? =
        some (playGame ground ⟨second, first⟩ (roundConfig config j), .black) := by
  have htake := take_gamesOfRounds ground first second config h
  rw [gamesOfRounds_succ] at htake
  have hlength := length_gamesOfRounds ground first second config j
  constructor
  · rw [← List.getElem?_take_of_lt (show 2 * j < 2 * (j + 1) by omega), htake,
      List.getElem?_append_right (by omega), hlength, Nat.sub_self]
    rfl
  · rw [← List.getElem?_take_of_lt (show 2 * j + 1 < 2 * (j + 1) by omega), htake,
      List.getElem?_append_right (by omega), hlength, Nat.add_sub_cancel_left]
    rfl

theorem name_of_mem_gamesOfRounds {k : Nat} {p : GameResult × Colony}
    (h : p ∈ gamesOfRounds ground first second config k) :
    p.1.name p.2 = first.name ∧ p.1.name p.2.foe = second.name := by
  obtain ⟨round, -, hround⟩ := List.mem_flatMap.mp h
  rcases List.mem_pair.mp hround with rfl | rfl
  · exact ⟨GameResult.name_playGame _ _ _ _, GameResult.name_playGame _ _ _ _⟩
  · exact ⟨GameResult.name_playGame _ _ _ _, GameResult.name_playGame _ _ _ _⟩

/-- The tally after a number of rounds, however the points stand. -/
def roundsPlayed : Nat → Tally
  | 0 => {}
  | k + 1 => playRound ground first second (roundConfig config k) (roundsPlayed k)

theorem records_roundsPlayed (k : Nat) :
    (roundsPlayed ground first second config k).Records
      (gamesOfRounds ground first second config k) := by
  induction k with
  | zero => exact ⟨rfl, rfl, rfl, rfl, rfl⟩
  | succ k ih =>
    have hround := (ih.add .red (playGame ground ⟨first, second⟩ (roundConfig config k))).add
      .black (playGame ground ⟨second, first⟩ (roundConfig config k))
    rw [List.append_assoc] at hround
    rw [gamesOfRounds_succ]
    exact hround

/-- Neither brain has more points than the other one. -/
def Tally.Level (t : Tally) : Prop := t.firstPoints = t.secondPoints

instance (t : Tally) : Decidable t.Level :=
  inferInstanceAs (Decidable (t.firstPoints = t.secondPoints))

/-- From a tally on, rounds are played up to the first one after which the points differ, or to the
last one. -/
theorem exists_playRounds_eq (left round : Nat) :
    ∃ k, round ≤ k ∧ k ≤ round + left ∧ (0 < left → round < k) ∧
      playRounds ground first second config left round
          (roundsPlayed ground first second config round) =
        roundsPlayed ground first second config k ∧
      (∀ j, round < j → j < k → (roundsPlayed ground first second config j).Level) ∧
      (k < round + left → ¬ (roundsPlayed ground first second config k).Level) := by
  induction left generalizing round with
  | zero =>
    exact ⟨round, Nat.le_refl _, Nat.le_refl _, nofun, rfl, fun j hj hj' => by omega,
      fun h => by omega⟩
  | succ left ih =>
    have hplay : playRounds ground first second config (left + 1) round
        (roundsPlayed ground first second config round) =
        if ¬ (roundsPlayed ground first second config (round + 1)).Level
        then roundsPlayed ground first second config (round + 1)
        else playRounds ground first second config left (round + 1)
          (roundsPlayed ground first second config (round + 1)) := rfl
    by_cases hlevel : (roundsPlayed ground first second config (round + 1)).Level
    · rw [hplay, if_neg (not_not_intro hlevel)]
      obtain ⟨k, hle, hle', -, hk, hbefore, hlast⟩ := ih (round + 1)
      refine ⟨k, by omega, by omega, fun _ => by omega, hk, fun j hj hj' => ?_,
        fun h => hlast (by omega)⟩
      rcases Nat.eq_or_lt_of_le (Nat.succ_le_of_lt hj) with rfl | hlt
      · exact hlevel
      · exact hbefore j hlt hj'
    · rw [hplay, if_pos hlevel]
      exact ⟨round + 1, by omega, by omega, fun _ => by omega, rfl, fun j hj hj' => by omega,
        fun _ => hlevel⟩

end Rounds

/-! ### Whole matches -/

/-- The colony that the first brain plays in a game of a match, by the place of the game. -/
def firstColony (place : Nat) : Colony := if place % 2 = 0 then .red else .black

/-- The games of a match, from the side of the first brain. -/
def MatchResult.firstGames (r : MatchResult) : SidedGames :=
  r.games.zipIdx.map fun p => (p.1, firstColony p.2)

/-- The games of a match, from the side of the second brain. -/
def MatchResult.secondGames (r : MatchResult) : SidedGames := r.firstGames.turned

@[simp] theorem MatchResult.length_firstGames (r : MatchResult) :
    r.firstGames.length = r.games.length := by
  rw [MatchResult.firstGames, List.length_map, List.length_zipIdx]

theorem MatchResult.map_fst_firstGames (r : MatchResult) : r.firstGames.map (·.1) = r.games := by
  rw [MatchResult.firstGames, List.map_map]
  exact List.zipIdx_map_fst 0 r.games

theorem zipIdx_gamesOfRounds (ground : Ground) (first second : Brain) (config : Config) (k : Nat) :
    (((gamesOfRounds ground first second config k).map (·.1)).zipIdx.map
        fun p => (p.1, firstColony p.2)) = gamesOfRounds ground first second config k := by
  induction k with
  | zero => rfl
  | succ k ih =>
    have heven : firstColony (2 * k) = .red := if_pos (by omega)
    have hodd : firstColony (2 * k + 1) = .black := if_neg (by omega)
    rw [gamesOfRounds_succ, List.map_append, List.zipIdx_append, List.map_append, ih,
      List.length_map, length_gamesOfRounds, Nat.zero_add]
    simp only [gamesOfRound, List.map_cons, List.map_nil, List.zipIdx_cons, List.zipIdx_nil, heven,
      hodd]

/-- What the result of a match counts is what its brains got out of its games, in whichever colony
they played. -/
structure MatchResult.Counted (r : MatchResult) : Prop where
  names : ∀ p ∈ r.firstGames, p.1.name p.2 = r.first ∧ p.1.name p.2.foe = r.second
  firstPoints_eq : r.firstPoints = r.firstGames.won
  secondPoints_eq : r.secondPoints = r.secondGames.won
  firstFood_eq : r.firstFood = r.firstGames.food
  secondFood_eq : r.secondFood = r.secondGames.food

/-- What the result of a match says, with the number of its rounds. -/
structure MatchRecord (ground : Ground) (first second : Brain) (config : CupConfig)
    (r : MatchResult) (k : Nat) : Prop extends r.Counted where
  first_eq : r.first = first.name
  second_eq : r.second = second.name
  rounds_pos : 1 ≤ k
  rounds_le : k ≤ max 1 config.maxRounds.toNat
  length_games : r.games.length = 2 * k
  /-- A round is two games with one seed, in which the brains exchange their colonies. -/
  games : ∀ j < k,
    r.games[2 * j]? = some (playGame ground ⟨first, second⟩
      { config.game with seed := config.game.seed + Int64.ofNat j }) ∧
    r.games[2 * j + 1]? = some (playGame ground ⟨second, first⟩
      { config.game with seed := config.game.seed + Int64.ofNat j })
  /-- The points are level after every round that is not the last. -/
  level : ∀ j, 0 < j → j < k →
    SidedGames.won (r.firstGames.take (2 * j)) = SidedGames.won (r.secondGames.take (2 * j))
  /-- A match that ends before its last round has been decided. -/
  decided : k < max 1 config.maxRounds.toNat → r.firstPoints ≠ r.secondPoints
  /-- With fewer than `2 ^ 32 - 1` rounds the points fit into a word. -/
  points_le : r.firstPoints ≤ k + 1 ∧ r.secondPoints ≤ k + 1
  /-- With up to `2 ^ 31` rounds the food fits into two words. -/
  food_le : r.firstFood ≤ 2 * k * (2 ^ 32 - 1) ∧ r.secondFood ≤ 2 * k * (2 ^ 32 - 1)
  points_iff : r.decidedBy = .points ↔ r.firstPoints ≠ r.secondPoints
  food_iff : r.decidedBy = .food ↔ r.firstPoints = r.secondPoints ∧ r.firstFood ≠ r.secondFood
  name_iff : r.decidedBy = .name ↔ r.firstPoints = r.secondPoints ∧ r.firstFood = r.secondFood
  winner_eq : r.winner =
    if r.secondPoints < r.firstPoints then first.name
    else if r.firstPoints < r.secondPoints then second.name
    else if r.secondFood < r.firstFood then first.name
    else if r.firstFood < r.secondFood then second.name
    else if bytes second.name < bytes first.name then second.name
    else first.name

theorem decision_iff (t : Tally) (first second : String) :
    ((t.outcome first second).2 = .points ↔ t.firstPoints ≠ t.secondPoints) ∧
      ((t.outcome first second).2 = .food ↔
        t.firstPoints = t.secondPoints ∧ t.firstFood ≠ t.secondFood) ∧
      ((t.outcome first second).2 = .name ↔
        t.firstPoints = t.secondPoints ∧ t.firstFood = t.secondFood) := by
  unfold Tally.outcome
  split
  · next hpoints => simp [hpoints]
  · next hlevel =>
    split
    · next hfood => simp_all
    · next hfood => simp_all

/-- More points win, then more food, then the name with the smaller bytes. -/
theorem winner_eq_of_outcome (t : Tally) (first second : String) :
    (if (t.outcome first second).1 then first else second) =
      if t.secondPoints < t.firstPoints then first
      else if t.firstPoints < t.secondPoints then second
      else if t.secondFood < t.firstFood then first
      else if t.firstFood < t.secondFood then second
      else if bytes second < bytes first then second
      else first := by
  simp only [bytes_lt_iff]
  unfold Tally.outcome
  rcases Nat.lt_trichotomy t.firstPoints t.secondPoints with hpoints | hpoints | hpoints
  · simp [hpoints, Nat.ne_of_lt hpoints, Nat.lt_asymm hpoints]
  · rcases Nat.lt_trichotomy t.firstFood t.secondFood with hfood | hfood | hfood
    · simp [hpoints, hfood, Nat.ne_of_lt hfood, Nat.lt_asymm hfood]
    · by_cases hname : second < first <;> simp [hpoints, hfood, hname]
    · simp [hpoints, hfood, Nat.ne_of_gt hfood]
  · simp [hpoints, Nat.ne_of_gt hpoints]

theorem points_le_of_level (ground : Ground) (first second : Brain) (config : Config) {k : Nat}
    (hlevel : (roundsPlayed ground first second config k).Level) :
    (roundsPlayed ground first second config (k + 1)).firstPoints ≤ k + 2 ∧
      (roundsPlayed ground first second config (k + 1)).secondPoints ≤ k + 2 := by
  have hbefore := records_roundsPlayed ground first second config k
  have hafter := records_roundsPlayed ground first second config (k + 1)
  have hsum := (gamesOfRounds ground first second config k).won_add_won_turned_le
  have hround := (gamesOfRound ground first second config k).won_add_won_turned_le
  have hlength : (gamesOfRound ground first second config k).length = 2 := rfl
  unfold Tally.Level at hlevel
  rw [hbefore.firstPoints_eq, hbefore.secondPoints_eq] at hlevel
  rw [length_gamesOfRounds] at hsum
  rw [hafter.firstPoints_eq, hafter.secondPoints_eq, gamesOfRounds_succ, SidedGames.turned_append,
    SidedGames.won_append, SidedGames.won_append]
  omega

/-- The result of a match in which a tally has been reached. -/
def Tally.result (t : Tally) (first second : String) : MatchResult where
  first := first
  second := second
  games := t.games.reverse
  firstPoints := t.firstPoints
  secondPoints := t.secondPoints
  firstFood := t.firstFood
  secondFood := t.secondFood
  winner := if (t.outcome first second).1 then first else second
  decidedBy := (t.outcome first second).2

/-- A match has been played for the first number of rounds after which the points differ, or for
all rounds. -/
theorem exists_playMatch_eq (ground : Ground) (first second : Brain) (config : CupConfig) :
    ∃ k, 1 ≤ k ∧ k ≤ max 1 config.maxRounds.toNat ∧
      playMatch ground first second config =
        (roundsPlayed ground first second config.game k).result first.name second.name ∧
      (∀ j, 0 < j → j < k → (roundsPlayed ground first second config.game j).Level) ∧
      (k < max 1 config.maxRounds.toNat →
        ¬ (roundsPlayed ground first second config.game k).Level) := by
  obtain ⟨k, -, hle, hpos, hplay, hlevel, hlast⟩ :=
    exists_playRounds_eq ground first second config.game config.rounds 0
  rw [Nat.zero_add] at hle hlast
  have hrounds : 0 < config.rounds := Nat.lt_of_lt_of_le Nat.zero_lt_one (Nat.le_max_left _ _)
  refine ⟨k, hpos hrounds, hle, ?_, hlevel, hlast⟩
  rw [← hplay]
  rfl

section Result

variable (ground : Ground) (first second : Brain) (config : Config)

theorem points_le_of_levels {k : Nat} (hpos : 1 ≤ k)
    (hlevel : ∀ j, 0 < j → j < k → (roundsPlayed ground first second config j).Level) :
    (roundsPlayed ground first second config k).firstPoints ≤ k + 1 ∧
      (roundsPlayed ground first second config k).secondPoints ≤ k + 1 := by
  obtain ⟨j, rfl⟩ := Nat.exists_eq_add_of_le' hpos
  refine points_le_of_level ground first second config ?_
  rcases Nat.eq_zero_or_pos j with rfl | hj
  · rfl
  · exact hlevel j hj (Nat.lt_succ_self j)

theorem food_le_of_rounds (k : Nat) :
    (roundsPlayed ground first second config k).firstFood ≤ 2 * k * (2 ^ 32 - 1) ∧
      (roundsPlayed ground first second config k).secondFood ≤ 2 * k * (2 ^ 32 - 1) := by
  have hrecords := records_roundsPlayed ground first second config k
  have hfirst := (gamesOfRounds ground first second config k).food_le
  have hsecond := (gamesOfRounds ground first second config k).turned.food_le
  rw [SidedGames.length_turned, length_gamesOfRounds] at hsecond
  rw [length_gamesOfRounds] at hfirst
  exact ⟨hrecords.firstFood_eq.trans_le hfirst, hrecords.secondFood_eq.trans_le hsecond⟩

theorem games_result (k : Nat) :
    ((roundsPlayed ground first second config k).result first.name second.name).games =
      (gamesOfRounds ground first second config k).map (·.1) :=
  (records_roundsPlayed ground first second config k).games_eq

theorem firstGames_result (k : Nat) :
    ((roundsPlayed ground first second config k).result first.name second.name).firstGames =
      gamesOfRounds ground first second config k := by
  unfold MatchResult.firstGames
  rw [games_result, zipIdx_gamesOfRounds]

/-- Where the rounds left the points level, each brain has won as many games as the other one. -/
theorem won_take_of_level {j k : Nat} (hjk : j ≤ k)
    (hlevel : (roundsPlayed ground first second config j).Level) :
    let r := (roundsPlayed ground first second config k).result first.name second.name
    SidedGames.won (r.firstGames.take (2 * j)) = SidedGames.won (r.secondGames.take (2 * j)) := by
  have hrecords := records_roundsPlayed ground first second config j
  rw [Tally.Level, hrecords.firstPoints_eq, hrecords.secondPoints_eq] at hlevel
  dsimp only
  rw [MatchResult.secondGames, firstGames_result, SidedGames.turned, ← List.map_take,
    take_gamesOfRounds ground first second config hjk]
  exact hlevel

end Result

theorem counted_playMatch (ground : Ground) (first second : Brain) (config : CupConfig) :
    (playMatch ground first second config).Counted := by
  obtain ⟨k, -, -, hresult, -, -⟩ := exists_playMatch_eq ground first second config
  have hrecords := records_roundsPlayed ground first second config.game k
  have hfirst := firstGames_result ground first second config.game k
  rw [hresult]
  refine ⟨fun p hp => ?_, ?_, ?_, ?_, ?_⟩
  · rw [hfirst] at hp
    exact name_of_mem_gamesOfRounds ground first second config.game hp
  · rw [hfirst]
    exact hrecords.firstPoints_eq
  · rw [MatchResult.secondGames, hfirst]
    exact hrecords.secondPoints_eq
  · rw [hfirst]
    exact hrecords.firstFood_eq
  · rw [MatchResult.secondGames, hfirst]
    exact hrecords.secondFood_eq

/-- The result of every match says what came out of its games. -/
theorem match_record (ground : Ground) (first second : Brain) (config : CupConfig) :
    ∃ k, MatchRecord ground first second config (playMatch ground first second config) k := by
  obtain ⟨k, hpos, hle, hresult, hlevel, hlast⟩ :=
    exists_playMatch_eq ground first second config
  have hdecision := decision_iff (roundsPlayed ground first second config.game k) first.name
    second.name
  have hgames := games_result ground first second config.game k
  have hcounted := counted_playMatch ground first second config
  rw [hresult] at hcounted ⊢
  exact ⟨k, {
    toCounted := hcounted
    first_eq := rfl
    second_eq := rfl
    rounds_pos := hpos
    rounds_le := hle
    length_games := by rw [hgames, List.length_map, length_gamesOfRounds]
    games := fun j hj => by
      obtain ⟨hred, hblack⟩ := getElem?_gamesOfRounds ground first second config.game hj
      rw [hgames, List.getElem?_map, List.getElem?_map, hred, hblack]
      exact ⟨rfl, rfl⟩
    level := fun j hj hjk => won_take_of_level ground first second config.game
      (Nat.le_of_lt hjk) (hlevel j hj hjk)
    decided := hlast
    points_le := points_le_of_levels ground first second config.game hpos hlevel
    food_le := food_le_of_rounds ground first second config.game k
    points_iff := hdecision.1
    food_iff := hdecision.2.1
    name_iff := hdecision.2.2
    winner_eq := winner_eq_of_outcome _ first.name second.name }⟩

end AntContest
