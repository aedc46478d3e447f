import AntContest.Proofs.Cup.Standings
import AntContest.Proofs.Game.Counters
import AntContest.Proofs.Game.Restart
import Mathlib.Algebra.BigOperators.Ring.List

/-! # The totals of a cup fit their words

Points, games and matches are kept as 32-bit words and food as 64-bit ones; here they are natural
numbers, which do not overflow.

* The result of a game has the counters of the game (`fitsWords_playGame`).
* A match of `n` rounds gives at most `n + 1` points and `2 * n` scores.  So both fit, unless the
  limit of rounds is above `2 ^ 31` (`fitsWords_playMatch`).  The tallies on the way count no more
  than the last one (`Tally.FitsWords.of_add`).
* What is listed of an entrant is part of all that is counted in its cup, so it fits if the games of
  the cup do (`fitsWords_ofCup`). -/

namespace AntContest

/-! ### Games -/

theorem fitsWords_playGame {ground : Ground} (hcells : ground.cells.size < 2 ^ 32) (teams : Teams)
    (config : Config) :
    (playGame ground teams config).turnsPlayed < 2 ^ 32 ∧
      (playGame ground teams config).encircled + (playGame ground teams config).faulted <
        2 ^ 32 := by
  have hbegun : Game.Course (.load ground config) ((Game.load ground config).begin teams) :=
    .single (.begin teams)
  obtain ⟨-, -, -, hplayed⟩ := Game.endsIn_begin (.load ground config) teams
  have hfits := Game.fitsWords_of_course hcells (hbegun.trans hplayed)
  exact ⟨hfits.turn_lt, hfits.deaths_lt⟩

/-! ### Matches -/

/-- What a tally counts fits the words that it is kept in. -/
structure Tally.FitsWords (t : Tally) : Prop where
  points_lt : t.firstPoints < 2 ^ 32 ∧ t.secondPoints < 2 ^ 32
  food_lt : t.firstFood < 2 ^ 64 ∧ t.secondFood < 2 ^ 64

/-- Nothing is ever taken off a tally. -/
theorem Tally.FitsWords.of_add {t : Tally} {c : Colony} {r : GameResult}
    (h : (t.add c r).FitsWords) : t.FitsWords where
  points_lt := ⟨Nat.lt_of_le_of_lt (Nat.le_add_right _ _) h.points_lt.1,
    Nat.lt_of_le_of_lt (Nat.le_add_right _ _) h.points_lt.2⟩
  food_lt := ⟨Nat.lt_of_le_of_lt (Nat.le_add_right _ _) h.food_lt.1,
    Nat.lt_of_le_of_lt (Nat.le_add_right _ _) h.food_lt.2⟩

section Match

variable (ground : Ground) (first second : Brain)

theorem fitsWords_roundsPlayed_of_le (config : Config) {j k : Nat} (hjk : j ≤ k)
    (h : (roundsPlayed ground first second config k).FitsWords) :
    (roundsPlayed ground first second config j).FitsWords := by
  induction hjk with
  | refl => exact h
  | step _ ih => exact ih h.of_add.of_add

/-- With at most `2 ^ 31` rounds no total of a match overflows, neither in the end nor before. -/
theorem fitsWords_playMatch {config : CupConfig} (hrounds : config.maxRounds.toNat ≤ 2 ^ 31) :
    ∃ k, playMatch ground first second config =
        (roundsPlayed ground first second config.game k).result first.name second.name ∧
      ∀ j ≤ k, (roundsPlayed ground first second config.game j).FitsWords := by
  obtain ⟨k, hpos, hle, hresult, hlevel, -⟩ := exists_playMatch_eq ground first second config
  have hpoints := points_le_of_levels ground first second config.game hpos hlevel
  have hfood := food_le_of_rounds ground first second config.game k
  have hk : k ≤ 2 ^ 31 := hle.trans (Nat.max_le.mpr ⟨by decide, hrounds⟩)
  refine ⟨k, hresult, fun j hjk => fitsWords_roundsPlayed_of_le ground first second _ hjk ?_⟩
  exact ⟨by omega, by omega⟩

theorem length_games_playMatch_le (config : CupConfig) :
    (playMatch ground first second config).games.length ≤ 2 * config.rounds := by
  obtain ⟨k, -, hle, hresult, -, -⟩ := exists_playMatch_eq ground first second config
  rw [hresult, games_result, List.length_map, length_gamesOfRounds]
  exact Nat.mul_le_mul_left 2 hle

end Match

namespace MatchResult

variable {r : MatchResult}

theorem Counted.pointsOf_le (h : r.Counted) (name : String) :
    r.pointsOf name ≤ r.games.length := by
  unfold pointsOf
  split
  · rw [h.firstPoints_eq, ← r.length_firstGames]
    exact List.countP_le_length
  · rw [h.secondPoints_eq, ← r.length_firstGames, ← SidedGames.length_turned]
    exact List.countP_le_length

theorem Counted.foodOf_le (h : r.Counted) (name : String) :
    r.foodOf name ≤ r.games.length * (2 ^ 32 - 1) := by
  unfold foodOf
  split
  · rw [h.firstFood_eq, ← r.length_firstGames]
    exact SidedGames.food_le _
  · rw [h.secondFood_eq, ← r.length_firstGames, ← SidedGames.length_turned]
    exact SidedGames.food_le _

end MatchResult

/-! ### Standings -/

/-- What is listed of an entrant fits the words that it is kept in. -/
structure Standing.FitsWords (s : Standing) : Prop where
  matchesPlayed_lt : s.matchesPlayed < 2 ^ 32
  matchWins_lt : s.matchWins < 2 ^ 32
  games_lt : s.games < 2 ^ 32
  gameWins_lt : s.gameWins < 2 ^ 32
  food_lt : s.food < 2 ^ 64

namespace Standings

/-- Nobody has played more matches than there are, won more of them than played, or won more games
than played, and each game gives one score. -/
theorem OfMatches.le {result : CupResult} {name : String} {s : Standing}
    (h : OfMatches result name s) (hcounted : ∀ m ∈ Cup.allResults result.rounds, m.Counted) :
    s.matchesPlayed ≤ (Cup.allResults result.rounds).length ∧ s.matchWins ≤ s.matchesPlayed ∧
      s.gameWins ≤ s.games ∧ s.food ≤ s.games * (2 ^ 32 - 1) := by
  have hplayed (m) (hm : m ∈ played result name) : m.Counted :=
    hcounted m (List.mem_of_mem_filter hm)
  rw [h.matchesPlayed_eq, h.matchWins_eq, h.games_eq, h.gameWins_eq, h.food_eq,
    ← List.sum_map_mul_right]
  exact ⟨List.length_filter_le _ _, List.countP_le_length,
    List.sum_le_sum fun m hm => (hplayed m hm).pointsOf_le name,
    List.sum_le_sum fun m hm => (hplayed m hm).foodOf_le name⟩

/-- If fewer than `2 ^ 32` games can be played in a cup, no total of an entrant overflows. -/
theorem fitsWords_ofCup {ground : Ground} {config : CupConfig} {entrants : List Brain}
    {result : CupResult} (h : Cup.play ground entrants config = .ok result)
    (hgames : 2 * config.rounds * (entrants.length - 1) < 2 ^ 32) {name : String} {s : Standing}
    (hs : (ofCup result).get? name = some s) : s.FitsWords := by
  obtain ⟨-, hnodup, hknockout⟩ := Cup.knockout_of_play h
  have hbracket : result.bracket.Nodup := hknockout.bracket_perm.nodup_iff.mpr hnodup
  have hfair := hknockout.fairMatch
  have hname : name ∈ result.bracket := by
    obtain ⟨-, hperm, -⟩ := standing_ofCup hbracket hfair
    by_contra hmissing
    rw [get?_eq_none_iff.mpr fun hmem => hmissing (hperm.mem_iff.mp hmem)] at hs
    cases hs
  have hmatches : OfMatches result name s := by
    rw [get?_ofCup hbracket hfair hname] at hs
    exact Option.some.inj hs ▸ ofMatches_sum result name
  obtain ⟨hplayed, hwins, hgameWins, hfood⟩ := hmatches.le fun m hm => (hfair m hm).counted
  -- Of all the games that can be played in the cup, these are the games of some matches.
  have hsome : s.games ≤ s.matchesPlayed * (2 * config.rounds) := by
    have hmatch : ∀ n ∈ (played result name).map (·.games.length), n ≤ 2 * config.rounds := by
      intro n hn
      obtain ⟨m, hm, rfl⟩ := List.mem_map.mp hn
      obtain ⟨a, -, b, -, -, rfl⟩ := hknockout.exists_of_mem m (List.mem_of_mem_filter hm)
      exact length_games_playMatch_le ground a b config
    have hsum := List.sum_le_card_nsmul _ _ hmatch
    rwa [List.length_map, ← hmatches.games_eq, ← hmatches.matchesPlayed_eq] at hsum
  rw [hknockout.length_results] at hplayed
  have hgamesAll : s.games < 2 ^ 32 := by
    refine Nat.lt_of_le_of_lt (hsome.trans ?_) hgames
    rw [Nat.mul_comm]
    exact Nat.mul_le_mul_left _ hplayed
  have hmatchesAll : s.matchesPlayed < 2 ^ 32 := by
    refine Nat.lt_of_le_of_lt (hplayed.trans (Nat.le_mul_of_pos_left _ ?_)) hgames
    have hrounds : 1 ≤ config.rounds := Nat.le_max_left _ _
    omega
  exact ⟨hmatchesAll, by omega, hgamesAll, by omega, by omega⟩

end Standings

end AntContest
