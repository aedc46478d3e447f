import AntContest.Cup.Match

/-! # It does not matter which brain of a match is listed first

The brains of a match exchange their colours from game to game, so with the other brain listed
first the two games of every round change places, and what one brain gets the other one gets now.

* `Tally.exchange` is a tally seen from the other side.  A round goes along with it
  (`playRound_exchange`), hence all rounds do (`playRounds_exchange`), and the choice of the winner
  sees no difference (`winner_exchange`): points and food decide for the same brain from both sides,
  and of two names the same one comes first.
* `playMatch_exchange`: a match with the brains listed the other way round is the match, seen from
  the other side.  `listing_symmetry` says this for each part of the result. -/

namespace AntContest

/-! ### Neighbours that change places -/

/-- The list with the first two members exchanged, then the next two, and so on. -/
def exchangeNeighbours {α : Type} : List α → List α
  | a :: b :: rest => b :: a :: exchangeNeighbours rest
  | rest => rest

section ExchangeNeighbours

variable {α : Type}

@[simp] theorem length_exchangeNeighbours (l : List α) :
    (exchangeNeighbours l).length = l.length := by
  induction l using exchangeNeighbours.induct with
  | case1 a b rest ih => simp only [exchangeNeighbours, List.length_cons, ih]
  | case2 rest h =>
    rw [exchangeNeighbours]
    exact h

theorem eq_nil_of_even {l : List α} (heven : l.length % 2 = 0)
    (h : ∀ (a b : α) (rest : List α), l = a :: b :: rest → False) : l = [] := by
  match l, h with
  | [], _ => rfl
  | [a], _ => cases heven
  | a :: b :: rest, h => exact (h a b rest rfl).elim

theorem exchangeNeighbours_append {l : List α} (heven : l.length % 2 = 0) (l' : List α) :
    exchangeNeighbours (l ++ l') = exchangeNeighbours l ++ exchangeNeighbours l' := by
  induction l using exchangeNeighbours.induct with
  | case1 a b rest ih =>
    rw [List.length_cons, List.length_cons] at heven
    simp only [List.cons_append, exchangeNeighbours, ih (by omega)]
  | case2 rest h =>
    cases eq_nil_of_even heven h
    rfl

theorem exchangeNeighbours_reverse {l : List α} (heven : l.length % 2 = 0) :
    exchangeNeighbours l.reverse = (exchangeNeighbours l).reverse := by
  induction l using exchangeNeighbours.induct with
  | case1 a b rest ih =>
    rw [List.length_cons, List.length_cons] at heven
    have hrest : rest.reverse.length % 2 = 0 := by
      rw [List.length_reverse]
      omega
    simp only [exchangeNeighbours, List.reverse_cons, List.append_assoc, List.cons_append,
      List.nil_append, exchangeNeighbours_append hrest, ih (by omega)]
  | case2 rest h =>
    cases eq_nil_of_even heven h
    rfl

/-- The members at an even place and the next one have changed places. -/
theorem getElem?_exchangeNeighbours {l : List α} (heven : l.length % 2 = 0) (k : Nat) :
    (exchangeNeighbours l)[2 * k]? = l[2 * k + 1]? ∧
      (exchangeNeighbours l)[2 * k + 1]? = l[2 * k]? := by
  induction l using exchangeNeighbours.induct generalizing k with
  | case1 a b rest ih =>
    rw [List.length_cons, List.length_cons] at heven
    cases k with
    | zero => exact ⟨rfl, rfl⟩
    | succ k => exact ih (by omega) k
  | case2 rest h =>
    cases eq_nil_of_even heven h
    exact ⟨rfl, rfl⟩

end ExchangeNeighbours

/-! ### Rounds seen from the other side -/

/-- The tally with the brains exchanged, and the games of each round with them. -/
def Tally.exchange (t : Tally) : Tally where
  games := exchangeNeighbours t.games
  firstPoints := t.secondPoints
  secondPoints := t.firstPoints
  firstFood := t.secondFood
  secondFood := t.firstFood

section Rounds

variable (ground : Ground) (first second : Brain) (config : Config)

theorem playRound_exchange (t : Tally) :
    playRound ground second first config t.exchange =
      (playRound ground first second config t).exchange := by
  unfold playRound Tally.add Tally.exchange
  -- Each brain gets what it gets from the two games in the other order.
  simp only [exchangeNeighbours, Nat.add_right_comm]
  rfl

theorem even_games_playRound {t : Tally} (heven : t.games.length % 2 = 0) :
    (playRound ground first second config t).games.length % 2 = 0 := by
  simp only [playRound, Tally.add, List.length_cons]
  omega

theorem playRounds_exchange (left round : Nat) (t : Tally) :
    playRounds ground second first config left round t.exchange =
      (playRounds ground first second config left round t).exchange := by
  induction left generalizing round t with
  | zero => rfl
  | succ left ih =>
    have hpoints (t : Tally) :
        t.exchange.firstPoints ≠ t.exchange.secondPoints ↔ t.firstPoints ≠ t.secondPoints :=
      ne_comm
    simp only [playRounds, playRound_exchange, hpoints]
    split
    · rfl
    · exact ih _ _

theorem even_games_playRounds (left round : Nat) {t : Tally} (heven : t.games.length % 2 = 0) :
    (playRounds ground first second config left round t).games.length % 2 = 0 := by
  induction left generalizing round t with
  | zero => exact heven
  | succ left ih =>
    have hround := even_games_playRound ground first second (roundConfig config round) heven
    simp only [playRounds]
    split
    · exact hround
    · exact ih _ hround

end Rounds

/-! ### The winner -/

/-- From both sides the same is what decides, and the winner has the same name. -/
theorem winner_exchange (t : Tally) (first second : String) :
    (t.exchange.outcome second first).2 = (t.outcome first second).2 ∧
      (if (t.exchange.outcome second first).1 then second else first) =
        if (t.outcome first second).1 then first else second := by
  unfold Tally.outcome Tally.exchange
  dsimp only
  -- Only when points and food are equal the names are compared; then equal names are one winner.
  rcases Nat.lt_trichotomy t.firstPoints t.secondPoints with hpoints | hpoints | hpoints
  · simp [hpoints, Nat.ne_of_lt hpoints, Nat.ne_of_gt hpoints, Nat.lt_asymm hpoints]
  · rcases Nat.lt_trichotomy t.firstFood t.secondFood with hfood | hfood | hfood
    · simp [hpoints, hfood, Nat.ne_of_lt hfood, Nat.ne_of_gt hfood, Nat.lt_asymm hfood]
    · by_cases hlt : first < second
      · simp [hpoints, hfood, hlt, String.lt_asymm hlt]
      · by_cases hgt : second < first
        · simp [hpoints, hfood, hgt, hlt]
        · have hsame : first = second :=
            String.le_antisymm (String.not_lt.mp hgt) (String.not_lt.mp hlt)
          simp [hpoints, hfood, hsame]
    · simp [hpoints, hfood, Nat.ne_of_lt hfood, Nat.ne_of_gt hfood, Nat.lt_asymm hfood]
  · simp [hpoints, Nat.ne_of_lt hpoints, Nat.ne_of_gt hpoints, Nat.lt_asymm hpoints]

/-! ### Whole matches -/

def MatchResult.exchange (r : MatchResult) : MatchResult :=
  { r with
    first := r.second
    second := r.first
    games := exchangeNeighbours r.games
    firstPoints := r.secondPoints
    secondPoints := r.firstPoints
    firstFood := r.secondFood
    secondFood := r.firstFood }

theorem playMatch_exchange (ground : Ground) (a b : Brain) (config : CupConfig) :
    playMatch ground b a config = (playMatch ground a b config).exchange := by
  have hrounds : playRounds ground b a config.game config.rounds 0 {} =
      (playRounds ground a b config.game config.rounds 0 {}).exchange :=
    playRounds_exchange ground a b config.game config.rounds 0 {}
  have heven := even_games_playRounds ground a b config.game config.rounds 0 (t := {}) rfl
  unfold playMatch MatchResult.exchange
  rw [hrounds]
  generalize playRounds ground a b config.game config.rounds 0 {} = t at heven
  have hgames : t.exchange.games.reverse = exchangeNeighbours t.games.reverse :=
    (exchangeNeighbours_reverse heven).symm
  obtain ⟨hdecided, hwinner⟩ := winner_exchange t a.name b.name
  dsimp only
  rw [hgames, hdecided, hwinner]
  rfl

theorem even_games_playMatch (ground : Ground) (a b : Brain) (config : CupConfig) :
    (playMatch ground a b config).games.length % 2 = 0 := by
  have heven := even_games_playRounds ground a b config.game config.rounds 0 (t := {}) rfl
  unfold playMatch
  dsimp only
  rw [List.length_reverse]
  exact heven

/-- Listed the other way round, two brains play the same match: the same one wins for the same
reason, the two games of each round change places, and points and food go with the brains. -/
theorem listing_symmetry (ground : Ground) (a b : Brain) (config : CupConfig) :
    let given := playMatch ground a b config
    let turned := playMatch ground b a config
    turned.winner = given.winner ∧ turned.decidedBy = given.decidedBy ∧
      turned.games.length = given.games.length ∧
      (∀ round, turned.games[2 * round]? = given.games[2 * round + 1]? ∧
        turned.games[2 * round + 1]? = given.games[2 * round]?) ∧
      turned.firstPoints = given.secondPoints ∧ turned.secondPoints = given.firstPoints ∧
      turned.firstFood = given.secondFood ∧ turned.secondFood = given.firstFood := by
  dsimp only
  rw [playMatch_exchange ground a b config]
  exact ⟨rfl, rfl, length_exchangeNeighbours _,
    getElem?_exchangeNeighbours (even_games_playMatch ground a b config), rfl, rfl, rfl, rfl⟩

end AntContest
