import AntContest.Cup.Knockout
import Mathlib.Data.List.Forall2
import Mathlib.Data.Nat.Log

/-! # The rounds of a cup

`IsRound` says what a round is: its pool is cut into pairs of neighbours and a last entrant if
their number is odd, and the winners go on in the order of their matches, in front of that last
one.  `Rounds` puts rounds together, from a pool to the champion, and the rounds that are played are
such (`exists_rounds_playAll`).

What becomes of the entrants is then shown by going through a round and through `Rounds`.  Every
entrant of a round loses a match of it or goes on (`IsRound.losses_add_count`).  A cup adds this up
(`Rounds.losses_add_count`): of entrants with different names, everyone but the champion loses one
match.

* `Rounds.length_rounds`, `Rounds.length_allResults`: how many rounds and matches there are.
* `Rounds.exists_of_mem`: every match is one between two different entrants.
* `Rounds.pairwise`: who has lost a match plays none after it. -/

namespace AntContest

namespace MatchResult

/-- Whether a name takes part in a match. -/
def plays (r : MatchResult) (name : String) : Bool := r.first == name || r.second == name

/-- Whether a name takes part in a match that another one wins. -/
def lostBy (r : MatchResult) (name : String) : Bool := r.plays name && r.winner != name

theorem plays_of_lostBy {r : MatchResult} {name : String} (h : r.lostBy name = true) :
    r.plays name = true :=
  (Bool.and_eq_true_iff.mp h).1

end MatchResult

namespace Cup

/-! ### Pairs of neighbours -/

section Pairs

variable {α : Type}

/-- The members of pairs, one pair after the other. -/
def members (pairs : List (α × α)) : List α := pairs.flatMap fun p => [p.1, p.2]

@[simp] theorem members_cons (p : α × α) (pairs : List (α × α)) :
    members (p :: pairs) = p.1 :: p.2 :: members pairs := rfl

theorem mem_members {p : α × α} {pairs : List (α × α)} (h : p ∈ pairs) :
    p.1 ∈ members pairs ∧ p.2 ∈ members pairs :=
  ⟨List.mem_flatMap.mpr ⟨p, h, by simp⟩, List.mem_flatMap.mpr ⟨p, h, by simp⟩⟩

/-- Nobody is lost when neighbours are paired, and they stay in order. -/
theorem members_pairUp (pool : List α) :
    members (pairUp pool).1 ++ (pairUp pool).2.toList = pool := by
  induction pool using pairUp.induct with
  | case1 => rfl
  | case2 a => rfl
  | case3 a b rest pairs bye h ih =>
    rw [h] at ih
    simp only [pairUp, h, members_cons, List.cons_append, ih]

theorem length_pairs_pairUp (pool : List α) : (pairUp pool).1.length = pool.length / 2 := by
  have hlength := length_pairUp pool
  rw [Option.length_toList] at hlength
  split at hlength <;> omega

theorem isSome_bye_pairUp (pool : List α) :
    (pairUp pool).2.isSome = true ↔ pool.length % 2 = 1 := by
  have hlength := length_pairUp pool
  rw [Option.length_toList] at hlength
  split at hlength
  · next hbye => exact ⟨fun _ => by omega, fun _ => hbye⟩
  · next hbye => exact ⟨fun hsome => (hbye hsome).elim, fun hodd => by omega⟩

end Pairs

/-! ### One round -/

section Round

variable (ground : Ground) (config : CupConfig)

/-- The matches of pairs, in their order. -/
def matchesOf (pairs : List (Brain × Brain)) : List MatchResult :=
  pairs.map fun p => playMatch ground p.1 p.2 config

/-- One of a pair wins its match. -/
def Wins (p : Brain × Brain) (winner : Brain) : Prop :=
  (winner = p.1 ∨ winner = p.2) ∧ winner.name = (playMatch ground p.1 p.2 config).winner

/-- A round among the entrants of a pool, with its pairs, the entrant without a match and the
winners. -/
structure IsRound (pool : List Brain) (pairs : List (Brain × Brain)) (bye : Option Brain)
    (winners : List Brain) (round : CupRound) : Prop where
  /-- The pairs are neighbours of the pool, and without a match remains its last entrant. -/
  pool_eq : pool = members pairs ++ bye.toList
  length_pairs : pairs.length = pool.length / 2
  isSome_bye : bye.isSome = true ↔ pool.length % 2 = 1
  results_eq : round.results = matchesOf ground config pairs
  bye_eq : round.bye? = bye.map (·.name)
  wins : List.Forall₂ (Wins ground config) pairs winners

theorem winner_playMatch (a b : Brain) :
    (playMatch ground a b config).winner = a.name ∨
      (playMatch ground a b config).winner = b.name := by
  unfold playMatch
  dsimp only
  split
  · exact .inl rfl
  · exact .inr rfl

/-- The brain that is looked up by the winner's name has won. -/
theorem wins_winnerOf (p : Brain × Brain) :
    Wins ground config p (winnerOf p (playMatch ground p.1 p.2 config)) := by
  unfold winnerOf
  split
  · next hfirst => exact ⟨.inl rfl, hfirst⟩
  · next hother =>
    refine ⟨.inr rfl, ?_⟩
    rcases winner_playMatch ground config p.1 p.2 with hwinner | hwinner
    · exact (hother hwinner.symm).elim
    · exact hwinner.symm

/-- What is played among the entrants of a pool is a round; the winners go on, and behind them the
entrant without a match. -/
theorem isRound_playPool (pool : List Brain) :
    ∃ pairs bye winners,
      IsRound ground config pool pairs bye winners (playPool ground config pool).1 ∧
        (playPool ground config pool).2 = winners ++ bye.toList := by
  refine ⟨(pairUp pool).1, (pairUp pool).2,
    List.zipWith winnerOf (pairUp pool).1 (matchesOf ground config (pairUp pool).1),
    ⟨(members_pairUp pool).symm, length_pairs_pairUp pool, isSome_bye_pairUp pool, rfl, rfl, ?_⟩,
    rfl⟩
  rw [matchesOf, List.zipWith_map_right, List.zipWith_self, List.forall₂_map_right_iff,
    List.forall₂_same]
  exact fun p _ => wins_winnerOf ground config p

variable {ground config}

/-! ### Who is left after a round -/

section Matches

variable {pairs : List (Brain × Brain)} {winners : List Brain}

/-- The winners are in the order of the pool. -/
theorem sublist_members (h : List.Forall₂ (Wins ground config) pairs winners) :
    winners.Sublist (members pairs) := by
  induction h with
  | nil => exact .slnil
  | cons hwins _ ih =>
    rw [members_cons]
    rcases hwins.1 with rfl | rfl
    · exact .cons_cons _ (.cons _ ih)
    · exact .cons _ (.cons_cons _ ih)

theorem plays_playMatch (p : Brain × Brain) (name : String) :
    (playMatch ground p.1 p.2 config).plays name = true ↔ p.1.name = name ∨ p.2.name = name := by
  show (p.1.name == name || p.2.name == name) = true ↔ _
  rw [Bool.or_eq_true, beq_iff_eq, beq_iff_eq]

theorem mem_of_plays {r : MatchResult} {name : String} (hr : r ∈ matchesOf ground config pairs)
    (hplays : r.plays name = true) : name ∈ (members pairs).map (·.name) := by
  obtain ⟨p, hp, rfl⟩ := List.mem_map.mp hr
  obtain ⟨hfirst, hsecond⟩ := mem_members hp
  rcases (plays_playMatch p name).mp hplays with rfl | rfl
  · exact List.mem_map_of_mem hfirst
  · exact List.mem_map_of_mem hsecond

theorem ne_of_nodup (hnodup : ((members pairs).map (·.name)).Nodup) {p : Brain × Brain}
    (hp : p ∈ pairs) : p.1.name ≠ p.2.name := by
  induction pairs with
  | nil => cases hp
  | cons q pairs ih =>
    rw [members_cons, List.map_cons, List.map_cons, List.nodup_cons, List.nodup_cons] at hnodup
    rcases List.mem_cons.mp hp with rfl | hp
    · exact fun heq => hnodup.1 (heq ▸ List.mem_cons_self)
    · exact ih hnodup.2.2 hp

theorem pairwise_matchesOf (hnodup : ((members pairs).map (·.name)).Nodup) :
    (matchesOf ground config pairs).Pairwise fun r r' =>
      ∀ name, r.plays name = true → r'.plays name = false := by
  induction pairs with
  | nil => exact .nil
  | cons p pairs ih =>
    rw [members_cons, List.map_cons, List.map_cons, List.nodup_cons, List.nodup_cons] at hnodup
    refine .cons (fun r hr name hplays => ?_) (ih hnodup.2.2)
    rw [Bool.eq_false_iff]
    intro hagain
    have hmember := mem_of_plays hr hagain
    rcases (plays_playMatch p name).mp hplays with rfl | rfl
    · exact hnodup.1 (List.mem_cons_of_mem _ hmember)
    · exact hnodup.2.1 hmember

theorem lost_add_won {p : Brain × Brain} {winner : Brain} (hwins : Wins ground config p winner)
    (hne : p.1.name ≠ p.2.name) (name : String) :
    (if (playMatch ground p.1 p.2 config).lostBy name then 1 else 0) +
        (if winner.name == name then 1 else 0) =
      (if p.1.name == name then 1 else 0) + (if p.2.name == name then 1 else 0) := by
  have hlost : (playMatch ground p.1 p.2 config).lostBy name =
      ((p.1.name == name || p.2.name == name) && winner.name != name) := by
    rw [hwins.2]
    rfl
  rw [hlost]
  -- A name is that of one of the two at most, and only the one without the winner's loses.
  rcases hwins.1 with rfl | rfl
  · by_cases hfirst : p.1.name = name
    · have hsecond : p.2.name ≠ name := fun h => hne (hfirst.trans h.symm)
      simp [hfirst, hsecond]
    · by_cases hsecond : p.2.name = name <;> simp [hfirst, hsecond]
  · by_cases hsecond : p.2.name = name
    · have hfirst : p.1.name ≠ name := fun h => hne (h.trans hsecond.symm)
      simp [hfirst, hsecond]
    · by_cases hfirst : p.1.name = name <;> simp [hfirst, hsecond]

/-- Whoever plays in a round loses a match of it or goes on. -/
theorem losses_add_count_winners (h : List.Forall₂ (Wins ground config) pairs winners)
    (hne : ∀ p ∈ pairs, p.1.name ≠ p.2.name) (name : String) :
    (matchesOf ground config pairs).countP (·.lostBy name) + (winners.map (·.name)).count name =
      ((members pairs).map (·.name)).count name := by
  induction h with
  | nil => rfl
  | @cons p winner pairs winners hwins _ ih =>
    have hpair := lost_add_won hwins (hne p List.mem_cons_self) name
    have hrest := ih fun q hq => hne q (List.mem_cons_of_mem p hq)
    rw [matchesOf, List.map_cons, List.countP_cons, members_cons, List.map_cons, List.count_cons,
      List.map_cons, List.count_cons, List.map_cons, List.count_cons]
    rw [matchesOf] at hrest
    omega

end Matches

namespace IsRound

variable {pool : List Brain} {pairs : List (Brain × Brain)} {bye : Option Brain}
  {winners : List Brain} {round : CupRound}

theorem sublist (h : IsRound ground config pool pairs bye winners round) :
    (winners ++ bye.toList).Sublist pool := by
  rw [h.pool_eq]
  exact (sublist_members h.wins).append (.refl _)

theorem length_winners (h : IsRound ground config pool pairs bye winners round) :
    winners.length = pairs.length :=
  h.wins.length_eq.symm

theorem length_bye (h : IsRound ground config pool pairs bye winners round) :
    bye.toList.length = pool.length % 2 := by
  rw [Option.length_toList]
  split
  · next hbye => exact (h.isSome_bye.mp hbye).symm
  · next hbye =>
    have heven : pool.length % 2 ≠ 1 := fun hodd => hbye (h.isSome_bye.mpr hodd)
    omega

theorem length_next (h : IsRound ground config pool pairs bye winners round) :
    (winners ++ bye.toList).length = (pool.length + 1) / 2 := by
  rw [List.length_append, h.length_winners, h.length_pairs, h.length_bye]
  omega

theorem length_results (h : IsRound ground config pool pairs bye winners round) :
    round.results.length = pool.length / 2 := by
  rw [h.results_eq, matchesOf, List.length_map, h.length_pairs]

theorem nodup_members (h : IsRound ground config pool pairs bye winners round)
    (hnodup : (pool.map (·.name)).Nodup) : ((members pairs).map (·.name)).Nodup := by
  rw [h.pool_eq, List.map_append] at hnodup
  exact hnodup.sublist (List.sublist_append_left _ _)

theorem losses_add_count (h : IsRound ground config pool pairs bye winners round)
    (hnodup : (pool.map (·.name)).Nodup) (name : String) :
    round.results.countP (·.lostBy name) + ((winners ++ bye.toList).map (·.name)).count name =
      (pool.map (·.name)).count name := by
  have hpairs := losses_add_count_winners h.wins
    (fun p hp => ne_of_nodup (h.nodup_members hnodup) hp) name
  rw [h.results_eq, List.map_append, List.count_append]
  conv_rhs => rw [h.pool_eq, List.map_append, List.count_append]
  omega

theorem exists_of_mem (h : IsRound ground config pool pairs bye winners round)
    (hnodup : (pool.map (·.name)).Nodup) {r : MatchResult} (hr : r ∈ round.results) :
    ∃ a ∈ pool, ∃ b ∈ pool, a.name ≠ b.name ∧ r = playMatch ground a b config := by
  rw [h.results_eq] at hr
  obtain ⟨p, hp, rfl⟩ := List.mem_map.mp hr
  obtain ⟨hfirst, hsecond⟩ := mem_members hp
  have hpool : members pairs ⊆ pool := h.pool_eq ▸ List.subset_append_left _ _
  exact ⟨p.1, hpool hfirst, p.2, hpool hsecond, ne_of_nodup (h.nodup_members hnodup) hp, rfl⟩

end IsRound

end Round

/-! ### All rounds -/

/-- Rounds from a pool to the champion. -/
inductive Rounds (ground : Ground) (config : CupConfig) :
    List Brain → List CupRound → Brain → Prop
  | champion (b : Brain) : Rounds ground config [b] [] b
  | round {pool : List Brain} {pairs : List (Brain × Brain)} {bye : Option Brain}
      {winners : List Brain} {round : CupRound} {rounds : List CupRound} {champion : Brain} :
      2 ≤ pool.length → IsRound ground config pool pairs bye winners round →
      Rounds ground config (winners ++ bye.toList) rounds champion →
      Rounds ground config pool (round :: rounds) champion

def allResults (rounds : List CupRound) : List MatchResult := rounds.flatMap (·.results)

theorem playAll_of_two_le (ground : Ground) (config : CupConfig) {pool : List Brain}
    (h : 2 ≤ pool.length) :
    playAll ground config pool =
      ((playPool ground config pool).1 ::
          (playAll ground config (playPool ground config pool).2).1,
        (playAll ground config (playPool ground config pool).2).2) := by
  rw [playAll, if_neg (by omega)]

/-- What is played from a pool on are rounds, and they end with a champion. -/
theorem exists_rounds_playAll (ground : Ground) (config : CupConfig) {pool : List Brain}
    (hpool : 0 < pool.length) :
    ∃ champion, Rounds ground config pool (playAll ground config pool).1 champion ∧
      (playAll ground config pool).2 = [champion] := by
  -- On the size of the pool: with two entrants or more, a round leaves half of them.
  induction hlength : pool.length using Nat.strong_induction_on generalizing pool with
  | _ length ih =>
    rcases Nat.lt_or_ge 1 pool.length with hmany | hone
    · obtain ⟨pairs, bye, winners, hround, hnext⟩ := isRound_playPool ground config pool
      have hhalf := hround.length_next
      obtain ⟨champion, hrounds, hlast⟩ :=
        ih (winners ++ bye.toList).length (by omega) (by omega) rfl
      rw [playAll_of_two_le ground config hmany, hnext]
      exact ⟨champion, .round hmany hround hrounds, hlast⟩
    · obtain ⟨champion, rfl⟩ := List.length_eq_one_iff.mp (Nat.le_antisymm hone hpool)
      rw [playAll, if_pos hone]
      exact ⟨champion, .champion champion, rfl⟩

namespace Rounds

variable {ground : Ground} {config : CupConfig} {pool : List Brain} {rounds : List CupRound}
  {champion : Brain}

theorem length_rounds (h : Rounds ground config pool rounds champion) :
    rounds.length = Nat.clog 2 pool.length := by
  induction h with
  | champion b => rfl
  | round hmany hround _ ih =>
    rw [List.length_cons, ih, hround.length_next, Nat.clog_of_two_le (by decide) hmany]
    rfl

/-- Every match but the last one leaves one entrant less. -/
theorem length_allResults (h : Rounds ground config pool rounds champion) :
    (allResults rounds).length + 1 = pool.length := by
  induction h with
  | champion b => rfl
  | round hmany hround _ ih =>
    rw [hround.length_next] at ih
    rw [allResults, List.flatMap_cons, List.length_append, hround.length_results]
    rw [allResults] at ih
    omega

theorem champion_mem (h : Rounds ground config pool rounds champion) : champion ∈ pool := by
  induction h with
  | champion b => exact List.mem_singleton_self b
  | round _ hround _ ih => exact hround.sublist.subset ih

theorem exists_of_mem (h : Rounds ground config pool rounds champion)
    (hnodup : (pool.map (·.name)).Nodup) {r : MatchResult} (hr : r ∈ allResults rounds) :
    ∃ a ∈ pool, ∃ b ∈ pool, a.name ≠ b.name ∧ r = playMatch ground a b config := by
  induction h with
  | champion b => cases hr
  | round _ hround _ ih =>
    rw [allResults, List.flatMap_cons, List.mem_append] at hr
    rcases hr with hr | hr
    · exact hround.exists_of_mem hnodup hr
    · obtain ⟨a, ha, b, hb, hne, rfl⟩ := ih (hnodup.sublist (hround.sublist.map _)) hr
      exact ⟨a, hround.sublist.subset ha, b, hround.sublist.subset hb, hne, rfl⟩

theorem mem_of_plays (h : Rounds ground config pool rounds champion)
    (hnodup : (pool.map (·.name)).Nodup) {r : MatchResult} (hr : r ∈ allResults rounds)
    {name : String} (hplays : r.plays name = true) : name ∈ pool.map (·.name) := by
  obtain ⟨a, ha, b, hb, -, rfl⟩ := h.exists_of_mem hnodup hr
  rcases (plays_playMatch (a, b) name).mp hplays with rfl | rfl
  · exact List.mem_map_of_mem ha
  · exact List.mem_map_of_mem hb

theorem losses_add_count (h : Rounds ground config pool rounds champion)
    (hnodup : (pool.map (·.name)).Nodup) (name : String) :
    (allResults rounds).countP (·.lostBy name) + [champion.name].count name =
      (pool.map (·.name)).count name := by
  induction h with
  | champion b => exact Nat.zero_add _
  | round _ hround _ ih =>
    have hrest := ih (hnodup.sublist (hround.sublist.map _))
    have hfirst := hround.losses_add_count hnodup name
    rw [allResults, List.flatMap_cons, List.countP_append]
    rw [allResults] at hrest
    omega

/-- Who has lost a match plays none after it. -/
theorem pairwise (h : Rounds ground config pool rounds champion)
    (hnodup : (pool.map (·.name)).Nodup) :
    (allResults rounds).Pairwise fun r r' =>
      ∀ name, r.lostBy name = true → r'.plays name = false := by
  induction h with
  | champion b => exact .nil
  | @round pool pairs bye winners round rounds champion _ hround hrounds ih =>
    have hnodup' := hnodup.sublist (hround.sublist.map (·.name))
    rw [allResults, List.flatMap_cons, List.pairwise_append]
    refine ⟨?_, ih hnodup', fun r hr r' hr' name hlost => ?_⟩
    · -- Within a round nobody plays twice at all.
      rw [hround.results_eq]
      exact (pairwise_matchesOf (hround.nodup_members hnodup)).imp fun hapart name hlost =>
        hapart name (MatchResult.plays_of_lostBy hlost)
    · -- The loser's name is in the pool once, so nobody of this name goes on.
      have hcount := hround.losses_add_count hnodup name
      have honce := List.nodup_iff_count.mp hnodup name
      have hloss : 0 < round.results.countP (·.lostBy name) :=
        List.countP_pos_iff.mpr ⟨r, hr, hlost⟩
      have hgone : name ∉ (winners ++ bye.toList).map (·.name) :=
        List.count_eq_zero.mp (by omega)
      rw [Bool.eq_false_iff]
      exact fun hplays => hgone (hrounds.mem_of_plays hnodup' hr' hplays)

end Rounds

end Cup

end AntContest
