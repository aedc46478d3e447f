import AntContest.Proofs.Cup.Knockout
import AntContest.Proofs.Cup.MatchRecord
import AntContest.Proofs.Ground.Census
import AntContest.Proofs.Report.Standing

/-! # The standings of a cup agree with its matches

The standings of a cup count its games again, by colonies and names.  Each match adds its share to
the standing of every name (`adds_addMatch`), while the listed names stay those of the bracket
(`enter_bracket`).  The share of a name is what the result of the match counts for that side
(`MatchResult.Counted.matchShare_eq`): the names of the two sides are different, so the name of a
winner tells its colony.  Hence the standing of an entrant is the sum of its parts in the matches
that it played (`standing_ofCup`, `sum_share`).

With the structure of a knockout, `standings_of_cup` says what follows for the totals: whoever plays
a match wins it or loses it (`length_played`), and everyone but the champion loses once. -/

namespace AntContest

namespace Standings

/-! ### The shares of a match -/

/-- What a game adds to the standing of the brain that played a colony. -/
def colonyShare (g : GameResult) (c : Colony) : Standing where
  games := 1
  gameWins := (g.winnerName? == some (g.name c)).toNat
  food := (g.score c).toNat

/-- What a game adds to the standing of a name. -/
def gameShare (g : GameResult) (name : String) : Standing :=
  (Colony.both.map fun c => only (g.name c) (colonyShare g c) name).sum

/-- What a match adds to the standing of a side, apart from its games. -/
def sideShare (r : MatchResult) (side : String) : Standing where
  matchesPlayed := 1
  matchWins := (side == r.winner).toNat

/-- What a match adds to the standing of a name, as the standings count it. -/
def matchShare (r : MatchResult) (name : String) : Standing :=
  ([r.first, r.second].map fun side => only side (sideShare r side) name).sum +
    (r.games.map (gameShare · name)).sum

theorem adds_addMatch {listed : List String} (hlisted : listed.Pairwise (· < ·)) {r : MatchResult}
    (hsides : ∀ side ∈ [r.first, r.second], side ∈ listed)
    (hgames : ∀ game ∈ r.games, ∀ c, game.name c ∈ listed) :
    Adds listed (addMatch · r) (matchShare r) := by
  have hmatch : ∀ side ∈ [r.first, r.second],
      Adds listed (countMatch r · side) (only side (sideShare r side)) :=
    fun side hside => adds_update hlisted (hsides side hside) fun _ => rfl
  have hgame : ∀ game ∈ r.games, ∀ c ∈ Colony.both,
      Adds listed (countGame game · c) (only (game.name c) (colonyShare game c)) :=
    fun game hgame c _ => adds_update hlisted (hgames game hgame c) fun _ => rfl
  exact (adds_foldl hmatch).comp (adds_foldl fun game hmem => adds_foldl (hgame game hmem))

/-! ### The two counts of a match -/

/-- What a brain gets out of some games, in whichever colony it played. -/
def gamesShare (games : SidedGames) : Standing where
  games := games.length
  gameWins := games.won
  food := games.food

theorem gamesShare_cons (p : GameResult × Colony) (games : SidedGames) :
    gamesShare (p :: games) = gamesShare [p] + gamesShare games := by
  have happend := SidedGames.won_append [p] games
  have hfood := SidedGames.food_append [p] games
  exact Standing.ext rfl rfl (Nat.add_comm _ _) happend hfood

/-- If the names of a game are different, the winner's name tells the winning colony. -/
theorem colonyShare_eq {g : GameResult} {c : Colony} (hne : g.name c ≠ g.name c.foe) :
    colonyShare g c = gamesShare [(g, c)] := by
  have hwins : g.winnerName? = some (g.name c) ↔ g.winner? = some c := by
    unfold GameResult.winnerName?
    rw [Option.map_eq_some_iff]
    constructor
    · rintro ⟨d, hd, hname⟩
      rcases Decidable.em (d = c) with rfl | hdc
      · exact hd
      · rw [Colony.eq_foe_of_ne hdc] at hname
        exact (hne hname.symm).elim
    · exact fun h => ⟨c, h, rfl⟩
  have hbool : (g.winnerName? == some (g.name c)) = decide (g.winner? = some c) := by
    rw [← Bool.coe_iff_coe, decide_eq_true_iff, beq_iff_eq, hwins]
  refine Standing.ext rfl rfl rfl ?_ rfl
  unfold colonyShare gamesShare SidedGames.won
  dsimp only
  rw [hbool, List.countP_singleton]
  cases decide (g.winner? = some c) <;> rfl

section Sides

variable {own other : String}

/-- A game between two names counts for each of them from its side. -/
theorem gameShare_eq (hne : own ≠ other) {p : GameResult × Colony}
    (hown : p.1.name p.2 = own) (hother : p.1.name p.2.foe = other) (name : String) :
    gameShare p.1 name =
      only own (gamesShare [p]) name + only other (gamesShare [(p.1, p.2.foe)]) name := by
  obtain ⟨g, c⟩ := p
  dsimp only at hown hother ⊢
  subst hown hother
  have hfoe : g.name c.foe ≠ g.name c.foe.foe := by
    rw [Colony.foe_foe]
    exact Ne.symm hne
  rw [← colonyShare_eq hne, ← colonyShare_eq hfoe]
  unfold gameShare
  -- Red is counted first, whichever colony is one's own.
  cases c with
  | red =>
    simp only [Colony.both, List.map_cons, List.map_nil, List.sum_cons, List.sum_nil, add_zero]
    rfl
  | black =>
    simp only [Colony.both, List.map_cons, List.map_nil, List.sum_cons, List.sum_nil, add_zero]
    exact add_comm _ _

theorem sum_gameShare (hne : own ≠ other) {games : SidedGames}
    (hnames : ∀ p ∈ games, p.1.name p.2 = own ∧ p.1.name p.2.foe = other) (name : String) :
    (games.map fun p => gameShare p.1 name).sum =
      only own (gamesShare games) name + only other (gamesShare games.turned) name := by
  induction games with
  | nil =>
    show (0 : Standing) = only own 0 name + only other 0 name
    simp [only]
  | cons p games ih =>
    obtain ⟨hown, hother⟩ := hnames p List.mem_cons_self
    have hrest := ih fun q hq => hnames q (List.mem_cons_of_mem p hq)
    have hturned : SidedGames.turned (p :: games) = (p.1, p.2.foe) :: SidedGames.turned games := rfl
    rw [List.map_cons, List.sum_cons, hrest, gameShare_eq hne hown hother, hturned,
      gamesShare_cons p games, gamesShare_cons (p.1, p.2.foe) (SidedGames.turned games), only_add,
      only_add, add_add_add_comm]

end Sides

end Standings

namespace MatchResult

def pointsOf (r : MatchResult) (name : String) : Nat :=
  if r.first = name then r.firstPoints else r.secondPoints

def foodOf (r : MatchResult) (name : String) : Nat :=
  if r.first = name then r.firstFood else r.secondFood

/-- What one of the two brains of a match gets out of it, by the result of the match. -/
def partOf (r : MatchResult) (name : String) : Standing where
  matchesPlayed := 1
  matchWins := (name == r.winner).toNat
  games := r.games.length
  gameWins := r.pointsOf name
  food := r.foodOf name

theorem pointsOf_first (r : MatchResult) : r.pointsOf r.first = r.firstPoints := if_pos rfl

theorem foodOf_first (r : MatchResult) : r.foodOf r.first = r.firstFood := if_pos rfl

theorem pointsOf_second {r : MatchResult} (hne : r.first ≠ r.second) :
    r.pointsOf r.second = r.secondPoints := if_neg hne

theorem foodOf_second {r : MatchResult} (hne : r.first ≠ r.second) :
    r.foodOf r.second = r.secondFood := if_neg hne

/-- What a name gets out of a match, by the result of the match. -/
def share (r : MatchResult) (name : String) : Standing := if r.plays name then r.partOf name else 0

theorem share_eq {r : MatchResult} (hne : r.first ≠ r.second) (name : String) :
    r.share name =
      Standings.only r.first (r.partOf r.first) name +
        Standings.only r.second (r.partOf r.second) name := by
  by_cases hfirst : name = r.first
  · subst hfirst
    have hplays : r.plays r.first = true := by simp [plays]
    rw [share, if_pos hplays, Standings.only_self, Standings.only_of_ne hne, add_zero]
  · rw [Standings.only_of_ne hfirst, zero_add]
    by_cases hsecond : name = r.second
    · subst hsecond
      have hplays : r.plays r.second = true := by simp [plays]
      rw [share, if_pos hplays, Standings.only_self]
    · have hplays : ¬ r.plays name = true := by simp [plays, Ne.symm hfirst, Ne.symm hsecond]
      rw [share, if_neg hplays, Standings.only_of_ne hsecond]

/-- The standings count for the two sides what the result of the match counts. -/
theorem Counted.matchShare_eq {r : MatchResult} (h : r.Counted) (hne : r.first ≠ r.second)
    (name : String) : Standings.matchShare r name = r.share name := by
  have hgames := Standings.sum_gameShare hne h.names name
  have hmap : (r.firstGames.map fun p => Standings.gameShare p.1 name) =
      r.games.map (Standings.gameShare · name) := by
    conv_rhs => rw [← r.map_fst_firstGames, List.map_map]
    rfl
  rw [hmap] at hgames
  have hfirst : r.partOf r.first =
      Standings.sideShare r r.first + Standings.gamesShare r.firstGames := by
    refine Standing.ext rfl rfl ?_ ?_ ?_
    · exact r.length_firstGames.symm.trans (Nat.zero_add _).symm
    · exact r.pointsOf_first.trans (h.firstPoints_eq.trans (Nat.zero_add _).symm)
    · exact r.foodOf_first.trans (h.firstFood_eq.trans (Nat.zero_add _).symm)
  have hsecond : r.partOf r.second =
      Standings.sideShare r r.second + Standings.gamesShare r.firstGames.turned := by
    refine Standing.ext rfl rfl ?_ ?_ ?_
    · exact ((SidedGames.length_turned _).trans r.length_firstGames).symm.trans
        (Nat.zero_add _).symm
    · exact (pointsOf_second hne).trans (h.secondPoints_eq.trans (Nat.zero_add _).symm)
    · exact (foodOf_second hne).trans (h.secondFood_eq.trans (Nat.zero_add _).symm)
  unfold Standings.matchShare
  rw [hgames, share_eq hne, hfirst, hsecond, Standings.only_add, Standings.only_add,
    add_add_add_comm, List.map_cons, List.map_cons, List.map_nil, List.sum_cons, List.sum_cons,
    List.sum_nil, add_zero]

end MatchResult

/-! ### Whole cups -/

namespace Standings

theorem enter_bracket {bracket : List String} {s : Standings} (hs : s.names.Pairwise (· < ·))
    (hnew : (bracket ++ s.names).Nodup) (hblank : ∀ name, s.standing name = 0) :
    let listed := bracket.foldl (fun s name => s.update name id) s
    listed.names.Pairwise (· < ·) ∧ listed.names.Perm (bracket ++ s.names) ∧
      ∀ name, listed.standing name = 0 := by
  induction bracket generalizing s with
  | nil => exact ⟨hs, .refl _, hblank⟩
  | cons name bracket ih =>
    obtain ⟨hname, -⟩ := List.nodup_cons.mp hnew
    have hperm : (s.update name id).names.Perm (name :: s.names) :=
      perm_names_update fun hmem => hname (List.mem_append_right _ hmem)
    have hmiddle : (bracket ++ (s.update name id).names).Perm (name :: (bracket ++ s.names)) :=
      (hperm.append_left bracket).trans List.perm_middle
    have hblank' : ∀ other, (s.update name id).standing other = 0 := by
      intro other
      rw [standing_update hs]
      split
      · exact hblank name
      · exact hblank other
    obtain ⟨hordered, hnames, hall⟩ :=
      ih (pairwise_names_update hs) (hmiddle.nodup_iff.mpr hnew) hblank'
    exact ⟨hordered, hnames.trans hmiddle, hall⟩

/-- The matches of a cup that a name played. -/
def played (r : CupResult) (name : String) : List MatchResult :=
  (Cup.allResults r.rounds).filter (·.plays name)

/-- What the standings rely on in a match of a cup. -/
structure FairMatch (bracket : List String) (r : MatchResult) : Prop where
  counted : r.Counted
  first_mem : r.first ∈ bracket
  second_mem : r.second ∈ bracket
  ne : r.first ≠ r.second
  winner_eq : r.winner = r.first ∨ r.winner = r.second

theorem FairMatch.name_mem {bracket : List String} {r : MatchResult} (h : FairMatch bracket r)
    {game : GameResult} (hgame : game ∈ r.games) (c : Colony) : game.name c ∈ bracket := by
  rw [← r.map_fst_firstGames] at hgame
  obtain ⟨p, hp, rfl⟩ := List.mem_map.mp hgame
  obtain ⟨hown, hother⟩ := h.counted.names p hp
  rcases Decidable.em (c = p.2) with rfl | hne
  · rw [hown]
    exact h.first_mem
  · rw [Colony.eq_foe_of_ne hne, hother]
    exact h.second_mem

/-- The names are those of the bracket, in order, and the standing of each is the sum of what it
gets out of the matches. -/
theorem standing_ofCup {r : CupResult} (hnodup : r.bracket.Nodup)
    (hfair : ∀ m ∈ Cup.allResults r.rounds, FairMatch r.bracket m) :
    (ofCup r).names.Pairwise (· < ·) ∧ (ofCup r).names.Perm r.bracket ∧
      ∀ name, (ofCup r).standing name =
        ((Cup.allResults r.rounds).map (·.share name)).sum := by
  have hnew : (r.bracket ++ names []).Nodup := by
    rw [show names [] = [] from rfl, List.append_nil]
    exact hnodup
  obtain ⟨hordered, hperm, hblank⟩ := enter_bracket .nil hnew fun _ => rfl
  rw [show names [] = [] from rfl, List.append_nil] at hperm
  generalize hs : r.bracket.foldl (fun s name => update name id s) [] = s at hordered hperm hblank
  have hadds : ∀ m ∈ Cup.allResults r.rounds, Adds s.names (addMatch · m) (matchShare m) := by
    intro m hm
    refine adds_addMatch hordered (fun side hside => ?_) fun game hgame c => ?_
    · rcases List.mem_pair.mp hside with rfl | rfl
      · exact hperm.mem_iff.mpr (hfair m hm).first_mem
      · exact hperm.mem_iff.mpr (hfair m hm).second_mem
    · exact hperm.mem_iff.mpr ((hfair m hm).name_mem hgame c)
  have hcup : ofCup r = (Cup.allResults r.rounds).foldl addMatch s := by
    rw [← hs]
    rfl
  obtain ⟨hnames, hstanding⟩ := adds_foldl hadds s rfl
  rw [hcup]
  refine ⟨hnames ▸ hordered, hnames ▸ hperm, fun name => ?_⟩
  rw [hstanding, hblank, zero_add]
  exact congrArg List.sum (List.map_congr_left fun m hm =>
    (hfair m hm).counted.matchShare_eq (hfair m hm).ne name)

theorem sum_share (r : CupResult) (name : String) :
    ((Cup.allResults r.rounds).map (·.share name)).sum =
      ((played r name).map (·.partOf name)).sum := by
  unfold MatchResult.share
  rw [List.sum_map_ite, played]
  simp

theorem FairMatch.partOf_add_partOf {bracket : List String} {r : MatchResult}
    (h : FairMatch bracket r) :
    (r.partOf r.first + r.partOf r.second).matchesPlayed = 2 ∧
      (r.partOf r.first + r.partOf r.second).matchWins = 1 := by
  refine ⟨rfl, ?_⟩
  have hwins : (r.partOf r.first + r.partOf r.second).matchWins =
      (r.first == r.winner).toNat + (r.second == r.winner).toNat := rfl
  rw [hwins]
  rcases h.winner_eq with hwinner | hwinner
  · rw [hwinner, beq_self_eq_true, beq_eq_false_iff_ne.mpr (Ne.symm h.ne)]
    rfl
  · rw [hwinner, beq_self_eq_true, beq_eq_false_iff_ne.mpr h.ne]
    rfl

/-- All in all, each match counts for its two sides. -/
theorem sum_shares {names : List String} (hnames : names.Nodup) {results : List MatchResult}
    (h : ∀ m ∈ results, FairMatch names m) :
    (names.map fun name => (results.map (·.share name)).sum).sum =
      (results.map fun m => m.partOf m.first + m.partOf m.second).sum := by
  induction results with
  | nil => simp
  | cons m results ih =>
    have hm := h m List.mem_cons_self
    have hrest := ih fun m' hm' => h m' (List.mem_cons_of_mem m hm')
    have hmatch : (names.map m.share).sum = m.partOf m.first + m.partOf m.second := by
      rw [funext (MatchResult.share_eq hm.ne), List.sum_map_add, sum_only hnames hm.first_mem,
        sum_only hnames hm.second_mem]
    simp only [List.map_cons, List.sum_cons]
    rw [List.sum_map_add, hrest, hmatch]

end Standings

namespace Cup

theorem Knockout.fairMatch {ground : Ground} {config : CupConfig} {entrants : List Brain}
    {result : CupResult} (h : Knockout ground config entrants result) :
    ∀ m ∈ allResults result.rounds, Standings.FairMatch result.bracket m := by
  intro m hm
  obtain ⟨a, ha, b, hb, hne, rfl⟩ := h.exists_of_mem m hm
  exact ⟨counted_playMatch ground a b config,
    h.bracket_perm.mem_iff.mpr (List.mem_map_of_mem ha),
    h.bracket_perm.mem_iff.mpr (List.mem_map_of_mem hb), hne, winner_playMatch ground config a b⟩

end Cup

namespace Standings

/-- What a standing says of an entrant, by the matches that it played. -/
structure OfMatches (result : CupResult) (name : String) (s : Standing) : Prop where
  matchesPlayed_eq : s.matchesPlayed = (played result name).length
  matchWins_eq : s.matchWins = (played result name).countP (name == ·.winner)
  games_eq : s.games = ((played result name).map (·.games.length)).sum
  gameWins_eq : s.gameWins = ((played result name).map (·.pointsOf name)).sum
  food_eq : s.food = ((played result name).map (·.foodOf name)).sum

theorem ofMatches_sum (result : CupResult) (name : String) :
    OfMatches result name ((played result name).map (·.partOf name)).sum where
  matchesPlayed_eq := by
    rw [Standing.sum_field (·.matchesPlayed) rfl fun _ _ => rfl]
    simp [MatchResult.partOf]
  matchWins_eq := by
    rw [Standing.sum_field (·.matchWins) rfl fun _ _ => rfl]
    exact sum_map_toNat (fun m : MatchResult => name == m.winner) _
  games_eq := Standing.sum_field (·.games) rfl (fun _ _ => rfl) _ _
  gameWins_eq := Standing.sum_field (·.gameWins) rfl (fun _ _ => rfl) _ _
  food_eq := Standing.sum_field (·.food) rfl (fun _ _ => rfl) _ _

theorem length_played (result : CupResult) (name : String) :
    (played result name).length =
      (played result name).countP (name == ·.winner) +
        (Cup.allResults result.rounds).countP (·.lostBy name) := by
  have hlost : (Cup.allResults result.rounds).countP (·.lostBy name) =
      (played result name).countP fun m => !(name == m.winner) := by
    rw [played, List.countP_filter]
    refine List.countP_congr fun m _ => ?_
    rw [MatchResult.lostBy, Bool.and_comm, bne_comm]
    rfl
  rw [hlost]
  simpa only [Bool.not_eq_true, Bool.decide_eq_false] using
    List.length_eq_countP_add_countP (fun m : MatchResult => name == m.winner)

/-- Over all entrants, a total comes to what a match gives to its two sides, times the number of
matches. -/
theorem sum_standings {r : CupResult} {s : Standings} (hnodup : r.bracket.Nodup)
    (hfair : ∀ m ∈ Cup.allResults r.rounds, FairMatch r.bracket m)
    (hperm : s.names.Perm r.bracket)
    (hstanding : ∀ name, s.standing name = ((Cup.allResults r.rounds).map (·.share name)).sum)
    (field : Standing → Nat) (hzero : field 0 = 0)
    (hadd : ∀ s t, field (s + t) = field s + field t) {c : Nat}
    (hc : ∀ m ∈ Cup.allResults r.rounds, field (m.partOf m.first + m.partOf m.second) = c) :
    (s.map fun entry => field entry.2).sum = (Cup.allResults r.rounds).length * c := by
  have htotal : (s.map (·.2)).sum =
      ((Cup.allResults r.rounds).map fun m => m.partOf m.first + m.partOf m.second).sum := by
    rw [map_snd_eq (hperm.nodup_iff.mpr hnodup), (hperm.map s.standing).sum_eq,
      ← sum_shares hnodup hfair, funext hstanding]
  rw [← Standing.sum_field field hzero hadd, htotal, Standing.sum_field field hzero hadd,
    List.map_congr_left hc, List.map_const', List.sum_replicate]
  rfl

/-- The standings of a cup agree with its bracket and its matches. -/
structure AgreesWith (standings : Standings) (result : CupResult) : Prop where
  /-- The names are listed in order, each once, and they are those of the bracket. -/
  ordered : standings.names.Pairwise (· < ·)
  names_perm : standings.names.Perm result.bracket
  ofMatches : ∀ name ∈ result.bracket, ∃ s, standings.get? name = some s ∧ OfMatches result name s
  champion : ∃ s, standings.get? result.champion = some s ∧
    s.matchWins = s.matchesPlayed ∧ 1 ≤ s.matchesPlayed
  others : ∀ name ∈ result.bracket, name ≠ result.champion →
    ∃ s, standings.get? name = some s ∧ s.matchesPlayed = s.matchWins + 1
  sum_matchWins : (standings.map (·.2.matchWins)).sum = result.bracket.length - 1
  sum_matchesPlayed : (standings.map (·.2.matchesPlayed)).sum = 2 * (result.bracket.length - 1)

theorem get?_ofCup {r : CupResult} (hnodup : r.bracket.Nodup)
    (hfair : ∀ m ∈ Cup.allResults r.rounds, FairMatch r.bracket m) {name : String}
    (hname : name ∈ r.bracket) :
    (ofCup r).get? name = some ((played r name).map (·.partOf name)).sum := by
  obtain ⟨-, hperm, hstanding⟩ := standing_ofCup hnodup hfair
  cases hentry : (ofCup r).get? name with
  | none => exact (get?_eq_none_iff.mp hentry (hperm.mem_iff.mpr hname)).elim
  | some s =>
    have heq := hstanding name
    rw [sum_share, standing, hentry] at heq
    exact congrArg some heq

theorem matchesPlayed_eq {ground : Ground} {config : CupConfig} {entrants : List Brain}
    {result : CupResult} (h : Cup.Knockout ground config entrants result) {name : String}
    (hname : name ∈ result.bracket) {s : Standing} (hs : OfMatches result name s) :
    s.matchesPlayed = s.matchWins + if name = result.champion then 0 else 1 := by
  obtain ⟨b, hb, rfl⟩ := List.mem_map.mp (h.bracket_perm.mem_iff.mp hname)
  rw [hs.matchesPlayed_eq, hs.matchWins_eq, ← h.losses b hb]
  exact length_played result b.name

/-- Every cup that is played has standings that agree with it. -/
theorem standings_of_cup {ground : Ground} {config : CupConfig} {entrants : List Brain}
    {result : CupResult} (h : Cup.play ground entrants config = .ok result) :
    result.bracket.Perm (entrants.map (·.name)) ∧ result.bracket.Nodup ∧
      AgreesWith (ofCup result) result := by
  obtain ⟨hmany, hnodup, hknockout⟩ := Cup.knockout_of_play h
  have hbracket : result.bracket.Nodup := hknockout.bracket_perm.nodup_iff.mpr hnodup
  have hfair := hknockout.fairMatch
  obtain ⟨hordered, hperm, hstanding⟩ := standing_ofCup hbracket hfair
  have hlength : (Cup.allResults result.rounds).length = result.bracket.length - 1 := by
    rw [hknockout.length_results, hknockout.bracket_perm.length_eq, List.length_map]
  have hsum := sum_standings hbracket hfair hperm hstanding
  have hplayed := hsum (·.matchesPlayed) rfl (fun _ _ => rfl) fun m hm =>
    (hfair m hm).partOf_add_partOf.1
  have hwon := hsum (·.matchWins) rfl (fun _ _ => rfl) fun m hm =>
    (hfair m hm).partOf_add_partOf.2
  have hmatches := ofMatches_sum result
  refine ⟨hknockout.bracket_perm, hbracket, {
    ordered := hordered
    names_perm := hperm
    ofMatches := fun name hname => ⟨_, get?_ofCup hbracket hfair hname, hmatches name⟩
    champion := ?_
    others := fun name hname hne => ?_
    sum_matchWins := by rw [hwon, hlength, Nat.mul_one]
    sum_matchesPlayed := by rw [hplayed, hlength, Nat.mul_comm] }⟩
  · have hname := hknockout.bracket_perm.mem_iff.mpr hknockout.champion_mem
    have hall := matchesPlayed_eq hknockout hname (hmatches result.champion)
    rw [if_pos rfl] at hall
    obtain ⟨m, hm, hplays⟩ := hknockout.champion_plays hmany
    refine ⟨_, get?_ofCup hbracket hfair hname, hall.symm, ?_⟩
    rw [(hmatches result.champion).matchesPlayed_eq]
    exact List.length_pos_of_mem (List.mem_filter.mpr ⟨hm, hplays⟩)
  · have hall := matchesPlayed_eq hknockout hname (hmatches name)
    rw [if_neg hne] at hall
    exact ⟨_, get?_ofCup hbracket hfair hname, hall⟩

/-- For example the standings of a cup of three. -/
theorem standings_of_three :
    ∃ (ground : Ground) (a b c : Brain) (result : CupResult),
      Cup.play ground [a, b, c] { game := { maxTurns := 3 } } = .ok result ∧
      result.bracket.Perm [a.name, b.name, c.name] ∧ result.bracket.Nodup ∧
      AgreesWith (ofCup result) result := by
  let side : Side := ⟨3, by decide⟩
  let first : StateIndex := ⟨0, by decide⟩
  let ground := (Ground.walled side side).modify ⟨1, 1⟩ fun _ => .fresh (.hill .red) 2
  let a : Brain := ⟨"gather", #[.pickUp first first], by decide, by decide⟩
  let b : Brain := ⟨"whirl", #[.turn .left first], by decide, by decide⟩
  let c : Brain := ⟨"walk", #[.move first first], by decide, by decide⟩
  obtain ⟨result, hresult, -⟩ :=
    Cup.play_of_nodup ground { game := { maxTurns := 3 } } (show 2 ≤ [a, b, c].length by decide)
      (by decide)
  exact ⟨ground, a, b, c, result, hresult, standings_of_cup hresult⟩

end Standings

end AntContest
