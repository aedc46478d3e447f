import AntContest.Proofs.Cup.Knockout
import AntContest.Proofs.Cup.MatchRecord
import AntContest.Proofs.Text.CommaSeparated
import AntContest.Proofs.Text.Layout
import AntContest.Report.Table
import Mathlib

/-! # What can be read from the table of a cup

The table of a cup has a line for each game, in order (`mem_placedGames`, `pairwise_placedGames`).
Names are written as they are, so whether the columns can be read back depends on them: they can if
and only if the names of all entrants are plain (`readColumns_table_iff`), for every entrant plays a
game (`Cup.Knockout.exists_game_of_mem`).

`TableEntry` has the data of the ten columns.  The word for a draw stands where the name of a winner
would, so an entry is read back if and only if the game was not won by an entrant of that name
(`ofColumns?_columns_iff`). -/

namespace AntContest

open CommaSeparated (IsPlain)

/-! ### The games of a cup in order -/

/-- One game comes before another: in an earlier round, or in an earlier match of the round, or
earlier in the match. -/
def PlacedGame.Precedes (p q : PlacedGame) : Prop :=
  p.round < q.round ∨
    p.round = q.round ∧ (p.pairing < q.pairing ∨ p.pairing = q.pairing ∧ p.game < q.game)

theorem pairwise_zipIdx {α : Type} (l : List α) : l.zipIdx.Pairwise fun a b => a.2 < b.2 := by
  have hplaces : (l.zipIdx.map Prod.snd).Pairwise (· < ·) := by
    rw [List.zipIdx_map_snd]
    exact List.pairwise_lt_range'
  exact List.pairwise_map.mp hplaces

namespace CupResult

variable {r : CupResult}

/-- The table has every game of the cup, at its place. -/
theorem mem_placedGames {p : PlacedGame} : p ∈ r.placedGames ↔
    ∃ round m, r.rounds[p.round]? = some round ∧ round.results[p.pairing]? = some m ∧
      m.games[p.game]? = some p.result := by
  unfold placedGames
  simp only [List.mem_flatMap, List.mem_map, Prod.exists, List.mem_zipIdx_iff_getElem?]
  constructor
  · rintro ⟨round, i, hround, m, j, hm, g, k, hg, rfl⟩
    exact ⟨round, m, hround, hm, hg⟩
  · rintro ⟨round, m, hround, hm, hg⟩
    exact ⟨round, p.round, hround, m, p.pairing, hm, p.result, p.game, hg, rfl⟩

theorem pairwise_placedGames (r : CupResult) : r.placedGames.Pairwise PlacedGame.Precedes := by
  unfold placedGames
  refine List.pairwise_flatMap.mpr ⟨fun (round, i) _ => ?_, ?_⟩
  · refine List.pairwise_flatMap.mpr ⟨fun (m, j) _ => ?_, ?_⟩
    · refine List.pairwise_map.mpr ((pairwise_zipIdx m.games).imp fun hlt => ?_)
      exact .inr ⟨rfl, .inr ⟨rfl, hlt⟩⟩
    · refine (pairwise_zipIdx round.results).imp fun hlt p hp q hq => ?_
      obtain ⟨_, -, rfl⟩ := List.mem_map.mp hp
      obtain ⟨_, -, rfl⟩ := List.mem_map.mp hq
      exact .inr ⟨rfl, .inl hlt⟩
  · refine (pairwise_zipIdx r.rounds).imp fun hlt p hp q hq => ?_
    obtain ⟨_, -, hp⟩ := List.mem_flatMap.mp hp
    obtain ⟨_, -, rfl⟩ := List.mem_map.mp hp
    obtain ⟨_, -, hq⟩ := List.mem_flatMap.mp hq
    obtain ⟨_, -, rfl⟩ := List.mem_map.mp hq
    exact .inl hlt

theorem exists_placedGame_iff {g : GameResult} :
    (∃ p ∈ r.placedGames, p.result = g) ↔ ∃ m ∈ Cup.allResults r.rounds, g ∈ m.games := by
  constructor
  · rintro ⟨p, hp, rfl⟩
    obtain ⟨round, m, hround, hm, hg⟩ := mem_placedGames.mp hp
    exact ⟨m, List.mem_flatMap.mpr ⟨round, List.mem_of_getElem? hround, List.mem_of_getElem? hm⟩,
      List.mem_of_getElem? hg⟩
  · rintro ⟨m, hm, hg⟩
    obtain ⟨round, hround, hm⟩ := List.mem_flatMap.mp hm
    obtain ⟨i, hi⟩ := List.mem_iff_getElem?.mp hround
    obtain ⟨j, hj⟩ := List.mem_iff_getElem?.mp hm
    obtain ⟨k, hk⟩ := List.mem_iff_getElem?.mp hg
    exact ⟨⟨i, j, k, g⟩, mem_placedGames.mpr ⟨round, m, hi, hj, hk⟩, rfl⟩

end CupResult

/-! ### Who plays -/

theorem names_of_playMatch (ground : Ground) (a b : Brain) (config : CupConfig) :
    (playMatch ground a b config).games ≠ [] ∧
      ∀ g ∈ (playMatch ground a b config).games,
        ∃ c, g.name c = a.name ∧ g.name c.foe = b.name := by
  obtain ⟨k, hpos, -, hplay, -, -⟩ := exists_playMatch_eq ground a b config
  rw [hplay, games_result]
  constructor
  · rw [← List.length_pos_iff, List.length_map, length_gamesOfRounds]
    omega
  · intro g hg
    obtain ⟨⟨g, c⟩, hmem, rfl⟩ := List.mem_map.mp hg
    exact ⟨c, name_of_mem_gamesOfRounds ground a b config.game hmem⟩

namespace Cup.Knockout

variable {ground : Ground} {config : CupConfig} {entrants : List Brain} {r : CupResult}

theorem name_mem (h : Knockout ground config entrants r) {p : PlacedGame}
    (hp : p ∈ r.placedGames) (c : Colony) : ∃ b ∈ entrants, p.result.name c = b.name := by
  obtain ⟨m, hm, hg⟩ := CupResult.exists_placedGame_iff.mp ⟨p, hp, rfl⟩
  obtain ⟨a, ha, b, hb, -, rfl⟩ := h.exists_of_mem m hm
  obtain ⟨d, hown, hother⟩ := (names_of_playMatch ground a b config).2 _ hg
  by_cases hcd : c = d
  · exact ⟨a, ha, hcd ▸ hown⟩
  · exact ⟨b, hb, Colony.eq_foe_of_ne hcd ▸ hother⟩

theorem exists_plays (h : Knockout ground config entrants r) (hmany : 2 ≤ entrants.length)
    {b : Brain} (hb : b ∈ entrants) : ∃ m ∈ allResults r.rounds, m.plays b.name = true := by
  have hlosses := h.losses b hb
  split at hlosses
  · next hchampion => exact hchampion ▸ h.champion_plays hmany
  · have hpos : 0 < (allResults r.rounds).countP (·.lostBy b.name) := by omega
    obtain ⟨m, hm, hlost⟩ := List.countP_pos_iff.mp hpos
    exact ⟨m, hm, MatchResult.plays_of_lostBy hlost⟩

theorem exists_game_of_mem (h : Knockout ground config entrants r) (hmany : 2 ≤ entrants.length)
    {b : Brain} (hb : b ∈ entrants) : ∃ p ∈ r.placedGames, ∃ c, p.result.name c = b.name := by
  obtain ⟨m, hm, hplays⟩ := h.exists_plays hmany hb
  obtain ⟨first, -, second, -, -, rfl⟩ := h.exists_of_mem m hm
  obtain ⟨hgames, hnames⟩ := names_of_playMatch ground first second config
  obtain ⟨g, hg⟩ := List.exists_mem_of_ne_nil _ hgames
  obtain ⟨p, hp, rfl⟩ := CupResult.exists_placedGame_iff.mpr ⟨_, hm, hg⟩
  obtain ⟨c, hown, hother⟩ := hnames p.result hg
  rcases (plays_playMatch (first, second) b.name).mp hplays with hfirst | hsecond
  · exact ⟨p, hp, c, hown.trans hfirst⟩
  · exact ⟨p, hp, c.foe, hother.trans hsecond⟩

end Cup.Knockout

/-! ### Columns as text -/

/-- The lines of a table by their columns, the names of the columns first. -/
def CupResult.tableRows (r : CupResult) : List (List String) :=
  tableHeader :: r.placedGames.map (·.columns)

/-- Reads the columns of the lines of a table. -/
def readColumns (text : String) : Option (List (List String)) :=
  (CommaSeparated.read text.toList).map fun rows => rows.map fun row => row.map String.ofList

theorem readColumns_eq_some_iff {text : String} {rows : List (List String)} :
    readColumns text = some rows ↔
      CommaSeparated.read text.toList = some (rows.map fun row => row.map String.toList) := by
  unfold readColumns
  rw [Option.map_eq_some_iff]
  constructor
  · rintro ⟨chars, hread, rfl⟩
    simpa [List.map_map, Function.comp_def] using hread
  · intro hread
    exact ⟨_, hread, by simp [List.map_map, Function.comp_def]⟩

theorem toList_tableLine (columns : List String) :
    (tableLine columns).toList = CommaSeparated.writeRow (columns.map String.toList) := by
  rw [tableLine, String.toList_append, String.toList_intercalate]
  rfl

theorem CupResult.toList_table (r : CupResult) :
    r.table.toList = CommaSeparated.write (r.tableRows.map fun row => row.map String.toList) := by
  rw [table, String.toList_append, String.toList_join, toList_tableLine, CommaSeparated.write,
    tableRows, List.map_cons, List.flatMap_cons, List.flatMap_map, List.flatMap_map,
    List.flatMap_map]
  simp only [toList_tableLine]

theorem isPlain_of_isDigit {f : List Char} (h : ∀ c ∈ f, c.isDigit = true) : IsPlain f := by
  intro c hc
  have hdigit := h c hc
  refine ⟨?_, ?_, ?_, ?_⟩ <;> rintro rfl <;> cases hdigit

theorem isPlain_nat (n : Nat) : IsPlain (toString n).toList := by
  have hdigits : (toString n).toList = Text.digits n := Nat.toList_repr
  rw [hdigits]
  exact isPlain_of_isDigit fun _ => Text.isDigit_of_mem_digits

theorem isPlain_int (i : Int) : IsPlain (toString i).toList := by
  cases i with
  | ofNat n => exact isPlain_nat n
  | negSucc n =>
    have hsign : (toString (Int.negSucc n)).toList = '-' :: (toString (n + 1)).toList := by
      show ("-" ++ (n + 1).repr).toList = _
      rw [String.toList_append]
      rfl
    rw [hsign]
    exact List.forall_mem_cons.mpr ⟨by decide, isPlain_nat (n + 1)⟩

/-- The columns of a game are plain if the names are. -/
theorem PlacedGame.isPlain_columns_iff (p : PlacedGame) :
    (∀ f ∈ p.columns, IsPlain f.toList) ↔ ∀ c, IsPlain (p.result.name c).toList := by
  constructor
  · intro h c
    cases c with
    | red => exact h p.result.red (by simp [columns])
    | black => exact h p.result.black (by simp [columns])
  · intro h
    have hwinner : IsPlain (p.result.winnerName?.getD "draw").toList := by
      unfold GameResult.winnerName?
      cases p.result.winner? with
      | none =>
        have hdraw : IsPlain "draw".toList := by decide
        exact hdraw
      | some c => exact h c
    simp only [columns, List.forall_mem_cons]
    exact ⟨isPlain_nat _, isPlain_nat _, isPlain_nat _, isPlain_int _, h .red, h .black,
      isPlain_nat _, isPlain_nat _, hwinner, isPlain_nat _, List.forall_mem_nil _⟩

/-- The columns of a table can be read back if and only if the names of all its games are plain. -/
theorem CupResult.readColumns_table_iff (r : CupResult) :
    readColumns r.table = some r.tableRows ↔
      ∀ p ∈ r.placedGames, ∀ c, IsPlain (p.result.name c).toList := by
  have hne : ∀ row ∈ r.tableRows.map fun row => row.map String.toList, row ≠ [] := by
    simp [tableRows, tableHeader, PlacedGame.columns]
  have hheader : ∀ f ∈ tableHeader, IsPlain f.toList := by decide
  rw [readColumns_eq_some_iff, toList_table, CommaSeparated.read_write_iff hne]
  simp only [tableRows, List.forall_mem_map, List.forall_mem_cons, PlacedGame.isPlain_columns_iff]
  exact and_iff_right hheader

/-! ### Columns as data -/

/-- What a line of a table tells of a game; rounds, matches and games are counted from one, and a
draw has no winner. -/
structure TableEntry where
  round : Nat
  pairing : Nat
  game : Nat
  seed : Int
  red : String
  black : String
  redScore : Nat
  blackScore : Nat
  winner? : Option String
  turns : Nat
deriving DecidableEq, Repr

/-- What the table has to tell of a game. -/
def PlacedGame.entry (p : PlacedGame) : TableEntry where
  round := p.round + 1
  pairing := p.pairing + 1
  game := p.game + 1
  seed := p.result.seed.toInt
  red := p.result.red
  black := p.result.black
  redScore := p.result.redScore.toNat
  blackScore := p.result.blackScore.toNat
  winner? := p.result.winnerName?
  turns := p.result.turnsPlayed

/-- The winner of a game by its column. -/
def winnerOfColumn (column : String) : Option String :=
  if column = "draw" then none else some column

/-- The entry of ten columns. -/
def TableEntry.ofColumns? : List String → Option TableEntry
  | [round, pairing, game, seed, red, black, redScore, blackScore, winner, turns] =>
    return {
      round := ← round.toNat?
      pairing := ← pairing.toNat?
      game := ← game.toNat?
      seed := ← seed.toInt?
      red := red
      black := black
      redScore := ← redScore.toNat?
      blackScore := ← blackScore.toNat?
      winner? := winnerOfColumn winner
      turns := ← turns.toNat? }
  | _ => none

/-- The entries of the lines of a table, of which the first has the names of the columns. -/
def TableEntry.ofRows? : List (List String) → Option (List TableEntry)
  | [] => none
  | header :: rows => if header = tableHeader then rows.mapM ofColumns? else none

def readTable? (text : String) : Option (List TableEntry) :=
  (readColumns text).bind TableEntry.ofRows?

theorem ofColumns?_columns (p : PlacedGame) : TableEntry.ofColumns? p.columns =
    some { p.entry with winner? := winnerOfColumn (p.result.winnerName?.getD "draw") } := by
  have hnat (n : Nat) : (toString n).toNat? = some n := Nat.toNat?_repr n
  have hint (i : Int) : (toString i).toInt? = some i := Int.toInt?_repr i
  simp only [PlacedGame.columns, TableEntry.ofColumns?, hnat, hint]
  rfl

/-- The column of the winner tells a draw from a win, unless the winner is called like a draw. -/
theorem winnerOfColumn_eq_iff (winner? : Option String) :
    winnerOfColumn (winner?.getD "draw") = winner? ↔ winner? ≠ some "draw" := by
  unfold winnerOfColumn
  cases winner? with
  | none => simp
  | some name => by_cases hname : name = "draw" <;> simp [hname]

theorem ofColumns?_columns_iff (p : PlacedGame) :
    TableEntry.ofColumns? p.columns = some p.entry ↔ p.result.winnerName? ≠ some "draw" := by
  rw [ofColumns?_columns, ← winnerOfColumn_eq_iff, Option.some.injEq]
  constructor
  · exact congrArg TableEntry.winner?
  · intro hwinner
    rw [hwinner]
    rfl

theorem CupResult.readTable?_table {r : CupResult} (hread : readColumns r.table = some r.tableRows)
    (hdraw : ∀ p ∈ r.placedGames, p.result.winnerName? ≠ some "draw") :
    readTable? r.table = some (r.placedGames.map (·.entry)) := by
  have hrows : ∀ games : List PlacedGame, (∀ p ∈ games, p.result.winnerName? ≠ some "draw") →
      (games.map (·.columns)).mapM TableEntry.ofColumns? = some (games.map (·.entry)) := by
    intro games hgames
    induction games with
    | nil => rfl
    | cons p games ih =>
      obtain ⟨hp, hgames⟩ := List.forall_mem_cons.mp hgames
      rw [List.map_cons, List.mapM_cons, (ofColumns?_columns_iff p).mpr hp, ih hgames]
      rfl
  rw [readTable?, hread, Option.bind_some, tableRows, TableEntry.ofRows?, if_pos rfl]
  exact hrows _ hdraw

/-! ### The tables of cups -/

/-- A name that a table can hold: a plain one that is not the word for a draw. -/
def FitsTable (name : String) : Prop := IsPlain name.toList ∧ name ≠ "draw"

instance (name : String) : Decidable (FitsTable name) := inferInstanceAs (Decidable (_ ∧ _))

namespace Cup

variable {ground : Ground} {config : CupConfig} {entrants : List Brain} {r : CupResult}

theorem readColumns_table_iff (h : play ground entrants config = .ok r) :
    readColumns r.table = some r.tableRows ↔ ∀ b ∈ entrants, IsPlain b.name.toList := by
  obtain ⟨hmany, -, hknockout⟩ := knockout_of_play h
  rw [CupResult.readColumns_table_iff]
  constructor
  · intro hplain b hb
    obtain ⟨p, hp, c, hname⟩ := hknockout.exists_game_of_mem hmany hb
    exact hname ▸ hplain p hp c
  · intro hplain p hp c
    obtain ⟨b, hb, hname⟩ := hknockout.name_mem hp c
    exact hname ▸ hplain b hb

theorem readTable?_of_fits (h : play ground entrants config = .ok r)
    (hnames : ∀ b ∈ entrants, FitsTable b.name) :
    readTable? r.table = some (r.placedGames.map (·.entry)) := by
  obtain ⟨-, -, hknockout⟩ := knockout_of_play h
  have hread := (readColumns_table_iff h).mpr fun b hb => (hnames b hb).1
  refine CupResult.readTable?_table hread fun p hp hdraw => ?_
  unfold GameResult.winnerName? at hdraw
  obtain ⟨c, -, hc⟩ := Option.map_eq_some_iff.mp hdraw
  obtain ⟨b, hb, hname⟩ := hknockout.name_mem hp c
  exact (hnames b hb).2 (hname.symm.trans hc)

/-- The table of a cup has the line of column names and a line for each game of the cup, in order.
Its columns can be read back if and only if the names of all entrants are plain, and the data of a
game from its columns if and only if it was not won by someone called like a draw.  So if all names
fit, the data of all games can be read back, and cups with different data have different tables. -/
theorem table_readable (h : play ground entrants config = .ok r) :
    (∀ p, p ∈ r.placedGames ↔
      ∃ round m, r.rounds[p.round]? = some round ∧ round.results[p.pairing]? = some m ∧
        m.games[p.game]? = some p.result) ∧
    r.placedGames.Pairwise PlacedGame.Precedes ∧
    (readColumns r.table = some r.tableRows ↔ ∀ b ∈ entrants, IsPlain b.name.toList) ∧
    (∀ p ∈ r.placedGames,
      TableEntry.ofColumns? p.columns = some p.entry ↔ p.result.winnerName? ≠ some "draw") ∧
    ((∀ b ∈ entrants, FitsTable b.name) →
      readTable? r.table = some (r.placedGames.map (·.entry)) ∧
      ∀ ground' config' entrants' r', play ground' entrants' config' = .ok r' →
        (∀ b ∈ entrants', FitsTable b.name) →
        r.placedGames.map (·.entry) ≠ r'.placedGames.map (·.entry) → r.table ≠ r'.table) := by
  refine ⟨fun _ => CupResult.mem_placedGames, r.pairwise_placedGames, readColumns_table_iff h,
    fun p _ => ofColumns?_columns_iff p, fun hnames => ?_⟩
  have hread := readTable?_of_fits h hnames
  refine ⟨hread, fun ground' config' entrants' r' h' hnames' hentries htable => hentries ?_⟩
  rw [htable, readTable?_of_fits h' hnames'] at hread
  exact (Option.some.inj hread).symm

/-- For example a cup of three, with a name of two words. -/
theorem table_of_three_readable :
    ∃ (ground : Ground) (a b c : Brain) (r : CupResult), b.name = "no way" ∧
      play ground [a, b, c] { game := { maxTurns := 3 } } = .ok r ∧
      readTable? r.table = some (r.placedGames.map (·.entry)) := by
  let side : Side := ⟨3, by decide⟩
  let first : StateIndex := ⟨0, by decide⟩
  let ground := (Ground.walled side side).modify ⟨1, 1⟩ fun _ => .fresh (.hill .red) 2
  let a : Brain := ⟨"gather", #[.pickUp first first], by decide, by decide⟩
  let b : Brain := ⟨"no way", #[.turn .left first], by decide, by decide⟩
  let c : Brain := ⟨"walk", #[.move first first], by decide, by decide⟩
  have hmany : 2 ≤ [a, b, c].length := by decide
  obtain ⟨r, hplay, -⟩ := play_of_nodup ground { game := { maxTurns := 3 } } hmany (by decide)
  obtain ⟨-, -, -, -, hfits⟩ := table_readable hplay
  exact ⟨ground, a, b, c, r, rfl, hplay, (hfits (by decide)).1⟩

/-- A name with a comma in it is read as two columns. -/
theorem table_with_comma_unreadable :
    let side : Side := ⟨3, by decide⟩
    let first : StateIndex := ⟨0, by decide⟩
    let ground := (Ground.walled side side).modify ⟨1, 1⟩ fun _ => .fresh (.hill .red) 0
    let a : Brain := ⟨"a,b", #[.move first first], by decide, by decide⟩
    let b : Brain := ⟨"c", #[.move first first], by decide, by decide⟩
    ∃ r, play ground [a, b] { game := { maxTurns := 2 } } = .ok r ∧
      readColumns r.table ≠ some r.tableRows := by
  intro side first ground a b
  have hmany : 2 ≤ [a, b].length := by decide
  obtain ⟨r, hplay, -⟩ := play_of_nodup ground { game := { maxTurns := 2 } } hmany (by decide)
  refine ⟨r, hplay, fun hread => ?_⟩
  have hplain : IsPlain a.name.toList := (readColumns_table_iff hplay).mp hread a (by simp)
  exact absurd hplain (by decide)

end Cup

end AntContest
