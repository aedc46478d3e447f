import AntContest.Cup.Match
import AntContest.Proofs.Brain.SourceRoundTrip
import AntContest.Proofs.Ground.MapRoundTrip
import AntContest.Proofs.Recording.TimeTravel

/-! # A recording plays the game that it records

Of a recorded game there is a map and there are two brain texts.  All of them are read back
without loss, so what is played back is the game itself, turn by turn
(`recording_reproduces_game`). -/

namespace AntContest

namespace Playback

/-- A map that is read back and two brains give a recording that can be opened. -/
theorem openAt_ofGame {ground : Ground} (hmap : Ground.readMap ground.mapText = .ok ground)
    (teams : Teams) (config : Config) (n : Nat) :
    openAt (.ofGame ground teams config) n =
      .ok ⟨.ofGame ground teams config, ground, teams, (start ground teams config).steps n⟩ :=
  openAt_eq_ok.mpr ⟨ground, teams.red, teams.black, hmap, teams.red.read_source,
    teams.black.read_source, rfl⟩

/-- The recording of a game on a ground that was read or generated can be opened at every turn.
It shows the game that was recorded, and at its end the result of that game. -/
theorem recording_reproduces_game {ground : Ground}
    (hground : (∃ text, Ground.readMap text = .ok ground) ∨
      ∃ seed plan, Ground.generate seed plan = .ok ground)
    (teams : Teams) (config : Config) {n : Nat} (hn : n ≤ config.maxTurns.toNat) :
    ∃ p, openAt (.ofGame ground teams config) n = .ok p ∧ p.turn = n ∧
      p.game = ((Game.load ground config).begin teams).steps n ∧
      (n = config.maxTurns.toNat → GameResult.ofGame p.game = playGame ground teams config) := by
  have hmap : Ground.readMap ground.mapText = .ok ground := by
    rcases hground with ⟨text, htext⟩ | ⟨seed, plan, hgenerated⟩
    · exact Ground.readMap_mapText_of_readMap htext
    · exact Ground.readMap_mapText_of_generate hgenerated
  refine ⟨_, openAt_ofGame hmap teams config n, ?_, rfl, ?_⟩
  · have hturn := Game.turn_steps_begin (.load ground config) teams n
    exact hturn.trans (Nat.min_eq_left hn)
  · rintro rfl
    rw [playGame, (Game.underway_begin (.load ground config) teams).play_eq_steps]
    rfl

/-- For example at the end of a game of two turns on a small map. -/
theorem recording_reproduces_short_game :
    ∃ (ground : Ground) (teams : Teams) (config : Config) (p : Playback),
      (∃ text, Ground.readMap text = .ok ground) ∧
      openAt (.ofGame ground teams config) 2 = .ok p ∧ p.turn = 2 ∧
      GameResult.ofGame p.game = playGame ground teams config := by
  let map := "3\n3\n# # #\n # + #\n# # #\n"
  let brain : Brain := ⟨"two words", #[.turn .left ⟨0, by decide⟩], by decide, by decide⟩
  have hread : (Ground.readMap map).isOk = true := by decide +kernel
  cases hmap : Ground.readMap map with
  | error e =>
    rw [hmap] at hread
    cases hread
  | ok ground =>
    obtain ⟨p, hopen, hturn, -, hresult⟩ := recording_reproduces_game (n := 2)
      (.inl ⟨map, hmap⟩) ⟨brain, brain⟩ { maxTurns := 2 } (by decide)
    exact ⟨ground, ⟨brain, brain⟩, { maxTurns := 2 }, p, ⟨map, hmap⟩, hopen, hturn, hresult rfl⟩

end Playback

end AntContest
