import AntContest.Command.Execute
import AntContest.Proofs.Recording.TimeTravel
import AntContest.Proofs.Recording.Wording

/-! # The transcript of a recording

A transcript is written turn by turn, and goes on until the game is over or cannot be stepped.
`Told` is that loop as it stands, with its two ways to end and without a bound on its turns.

* `Underway.told_iff`: of a game on its way to its limit the loop tells one text, and so it ends.
* `Underway.transcriptFrom_eq`: that text is also what `transcriptFrom` writes, however many turns
  it may play beyond those that are left.
* `turns_shown_once`: hence a recording that can be opened is told by one picture for each turn
  that is asked for, and for the last one. -/

namespace AntContest

namespace Playback

/-- The picture of a game, if it is shown. -/
def glimpse (every : Nat) (g : Game) : String := if isShown every g then frame g else ""

/-- What the loop of a transcript tells from a game on. -/
inductive Told (every : Nat) : Game → String → Prop
  | finished {g : Game} : g.phase = .finished → Told every g (glimpse every g ++ transcriptEnd)
  | refused {g g' : Game} {e : PlayError} : g.phase ≠ .finished → g.step = (.error e, g') →
      Told every g (glimpse every g ++ transcriptEnd)
  | played {g g' : Game} {report : TurnReport} {text : String} : g.phase ≠ .finished →
      g.step = (.ok report, g') → Told every g' text → Told every g (glimpse every g ++ text)

/-- The pictures of a game and of the games after up to `n` steps, and the end. -/
def story (every n : Nat) (g : Game) : String :=
  String.join ((List.range (n + 1)).map fun i => glimpse every (g.steps i)) ++ transcriptEnd

theorem story_zero (every : Nat) (g : Game) :
    story every 0 g = glimpse every g ++ transcriptEnd := by
  rw [story, List.range_one, List.map_singleton, String.join_cons, String.join_nil,
    String.append_empty]
  rfl

theorem story_succ (every n : Nat) (g : Game) :
    story every (n + 1) g = glimpse every g ++ story every n g.step.2 := by
  rw [story, List.range_succ_eq_map, List.map_cons, List.map_map, String.join_cons,
    String.append_assoc]
  rfl

theorem ite_append_glimpse (every : Nat) (g : Game) (written : String) :
    (if isShown every g then written ++ frame g else written) = written ++ glimpse every g := by
  unfold glimpse
  split
  · rfl
  · exact String.append_empty.symm

end Playback

namespace Game.Underway

open Playback

variable {limit : Nat} {g : Game}

theorem phase_eq_finished_iff (h : Underway limit g) : g.phase = .finished ↔ g.turn = limit := by
  have hle := h.turn_le
  rw [h.phase_eq]
  split
  · simp only [reduceCtorEq, false_iff]
    omega
  · simp only [true_iff]
    omega

/-- The loop ends at the limit, and it tells the turns that were left. -/
theorem told_iff (h : Underway limit g) {every : Nat} {text : String} :
    Told every g text ↔ text = story every (limit - g.turn) g := by
  generalize hleft : limit - g.turn = left
  induction left generalizing g text with
  | zero =>
    have hfinished : g.phase = .finished := by
      have hle := h.turn_le
      exact h.phase_eq_finished_iff.mpr (by omega)
    rw [story_zero]
    constructor
    · intro htold
      cases htold with
      | finished _ => rfl
      | refused hphase _ => exact absurd hfinished hphase
      | played hphase _ _ => exact absurd hfinished hphase
    · rintro rfl
      exact .finished hfinished
  | succ left ih =>
    have hlt : g.turn < limit := by omega
    have hphase : g.phase ≠ .finished := fun hfinished => by
      have := h.phase_eq_finished_iff.mp hfinished
      omega
    obtain ⟨⟨report, hreport⟩, hnext, hturn⟩ := h.step_of_lt hlt
    have hstep : g.step = (.ok report, g.step.2) := Prod.ext hreport rfl
    have hrest (rest : String) : Told every g.step.2 rest ↔ rest = story every left g.step.2 :=
      ih hnext (by omega)
    rw [story_succ]
    constructor
    · intro htold
      cases htold with
      | finished hfinished => exact absurd hfinished hphase
      | refused _ hrefused => rw [hstep] at hrefused; cases hrefused
      | played _ hplayed htold =>
        rw [hstep] at hplayed
        cases hplayed
        rw [(hrest _).mp htold]
    · rintro rfl
      exact .played hphase hstep ((hrest _).mpr rfl)

/-- What is written is what the loop tells, if as many turns may be played as are left. -/
theorem transcriptFrom_eq (h : Underway limit g) (every : Nat) {n : Nat} (hn : limit - g.turn ≤ n)
    (written : String) :
    transcriptFrom every n g written = written ++ story every (limit - g.turn) g := by
  induction n generalizing g written with
  | zero =>
    rw [transcriptFrom, ite_append_glimpse, Nat.le_zero.mp hn, story_zero, String.append_assoc]
  | succ n ih =>
    rw [transcriptFrom, ite_append_glimpse]
    rcases Nat.lt_or_eq_of_le h.turn_le with hlt | heq
    · obtain ⟨⟨report, hreport⟩, hnext, hturn⟩ := h.step_of_lt hlt
      have hstep : g.step = (.ok report, g.step.2) := Prod.ext hreport rfl
      have hleft : limit - g.turn = limit - g.step.2.turn + 1 := by omega
      rw [hstep]
      dsimp only
      rw [ih hnext (by omega), hleft, story_succ, String.append_assoc]
    · rw [h.step_of_eq heq, heq, Nat.sub_self, story_zero, String.append_assoc]

end Game.Underway

namespace Playback

/-! ### The turns that are shown -/

/-- The turns from one to the last, as far as they are shown. -/
def shownTurns (every first last : Nat) : List Nat :=
  (List.range' first (last + 1 - first)).filter fun t => t % every == 0 || t == last

theorem pairwise_shownTurns (every first last : Nat) :
    (shownTurns every first last).Pairwise (· < ·) :=
  List.Pairwise.sublist List.filter_sublist (List.pairwise_lt_range' 1)

theorem mem_shownTurns {every first last t : Nat} : t ∈ shownTurns every first last ↔
    first ≤ t ∧ t ≤ last ∧ (every ∣ t ∨ t = last) := by
  rw [shownTurns, List.mem_filter, List.mem_range'_1, Bool.or_eq_true, beq_iff_eq, beq_iff_eq,
    Nat.dvd_iff_mod_eq_zero]
  omega

theorem join_map_ite {α : Type} (q : α → Bool) (f : α → String) (l : List α) :
    String.join (l.map fun a => if q a then f a else "") = String.join ((l.filter q).map f) := by
  induction l with
  | nil => rfl
  | cons a l ih =>
    rw [List.map_cons, String.join_cons, ih, List.filter_cons]
    split
    · rw [List.map_cons, String.join_cons]
    · exact String.empty_append

variable {ground : Ground} {teams : Teams} {config : Config}

theorem glimpse_steps_start {every t : Nat} (ht : t ≤ config.maxTurns.toNat) :
    glimpse every ((start ground teams config).steps t) =
      if t % every == 0 || t == config.maxTurns.toNat then
        s!"=== Turn {t} ===\n" ++ ((start ground teams config).steps t).render ++ "\n"
      else "" := by
  have hturn : ((start ground teams config).steps t).turn = t :=
    (Game.turn_steps_begin (.load ground config) teams t).trans (Nat.min_eq_left ht)
  have hunderway := ((Game.underway_begin (.load ground config) teams).steps t).1
  have hover : (((start ground teams config).steps t).phase == .finished) =
      (t == config.maxTurns.toNat) := by
    rw [Bool.eq_iff_iff, beq_iff_eq, beq_iff_eq]
    refine hunderway.phase_eq_finished_iff.trans ?_
    rw [show (((Game.load ground config).begin teams).steps t).turn = t from hturn]
    rfl
  rw [glimpse, isShown, frame, hturn, hover]

/-- The story of a game from a turn on is told by one picture for each turn that is shown. -/
theorem story_steps_start (ground : Ground) (teams : Teams) (every : Nat) {first : Nat}
    (hfirst : first ≤ config.maxTurns.toNat) :
    story every (config.maxTurns.toNat - first) ((start ground teams config).steps first) =
      String.join ((shownTurns every first config.maxTurns.toNat).map fun t =>
        s!"=== Turn {t} ===\n" ++ ((start ground teams config).steps t).render ++ "\n") ++
      transcriptEnd := by
  have hcount : config.maxTurns.toNat - first + 1 = config.maxTurns.toNat + 1 - first := by omega
  rw [story, shownTurns, ← join_map_ite, List.range'_eq_map_range, List.map_map, hcount]
  congr 2
  refine List.map_congr_left fun i hi => ?_
  have hi := List.mem_range.mp hi
  rw [← Game.steps_add, Function.comp_apply]
  exact glimpse_steps_start (by omega)

end Playback

/-! ### The command -/

namespace Session

variable {ε ε' α β : Type} {s s' : Session}

theorem run_adapt (f : ε → ε') (x : ExceptT ε (StateM Session) α) (s : Session) :
    (x.adapt f).run.run s = ((x.run.run s).1.mapError f, (x.run.run s).2) := rfl

theorem run_bind_of_ok {x : ExceptT ε (StateM Session) α} {a : α}
    (h : x.run.run s = (.ok a, s')) (f : α → ExceptT ε (StateM Session) β) :
    (x >>= f).run.run s = (f a).run.run s' := by
  rw [ExceptT.run_bind, StateT.run_bind, h]
  rfl

def replay (s : Session) (path : String) (turn? : Option UInt32) (every : UInt32) :
    Except CommandError Unit × Session :=
  (Command.executeReplay path .text turn? every :
    ExceptT CommandError (StateM Session) Unit).run.run s

theorem replay_of_load {path : String} {r : Recording} {p : Playback} {turn? : Option UInt32}
    (hload : s.load path = (.ok r, s'))
    (hopen : Playback.openAt r (turn?.getD 0).toNat = .ok p) (every : UInt32) :
    s.replay path turn? every =
      (.ok (), { s' with output := s'.output ++ p.transcript every.toNat }) := by
  have hrecording : ((loadRecording path : ExceptT RecordingFileError (StateM Session)
      Recording).adapt (CommandError.replayFile path)).run.run s = (.ok r, s') := by
    rw [run_adapt, show (loadRecording path : ExceptT RecordingFileError (StateM Session)
      Recording).run.run s = (.ok r, s') from hload]
    rfl
  rw [replay, Command.executeReplay, run_bind_of_ok hrecording, hopen]
  rfl

end Session

namespace Playback

/-- A recording that can be opened is told by its loop, which ends: with one picture of every turn
from the present one to the last that is a multiple of `every` or the last, in increasing order,
each of the fresh game after so many steps, and then with the end, once.  That is what the command
prints, behind the head. -/
theorem turns_shown_once {r : Recording} {turn? : Option UInt32} {p : Playback}
    (h : openAt r (turn?.getD 0).toNat = .ok p) (every : UInt32) :
    ∃ ground red black, Ground.readMap r.map = .ok ground ∧ r.red.read = .ok red ∧
      r.black.read = .ok black ∧ ∃ (turns : List Nat) (told : String),
      turns.Pairwise (· < ·) ∧
      (∀ t, t ∈ turns ↔ min (turn?.getD 0).toNat r.config.maxTurns.toNat ≤ t ∧
        t ≤ r.config.maxTurns.toNat ∧ (max 1 every.toNat ∣ t ∨ t = r.config.maxTurns.toNat)) ∧
      told = String.join (turns.map fun t => s!"=== Turn {t} ===\n" ++
        (((Game.load ground r.config).begin ⟨red, black⟩).steps t).render ++ "\n") ++
        "=== GAME OVER ===\n" ∧
      (∀ text, Told (max 1 every.toNat) p.game text ↔ text = told) ∧
      p.transcript every.toNat = transcriptHead r ++ told ∧
      ∀ (s s' : Session) path, s.load path = (.ok r, s') → s.replay path turn? every =
        (.ok (), { s' with output := s'.output ++ (transcriptHead r ++ told) }) := by
  obtain ⟨ground, red, black, hground, hred, hblack, rfl⟩ := openAt_eq_ok.mp h
  let fresh := start ground ⟨red, black⟩ r.config
  let first := min (turn?.getD 0).toNat r.config.maxTurns.toNat
  have hbegin : Game.Underway r.config.maxTurns.toNat fresh :=
    Game.underway_begin (.load ground r.config) ⟨red, black⟩
  have hfirst : fresh.steps (turn?.getD 0).toNat = fresh.steps first := hbegin.steps_min _
  have hunderway := (hbegin.steps (turn?.getD 0).toNat).1
  have hturn : (fresh.steps (turn?.getD 0).toNat).turn = first :=
    Game.turn_steps_begin (.load ground r.config) ⟨red, black⟩ _
  have hstory := story_steps_start ground ⟨red, black⟩ (max 1 every.toNat)
    (Nat.min_le_right (turn?.getD 0).toNat r.config.maxTurns.toNat)
  have htranscript : transcript ⟨r, ground, ⟨red, black⟩, fresh.steps (turn?.getD 0).toNat⟩
      every.toNat = transcriptHead r ++
        story (max 1 every.toNat) (r.config.maxTurns.toNat - first) (fresh.steps first) := by
    rw [transcript, hunderway.transcriptFrom_eq _ ?_, hturn, hfirst]
    rw [Game.turnsLeft, hunderway.limit_eq]
    exact Nat.le_succ _
  refine ⟨ground, red, black, hground, hred, hblack,
    shownTurns (max 1 every.toNat) first r.config.maxTurns.toNat, _, pairwise_shownTurns _ _ _,
    fun _ => mem_shownTurns, hstory, fun text => ?_, htranscript, fun s s' path hload => ?_⟩
  · refine hunderway.told_iff.trans ?_
    rw [hturn, hfirst]
  · rw [← htranscript]
    exact Session.replay_of_load hload h every

/-- For example a recording of four turns from its first turn on, with every third turn. -/
theorem third_turns_of_four_shown :
    ∃ (r : Recording) (p : Playback) (turns : List Nat) (told : String),
      openAt r ((some 1 : Option UInt32).getD 0).toNat = .ok p ∧
      turns.Pairwise (· < ·) ∧ (∀ t, t ∈ turns ↔ t = 3 ∨ t = 4) ∧
      Told 3 p.game told ∧ p.transcript 3 = transcriptHead r ++ told := by
  let r : Recording := ⟨"3\n3\n# # #\n # + #\n# # #\n", ⟨"left", "turn left 0\n"⟩,
    ⟨"ahead", "move 0 0\n"⟩, { maxTurns := 4 }⟩
  have hopen : (openAt r 1).isOk = true := by decide +kernel
  cases h : openAt r 1 with
  | error e =>
    rw [h] at hopen
    cases hopen
  | ok p =>
    have h : openAt r ((some 1 : Option UInt32).getD 0).toNat = .ok p := h
    obtain ⟨_, _, _, -, -, -, turns, told, hsorted, hturns, -, htold, htranscript, -⟩ :=
      turns_shown_once h 3
    refine ⟨r, p, turns, told, h, hsorted, fun t => ?_, (htold told).mpr rfl, htranscript⟩
    rw [hturns t]
    show min 1 4 ≤ t ∧ t ≤ 4 ∧ (3 ∣ t ∨ t = 4) ↔ t = 3 ∨ t = 4
    omega

end Playback

end AntContest
