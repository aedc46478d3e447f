import AntContest.Proofs.Game.Course
import Mathlib.Logic.Function.Iterate

/-! # A game that is only stepped

A game that has begun and is then stepped, and nothing else, is `Underway`: nobody has asked for
its end, so it is in play below its limit of turns and over at the limit.  Below the limit a step
plays a turn, and at the limit it is refused and leaves the game as it is.

* `settings_steps`: steps change neither the parameters nor the brains nor the requests.
* `Underway.steps`: steps keep a game underway, and `n` of them lead `n` turns on, or to the limit
  (`turn_steps_begin` for a game that has just begun).
* `Underway.stepMany_eq_steps`: playing at most `n` turns is making `n` steps; so playing to the
  end is a number of steps as well (`Underway.play_eq_steps`), and it does lead to the end
  (`Underway.phase_play`). -/

namespace AntContest

namespace Game

def steps (g : Game) (n : Nat) : Game := (fun g => g.step.2)^[n] g

theorem steps_succ (g : Game) (n : Nat) : g.steps (n + 1) = (g.steps n).step.2 :=
  Function.iterate_succ_apply' _ n g

theorem steps_succ_first (g : Game) (n : Nat) : g.steps (n + 1) = g.step.2.steps n := rfl

theorem steps_add (g : Game) (m n : Nat) : g.steps (m + n) = (g.steps m).steps n := by
  rw [steps, Nat.add_comm, Function.iterate_add_apply]
  rfl

theorem course_steps (g : Game) (n : Nat) : Course g (g.steps n) := by
  induction n with
  | zero => exact .refl
  | succ n ih =>
    rw [steps_succ]
    exact ih.tail .step

/-- A step changes neither the parameters nor the brains, and it leaves the requests alone. -/
theorem settings_step (g : Game) :
    g.step.2.config = g.config ∧ g.step.2.teams? = g.teams? ∧ g.step.2.flags = g.flags := by
  generalize hresult : g.step = result
  have hstep := stepResult_step g
  rw [hresult] at hstep
  cases hstep with
  | refused e _ => exact ⟨rfl, rfl, rfl⟩
  | stopped _ _ => exact ⟨rfl, rfl, rfl⟩
  | @played teams _ _ _ =>
    have hframe := Frame.playTurn g teams
    exact ⟨hframe.config, hframe.teams, hframe.flags⟩

theorem settings_steps (g : Game) (n : Nat) :
    (g.steps n).config = g.config ∧ (g.steps n).teams? = g.teams? ∧
      (g.steps n).flags = g.flags := by
  induction n with
  | zero => exact ⟨rfl, rfl, rfl⟩
  | succ n ih =>
    obtain ⟨hconfig, hteams, hflags⟩ := settings_step (g.steps n)
    rw [steps_succ, hconfig, hteams, hflags]
    exact ih

theorem config_steps (g : Game) (n : Nat) : (g.steps n).config = g.config :=
  (settings_steps g n).1

/-- The game is on its way to a limit of turns, or it has arrived there. -/
structure Underway (limit : Nat) (g : Game) : Prop where
  begun : g.teams?.isSome
  limit_eq : g.config.maxTurns.toNat = limit
  unasked : g.flags.stopped = false
  turn_le : g.turn ≤ limit
  phase_eq : g.phase = if g.turn < limit then .running else .finished

theorem underway_begin (g : Game) (teams : Teams) :
    Underway g.config.maxTurns.toNat (g.begin teams) where
  begun := rfl
  limit_eq := rfl
  unasked := rfl
  turn_le := Nat.zero_le _
  phase_eq := by
    have hzero : g.config.maxTurns = 0 ↔ ¬ 0 < g.config.maxTurns.toNat := by
      rw [← UInt32.toNat_inj, UInt32.toNat_zero]
      omega
    show (if g.config.maxTurns = 0 then Phase.finished else .running) =
      if 0 < g.config.maxTurns.toNat then .running else .finished
    split <;> split <;> simp_all

namespace Underway

variable {limit : Nat} {g : Game}

theorem step_of_lt (h : Underway limit g) (hlt : g.turn < limit) :
    (∃ report, g.step.1 = .ok report) ∧ Underway limit g.step.2 ∧
      g.step.2.turn = g.turn + 1 := by
  have hphase : g.phase = .running := h.phase_eq.trans (if_pos hlt)
  generalize hresult : g.step = result
  have hstep := stepResult_step g
  rw [hresult] at hstep
  cases hstep with
  | refused e hrefused =>
    have hbegun := h.begun
    rw [hrefused hphase] at hbegun
    cases hbegun
  | stopped _ hstopped =>
    rw [h.unasked] at hstopped
    cases hstopped
  | @played teams _ _ _ =>
    have hframe := Frame.playTurn g teams
    have hturn : (g.playTurn teams).2.turn = g.turn + 1 := hframe.turn
    refine ⟨⟨_, rfl⟩, ⟨?_, ?_, ?_, ?_, ?_⟩, hturn⟩
    · rw [hframe.teams]
      exact h.begun
    · rw [hframe.config]
      exact h.limit_eq
    · rw [hframe.flags]
      exact h.unasked
    · rw [hturn]
      exact hlt
    · refine hframe.phase.trans ?_
      rw [hturn, h.limit_eq, hphase]
      by_cases hlast : limit ≤ g.turn + 1
      · rw [if_pos hlast, if_neg (by omega)]
      · rw [if_neg hlast, if_pos (by omega)]

theorem step_of_eq (h : Underway limit g) (heq : g.turn = limit) :
    g.step = (.error .finished, g) := by
  have hphase : g.phase = .finished := h.phase_eq.trans (if_neg (by omega))
  exact step_of_finished hphase

/-- Steps keep a game underway, and the limit is where they end. -/
theorem steps (h : Underway limit g) (n : Nat) :
    Underway limit (g.steps n) ∧ (g.steps n).turn = min (g.turn + n) limit := by
  induction n with
  | zero => exact ⟨h, (Nat.min_eq_left h.turn_le).symm⟩
  | succ n ih =>
    obtain ⟨hn, hturn⟩ := ih
    rw [steps_succ]
    rcases Nat.lt_or_eq_of_le hn.turn_le with hlt | heq
    · obtain ⟨-, hnext, hsucc⟩ := hn.step_of_lt hlt
      exact ⟨hnext, by omega⟩
    · have hstay : (g.steps n).step.2 = g.steps n := congrArg Prod.snd (hn.step_of_eq heq)
      rw [hstay]
      exact ⟨hn, by omega⟩

theorem steps_of_eq (h : Underway limit g) (heq : g.turn = limit) (n : Nat) : g.steps n = g := by
  induction n with
  | zero => rfl
  | succ n ih => rw [steps_succ, ih, h.step_of_eq heq]

/-- Only the steps up to the limit count. -/
theorem steps_min (h : Underway limit g) (n : Nat) :
    g.steps n = g.steps (min n (limit - g.turn)) := by
  rcases Nat.le_total n (limit - g.turn) with hle | hle
  · rw [Nat.min_eq_left hle]
  · obtain ⟨k, rfl⟩ := Nat.exists_eq_add_of_le hle
    obtain ⟨hlast, hturn⟩ := h.steps (limit - g.turn)
    have hle := h.turn_le
    rw [Nat.min_eq_right (by omega), steps_add, hlast.steps_of_eq (by omega)]

theorem stepMany_eq_steps (h : Underway limit g) (n : Nat) : stepMany n g = g.steps n := by
  induction n generalizing g with
  | zero => rfl
  | succ n ih =>
    rcases Nat.lt_or_eq_of_le h.turn_le with hlt | heq
    · obtain ⟨⟨report, hreport⟩, hnext, -⟩ := h.step_of_lt hlt
      have hstep : g.step = (.ok report, g.step.2) := Prod.ext hreport rfl
      rw [steps_succ_first, ← ih hnext, stepMany, hstep]
    · rw [h.steps_of_eq heq, stepMany, h.step_of_eq heq]

/-- Playing to the end is making the steps that are left. -/
theorem play_eq_steps (h : Underway limit g) : g.play = g.steps (limit - g.turn) := by
  rw [play, h.stepMany_eq_steps, turnsLeft, h.limit_eq, h.steps_min, Nat.min_eq_right (by omega)]

theorem phase_play (h : Underway limit g) : g.play.phase = .finished := by
  have hle := h.turn_le
  obtain ⟨hlast, hturn⟩ := h.steps (limit - g.turn)
  rw [h.play_eq_steps, hlast.phase_eq, if_neg (by omega)]

end Underway

theorem turn_steps_begin (g : Game) (teams : Teams) (n : Nat) :
    ((g.begin teams).steps n).turn = min n g.config.maxTurns.toNat := by
  have hturn := ((underway_begin g teams).steps n).2
  rwa [show (g.begin teams).turn = 0 from rfl, Nat.zero_add] at hturn

end Game

end AntContest
