import AntContest.Proofs.Game.Casualties
import AntContest.Proofs.Game.Diary

/-! # The counters of a game fit their words

Turns, rests and deaths are kept as 32-bit words and the food at the beginning as a 64-bit one, but
here they are natural numbers.  It makes no difference: no sum is as large as its word.

* A turn is played below the limit only, which is a word itself (`turn_lt_of_course`).
* A rest begins with a parameter of the game, which is one too, and then it grows shorter
  (`resting_lt_of_course`).
* Every death that is counted is that of another ant (`tolled_of_course`), so the two counters of
  deaths are bounded by the ants, and these by the hills.
* `fitsWords_of_course`: hence all counters fit, on every ground of fewer than `2 ^ 32` cells. -/

namespace AntContest

namespace Game

/-! ### Turns -/

theorem turn_step_lt {g : Game} (hlimit : WithinLimit g) (h : g.turn < 2 ^ 32) :
    g.step.2.turn < 2 ^ 32 := by
  have hstep := stepResult_step g
  generalize g.step = result at hstep
  cases hstep with
  | refused _ _ => exact h
  | stopped _ _ => exact h
  | @played teams hphase _ _ =>
    have hbefore : g.turn < g.config.maxTurns.toNat := hlimit hphase
    have hbound := g.config.maxTurns.toNat_lt
    rw [(Frame.playTurn g teams).turn]
    show g.turn + 1 < 2 ^ 32
    omega

/-- The turns that have been played fit a word, also if the limit has been lowered since. -/
theorem turn_lt_of_course {ground : Ground} {config : Config} {g : Game}
    (h : Course (load ground config) g) : g.turn < 2 ^ 32 := by
  have hkept : WithinLimit g ∧ g.turn < 2 ^ 32 := by
    induction h with
    | refl => exact ⟨fun hrunning => (nomatch hrunning), Nat.two_pow_pos 32⟩
    | tail _ hop ih =>
      refine hop.keeps (I := fun g => WithinLimit g ∧ g.turn < 2 ^ 32)
        (fun g teams => ⟨.begin g teams, Nat.two_pow_pos 32⟩)
        (fun g hg => ⟨hg.1.step, turn_step_lt hg.1 hg.2⟩)
        (fun g config hg => ⟨.setConfig g config, ?_⟩)
        (fun g r hg => ⟨hg.1.request r, hg.2⟩) ih
      rw [(samePlay_setConfig g config).turn]
      exact hg.2
  exact hkept.2

theorem turn_report_lt {ground : Ground} {config : Config} {g : Game} {report : TurnReport}
    (h : Course (load ground config) g) (hok : g.step.1 = .ok report) : report.turn < 2 ^ 32 := by
  obtain ⟨hreport, hturn, -⟩ := (stepLaws_of_begun (begun_of_running h)).of_ok report hok
  rw [hreport, ← hturn]
  exact turn_lt_of_course (h.tail .step)

/-! ### Rests -/

theorem resting_playTurn_lt {g : Game}
    (h : ∀ (i : Nat) (ant : Ant), g.ants[i]? = some ant → ant.resting < 2 ^ 32) (teams : Teams)
    (i : Nat) (ant : Ant) (hant : (g.playTurn teams).2.ants[i]? = some ant) :
    ant.resting < 2 ^ 32 := by
  have hi : i < g.ants.size := by
    rw [← (Frame.playTurn g teams).size]
    exact (Array.getElem?_eq_some_iff.mp hant).1
  obtain ⟨before, hbefore⟩ : ∃ before, g.ants[i]? = some before :=
    ⟨_, Array.getElem?_eq_getElem hi⟩
  obtain ⟨after, hafter, hday⟩ := day_of_turn hbefore teams
  rw [getElem?_ants_playTurn, hafter] at hant
  split at hant
  · obtain rfl : after.fallen = ant := Option.some.inj hant
    exact Nat.two_pow_pos 32
  · obtain rfl : after = ant := Option.some.inj hant
    have hrest : max before.resting g.config.restAfterMove.toNat < 2 ^ 32 :=
      Nat.max_lt.mpr ⟨h i before hbefore, g.config.restAfterMove.toNat_lt⟩
    exact Nat.lt_of_le_of_lt hday.resting_le hrest

theorem resting_lt_of_course {ground : Ground} {config : Config} {g : Game}
    (h : Course (load ground config) g) :
    ∀ (i : Nat) (ant : Ant), g.ants[i]? = some ant → ant.resting < 2 ^ 32 := by
  refine h.keeps_play
    (I := fun g => ∀ (i : Nat) (ant : Ant), g.ants[i]? = some ant → ant.resting < 2 ^ 32)
    (fun _ _ hant => nomatch hant) ?_ (fun _ teams _ hg => resting_playTurn_lt hg teams)
    fun _ _ _ _ hg => hg
  intro g teams _ i ant hant
  obtain ⟨p, colony, -, rfl⟩ := getElem?_newborns.mp hant
  exact Nat.two_pow_pos 32

/-! ### All counters -/

theorem initialFood_of_course {ground : Ground} {config : Config} {g : Game}
    (h : Course (load ground config) g) : g.initialFood = ground.totalFood := by
  refine h.keeps_play (I := fun g => g.initialFood = ground.totalFood) rfl ?_ ?_
    fun _ _ _ _ hfood => hfood
  · intro g teams hhome
    exact (balanced_begin g teams).initialFood_eq.trans (congrArg Ground.totalFood hhome)
  · intro g teams _ hfood
    exact (Frame.playTurn g teams).initialFood.trans hfood

/-- All that a game counts fits the words that it is kept in: 64 bits for the food at the beginning,
and 32 bits for the rest. -/
structure FitsWords (g : Game) : Prop where
  turn_lt : g.turn < 2 ^ 32
  resting_lt : ∀ (i : Nat) (ant : Ant), g.ants[i]? = some ant → ant.resting < 2 ^ 32
  deaths_lt : g.encircled + g.faulted < 2 ^ 32
  initialFood_lt : g.initialFood < 2 ^ 64

/-- Whatever has been done with a game on a ground of fewer than `2 ^ 32` cells, no counter has
overflowed. -/
theorem fitsWords_of_course {ground : Ground} {config : Config} {g : Game}
    (hcells : ground.cells.size < 2 ^ 32) (h : Course (load ground config) g) : FitsWords g := by
  refine ⟨turn_lt_of_course h, resting_lt_of_course h, ?_, ?_⟩
  · obtain ⟨reports, htolled⟩ := tolled_of_course h
    have hdeaths := htolled.balance
    have hsize := size_ants_le_of_course h
    have hhills := ground.length_hills_le
    omega
  · have hfood := ground.totalFood_le
    rw [initialFood_of_course h]
    omega

end Game

end AntContest
