import AntContest.Proofs.Game.Lifecycle
import AntContest.Proofs.Game.Settings

/-! # What an observer is shown

An observer keeps notes of its own kind.  To say what it has been shown in a run, it is given a
logbook: `Observer.logged` does what the observer does and enters every call.  The logbook makes no
difference to the run (`run_logged`).

A `Chronicle` collects the reports of all turns that have been played since a game was at some
point, whether a step has returned them or a run has shown them to its observer.

* `exists_chronicle_iff`: there is a chronicle of every sequence of operations that does not begin
  the game again.
* `Chronicle.keeps`: what every turn keeps together with its report, and what does not depend on
  the settings, holds along a chronicle. -/

namespace AntContest

namespace Game

/-- A call of an observer: the game and the report that it is shown, and what it asks for. -/
structure Call where
  game : Game
  report : TurnReport
  requests : List Request

/-- The observer with a logbook of its calls. -/
def Observer.logged {Notes : Type} (observer : Observer Notes) : Observer (Notes × List Call) :=
  fun (notes, calls) g report =>
    let (notes, requests) := observer notes g report
    ((notes, calls ++ [⟨g, report, requests⟩]), requests)

section Logged

variable {Notes : Type} {observer : Observer Notes} {notes notes' : Notes} {g g' : Game}

theorem runTurns_logged (observer : Observer Notes) (n : Nat) (notes : Notes) (calls : List Call)
    (g : Game) :
    (runTurns observer.logged n (notes, calls) g).map (fun (p : (Notes × List Call) × Game) =>
      (p.1.1, p.2)) = runTurns observer n notes g := by
  induction n generalizing notes calls g with
  | zero => rfl
  | succ n ih =>
    unfold runTurns
    split
    · rfl
    · split
      · rfl
      · generalize g.step = result
        obtain ⟨outcome, next⟩ := result
        cases outcome with
        | error e => rfl
        | ok report => exact ih _ _ _

/-- The logbook makes no difference to a run. -/
theorem run_logged (g : Game) (observer : Observer Notes) (notes : Notes) (calls : List Call) :
    (g.run observer.logged (notes, calls)).map (fun (p : (Notes × List Call) × Game) =>
      (p.1.1, p.2)) = g.run observer notes := by
  unfold run
  split
  · rfl
  · exact runTurns_logged observer _ notes calls g

theorem exists_run_logged (h : g.run observer notes = .ok (notes', g')) :
    ∃ calls, g.run observer.logged (notes, []) = .ok ((notes', calls), g') := by
  have hlogged := g.run_logged observer notes []
  rw [h] at hlogged
  cases hrun : g.run observer.logged (notes, []) with
  | error e =>
    rw [hrun] at hlogged
    cases hlogged
  | ok result =>
    rw [hrun] at hlogged
    obtain ⟨⟨notes₁, calls⟩, g₁⟩ := result
    cases hlogged
    exact ⟨calls, rfl⟩

end Logged

/-! ### Chronicles -/

/-- A game has come to where it is by operations that did not begin it again, and these are the
reports of the turns that were played on the way. -/
inductive Chronicle (start : Game) : List TurnReport → Game → Prop
  | start : Chronicle start [] start
  | step {reports : List TurnReport} {g : Game} : Chronicle start reports g →
      Chronicle start (reports ++ g.step.1.toOption.toList) g.step.2
  | run {reports : List TurnReport} {g g' : Game} {Notes : Type} {observer : Observer Notes}
      {notes notes' : Notes} {calls : List Call} : Chronicle start reports g →
      g.run observer.logged (notes, []) = .ok ((notes', calls), g') →
      Chronicle start (reports ++ calls.map (·.report)) g'
  | setConfig {reports : List TurnReport} {g : Game} (config : Config) :
      Chronicle start reports g → Chronicle start reports (g.setConfig config)
  | request {reports : List TurnReport} {g : Game} (r : Request) :
      Chronicle start reports g → Chronicle start reports (g.request r)

/-- There is a chronicle of all that does not begin a game. -/
theorem exists_chronicle_iff {start g : Game} :
    (∃ reports, Chronicle start reports g) ↔ Relation.ReflTransGen Continuation start g := by
  constructor
  · rintro ⟨reports, h⟩
    induction h with
    | start => exact .refl
    | step _ ih => exact ih.tail .step
    | run _ hrun ih => exact ih.tail (.run hrun)
    | setConfig config _ ih => exact ih.tail (.setConfig config)
    | request r _ ih => exact ih.tail (.request r)
  · intro h
    induction h with
    | refl => exact ⟨[], .start⟩
    | tail _ hop ih =>
      obtain ⟨reports, h⟩ := ih
      cases hop with
      | step => exact ⟨_, h.step⟩
      | run hrun =>
        obtain ⟨calls, hlogged⟩ := exists_run_logged hrun
        exact ⟨_, h.run hlogged⟩
      | setConfig config => exact ⟨_, h.setConfig config⟩
      | request r => exact ⟨_, h.request r⟩

/-- What a turn keeps with its report, and what does not depend on the settings, holds along a
chronicle. -/
theorem Chronicle.keeps {I : List TurnReport → Game → Prop}
    (hturn : ∀ reports g teams, g.phase = .running → g.teams? = some teams →
      I reports g → I (reports ++ [(g.playTurn teams).1]) (g.playTurn teams).2)
    (hsame : ∀ reports g g', SamePlay g g' → I reports g → I reports g')
    {start g : Game} {reports : List TurnReport} (h : Chronicle start reports g)
    (hstart : I [] start) : I reports g := by
  have hplayed (reports : List TurnReport) (g : Game) (report : TurnReport)
      (hok : g.step.1 = .ok report) (hg : I reports g) : I (reports ++ [report]) g.step.2 := by
    obtain ⟨teams, hphase, hteams, -, rfl, hnext⟩ := played_of_ok hok
    rw [hnext]
    exact hturn reports g teams hphase hteams hg
  induction h with
  | start => exact hstart
  | @step reports g _ ih =>
    cases hok : g.step.1 with
    | ok report => exact hplayed reports g report hok ih
    | error e =>
      rw [show reports ++ (Except.error e : Except PlayError TurnReport).toOption.toList = reports
        from List.append_nil reports]
      exact hsame _ _ _ (samePlay_of_error hok) ih
  | @run reports g g' Notes observer notes notes' calls _ hrun ih =>
    -- The invariant speaks of the reports before the run and of those in the logbook so far.
    unfold Game.run at hrun
    split at hrun
    · cases hrun
    · refine runTurns_keeps_notes
        (I := fun (p : Notes × List Call) g => I (reports ++ p.2.map (·.report)) g)
        (fun p g report hok hg => ?_) (fun _ g e he hg => hsame _ _ _ (samePlay_of_error he) hg)
        hrun (by rwa [List.map_nil, List.append_nil])
      have hnext := hsame _ _ _
        (samePlay_requests g.step.2 (observer.logged p g.step.2 report).2)
        (hplayed _ g report hok hg)
      rw [List.append_assoc] at hnext
      dsimp only [Observer.logged] at hnext ⊢
      rw [List.map_append]
      exact hnext
  | setConfig config _ ih => exact hsame _ _ _ (samePlay_setConfig _ config) ih
  | request r _ ih => exact hsame _ _ _ (samePlay_request _ r) ih

end Game

end AntContest
