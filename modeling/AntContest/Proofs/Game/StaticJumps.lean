import AntContest.Proofs.Game.Course
import AntContest.Proofs.Game.Roster

/-! # Faults are jumps that can be seen in the program

An ant is in the first state of its brain or in one that an instruction of it leads to
(`Brain.Entered`).  So an ant that has no instruction to follow has made a jump past the end of
its program, and that jump is one of `Brain.dangling`: a program without dangling jumps loses no
ant to a fault.

* `Guided` says that the ants of a game are in such states; every turn keeps it.
* `Game.mem_faults_slots` finds the moment at which a fault of a turn has happened.
* `static_jumps_sound`: hence what the faults of all steps of a game are. -/

namespace AntContest

namespace Brain

/-- The first state of a brain, or one that some instruction of it leads to. -/
def Entered (b : Brain) (s : StateIndex) : Prop :=
  s.val = 0 ∨ ∃ instruction ∈ b.states, s ∈ instruction.targets

theorem mem_jumps {b : Brain} {source : Nat} {target : StateIndex} :
    (source, target) ∈ b.jumps ↔
      ∃ instruction, b.states[source]? = some instruction ∧ target ∈ instruction.targets := by
  unfold jumps
  simp only [List.mem_flatMap, List.mem_map, Prod.mk.injEq, Prod.exists]
  constructor
  · rintro ⟨instruction, i, hmem, t, ht, rfl, rfl⟩
    have hget := List.mk_mem_zipIdx_iff_getElem?.mp hmem
    exact ⟨instruction, by rw [← hget, Array.getElem?_toList], ht⟩
  · rintro ⟨instruction, hget, ht⟩
    refine ⟨instruction, source, ?_, target, ht, rfl, rfl⟩
    exact List.mk_mem_zipIdx_iff_getElem?.mpr (by rw [Array.getElem?_toList, hget])

theorem mem_dangling {b : Brain} {source : Nat} {target : StateIndex} :
    (source, target) ∈ b.dangling ↔ (source, target) ∈ b.jumps ∧ b.size ≤ target.val := by
  unfold dangling
  rw [List.mem_filter, decide_eq_true_iff]

theorem size_le_of_state?_eq_none {b : Brain} {i : Nat} (h : b.state? i = none) : b.size ≤ i :=
  Array.getElem?_eq_none_iff.mp h

/-- An ant comes to a state past the end on a dangling jump only, for the first state is none. -/
theorem Entered.exists_dangling {b : Brain} {s : StateIndex} (h : b.Entered s)
    (hpast : b.size ≤ s.val) : ∃ source, (source, s) ∈ b.dangling := by
  rcases h with hfirst | ⟨instruction, hmem, htarget⟩
  · have hpos : 0 < b.size := b.size_pos
    omega
  · obtain ⟨source, hget⟩ := Array.getElem?_of_mem hmem
    exact ⟨source, mem_dangling.mpr ⟨mem_jumps.mpr ⟨instruction, hget, htarget⟩, hpast⟩⟩

end Brain

namespace Game

theorem perform_fst_mem_targets (g : Game) (i : Nat) (ant : Ant) (instruction : Instruction) :
    (g.perform i ant instruction).1 ∈ instruction.targets := by
  cases instruction with
  | sense view onTrue onFalse condition =>
    unfold perform Instruction.targets
    dsimp only
    split <;> simp
  | mark m next => exact List.mem_singleton.mpr rfl
  | unmark m next => exact List.mem_singleton.mpr rfl
  | pickUp onSuccess onFailure =>
    unfold perform Instruction.targets
    dsimp only
    split <;> simp
  | drop next =>
    unfold perform Instruction.targets
    dsimp only
    split <;> simp
  | turn side next => exact List.mem_singleton.mpr rfl
  | move onSuccess onFailure =>
    unfold perform Instruction.targets
    dsimp only
    split <;> simp
  | flip die onZero onOther =>
    unfold perform Instruction.targets
    dsimp only
    split <;> simp

/-- The ants of the second game are those of the first, in the same colonies and in the same
states. -/
def SameStates (g g' : Game) : Prop :=
  ∀ (j : Nat) (a' : Ant), g'.ants[j]? = some a' →
    ∃ a, g.ants[j]? = some a ∧ a'.colony = a.colony ∧ a'.state = a.state

namespace SameStates

variable {g g₁ g₂ : Game} {i : Nat} {ant : Ant}

theorem refl (g : Game) : SameStates g g := fun _ a ha => ⟨a, ha, rfl, rfl⟩

theorem modifyAnt (h : SameStates g g₁) {f : Ant → Ant} (hcolony : ∀ a, (f a).colony = a.colony)
    (hstate : ∀ a, (f a).state = a.state) : SameStates g (g₁.modifyAnt i f) := by
  intro j a ha
  rcases getElem?_modify_cases ha with ⟨old, -, hold, rfl⟩ | ⟨-, hold⟩
  · rw [hcolony, hstate]
    exact h j old hold
  · exact h j a hold

theorem of_deed (hdeed : Deed g i ant g₁) : SameStates g g₁ := by
  have hcell (p : Position) (f : Cell → Cell) : SameStates g (g.modifyCell p f) := refl g
  cases hdeed with
  | idle => exact refl g
  | mark f => exact hcell _ _
  | pickUp _ _ _ => exact (hcell _ _).modifyAnt (fun _ => rfl) fun _ => rfl
  | drop _ _ => exact (hcell _ _).modifyAnt (fun _ => rfl) fun _ => rfl
  | face d => exact (refl g).modifyAnt (fun _ => rfl) fun _ => rfl
  | @step target _ =>
    have hmoved : SameStates g (g.relocate i ant.position target) := by
      refine modifyAnt ?_ (fun _ => rfl) fun _ => rfl
      exact refl g
    exact hmoved.modifyAnt (fun _ => rfl) fun _ => rfl
  | draw random => exact refl g

theorem removeAnt (h : SameStates g g₁) (i : Nat) (bonus : UInt32) :
    SameStates g (g₁.removeAnt i bonus) := by
  unfold Game.removeAnt
  split
  · exact h
  · have hcell (p : Position) (f : Cell → Cell) : SameStates g (g₁.modifyCell p f) := h
    exact (hcell _ _).modifyAnt (fun _ => rfl) fun _ => rfl

theorem kill (h : SameStates g g₁) (kills : List Kill) : SameStates g (g₁.kill kills) := by
  have hbury : SameStates g (g₁.bury kills) := by
    induction kills generalizing g₁ with
    | nil => exact h
    | cons k kills ih => exact ih (h.removeAnt k.ant _)
  unfold Game.kill
  split
  · exact h
  · exact hbury

end SameStates

/-- Every ant is in a state that its brain leads to. -/
def Guided (teams : Teams) (g : Game) : Prop :=
  ∀ (i : Nat) (ant : Ant), g.ants[i]? = some ant → (teams.brain ant.colony).Entered ant.state

namespace Guided

variable {teams : Teams} {g g' : Game}

theorem of_sameStates (h : Guided teams g) (hsame : SameStates g g') : Guided teams g' := by
  intro i a' ha'
  obtain ⟨a, ha, hcolony, hstate⟩ := hsame i a' ha'
  rw [hcolony, hstate]
  exact h i a ha

theorem slot (h : Guided teams g) (i : Nat) : Guided teams (g.slot teams i).1 := by
  cases hant : g.ants[i]? with
  | none =>
    rw [slot_of_absent hant]
    exact h
  | some ant =>
    cases halive : ant.alive with
    | false =>
      rw [slot_of_dead hant halive]
      exact h
    | true =>
      rcases Nat.eq_zero_or_pos ant.resting with hrest | hrest
      · cases hstate : (teams.brain ant.colony).state? ant.state.val with
        | none =>
          rw [slot_of_fault hant halive hrest hstate]
          exact h.of_sameStates ((SameStates.refl g).removeAnt i 0)
        | some instruction =>
          rw [slot_of_instruction hant halive hrest hstate]
          have hsame := SameStates.of_deed (deed_perform g i ant instruction)
          intro j a' ha'
          rcases getElem?_modify_cases ha' with ⟨old, rfl, hold, rfl⟩ | ⟨-, hold⟩
          · obtain ⟨a, ha, hcolony, -⟩ := hsame i old hold
            obtain rfl : ant = a := Option.some.inj (hant.symm.trans ha)
            refine .inr ⟨instruction, ?_, perform_fst_mem_targets g i ant instruction⟩
            rw [show ({ old with state := _ } : Ant).colony = ant.colony from hcolony]
            exact Array.mem_of_getElem? hstate
          · exact h.of_sameStates hsame j a' hold
      · rw [slot_of_resting hant halive hrest]
        exact h.of_sameStates ((SameStates.refl g).modifyAnt (fun _ => rfl) fun _ => rfl)

theorem slots (h : Guided teams g) (is : List Nat) : Guided teams (Game.slots teams is g).1 :=
  slots_keeps (fun _ i hg => hg.slot i) is h

theorem playTurn (h : Guided teams g) : Guided teams (g.playTurn teams).2 := by
  have hslots : Guided teams (Game.slots teams (List.range g.ants.size) g).1.recount := h.slots _
  have hkill := fun kills => hslots.of_sameStates ((SameStates.refl _).kill kills)
  unfold Game.playTurn Game.endAtLimit
  dsimp only
  split <;> exact hkill _

end Guided

theorem guided_begin (g : Game) (teams : Teams) : Guided teams (g.begin teams) := by
  intro i ant hant
  obtain ⟨p, c, -, rfl⟩ := getElem?_newborns.mp hant
  exact .inl rfl

/-- In every game the ants are in states that their brains lead to. -/
theorem guided_of_course {ground : Ground} {config : Config} {g : Game}
    (h : Course (load ground config) g) {teams : Teams} (hteams : g.teams? = some teams) :
    Guided teams g := by
  refine h.keeps_play (I := fun g => ∀ teams, g.teams? = some teams → Guided teams g)
    ?_ ?_ ?_ (fun _ _ _ _ hg => hg) teams hteams
  · intro teams hteams
    cases hteams
  · intro g₁ teams₁ _ teams hteams
    obtain rfl : teams₁ = teams := Option.some.inj hteams
    exact guided_begin g₁ teams₁
  · intro g₁ teams₁ hteams₁ hg teams hteams
    rw [(Frame.playTurn g₁ teams₁).teams] at hteams
    obtain rfl : teams₁ = teams := Option.some.inj (hteams₁.symm.trans hteams)
    exact (hg teams₁ hteams₁).playTurn

/-! ### Faults -/

theorem slot_snd_eq_some {g : Game} {teams : Teams} {i : Nat} {f : Fault}
    (h : (g.slot teams i).2 = some f) :
    ∃ ant, g.ants[i]? = some ant ∧ ant.alive = true ∧
      (teams.brain ant.colony).state? ant.state.val = none ∧
      f = ⟨i, ant.position, ant.state, (teams.brain ant.colony).size⟩ := by
  generalize hresult : g.slot teams i = result at h
  have hslot := slotResult_slot g teams i
  rw [hresult] at hslot
  cases hslot with
  | absent _ => cases h
  | dead _ _ => cases h
  | resting _ _ _ => cases h
  | acted next _ _ _ _ => cases h
  | faulted hant halive _ hstate => exact ⟨_, hant, halive, hstate, (Option.some.inj h).symm⟩

/-- A fault of some slots has happened in the slot of its ant, after those in front of it. -/
theorem mem_faults_slots {teams : Teams} {is : List Nat} {g : Game} {f : Fault}
    (h : f ∈ (slots teams is g).2) :
    ∃ before after, is = before ++ f.ant :: after ∧
      ((slots teams before g).1.slot teams f.ant).2 = some f := by
  induction is generalizing g with
  | nil => cases h
  | cons i is ih =>
    rw [slots_cons] at h
    rcases List.mem_append.mp h with hfirst | hrest
    · have hslot : (g.slot teams i).2 = some f := Option.mem_toList.mp hfirst
      obtain ⟨ant, -, -, -, rfl⟩ := slot_snd_eq_some hslot
      exact ⟨[], is, rfl, hslot⟩
    · obtain ⟨before, after, rfl, hslot⟩ := ih hrest
      refine ⟨i :: before, after, rfl, ?_⟩
      rw [slots_cons]
      exact hslot

theorem eq_range_of_append {n i : Nat} {before after : List Nat}
    (h : List.range n = before ++ i :: after) : before = List.range i := by
  have hlt : before.length < n := by
    have hlength := congrArg List.length h
    rw [List.length_range, List.length_append, List.length_cons] at hlength
    omega
  have hi : before.length = i := by
    have hget := congrArg (·[before.length]?) h
    simpa [hlt] using hget
  have htake := congrArg (List.take before.length) h
  rw [List.take_range, List.take_left, Nat.min_eq_left (Nat.le_of_lt hlt), hi] at htake
  exact htake.symm

/-- What a fault says of an ant at the moment when it happens. -/
structure FaultOf (teams : Teams) (moment : Game) (f : Fault) (ant : Ant) : Prop where
  listed : moment.ants[f.ant]? = some ant
  alive : ant.alive = true
  position_eq : f.position = ant.position
  state_eq : f.state = ant.state
  programSize_eq : f.programSize = (teams.brain ant.colony).size
  pastEnd : f.programSize ≤ f.state.val
  /-- The program shows a jump to the state. -/
  dangling : ∃ source, (source, f.state) ∈ (teams.brain ant.colony).dangling

theorem Guided.faultOf {teams : Teams} {g : Game} {i : Nat} {f : Fault} (h : Guided teams g)
    (hslot : (g.slot teams i).2 = some f) : ∃ ant, FaultOf teams g f ant := by
  obtain ⟨ant, hant, halive, hstate, rfl⟩ := slot_snd_eq_some hslot
  have hpast := Brain.size_le_of_state?_eq_none hstate
  exact ⟨ant, hant, halive, rfl, rfl, rfl, hpast, (h i ant hant).exists_dangling hpast⟩

/-- However a game has been played, every state that an ant is in, also between the slots of a
turn, is the first one or a target of an instruction of its brain.  A fault that a step reports is
that of an ant which is alive when its slot comes, after the slots of the ants in front of it; the
ant has made a dangling jump of its program, so it is no ant of a colony whose program has none. -/
theorem static_jumps_sound {ground : Ground} {config : Config} {g : Game}
    (h : Course (load ground config) g) :
    (∀ teams, g.teams? = some teams → ∀ (is : List Nat) (i : Nat) (ant : Ant),
      (slots teams is g).1.ants[i]? = some ant → (teams.brain ant.colony).Entered ant.state) ∧
    ∀ (report : TurnReport) (g' : Game), g.step = (.ok report, g') →
      ∃ teams, g.teams? = some teams ∧ ∀ f ∈ report.faults,
        ∃ ant, FaultOf teams (slots teams (List.range f.ant) g).1 f ant ∧
          ∀ c, (teams.brain c).dangling = [] → ant.colony ≠ c := by
  refine ⟨fun teams hteams is => (guided_of_course h hteams).slots is, ?_⟩
  intro report g' hreport
  have hstep := stepResult_step g
  rw [hreport] at hstep
  cases hstep with
  | @played teams _ hteams _ =>
    refine ⟨teams, hteams, fun f hf => ?_⟩
    obtain ⟨before, after, hrange, hslot⟩ := mem_faults_slots hf
    rw [eq_range_of_append hrange] at hslot
    obtain ⟨ant, hfault⟩ := ((guided_of_course h hteams).slots _).faultOf hslot
    refine ⟨ant, hfault, fun c hnone hcolony => ?_⟩
    obtain ⟨source, hsource⟩ := hfault.dangling
    rw [hcolony, hnone] at hsource
    cases hsource

/-- For example a jump to state 7 of a program of one state, by which an ant is lost in the second
turn. -/
theorem lone_jump_is_dangling :
    ∃ (ground : Ground) (teams : Teams) (g : Game) (f : Fault),
      Course (load ground {}) g ∧ (teams.brain .red).jumps = [(0, ⟨7, by decide⟩)] ∧
      (∃ report, g.step.1 = .ok report ∧ f ∈ report.faults) ∧ f.state.val = 7 ∧
      ∃ ant, FaultOf teams g f ant := by
  let brain : Brain := ⟨"whirl", #[.turn .left ⟨7, by decide⟩], by decide, by decide⟩
  let ground := (Ground.walled ⟨3, by decide⟩ ⟨3, by decide⟩).modify ⟨1, 1⟩
    fun c => .fresh (.hill .red) c.food
  let g := ((load ground {}).begin ⟨brain, brain⟩).step.2
  let f : Fault := ⟨0, ⟨1, 1⟩, ⟨7, by decide⟩, 1⟩
  have hcourse : Course (load ground {}) g := .tail (.single (.begin _)) .step
  have hteams : g.teams? = some ⟨brain, brain⟩ := by decide +kernel
  have hfaults : (match g.step.1 with | .ok report => report.faults | .error _ => []) = [f] := by
    decide +kernel
  refine ⟨ground, ⟨brain, brain⟩, g, f, hcourse, by decide +kernel, ?_⟩
  clear_value g
  obtain ⟨-, hsound⟩ := static_jumps_sound hcourse
  cases hstep : g.step with
  | mk result g' =>
    rw [hstep] at hfaults
    cases result with
    | error e => cases hfaults
    | ok report =>
      have hf : f ∈ report.faults := by
        rw [show report.faults = [f] from hfaults]
        exact List.mem_singleton.mpr rfl
      obtain ⟨teams, hteams', hall⟩ := hsound report g' hstep
      obtain rfl : ⟨brain, brain⟩ = teams := Option.some.inj (hteams.symm.trans hteams')
      obtain ⟨ant, hant, -⟩ := hall f hf
      exact ⟨⟨report, rfl, hf⟩, rfl, ant, hant⟩

end Game

end AntContest
