import AntContest.Proofs.Game.Effect
import AntContest.Proofs.Game.Encirclement

/-! # The diary of a turn

In its slot an ant acts, or it does not: the dead do nothing and those at rest wait.  A turn leaves
no trace of who has acted, so the diary records it: `diary` goes through the slots as `slots` does
and has an entry for every ant that acts (`slot_of_act`), and for nobody else (`slot_of_idle`).

* `Day` lists the days that an ant can have, with what the diary says of it.
* `day_of_turn`: from the beginning of a turn to the end of its slots, every ant has one of these
  days, since the others leave it alone.  `getElem?_ants_playTurn`: then it is killed or not. -/

namespace AntContest

/-- The ant after a slot in which it does not act. -/
def Ant.doze (ant : Ant) : Ant :=
  if ant.alive then { ant with resting := ant.resting - 1 } else ant

/-- What is said in the diary of an ant that acts: the instruction that it follows, if it has any,
and whether it has moved. -/
structure Entry where
  ant : Nat
  instruction? : Option Instruction
  moved : Bool
deriving DecidableEq

namespace Game

/-- Ant `i`, if it acts in its slot: it is alive and has rested. -/
def actor? (g : Game) (i : Nat) : Option Ant :=
  g.ants[i]?.filter fun ant => ant.alive && ant.resting == 0

/-- The entry for the slot of ant `i`. -/
def record? (g : Game) (teams : Teams) (i : Nat) : Option Entry :=
  (g.actor? i).map fun ant =>
    ⟨i, nextInstruction? teams ant,
      (nextInstruction? teams ant).any (·.isMove) && (g.stepTarget? ant).isSome⟩

/-- The entries for the slots of the given ants, one after the other. -/
def diary (teams : Teams) : List Nat → Game → List Entry
  | [], _ => []
  | i :: is, g => (g.record? teams i).toList ++ diary teams is (g.slot teams i).1

/-- What the diary of the next turn says of ant `i`. -/
def entriesOf (g : Game) (teams : Teams) (i : Nat) : List Entry :=
  (diary teams (List.range g.ants.size) g).filter (·.ant == i)

/-! ### Slots -/

section Slot

variable {g : Game} {teams : Teams} {i j : Nat} {ant : Ant}

theorem actor?_eq_some_iff :
    g.actor? i = some ant ↔ g.ants[i]? = some ant ∧ ant.alive = true ∧ ant.resting = 0 := by
  simp [actor?, Option.filter_eq_some_iff]

/-- In the slot of an ant with an entry the ant acts. -/
theorem slot_of_act {g' : Game} (h : g.actor? i = some ant)
    (hact : g.act teams i ant = (g', none)) : g.slot teams i = (g', none) := by
  obtain ⟨hant, halive, hrest⟩ := actor?_eq_some_iff.mp h
  unfold slot
  simp only [hant, halive, hrest, hact, Bool.not_true, Bool.false_eq_true, if_false,
    Nat.lt_irrefl]

theorem slot_of_act_fault {g' : Game} {fault : Fault} (h : g.actor? i = some ant)
    (hact : g.act teams i ant = (g', some fault)) :
    g.slot teams i =
      ({ g'.removeAnt i 0 with faulted := (g'.removeAnt i 0).faulted + 1 }, some fault) := by
  obtain ⟨hant, halive, hrest⟩ := actor?_eq_some_iff.mp h
  unfold slot
  simp only [hant, halive, hrest, hact, Bool.not_true, Bool.false_eq_true, if_false,
    Nat.lt_irrefl]

theorem modifyAnt_congr {f f' : Ant → Ant} (h : ∀ ant, g.ants[i]? = some ant → f ant = f' ant) :
    g.modifyAnt i f = g.modifyAnt i f' := by
  have hants : g.ants.modify i f = g.ants.modify i f' := by
    refine Array.ext_getElem? fun j => ?_
    simp only [Array.getElem?_modify]
    split
    · next hij =>
      subst hij
      cases hant : g.ants[i]? with
      | none => rfl
      | some ant => exact congrArg some (h ant hant)
    · rfl
  unfold modifyAnt
  rw [hants]

theorem modifyAnt_of_eq {f : Ant → Ant} (h : ∀ ant, g.ants[i]? = some ant → f ant = ant) :
    g.modifyAnt i f = g := by
  have hants : g.ants.modify i id = g.ants := by
    refine Array.ext_getElem? fun j => ?_
    simp only [Array.getElem?_modify, Option.map_id, id_eq, ite_self]
  have hid : g.modifyAnt i f = g.modifyAnt i id := modifyAnt_congr h
  rw [hid]
  unfold modifyAnt
  rw [hants]

theorem slot_of_idle (h : g.actor? i = none) :
    g.slot teams i = (g.modifyAnt i Ant.doze, none) := by
  cases hant : g.ants[i]? with
  | none =>
    rw [slot_of_absent hant, modifyAnt_of_eq fun ant h => nomatch hant.symm.trans h]
  | some ant =>
    cases halive : ant.alive with
    | false =>
      have hdead : ∀ a, g.ants[i]? = some a → a.doze = a := fun a ha => by
        obtain rfl := Option.some.inj (hant.symm.trans ha)
        simp [Ant.doze, halive]
      rw [slot_of_dead hant halive, modifyAnt_of_eq hdead]
    | true =>
      have hrest : 0 < ant.resting := Nat.pos_of_ne_zero fun hzero =>
        nomatch h.symm.trans (actor?_eq_some_iff.mpr ⟨hant, halive, hzero⟩)
      have hdoze : ∀ a, g.ants[i]? = some a → { a with resting := a.resting - 1 } = a.doze :=
        fun a ha => by
          obtain rfl := Option.some.inj (hant.symm.trans ha)
          simp [Ant.doze, halive]
      rw [slot_of_resting hant halive hrest, modifyAnt_congr hdoze]

theorem getElem?_ants_slot (hij : i ≠ j) (g : Game) (teams : Teams) :
    (g.slot teams i).1.ants[j]? = g.ants[j]? := by
  cases hactor : g.actor? i with
  | none =>
    rw [slot_of_idle hactor]
    exact Array.getElem?_modify.trans (if_neg hij)
  | some ant =>
    have hothers := getElem?_ants_act hij g teams ant
    cases hact : g.act teams i ant with
    | mk g' fault? =>
      rw [hact] at hothers
      cases fault? with
      | none =>
        rw [slot_of_act hactor hact]
        exact hothers
      | some fault =>
        have hremove := getElem?_ants_removeAnt g' i j 0
        rw [if_neg hij] at hremove
        rw [slot_of_act_fault hactor hact]
        exact hremove.trans hothers

end Slot

/-! ### Days -/

/-- From the beginning of a turn to the end of its slots, an ant has one of these days. -/
inductive Day (rest : Nat) (teams : Teams) (i : Nat) (ant : Ant) : List Entry → Ant → Prop
  /-- It is dead or at rest. -/
  | idle : (ant.alive = true → 0 < ant.resting) → Day rest teams i ant [] ant.doze
  | faulted : ant.alive = true → ant.resting = 0 → nextInstruction? teams ant = none →
      Day rest teams i ant [⟨i, none, false⟩] ant.fallen
  | stayed {instruction : Instruction} {ant' : Ant} : ant.alive = true → ant.resting = 0 →
      nextInstruction? teams ant = some instruction → ant'.alive = true → ant'.resting = 0 →
      ant'.position = ant.position → Day rest teams i ant [⟨i, some instruction, false⟩] ant'
  | moved {instruction : Instruction} {ant' : Ant} : ant.alive = true → ant.resting = 0 →
      nextInstruction? teams ant = some instruction → ant'.alive = true → ant'.resting = rest →
      ant.position.stepsApart ant'.position = 1 →
      Day rest teams i ant [⟨i, some instruction, true⟩] ant'

namespace Day

variable {rest : Nat} {teams : Teams} {i : Nat} {ant ant' : Ant} {entries : List Entry}

/-- Only an ant that is awake moves, and then it begins to rest. -/
theorem of_moved (h : Day rest teams i ant entries ant') (hmoved : ∃ e ∈ entries, e.moved = true) :
    (ant.alive = true ∧ ant.resting = 0) ∧ (ant'.alive = true ∧ ant'.resting = rest) ∧
      ant.position.stepsApart ant'.position = 1 := by
  obtain ⟨e, he, hmoved⟩ := hmoved
  cases h with
  | idle _ => cases he
  | faulted _ _ _ =>
    rw [List.mem_singleton.mp he] at hmoved
    cases hmoved
  | stayed _ _ _ _ _ _ =>
    rw [List.mem_singleton.mp he] at hmoved
    cases hmoved
  | moved halive hrest _ halive' hrest' hstep => exact ⟨⟨halive, hrest⟩, ⟨halive', hrest'⟩, hstep⟩

/-- An ant that has not moved is where it was, and if it lives on it has one turn less to rest. -/
theorem of_still (h : Day rest teams i ant entries ant')
    (hstill : ¬ ∃ e ∈ entries, e.moved = true) :
    ant'.position = ant.position ∧
      (ant'.alive = true → ant.alive = true ∧ ant'.resting = ant.resting - 1) := by
  cases h with
  | idle _ =>
    unfold Ant.doze
    split
    · next halive => exact ⟨rfl, fun _ => ⟨halive, rfl⟩⟩
    · next hdead => exact ⟨rfl, fun halive => (hdead halive).elim⟩
  | faulted _ _ _ => exact ⟨rfl, fun halive => nomatch halive⟩
  | stayed halive hrest _ _ hrest' hposition =>
    exact ⟨hposition, fun _ => ⟨halive, by rw [hrest, hrest']⟩⟩
  | moved _ _ _ _ _ _ => exact (hstill ⟨_, List.mem_singleton_self _, rfl⟩).elim

theorem resting_le (h : Day rest teams i ant entries ant') :
    ant'.resting ≤ max ant.resting rest := by
  cases h with
  | idle _ =>
    unfold Ant.doze
    split
    · exact Nat.le_trans (Nat.sub_le ant.resting 1) (Nat.le_max_left _ _)
    · exact Nat.le_max_left _ _
  | faulted _ _ _ => exact Nat.zero_le _
  | stayed _ _ _ _ hrest' _ =>
    rw [hrest']
    exact Nat.zero_le _
  | moved _ _ _ _ hrest' _ =>
    rw [hrest']
    exact Nat.le_max_right _ _

end Day

section Day

variable {g : Game} {teams : Teams} {i j : Nat} {ant : Ant}

theorem onAnt_effect (g : Game) (ant : Ant) (instruction : Instruction) :
    (((g.effect ant instruction).onAnt ant).position =
        (g.effect ant instruction).target?.getD ant.position) ∧
      ((g.effect ant instruction).onAnt ant).resting =
        if (g.effect ant instruction).target?.isSome then g.config.restAfterMove.toNat
        else ant.resting := by
  cases instruction with
  | sense view onTrue onFalse condition => exact ⟨rfl, rfl⟩
  | mark m next => exact ⟨rfl, rfl⟩
  | unmark m next => exact ⟨rfl, rfl⟩
  | pickUp onSuccess onFailure => unfold effect; dsimp only; split <;> exact ⟨rfl, rfl⟩
  | drop next => unfold effect; dsimp only; split <;> exact ⟨rfl, rfl⟩
  | turn side next => exact ⟨rfl, rfl⟩
  | move onSuccess onFailure =>
    unfold effect
    dsimp only
    cases g.stepTarget? ant <;> exact ⟨rfl, rfl⟩
  | flip die onZero onOther => exact ⟨rfl, rfl⟩

/-- In its slot an ant has one of the days, as its entry says. -/
theorem day_of_slot (hant : g.ants[i]? = some ant) (teams : Teams) :
    ∃ ant', (g.slot teams i).1.ants[i]? = some ant' ∧
      Day g.config.restAfterMove.toNat teams i ant (g.record? teams i).toList ant' := by
  unfold record?
  cases hactor : g.actor? i with
  | none =>
    have hidle : ant.alive = true → 0 < ant.resting := fun halive =>
      Nat.pos_of_ne_zero fun hzero =>
        nomatch hactor.symm.trans (actor?_eq_some_iff.mpr ⟨hant, halive, hzero⟩)
    refine ⟨ant.doze, ?_, .idle hidle⟩
    rw [slot_of_idle hactor]
    exact (Array.getElem?_modify.trans (if_pos rfl)).trans (congrArg _ hant)
  | some other =>
    obtain ⟨hother, halive, hrest⟩ := actor?_eq_some_iff.mp hactor
    obtain rfl := Option.some.inj (hant.symm.trans hother)
    rw [Option.map_some, Option.toList_some]
    cases hnext : nextInstruction? teams ant with
    | none =>
      refine ⟨ant.fallen, ?_, .faulted halive hrest hnext⟩
      rw [slot_of_act_fault hactor (act_of_none hnext i)]
      exact (getElem?_ants_removeAnt g i i 0).trans (by rw [if_pos rfl, hant]; rfl)
    | some instruction =>
      have hlawful := lawful_effect g ant instruction
      obtain ⟨hposition, hresting⟩ := onAnt_effect g ant instruction
      have hlife := (hlawful.alive_eq ant).trans halive
      have htarget := hlawful.target_eq
      rw [slot_of_act hactor (act_eq_apply hnext i)]
      refine ⟨_, ((getElem?_ants_apply _ i i _ g).trans (if_pos rfl)).trans
        (congrArg (Option.map _) hant), ?_⟩
      rw [Option.any_some]
      cases hmoves : instruction.isMove && (g.stepTarget? ant).isSome with
      | false =>
        have hnone : (g.effect ant instruction).target? = none := by
          rw [htarget]
          split
          · next hmove => simpa [hmove] using hmoves
          · rfl
        rw [hnone] at hposition hresting
        exact .stayed halive hrest hnext hlife (hresting.trans hrest) hposition
      | true =>
        obtain ⟨hmove, hsome⟩ := Bool.and_eq_true_iff.mp hmoves
        obtain ⟨q, hq⟩ := Option.isSome_iff_exists.mp hsome
        rw [if_pos hmove, hq] at htarget
        rw [htarget] at hposition hresting
        refine .moved halive hrest hnext hlife hresting ?_
        rw [show ({ (g.effect ant instruction).onAnt ant with
          state := (g.effect ant instruction).next } : Ant).position = q from hposition]
        exact Ground.stepsApart_of_adjacent? (stepTarget?_eq_some hq).1

/-! ### Turns -/

theorem getElem?_ants_slots_of_not_mem (teams : Teams) {is : List Nat} (hi : i ∉ is) (g : Game) :
    (slots teams is g).1.ants[i]? = g.ants[i]? := by
  induction is generalizing g with
  | nil => rfl
  | cons j is ih =>
    obtain ⟨hij, hi⟩ := not_or.mp (mt List.mem_cons.mpr hi)
    rw [slots_cons]
    exact (ih hi _).trans (getElem?_ants_slot (Ne.symm hij) g teams)

theorem ant_of_record? {e : Entry} (h : g.record? teams i = some e) : e.ant = i := by
  obtain ⟨ant, -, rfl⟩ := Option.map_eq_some_iff.mp h
  rfl

theorem filter_diary_of_not_mem (teams : Teams) {is : List Nat} (hi : i ∉ is) (g : Game) :
    (diary teams is g).filter (·.ant == i) = [] := by
  induction is generalizing g with
  | nil => rfl
  | cons j is ih =>
    obtain ⟨hij, hi⟩ := not_or.mp (mt List.mem_cons.mpr hi)
    rw [diary, List.filter_append, ih hi, List.append_nil]
    refine List.filter_eq_nil_iff.mpr fun e he => ?_
    rw [ant_of_record? (Option.mem_toList.mp he)]
    simpa using Ne.symm hij

/-- Among slots of which one is its own, an ant has one day. -/
theorem day_of_slots {is : List Nat} (hnodup : is.Nodup) (hi : i ∈ is)
    (hant : g.ants[i]? = some ant) (teams : Teams) :
    ∃ ant', (slots teams is g).1.ants[i]? = some ant' ∧
      Day g.config.restAfterMove.toNat teams i ant ((diary teams is g).filter (·.ant == i))
        ant' := by
  induction is generalizing g with
  | nil => cases hi
  | cons j is ih =>
    obtain ⟨hj, hnodup⟩ := List.nodup_cons.mp hnodup
    rw [slots_cons, diary, List.filter_append]
    by_cases hij : j = i
    · -- Its own slot comes now, and the later ones leave it alone.
      subst hij
      obtain ⟨ant', hant', hday⟩ := day_of_slot hant teams
      have hown : (g.record? teams j).toList.filter (·.ant == j) = (g.record? teams j).toList :=
        List.filter_eq_self.mpr fun e he => by
          rw [ant_of_record? (Option.mem_toList.mp he)]
          exact beq_self_eq_true j
      rw [filter_diary_of_not_mem teams hj, List.append_nil, hown]
      exact ⟨ant', (getElem?_ants_slots_of_not_mem teams hj _).trans hant', hday⟩
    · -- The slot of another ant leaves it alone.
      have hother : (g.record? teams j).toList.filter (·.ant == i) = [] :=
        List.filter_eq_nil_iff.mpr fun e he => by
          rw [ant_of_record? (Option.mem_toList.mp he)]
          simpa using hij
      have hnext := ih hnodup ((List.mem_cons.mp hi).resolve_left (Ne.symm hij))
        ((getElem?_ants_slot hij g teams).trans hant)
      rw [(Frame.slot g teams j).config] at hnext
      rw [hother, List.nil_append]
      exact hnext

theorem day_of_turn (hant : g.ants[i]? = some ant) (teams : Teams) :
    ∃ ant', (slots teams (List.range g.ants.size) g).1.ants[i]? = some ant' ∧
      Day g.config.restAfterMove.toNat teams i ant (g.entriesOf teams i) ant' := by
  obtain ⟨hi, -⟩ := Array.getElem?_eq_some_iff.mp hant
  exact day_of_slots List.nodup_range (List.mem_range.mpr hi) hant teams

/-- Ant `i` is killed by encirclement at the end of the next turn. -/
def KilledNext (g : Game) (teams : Teams) (i : Nat) : Prop :=
  i ∈ (g.playTurn teams).1.kills.map (·.ant)

instance (g : Game) (teams : Teams) (i : Nat) : Decidable (g.KilledNext teams i) :=
  inferInstanceAs (Decidable (i ∈ (g.playTurn teams).1.kills.map (·.ant)))

/-- After its day an ant is killed, or it stays as it is until the next turn. -/
theorem getElem?_ants_playTurn (g : Game) (teams : Teams) (i : Nat) :
    (g.playTurn teams).2.ants[i]? =
      if g.KilledNext teams i then
        (slots teams (List.range g.ants.size) g).1.ants[i]?.map Ant.fallen
      else (slots teams (List.range g.ants.size) g).1.ants[i]? := by
  have hturn : (g.playTurn teams).2.ants =
      ((slots teams (List.range g.ants.size) g).1.recount.bury
        (g.playTurn teams).1.kills).ants := by
    rw [playTurn_eq_playOut, endAtLimit_eq]
    exact congrArg (·.ants) (kill_recount _ _)
  rw [hturn, getElem?_ants_bury]
  rfl

end Day

end Game

end AntContest
