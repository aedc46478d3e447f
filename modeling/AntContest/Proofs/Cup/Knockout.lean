import AntContest.Proofs.Cup.Rounds

/-! # Knockout cups

A cup of at least two entrants with different names is played to its end.  The draw puts the
entrants in order: it exchanges places of the list only (`draw_le`), so nobody is lost
(`perm_shuffle`).  From the order of the draw the rounds lead to the champion.

* `firstRepeated_of_duplicate?`: the name that a cup is refused for is the first one that has come
  before.
* `Knockout` says what the result of a cup is, and `knockout_structure` that every cup has such a
  result, or is refused for the number of its entrants or for a name. -/

namespace AntContest

namespace Cup

/-! ### The draw -/

theorem draw_le (random : Random) (i : Nat) :
    (random.draw (UInt32.ofNat (i + 2))).1.toNat ≤ i + 1 := by
  by_cases hzero : UInt32.ofNat (i + 2) = 0
  · rw [hzero, Random.draw_zero]
    exact Nat.zero_le _
  · have hlt := UInt32.lt_iff_toNat_lt.mp (random.draw_lt hzero)
    have hmod : (UInt32.ofNat (i + 2)).toNat ≤ i + 2 := by
      rw [UInt32.toNat_ofNat']
      exact Nat.mod_le _ _
    omega

section Draw

variable {α : Type}

theorem shuffleFrom_succ {i : Nat} (random : Random) {entrants : Array α}
    (h : i + 1 < entrants.size) :
    shuffleFrom (i + 1) random entrants =
      shuffleFrom i random.advance
        (entrants.swap (i + 1) (random.draw (UInt32.ofNat (i + 2))).1.toNat h
          (Nat.lt_of_le_of_lt (draw_le random i) h)) := by
  have hdrawn := Nat.lt_of_le_of_lt (draw_le random i) h
  rw [shuffleFrom]
  dsimp only
  rw [Array.swapIfInBounds_def, dif_pos h, dif_pos hdrawn]
  rfl

theorem perm_shuffleFrom {i : Nat} (random : Random) (entrants : Array α)
    (h : i ≤ entrants.size - 1) : (shuffleFrom i random entrants).toList.Perm entrants.toList := by
  induction i generalizing random entrants with
  | zero => exact .refl _
  | succ i ih =>
    have hi : i + 1 < entrants.size := by omega
    rw [shuffleFrom_succ random hi]
    refine (ih _ _ ?_).trans (Array.swap_perm _ _).toList
    rw [Array.size_swap]
    omega

/-- The order of the draw has the same entrants. -/
theorem perm_shuffle (seed : Int64) (entrants : List α) : (shuffle seed entrants).Perm entrants :=
  perm_shuffleFrom (.ofSeed seed) entrants.toArray (Nat.le_refl _)

end Draw

/-! ### Names that come twice -/

/-- The first name of a list that has come before. -/
def FirstRepeated (names : List String) (name : String) : Prop :=
  ∃ before after, names = before ++ name :: after ∧ before.Nodup ∧ name ∈ before

theorem duplicate?_eq_none_iff {seen names : List String} :
    duplicate? seen names = none ↔ names.Nodup ∧ ∀ name ∈ names, name ∉ seen := by
  induction names generalizing seen with
  | nil => simp [duplicate?]
  | cons name names ih =>
    unfold duplicate?
    split
    · next hseen => simp [hseen]
    · next hnew =>
      rw [ih, List.nodup_cons]
      constructor
      · rintro ⟨hnodup, hfresh⟩
        refine ⟨⟨fun hmem => hfresh name hmem List.mem_cons_self, hnodup⟩, fun other hother => ?_⟩
        rcases List.mem_cons.mp hother with rfl | hother
        · exact hnew
        · exact fun hseen => hfresh other hother (List.mem_cons_of_mem _ hseen)
      · rintro ⟨⟨hname, hnodup⟩, hfresh⟩
        refine ⟨hnodup, fun other hother hseen => ?_⟩
        rcases List.mem_cons.mp hseen with rfl | hseen
        · exact hname hother
        · exact hfresh other (List.mem_cons_of_mem _ hother) hseen

theorem exists_of_duplicate? {seen names : List String} {name : String}
    (h : duplicate? seen names = some name) :
    ∃ before after, names = before ++ name :: after ∧ before.Nodup ∧
      (∀ other ∈ before, other ∉ seen) ∧ (name ∈ seen ∨ name ∈ before) := by
  -- For all `seen`: a name that comes before in the list has been seen when the rest is searched.
  induction names generalizing seen with
  | nil => cases h
  | cons first names ih =>
    unfold duplicate? at h
    split at h
    · next hseen =>
      cases h
      exact ⟨[], names, rfl, List.nodup_nil, by simp, .inl hseen⟩
    · next hnew =>
      obtain ⟨before, after, rfl, hnodup, hfresh, hname⟩ := ih h
      have hfirst : first ∉ before := fun hmem => hfresh first hmem List.mem_cons_self
      refine ⟨first :: before, after, rfl, List.nodup_cons.mpr ⟨hfirst, hnodup⟩,
        fun other hother => ?_, ?_⟩
      · rcases List.mem_cons.mp hother with rfl | hother
        · exact hnew
        · exact fun hseen => hfresh other hother (List.mem_cons_of_mem _ hseen)
      · rcases hname with hname | hname
        · rcases List.mem_cons.mp hname with rfl | hname
          · exact .inr List.mem_cons_self
          · exact .inl hname
        · exact .inr (List.mem_cons_of_mem _ hname)

theorem firstRepeated_of_duplicate? {names : List String} {name : String}
    (h : duplicate? [] names = some name) : FirstRepeated names name := by
  obtain ⟨before, after, hnames, hnodup, -, hname⟩ := exists_of_duplicate? h
  exact ⟨before, after, hnames, hnodup, hname.resolve_left List.not_mem_nil⟩

/-! ### Whole cups -/

/-- The result of a cup of the given entrants. -/
structure Knockout (ground : Ground) (config : CupConfig) (entrants : List Brain)
    (result : CupResult) : Prop where
  bracket_perm : result.bracket.Perm (entrants.map (·.name))
  /-- From the order of the bracket the rounds lead to the champion. -/
  rounds : ∃ pool champion, pool.Perm entrants ∧ pool.map (·.name) = result.bracket ∧
    Rounds ground config pool result.rounds champion ∧ champion.name = result.champion
  length_rounds : result.rounds.length = Nat.clog 2 entrants.length
  length_results : (allResults result.rounds).length = entrants.length - 1
  exists_of_mem : ∀ r ∈ allResults result.rounds, ∃ a ∈ entrants, ∃ b ∈ entrants,
    a.name ≠ b.name ∧ r = playMatch ground a b config
  champion_mem : result.champion ∈ entrants.map (·.name)
  /-- Everyone but the champion loses one match, and the champion none. -/
  losses : ∀ b ∈ entrants, (allResults result.rounds).countP (·.lostBy b.name) =
    if b.name = result.champion then 0 else 1
  /-- Who has lost a match plays none after it. -/
  pairwise : (allResults result.rounds).Pairwise fun r r' =>
    ∀ name, r.lostBy name = true → r'.plays name = false

theorem knockout_of_rounds {ground : Ground} {config : CupConfig} {entrants pool : List Brain}
    {rounds : List CupRound} {champion : Brain} (hpool : pool.Perm entrants)
    (hnodup : (entrants.map (·.name)).Nodup) (h : Rounds ground config pool rounds champion) :
    Knockout ground config entrants ⟨pool.map (·.name), rounds, champion.name⟩ := by
  have hnames : (pool.map (·.name)).Perm (entrants.map (·.name)) := hpool.map _
  have hnodup' : (pool.map (·.name)).Nodup := hnames.nodup_iff.mpr hnodup
  have hlength := h.length_allResults
  rw [hpool.length_eq] at hlength
  refine ⟨hnames, ⟨pool, champion, hpool, rfl, h, rfl⟩, ?_, Nat.eq_sub_of_add_eq hlength,
    fun r hr => ?_, ?_, fun b hb => ?_, h.pairwise hnodup'⟩
  · rw [h.length_rounds, hpool.length_eq]
  · obtain ⟨a, ha, b, hb, hne, rfl⟩ := h.exists_of_mem hnodup' hr
    exact ⟨a, hpool.subset ha, b, hpool.subset hb, hne, rfl⟩
  · exact List.mem_map_of_mem (hpool.subset h.champion_mem)
  · have hlosses := h.losses_add_count hnodup' b.name
    rw [hnodup'.count, if_pos (List.mem_map_of_mem (hpool.symm.subset hb)),
      List.count_singleton] at hlosses
    dsimp only
    split
    · next heq =>
      rw [if_pos (by simp [heq])] at hlosses
      omega
    · next hne =>
      rw [if_neg (by simpa using Ne.symm hne)] at hlosses
      omega

theorem play_of_nodup (ground : Ground) (config : CupConfig) {entrants : List Brain}
    (hmany : 2 ≤ entrants.length) (hnodup : (entrants.map (·.name)).Nodup) :
    ∃ result, play ground entrants config = .ok result ∧
      Knockout ground config entrants result := by
  have hpool := perm_shuffle config.game.seed entrants
  have hpos : 0 < (shuffle config.game.seed entrants).length := by
    rw [hpool.length_eq]
    omega
  have hunique : duplicate? [] (entrants.map (·.name)) = none :=
    duplicate?_eq_none_iff.mpr ⟨hnodup, by simp⟩
  obtain ⟨champion, hrounds, hlast⟩ := exists_rounds_playAll ground config hpos
  refine ⟨_, ?_, knockout_of_rounds hpool hnodup hrounds⟩
  unfold play
  rw [if_neg (Nat.not_lt_of_le hmany), hunique]
  dsimp only
  rw [hlast]
  rfl

theorem play_of_duplicate (ground : Ground) (config : CupConfig) {entrants : List Brain}
    (hmany : 2 ≤ entrants.length) (hnodup : ¬ (entrants.map (·.name)).Nodup) :
    ∃ name, FirstRepeated (entrants.map (·.name)) name ∧
      play ground entrants config = .error (.duplicate name) := by
  cases hname : duplicate? [] (entrants.map (·.name)) with
  | none => exact (hnodup (duplicate?_eq_none_iff.mp hname).1).elim
  | some name =>
    refine ⟨name, firstRepeated_of_duplicate? hname, ?_⟩
    unfold play
    rw [if_neg (Nat.not_lt_of_le hmany), hname]

/-- The champion plays the last match: whoever wins that has lost none before, for else it had not
played again. -/
theorem Knockout.champion_plays {ground : Ground} {config : CupConfig} {entrants : List Brain}
    {result : CupResult} (h : Knockout ground config entrants result)
    (hmany : 2 ≤ entrants.length) :
    ∃ m ∈ allResults result.rounds, m.plays result.champion = true := by
  have hlength := h.length_results
  obtain ⟨before, last, hall⟩ : ∃ before last, allResults result.rounds = before ++ [last] := by
    rcases List.eq_nil_or_concat (allResults result.rounds) with hnil | ⟨before, last, hall⟩
    · rw [hnil, List.length_nil] at hlength
      omega
    · exact ⟨before, last, by rw [hall, List.concat_eq_append]⟩
  have hmem : last ∈ allResults result.rounds := hall ▸ by simp
  obtain ⟨a, ha, b, hb, hne, hlast⟩ := h.exists_of_mem last hmem
  obtain ⟨w, hw, hwinner⟩ : ∃ w ∈ entrants, last.winner = w.name := by
    rcases winner_playMatch ground config a b with hwinner | hwinner
    · exact ⟨a, ha, hlast ▸ hwinner⟩
    · exact ⟨b, hb, hlast ▸ hwinner⟩
  have hplays : last.plays w.name = true := by
    rw [← hwinner, hlast, plays_playMatch (a, b)]
    exact (winner_playMatch ground config a b).imp Eq.symm Eq.symm
  have hlosses := h.losses w hw
  have hnone : (allResults result.rounds).countP (·.lostBy w.name) = 0 := by
    rw [List.countP_eq_zero]
    intro m hm hlost
    rw [hall] at hm
    rcases List.mem_append.mp hm with hm | hm
    · have hapart := h.pairwise
      rw [hall] at hapart
      have hgone := (List.pairwise_append.mp hapart).2.2 m hm last (by simp) w.name hlost
      rw [hplays] at hgone
      cases hgone
    · obtain rfl := List.mem_singleton.mp hm
      simp [MatchResult.lostBy, hwinner] at hlost
  rw [hnone] at hlosses
  split at hlosses
  · next hchampion => exact ⟨last, hmem, hchampion ▸ hplays⟩
  · cases hlosses

/-- A cup that is played has the structure of a knockout. -/
theorem knockout_of_play {ground : Ground} {config : CupConfig} {entrants : List Brain}
    {result : CupResult} (h : play ground entrants config = .ok result) :
    2 ≤ entrants.length ∧ (entrants.map (·.name)).Nodup ∧
      Knockout ground config entrants result := by
  have hmany : 2 ≤ entrants.length := by
    by_contra hfew
    unfold play at h
    rw [if_pos (by omega)] at h
    cases h
  have hnodup : (entrants.map (·.name)).Nodup := by
    by_contra hrepeated
    obtain ⟨name, -, hrefused⟩ := play_of_duplicate ground config hmany hrepeated
    rw [hrefused] at h
    cases h
  obtain ⟨result', hresult, hknockout⟩ := play_of_nodup ground config hmany hnodup
  rw [h, Except.ok.injEq] at hresult
  exact ⟨hmany, hnodup, hresult ▸ hknockout⟩

/-- A cup of at least two entrants with different names is played to its end, and has the structure
of a knockout.  With fewer entrants it is refused for their number, and with a name that comes
twice for the first such name.  No exchange of the draw leads out of the list of entrants. -/
theorem knockout_structure (ground : Ground) (config : CupConfig) (entrants : List Brain) :
    (2 ≤ entrants.length → (entrants.map (·.name)).Nodup →
      ∃ result, play ground entrants config = .ok result ∧
        Knockout ground config entrants result) ∧
    (entrants.length < 2 →
      play ground entrants config = .error (.tooFew entrants.length)) ∧
    (2 ≤ entrants.length → ¬ (entrants.map (·.name)).Nodup →
      ∃ name, FirstRepeated (entrants.map (·.name)) name ∧
        play ground entrants config = .error (.duplicate name)) ∧
    ∀ (random : Random) (i : Nat), (random.draw (UInt32.ofNat (i + 2))).1.toNat ≤ i + 1 := by
  refine ⟨play_of_nodup ground config, fun hfew => ?_, play_of_duplicate ground config, draw_le⟩
  unfold play
  rw [if_pos hfew]

/-- For example three entrants, two of them, and one that enters twice. -/
theorem knockout_of_three :
    ∃ (ground : Ground) (a b c : Brain) (result : CupResult),
      play ground [a, b, c] { game := { maxTurns := 3 } } = .ok result ∧
      Knockout ground { game := { maxTurns := 3 } } [a, b, c] result ∧
      result.rounds.length = 2 ∧ (allResults result.rounds).length = 2 ∧
      play ground [a] {} = .error (.tooFew 1) ∧
      ∃ name, FirstRepeated [a.name, b.name, a.name] name ∧
        play ground [a, b, a] {} = .error (.duplicate name) := by
  let side : Side := ⟨3, by decide⟩
  let first : StateIndex := ⟨0, by decide⟩
  let ground := (Ground.walled side side).modify ⟨1, 1⟩ fun _ => .fresh (.hill .red) 2
  let a : Brain := ⟨"gather", #[.pickUp first first], by decide, by decide⟩
  let b : Brain := ⟨"whirl", #[.turn .left first], by decide, by decide⟩
  let c : Brain := ⟨"walk", #[.move first first], by decide, by decide⟩
  obtain ⟨hplay, -, -, -⟩ := knockout_structure ground { game := { maxTurns := 3 } } [a, b, c]
  obtain ⟨-, hfew, -, -⟩ := knockout_structure ground {} [a]
  obtain ⟨-, -, hrepeated, -⟩ := knockout_structure ground {} [a, b, a]
  obtain ⟨result, hresult, hknockout⟩ := hplay (by decide) (by decide)
  exact ⟨ground, a, b, c, result, hresult, hknockout,
    hknockout.length_rounds.trans (by decide +kernel), hknockout.length_results,
    hfew (by decide), hrepeated (by decide) (by decide)⟩

end Cup

end AntContest
