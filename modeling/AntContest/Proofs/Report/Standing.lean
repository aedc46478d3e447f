import AntContest.Report.Standing
import Mathlib.Algebra.BigOperators.Group.List.Basic
import Mathlib.Algebra.Order.Ring.Nat
import Mathlib.Data.String.Basic

/-! # Lists of standings

Standings are added up like numbers.  A list of them is changed by one name at a time, and stays in
the order of the names (`pairwise_names_update`); a name that is listed already is not listed again
(`names_update`), and only its standing is changed (`standing_update`).

So a change that is made of such updates is known by what it adds to the standing of every name:
`Adds` says so, and goes along with changes one after the other (`Adds.comp`, `adds_foldl`). -/

namespace AntContest

/-! ### Standings as sums -/

namespace Standing

instance : Add Standing where
  add s t := ⟨s.matchesPlayed + t.matchesPlayed, s.matchWins + t.matchWins, s.games + t.games,
    s.gameWins + t.gameWins, s.food + t.food⟩

instance : Zero Standing := ⟨{}⟩

attribute [ext] Standing

instance : AddCommMonoid Standing where
  add_assoc _ _ _ := Standing.ext (Nat.add_assoc _ _ _) (Nat.add_assoc _ _ _)
    (Nat.add_assoc _ _ _) (Nat.add_assoc _ _ _) (Nat.add_assoc _ _ _)
  zero_add _ := Standing.ext (Nat.zero_add _) (Nat.zero_add _) (Nat.zero_add _) (Nat.zero_add _)
    (Nat.zero_add _)
  add_zero _ := rfl
  add_comm _ _ := Standing.ext (Nat.add_comm _ _) (Nat.add_comm _ _) (Nat.add_comm _ _)
    (Nat.add_comm _ _) (Nat.add_comm _ _)
  nsmul := nsmulRec

theorem sum_field {α : Type} (field : Standing → Nat) (hzero : field 0 = 0)
    (hadd : ∀ s t, field (s + t) = field s + field t) (f : α → Standing) (l : List α) :
    field (l.map f).sum = (l.map fun a => field (f a)).sum := by
  induction l with
  | nil => exact hzero
  | cons a l ih =>
    rw [List.map_cons, List.map_cons, List.sum_cons, List.sum_cons, hadd, ih]

end Standing

namespace Standings

def names (s : Standings) : List String := s.map (·.1)

@[simp] theorem names_cons (entry : String × Standing) (s : Standings) :
    names (entry :: s) = entry.1 :: s.names := rfl

/-- The standing of a name, blank if it is not listed. -/
def standing (s : Standings) (name : String) : Standing := (s.get? name).getD 0

section Update

variable {s : Standings} {name other : String} {f : Standing → Standing}

theorem get?_cons (entry : String × Standing) :
    get? (entry :: s) name = if name = entry.1 then some entry.2 else s.get? name := by
  unfold get?
  rw [List.lookup_cons]
  split
  · next h => rw [if_pos (eq_of_beq h)]
  · next h => rw [if_neg (ne_of_beq_false h)]

theorem get?_eq_none_iff : s.get? name = none ↔ name ∉ s.names := by
  induction s with
  | nil => exact ⟨fun _ => List.not_mem_nil, fun _ => rfl⟩
  | cons entry rest ih =>
    rw [get?_cons, names_cons, List.mem_cons, not_or, ← ih]
    split
    · next h => simp [h]
    · next h => simp [h]

theorem mem_names_update : other ∈ (s.update name f).names ↔ other = name ∨ other ∈ s.names := by
  induction s with
  | nil => simp [update, names]
  | cons entry rest ih =>
    unfold update
    split
    · next h => simp [h]
    · split
      · simp
      · rw [names_cons, List.mem_cons, ih, names_cons, List.mem_cons]
        exact or_left_comm

theorem pairwise_names_update (h : s.names.Pairwise (· < ·)) :
    (s.update name f).names.Pairwise (· < ·) := by
  induction s with
  | nil => exact List.pairwise_singleton _ _
  | cons entry rest ih =>
    obtain ⟨hfirst, hrest⟩ := List.pairwise_cons.mp h
    unfold update
    split
    · exact h
    · next hne =>
      split
      · next hlt =>
        refine .cons (fun n hn => ?_) h
        rcases List.mem_cons.mp hn with rfl | hn
        · exact hlt
        · exact String.lt_trans hlt (hfirst n hn)
      · next hge =>
        refine .cons (fun n hn => ?_) (ih hrest)
        rcases mem_names_update.mp hn with rfl | hn
        · exact lt_of_le_of_ne (String.not_lt.mp hge) hne
        · exact hfirst n hn

theorem names_update (h : s.names.Pairwise (· < ·)) (hname : name ∈ s.names) :
    (s.update name f).names = s.names := by
  induction s with
  | nil => cases hname
  | cons entry rest ih =>
    obtain ⟨hfirst, hrest⟩ := List.pairwise_cons.mp h
    unfold update
    split
    · rfl
    · next hne =>
      have hmem : name ∈ names rest := (List.mem_cons.mp hname).resolve_left (Ne.symm hne)
      rw [if_neg (String.lt_asymm (hfirst name hmem))]
      exact congrArg (entry.1 :: ·) (ih hrest hmem)

theorem perm_names_update (hname : name ∉ s.names) :
    (s.update name f).names.Perm (name :: s.names) := by
  induction s with
  | nil => exact .refl _
  | cons entry rest ih =>
    have hne : ¬ entry.1 = name := fun h => hname (h ▸ List.mem_cons_self)
    have hmem : name ∉ names rest := fun h => hname (List.mem_cons_of_mem _ h)
    unfold update
    rw [if_neg hne]
    split
    · exact .refl _
    · exact ((ih hmem).cons entry.1).trans (.swap _ _ _)

/-- Only the standing of the name is changed. -/
theorem get?_update (h : s.names.Pairwise (· < ·)) :
    (s.update name f).get? other =
      if other = name then some (f (s.standing name)) else s.get? other := by
  induction s with
  | nil =>
    rw [update, get?_cons]
    rfl
  | cons entry rest ih =>
    obtain ⟨hfirst, hrest⟩ := List.pairwise_cons.mp h
    unfold update
    split
    · next heq =>
      rw [standing, get?_cons, get?_cons, get?_cons, heq, if_pos rfl]
      split <;> rfl
    · next hne =>
      split
      · next hlt =>
        have hnew : name ∉ names (entry :: rest) := by
          intro hmem
          rcases List.mem_cons.mp hmem with rfl | hmem
          · exact String.lt_irrefl _ hlt
          · exact String.lt_asymm hlt (hfirst name hmem)
        rw [standing, get?_eq_none_iff.mpr hnew, get?_cons]
        rfl
      · rw [get?_cons, ih hrest, get?_cons, standing, standing, get?_cons, if_neg (Ne.symm hne)]
        split
        · next heq =>
          rw [if_neg (heq ▸ hne)]
        · rfl

theorem standing_update (h : s.names.Pairwise (· < ·)) :
    (s.update name f).standing other =
      if other = name then f (s.standing name) else s.standing other := by
  rw [standing, get?_update h]
  split <;> rfl

/-- The entries are the listed names with their standings. -/
theorem map_snd_eq (h : s.names.Nodup) : s.map (·.2) = s.names.map s.standing := by
  induction s with
  | nil => rfl
  | cons entry rest ih =>
    obtain ⟨hfirst, hrest⟩ := List.nodup_cons.mp h
    have hentry : standing (entry :: rest) entry.1 = entry.2 := by
      rw [standing, get?_cons, if_pos rfl]
      rfl
    have hothers : ∀ n ∈ names rest, standing (entry :: rest) n = standing rest n := by
      intro n hn
      have hne : n ≠ entry.1 := by
        rintro rfl
        exact hfirst hn
      rw [standing, get?_cons, if_neg hne]
      rfl
    rw [List.map_cons, ih hrest, names_cons, List.map_cons, hentry, List.map_congr_left hothers]

end Update

/-! ### Shares -/

/-- A share that goes to one name alone. -/
def only (name : String) (share : Standing) (other : String) : Standing :=
  if other = name then share else 0

theorem only_self (name : String) (share : Standing) : only name share name = share := if_pos rfl

theorem only_of_ne {name other : String} (h : other ≠ name) (share : Standing) :
    only name share other = 0 := if_neg h

theorem only_add (name : String) (share share' : Standing) (other : String) :
    only name (share + share') other = only name share other + only name share' other :=
  ite_add_zero

theorem sum_only {names : List String} (hnames : names.Nodup) {name : String} (h : name ∈ names)
    (share : Standing) : (names.map (only name share)).sum = share := by
  unfold only
  rw [List.sum_map_ite, List.filter_eq, hnames.count, if_pos h]
  simp

/-- The change adds a share to the standing of every name, and lists no other names. -/
def Adds (listed : List String) (change : Standings → Standings) (share : String → Standing) :
    Prop :=
  ∀ s : Standings, s.names = listed →
    (change s).names = listed ∧
      ∀ name, (change s).standing name = s.standing name + share name

section Shares

variable {listed : List String}

theorem adds_update (hlisted : listed.Pairwise (· < ·)) {name : String} (hname : name ∈ listed)
    {f : Standing → Standing} {share : Standing} (hf : ∀ s, f s = s + share) :
    Adds listed (update name f) (only name share) := by
  rintro s rfl
  refine ⟨names_update hlisted hname, fun other => ?_⟩
  rw [standing_update hlisted, hf, only]
  split
  · next h => rw [h]
  · exact (add_zero _).symm

theorem adds_foldl {α : Type} {op : Standings → α → Standings} {share : α → String → Standing}
    {xs : List α} (h : ∀ x ∈ xs, Adds listed (op · x) (share x)) :
    Adds listed (fun s => xs.foldl op s) fun name => (xs.map (share · name)).sum := by
  induction xs with
  | nil => exact fun s hs => ⟨hs, fun name => (add_zero _).symm⟩
  | cons x xs ih =>
    intro s hs
    obtain ⟨hnames, hfirst⟩ := h x List.mem_cons_self s hs
    obtain ⟨hnames', hrest⟩ := ih (fun y hy => h y (List.mem_cons_of_mem x hy)) (op s x) hnames
    refine ⟨hnames', fun name => ?_⟩
    dsimp only at hfirst hrest ⊢
    rw [List.foldl_cons, hrest, hfirst, List.map_cons, List.sum_cons, add_assoc]

theorem Adds.comp {change change' : Standings → Standings} {share share' : String → Standing}
    (h : Adds listed change share) (h' : Adds listed change' share') :
    Adds listed (fun s => change' (change s)) fun name => share name + share' name := by
  intro s hs
  obtain ⟨hnames, hfirst⟩ := h s hs
  obtain ⟨hnames', hsecond⟩ := h' (change s) hnames
  refine ⟨hnames', fun name => ?_⟩
  dsimp only
  rw [hsecond, hfirst, add_assoc]

end Shares

end Standings

end AntContest
