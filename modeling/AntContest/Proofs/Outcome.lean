import Mathlib.Data.List.Basic

/-! # Computations that may fail

* `ok_of_bind`, `mapError_eq_ok`: what is known of the parts of a computation that gave a result.
* `eq_error_iff_first`: a pass over a list reports the first fault, whatever it reads. -/

namespace AntContest

theorem ok_of_bind {ε α β : Type} {x : Except ε α} {f : α → Except ε β} {b : β}
    (h : (x >>= f) = .ok b) : ∃ a, x = .ok a ∧ f a = .ok b := by
  cases x with
  | error e => cases h
  | ok a => exact ⟨a, rfl, h⟩

theorem ok_of_bind₂ {ε α β γ : Type} {x : Except ε α} {y : Except ε β} {f : α → β → γ} {c : γ}
    (h : (do let a ← x; let b ← y; pure (f a b)) = .ok c) :
    ∃ a b, x = .ok a ∧ y = .ok b ∧ f a b = c := by
  obtain ⟨a, ha, h⟩ := ok_of_bind h
  obtain ⟨b, hb, h⟩ := ok_of_bind h
  exact ⟨a, b, ha, hb, Except.ok.inj h⟩

theorem mapError_eq_ok {ε ε' α : Type} {x : Except ε α} {f : ε → ε'} {a : α} :
    x.mapError f = .ok a ↔ x = .ok a := by
  cases x with
  | error e => constructor <;> intro h <;> cases h
  | ok b => constructor <;> intro h <;> cases h <;> rfl

/-- A function that goes through a list up to its first bad entry reports that entry. -/
theorem eq_error_iff_first {ε α β : Type} (f : Nat → List α → Except ε β)
    (Bad : Nat → α → ε → Prop) (hnil : ∀ n e, f n [] ≠ .error e)
    (hcons : ∀ n a as e, f n (a :: as) = .error e ↔
      Bad n a e ∨ (∀ e', ¬ Bad n a e') ∧ f (n + 1) as = .error e) {n : Nat} {l : List α} {e : ε} :
    f n l = .error e ↔ ∃ i a, l[i]? = some a ∧ Bad (n + i) a e ∧
      ∀ j < i, ∀ b, l[j]? = some b → ∀ e', ¬ Bad (n + j) b e' := by
  have hshift (n i : Nat) : n + (i + 1) = n + 1 + i := by omega
  induction l generalizing n with
  | nil => simp [hnil]
  | cons a as ih =>
    rw [hcons]
    constructor
    · rintro (hbad | ⟨hgood, hrest⟩)
      · exact ⟨0, a, rfl, hbad, fun j hj => absurd hj (Nat.not_lt_zero j)⟩
      · obtain ⟨i, b, hb, hbad, hbefore⟩ := ih.mp hrest
        refine ⟨i + 1, b, hb, by rwa [hshift], fun j hj c hc => ?_⟩
        cases j with
        | zero =>
          cases hc
          exact hgood
        | succ j =>
          rw [hshift]
          exact hbefore j (Nat.lt_of_succ_lt_succ hj) c hc
    · rintro ⟨i, b, hb, hbad, hbefore⟩
      cases i with
      | zero =>
        cases hb
        exact .inl hbad
      | succ i =>
        refine .inr ⟨hbefore 0 (Nat.succ_pos i) a rfl, ih.mpr ⟨i, b, hb, by rwa [← hshift],
          fun j hj c hc => ?_⟩⟩
        rw [← hshift]
        exact hbefore (j + 1) (Nat.succ_lt_succ hj) c hc

end AntContest
