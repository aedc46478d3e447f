import AntContest.Random
import Mathlib.Algebra.Ring.GeomSum
import Mathlib.Dynamics.PeriodicPts.Lemmas
import Mathlib.NumberTheory.Multiplicity
import Mathlib.RingTheory.Coprime.Lemmas
import Mathlib.Tactic.LinearCombination

/-! # The period of the random source

The step of the source is affine modulo `2 ^ 64`, so `n` steps multiply the state by the `n`-th
power of the factor and add the sum of all lower powers (`toInt_advanceBy`).  They lead back exactly
if the modulus divides that sum times an odd number.  The factor is one more than a multiple of
four, hence a power of two divides the sum exactly if it divides `n` (`two_pow_dvd_geom_sum_iff`).

* `advanceBy_eq_self_iff` and `minimalPeriod_advance`: every state comes back after `2 ^ 64` steps
  and not before.
* `existsUnique_advanceBy`: there are no more states than that, so all of them lie on one cycle.
* `full_period`: the whole, and what it means for two generators that are drawn from equally
  often. -/

namespace AntContest

open Finset Function

/-- The sum of the first powers of a number that is one more than a multiple of four holds as many
factors of two as the number of its summands. -/
theorem two_pow_dvd_geom_sum_iff {a : ℤ} (ha : 4 ∣ a - 1) (hne : a ≠ 1) (k n : ℕ) :
    2 ^ k ∣ ∑ i ∈ range n, a ^ i ↔ 2 ^ k ∣ (n : ℤ) := by
  have hlift := Int.two_pow_sub_pow' n ha (by omega)
  rw [one_pow, ← mul_geom_sum, emultiplicity_mul Int.prime_two] at hlift
  have hfinite : FiniteMultiplicity 2 (a - 1) :=
    Int.finiteMultiplicity_iff.mpr ⟨by decide, sub_ne_zero.mpr hne⟩
  have hsum : emultiplicity 2 (∑ i ∈ range n, a ^ i) = emultiplicity 2 (n : ℤ) :=
    ENat.add_right_injective_of_ne_top
      (finiteMultiplicity_iff_emultiplicity_ne_top.mp hfinite) hlift
  rw [pow_dvd_iff_le_emultiplicity, pow_dvd_iff_le_emultiplicity, hsum]

/-- What leads back to the start in some number of steps can be undone: by the other steps. -/
theorem bijective_of_iterate_eq_id {α : Type} {f : α → α} {n : ℕ} (hn : 0 < n)
    (h : f^[n] = id) : Bijective f := by
  refine bijective_iff_has_inverse.mpr ⟨f^[n.pred], fun a => ?_, fun a => ?_⟩
  · exact congrFun ((iterate_pred_comp_of_pos f hn).trans h) a
  · exact congrFun ((comp_iterate_pred_of_pos f hn).trans h) a

namespace Random

/-! ### Several steps at once -/

theorem advanceBy_succ (n : ℕ) : advanceBy (n + 1) = advanceBy n ∘ advance := rfl

theorem advanceBy_eq_iterate (n : ℕ) : advanceBy n = advance^[n] := by
  induction n with
  | zero => rfl
  | succ n ih => rw [advanceBy_succ, ih, iterate_succ]

theorem eq_iff_modEq {r s : Random} :
    r = s ↔ r.state.toInt ≡ s.state.toInt [ZMOD 2 ^ 64] := by
  constructor
  · rintro rfl
    exact rfl
  · intro h
    have hr := r.state.le_toInt
    have hr' := r.state.toInt_lt
    have hs := s.state.le_toInt
    have hs' := s.state.toInt_lt
    unfold Int.ModEq at h
    have hstate : r.state = s.state := Int64.toInt_inj.mp (by omega)
    exact congrArg mk hstate

theorem toInt_advance (r : Random) :
    r.advance.state.toInt ≡ multiplier.toInt * r.state.toInt + 1 [ZMOD 2 ^ 64] := by
  have hstate : r.advance.state.toInt =
      (multiplier.toInt * r.state.toInt + 1).bmod (2 ^ 64) := by
    show (r.state * multiplier + increment).toInt = _
    rw [Int64.toInt_add, Int64.toInt_mul, Int.bmod_add_bmod, mul_comm]
    rfl
  rw [hstate]
  exact Int.bmod_emod

/-- What `n` steps make of a state. -/
theorem toInt_advanceBy (n : ℕ) (r : Random) :
    (advanceBy n r).state.toInt ≡
      multiplier.toInt ^ n * r.state.toInt + ∑ i ∈ range n, multiplier.toInt ^ i
        [ZMOD 2 ^ 64] := by
  induction n generalizing r with
  | zero =>
    rw [pow_zero, one_mul, sum_range_zero, add_zero]
    exact Int.ModEq.rfl
  | succ n ih =>
    calc (advanceBy (n + 1) r).state.toInt
        = (advanceBy n r.advance).state.toInt := by rw [advanceBy_succ, comp_apply]
      _ ≡ multiplier.toInt ^ n * r.advance.state.toInt + ∑ i ∈ range n, multiplier.toInt ^ i
            [ZMOD 2 ^ 64] := ih r.advance
      _ ≡ multiplier.toInt ^ n * (multiplier.toInt * r.state.toInt + 1) +
            ∑ i ∈ range n, multiplier.toInt ^ i [ZMOD 2 ^ 64] :=
          ((toInt_advance r).mul_left _).add_right _
      _ = multiplier.toInt ^ (n + 1) * r.state.toInt +
            ∑ i ∈ range (n + 1), multiplier.toInt ^ i := by
          rw [sum_range_succ]
          ring

/-! ### The period -/

theorem advanceBy_eq_self_iff {n : ℕ} {r : Random} : advanceBy n r = r ↔ 2 ^ 64 ∣ n := by
  have hfour : (4 : ℤ) ∣ multiplier.toInt - 1 := by decide
  have hodd : IsCoprime ((2 : ℤ) ^ 64) ((multiplier.toInt - 1) * r.state.toInt + 1) := by
    refine IsCoprime.pow_left ?_
    obtain ⟨b, hb⟩ := hfour
    exact ⟨-(2 * b * r.state.toInt), 1, by rw [hb]; ring⟩
  have hgap (x : ℤ) : multiplier.toInt ^ n * x + ∑ i ∈ range n, multiplier.toInt ^ i - x =
      ((multiplier.toInt - 1) * x + 1) * ∑ i ∈ range n, multiplier.toInt ^ i := by
    have hpow := mul_geom_sum multiplier.toInt n
    linear_combination (-x) * hpow
  have hsteps := toInt_advanceBy n r
  rw [eq_iff_modEq]
  calc (advanceBy n r).state.toInt ≡ r.state.toInt [ZMOD 2 ^ 64]
      ↔ r.state.toInt ≡ multiplier.toInt ^ n * r.state.toInt +
          ∑ i ∈ range n, multiplier.toInt ^ i [ZMOD 2 ^ 64] :=
        ⟨fun h => h.symm.trans hsteps, fun h => hsteps.trans h.symm⟩
    _ ↔ 2 ^ 64 ∣ ((multiplier.toInt - 1) * r.state.toInt + 1) *
          ∑ i ∈ range n, multiplier.toInt ^ i := by rw [Int.modEq_iff_dvd, hgap]
    _ ↔ 2 ^ 64 ∣ ∑ i ∈ range n, multiplier.toInt ^ i :=
        ⟨hodd.dvd_of_dvd_mul_left, fun h => h.mul_left _⟩
    _ ↔ 2 ^ 64 ∣ (n : ℤ) := two_pow_dvd_geom_sum_iff hfour (by decide) 64 n
    _ ↔ 2 ^ 64 ∣ n := by exact_mod_cast Int.natCast_dvd_natCast

theorem minimalPeriod_advance (r : Random) : minimalPeriod advance r = 2 ^ 64 := by
  have hperiodic (n : ℕ) : IsPeriodicPt advance n r ↔ 2 ^ 64 ∣ n := by
    rw [← advanceBy_eq_self_iff, advanceBy_eq_iterate, IsPeriodicPt, IsFixedPt]
  refine Nat.dvd_antisymm ?_ ?_
  · exact isPeriodicPt_iff_minimalPeriod_dvd.mp ((hperiodic _).mpr dvd_rfl)
  · exact (hperiodic _).mp (isPeriodicPt_minimalPeriod advance r)

theorem injOn_advanceBy (r : Random) : Set.InjOn (advanceBy · r) (Set.Iio (2 ^ 64)) := by
  have h : Set.InjOn (advance^[·] r) (Set.Iio (minimalPeriod advance r)) :=
    iterate_injOn_Iio_minimalPeriod
  rw [minimalPeriod_advance] at h
  simpa only [advanceBy_eq_iterate] using h

theorem existsUnique_advanceBy (r s : Random) : ∃! n, n < 2 ^ 64 ∧ advanceBy n r = s := by
  -- There are as many states as places, so an injection from places to states is onto.
  let place (s : Random) : Fin (2 ^ 64) := s.state.toBitVec.toFin
  have hplace : Injective place := by
    intro s t h
    exact congrArg mk (Int64.toBitVec_inj.mp (BitVec.toFin_inj.mp h))
  have hinjective : Injective fun n : Fin (2 ^ 64) => place (advanceBy n r) := fun m n h =>
    Fin.ext (injOn_advanceBy r m.isLt n.isLt (hplace h))
  obtain ⟨n, hn⟩ := hinjective.bijective_of_finite.surjective (place s)
  refine ⟨n, ⟨n.isLt, hplace hn⟩, ?_⟩
  rintro m ⟨hm, rfl⟩
  exact (injOn_advanceBy r n.isLt hm (hplace hn)).symm

theorem bijective_advance : Bijective advance := by
  refine bijective_of_iterate_eq_id (Nat.two_pow_pos 64) ?_
  rw [← advanceBy_eq_iterate]
  exact funext fun r => advanceBy_eq_self_iff.mpr dvd_rfl

theorem injective_advanceBy (n : ℕ) : Injective (advanceBy n) := by
  rw [advanceBy_eq_iterate]
  exact bijective_advance.injective.iterate n

/-! ### Draws -/

/-- The generator after one draw below each of the bounds. -/
def afterDraws (r : Random) (bounds : List UInt32) : Random :=
  bounds.foldl (fun r n => (r.draw n).2) r

/-- The bounds are of no account for the state. -/
theorem afterDraws_eq (r : Random) (bounds : List UInt32) :
    r.afterDraws bounds = advanceBy bounds.length r := by
  induction bounds generalizing r with
  | nil => rfl
  | cons n bounds ih =>
    rw [List.length_cons, advanceBy_succ, comp_apply, ← ih, afterDraws, afterDraws,
      List.foldl_cons, draw_snd]

/-- The step of the source is a bijection.  From every state, `2 ^ 64` steps lead back, the states
before that are all different, and every state is one of them.  Hence generators made from
different seeds never agree after equally many draws, whatever the bounds are. -/
theorem full_period :
    Bijective advance ∧
      (∀ r, advanceBy (2 ^ 64) r = r ∧ Set.InjOn (advanceBy · r) (Set.Iio (2 ^ 64)) ∧
        ∀ s, ∃! n, n < 2 ^ 64 ∧ advanceBy n r = s) ∧
      ∀ (seed seed' : Int64) (bounds bounds' : List UInt32), bounds.length = bounds'.length →
        ((ofSeed seed).afterDraws bounds = (ofSeed seed').afterDraws bounds' ↔ seed = seed') := by
  refine ⟨bijective_advance, fun r => ⟨advanceBy_eq_self_iff.mpr dvd_rfl, injOn_advanceBy r,
    existsUnique_advanceBy r⟩, fun seed seed' bounds bounds' hlength => ?_⟩
  rw [afterDraws_eq, afterDraws_eq, hlength, (injective_advanceBy _).eq_iff, ofSeed, ofSeed,
    (injective_advanceBy _).eq_iff, mk.injEq]

/-- For example with two seeds, and with bounds of zero among the others. -/
theorem seeds_apart_after_three_draws :
    (ofSeed 1).afterDraws [6, 0, 100] ≠ (ofSeed 2).afterDraws [0, 1000, 0] := by
  have h := full_period.2.2 1 2 [6, 0, 100] [0, 1000, 0] rfl
  exact fun hdraws => absurd (h.mp hdraws) (by decide)

end Random

end AntContest
