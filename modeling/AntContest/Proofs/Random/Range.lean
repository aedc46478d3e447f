import AntContest.Proofs.Random.Period
import Mathlib.Data.Set.Operations

/-! # What can be drawn

A draw looks at fourteen bits of the next state as a signed number, for both the division and the
remainder that single them out truncate toward zero.  That number is any one between `-16384` and
`16384` (`exists_sample_iff`), and as the step of the source is a bijection, so it is after a step
(`exists_sample_advance_iff`).  Its remainder below the bound leaves a number up to `16383` as it is
and takes a negative one from below the bound (`exists_emod_eq_iff`), so a bound that is larger than
both halves together is drawn below with a hole in the middle (`range_of_draw`). -/

namespace AntContest

namespace Random

theorem sample_bounds (r : Random) : -16384 < r.sample ∧ r.sample < 16384 := by
  have habs : r.sample.natAbs = (r.state.toInt.tdiv 65536).natAbs % 16384 := Int.natAbs_tmod _ _
  omega

theorem exists_sample_iff {k : ℤ} : (∃ r : Random, r.sample = k) ↔ -16384 < k ∧ k < 16384 := by
  constructor
  · rintro ⟨r, rfl⟩
    exact r.sample_bounds
  · rintro ⟨hlow, hhigh⟩
    refine ⟨⟨.ofInt (65536 * k)⟩, ?_⟩
    have hstate : (Int64.ofInt (65536 * k)).toInt = 65536 * k :=
      Int64.toInt_ofInt_of_le (by omega) (by omega)
    rw [sample, hstate, Int.mul_tdiv_cancel_left k (by decide)]
    -- The truncated remainder has the sign of what is divided.
    rcases Int.le_total 0 k with hk | hk
    · exact Int.tmod_eq_of_lt hk hhigh
    · rw [← Int.neg_neg k, Int.neg_tmod, Int.tmod_eq_of_lt (by omega) (by omega)]

/-- Every state comes after some other one, so the samples after a step are the same. -/
theorem exists_sample_advance_iff {k : ℤ} :
    (∃ r : Random, r.advance.sample = k) ↔ -16384 < k ∧ k < 16384 :=
  bijective_advance.surjective.exists.symm.trans exists_sample_iff

theorem toNat_draw (r : Random) {n : UInt32} (hn : n ≠ 0) :
    ((r.draw n).1.toNat : ℤ) = r.advance.sample % n.toNat := by
  have hpos : 0 < n.toNat := Nat.pos_of_ne_zero fun h => hn (UInt32.toNat_inj.mp h)
  have hlow := Int.emod_nonneg r.advance.sample (b := n.toNat) (by omega)
  have hhigh := Int.emod_lt_of_pos r.advance.sample (b := n.toNat) (by omega)
  have hword := n.toNat_lt
  have hvalue : (r.draw n).1 = .ofNat (r.advance.sample % n.toNat).toNat := if_neg hn
  rw [hvalue, UInt32.toNat_ofNat_of_lt' (by simp only [UInt32.size]; omega)]
  omega

/-- The remainders of a symmetric range of numbers: its upper half counts from below, its lower one
from above. -/
theorem exists_emod_eq_iff {limit n v : ℤ} (hn : 0 < n) (hlimit : 0 < limit) :
    (∃ k, (-limit < k ∧ k < limit) ∧ k % n = v) ↔
      (0 ≤ v ∧ v < n) ∧ (v < limit ∨ n - limit < v) := by
  constructor
  · rintro ⟨k, ⟨hlow, hhigh⟩, rfl⟩
    refine ⟨⟨Int.emod_nonneg k hn.ne', Int.emod_lt_of_pos k hn⟩, ?_⟩
    have hk := Int.emod_add_mul_ediv k n
    rcases lt_or_ge k 0 with hneg | hnonneg
    · have hquotient : k / n ≤ -1 := Int.le_sub_one_of_lt (Int.ediv_neg_of_neg_of_pos hneg hn)
      have hmul := Int.mul_le_mul_of_nonneg_left hquotient hn.le
      exact .inr (by omega)
    · have hmul := Int.mul_nonneg hn.le (Int.ediv_nonneg hnonneg hn.le)
      exact .inl (by omega)
  · rintro ⟨⟨hlow, hhigh⟩, hv | hv⟩
    · exact ⟨v, by omega, Int.emod_eq_of_lt hlow hhigh⟩
    · refine ⟨v - n, by omega, ?_⟩
      rw [Int.sub_emod_right, Int.emod_eq_of_lt hlow hhigh]

/-- What can be drawn below a bound that is not zero. -/
theorem exists_draw_eq_iff {n v : UInt32} (hn : n ≠ 0) :
    (∃ r : Random, (r.draw n).1 = v) ↔ v < n ∧ (v.toNat ≤ 16383 ∨ n.toNat ≤ v.toNat + 16383) := by
  have hpos : 0 < n.toNat := Nat.pos_of_ne_zero fun h => hn (UInt32.toNat_inj.mp h)
  have hsample (r : Random) : (r.draw n).1 = v ↔ r.advance.sample % n.toNat = v.toNat := by
    rw [← toNat_draw r hn, Int.natCast_inj, UInt32.toNat_inj]
  calc (∃ r : Random, (r.draw n).1 = v)
      ↔ ∃ r : Random, r.advance.sample % n.toNat = v.toNat := exists_congr hsample
    _ ↔ ∃ k : ℤ, (-16384 < k ∧ k < 16384) ∧ k % n.toNat = v.toNat := by
        simp only [← exists_sample_advance_iff]
        exact ⟨fun ⟨r, hr⟩ => ⟨_, ⟨r, rfl⟩, hr⟩, fun ⟨_, ⟨r, hr⟩, hv⟩ => ⟨r, by rw [hr, hv]⟩⟩
    _ ↔ (0 ≤ (v.toNat : ℤ) ∧ (v.toNat : ℤ) < n.toNat) ∧
          ((v.toNat : ℤ) < 16384 ∨ (n.toNat : ℤ) - 16384 < v.toNat) :=
        exists_emod_eq_iff (by omega) (by decide)
    _ ↔ v < n ∧ (v.toNat ≤ 16383 ∨ n.toNat ≤ v.toNat + 16383) := by
        rw [UInt32.lt_iff_toNat_lt]
        omega

/-- Below a bound `n` other than zero, exactly those numbers can be drawn that are at most `16383`
or at most `16383` away from it.  So a draw is always below its bound; if that is at most `32767`,
every number below it can be drawn, and otherwise just those from `16384` to `n - 16384` can not.
A draw below zero is zero.  Whatever the bound, a draw takes one step of the state. -/
theorem range_of_draw :
    (∀ n : UInt32, n ≠ 0 →
      Set.range (fun r : Random => (r.draw n).1) =
          {v | v < n ∧ (v.toNat ≤ 16383 ∨ n.toNat ≤ v.toNat + 16383)} ∧
        (∀ r : Random, (r.draw n).1 < n) ∧
        (n.toNat ≤ 32767 → ∀ v < n, ∃ r : Random, (r.draw n).1 = v) ∧
        (32767 < n.toNat → ∀ v < n,
          (∀ r : Random, (r.draw n).1 ≠ v) ↔ 16384 ≤ v.toNat ∧ v.toNat + 16384 ≤ n.toNat)) ∧
      (∀ r : Random, (r.draw 0).1 = 0) ∧
      ∀ (r : Random) (n : UInt32), (r.draw n).2 = r.advance := by
  refine ⟨fun n hn => ⟨?_, fun r => draw_lt r hn, fun hsmall v hv => ?_, fun hlarge v hv => ?_⟩,
    draw_zero, draw_snd⟩
  · ext v
    exact exists_draw_eq_iff hn
  · rw [UInt32.lt_iff_toNat_lt] at hv
    exact (exists_draw_eq_iff hn).mpr ⟨UInt32.lt_iff_toNat_lt.mpr hv, by omega⟩
  · rw [← not_exists, exists_draw_eq_iff hn, not_and, not_or]
    exact ⟨fun h => by have := h hv; omega, fun h _ => by omega⟩

/-- For example below `40000`: between `16383` and `23617`, which can be drawn, nothing can. -/
theorem hole_below_forty_thousand :
    (∃ r : Random, (r.draw 40000).1 = 16383) ∧ (∃ r : Random, (r.draw 40000).1 = 23617) ∧
      ∀ r : Random, (r.draw 40000).1 ≠ 20000 := by
  obtain ⟨hrange, -, -, hhole⟩ := range_of_draw.1 40000 (by decide)
  have hdrawn (v : UInt32) (hv : v < 40000 ∧ (v.toNat ≤ 16383 ∨ 40000 ≤ v.toNat + 16383)) :
      v ∈ Set.range fun r : Random => (r.draw 40000).1 := by
    rw [hrange]
    exact hv
  exact ⟨hdrawn 16383 (by decide), hdrawn 23617 (by decide),
    (hhole (by decide) 20000 (by decide)).mpr (by decide)⟩

end Random

end AntContest
