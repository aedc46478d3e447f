/-!
# The random source

A linear congruential generator on signed 64-bit words.  It is the only source of chance in a
game, and it is also what scatters the features of a generated map, so everything that happens
is a function of a seed.

* `Random.advance` is one affine step of the state, modulo `2 ^ 64`.
* `Random.ofSeed` stores the seed and advances `warmUp` times.
* `Random.draw n` advances once and returns a number below `n` (`0` when `n = 0`).
-/

namespace AntContest

/-- A generator, given by its current state. -/
structure Random where
  state : Int64
deriving DecidableEq, Repr

namespace Random

/-- Factor of the affine step. -/
def multiplier : Int64 := 22695477

/-- Summand of the affine step. -/
def increment : Int64 := 1

/-- Steps taken between storing a seed and the first draw. -/
def warmUp : Nat := 3

/-- One step of the state; the arithmetic wraps at 64 bits. -/
def advance (r : Random) : Random :=
  ⟨r.state * multiplier + increment⟩

/-- The generator after `n` steps. -/
def advanceBy : Nat → Random → Random
  | 0, r => r
  | n + 1, r => advanceBy n r.advance

/-- The generator of a seed, warmed up. -/
def ofSeed (seed : Int64) : Random :=
  advanceBy warmUp ⟨seed⟩

/-- The generator for want of a seed is that of zero. -/
instance : Inhabited Random := ⟨ofSeed 0⟩

/-- The fourteen bits of the state that a draw looks at, as a signed number: both the division
and the remainder truncate toward zero, so the value lies strictly between `-16384` and
`16384`. -/
def sample (r : Random) : Int :=
  (r.state.toInt.tdiv 65536).tmod 16384

/-- Draws a number below `n` by taking the non-negative remainder of the sample of the next
state; a bound of `0` draws `0`.  The state advances exactly once, whatever the bound. -/
def draw (r : Random) (n : UInt32) : UInt32 × Random :=
  let next := r.advance
  (if n = 0 then 0 else UInt32.ofNat (next.sample.emod n.toNat).toNat, next)

@[simp] theorem draw_snd (r : Random) (n : UInt32) : (r.draw n).2 = r.advance := rfl

@[simp] theorem draw_zero (r : Random) : (r.draw 0).1 = 0 := rfl

theorem draw_lt (r : Random) {n : UInt32} (h : n ≠ 0) : (r.draw n).1 < n := by
  have hn : 0 < n.toNat := by
    rcases Nat.eq_zero_or_pos n.toNat with h0 | h0
    · exact absurd (UInt32.toNat_inj.mp (by simpa using h0)) h
    · exact h0
  have h1 := Int.emod_nonneg r.advance.sample (b := (n.toNat : Int)) (by omega)
  have h2 := Int.emod_lt_of_pos r.advance.sample (b := (n.toNat : Int)) (by omega)
  have h3 := n.toNat_lt
  have e : (r.advance.sample.emod n.toNat) = r.advance.sample % (n.toNat : Int) := rfl
  rw [UInt32.lt_iff_toNat_lt]
  simp only [draw, h, if_false, e]
  rw [UInt32.toNat_ofNat', Nat.mod_eq_of_lt] <;> omega

end Random

end AntContest
