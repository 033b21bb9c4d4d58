import Mathlib.Algebra.Order.Ring.Int
import Mathlib.Tactic.Positivity
import Mathlib.Tactic.Ring

/-! # Finite binary64 numbers

The finite values of an IEEE-754 double, as the sign, mantissa and exponent it
stores.  Every such value is a whole number of *units* `2 ^ -1074`, so the value
of a double is the integer `units`: comparing two doubles, or a double with an
integer, is comparing integers, and a double is integral when `2 ^ 1074` divides
its units.  The two zeros are different doubles with the same units. -/

/-- A finite double: `± mantissa * 2 ^ exponent` units of `2 ^ -1074`. -/
structure Binary64 where
  negative : Bool
  mantissa : Nat
  exponent : Nat
  mantissa_lt : mantissa < 2 ^ 53
  exponent_le : exponent ≤ 2045
  /-- Only the smallest exponent stores mantissas without the leading bit. -/
  normal : 2 ^ 52 ≤ mantissa ∨ exponent = 0
deriving DecidableEq

namespace Binary64

/-- The least unit is `2 ^ -scale`. -/
def scale : Nat := 1074

/-- The number of units in the integer one. -/
def one : Nat := 2 ^ scale

theorem one_pos : 0 < one := Nat.two_pow_pos scale

theorem one_ne_zero : one ≠ 0 := Nat.ne_of_gt one_pos

/-- The distance from zero, in units. -/
def magnitude (f : Binary64) : Nat := f.mantissa * 2 ^ f.exponent

/-- The value of a double, in units. -/
def units (f : Binary64) : Int := if f.negative then -f.magnitude else f.magnitude

theorem natAbs_units (f : Binary64) : f.units.natAbs = f.magnitude := by
  unfold units
  split <;> simp

/-- Whether the value is an integer. -/
def IsInteger (f : Binary64) : Prop := (one : Int) ∣ f.units

instance (f : Binary64) : Decidable f.IsInteger :=
  inferInstanceAs (Decidable ((one : Int) ∣ f.units))

/-- The integer part, which is the value itself for an integral double. -/
def toInt (f : Binary64) : Int := f.units / one

/-- The double has exactly the value of the integer `i`. -/
def Holds (f : Binary64) (i : Int) : Prop := f.units = i * one

instance (f : Binary64) (i : Int) : Decidable (f.Holds i) :=
  inferInstanceAs (Decidable (_ = _))

theorem holds_toInt {f : Binary64} (h : f.IsInteger) : f.Holds f.toInt :=
  (Int.ediv_mul_cancel h).symm

theorem Holds.isInteger {f : Binary64} {i : Int} (h : f.Holds i) : f.IsInteger :=
  ⟨i, by rw [h, Int.mul_comm]⟩

theorem Holds.toInt_eq {f : Binary64} {i : Int} (h : f.Holds i) : f.toInt = i := by
  unfold toInt
  rw [h, Int.mul_ediv_cancel _ (Int.ne_of_gt (Int.natCast_pos.mpr one_pos))]

/-- Positive zero. -/
def zero : Binary64 := ⟨false, 0, 0, by decide, by decide, Or.inr rfl⟩

/-! ## The double nearest to an integer -/

/-- How many bits of `n` come after its first 53. -/
def shift (n : Nat) : Nat := n.log2 - 52

/-- The first 53 significant bits of `n`, rounded half to even. -/
def rounded (n : Nat) : Nat :=
  if 2 ^ shift n < 2 * (n % 2 ^ shift n) ∨
      2 * (n % 2 ^ shift n) = 2 ^ shift n ∧ n / 2 ^ shift n % 2 = 1 then
    n / 2 ^ shift n + 1
  else n / 2 ^ shift n

/-- The rounded bits and their weight; rounding up may carry into a 54th bit. -/
def significant (n : Nat) : Nat × Nat :=
  if rounded n < 2 ^ 53 then (rounded n, shift n) else (2 ^ 52, shift n + 1)

theorem div_le_rounded (n : Nat) : n / 2 ^ shift n ≤ rounded n := by
  unfold rounded
  split <;> omega

theorem significant_lt (n : Nat) : (significant n).1 < 2 ^ 53 := by
  unfold significant
  split
  · assumption
  · exact Nat.pow_lt_pow_right (by decide) (by decide)

theorem significant_ge {n : Nat} (h : 52 ≤ n.log2) : 2 ^ 52 ≤ (significant n).1 := by
  have hn : n ≠ 0 := by rintro rfl; simp at h
  have hkept : 2 ^ 52 ≤ n / 2 ^ shift n := by
    rw [Nat.le_div_iff_mul_le (Nat.two_pow_pos _), ← Nat.pow_add, shift,
      show 52 + (n.log2 - 52) = n.log2 from by omega]
    exact Nat.log2_self_le hn
  unfold significant
  split
  · exact Nat.le_trans hkept (div_le_rounded n)
  · exact Nat.le_refl _

/-- Nothing is rounded when the bits after the first 53 are zero. -/
theorem significant_exact {n : Nat} (h : 2 ^ shift n ∣ n) :
    significant n = (n / 2 ^ shift n, shift n) := by
  have hpos : 0 < 2 ^ shift n := Nat.two_pow_pos _
  have hkept : rounded n = n / 2 ^ shift n := by
    unfold rounded
    rw [Nat.mod_eq_zero_of_dvd h, if_neg (by omega)]
  have hlt : n / 2 ^ shift n < 2 ^ 53 := by
    rw [Nat.div_lt_iff_lt_mul hpos, ← Nat.pow_add]
    exact Nat.lt_of_lt_of_le Nat.lt_log2_self
      (Nat.pow_le_pow_right (by decide) (by unfold shift; omega))
  rw [significant, hkept, if_pos hlt]

/-- The least positive integer that has no nearest double. -/
def overflow : Nat := 2 ^ 1024 - 2 ^ 970

theorem overflow_le : overflow ≤ 2 ^ 1024 := by decide +kernel

theorem lt_overflow : (2 ^ 53 - 1) * 2 ^ 971 < overflow := by decide +kernel

/-- The integers with a nearest double. -/
def InRange (i : Int) : Prop := i.natAbs < overflow

instance (i : Int) : Decidable (InRange i) := inferInstanceAs (Decidable (_ < _))

/-- The double nearest to an integer in range, ties to even. -/
def ofInt (i : Int) : Binary64 :=
  if h : i.natAbs.log2 < 52 then
    { negative := decide (i < 0)
      mantissa := i.natAbs * 2 ^ (52 - i.natAbs.log2)
      exponent := if i = 0 then 0 else scale - 52 + i.natAbs.log2
      mantissa_lt := by
        have := Nat.mul_lt_mul_of_pos_right (Nat.lt_log2_self (n := i.natAbs))
          (Nat.two_pow_pos (52 - i.natAbs.log2))
        have hexp : i.natAbs.log2 + 1 + (52 - i.natAbs.log2) = 53 := by omega
        rwa [← Nat.pow_add, hexp] at this
      exponent_le := by unfold scale; split <;> omega
      normal := by
        by_cases h0 : i = 0
        · exact Or.inr (if_pos h0)
        · left
          have := Nat.mul_le_mul_right (2 ^ (52 - i.natAbs.log2))
            (Nat.log2_self_le (Int.natAbs_ne_zero.mpr h0))
          have hexp : i.natAbs.log2 + (52 - i.natAbs.log2) = 52 := by omega
          rwa [← Nat.pow_add, hexp] at this }
  else
    { negative := decide (i < 0)
      mantissa := (significant i.natAbs).1
      exponent := min 2045 (scale + (significant i.natAbs).2)
      mantissa_lt := significant_lt _
      exponent_le := Nat.min_le_left _ _
      normal := Or.inl (significant_ge (Nat.le_of_not_lt h)) }

/-- The bits a double keeps: an integer equal to some double has no significant
bit after its first 53. -/
theorem Holds.dvd {f : Binary64} {i : Int} (h : f.Holds i) :
    2 ^ shift i.natAbs ∣ i.natAbs := by
  unfold shift
  have hm : f.mantissa * 2 ^ f.exponent = i.natAbs * 2 ^ scale := by
    have := congrArg Int.natAbs h
    rwa [natAbs_units, Int.natAbs_mul, Int.natAbs_natCast] at this
  rcases Nat.lt_or_ge i.natAbs.log2 53 with hl | hl
  · rw [show i.natAbs.log2 - 52 = 0 from by omega]
    exact one_dvd _
  have hn : i.natAbs ≠ 0 := by intro h0; rw [h0] at hl; simp at hl
  have hself := Nat.log2_self_le hn
  have hf := f.mantissa_lt
  -- the exponent is at least that of the first lost bit, since the mantissa is short
  have hexp : scale + (i.natAbs.log2 - 52) ≤ f.exponent := by
    by_contra hlt
    have h1 : f.mantissa * 2 ^ f.exponent < 2 ^ 53 * 2 ^ (scale + (i.natAbs.log2 - 52) - 1) :=
      Nat.mul_lt_mul_of_lt_of_le hf (Nat.pow_le_pow_right (by decide) (by omega))
        (Nat.two_pow_pos _)
    have h2 := Nat.mul_le_mul_right (2 ^ scale) hself
    rw [← Nat.pow_add] at h1 h2
    have hexp : 53 + (scale + (i.natAbs.log2 - 52) - 1) = i.natAbs.log2 + scale := by omega
    rw [hm, hexp] at h1
    omega
  obtain ⟨d, hd⟩ := Nat.exists_eq_add_of_le hexp
  refine ⟨f.mantissa * 2 ^ d, Nat.eq_of_mul_eq_mul_right (Nat.two_pow_pos scale) ?_⟩
  rw [← hm, hd, Nat.pow_add, Nat.pow_add]
  ring

/-- A double's bits bound the integer they stand for. -/
theorem le_of_mul_eq {m e i s k bound : Nat} (h : m * 2 ^ e = i * 2 ^ s) (hm : m ≤ bound)
    (he : e ≤ k + s) : i ≤ bound * 2 ^ k := by
  have hle : i * 2 ^ s ≤ bound * 2 ^ k * 2 ^ s := by
    rw [← h, Nat.mul_assoc, ← Nat.pow_add]
    exact Nat.mul_le_mul hm (Nat.pow_le_pow_right (by decide) he)
  exact Nat.le_of_mul_le_mul_right hle (Nat.two_pow_pos s)

/-- The integer a double equals is in range. -/
theorem Holds.inRange {f : Binary64} {i : Int} (h : f.Holds i) : InRange i := by
  have hm : f.mantissa * 2 ^ f.exponent = i.natAbs * 2 ^ scale := by
    have := congrArg Int.natAbs h
    rwa [natAbs_units, Int.natAbs_mul, Int.natAbs_natCast] at this
  have hexp : f.exponent ≤ 971 + scale := f.exponent_le
  exact Nat.lt_of_le_of_lt (le_of_mul_eq hm (Nat.le_sub_one_of_lt f.mantissa_lt) hexp) lt_overflow

theorem log2_lt_of_lt {n k bound : Nat} (h0 : n ≠ 0) (h : n < bound) (hb : bound ≤ 2 ^ k) :
    n.log2 < k := (Nat.log2_lt h0).mpr (Nat.lt_of_lt_of_le h hb)

/-- **An integer that some double equals converts to such a double.** -/
theorem ofInt_holds {f : Binary64} {i : Int} (h : f.Holds i) (hi : InRange i) :
    (ofInt i).Holds i := by
  have hlog : i.natAbs.log2 < 1024 := by
    by_cases h0 : i.natAbs = 0
    · rw [h0]; decide
    · exact log2_lt_of_lt h0 hi overflow_le
  clear hi
  have key : (ofInt i).magnitude = i.natAbs * one := by
    unfold magnitude ofInt one
    split
    · rename_i hl
      dsimp only
      by_cases h0 : i = 0
      · simp [h0]
      · rw [if_neg h0, Nat.mul_assoc, ← Nat.pow_add]
        have hexp : 52 - i.natAbs.log2 + (scale - 52 + i.natAbs.log2) = scale := by
          unfold scale; omega
        rw [hexp]
    -- a large integer loses zero bits only, as a double equals it
    · rename_i hl
      dsimp only
      rw [significant_exact h.dvd]
      dsimp only
      rw [Nat.min_eq_right (by unfold shift scale; omega), Nat.pow_add, ← Nat.mul_assoc,
        Nat.mul_right_comm, Nat.div_mul_cancel h.dvd]
  have hneg : (ofInt i).negative = decide (i < 0) := by
    unfold ofInt
    split <;> rfl
  rw [Holds, units, key, hneg]
  split
  · rename_i hi0
    have := of_decide_eq_true hi0
    rw [Nat.cast_mul, ← Int.neg_mul, Int.ofNat_natAbs_of_nonpos (by omega), Int.neg_neg]
  · rename_i hi0
    have : ¬ i < 0 := by simpa using hi0
    rw [Nat.cast_mul, Int.natAbs_of_nonneg (by omega)]

/-! ## Doubling -/

/-- Twice a double, unless that is too large for one. -/
def double? (f : Binary64) : Option Binary64 :=
  if h : f.exponent = 0 ∧ 2 * f.mantissa < 2 ^ 53 then
    some
      { negative := f.negative
        mantissa := 2 * f.mantissa
        exponent := 0
        mantissa_lt := h.2
        exponent_le := Nat.zero_le _
        normal := Or.inr rfl }
  else if he : f.exponent < 2045 then
    some
      { negative := f.negative
        mantissa := f.mantissa
        exponent := f.exponent + 1
        mantissa_lt := f.mantissa_lt
        exponent_le := he
        normal := by
          have := f.normal
          omega }
  else none

/-- `f * 2 ^ i`, unless that is too large for a double.  No doubling rounds. -/
def timesPow? (f : Binary64) : Nat → Option Binary64
  | 0 => some f
  | i + 1 => (f.timesPow? i).bind double?

theorem units_double? {f g : Binary64} (h : f.double? = some g) : g.units = f.units * 2 := by
  unfold double? at h
  split_ifs at h with h0 he
  · cases h
    simp only [units, magnitude, h0.1]
    split <;> push_cast <;> ring
  · cases h
    simp only [units, magnitude, Nat.pow_succ]
    split <;> push_cast <;> ring

/-- Doubling is exact. -/
theorem units_timesPow? {f g : Binary64} {i : Nat} (h : f.timesPow? i = some g) :
    g.units = f.units * 2 ^ i := by
  induction i generalizing g with
  | zero =>
    cases h
    simp
  | succ i ih =>
    rw [timesPow?] at h
    obtain ⟨k, hk, hg⟩ := Option.bind_eq_some_iff.mp h
    rw [units_double? hg, ih hk, Int.pow_succ, Int.mul_assoc]

-- evaluating the unit would build a number of a thousand bits
attribute [irreducible] one

end Binary64
