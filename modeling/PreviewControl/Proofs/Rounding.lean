import Mathlib.Tactic.Linarith
import Mathlib.Tactic.Ring
import Mathlib.Tactic.FieldSimp
import Mathlib.Tactic.Positivity
import Mathlib.Algebra.Order.Field.Power
import PreviewControl.Numeric.Decimal

/-!
# The nearest double

What it means for a double to be the nearest one to a rational number, that there is only one, and
that ratios, products and decimal numerals are rounded to it. Of two equally near doubles the one
with an even mantissa is taken, and what is not nearer to the greatest double than to the one that
would follow it is infinite.
-/
namespace PreviewControl.Binary64

/-! ## Doubles and the numbers that they stand for -/

/-- A mantissa and an exponent as a double has them: no other pair stands for the same number. -/
structure Canonical (m : Nat) (e : Int) : Prop where
  mantissa : m < 2 ^ 53
  lowest : -1074 ≤ e
  highest : e ≤ 971
  normal : 2 ^ 52 ≤ m ∨ e = -1074

/-- The number `m * 2 ^ e`. -/
def scaled (m : Nat) (e : Int) : ℚ := m * 2 ^ e

/-- The middle between the greatest double and the one that would follow. -/
def overflowBound : ℚ := 2 ^ 1024 - 2 ^ 970

/-- The double is the one nearest to `v`, which is not negative; of two equally near ones, the one
with an even mantissa. Beyond the greatest double it is infinite. -/
def Nearest (v : ℚ) : Binary64 → Prop
  | nan _ => False
  | infinite negative => negative = false ∧ overflowBound ≤ v
  | finite negative m e => negative = false ∧ Canonical m e ∧ v < overflowBound ∧
      ∀ n f, Canonical n f → |scaled m e - v| ≤ |scaled n f - v| ∧
        (|scaled m e - v| = |scaled n f - v| → scaled m e = scaled n f ∨ Even m)

variable {m n d : Nat} {e f : Int} {v : ℚ}

theorem zpow_split (h : f ≤ e) : (2 : ℚ) ^ e = 2 ^ (e - f).toNat * 2 ^ f := by
  rw [← zpow_natCast, ← zpow_add₀ (by norm_num)]
  congr 1
  omega

/-- On a coarser grid every point is one of the finer grid. -/
theorem scaled_of_le (h : f ≤ e) : scaled m e = scaled (m * 2 ^ (e - f).toNat) f := by
  rw [scaled, scaled, zpow_split h]
  push_cast
  ring

theorem scaled_le_scaled : scaled m e ≤ scaled n e ↔ m ≤ n := by
  rw [scaled, scaled, mul_le_mul_iff_left₀ (by positivity)]
  exact Nat.cast_le

theorem scaled_nonneg : 0 ≤ scaled m e := by
  unfold scaled
  positivity

/-- A double of a lower exponent is below all that are normal at a higher one. -/
theorem scaled_lt_of_lt (hm : m < 2 ^ 53) (h : f < e) : scaled m f < scaled (2 ^ 52) e := by
  have hlast : (m : ℚ) < 2 ^ 53 := by exact_mod_cast hm
  have hstep : (2 : ℚ) ^ (f + 1) ≤ 2 ^ e := zpow_le_zpow_right₀ (by norm_num) h
  rw [zpow_add_one₀ (by norm_num)] at hstep
  have hpos : (0 : ℚ) < 2 ^ f := by positivity
  unfold scaled
  push_cast
  nlinarith

/-! ## Quotients -/

theorem cast_div_eq (hd : 0 < d) : (n : ℚ) / d = (n / d : Nat) + (n % d : Nat) / d := by
  have hd' : (d : ℚ) ≠ 0 := by positivity
  have hn : (n : ℚ) = d * (n / d : Nat) + (n % d : Nat) := by
    exact_mod_cast (Nat.div_add_mod n d).symm
  field_simp
  linarith

theorem nearestQuotient_near (hd : 0 < d) : |(nearestQuotient n d : ℚ) - n / d| ≤ 1 / 2 ∧
    (|(nearestQuotient n d : ℚ) - n / d| = 1 / 2 → Even (nearestQuotient n d)) := by
  have hd' : (0 : ℚ) < d := by exact_mod_cast hd
  rw [cast_div_eq hd]
  have hlt : n % d < d := Nat.mod_lt n hd
  have hrest : ((n % d : Nat) : ℚ) / d < 1 := (div_lt_one hd').2 (by exact_mod_cast hlt)
  have hrest0 : 0 ≤ ((n % d : Nat) : ℚ) / d := by positivity
  have hhalf : 2 * (((n % d : Nat) : ℚ) / d) = (2 * (n % d) : Nat) / d := by push_cast; ring
  unfold nearestQuotient
  dsimp only
  split
  · next hlow =>
    have hlow : 2 * (((n % d : Nat) : ℚ) / d) < 1 := by
      rw [hhalf, div_lt_one hd']
      exact_mod_cast hlow
    rw [show ((n / d : Nat) : ℚ) - ((n / d : Nat) + ((n % d : Nat) : ℚ) / d) =
      -(((n % d : Nat) : ℚ) / d) by ring, abs_neg, abs_of_nonneg hrest0]
    constructor
    · linarith
    · intro h
      linarith
  · next hlow =>
    split
    · next hhigh =>
      have hhigh : 1 < 2 * (((n % d : Nat) : ℚ) / d) := by
        rw [hhalf, one_lt_div hd']
        exact_mod_cast hhigh
      rw [show ((n / d + 1 : Nat) : ℚ) - ((n / d : Nat) + ((n % d : Nat) : ℚ) / d) =
        1 - ((n % d : Nat) : ℚ) / d by push_cast; ring, abs_of_nonneg (by linarith)]
      constructor
      · linarith
      · intro h
        linarith
    · next hhigh =>
      have heq : 2 * (((n % d : Nat) : ℚ) / d) = 1 := by
        rw [hhalf, div_eq_one_iff_eq hd'.ne']
        exact_mod_cast Nat.le_antisymm (Nat.not_lt.1 hhigh) (Nat.not_lt.1 hlow)
      have heven : Even (n / d + n / d % 2) := by
        rw [Nat.even_iff]
        omega
      refine ⟨?_, fun _ => heven⟩
      rcases Nat.mod_two_eq_zero_or_one (n / d) with h | h <;> rw [h] <;> push_cast <;>
        rw [abs_le] <;> constructor <;> linarith

/-! ## The nearest double -/

theorem abs_scaled_sub (m : Nat) (e : Int) (v : ℚ) :
    |scaled m e - v| = |m - v / 2 ^ e| * 2 ^ e := by
  have hpos : (0 : ℚ) < 2 ^ e := by positivity
  rw [← abs_of_pos hpos, ← abs_mul, abs_of_pos hpos, sub_mul, div_mul_cancel₀ _ hpos.ne', scaled]

/-- A whole number within half of `w`, even at a distance of just half, is the nearest one. -/
theorem near_whole {w : ℚ} (near : |m - w| ≤ 1 / 2) (tie : |m - w| = 1 / 2 → Even m) (k : Nat) :
    |m - w| ≤ |k - w| ∧ (|m - w| = |k - w| → m = k ∨ Even m) := by
  by_cases hk : m = k
  · subst hk
    exact ⟨le_rfl, fun _ => .inl rfl⟩
  · have hstep : (1 : ℚ) ≤ |(m : ℚ) - k| := by
      have hint : (1 : Int) ≤ |(m : Int) - k| := Int.one_le_abs (by omega)
      exact_mod_cast hint
    have htriangle : |(m : ℚ) - k| ≤ |m - w| + |k - w| := by
      rw [abs_sub_comm (k : ℚ) w]
      exact abs_sub_le (m : ℚ) w k
    exact ⟨by linarith, fun heq => .inr (tie (by linarith))⟩

/-- The exponent at which the mantissa of `v` has as many digits as there are, unless the exponent
is the lowest one. -/
structure Fits (v : ℚ) (e : Int) : Prop where
  lowest : -1074 ≤ e
  below : v < scaled (2 ^ 53) e
  normal : scaled (2 ^ 52) e ≤ v ∨ e = -1074

theorem Fits.nearest (fits : Fits v e) (near : |m - v / 2 ^ e| ≤ 1 / 2)
    (tie : |m - v / 2 ^ e| = 1 / 2 → Even m) (other : Canonical n f) :
    |scaled m e - v| ≤ |scaled n f - v| ∧
      (|scaled m e - v| = |scaled n f - v| → scaled m e = scaled n f ∨ Even m) := by
  have hpos : (0 : ℚ) < 2 ^ e := by positivity
  have hgrid (k : Nat) : |scaled m e - v| ≤ |scaled k e - v| ∧
      (|scaled m e - v| = |scaled k e - v| → scaled m e = scaled k e ∨ Even m) := by
    obtain ⟨hle, heq⟩ := near_whole near tie k
    rw [abs_scaled_sub, abs_scaled_sub]
    refine ⟨mul_le_mul_of_nonneg_right hle hpos.le, fun h => ?_⟩
    exact (heq (mul_right_cancel₀ hpos.ne' h)).imp_left fun h => by rw [h]
  rcases le_or_gt e f with hef | hfe
  · rw [scaled_of_le hef]
    exact hgrid _
  · -- A finer grid ends below the normal mantissas of `e`, and `v` is not below them.
    have hnormal : scaled (2 ^ 52) e ≤ v :=
      fits.normal.resolve_right fun he => absurd other.lowest (by omega)
    have hbelow := scaled_lt_of_lt other.mantissa hfe
    have hcloser : |scaled (2 ^ 52) e - v| < |scaled n f - v| := by
      rw [abs_of_nonpos (by linarith), abs_of_nonpos (by linarith)]
      linarith
    have hlt := lt_of_le_of_lt (hgrid (2 ^ 52)).1 hcloser
    exact ⟨hlt.le, fun heq => absurd heq hlt.ne⟩

/-! ## Rounding a ratio -/

theorem cast_pow2 (k : Nat) : ((pow2 k : Nat) : ℚ) = 2 ^ k := Nat.cast_pow 2 k

theorem shiftRatio_pos (hd : 0 < d) : 0 < (shiftRatio n d e).2 := by
  unfold shiftRatio
  split
  · exact Nat.mul_pos hd (Nat.two_pow_pos _)
  · exact hd

theorem shiftRatio_div (n d : Nat) (e : Int) :
    ((shiftRatio n d e).1 : ℚ) / (shiftRatio n d e).2 = n / d / 2 ^ e := by
  unfold shiftRatio
  split
  · next h =>
    obtain ⟨k, rfl⟩ := Int.eq_ofNat_of_zero_le h
    rw [div_div, Nat.cast_mul, cast_pow2, Int.toNat_natCast, zpow_natCast]
  · next h =>
    obtain ⟨k, hk⟩ := Int.eq_ofNat_of_zero_le (show 0 ≤ -e by omega)
    obtain rfl : e = -(k : Int) := by omega
    rw [neg_neg, Nat.cast_mul, cast_pow2, Int.toNat_natCast, zpow_neg, zpow_natCast, div_inv_eq_mul,
      mul_div_right_comm]

theorem scaled_pow (k : Nat) (e : Int) : scaled (2 ^ k) e = 2 ^ (e + k) := by
  rw [scaled, Nat.cast_pow, Nat.cast_ofNat, add_comm, zpow_add₀ (by norm_num), zpow_natCast]

/-- A mantissa with one bit too many is the least one of the next exponent. -/
theorem scaled_carry (e : Int) : scaled (2 ^ 52) (e + 1) = scaled (2 ^ 53) e := by
  rw [scaled_pow, scaled_pow]
  congr 1
  push_cast
  ring

theorem zpow_mul_pow {i : Int} {k a : Nat} (h : i + k = a) : (2 : ℚ) ^ i * 2 ^ k = 2 ^ a := by
  rw [← zpow_natCast, ← zpow_natCast, ← zpow_add₀ (by norm_num), h]

theorem fits_lastBit (hn : 0 < n) (hd : 0 < d) : Fits (n / d) (lastBit n d) := by
  have hd' : (0 : ℚ) < d := by exact_mod_cast hd
  unfold lastBit
  extract_lets guess s
  have hlow : scaled (2 ^ 52) guess ≤ n / d := by
    have hnlow : (2 : ℚ) ^ n.log2 ≤ n := by exact_mod_cast Nat.log2_self_le hn.ne'
    have hdhigh : (d : ℚ) ≤ 2 ^ (d.log2 + 1) := by exact_mod_cast Nat.lt_log2_self.le
    rw [scaled_pow, le_div_iff₀ hd']
    calc (2 : ℚ) ^ (guess + (52 : Nat)) * d
        ≤ 2 ^ (guess + (52 : Nat)) * 2 ^ (d.log2 + 1) := by gcongr
      _ = 2 ^ n.log2 := zpow_mul_pow (by omega)
      _ ≤ n := hnlow
  have hhigh : (n / d : ℚ) < scaled (2 ^ 53) (guess + 1) := by
    have hnhigh : (n : ℚ) < 2 ^ (n.log2 + 1) := by exact_mod_cast Nat.lt_log2_self
    have hdlow : (2 : ℚ) ^ d.log2 ≤ d := by exact_mod_cast Nat.log2_self_le hd.ne'
    rw [scaled_pow, div_lt_iff₀ hd']
    calc (n : ℚ) < 2 ^ (n.log2 + 1) := hnhigh
      _ = 2 ^ (guess + 1 + (53 : Nat)) * 2 ^ d.log2 := (zpow_mul_pow (by omega)).symm
      _ ≤ 2 ^ (guess + 1 + (53 : Nat)) * d := by gcongr
  have hsplit : pow2 53 ≤ s.1 / s.2 ↔ scaled (2 ^ 53) guess ≤ n / d := by
    have hs : (0 : ℚ) < s.2 := by exact_mod_cast shiftRatio_pos hd
    rw [Nat.le_div_iff_mul_le (shiftRatio_pos hd), ← Nat.cast_le (α := ℚ), Nat.cast_mul,
      ← le_div_iff₀ hs, shiftRatio_div, le_div_iff₀ (by positivity)]
    rfl
  -- Before it is raised to the lowest one, the exponent leaves a mantissa of 53 bits.
  generalize hraw : (if pow2 53 ≤ s.1 / s.2 then guess + 1 else guess) = raw
  have hraw : scaled (2 ^ 52) raw ≤ n / d ∧ (n / d : ℚ) < scaled (2 ^ 53) raw := by
    rw [← hraw]
    split
    · next h => exact ⟨scaled_carry guess ▸ hsplit.1 h, hhigh⟩
    · next h => exact ⟨hlow, not_le.1 fun hle => h (hsplit.2 hle)⟩
  rcases le_total raw (-1074) with hle | hge
  · rw [max_eq_right hle]
    refine ⟨le_rfl, lt_of_lt_of_le hraw.2 ?_, .inr rfl⟩
    rw [scaled_pow, scaled_pow]
    exact zpow_le_zpow_right₀ (by norm_num) (by omega)
  · rw [max_eq_left hge]
    exact ⟨hge, hraw.2, .inl hraw.1⟩

theorem overflowBound_eq : overflowBound = (2 ^ 53 - 1 / 2) * 2 ^ (971 : Int) := by
  have h : (2 : ℚ) ^ (971 : Int) = 2 * 2 ^ 970 := by
    rw [show (971 : Int) = ((970 : Nat) : Int) + 1 by rfl, zpow_add_one₀ (by norm_num),
      zpow_natCast, mul_comm]
  rw [overflowBound, h, show 1024 = 54 + 970 from rfl, pow_add]
  generalize (2 : ℚ) ^ 970 = unit
  ring

theorem lt_overflowBound (h : v < scaled (2 ^ 53) e) (he : e ≤ 970) : v < overflowBound := by
  refine h.trans_le ?_
  have hstep : scaled (2 ^ 53) e ≤ 2 ^ 52 * 2 ^ (971 : Int) := by
    rw [scaled_pow, ← zpow_natCast, ← zpow_add₀ (by norm_num)]
    exact zpow_le_zpow_right₀ (by norm_num) (by push_cast; omega)
  refine hstep.trans ?_
  rw [overflowBound_eq]
  gcongr
  norm_num

/-- A bound with room to spare. -/
theorem lt_overflowBound_of_le (h : v ≤ 2 ^ 200) : v < overflowBound := by
  refine lt_overflowBound (e := 148) (h.trans_lt ?_) (by norm_num)
  rw [scaled_pow]
  norm_num

theorem overflowBound_le (h : (2 ^ 53 - 1 / 2) * 2 ^ e ≤ v) (he : 971 ≤ e) :
    overflowBound ≤ v := by
  refine le_trans ?_ h
  rw [overflowBound_eq]
  have hpow : (2 : ℚ) ^ (971 : Int) ≤ 2 ^ e := zpow_le_zpow_right₀ (by norm_num) he
  gcongr

theorem canonical_zero : Canonical 0 (-1074) := ⟨by norm_num, le_rfl, by norm_num, .inr rfl⟩

theorem scaled_zero (e : Int) : scaled 0 e = 0 := by rw [scaled, Nat.cast_zero, zero_mul]

theorem nearest_zero : Nearest 0 (finite false 0 (-1074)) := by
  refine ⟨rfl, canonical_zero, ?_, fun n f _ => ⟨?_, fun _ => .inr ?_⟩⟩
  · rw [overflowBound_eq]
    have hpos : (0 : ℚ) < 2 ^ (971 : Int) := by positivity
    exact mul_pos (by norm_num) hpos
  · rw [scaled_zero, sub_zero, abs_zero]
    exact abs_nonneg _
  · decide

theorem Fits.le_overflowBound (fits : Fits v e) (he : 971 < e) : overflowBound ≤ v := by
  have hnormal := fits.normal.resolve_right (by omega)
  refine overflowBound_le (le_trans ?_ hnormal) (show 971 ≤ e - 1 by omega)
  have hstep : (2 : ℚ) ^ e = 2 ^ (e - 1) * 2 := by
    rw [← zpow_add_one₀ (by norm_num), sub_add_cancel]
  rw [scaled, hstep]
  have hpos : (0 : ℚ) < 2 ^ (e - 1) := by positivity
  push_cast
  linarith

/-- At the exponent that fits, a near mantissa has as many digits as there are, or one bit more. -/
theorem Fits.mantissa (fits : Fits v e) (near : |m - v / 2 ^ e| ≤ 1 / 2) :
    m ≤ 2 ^ 53 ∧ (2 ^ 52 ≤ m ∨ e = -1074) := by
  have hpos : (0 : ℚ) < 2 ^ e := by positivity
  obtain ⟨hlow, hhigh⟩ := abs_le.1 near
  constructor
  · have hbelow : v / 2 ^ e < 2 ^ 53 := by
      rw [div_lt_iff₀ hpos]
      exact_mod_cast fits.below
    have h : (m : ℚ) < (2 ^ 53 + 1 : Nat) := by
      push_cast
      linarith
    exact Nat.le_of_lt_succ (by exact_mod_cast h)
  · refine fits.normal.imp_left fun h => ?_
    have hw : (2 : ℚ) ^ 52 ≤ v / 2 ^ e := by
      rw [le_div_iff₀ hpos]
      exact_mod_cast h
    have h : ((2 ^ 52 : Nat) : ℚ) < (m + 1 : Nat) := by
      push_cast
      linarith
    exact Nat.le_of_lt_succ (by exact_mod_cast h)

/-- At the exponent that fits, the nearest whole mantissa makes the nearest double; a mantissa with
a bit too many is the least one of the next exponent. -/
theorem Fits.nearest_double (fits : Fits v e) (near : |m - v / 2 ^ e| ≤ 1 / 2)
    (tie : |m - v / 2 ^ e| = 1 / 2 → Even m) :
    Nearest v (if m < pow2 53 then (if 971 < e then infinite false else finite false m e)
      else if 970 < e then infinite false else finite false (pow2 52) (e + 1)) := by
  have hpos : (0 : ℚ) < 2 ^ e := by positivity
  have hv : v = v / 2 ^ e * 2 ^ e := (div_mul_cancel₀ _ hpos.ne').symm
  obtain ⟨hlow, hhigh⟩ := abs_le.1 near
  obtain ⟨hmbelow, hnormal⟩ := fits.mantissa near
  split
  · next hm =>
    split
    · next he => exact ⟨rfl, fits.le_overflowBound he⟩
    · next he =>
      refine ⟨rfl, ⟨hm, fits.lowest, by omega, hnormal⟩, ?_, fun n f => fits.nearest near tie⟩
      rcases lt_or_eq_of_le (not_lt.1 he) with he | rfl
      · exact lt_overflowBound fits.below (by omega)
      · -- Halfway beyond the greatest double the mantissa would be odd, so it is not kept there.
        by_contra hover
        have hw : 2 ^ 53 - 1 / 2 ≤ v / 2 ^ (971 : Int) := by
          rw [le_div_iff₀ hpos, ← overflowBound_eq]
          exact not_lt.1 hover
        have hlast : (m : ℚ) + 1 ≤ 2 ^ 53 := by exact_mod_cast hm
        have hodd : m + 1 = 2 ^ 53 := by
          have h : (m : ℚ) + 1 = 2 ^ 53 := by linarith
          exact_mod_cast h
        have heven := Nat.even_iff.1 (tie (by rw [abs_of_nonpos] <;> linarith))
        omega
  · next hm =>
    obtain rfl : m = 2 ^ 53 := le_antisymm hmbelow (not_lt.1 hm)
    split
    · next he =>
      refine ⟨rfl, overflowBound_le ?_ (show 971 ≤ e by omega)⟩
      rw [hv]
      gcongr
      push_cast at hhigh
      linarith
    · next he =>
      have heven : Even (2 ^ 52) := Nat.even_pow.2 ⟨even_two, by norm_num⟩
      have hlowest := fits.lowest
      change Nearest v (finite false (2 ^ 52) (e + 1))
      refine ⟨rfl, ⟨by norm_num, by omega, by omega, .inl le_rfl⟩,
        lt_overflowBound fits.below (by omega), fun n f other => ?_⟩
      rw [scaled_carry]
      exact ⟨(fits.nearest near tie other).1, fun _ => .inr heven⟩

/-- The double that a ratio is rounded to is the nearest one. -/
theorem nearest_ofRatio (n : Nat) (hd : 0 < d) : Nearest (n / d) (ofRatio false n d) := by
  rcases Nat.eq_zero_or_pos n with rfl | hn
  · rw [Nat.cast_zero, zero_div]
    exact nearest_zero
  · obtain ⟨near, tie⟩ := nearestQuotient_near (n := (shiftRatio n d (lastBit n d)).1)
      (shiftRatio_pos (e := lastBit n d) (n := n) hd)
    rw [shiftRatio_div] at near tie
    unfold ofRatio
    rw [if_neg hn.ne']
    exact (fits_lastBit hn hd).nearest_double near tie

/-! ## There is one nearest double -/

theorem Canonical.le_exponent (low : Canonical m e) (high : Canonical n f)
    (h : scaled m e ≤ scaled n f) : e ≤ f := by
  by_contra hlt
  have hnormal : 2 ^ 52 ≤ m := low.normal.resolve_right fun he => by
    have hlowest := high.lowest
    omega
  have hbelow := scaled_lt_of_lt high.mantissa (not_le.1 hlt)
  exact absurd (hbelow.trans_le (scaled_le_scaled.2 hnormal)) (not_lt.2 h)

theorem Canonical.inj (a : Canonical m e) (b : Canonical n f) (h : scaled m e = scaled n f) :
    m = n ∧ e = f := by
  obtain rfl : e = f := le_antisymm (a.le_exponent b h.le) (b.le_exponent a h.ge)
  exact ⟨le_antisymm (scaled_le_scaled.1 h.le) (scaled_le_scaled.1 h.ge), rfl⟩

/-- Two different doubles with even mantissas have another one between them. -/
theorem Canonical.exists_between (a : Canonical m e) (b : Canonical n f) (hm : Even m)
    (hn : Even n) (h : scaled m e < scaled n f) :
    ∃ k g, Canonical k g ∧ scaled m e < scaled k g ∧ scaled k g < scaled n f := by
  have hlast : m + 1 < 2 ^ 53 := by
    have hmantissa := a.mantissa
    rw [Nat.even_iff] at hm
    omega
  have next : Canonical (m + 1) e :=
    ⟨hlast, a.lowest, a.highest, a.normal.imp_left Nat.le_succ_of_le⟩
  have hle : scaled (m + 1) e ≤ scaled n f := by
    have hef := a.le_exponent b h.le
    rw [scaled_of_le hef] at h ⊢
    exact scaled_le_scaled.2 (lt_of_not_ge fun hge => absurd (scaled_le_scaled.2 hge) (not_le.2 h))
  refine ⟨m + 1, e, next, ?_, lt_of_le_of_ne hle fun heq => ?_⟩
  · exact lt_of_not_ge fun hge => absurd (scaled_le_scaled.1 hge) (Nat.not_succ_le_self m)
  · obtain ⟨rfl, _⟩ := next.inj b heq
    exact absurd hn (Nat.not_even_iff_odd.2 hm.add_one)

private theorem not_lt_of_nearest {m n : Nat} {e f : Int}
    (a : Nearest v (finite false m e)) (b : Nearest v (finite false n f)) :
    ¬scaled m e < scaled n f := by
  intro hlt
  obtain ⟨_, ha, _, hnear⟩ := a
  obtain ⟨_, hb, _, hnear'⟩ := b
  obtain ⟨hle, htie⟩ := hnear n f hb
  obtain ⟨hge, htie'⟩ := hnear' m e ha
  have heq := le_antisymm hle hge
  obtain ⟨k, g, hk, hlow, hhigh⟩ := ha.exists_between hb ((htie heq).resolve_left hlt.ne)
    ((htie' heq.symm).resolve_left hlt.ne') hlt
  have hmiddle : v - scaled m e = scaled n f - v := by
    rcases abs_eq_abs.1 heq with h | h <;> linarith
  have hcloser : |scaled k g - v| < |scaled m e - v| := by
    rw [abs_of_neg (by linarith : scaled m e - v < 0), abs_lt]
    constructor <;> linarith
  exact absurd (hnear k g hk).1 (not_le.2 hcloser)

theorem Nearest.unique {x y : Binary64} (hx : Nearest v x) (hy : Nearest v y) : x = y := by
  cases x with
  | nan => exact hx.elim
  | infinite =>
    cases y with
    | nan => exact hy.elim
    | infinite => rw [hx.1, hy.1]
    | finite => exact absurd hx.2 (not_le.2 hy.2.2.1)
  | finite s m e =>
    cases y with
    | nan => exact hy.elim
    | infinite => exact absurd hy.2 (not_le.2 hx.2.2.1)
    | finite t n f =>
      obtain rfl := hx.1
      obtain rfl := hy.1
      have hsame := le_antisymm (not_lt.1 (not_lt_of_nearest hy hx))
        (not_lt.1 (not_lt_of_nearest hx hy))
      obtain ⟨rfl, rfl⟩ := hx.2.1.inj hy.2.1 hsame
      rfl

/-! ## Products -/

theorem nearest_ofScaled (m : Nat) (e : Int) : Nearest (scaled m e) (ofScaled false m e) := by
  unfold ofScaled
  split
  · next h =>
    obtain ⟨k, rfl⟩ := Int.eq_ofNat_of_zero_le h
    have h := nearest_ofRatio (m * pow2 k) Nat.one_pos
    rwa [Nat.cast_one, div_one, Nat.cast_mul, cast_pow2, ← zpow_natCast] at h
  · next h =>
    obtain ⟨k, hk⟩ := Int.eq_ofNat_of_zero_le (show 0 ≤ -e by omega)
    obtain rfl : e = -(k : Int) := by omega
    have h := nearest_ofRatio m (Nat.two_pow_pos k)
    rw [Nat.cast_pow, Nat.cast_ofNat, ← zpow_natCast, div_eq_mul_inv, ← zpow_neg] at h
    rwa [neg_neg, Int.toNat_natCast]

theorem nearest_mul (m n : Nat) (e f : Int) :
    Nearest (scaled m e * scaled n f) (finite false m e * finite false n f) := by
  have h := nearest_ofScaled (m * n) (e + f)
  rwa [scaled, Nat.cast_mul, zpow_add₀ (by norm_num), mul_mul_mul_comm] at h

/-! ## How near the nearest double is -/

theorem exists_ratio (h : 0 ≤ v) : ∃ n d : Nat, 0 < d ∧ v = n / d := by
  refine ⟨v.num.toNat, v.den, v.pos, ?_⟩
  have hnum : ((v.num.toNat : Int) : ℚ) = v.num := by
    rw [Int.toNat_of_nonneg (Rat.num_nonneg.2 h)]
  rw [← Int.cast_natCast v.num.toNat, hnum, Rat.num_div_den]

theorem exists_fits (h : 0 ≤ v) : ∃ e, Fits v e := by
  obtain ⟨n, d, hd, rfl⟩ := exists_ratio h
  rcases Nat.eq_zero_or_pos n with rfl | hn
  · refine ⟨-1074, le_rfl, ?_, .inr rfl⟩
    rw [Nat.cast_zero, zero_div, scaled_pow]
    positivity
  · exact ⟨_, fits_lastBit hn hd⟩

theorem exists_near (h : 0 ≤ v) : ∃ m : Nat, |m - v| ≤ 1 / 2 := by
  obtain ⟨n, d, hd, rfl⟩ := exists_ratio h
  exact ⟨_, (nearestQuotient_near hd).1⟩

theorem exists_nearest (h : 0 ≤ v) : ∃ x, Nearest v x := by
  obtain ⟨n, d, hd, rfl⟩ := exists_ratio h
  exact ⟨_, nearest_ofRatio n hd⟩

theorem Nearest.isFinite_iff {x : Binary64} (h : Nearest v x) :
    x.isFinite = true ↔ v < overflowBound := by
  cases x with
  | nan => exact h.elim
  | infinite => exact ⟨nofun, fun hlt => absurd h.2 (not_le.2 hlt)⟩
  | finite => exact ⟨fun _ => h.2.2.1, fun _ => rfl⟩

/-- Zero is a double, and it is not nearer. -/
theorem Nearest.le_two_mul (h : Nearest v (finite false m e)) (h0 : 0 ≤ v) :
    scaled m e ≤ 2 * v := by
  have hnear := (h.2.2.2 0 (-1074) canonical_zero).1
  rw [scaled_zero, zero_sub, abs_neg, abs_of_nonneg h0] at hnear
  linarith [le_abs_self (scaled m e - v)]

/-- A double is nearest to itself. -/
theorem Nearest.eq_of_canonical (h : Nearest v (finite false m e)) (other : Canonical n f)
    (hv : scaled n f = v) : scaled m e = v := by
  have hnear := (h.2.2.2 n f other).1
  rw [hv, sub_self, abs_zero] at hnear
  exact sub_eq_zero.1 (abs_nonpos_iff.1 hnear)

/-- The nearest double is off by half of the last bit at most, at every exponent at which the
mantissa has no bit too many. -/
theorem Nearest.error (h : Nearest v (finite false m e)) (h0 : 0 ≤ v) (hv : v < scaled (2 ^ 53) f)
    (hlow : -1074 ≤ f) (hhigh : f ≤ 970) : |scaled m e - v| ≤ 2 ^ f / 2 := by
  obtain ⟨g, fits⟩ := exists_fits h0
  have hpos : (0 : ℚ) < 2 ^ g := by positivity
  obtain ⟨k, near⟩ := exists_near (div_nonneg h0 hpos.le)
  obtain ⟨hk, hnormal⟩ := fits.mantissa near
  have hgf : g ≤ f := by
    rcases fits.normal with hg | rfl
    · rw [scaled_pow] at hg hv
      have hlt := (zpow_lt_zpow_iff_right₀ (by norm_num)).1 (hg.trans_lt hv)
      push_cast at hlt
      omega
    · exact hlow
  obtain ⟨n, i, other, hsame⟩ : ∃ n i, Canonical n i ∧ scaled n i = scaled k g := by
    have hlowest := fits.lowest
    rcases lt_or_eq_of_le hk with hlt | rfl
    · exact ⟨k, g, ⟨hlt, hlowest, by omega, hnormal⟩, rfl⟩
    · exact ⟨2 ^ 52, g + 1, ⟨by norm_num, by omega, by omega, .inl le_rfl⟩, scaled_carry g⟩
  calc |scaled m e - v| ≤ |scaled k g - v| := hsame ▸ (h.2.2.2 n i other).1
    _ = |k - v / 2 ^ g| * 2 ^ g := abs_scaled_sub k g v
    _ ≤ 1 / 2 * 2 ^ g := by gcongr
    _ ≤ 1 / 2 * 2 ^ f := by gcongr; norm_num
    _ = 2 ^ f / 2 := by ring

theorem two_mul_scaled (m : Nat) (e : Int) : 2 * scaled m e = scaled m (e + 1) := by
  rw [scaled, scaled, zpow_add_one₀ (by norm_num)]
  ring

theorem scaled_two_mul (m : Nat) (e : Int) : scaled (2 * m) e = 2 * scaled m e := by
  rw [scaled, scaled, Nat.cast_mul, Nat.cast_ofNat, mul_assoc]

/-- Twice a double is a double, unless it is too great for one. -/
theorem Canonical.two_mul (h : Canonical m e)
    (hnear : Nearest (2 * scaled m e) (finite false n f)) : scaled n f = 2 * scaled m e := by
  rcases h.normal with hm | rfl
  · have hlow := h.lowest
    have hhigh : e ≠ 971 := by
      rintro rfl
      refine absurd hnear.2.2.1 (not_lt.2 ?_)
      rw [overflowBound_eq, two_mul_scaled, scaled, zpow_add_one₀ (by norm_num)]
      have hm' : (2 : ℚ) ^ 52 ≤ m := by exact_mod_cast hm
      have hpos : (0 : ℚ) < 2 ^ (971 : Int) := by positivity
      generalize (2 : ℚ) ^ (971 : Int) = unit at hpos ⊢
      nlinarith
    have hhigh' := h.highest
    exact hnear.eq_of_canonical ⟨h.mantissa, by omega, by omega, .inl hm⟩ (two_mul_scaled m e).symm
  · rcases lt_or_ge m (2 ^ 52) with hm | hm
    · exact hnear.eq_of_canonical ⟨by omega, le_rfl, by norm_num, .inr rfl⟩ (scaled_two_mul m _)
    · exact hnear.eq_of_canonical ⟨h.mantissa, by norm_num, by norm_num, .inl hm⟩
        (two_mul_scaled m _).symm

end PreviewControl.Binary64

namespace PreviewControl.Numeral

open Binary64

/-- The number that a numeral stands for. -/
def value (x : Numeral) : ℚ := x.digits * 10 ^ x.exponent

theorem cast_pow10 (k : Nat) : ((pow10 k : Nat) : ℚ) = 10 ^ k := Nat.cast_pow 10 k

theorem two_pow_lt_ten_pow {i j : Nat} (h : i < 3 * j) : (2 : ℚ) ^ i < 10 ^ j :=
  calc (2 : ℚ) ^ i < 2 ^ (3 * j) := pow_lt_pow_right₀ (by norm_num) h
    _ = (2 ^ 3) ^ j := pow_mul _ _ _
    _ ≤ 10 ^ j := by gcongr; norm_num

theorem overflowBound_le_pow : overflowBound ≤ 10 ^ 401 := by
  rw [overflowBound]
  refine (sub_le_self _ (pow_nonneg (by norm_num) _)).trans ?_
  exact (two_pow_lt_ten_pow (by norm_num)).le

theorem overflowBound_le_value {x : Numeral} (hd : x.digits ≠ 0) (he : 400 < x.exponent) :
    overflowBound ≤ x.value := by
  have hone : (1 : ℚ) ≤ x.digits := by exact_mod_cast Nat.one_le_iff_ne_zero.2 hd
  have hpow : (10 : ℚ) ^ 401 ≤ 10 ^ x.exponent := by
    rw [← zpow_natCast]
    exact zpow_le_zpow_right₀ (by norm_num) he
  have hpos : (0 : ℚ) ≤ 10 ^ x.exponent := by positivity
  exact overflowBound_le_pow.trans (hpow.trans (le_mul_of_one_le_left hpos hone))

theorem value_lt {x : Numeral} (h : x.exponent + x.digits.log2 / 3 + 1 < -400) :
    x.value < 2 ^ (-1075 : Int) := by
  have hdigits : (x.digits : ℚ) ≤ 10 ^ (x.digits.log2 / 3 + 1) := by
    calc (x.digits : ℚ) ≤ 2 ^ (x.digits.log2 + 1) := by exact_mod_cast Nat.lt_log2_self.le
      _ ≤ 2 ^ (3 * (x.digits.log2 / 3 + 1)) := pow_le_pow_right₀ (by norm_num) (by omega)
      _ = (2 ^ 3) ^ (x.digits.log2 / 3 + 1) := pow_mul _ _ _
      _ ≤ 10 ^ (x.digits.log2 / 3 + 1) := by gcongr; norm_num
  calc x.value ≤ 10 ^ (x.digits.log2 / 3 + 1) * 10 ^ x.exponent := by unfold value; gcongr
    _ = 10 ^ (x.exponent + x.digits.log2 / 3 + 1) := by
      rw [← zpow_natCast, ← zpow_add₀ (by norm_num)]
      congr 1
      push_cast
      ring
    _ ≤ 10 ^ (-((400 : Nat) : Int)) := zpow_le_zpow_right₀ (by norm_num) h.le
    _ < 2 ^ (-((1075 : Nat) : Int)) := by
      rw [zpow_neg, zpow_neg, zpow_natCast, zpow_natCast]
      exact inv_strictAnti₀ (pow_pos (by norm_num) _) (two_pow_lt_ten_pow (by norm_num))

/-- What is at most half of the least double has no mantissa. -/
theorem nearest_of_tiny {v : ℚ} (h0 : 0 ≤ v) (h : v < 2 ^ (-1075 : Int)) :
    Nearest v (finite false 0 (-1074)) := by
  have hunit : (2 : ℚ) ^ (-1074 : Int) = 2 ^ (-1075 : Int) * 2 := by
    rw [← zpow_add_one₀ (by norm_num)]
    rfl
  have hpos : (0 : ℚ) < 2 ^ (-1074 : Int) := by positivity
  have hhalf : v / 2 ^ (-1074 : Int) < 1 / 2 := by
    rw [div_lt_iff₀ hpos, hunit]
    linarith
  have hnear : |((0 : Nat) : ℚ) - v / 2 ^ (-1074 : Int)| < 1 / 2 := by
    rwa [Nat.cast_zero, zero_sub, abs_neg, abs_of_nonneg (div_nonneg h0 hpos.le)]
  have hbelow : v < scaled (2 ^ 53) (-1074) := by
    have hv := (div_lt_iff₀ hpos).1 hhalf
    refine hv.trans_le ?_
    unfold scaled
    gcongr
    norm_num
  have fits : Fits v (-1074) := ⟨le_rfl, hbelow, .inr rfl⟩
  exact fits.nearest_double hnear.le fun heq => absurd heq hnear.ne

/-- A numeral is read as the double nearest to it. -/
theorem nearest_toBinary64 (x : Numeral) : Nearest x.value (x.toBinary64 false) := by
  unfold toBinary64
  split
  · next h =>
    rw [value, h, Nat.cast_zero, zero_mul]
    exact nearest_zero
  · next hd =>
    split
    · next he => exact ⟨rfl, overflowBound_le_value hd he⟩
    · split
      · next h =>
        refine nearest_of_tiny ?_ (value_lt h)
        unfold value
        positivity
      · split
        · next he =>
          obtain ⟨k, hk⟩ := Int.eq_ofNat_of_zero_le he
          have h := nearest_ofRatio (x.digits * pow10 k) Nat.one_pos
          rw [Nat.cast_one, div_one, Nat.cast_mul, cast_pow10, ← zpow_natCast] at h
          rwa [value, hk, Int.toNat_natCast]
        · next he =>
          obtain ⟨k, hk⟩ := Int.eq_ofNat_of_zero_le (show 0 ≤ -x.exponent by omega)
          have hpos : 0 < pow10 k := Nat.pow_pos (by norm_num)
          have h := nearest_ofRatio x.digits hpos
          rw [cast_pow10, ← zpow_natCast, div_eq_mul_inv, ← zpow_neg] at h
          rwa [value, hk, Int.toNat_natCast, show x.exponent = -(k : Int) by omega]

end PreviewControl.Numeral
