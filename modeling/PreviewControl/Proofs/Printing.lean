import PreviewControl.Proofs.NumeralText
import PreviewControl.Quantity

/-!
# Numbers as they are printed

A double that is multiplied is printed again with at most three decimal places. What is printed is
a decimal; here is the number that it stands for, which is not always the number that was to be
printed, and when it is.
-/
namespace PreviewControl

open Time (padded digitsValue_padded isDigit_padded padded_ne_nil)

/-! ## Points and zeros -/

theorem digitsValue_zeros (ds : List Char) (k : Nat) :
    digitsValue (ds ++ List.replicate k '0') = digitsValue ds * 10 ^ k := by
  rw [digitsValue_eq, digitsValue_eq, Nat.ofDigitChars_append, Nat.ofDigitChars_replicate_zero,
    Nat.mul_comm]

theorem exists_zeros (ds : List Char) :
    ∃ k, ds = (ds.reverse.dropWhile (· == '0')).reverse ++ List.replicate k '0' := by
  have hzeros : ∀ c ∈ ds.reverse.takeWhile (· == '0'), c = '0' := fun c hc =>
    beq_iff_eq.1 (List.all_eq_true.1 List.all_takeWhile c hc)
  refine ⟨(ds.reverse.takeWhile (· == '0')).length, ?_⟩
  have hreplicate := congrArg List.reverse (List.eq_replicate_of_mem hzeros)
  rw [List.reverse_replicate] at hreplicate
  rw [← hreplicate, ← List.reverse_append, List.takeWhile_append_dropWhile, List.reverse_reverse]

/-- Behind a point, zeros at the end are dropped; then the point, if it is at the end. -/
theorem exists_stripped {whole fraction : List Char} (hne : whole ≠ [])
    (hd : ∀ c ∈ whole ++ fraction, isDigit c = true) :
    ∃ d : Decimal, d.text = ((whole ++ '.' :: fraction).reverse.dropWhile (· == '0')
        |>.dropWhile (· == '.')).reverse ∧
      d.value = digitsValue (whole ++ fraction) / 10 ^ fraction.length := by
  obtain ⟨k, hk⟩ := exists_zeros fraction
  generalize hkept : fraction.reverse.dropWhile (· == '0') = kept at hk
  have hvalue : (digitsValue (whole ++ fraction) : ℚ) / 10 ^ fraction.length =
      digitsValue (whole ++ kept.reverse) / 10 ^ kept.length := by
    rw [hk, ← List.append_assoc, digitsValue_zeros, List.length_append, List.length_replicate,
      List.length_reverse, pow_add, Nat.cast_mul, Nat.cast_pow, Nat.cast_ofNat,
      mul_div_mul_right _ _ (by positivity)]
  have hdigits : ∀ c ∈ whole ++ kept.reverse, isDigit c = true := fun c hc => by
    refine hd c ?_
    rw [hk, ← List.append_assoc]
    exact List.mem_append_left _ hc
  have hreverse : (whole ++ '.' :: fraction).reverse =
      fraction.reverse ++ '.' :: whole.reverse := by simp
  have hpoint {c : Char} (hc : isDigit c = true) : (c == '.') = false := by
    rw [beq_eq_false_iff_ne]
    rintro rfl
    exact absurd hc (by decide)
  rw [hvalue, hreverse, List.dropWhile_append, hkept]
  cases kept with
  | nil =>
    refine ⟨⟨whole, none, by simpa using hdigits, by simpa using hne⟩, ?_, ?_⟩
    · obtain ⟨c, rest, hlast⟩ := List.exists_cons_of_ne_nil (List.reverse_ne_nil_iff.2 hne)
      have hc : isDigit c = true := by
        refine hdigits c (List.mem_append_left _ (List.mem_reverse.1 ?_))
        rw [hlast]
        exact List.mem_cons_self
      have hwhole : whole = (c :: rest).reverse := by rw [← hlast, List.reverse_reverse]
      simp [Decimal.text, Decimal.pointed, hwhole, hpoint hc]
    · simp [Decimal.value, Decimal.digits, Decimal.places]
  | cons c kept =>
    refine ⟨⟨whole, some (c :: kept).reverse, hdigits, by simp⟩, ?_, ?_⟩
    · have hc : isDigit c = true := hdigits c (by simp)
      simp [Decimal.text, Decimal.pointed, hpoint hc]
    · simp [Decimal.value, Decimal.digits, Decimal.places]

namespace Quantity

open Binary64

/-- A number that is not negative is printed as `p`: if it is whole, as itself or, when 64 bits do
not hold it, as the greatest number that they hold; if not, as the nearest thousandth, and of two
equally near ones as the even one. -/
inductive Prints (v p : ℚ) : Prop
  | whole (n : Nat) (hv : v = n) (hp : p = (min n (2 ^ 63 - 1) : Nat))
  | thousandths (n : Nat) (hv : ∀ k : Nat, v ≠ k) (hp : p = n / 1000)
      (near : |n - 1000 * v| ≤ 1 / 2) (tie : |n - 1000 * v| = 1 / 2 → Even n)

variable {v p q : ℚ} {m : Nat} {e : Int}

theorem Prints.unique (hp : Prints v p) (hq : Prints v q) : p = q := by
  cases hp with
  | whole n hv hp =>
    cases hq with
    | whole n' hv' hq =>
      obtain rfl : n = n' := by exact_mod_cast hv.symm.trans hv'
      rw [hp, hq]
    | thousandths _ hv' => exact absurd hv (hv' n)
  | thousandths n hv hp near tie =>
    cases hq with
    | whole n' hv' _ => exact absurd hv' (hv n')
    | thousandths n' _ hq near' tie' =>
      obtain ⟨hle, htie⟩ := near_whole near tie n'
      obtain ⟨hge, htie'⟩ := near_whole near' tie' n
      have hdist := le_antisymm hle hge
      suffices n = n' by rw [hp, hq, this]
      by_contra hne
      -- Two even numbers are too far apart to be both near.
      have heven := (htie hdist).resolve_left hne
      have heven' := (htie' hdist.symm).resolve_left fun h => hne h.symm
      have hclose : |(n : ℚ) - n'| ≤ 1 := by
        have htriangle := abs_sub_le (n : ℚ) (1000 * v) n'
        rw [abs_sub_comm (1000 * v) (n' : ℚ)] at htriangle
        linarith
      have hint : |(n : Int) - n'| ≤ 1 := by exact_mod_cast hclose
      rw [Nat.even_iff] at heven heven'
      rw [abs_le] at hint
      omega

theorem scaled_natCast (m k : Nat) : scaled m k = (m * pow2 k : Nat) := by
  rw [scaled, zpow_natCast, Nat.cast_mul, cast_pow2]

theorem scaled_neg (m k : Nat) : scaled m (-(k : Int)) = m / (pow2 k : Nat) := by
  rw [scaled, zpow_neg, zpow_natCast, cast_pow2, div_eq_mul_inv]

theorem toInt?_of_whole {n : Nat} (h : scaled m e = n) :
    (finite false m e).toInt? = some (n : Int) := by
  rcases le_or_gt 0 e with he | he
  · obtain ⟨k, rfl⟩ := Int.eq_ofNat_of_zero_le he
    rw [scaled_natCast] at h
    have hn : m * pow2 k = n := by exact_mod_cast h
    rw [toInt?, if_pos he, Int.toNat_natCast, hn]
    rfl
  · obtain ⟨k, hk⟩ := Int.eq_ofNat_of_zero_le (show 0 ≤ -e by omega)
    obtain rfl : e = -(k : Int) := by omega
    have hpos : 0 < pow2 k := Nat.two_pow_pos k
    rw [scaled_neg, div_eq_iff (by exact_mod_cast hpos.ne')] at h
    obtain rfl : m = n * pow2 k := by exact_mod_cast h
    rw [toInt?, if_neg (by omega), neg_neg, Int.toNat_natCast, if_pos (Nat.mul_mod_left _ _),
      Nat.mul_div_cancel _ hpos]
    rfl

theorem toInt?_of_not_whole (h : ∀ n : Nat, scaled m e ≠ n) :
    (finite false m e).toInt? = none ∧ ∃ k : Nat, 0 < k ∧ e = -(k : Int) := by
  rcases le_or_gt 0 e with he | he
  · obtain ⟨k, rfl⟩ := Int.eq_ofNat_of_zero_le he
    exact absurd (scaled_natCast m k) (h _)
  · obtain ⟨k, hk⟩ := Int.eq_ofNat_of_zero_le (show 0 ≤ -e by omega)
    obtain rfl : e = -(k : Int) := by omega
    refine ⟨?_, k, by omega, rfl⟩
    have hpos : 0 < pow2 k := Nat.two_pow_pos k
    have hrest : ¬m % pow2 k = 0 := fun hrest => by
      obtain ⟨n, rfl⟩ := Nat.dvd_of_mod_eq_zero hrest
      refine h n ?_
      rw [scaled_neg, Nat.cast_mul, mul_div_cancel_left₀ _ (by exact_mod_cast hpos.ne')]
    rw [toInt?, if_neg (by omega), neg_neg, Int.toNat_natCast, if_neg hrest]

theorem writeNumber_of_whole {x : Binary64} {n : Nat} (h : x.toInt? = some (n : Int)) :
    writeNumber x = Nat.toDigits 10 (min n (2 ^ 63 - 1)) := by
  have hcut : max (-(pow2 63 : Int)) (min (n : Int) (pow2 63 - 1 : Nat)) =
      (min n (2 ^ 63 - 1) : Nat) := by
    rw [max_eq_right (by rw [pow2]; omega), Nat.cast_min]
    rfl
  rw [writeNumber, h]
  dsimp only
  rw [hcut]
  exact String.toList_ofList

theorem withPoint_eq (n : Nat) : ∃ whole fraction : List Char,
    withPoint 3 n = whole ++ '.' :: fraction ∧ whole ++ fraction = padded 4 n ∧ whole ≠ [] ∧
      fraction.length = 3 := by
  have hlength : 4 ≤ (padded 4 n).length := by
    rw [padded, List.length_append, List.length_replicate]
    omega
  refine ⟨_, _, rfl, List.take_append_drop _ _, ?_, ?_⟩
  · rw [← List.length_pos_iff, List.length_take]
    change 0 < min ((padded 4 n).length - 3) (padded 4 n).length
    omega
  · rw [List.length_drop]
    change (padded 4 n).length - ((padded 4 n).length - 3) = 3
    omega

/-- A double is printed as a decimal. -/
theorem writeNumber_finite (m : Nat) (e : Int) :
    ∃ d : Decimal, d.text = writeNumber (finite false m e) ∧ Prints (scaled m e) d.value := by
  by_cases hwhole : ∃ n : Nat, scaled m e = n
  · obtain ⟨n, hn⟩ := hwhole
    refine ⟨⟨Nat.toDigits 10 (min n (2 ^ 63 - 1)), none, ?_, ?_⟩, ?_, ?_⟩
    · intro c hc
      exact isDigit_of_mem_toDigits (by simpa using hc)
    · simp
    · rw [writeNumber_of_whole (toInt?_of_whole hn)]
      simp [Decimal.text, Decimal.pointed]
    · refine .whole n hn ?_
      simp [Decimal.value, Decimal.digits, Decimal.places]
  · rw [not_exists] at hwhole
    obtain ⟨hnone, k, hk, rfl⟩ := toInt?_of_not_whole hwhole
    have hfixed : (finite false m (-(k : Int))).toFixed 3 =
        String.ofList (withPoint 3 (nearestQuotient (m * 1000) (pow2 k))) := by
      rw [toFixed, if_neg (show ¬0 ≤ -(k : Int) by omega), neg_neg, Int.toNat_natCast]
      rfl
    obtain ⟨whole, fraction, htext, hdigits, hne, hlength⟩ :=
      withPoint_eq (nearestQuotient (m * 1000) (pow2 k))
    obtain ⟨d, hd, hvalue⟩ := exists_stripped hne (hdigits ▸ isDigit_padded 4 _)
    have hpos : 0 < pow2 k := Nat.two_pow_pos k
    obtain ⟨near, tie⟩ := nearestQuotient_near (n := m * 1000) hpos
    have hscaled : ((m * 1000 : Nat) : ℚ) / (pow2 k : Nat) = 1000 * scaled m (-(k : Int)) := by
      rw [scaled_neg]
      push_cast
      ring
    rw [hscaled] at near tie
    rw [hdigits, digitsValue_padded, hlength] at hvalue
    refine ⟨d, ?_, .thousandths _ hwhole ?_ near tie⟩
    · rw [writeNumber, hnone]
      dsimp only
      rw [hfixed, String.toList_ofList, htext, hd]
    · rw [hvalue]
      norm_num

theorem writeNumber_infinite : writeNumber (infinite false) = ['i', 'n', 'f'] := by decide

/-! ## Numbers that can be doubled -/

/-- Where the double nearest to the number is doubled and printed, twice the number is printed. -/
def Doubles (v : ℚ) : Prop :=
  ∃ m e, Nearest v (finite false m e) ∧ Prints (2 * scaled m e) (2 * v)

/-- Only whole numbers reach the end of what 64 bits hold. -/
theorem Prints.le (h : Prints (2 * scaled m e) p) (hm : m < 2 ^ 53) : p ≤ 2 ^ 63 - 1 := by
  cases h with
  | whole n hv hp =>
    have hle : ((min n (2 ^ 63 - 1) : Nat) : ℚ) ≤ (2 ^ 63 - 1 : Nat) := by
      exact_mod_cast min_le_right _ _
    rw [hp]
    refine hle.trans (le_of_eq ?_)
    norm_num
  | thousandths n hv hp near _ =>
    rw [two_mul_scaled] at hv near
    obtain ⟨_, k, hk, hexponent⟩ := toInt?_of_not_whole hv
    have hm' : (m : ℚ) ≤ 2 ^ 53 := by exact_mod_cast hm.le
    have hbelow : scaled m (e + 1) ≤ 2 ^ 53 := by
      rw [hexponent, scaled_neg]
      have hpos : (1 : ℚ) ≤ (pow2 k : Nat) := by exact_mod_cast Nat.two_pow_pos k
      exact (div_le_self (by positivity) hpos).trans hm'
    have hhigh := (abs_le.1 near).2
    rw [hp]
    linarith

theorem Doubles.bounds (h : Doubles v) : (∃ n : Nat, 2000 * v = n) ∧ 2 * v ≤ 2 ^ 63 - 1 := by
  obtain ⟨m, e, hnear, hprints⟩ := h
  refine ⟨?_, hprints.le hnear.2.1.mantissa⟩
  cases hprints with
  | whole n _ hp =>
    refine ⟨1000 * min n (2 ^ 63 - 1), ?_⟩
    rw [Nat.cast_mul, ← hp]
    push_cast
    ring
  | thousandths n _ hp =>
    refine ⟨n, ?_⟩
    linarith

/-- Below `2 ^ 43`, where doubles are dense enough to tell thousandths apart, a number can be
doubled if twice the number has three decimal places. -/
theorem doubles_iff (h0 : 0 ≤ v) (h : 2 * v < 2 ^ 43) : Doubles v ↔ ∃ n : Nat, 2000 * v = n := by
  refine ⟨fun hd => hd.bounds.1, fun ⟨n, hn⟩ => ?_⟩
  have hbelow : v < scaled (2 ^ 53) (-11) := by
    rw [scaled_pow]
    norm_num
    linarith
  obtain ⟨x, hx⟩ := exists_nearest h0
  obtain ⟨m, e, _, rfl⟩ := hx.eq_finite (hx.isFinite_iff.2 (lt_overflowBound hbelow (by norm_num)))
  refine ⟨m, e, hx, ?_⟩
  have herror : |1000 * (2 * scaled m e) - n| < 1 / 2 := by
    have hnear := hx.error h0 hbelow (by norm_num) (by norm_num)
    rw [← hn, show 1000 * (2 * scaled m e) - 2000 * v = 2000 * (scaled m e - v) by ring, abs_mul]
    norm_num at hnear ⊢
    linarith
  by_cases hwhole : ∃ k : Nat, 2 * scaled m e = k
  · obtain ⟨k, hk⟩ := hwhole
    have heq : 1000 * k = n := by
      rw [hk] at herror
      have hint : |(1000 * k : Int) - n| < 1 := by
        exact_mod_cast herror.trans (by norm_num : (1 / 2 : ℚ) < 1)
      rw [Int.abs_lt_one_iff] at hint
      omega
    have hv : 2 * v = k := by
      have hcast : (1000 * k : ℚ) = n := by exact_mod_cast heq
      linarith
    have hmin : min k (2 ^ 63 - 1) = k := by
      have hlt : k < 2 ^ 43 := by exact_mod_cast hv ▸ h
      omega
    exact .whole k hk (by rw [hmin, hv])
  · rw [not_exists] at hwhole
    rw [abs_sub_comm] at herror
    exact .thousandths n hwhole (by linarith) herror.le fun htie => absurd htie herror.ne

end Quantity
end PreviewControl
