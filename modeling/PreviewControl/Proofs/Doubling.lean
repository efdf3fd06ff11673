import PreviewControl.Child.Namespace
import PreviewControl.Proofs.Printing
import PreviewControl.Proofs.QuantityText

/-!
# Limits that are twice the requests

A request is doubled by taking its text apart, doubling the double that its number is read as, and
printing that in place of the number. What comes of it stands for exactly twice the request only if
printing keeps the number: three decimal places and 64 bits are all that it has.
-/
namespace PreviewControl

open Binary64

namespace Quantity

/-- The text is a quantity, and this is what it stands for exactly. -/
def Denotes (text : String) (v : ℚ) : Prop :=
  ∃ q : Written, Text.Padded q.text text.toList ∧ q.value = v

theorem Denotes.unique {text : String} {v w : ℚ} (h : Denotes text v) (h' : Denotes text w) :
    v = w := by
  obtain ⟨q, hq, rfl⟩ := h
  obtain ⟨q', hq', rfl⟩ := h'
  rw [Written.eq_of_padded hq hq']

namespace Written

variable {q : Written} {d : Decimal}

/-- A text without blanks around it. -/
theorem padded_self {text : String} (h : text.toList = q.text) : Text.Padded q.text text.toList :=
  ⟨[], [], nofun, nofun, by rw [h, List.nil_append, List.append_nil]⟩

/-! ## What is multiplied and what is kept -/

/-- The exponent is worked into the number, because nothing follows it and 32 bits hold it. -/
def absorbs (q : Written) : Bool :=
  match q.exponent, q.suffix with
  | some e, none => decide (-(2 ^ 31) ≤ e.value ∧ e.value < 2 ^ 31)
  | _, _ => false

/-- The part of the quantity that is multiplied. -/
def multiplied (q : Written) : Written :=
  if q.absorbs then q else ⟨q.plus, q.decimal, none, none⟩

/-- The text that is kept behind the product. -/
def kept (q : Written) : List Char := if q.absorbs then [] else q.back

/-- What the kept text stands for. -/
def unit (q : Written) : ℚ :=
  if q.absorbs then 1 else 10 ^ Exponent.valueOf q.exponent * Suffix.factorOf q.suffix

/-- The quantity with another decimal in place of what is multiplied. -/
def withDecimal (q : Written) (d : Decimal) : Written :=
  ⟨false, d, if q.absorbs then none else q.exponent, q.suffix⟩

theorem suffix_of_absorbs (h : q.absorbs = true) : q.suffix = none := by
  unfold absorbs at h
  split at h
  · assumption
  · cases h

theorem suffix_multiplied (q : Written) : q.multiplied.suffix = none := by
  unfold multiplied
  split
  · next h => exact suffix_of_absorbs h
  · rfl

theorem value_eq (q : Written) : q.value = q.multiplied.number * q.unit := by
  unfold multiplied unit
  split
  · next h => rw [value, suffix_of_absorbs h, Suffix.factorOf]; rfl
  · simp [value, number, Exponent.valueOf, mul_assoc]

theorem value_withDecimal (q : Written) (d : Decimal) :
    (q.withDecimal d).value = d.value * q.unit := by
  unfold withDecimal unit
  split
  · next h => simp [value, number, Exponent.valueOf, suffix_of_absorbs h, Suffix.factorOf]
  · simp [value, number, mul_assoc]

theorem number_withDecimal (h : d.value = 2 * q.multiplied.number) :
    (q.withDecimal d).number = 2 * q.number := by
  unfold withDecimal
  unfold multiplied at h
  split at h <;> simp_all [number, Exponent.valueOf, mul_assoc]

theorem text_withDecimal (q : Written) (d : Decimal) :
    (q.withDecimal d).text = d.text ++ q.kept := by
  unfold withDecimal kept
  split
  · next h => simp [text, front, back, suffix_of_absorbs h, Exponent.textOf, Suffix.textOf]
  · simp [text, front, back]

theorem unit_pos (q : Written) : 0 < q.unit := by
  unfold unit
  split
  · exact one_pos
  · exact mul_pos (by positivity) (Suffix.factorOf_pos _)

/-! ## How a quantity is taken apart again -/

theorem startsNumber_of_mem_front {c : Char} (h : c ∈ q.front) : startsNumber c = true := by
  rcases mem_front h with rfl | h
  · rfl
  · rcases Decimal.of_mem_text h with h | rfl
    · simp [startsNumber, h]
    · rfl

theorem not_startsNumber_back (q : Written) : ∀ c ∈ q.back.head?, startsNumber c = false := by
  obtain ⟨plus, decimal, exponent, suffix⟩ := q
  cases exponent with
  | some e =>
    rintro _ ⟨⟩
    cases e.upper <;> decide
  | none =>
    cases suffix with
    | none => exact nofun
    | some s => cases s <;> (rintro _ ⟨⟩; decide)

theorem takeWhile_startsNumber (q : Written) : q.text.takeWhile startsNumber = q.front := by
  have hback := q.not_startsNumber_back
  rw [text, List.takeWhile_append_of_pos fun c hc => startsNumber_of_mem_front hc]
  cases hq : q.back with
  | nil => simp
  | cons c rest => simp [hback c (by rw [hq]; rfl)]

theorem dropWhile_startsNumber (q : Written) : q.text.dropWhile startsNumber = q.back := by
  have hback := q.not_startsNumber_back
  rw [text, List.dropWhile_append_of_pos fun c hc => startsNumber_of_mem_front hc]
  cases hq : q.back with
  | nil => rfl
  | cons c rest => simp [hback c (by rw [hq]; rfl)]

/-- Whether the text goes on with an exponent that is worked into the number. -/
def exponential : List Char → Bool
  | c :: rest => (c == 'e' || c == 'E') && isExponent rest
  | [] => false

theorem isExponent_digits (e : Exponent) :
    isExponent (Exponent.sign e.minus ++ e.digits) =
      decide (-(2 ^ 31) ≤ e.value ∧ e.value < 2 ^ 31) := by
  have hall : e.digits.all isDigit = true := List.all_eq_true.2 e.decimal
  have hne : e.digits.isEmpty = false := List.isEmpty_eq_false_iff.2 e.written
  rw [isExponent, e.takeSign_digits]
  dsimp only
  rw [hall, hne, Exponent.value, Bool.not_false, Bool.true_and, Bool.true_and, decide_eq_decide]
  have hpow : pow2 31 = 2147483648 := rfl
  -- The lowest number of 32 bits is one further from zero than the highest.
  by_cases hminus : e.minus = some true
  · rw [hminus]
    change digitsValue e.digits ≤ pow2 31 ↔
      -(2 ^ 31) ≤ -(digitsValue e.digits : Int) ∧ -(digitsValue e.digits : Int) < 2 ^ 31
    omega
  · have hplus : e.minus.getD false = false := by
      revert hminus
      cases e.minus <;> simp
    rw [hplus, if_neg hminus, if_neg Bool.false_ne_true]
    omega

theorem isExponent_suffix (e : Exponent) (s : Suffix) :
    isExponent (Exponent.sign e.minus ++ (e.digits ++ s.letters)) = false := by
  have hall : (e.digits ++ s.letters).all isDigit = false := by
    rw [List.all_append, Bool.and_eq_false_iff]
    exact .inr (by cases s <;> decide)
  rw [isExponent, e.takeSign_body]
  dsimp only
  rw [hall, Bool.and_false, Bool.false_and]

theorem exponential_back (q : Written) : exponential q.back = q.absorbs := by
  obtain ⟨plus, decimal, exponent, suffix⟩ := q
  cases exponent with
  | none =>
    cases suffix with
    | none => rfl
    | some s => cases s <;> rfl
  | some e =>
    have hletter : (Exponent.letter e.upper == 'e' || Exponent.letter e.upper == 'E') = true := by
      cases e.upper <;> rfl
    change exponential (e.text ++ Suffix.textOf suffix) = _
    rw [e.text_append, exponential, hletter, Bool.true_and]
    cases suffix with
    | none =>
      change isExponent (_ ++ (_ ++ [])) = _
      rw [List.append_nil, isExponent_digits]
      rfl
    | some s => exact isExponent_suffix e s

theorem scale?_text {input : String} (hq : Text.Padded q.text input.toList)
    (hread : (read? input).isSome = true) (factor : Nat) : scale? input factor =
      some (.ofList (writeNumber (q.multiplied.double * .ofNat factor) ++ q.kept)) := by
  obtain ⟨x, hx⟩ := Option.isSome_iff_exists.1 hread
  rw [read?, trim_eq_text.2 hq] at hx
  have hexponential := q.exponential_back
  unfold scale?
  rw [trim_eq_text.2 hq]
  dsimp only
  rw [hx, takeWhile_startsNumber, dropWhile_startsNumber, Option.bind_eq_bind, Option.bind_some]
  change (if exponential q.back = true then _ else _) = _
  rw [hexponential]
  unfold kept multiplied
  split
  · next h =>
    rw [read?_number (suffix_of_absorbs h), List.append_nil, double, suffix_of_absorbs h]
    rfl
  · have hbare : q.front = (⟨q.plus, q.decimal, none, none⟩ : Written).text :=
      (List.append_nil _).symm
    rw [hbare, read?_number rfl]
    rfl

/-! ## Twice a quantity -/

theorem nearest_multiplied (q : Written) : Nearest q.multiplied.number q.multiplied.double := by
  have h : q.multiplied.Rounds q.multiplied.double := rounds_iff.2 rfl
  rwa [Rounds, suffix_multiplied] at h

theorem nearest_double (m : Nat) (e : Int) :
    Nearest (2 * scaled m e) (finite false m e * .ofNat 2) := by
  have htwo : Binary64.ofNat 2 = finite false (2 ^ 52) (-51) := by decide
  have hscaled : scaled (2 ^ 52) (-51) = 2 := by
    rw [scaled_pow]
    norm_num
  have h := nearest_mul m (2 ^ 52) e (-51)
  rwa [hscaled, mul_comm, ← htwo] at h

/-- What begins with a letter is no quantity. -/
theorem not_padded_of_letter {c : Char} {rest : List Char} (hblank : Text.isBlank c = false)
    (hstart : startsNumber c = false) : ¬Text.Padded q.text (c :: rest) := by
  rintro ⟨before, after, hbefore, _, heq⟩
  have hhead : q.text.head?.any startsNumber = true := q.startsNumber_front q.back
  cases before with
  | cons d before =>
    obtain rfl := (List.cons.inj heq).1
    exact Bool.false_ne_true (hblank.symm.trans (hbefore c List.mem_cons_self))
  | nil =>
    cases htext : q.text with
    | nil =>
      rw [htext] at hhead
      cases hhead
    | cons d text =>
      rw [htext] at heq hhead
      obtain rfl := (List.cons.inj heq).1
      exact Bool.false_ne_true (hstart.symm.trans hhead)

/-- A double that is too great is printed as no quantity. -/
theorem not_padded_infinite {limit : String}
    (h : limit = .ofList (writeNumber (infinite false) ++ q.kept)) (q' : Written) :
    ¬Text.Padded q'.text limit.toList := by
  rw [h, String.toList_ofList, writeNumber_infinite]
  exact not_padded_of_letter (by decide) (by decide)

/-- Either twice the number is printed, rounded, in place of the number, or it is too great. -/
theorem scale?_two {request : String} (hq : Text.Padded q.text request.toList)
    (hread : (read? request).isSome = true) : ∃ limit, scale? request 2 = some limit ∧
      ((∃ m e d, Nearest q.multiplied.number (finite false m e) ∧
          Prints (2 * scaled m e) d.value ∧ limit.toList = (q.withDecimal d).text) ∨
        (∀ q' : Written, ¬Text.Padded q'.text limit.toList) ∧ ¬Doubles q.multiplied.number) := by
  refine ⟨_, scale?_text hq hread 2, ?_⟩
  have hnear := q.nearest_multiplied
  have h0 := q.multiplied.number_nonneg
  cases hdouble : q.multiplied.double with
  | nan => exact (hdouble ▸ hnear).elim
  | infinite negative =>
    rw [hdouble] at hnear
    obtain rfl := hnear.1
    refine .inr ⟨not_padded_infinite rfl, ?_⟩
    rintro ⟨m, e, hfinite, _⟩
    cases hfinite.unique hnear
  | finite negative m e =>
    rw [hdouble] at hnear
    obtain rfl := hnear.1
    have htwice := nearest_double m e
    cases hproduct : finite false m e * Binary64.ofNat 2 with
    | nan => exact (hproduct ▸ htwice).elim
    | infinite negative =>
      rw [hproduct] at htwice
      obtain rfl := htwice.1
      refine .inr ⟨not_padded_infinite rfl, ?_⟩
      rintro ⟨m', e', hfinite, hprints⟩
      obtain ⟨-, rfl, rfl⟩ := Binary64.finite.inj (hfinite.unique hnear)
      have hle := hprints.le hnear.2.1.mantissa
      have hbound := hnear.le_two_mul h0
      exact absurd htwice.2 (not_le.2 (lt_overflowBound_of_le (by linarith)))
    | finite negative n f =>
      rw [hproduct] at htwice
      obtain rfl := htwice.1
      obtain ⟨d, htext, hprints⟩ := writeNumber_finite n f
      rw [hnear.2.1.two_mul htwice] at hprints
      refine .inl ⟨m, e, d, hnear, hprints, ?_⟩
      rw [String.toList_ofList, text_withDecimal, htext]

/-- Twice a quantity is accepted and stands for exactly twice as much if and only if its number can
be doubled and twice the quantity is not too great. If it stands for something at all, then for what
twice the number is printed as. -/
theorem scale?_two_iff {request : String} (hq : Text.Padded q.text request.toList)
    (hread : (read? request).isSome = true) : ∃ limit, scale? request 2 = some limit ∧
      ((read? limit).isSome = true ∧ Denotes limit (2 * q.value) ↔ Doubles q.multiplied.number ∧
        ∃ x, Suffix.Rounds q.suffix (2 * q.number) x ∧ x.isFinite = true) ∧
      ∀ v, Denotes limit v → ∃ m e p, Nearest q.multiplied.number (finite false m e) ∧
        Prints (2 * scaled m e) p ∧ v = p * q.unit := by
  obtain ⟨limit, hscale, hlimit⟩ := scale?_two hq hread
  refine ⟨limit, hscale, ?_⟩
  rcases hlimit with ⟨m, e, d, hnear, hprints, htext⟩ | ⟨hnone, hnot⟩
  · have hpadded := padded_self htext
    have hdenotes : Denotes limit (d.value * q.unit) := ⟨_, hpadded, q.value_withDecimal d⟩
    refine ⟨⟨?_, ?_⟩, fun v hv => ⟨m, e, d.value, hnear, hprints, hv.unique hdenotes⟩⟩
    · rintro ⟨haccepted, hvalue⟩
      have htwice : d.value = 2 * q.multiplied.number := by
        have h := hdenotes.unique hvalue
        rw [value_eq, ← mul_assoc] at h
        exact mul_right_cancel₀ q.unit_pos.ne' h
      obtain ⟨x, hx⟩ := Option.isSome_iff_exists.1 haccepted
      obtain ⟨q', hq', hrounds, hfinite⟩ := read?_eq_some.1 hx
      obtain rfl := eq_of_padded hq' hpadded
      rw [Rounds, number_withDecimal htwice] at hrounds
      exact ⟨⟨m, e, hnear, htwice ▸ hprints⟩, x, hrounds, hfinite⟩
    · rintro ⟨⟨m', e', hnear', hprints'⟩, x, hrounds, hfinite⟩
      obtain ⟨-, rfl, rfl⟩ := Binary64.finite.inj (hnear'.unique hnear)
      have htwice := hprints.unique hprints'
      have haccepted : (q.withDecimal d).Rounds x := by rwa [Rounds, number_withDecimal htwice]
      refine ⟨?_, ?_⟩
      · rw [read?_eq_some.2 ⟨_, hpadded, haccepted, hfinite⟩]
        rfl
      · rwa [value_eq, ← mul_assoc, ← htwice]
  · refine ⟨iff_of_false ?_ fun h => hnot h.1, ?_⟩
    · rintro ⟨_, q', hq', _⟩
      exact hnone q' hq'
    · rintro v ⟨q', hq', _⟩
      exact absurd hq' (hnone q')

/-! ## What is not too great -/

theorem exists_finite {v : ℚ} (h0 : 0 ≤ v) (h : v < overflowBound) :
    ∃ x, Nearest v x ∧ x.isFinite = true := by
  obtain ⟨x, hx⟩ := exists_nearest h0
  exact ⟨x, hx, hx.isFinite_iff.2 h⟩

theorem factor_le (s : Suffix) : s.factor ≤ 2 ^ 60 := by
  cases s <;> norm_num [Suffix.factor, Suffix.ratio]

/-- A number that 64 bits hold is not too great with any suffix. -/
theorem exists_finite_suffixed {v : ℚ} (h0 : 0 ≤ v) (h : v ≤ 2 ^ 63) (s : Option Suffix) :
    ∃ x, Suffix.Rounds s v x ∧ x.isFinite = true := by
  obtain ⟨y, hy, hyfinite⟩ := exists_finite h0 (lt_overflowBound_of_le (h.trans (by norm_num)))
  cases s with
  | none => exact ⟨y, hy, hyfinite⟩
  | some s =>
    have hfactor0 : 0 ≤ s.factor := (Suffix.factorOf_pos (some s)).le
    obtain ⟨g, hg, hgfinite⟩ :=
      exists_finite hfactor0 (lt_overflowBound_of_le ((factor_le s).trans (by norm_num)))
    refine ⟨y * g, ⟨y, g, hy, hg, rfl⟩, ?_⟩
    obtain ⟨m, e, _, rfl⟩ := hy.eq_finite hyfinite
    obtain ⟨n, f, _, rfl⟩ := hg.eq_finite hgfinite
    refine (nearest_mul m n e f).isFinite_iff.2 (lt_overflowBound_of_le ?_)
    have hm : scaled m e ≤ 2 ^ 64 := by linarith [hy.le_two_mul h0]
    have hn : scaled n f ≤ 2 ^ 61 := by linarith [hg.le_two_mul hfactor0, factor_le s]
    calc scaled m e * scaled n f ≤ 2 ^ 64 * 2 ^ 61 := mul_le_mul hm hn scaled_nonneg (by norm_num)
      _ ≤ 2 ^ 200 := by norm_num

/-- A number that can be doubled is not too great with an exponent that 32 bits do not hold, unless
it was too great already. -/
theorem two_mul_lt_overflowBound {v : ℚ} {n : Int} (h0 : 0 ≤ v) (hv : Doubles v)
    (hn : ¬(-(2 ^ 31) ≤ n ∧ n < 2 ^ 31)) (h : v * 10 ^ n < overflowBound) :
    2 * (v * 10 ^ n) < overflowBound := by
  obtain ⟨⟨k, hk⟩, hle⟩ := hv.bounds
  rcases Nat.eq_zero_or_pos k with rfl | hpos
  · obtain rfl : v = 0 := by
      rw [Nat.cast_zero] at hk
      linarith
    rw [zero_mul, mul_zero]
    exact lt_overflowBound_of_le (by norm_num)
  · rcases le_or_gt 0 n with hn0 | hn0
    · refine absurd h (not_lt.2 (Numeral.overflowBound_le_pow.trans ?_))
      have hv1 : 1 / 10 ^ 4 ≤ v := by
        have hone : (1 : ℚ) ≤ k := by exact_mod_cast hpos
        norm_num
        linarith
      have hpow : (10 : ℚ) ^ (405 : Nat) ≤ 10 ^ n := by
        rw [← zpow_natCast]
        exact zpow_le_zpow_right₀ (by norm_num) (by push_cast; omega)
      calc (10 : ℚ) ^ 401 = 1 / 10 ^ 4 * 10 ^ 405 := by
            rw [show 405 = 4 + 401 from rfl, pow_add, ← mul_assoc]
            norm_num
        _ ≤ v * 10 ^ n := mul_le_mul hv1 hpow (pow_nonneg (by norm_num) _) h0
    · have hpow : (10 : ℚ) ^ n ≤ 1 := zpow_le_one_of_nonpos₀ (by norm_num) hn0.le
      refine lt_overflowBound_of_le ?_
      have hprod : v * 10 ^ n ≤ v := mul_le_of_le_one_right h0 hpow
      linarith

/-- Without an exponent before a suffix, what is multiplied is the number, or the number without an
exponent that 32 bits do not hold. -/
theorem number_multiplied (h : q.exponent = none ∨ q.suffix = none) :
    q.multiplied.number = q.number ∨ q.suffix = none ∧ ∃ n : Int, ¬(-(2 ^ 31) ≤ n ∧ n < 2 ^ 31) ∧
      q.number = q.multiplied.number * 10 ^ n := by
  unfold multiplied
  split
  · exact .inl rfl
  · next habsorbs =>
    cases hexponent : q.exponent with
    | none =>
      left
      simp [number, hexponent]
    | some e =>
      have hsuffix : q.suffix = none := h.resolve_left (by simp [hexponent])
      refine .inr ⟨hsuffix, e.value, ?_, ?_⟩
      · simpa [absorbs, hexponent, hsuffix] using habsorbs
      · simp [number, hexponent, Exponent.valueOf]

/-- Without an exponent before a suffix, nothing that can be doubled gets too great. -/
theorem exists_finite_twice (hd : Doubles q.multiplied.number)
    (haccepted : ∃ x, q.Rounds x ∧ x.isFinite = true) (h : q.exponent = none ∨ q.suffix = none) :
    ∃ x, Suffix.Rounds q.suffix (2 * q.number) x ∧ x.isFinite = true := by
  have h0 : 0 ≤ 2 * q.number := mul_nonneg (by norm_num) q.number_nonneg
  rcases number_multiplied h with hsame | ⟨hsuffix, n, hn, hnumber⟩
  · have hle := hd.bounds.2
    rw [hsame] at hle
    exact exists_finite_suffixed h0 (by linarith) q.suffix
  · obtain ⟨x, hx, hfinite⟩ := haccepted
    rw [Rounds, hsuffix] at hx
    have hlt := hx.isFinite_iff.1 hfinite
    rw [hsuffix]
    refine exists_finite h0 ?_
    rw [hnumber] at hlt ⊢
    exact two_mul_lt_overflowBound q.multiplied.number_nonneg hd hn hlt

end Written
end Quantity

namespace Child

open Quantity

/-- What a quota says under a name. -/
def hardEntry? (quota : Json) (name : String) : Option String :=
  ((quota.follow ["spec", "hard"]).get? name).bind Json.text?

variable (env : Environment) (ns : String) (config : Config)

theorem hardEntry?_quota {resource : String} (h : resource ∈ ["cpu", "memory"]) : ∃ request,
    hardEntry? (quotaObject env ns config) ("requests." ++ resource) = some request ∧
      hardEntry? (quotaObject env ns config) ("limits." ++ resource) = scale? request 2 := by
  have hhard : (quotaObject env ns config).follow ["spec", "hard"] =
      .record ((hardQuota env.spec config).map fun q => (q.1, q.2.map .str)) := rfl
  unfold hardEntry?
  rw [hhard, hardQuota]
  generalize (env.spec.resources.getD {}).cpu.getD config.defaultQuotaCpu = cpu
  generalize (env.spec.resources.getD {}).memory.getD config.defaultQuotaMemory = memory
  simp only [List.mem_cons, List.not_mem_nil, or_false] at h
  rcases h with rfl | rfl
  · refine ⟨cpu, rfl, ?_⟩
    cases hcpu : scale? cpu 2 <;> cases hmemory : scale? memory 2 <;>
      simp [quotaOn, hcpu, hmemory, Json.record, Json.get?, List.lookup_cons, Json.text?]
  · refine ⟨memory, ?_, ?_⟩
    all_goals
      cases hcpu : scale? cpu 2 <;> cases hmemory : scale? memory 2 <;>
        simp [quotaOn, hcpu, hmemory, Json.record, Json.get?, List.lookup_cons, Json.text?]

/-- A request that is accepted has a limit. The limit is accepted and stands for exactly twice the
request if and only if twice the number is printed as it is and the quantity does not get too great.
Below `2 ^ 43` this is so if twice the number has three decimal places; otherwise the limit is
another quantity or none. -/
theorem limit_doubled_iff {resource request : String} (hresource : resource ∈ ["cpu", "memory"])
    (hrequest : hardEntry? (quotaObject env ns config) ("requests." ++ resource) = some request)
    (haccepted : (read? request).isSome = true) :
    ∃ (q : Written) (limit : String), Text.Padded q.text request.toList ∧
      hardEntry? (quotaObject env ns config) ("limits." ++ resource) = some limit ∧
      ((read? limit).isSome = true ∧ Denotes limit (2 * q.value) ↔ Doubles q.multiplied.number ∧
        ∃ x, Suffix.Rounds q.suffix (2 * q.number) x ∧ x.isFinite = true) ∧
      (Doubles q.multiplied.number →
        (∃ n : Nat, 2000 * q.multiplied.number = n) ∧ 2 * q.multiplied.number ≤ 2 ^ 63 - 1 ∧
        (q.exponent = none ∨ q.suffix = none →
          ∃ x, Suffix.Rounds q.suffix (2 * q.number) x ∧ x.isFinite = true)) ∧
      (2 * q.multiplied.number < 2 ^ 43 →
        (Doubles q.multiplied.number ↔ ∃ n : Nat, 2000 * q.multiplied.number = n)) ∧
      ∀ v, Denotes limit v → ∃ m e p, Nearest q.multiplied.number (finite false m e) ∧
        Prints (2 * scaled m e) p ∧ v = p * q.unit := by
  obtain ⟨request', hrequest', hlimit⟩ := hardEntry?_quota env ns config hresource
  obtain rfl := Option.some.inj (hrequest'.symm.trans hrequest)
  obtain ⟨x, hx⟩ := Option.isSome_iff_exists.1 haccepted
  obtain ⟨q, hq, hrounds, hfinite⟩ := read?_eq_some.1 hx
  obtain ⟨limit, hscale, hiff, hvalue⟩ := Written.scale?_two_iff hq haccepted
  refine ⟨q, limit, hq, hlimit.trans hscale, hiff, fun hd => ⟨hd.bounds.1, hd.bounds.2, ?_⟩,
    doubles_iff q.multiplied.number_nonneg, hvalue⟩
  exact Written.exists_finite_twice hd ⟨x, hrounds, hfinite⟩

/-- A record that asks for a ten-thousandth of a core. -/
def frugal : Environment where
  metadata := { name := some "pr-5", ns := some "previews", uid := some "u-5" }
  spec := { repository := ⟨"owner", "shop", none⟩, prNumber := 5, headSha := "", ttl := "4h",
            resources := some { cpu := some "0.0001" } }

def eightGibi : Written :=
  ⟨false, ⟨['8'], none, List.all_eq_true.1 rfl, by decide⟩, none, some .gibi⟩

/-- Its memory is eight gibibytes, and the limit sixteen. -/
theorem limit_doubled_iff_memory : ∃ limit,
    hardEntry? (quotaObject frugal "pr-5" {}) "limits.memory" = some limit ∧
      (read? limit).isSome = true ∧ Denotes limit (2 * (8 * 2 ^ 30)) := by
  have hrequest : hardEntry? (quotaObject frugal "pr-5" {}) ("requests." ++ "memory") =
      some "8Gi" := by decide +kernel
  obtain ⟨q, limit, hq, hlimit, hiff, hbounds, hbelow, _⟩ :=
    limit_doubled_iff frugal "pr-5" {} (by decide) hrequest (by decide +kernel)
  have hwritten : Text.Padded eightGibi.text "8Gi".toList := Written.padded_self rfl
  obtain rfl := Written.eq_of_padded hq hwritten
  have hnumber : eightGibi.multiplied.number = 8 := by
    change ((8 : Nat) : ℚ) / 10 ^ 0 * 10 ^ (0 : Int) = 8
    norm_num
  have hvalue : eightGibi.value = 8 * 2 ^ 30 := by
    change ((8 : Nat) : ℚ) / 10 ^ 0 * 10 ^ (0 : Int) * (((2 ^ 30 : Nat) : ℚ) / ((1 : Nat) : ℚ)) = _
    norm_num
  have hdoubles : Doubles eightGibi.multiplied.number :=
    (hbelow (by rw [hnumber]; norm_num)).2 ⟨16000, by rw [hnumber]; norm_num⟩
  obtain ⟨haccepted, hdenotes⟩ := hiff.2 ⟨hdoubles, (hbounds hdoubles).2.2 (.inl rfl)⟩
  exact ⟨limit, hlimit, haccepted, hvalue ▸ hdenotes⟩

/-- Its cores are fewer than what three decimal places show, so that the limit is none at all. -/
theorem limit_below_request :
    hardEntry? (quotaObject frugal "pr-5" {}) "requests.cpu" = some "0.0001" ∧
      (read? "0.0001").isSome = true ∧ Denotes "0.0001" (1 / 10000) ∧
      hardEntry? (quotaObject frugal "pr-5" {}) "limits.cpu" = some "0" ∧ Denotes "0" 0 ∧
      ¬Denotes "0" (2 * (1 / 10000)) := by
  have hzero : Denotes "0" 0 := by
    refine ⟨⟨false, ⟨['0'], none, List.all_eq_true.1 rfl, by decide⟩, none, none⟩,
      Written.padded_self rfl, ?_⟩
    change ((0 : Nat) : ℚ) / 10 ^ 0 * 10 ^ (0 : Int) * 1 = 0
    norm_num
  refine ⟨by decide +kernel, by decide +kernel, ?_, by decide +kernel, hzero, fun htwice => ?_⟩
  · refine ⟨⟨false, ⟨['0'], some ['0', '0', '0', '1'], List.all_eq_true.1 rfl, by decide⟩, none,
      none⟩, Written.padded_self rfl, ?_⟩
    change ((1 : Nat) : ℚ) / 10 ^ 4 * 10 ^ (0 : Int) * 1 = 1 / 10000
    norm_num
  · exact absurd (htwice.unique hzero) (by norm_num)

end Child
end PreviewControl
