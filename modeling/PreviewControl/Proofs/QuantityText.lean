import PreviewControl.Proofs.NumeralText
import PreviewControl.Quantity

/-!
# Quantities and their texts

A quantity is a decimal with an exponent and a suffix, each of which may be missing. The texts that
are read are those that write one down, between blanks, unless its double is not finite. No text
writes down two: whether a letter belongs to the exponent or to the suffix is never in doubt.
-/
namespace PreviewControl

/-! ## Quantities as they are written -/

namespace Quantity

inductive Suffix where
  | kibi | mebi | gibi | tebi | pebi | exbi
  | nano | micro | milli | kilo | mega | giga | tera | peta | exa
deriving DecidableEq, Repr

namespace Suffix

/-- All suffixes, in the order in which they are tried. -/
def all : List Suffix :=
  [kibi, mebi, gibi, tebi, pebi, exbi, nano, micro, milli, kilo, mega, giga, tera, peta, exa]

def letters : Suffix → List Char
  | kibi => ['K', 'i']
  | mebi => ['M', 'i']
  | gibi => ['G', 'i']
  | tebi => ['T', 'i']
  | pebi => ['P', 'i']
  | exbi => ['E', 'i']
  | nano => ['n']
  | micro => ['u']
  | milli => ['m']
  | kilo => ['k']
  | mega => ['M']
  | giga => ['G']
  | tera => ['T']
  | peta => ['P']
  | exa => ['E']

/-- The factor as a numerator and a denominator. -/
def ratio : Suffix → Nat × Nat
  | kibi => (2 ^ 10, 1)
  | mebi => (2 ^ 20, 1)
  | gibi => (2 ^ 30, 1)
  | tebi => (2 ^ 40, 1)
  | pebi => (2 ^ 50, 1)
  | exbi => (2 ^ 60, 1)
  | nano => (1, 10 ^ 9)
  | micro => (1, 10 ^ 6)
  | milli => (1, 10 ^ 3)
  | kilo => (10 ^ 3, 1)
  | mega => (10 ^ 6, 1)
  | giga => (10 ^ 9, 1)
  | tera => (10 ^ 12, 1)
  | peta => (10 ^ 15, 1)
  | exa => (10 ^ 18, 1)

def factor (s : Suffix) : ℚ := s.ratio.1 / s.ratio.2

/-- The double that a number is multiplied by. -/
def multiplier (s : Suffix) : Binary64 := .ofRatio false s.ratio.1 s.ratio.2

/-- The letters of a suffix, if there is one. -/
def textOf (s : Option Suffix) : List Char := (s.map letters).getD []

def factorOf (s : Option Suffix) : ℚ := (s.map factor).getD 1

/-- The double that a number with a suffix, if there is one, is read as: the one nearest to the
number, times the one nearest to the factor. -/
def Rounds : Option Suffix → ℚ → Binary64 → Prop
  | none, number, x => Binary64.Nearest number x
  | some s, number, x => ∃ y factor, Binary64.Nearest number y ∧ Binary64.Nearest s.factor factor ∧
      x = y * factor

theorem mem_all (s : Suffix) : s ∈ all := by cases s <;> decide

theorem suffixes_eq : suffixes = all.map fun s => (s.letters, s.multiplier) := rfl

theorem ratio_pos (s : Suffix) : 0 < s.ratio.2 := by cases s <;> decide

theorem factorOf_pos (s : Option Suffix) : 0 < factorOf s := by
  cases s with
  | none => exact one_pos
  | some s =>
    have hnumerator : 0 < s.ratio.1 := by cases s <;> decide
    exact div_pos (by exact_mod_cast hnumerator) (by exact_mod_cast s.ratio_pos)

theorem nearest_multiplier (s : Suffix) : Binary64.Nearest s.factor s.multiplier :=
  Binary64.nearest_ofRatio _ s.ratio_pos

theorem eq_of_suffix {s t : Suffix} (h : s.letters <:+ t.letters) : s = t := by
  have hall : ∀ s ∈ all, ∀ t ∈ all, s.letters <:+ t.letters → s = t := by decide
  exact hall s s.mem_all t t.mem_all h

/-- A text ends with one suffix at most. -/
theorem unique {s t : Suffix} {front front' : List Char}
    (h : front ++ s.letters = front' ++ t.letters) : front = front' ∧ s = t := by
  have hs : s.letters <:+ front' ++ t.letters := ⟨front, h⟩
  have ht : t.letters <:+ front' ++ t.letters := ⟨front', rfl⟩
  obtain rfl : s = t := (List.suffix_or_suffix_of_suffix hs ht).elim eq_of_suffix
    fun h => (eq_of_suffix h).symm
  exact ⟨List.append_cancel_right h, rfl⟩

end Suffix

theorem beforeSuffix?_eq_some {suffix cs front : List Char} :
    beforeSuffix? suffix cs = some front ↔ front ++ suffix = cs := by
  unfold beforeSuffix?
  constructor
  · intro h
    split at h
    · next hsuffix =>
      obtain ⟨rest, rfl⟩ := List.isSuffixOf_iff_suffix.1 hsuffix
      have hfront := Option.some.inj h
      rw [List.length_append, Nat.add_sub_cancel, List.take_left] at hfront
      rw [hfront]
    · cases h
  · rintro rfl
    rw [if_pos (List.isSuffixOf_iff_suffix.2 (List.suffix_append _ _)), List.length_append,
      Nat.add_sub_cancel, List.take_left]

theorem splitSuffix?_eq_some {cs front : List Char} {factor : Binary64} :
    splitSuffix? cs = some (front, factor) ↔
      ∃ s : Suffix, front ++ s.letters = cs ∧ s.multiplier = factor := by
  have hfound {front : List Char} {factor : Binary64} (h : splitSuffix? cs = some (front, factor)) :
      ∃ s : Suffix, front ++ s.letters = cs ∧ s.multiplier = factor := by
    rw [splitSuffix?, Suffix.suffixes_eq] at h
    obtain ⟨x, hx, hbefore⟩ := List.exists_of_findSome?_eq_some h
    obtain ⟨s, _, rfl⟩ := List.mem_map.1 hx
    obtain ⟨front', hfront, heq⟩ := Option.map_eq_some_iff.1 hbefore
    obtain ⟨rfl, rfl⟩ := Prod.mk.inj heq
    exact ⟨s, beforeSuffix?_eq_some.1 hfront, rfl⟩
  refine ⟨hfound, ?_⟩
  rintro ⟨s, rfl, rfl⟩
  have hsome : (splitSuffix? (front ++ s.letters)).isSome = true := by
    rw [splitSuffix?, Suffix.suffixes_eq, List.findSome?_isSome_iff]
    refine ⟨_, List.mem_map_of_mem s.mem_all, ?_⟩
    show ((beforeSuffix? s.letters _).map _).isSome = true
    rw [Option.isSome_map, beforeSuffix?_eq_some.2 rfl]
    rfl
  obtain ⟨⟨front', factor⟩, hsplit⟩ := Option.isSome_iff_exists.1 hsome
  obtain ⟨t, htext, rfl⟩ := hfound hsplit
  obtain ⟨rfl, rfl⟩ := Suffix.unique htext
  exact hsplit

/-- A quantity as it is written. -/
structure Written where
  plus : Bool
  decimal : Decimal
  exponent : Option Exponent
  suffix : Option Suffix

namespace Written

/-- The text before the exponent and the suffix. -/
def front (q : Written) : List Char := (if q.plus then ['+'] else []) ++ q.decimal.text

/-- The text of the exponent and the suffix. -/
def back (q : Written) : List Char := Exponent.textOf q.exponent ++ Suffix.textOf q.suffix

def text (q : Written) : List Char := q.front ++ q.back

/-- The number before the suffix. -/
def number (q : Written) : ℚ := q.decimal.value * 10 ^ Exponent.valueOf q.exponent

/-- What the quantity stands for exactly. -/
def value (q : Written) : ℚ := q.number * Suffix.factorOf q.suffix

theorem number_nonneg (q : Written) : 0 ≤ q.number :=
  mul_nonneg q.decimal.value_nonneg (by positivity)

def numeral (q : Written) : Numeral :=
  ⟨digitsValue q.decimal.digits, Exponent.valueOf q.exponent - q.decimal.places⟩

theorem value_numeral (q : Written) : q.numeral.value = q.number := by
  rw [Numeral.value, number, Decimal.value, numeral, zpow_sub₀ (by norm_num), zpow_natCast]
  ring

/-- The double that the quantity is read as. -/
def Rounds (q : Written) (x : Binary64) : Prop := Suffix.Rounds q.suffix q.number x

def double (q : Written) : Binary64 :=
  match q.suffix with
  | none => q.numeral.toBinary64 false
  | some s => q.numeral.toBinary64 false * s.multiplier

theorem rounds_iff {q : Written} {x : Binary64} : q.Rounds x ↔ x = q.double := by
  have hnumber := q.value_numeral ▸ q.numeral.nearest_toBinary64
  unfold Rounds Suffix.Rounds double
  cases q.suffix with
  | none =>
    constructor
    · exact fun h => h.unique hnumber
    · rintro rfl
      exact hnumber
  | some s =>
    constructor
    · rintro ⟨y, factor, hy, hfactor, rfl⟩
      rw [hy.unique hnumber, hfactor.unique s.nearest_multiplier]
    · rintro rfl
      exact ⟨_, _, hnumber, s.nearest_multiplier, rfl⟩

end Written

/-! ## How they are read -/

namespace Written

theorem not_sign_head (d : Decimal) (rest : List Char) :
    ∀ c ∈ (d.text ++ rest).head?, c ≠ '-' ∧ c ≠ '+' := by
  obtain ⟨c, text, heq, hc⟩ := d.exists_head
  rw [heq]
  rintro _ ⟨⟩
  rcases hc with hc | rfl
  · exact not_sign_of_isDigit hc
  · decide

theorem takeSign_front (q : Written) (rest : List Char) :
    takeSign (q.front ++ rest) = (false, q.decimal.text ++ rest) := by
  rw [front, List.append_assoc]
  cases q.plus with
  | true => rfl
  | false => exact takeSign_sign none (not_sign_head _ _)

theorem mem_front {q : Written} {c : Char} (h : c ∈ q.front) : c = '+' ∨ c ∈ q.decimal.text := by
  refine (List.mem_append.1 h).imp_left fun h => ?_
  revert h
  cases q.plus <;> simp

theorem startsNumber_front (q : Written) (rest : List Char) :
    (q.front ++ rest).head?.any startsNumber = true := by
  obtain ⟨c, text, heq, hc⟩ := q.decimal.exists_head
  rw [front, List.append_assoc, heq]
  cases q.plus with
  | true => rfl
  | false =>
    show startsNumber c = true
    rcases hc with hc | rfl
    · simp [startsNumber, hc]
    · decide

theorem exponentPart?_suffix (e : Option Exponent) (s : Suffix) :
    Numeral.exponentPart? (Exponent.textOf e ++ s.letters) = none := by
  cases e with
  | none => cases s <;> rfl
  | some e =>
    have hall : (e.digits ++ s.letters).all isDigit = false := by
      rw [List.all_append, Bool.and_eq_false_iff]
      exact .inr (by cases s <;> decide)
    change Numeral.exponentPart? (e.text ++ s.letters) = none
    rw [e.text_append, Numeral.exponentPart?_letter, e.takeSign_body, hall]
    simp

theorem endsDecimal_back (q : Written) : EndsDecimal q.back := by
  obtain ⟨plus, decimal, exponent, suffix⟩ := q
  cases exponent with
  | some e => exact endsDecimal_exponent e _
  | none =>
    cases suffix with
    | none => exact endsDecimal_nil
    | some s => cases s <;> exact endsDecimal_cons (by decide) (by decide)

theorem read?_number {q : Written} (h : q.suffix = none) :
    Binary64.read? q.text = some (q.numeral.toBinary64 false) := by
  have hback : q.back = Exponent.textOf q.exponent := by
    rw [back, h]
    exact List.append_nil _
  refine Binary64.read?_of_numeral (q.takeSign_front q.back) ?_
  rw [Numeral.read?_decimal _ q.endsDecimal_back, hback, Numeral.exponentPart?_text]
  rfl

theorem read?_suffixed {q : Written} {s : Suffix} (h : q.suffix = some s) :
    Binary64.read? q.text = none := by
  have hback : q.back = Exponent.textOf q.exponent ++ s.letters := by rw [back, h]; rfl
  have hnone : Numeral.read? (q.decimal.text ++ q.back) = none := by
    rw [Numeral.read?_decimal _ q.endsDecimal_back, hback, exponentPart?_suffix]
    rfl
  refine ((Binary64.read?_of_no_numeral (q.takeSign_front q.back) hnone).resolve_left ?_).2
  rintro ⟨hword, _⟩
  obtain ⟨c, rest, heq, hletter⟩ := hword.exists_head
  obtain ⟨d, text, htext, _⟩ := q.decimal.exists_head
  rw [htext] at heq
  obtain rfl := (List.cons.inj heq).1
  exact absurd hletter (not_le.2 (Decimal.lt_of_mem_text (htext ▸ List.mem_cons_self)))

/-- The quantity without its suffix. -/
def plain (q : Written) : Written := { q with suffix := none }

/-- The quantity with a suffix in place of its own. -/
def suffixed (q : Written) (s : Suffix) : Written := { q with suffix := some s }

theorem plain_suffixed {q : Written} {s : Suffix} (h : q.suffix = some s) :
    q.plain.suffixed s = q := by
  obtain ⟨plus, decimal, exponent, suffix⟩ := q
  cases h
  rfl

theorem text_suffixed {q : Written} (h : q.suffix = none) (s : Suffix) :
    (q.suffixed s).text = q.text ++ s.letters := by
  rw [text, text, back, back, h, List.append_assoc, List.append_assoc]
  rfl

/-- What is read as a finite double, and begins as a quantity does, is written as a number. -/
theorem exists_of_read {cs : List Char} {y : Binary64} (h : Binary64.read? cs = some y)
    (hfinite : y.isFinite = true) (hstart : cs.head?.any startsNumber = true) :
    ∃ q : Written, q.suffix = none ∧ q.text = cs ∧ y = q.numeral.toBinary64 false := by
  obtain ⟨n, hn, rfl⟩ := Binary64.exists_numeral h hfinite
  obtain ⟨minus, hsign, hminus⟩ := exists_sign cs
  obtain ⟨d, tail, e, htext, he, rfl⟩ := Numeral.exists_decimal hn
  obtain ⟨exponent, rfl, rfl⟩ := Numeral.exists_exponent he
  rw [← htext] at hsign
  rw [← hminus]
  match minus with
  | some true =>
    rw [hsign] at hstart
    exact absurd hstart (by simp [Exponent.sign, startsNumber, isDigit])
  | some false =>
    refine ⟨⟨true, d, exponent, none⟩, rfl, ?_, rfl⟩
    rw [hsign, text, front, back, Suffix.textOf]
    simp [Exponent.sign]
  | none =>
    refine ⟨⟨false, d, exponent, none⟩, rfl, ?_, rfl⟩
    rw [hsign, text, front, back, Suffix.textOf]
    simp [Exponent.sign]

theorem Rounds.eq_finite {q : Written} {x : Binary64} (h : q.Rounds x)
    (hfinite : x.isFinite = true) : ∃ m e, Binary64.Canonical m e ∧ x = .finite false m e := by
  unfold Rounds Suffix.Rounds at h
  cases hsuffix : q.suffix with
  | none =>
    rw [hsuffix] at h
    exact h.eq_finite hfinite
  | some s =>
    rw [hsuffix] at h
    obtain ⟨y, factor, hy, hfactor, rfl⟩ := h
    obtain ⟨hyfinite, hffinite⟩ := Binary64.isFinite_of_mul hfinite
    obtain ⟨m, e, _, rfl⟩ := hy.eq_finite hyfinite
    obtain ⟨n, f, _, rfl⟩ := hfactor.eq_finite hffinite
    exact (Binary64.nearest_mul m n e f).eq_finite hfinite

end Written

variable {cs : List Char} {x : Binary64}

theorem value?_of_read (hstart : cs.head?.any startsNumber = true)
    (h : Binary64.read? cs = some x) : value? cs = if x.isFinite then some x else none := by
  rw [value?, hstart, h]
  rfl

theorem value?_of_unread (hstart : cs.head?.any startsNumber = true)
    (h : Binary64.read? cs = none) : value? cs = (splitSuffix? cs).bind fun p =>
      (Binary64.read? p.1).bind fun y =>
        if (y * p.2).isFinite && (y * p.2).isNonNegative then some (y * p.2) else none := by
  rw [value?, hstart, h]
  rfl

/-- The quantities that are read, with what they are read as. -/
theorem value?_eq_some : value? cs = some x ↔
    ∃ q : Written, q.text = cs ∧ q.double = x ∧ x.isFinite = true := by
  constructor
  · intro h
    have hstart : cs.head?.any startsNumber = true := by
      by_contra hnot
      rw [value?, Bool.eq_false_iff.2 hnot] at h
      cases h
    cases hread : Binary64.read? cs with
    | some y =>
      rw [value?_of_read hstart hread] at h
      obtain ⟨hfinite, rfl⟩ : y.isFinite = true ∧ y = x := by
        split at h
        · next hfinite => exact ⟨hfinite, Option.some.inj h⟩
        · cases h
      obtain ⟨q, hplain, htext, rfl⟩ := Written.exists_of_read hread hfinite hstart
      exact ⟨q, htext, by rw [Written.double, hplain], hfinite⟩
    | none =>
      rw [value?_of_unread hstart hread] at h
      obtain ⟨⟨front, factor⟩, hsplit, h⟩ := Option.bind_eq_some_iff.1 h
      obtain ⟨y, hy, h⟩ := Option.bind_eq_some_iff.1 h
      obtain ⟨s, rfl, rfl⟩ := splitSuffix?_eq_some.1 hsplit
      dsimp only at h hy
      obtain ⟨hfinite, rfl⟩ : (y * s.multiplier).isFinite = true ∧ y * s.multiplier = x := by
        split at h
        · next hfinite => exact ⟨(Bool.and_eq_true_iff.1 hfinite).1, Option.some.inj h⟩
        · cases h
      have hfront : front.head?.any startsNumber = true := by
        cases front with
        | nil => cases hy
        | cons c rest => exact hstart
      obtain ⟨q, hplain, rfl, rfl⟩ :=
        Written.exists_of_read hy (Binary64.isFinite_of_mul hfinite).1 hfront
      exact ⟨q.suffixed s, q.text_suffixed hplain s, rfl, hfinite⟩
  · rintro ⟨q, rfl, rfl, hfinite⟩
    have hstart : q.text.head?.any startsNumber = true := q.startsNumber_front q.back
    cases hsuffix : q.suffix with
    | none =>
      have hdouble : q.double = q.numeral.toBinary64 false := by rw [Written.double, hsuffix]
      rw [value?_of_read hstart (Written.read?_number hsuffix), ← hdouble, if_pos hfinite]
    | some s =>
      have hsplit : splitSuffix? q.text = some (q.plain.text, s.multiplier) := by
        rw [← Written.plain_suffixed hsuffix, Written.text_suffixed rfl]
        exact splitSuffix?_eq_some.2 ⟨s, rfl, rfl⟩
      have hdouble : q.double = q.numeral.toBinary64 false * s.multiplier := by
        rw [Written.double, hsuffix]
      have hread : Binary64.read? q.plain.text = some (q.numeral.toBinary64 false) :=
        Written.read?_number rfl
      rw [value?_of_unread hstart (Written.read?_suffixed hsuffix), hsplit, Option.bind_some, hread,
        Option.bind_some, ← hdouble, hfinite]
      obtain ⟨m, e, _, heq⟩ := (Written.rounds_iff.2 rfl).eq_finite hfinite
      rw [heq]
      rfl

/-! ## Each text is that of one quantity -/

theorem lettered_textOf (s : Option Suffix) : Lettered (Suffix.textOf s) := by
  cases s with
  | none => exact nofun
  | some s => cases s <;> decide

theorem suffix_inj {s s' : Option Suffix} (h : Suffix.textOf s = Suffix.textOf s') : s = s' := by
  match s, s' with
  | none, none => rfl
  | none, some s' => cases s' <;> cases h
  | some s, none => cases s <;> cases h
  | some s, some s' =>
    have happend : [] ++ s.letters = [] ++ s'.letters := h
    exact congrArg some (Suffix.unique happend).2

/-- The parts of a number can be told apart, whatever letters stand behind it. -/
theorem parts_inj {q q' : Written} {rest rest' : List Char} (hrest : Lettered rest)
    (hrest' : Lettered rest')
    (h : q.front ++ (Exponent.textOf q.exponent ++ rest) =
      q'.front ++ (Exponent.textOf q'.exponent ++ rest')) :
    q.plain = q'.plain ∧ rest = rest' := by
  have hnumber := congrArg (fun cs => (takeSign cs).2) h
  simp only [Written.takeSign_front] at hnumber
  obtain ⟨hdecimal, hback⟩ := Decimal.text_inj (hrest.decimal _) (hrest'.decimal _) hnumber
  obtain ⟨hexponent, rfl⟩ := Exponent.textOf_inj hrest hrest' hback
  obtain ⟨plus, decimal, exponent, _⟩ := q
  obtain ⟨plus', decimal', exponent', _⟩ := q'
  obtain rfl := hdecimal
  obtain rfl := hexponent
  have hplus := List.append_cancel_right (List.append_cancel_right h)
  match plus, plus' with
  | true, true => exact ⟨rfl, rfl⟩
  | false, false => exact ⟨rfl, rfl⟩
  | true, false => cases hplus
  | false, true => cases hplus

theorem Written.text_inj {q q' : Written} (h : q.text = q'.text) : q = q' := by
  obtain ⟨hplain, hsuffix⟩ := parts_inj (lettered_textOf q.suffix) (lettered_textOf q'.suffix) h
  obtain ⟨plus, decimal, exponent, suffix⟩ := q
  obtain ⟨plus', decimal', exponent', suffix'⟩ := q'
  obtain rfl := suffix_inj hsuffix
  obtain ⟨rfl, rfl, rfl, _⟩ := Written.mk.inj hplain
  rfl

/-! ## Where a letter stands -/

/-- A character that is not in the front of a text stands behind it. -/
theorem exists_mid {before rest front back : List Char} {c : Char} (hc : c ∉ front)
    (h : before ++ c :: rest = front ++ back) :
    ∃ mid, before = front ++ mid ∧ back = mid ++ c :: rest := by
  rcases List.append_eq_append_iff.1 h with ⟨mid, hfront, hrest⟩ | ⟨mid, hbefore, hback⟩
  · cases mid with
    | nil => exact ⟨[], by simpa using hfront.symm, hrest.symm⟩
    | cons d mid =>
      obtain rfl := (List.cons.inj hrest).1
      exact absurd (by simp [hfront]) hc
  · exact ⟨mid, hbefore, hback⟩

/-- The front has no letter. -/
theorem Written.lt_of_mem_front {q : Written} {c : Char} (h : c ∈ q.front) : c.toNat < 65 := by
  rcases mem_front h with rfl | h
  · decide
  · exact Decimal.lt_of_mem_text h

/-- A letter behind digits, points and signs is in what is read as an exponent and a suffix. -/
theorem Written.exists_mid {q : Written} {before rest : List Char} {c : Char} (hc : 65 ≤ c.toNat)
    (h : before ++ c :: rest = q.text) :
    ∃ mid, before = q.front ++ mid ∧ q.back = mid ++ c :: rest :=
  Quantity.exists_mid (fun hmem => absurd (lt_of_mem_front hmem) (not_lt.2 hc)) h

/-- What ends with an exponent, letters aside, is written with this exponent and these letters. -/
theorem Written.eq_of_exponent {q : Written} {before rest : List Char} {e : Exponent}
    (hrest : Lettered rest) (h : before ++ (e.text ++ rest) = q.text) :
    before = q.front ∧ q.exponent = some e ∧ Suffix.textOf q.suffix = rest := by
  obtain ⟨mid, hbefore, hback⟩ := exists_mid (Exponent.le_letter _) h
  have hsuffix := lettered_textOf q.suffix
  rw [back] at hback
  cases hexponent : q.exponent with
  | none =>
    rw [hexponent] at hback
    exact absurd hback (hsuffix.ne_exponent mid e)
  | some e' =>
    rw [hexponent] at hback
    cases mid with
    | nil =>
      have hparts : Exponent.textOf (some e') ++ _ = Exponent.textOf (some e) ++ rest := hback
      obtain ⟨heq, hletters⟩ := Exponent.textOf_inj hsuffix hrest hparts
      exact ⟨by simpa using hbefore, heq, hletters⟩
    | cons c mid =>
      -- A second letter would be in the suffix, with the digits behind it.
      have htail := (List.cons.inj hback).2
      have hletter := Exponent.le_letter e.upper
      obtain ⟨mid', _, hletters⟩ := Quantity.exists_mid
        (fun hmem => absurd (Exponent.lt_of_mem_body hmem) (not_lt.2 hletter)) htail.symm
      exact absurd hletters (hsuffix.ne_exponent mid' e)

/-- What ends with `E` is written with the suffix. -/
theorem Written.suffix_of_exa {q : Written} {before : List Char}
    (h : before ++ ['E'] = q.text) : q.suffix = some .exa := by
  cases hsuffix : q.suffix with
  | some s =>
    have htext : q.text = q.front ++ Exponent.textOf q.exponent ++ s.letters := by
      rw [text, back, hsuffix, List.append_assoc]
      rfl
    exact congrArg some (Suffix.unique (s := .exa) (h.trans htext)).2.symm
  | none =>
    obtain ⟨mid, _, hback⟩ := exists_mid (c := 'E') (by decide) h
    rw [back, hsuffix] at hback
    cases hexponent : q.exponent with
    | none =>
      rw [hexponent] at hback
      exact absurd hback (by simp [Exponent.textOf, Suffix.textOf])
    | some e =>
      rw [hexponent] at hback
      change e.text ++ [] = _ at hback
      rw [e.text_append, List.append_nil] at hback
      cases mid with
      | nil => exact absurd (List.append_eq_nil_iff.1 (List.cons.inj hback).2).2 e.written
      | cons c mid =>
        have hmem : 'E' ∈ Exponent.sign e.minus ++ e.digits := by simp [(List.cons.inj hback).2]
        exact absurd (Exponent.lt_of_mem_body hmem) (by decide)

/-! ## What is read -/

theorem Suffix.not_isBlank_of_mem {s : Option Suffix} {c : Char} (h : c ∈ textOf s) :
    Text.isBlank c = false := by
  have hall : ∀ s ∈ all, s.letters.all (!Text.isBlank ·) = true := by decide
  cases s with
  | none => cases h
  | some s => simpa using List.all_eq_true.1 (hall s s.mem_all) c h

theorem Written.not_isBlank_of_mem_text {q : Written} {c : Char} (h : c ∈ q.text) :
    Text.isBlank c = false := by
  rcases List.mem_append.1 h with h | h
  · rcases mem_front h with rfl | h
    · decide
    · rcases Decimal.of_mem_text h with h | rfl
      · exact not_isBlank_of_isDigit h
      · decide
  · rcases List.mem_append.1 h with h | h
    · cases hexponent : q.exponent with
      | none =>
        rw [hexponent] at h
        cases h
      | some e =>
        rw [hexponent] at h
        exact Exponent.not_isBlank_of_mem_text h
    · exact Suffix.not_isBlank_of_mem h

theorem Written.trim_eq_text {q : Written} {cs : List Char} :
    Text.trim cs = q.text ↔ Text.Padded q.text cs :=
  Text.trim_eq_iff (fun _ hc => not_isBlank_of_mem_text (List.mem_of_mem_head? hc))
    fun _ hc => not_isBlank_of_mem_text (List.mem_of_mem_getLast? hc)

theorem Written.eq_of_padded {q q' : Written} {cs : List Char} (h : Text.Padded q.text cs)
    (h' : Text.Padded q'.text cs) : q = q' :=
  text_inj ((trim_eq_text.2 h).symm.trans (trim_eq_text.2 h'))

theorem read?_eq_some {input : String} {x : Binary64} : read? input = some x ↔
    ∃ q : Written, Text.Padded q.text input.toList ∧ q.Rounds x ∧ x.isFinite = true := by
  rw [read?, value?_eq_some]
  refine exists_congr fun q => and_congr ?_ (and_congr_left' ?_)
  · rw [← Written.trim_eq_text, eq_comm]
  · rw [Written.rounds_iff, eq_comm]

/-- The texts that keep to the form of no quantity: with a minus in front, with a word for what is
not finite, with a blank inside, and with letters that are no suffix. -/
inductive Malformed : List Char → Prop
  | minus (rest : List Char) : Malformed ('-' :: rest)
  | word (minus : Option Bool) {word : List Char} (h : Binary64.IsWord word) (s : Option Suffix) :
      Malformed (Exponent.sign minus ++ word ++ Suffix.textOf s)
  | blank {c : Char} {cs : List Char} (mem : c ∈ cs) (h : Text.isBlank c = true) : Malformed cs
  | letters {q : Written} (plain : q.suffix = none) {letters : List Char} (h : Lettered letters)
      (unknown : ∀ s, Suffix.textOf s ≠ letters) : Malformed (q.text ++ letters)

theorem Malformed.ne_text {cs : List Char} (h : Malformed cs) (q : Written) : cs ≠ q.text := by
  intro heq
  cases h with
  | minus rest =>
    have hstart := q.startsNumber_front q.back
    change q.text.head?.any startsNumber = true at hstart
    rw [← heq] at hstart
    exact absurd (show startsNumber '-' = true from hstart) (by decide)
  | word minus hword s =>
    obtain ⟨c, rest, rfl, hc⟩ := hword.exists_head
    have hsign : c ≠ '-' ∧ c ≠ '+' := by constructor <;> rintro rfl <;> exact absurd hc (by decide)
    have hword : takeSign (Exponent.sign minus ++ (c :: rest ++ Suffix.textOf s)) =
        (minus.getD false, c :: rest ++ Suffix.textOf s) :=
      takeSign_sign minus (by rintro _ ⟨⟩; exact hsign)
    have hfront : takeSign q.text = (false, q.decimal.text ++ q.back) := q.takeSign_front q.back
    rw [List.append_assoc] at heq
    have hbody := congrArg (fun cs => (takeSign cs).2) heq
    simp only [hword, hfront] at hbody
    obtain ⟨d, text, htext, _⟩ := q.decimal.exists_head
    rw [htext] at hbody
    obtain rfl := (List.cons.inj hbody).1
    exact absurd (Decimal.lt_of_mem_text (htext ▸ List.mem_cons_self)) (not_lt.2 hc)
  | blank mem hblank =>
    rw [heq] at mem
    exact Bool.false_ne_true ((Written.not_isBlank_of_mem_text mem).symm.trans hblank)
  | @letters p plain letters hletters unknown =>
    rw [Written.text, Written.back, plain, List.append_assoc, List.append_assoc] at heq
    exact unknown _ (parts_inj hletters (lettered_textOf q.suffix) heq).2.symm

/-- A text is read if and only if, between blanks, it is written as a quantity whose double is
finite; then it is read as this double, which is not negative. It is written as one quantity only:
a last `E` is its suffix, and an `e` or `E` with a whole number behind it is its exponent. What has
a minus in front, a word for what is not finite, a blank inside or an unknown suffix is not read. -/
theorem read?_iff_written (input : String) :
    (∀ x, read? input = some x ↔
      ∃ q : Written, Text.Padded q.text input.toList ∧ q.Rounds x ∧ x.isFinite = true) ∧
    (∀ x, read? input = some x → x.isFinite = true ∧ x.isNonNegative = true) ∧
    (∀ q : Written, Text.Padded q.text input.toList →
      (∀ q' : Written, Text.Padded q'.text input.toList → q' = q) ∧
      ∀ before, (before ++ ['E'] = q.text → q.suffix = some .exa) ∧
        ∀ (e : Exponent) (s : Option Suffix), before ++ (e.text ++ Suffix.textOf s) = q.text →
          q.exponent = some e ∧ q.suffix = s) ∧
    (Malformed (Text.trim input.toList) → read? input = none) := by
  refine ⟨fun x => read?_eq_some, fun x hx => ?_, fun q hq => ⟨fun q' hq' => ?_, ?_⟩, ?_⟩
  · obtain ⟨q, _, hrounds, hfinite⟩ := read?_eq_some.1 hx
    obtain ⟨m, e, _, rfl⟩ := hrounds.eq_finite hfinite
    exact ⟨rfl, rfl⟩
  · exact Written.eq_of_padded hq' hq
  · refine fun before => ⟨Written.suffix_of_exa, fun e s h => ?_⟩
    obtain ⟨_, hexponent, hsuffix⟩ := Written.eq_of_exponent (lettered_textOf s) h
    exact ⟨hexponent, suffix_inj hsuffix⟩
  · intro hmalformed
    by_contra hsome
    obtain ⟨x, hx⟩ := Option.ne_none_iff_exists'.1 hsome
    obtain ⟨q, hq, _⟩ := read?_eq_some.1 hx
    exact hmalformed.ne_text q (Written.trim_eq_text.2 hq)

example : read? "1E" = some (.ofNat (pow10 18)) ∧ read? "1E3" = some (.ofNat 1000) ∧
    read? "1E3k" = some (.ofNat 1000000) ∧ read? "+inf" = none := by decide +kernel

end Quantity

end PreviewControl
