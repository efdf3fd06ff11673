import PreviewControl.Proofs.Rounding
import PreviewControl.Proofs.TimeText

/-!
# Numbers and their texts

Decimals and exponents as they are written: which texts are read as numbers and as which, what the
doubles that go by words are, and that a text is that of one decimal and one exponent only.
-/
namespace PreviewControl

open Time (EndsNumber endsNumber_cons takeWhile_isDigit dropWhile_isDigit)

/-! ## Decimals and exponents as they are written -/

/-- Digits, at least one, with at most one point among them or at either end. -/
structure Decimal where
  whole : List Char
  fraction : Option (List Char)
  decimal : ∀ c ∈ whole ++ fraction.getD [], isDigit c = true
  written : whole ++ fraction.getD [] ≠ []

namespace Decimal

def digits (d : Decimal) : List Char := d.whole ++ d.fraction.getD []

/-- How many digits stand behind the point. -/
def places (d : Decimal) : Nat := (d.fraction.getD []).length

def pointed : Option (List Char) → List Char
  | some ds => '.' :: ds
  | none => []

def text (d : Decimal) : List Char := d.whole ++ pointed d.fraction

def value (d : Decimal) : ℚ := digitsValue d.digits / 10 ^ d.places

theorem value_nonneg (d : Decimal) : 0 ≤ d.value := by
  unfold value
  positivity

theorem of_mem_text {d : Decimal} {c : Char} (h : c ∈ d.text) : isDigit c = true ∨ c = '.' := by
  obtain ⟨whole, fraction, decimal, _⟩ := d
  cases fraction with
  | none => exact .inl (decimal c h)
  | some fraction =>
    rcases List.mem_append.1 h with h | h
    · exact .inl (decimal c (List.mem_append_left _ h))
    · rcases List.mem_cons.1 h with rfl | h
      · exact .inr rfl
      · exact .inl (decimal c (List.mem_append_right _ h))

theorem text_ne_nil (d : Decimal) : d.text ≠ [] := by
  obtain ⟨whole, fraction, _, written⟩ := d
  cases fraction with
  | none => simpa [text, pointed] using written
  | some fraction => simp [text, pointed]

theorem exists_head (d : Decimal) :
    ∃ c rest, d.text = c :: rest ∧ (isDigit c = true ∨ c = '.') := by
  obtain ⟨c, rest, htext⟩ := List.exists_cons_of_ne_nil d.text_ne_nil
  exact ⟨c, rest, htext, of_mem_text (htext ▸ List.mem_cons_self)⟩

/-- A decimal has no letter. -/
theorem lt_of_mem_text {d : Decimal} {c : Char} (h : c ∈ d.text) : c.toNat < 65 := by
  rcases of_mem_text h with h | rfl
  · have hle := (isDigit_iff.1 h).2
    omega
  · decide

end Decimal

/-- A letter `e` of either case, a sign if any (whether it is a minus), and digits, at least one. -/
structure Exponent where
  upper : Bool
  minus : Option Bool
  digits : List Char
  decimal : ∀ c ∈ digits, isDigit c = true
  written : digits ≠ []

namespace Exponent

def letter (upper : Bool) : Char := if upper then 'E' else 'e'

def sign : Option Bool → List Char
  | none => []
  | some minus => [if minus then '-' else '+']

def text (e : Exponent) : List Char := letter e.upper :: (sign e.minus ++ e.digits)

theorem text_append (e : Exponent) (rest : List Char) :
    e.text ++ rest = letter e.upper :: (sign e.minus ++ (e.digits ++ rest)) := by
  rw [text, List.cons_append, List.append_assoc]

def value (e : Exponent) : Int :=
  if e.minus = some true then -(digitsValue e.digits : Int) else digitsValue e.digits

theorem of_mem_body {e : Exponent} {c : Char} (h : c ∈ sign e.minus ++ e.digits) :
    isDigit c = true ∨ c = '-' ∨ c = '+' := by
  rcases List.mem_append.1 h with h | h
  · revert h
    cases e.minus with
    | none => exact nofun
    | some minus =>
      intro h
      rw [List.mem_singleton.1 h]
      cases minus <;> decide
  · exact .inl (e.decimal c h)

/-- A digit or a sign is no letter. -/
theorem lt_of_mem_body {e : Exponent} {c : Char} (h : c ∈ sign e.minus ++ e.digits) :
    c.toNat < 65 := by
  rcases of_mem_body h with h | rfl | rfl
  · have hle := (isDigit_iff.1 h).2
    omega
  · decide
  · decide

theorem le_letter (upper : Bool) : 65 ≤ (letter upper).toNat := by cases upper <;> decide

theorem not_isBlank_of_mem_text {e : Exponent} {c : Char} (h : c ∈ e.text) :
    Text.isBlank c = false := by
  rcases List.mem_cons.1 h with rfl | h
  · cases e.upper <;> decide
  · rcases of_mem_body h with h | rfl | rfl
    · exact not_isBlank_of_isDigit h
    · decide
    · decide

/-- The text of an exponent, if there is one. -/
def textOf (e : Option Exponent) : List Char := (e.map text).getD []

def valueOf (e : Option Exponent) : Int := (e.map value).getD 0

end Exponent

/-! ## How they are read -/

/-- What follows a decimal does not go on with a digit or a point. -/
def EndsDecimal (rest : List Char) : Prop := ∀ c ∈ rest.head?, isDigit c = false ∧ c ≠ '.'

theorem endsDecimal_nil : EndsDecimal [] := nofun

theorem endsDecimal_cons {c : Char} {rest : List Char} (h : isDigit c = false) (hp : c ≠ '.') :
    EndsDecimal (c :: rest) := by
  rintro _ ⟨⟩
  exact ⟨h, hp⟩

theorem EndsDecimal.number {rest : List Char} (h : EndsDecimal rest) : EndsNumber rest :=
  fun c hc => (h c hc).1

theorem isDigit_letter (upper : Bool) : isDigit (Exponent.letter upper) = false := by
  cases upper <;> decide

theorem letter_ne_point (upper : Bool) : Exponent.letter upper ≠ '.' := by
  cases upper <;> decide

theorem endsDecimal_exponent (e : Exponent) (rest : List Char) : EndsDecimal (e.text ++ rest) :=
  endsDecimal_cons (isDigit_letter _) (letter_ne_point _)

theorem takeSign_sign (minus : Option Bool) {rest : List Char}
    (h : ∀ c ∈ rest.head?, c ≠ '-' ∧ c ≠ '+') :
    takeSign (Exponent.sign minus ++ rest) = (minus.getD false, rest) := by
  match minus with
  | some true => rfl
  | some false => rfl
  | none =>
    cases rest with
    | nil => rfl
    | cons c rest =>
      obtain ⟨hminus, hplus⟩ := h c rfl
      exact takeSign.eq_3 _ (fun _ heq => hminus (List.cons.inj heq).1)
        fun _ heq => hplus (List.cons.inj heq).1

theorem exists_sign (cs : List Char) : ∃ minus : Option Bool,
    cs = Exponent.sign minus ++ (takeSign cs).2 ∧ minus.getD false = (takeSign cs).1 := by
  unfold takeSign
  split
  · exact ⟨some true, rfl, rfl⟩
  · exact ⟨some false, rfl, rfl⟩
  · exact ⟨none, rfl, rfl⟩

theorem not_sign_of_isDigit {c : Char} (h : isDigit c = true) : c ≠ '-' ∧ c ≠ '+' := by
  constructor <;> rintro rfl <;> exact absurd h (by decide)

theorem Exponent.not_sign_head (e : Exponent) (rest : List Char) :
    ∀ c ∈ (e.digits ++ rest).head?, c ≠ '-' ∧ c ≠ '+' := by
  obtain ⟨c, ds, hdigits⟩ := List.exists_cons_of_ne_nil e.written
  rw [hdigits]
  rintro _ ⟨⟩
  exact not_sign_of_isDigit (e.decimal c (by simp [hdigits]))

theorem Exponent.takeSign_body (e : Exponent) (rest : List Char) :
    takeSign (sign e.minus ++ (e.digits ++ rest)) = (e.minus.getD false, e.digits ++ rest) :=
  takeSign_sign e.minus (e.not_sign_head rest)

theorem Exponent.takeSign_digits (e : Exponent) :
    takeSign (sign e.minus ++ e.digits) = (e.minus.getD false, e.digits) := by
  simpa using e.takeSign_body []

namespace Numeral

variable {tail cs : List Char}

theorem exponentPart?_letter (upper : Bool) (rest : List Char) :
    exponentPart? (Exponent.letter upper :: rest) =
      if (takeSign rest).2.isEmpty || !(takeSign rest).2.all isDigit then none
      else some (if (takeSign rest).1 then -(digitsValue (takeSign rest).2 : Int)
        else digitsValue (takeSign rest).2) := by
  cases upper <;> rfl

theorem exponentPart?_text (e : Option Exponent) :
    exponentPart? (Exponent.textOf e) = some (Exponent.valueOf e) := by
  cases e with
  | none => rfl
  | some e =>
    have hall : e.digits.all isDigit = true := List.all_eq_true.2 e.decimal
    have hne : e.digits.isEmpty = false := List.isEmpty_eq_false_iff.2 e.written
    show exponentPart? (_ :: _) = some e.value
    rw [exponentPart?_letter, e.takeSign_digits, hall, hne, Exponent.value]
    cases e.minus with
    | none => rfl
    | some minus => cases minus <;> rfl

theorem exists_exponent {n : Int} (h : exponentPart? cs = some n) :
    ∃ e : Option Exponent, Exponent.textOf e = cs ∧ Exponent.valueOf e = n := by
  cases cs with
  | nil => exact ⟨none, rfl, Option.some.inj h⟩
  | cons c rest =>
    have hletter : ∃ upper, Exponent.letter upper = c := by
      by_contra hnot
      have hc : (c == 'e' || c == 'E') = false := by
        rw [Bool.or_eq_false_iff, beq_eq_false_iff_ne, beq_eq_false_iff_ne]
        exact ⟨fun heq => hnot ⟨false, heq.symm⟩, fun heq => hnot ⟨true, heq.symm⟩⟩
      simp [exponentPart?, hc] at h
    obtain ⟨upper, rfl⟩ := hletter
    rw [exponentPart?_letter] at h
    obtain ⟨minus, hrest, hminus⟩ := exists_sign rest
    split at h
    · cases h
    · next hdigits =>
      rw [Bool.or_eq_true, not_or, Bool.not_eq_true, Bool.not_eq_true, Bool.not_eq_false',
        List.isEmpty_eq_false_iff, List.all_eq_true] at hdigits
      refine ⟨some ⟨upper, minus, _, hdigits.2, hdigits.1⟩, ?_, ?_⟩
      · exact congrArg (Exponent.letter upper :: ·) hrest.symm
      · rw [← Option.some.inj h, ← hminus]
        cases minus with
        | none => rfl
        | some minus => cases minus <;> rfl

/-- A decimal is read from the front of a text, up to where it ends. -/
theorem read?_decimal (d : Decimal) (h : EndsDecimal tail) : read? (d.text ++ tail) =
    (exponentPart? tail).map fun e => ⟨digitsValue d.digits, e - d.places⟩ := by
  obtain ⟨whole, fraction, decimal, written⟩ := d
  have hwhole : ∀ c ∈ whole, isDigit c = true := fun c hc => decimal c (List.mem_append_left _ hc)
  cases fraction with
  | none =>
    have hne : whole.isEmpty = false := by simpa using written
    have htake := takeWhile_isDigit hwhole h.number
    have hdrop := dropWhile_isDigit hwhole h.number
    have htext : Decimal.text ⟨whole, none, decimal, written⟩ ++ tail = whole ++ tail := by
      simp [Decimal.text, Decimal.pointed]
    rw [htext, read?, htake, hdrop]
    cases tail with
    | nil => simp [hne, Decimal.digits, Decimal.places]
    | cons c tail =>
      have hc : c ≠ '.' := (h c rfl).2
      simp [hne, hc, Decimal.digits, Decimal.places]
  | some fraction =>
    have hfraction : ∀ c ∈ fraction, isDigit c = true :=
      fun c hc => decimal c (List.mem_append_right _ hc)
    have hpoint : EndsNumber ('.' :: (fraction ++ tail)) := endsNumber_cons (by decide)
    have htake := takeWhile_isDigit hwhole hpoint
    have hdrop := dropWhile_isDigit hwhole hpoint
    have hne : (whole.isEmpty && fraction.isEmpty) = false := by
      simpa [imp_iff_not_or] using written
    have htext : Decimal.text ⟨whole, some fraction, decimal, written⟩ ++ tail =
        whole ++ '.' :: (fraction ++ tail) := by simp [Decimal.text, Decimal.pointed]
    rw [htext, read?, htake, hdrop]
    simp only [takeWhile_isDigit hfraction h.number, dropWhile_isDigit hfraction h.number, hne]
    rfl

theorem exists_decimal {x : Numeral} (h : read? cs = some x) :
    ∃ d : Decimal, ∃ tail e, d.text ++ tail = cs ∧ exponentPart? tail = some e ∧
      x = ⟨digitsValue d.digits, e - d.places⟩ := by
  have hall (cs : List Char) : ∀ c ∈ cs.takeWhile isDigit, isDigit c = true :=
    List.all_eq_true.1 List.all_takeWhile
  have hcs : cs.takeWhile isDigit ++ cs.dropWhile isDigit = cs := List.takeWhile_append_dropWhile
  unfold read? at h
  dsimp only at h
  split at h
  · next rest hpoint =>
    dsimp only at h
    split at h
    · cases h
    · next hne =>
      obtain ⟨e, he, rfl⟩ := Option.map_eq_some_iff.1 h
      refine ⟨⟨cs.takeWhile isDigit, some (rest.takeWhile isDigit), ?_, ?_⟩, rest.dropWhile isDigit,
        e, ?_, he, rfl⟩
      · exact List.forall_mem_append.2 ⟨hall cs, hall rest⟩
      · simpa [imp_iff_not_or] using hne
      · have hrest : rest.takeWhile isDigit ++ rest.dropWhile isDigit = rest :=
          List.takeWhile_append_dropWhile
        rw [Decimal.text, List.append_assoc]
        show _ ++ ('.' :: (rest.takeWhile isDigit ++ _)) = cs
        rw [hrest, ← hpoint, hcs]
  · dsimp only at h
    split at h
    · cases h
    · next hne =>
      obtain ⟨e, he, rfl⟩ := Option.map_eq_some_iff.1 h
      refine ⟨⟨cs.takeWhile isDigit, none, ?_, ?_⟩, cs.dropWhile isDigit, e, ?_, he, rfl⟩
      · simpa using hall cs
      · simpa using hne
      · rw [Decimal.text, Decimal.pointed, List.append_nil, hcs]

end Numeral

/-! ## Telling them apart -/

/-- Nothing in the text belongs to a number. -/
def Lettered (cs : List Char) : Prop :=
  ∀ c ∈ cs, isDigit c = false ∧ c ≠ '.' ∧ c ≠ '+' ∧ c ≠ '-'

instance (cs : List Char) : Decidable (Lettered cs) := List.decidableBAll _ cs

theorem Lettered.number {cs : List Char} (h : Lettered cs) : EndsNumber cs :=
  fun c hc => (h c (List.mem_of_mem_head? hc)).1

theorem Lettered.decimal {cs : List Char} (h : Lettered cs) (e : Option Exponent) :
    EndsDecimal (Exponent.textOf e ++ cs) := by
  cases e with
  | some e => exact endsDecimal_exponent e cs
  | none =>
    intro c hc
    obtain ⟨hdigit, hpoint, _⟩ := h c (List.mem_of_mem_head? hc)
    exact ⟨hdigit, hpoint⟩

theorem digits_inj {ds ds' rest rest' : List Char} (hds : ∀ c ∈ ds, isDigit c = true)
    (hds' : ∀ c ∈ ds', isDigit c = true) (hrest : EndsNumber rest) (hrest' : EndsNumber rest')
    (h : ds ++ rest = ds' ++ rest') : ds = ds' ∧ rest = rest' := by
  have htake := congrArg (List.takeWhile isDigit) h
  have hdrop := congrArg (List.dropWhile isDigit) h
  rw [takeWhile_isDigit hds hrest, takeWhile_isDigit hds' hrest'] at htake
  rw [dropWhile_isDigit hds hrest, dropWhile_isDigit hds' hrest'] at hdrop
  exact ⟨htake, hdrop⟩

theorem endsNumber_pointed (fraction : Option (List Char)) {rest : List Char}
    (h : EndsDecimal rest) : EndsNumber (Decimal.pointed fraction ++ rest) := by
  cases fraction with
  | none => exact h.number
  | some fraction => exact endsNumber_cons (by decide)

theorem Decimal.text_inj {d d' : Decimal} {rest rest' : List Char} (hrest : EndsDecimal rest)
    (hrest' : EndsDecimal rest') (h : d.text ++ rest = d'.text ++ rest') :
    d = d' ∧ rest = rest' := by
  obtain ⟨whole, fraction, decimal, _⟩ := d
  obtain ⟨whole', fraction', decimal', _⟩ := d'
  obtain ⟨hwhole, hfraction⟩ := List.forall_mem_append.1 decimal
  obtain ⟨hwhole', hfraction'⟩ := List.forall_mem_append.1 decimal'
  rw [Decimal.text, Decimal.text, List.append_assoc, List.append_assoc] at h
  obtain ⟨rfl, htail⟩ := digits_inj hwhole hwhole' (endsNumber_pointed fraction hrest)
    (endsNumber_pointed fraction' hrest') h
  match fraction, fraction' with
  | none, none => exact ⟨rfl, htail⟩
  | some fraction, some fraction' =>
    obtain ⟨rfl, rfl⟩ := digits_inj hfraction hfraction' hrest.number hrest'.number
      (List.cons.inj htail).2
    exact ⟨rfl, rfl⟩
  -- Only one of them has a point, which the other's text does not go on with.
  | none, some fraction' =>
    obtain rfl : rest = '.' :: (fraction' ++ rest') := htail
    exact absurd rfl (hrest '.' rfl).2
  | some fraction, none =>
    obtain rfl : rest' = '.' :: (fraction ++ rest) := htail.symm
    have hpoint := hrest' '.' rfl
    exact absurd rfl hpoint.2

theorem Exponent.sign_inj {minus minus' : Option Bool} (h : sign minus = sign minus') :
    minus = minus' := by
  match minus, minus' with
  | none, none => rfl
  | none, some _ => cases h
  | some _, none => cases h
  | some true, some true => rfl
  | some false, some false => rfl
  | some true, some false => exact absurd h (by decide)
  | some false, some true => exact absurd h (by decide)

theorem Exponent.letter_inj {upper upper' : Bool} (h : letter upper = letter upper') :
    upper = upper' := by
  revert h
  cases upper <;> cases upper' <;> decide

/-- An exponent has a digit, so it is not among letters. -/
theorem Lettered.ne_exponent {cs rest : List Char} (h : Lettered cs) (before : List Char)
    (e : Exponent) : cs ≠ before ++ (e.text ++ rest) := by
  rintro rfl
  obtain ⟨c, hc⟩ := List.exists_mem_of_ne_nil _ e.written
  have hmem : c ∈ before ++ (e.text ++ rest) := by simp [Exponent.text, hc]
  exact Bool.false_ne_true ((h c hmem).1.symm.trans (e.decimal c hc))

theorem Exponent.textOf_inj {e e' : Option Exponent} {rest rest' : List Char}
    (hrest : Lettered rest) (hrest' : Lettered rest')
    (h : textOf e ++ rest = textOf e' ++ rest') : e = e' ∧ rest = rest' := by
  match e, e' with
  | none, none => exact ⟨rfl, h⟩
  | none, some e' => exact absurd h (hrest.ne_exponent [] e')
  | some e, none => exact absurd h.symm (hrest'.ne_exponent [] e)
  | some e, some e' =>
    change e.text ++ rest = e'.text ++ rest' at h
    rw [e.text_append, e'.text_append] at h
    obtain ⟨hletter, hbody⟩ := List.cons.inj h
    have hdigits := congrArg (fun cs => (takeSign cs).2) hbody
    simp only [takeSign_body] at hdigits
    rw [hdigits] at hbody
    have hsign := Exponent.sign_inj (List.append_cancel_right hbody)
    obtain ⟨upper, minus, digits, decimal, _⟩ := e
    obtain ⟨upper', minus', digits', decimal', _⟩ := e'
    obtain rfl := Exponent.letter_inj hletter
    obtain rfl := hsign
    obtain ⟨rfl, rfl⟩ := digits_inj decimal decimal' hrest.number hrest'.number hdigits
    exact ⟨rfl, rfl⟩

/-! ## Doubles -/

namespace Binary64

variable {cs r : List Char} {negative : Bool} {x : Binary64}

theorem read?_of_numeral {n : Numeral} (hsign : takeSign cs = (negative, r))
    (h : Numeral.read? r = some n) : read? cs = some (n.toBinary64 negative) := by
  rw [read?, hsign]
  dsimp only
  rw [h]

theorem isFinite_of_mul {x y : Binary64} (h : (x * y).isFinite = true) :
    x.isFinite = true ∧ y.isFinite = true := by
  change (mul x y).isFinite = true at h
  unfold mul at h
  split at h
  · cases h
  · cases h
  · cases h
  · split at h <;> cases h
  · split at h <;> cases h
  · exact ⟨rfl, rfl⟩

theorem Nearest.eq_finite {v : ℚ} {x : Binary64} (h : Nearest v x) (hfinite : x.isFinite = true) :
    ∃ m e, Canonical m e ∧ x = .finite false m e := by
  cases x with
  | nan => cases hfinite
  | infinite => cases hfinite
  | finite negative m e =>
    obtain ⟨rfl, hcanonical, _⟩ := h
    exact ⟨m, e, hcanonical, rfl⟩

/-- The words that infinite doubles and those that are no number go by, in any case. -/
def IsWord (r : List Char) : Prop :=
  String.ofList (r.map Char.toLower) ∈ ["inf", "infinity", "nan"]

/-- What is no numeral is read only if it is one of the words, and then it is not finite. -/
theorem read?_of_no_numeral (hsign : takeSign cs = (negative, r)) (h : Numeral.read? r = none) :
    (IsWord r ∧ ∃ x, read? cs = some x ∧ x.isFinite = false) ∨ ¬IsWord r ∧ read? cs = none := by
  have hread : read? cs =
      if String.ofList (r.map Char.toLower) == "inf" ||
          String.ofList (r.map Char.toLower) == "infinity" then some (infinite negative)
      else if String.ofList (r.map Char.toLower) == "nan" then some (nan negative) else none := by
    rw [read?, hsign]
    dsimp only
    rw [h]
  unfold IsWord
  rw [hread]
  generalize String.ofList (r.map Char.toLower) = word
  split
  · next hinf =>
    rw [Bool.or_eq_true, beq_iff_eq, beq_iff_eq] at hinf
    refine .inl ⟨?_, _, rfl, rfl⟩
    rcases hinf with rfl | rfl <;> simp
  · next hinf =>
    rw [Bool.or_eq_true, beq_iff_eq, beq_iff_eq] at hinf
    split
    · next hnan =>
      refine .inl ⟨?_, _, rfl, rfl⟩
      simp [beq_iff_eq.1 hnan]
    · next hnan =>
      refine .inr ⟨?_, rfl⟩
      rw [beq_iff_eq] at hnan
      simp only [List.mem_cons, List.not_mem_nil, or_false]
      tauto

theorem toLower_of_lt {c : Char} (h : c.toNat < 65) : c.toLower = c := by
  unfold Char.toLower
  refine dif_neg fun hupper => ?_
  have hle : 65 ≤ c.toNat := UInt32.le_iff_toNat_le.1 hupper.1
  omega

/-- A word begins with a letter. -/
theorem IsWord.exists_head (h : IsWord r) : ∃ c rest, r = c :: rest ∧ 65 ≤ c.toNat := by
  cases r with
  | nil => exact absurd h (by unfold IsWord; decide)
  | cons c rest =>
    refine ⟨c, rest, rfl, not_lt.1 fun hlt => ?_⟩
    have hfirst : ∀ word ∈ ["inf", "infinity", "nan"], word.toList.head?.any (65 ≤ ·.toNat) := by
      decide
    have hle := hfirst _ h
    rw [String.toList_ofList] at hle
    change decide (65 ≤ c.toLower.toNat) = true at hle
    rw [toLower_of_lt hlt, decide_eq_true_eq] at hle
    omega

/-- A finite double is read from a numeral. -/
theorem exists_numeral (h : read? cs = some x) (hfinite : x.isFinite = true) : ∃ n,
    Numeral.read? (takeSign cs).2 = some n ∧ x = n.toBinary64 (takeSign cs).1 := by
  cases hread : Numeral.read? (takeSign cs).2 with
  | some n => exact ⟨n, rfl, Option.some.inj (h.symm.trans (read?_of_numeral rfl hread))⟩
  | none =>
    rcases read?_of_no_numeral rfl hread with ⟨_, y, hy, hinfinite⟩ | ⟨_, hnone⟩
    · obtain rfl := Option.some.inj (h.symm.trans hy)
      exact absurd hfinite (by simp [hinfinite])
    · cases h.symm.trans hnone

end Binary64

end PreviewControl
