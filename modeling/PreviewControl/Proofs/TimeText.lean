import PreviewControl.Proofs.Calendar
import PreviewControl.Time.Rfc3339

/-!
# Times and their texts

The text of an instant is read back as the same instant: every part of the text is taken off the
front of what is left, because nothing that follows a number begins with a digit.
-/
namespace PreviewControl

/-! ## Digits and the numbers that they write -/

theorem isDigit_iff {c : Char} : isDigit c = true ↔ 48 ≤ c.toNat ∧ c.toNat ≤ 57 := by
  simp only [isDigit, Bool.and_eq_true, decide_eq_true_eq]
  exact Iff.rfl

theorem isDigit_of_mem_toDigits {n : Nat} {c : Char} (h : c ∈ Nat.toDigits 10 n) :
    isDigit c = true := by
  have hd := Nat.isDigit_of_mem_toDigits (by decide) (by decide) h
  rw [Char.isDigit, Bool.and_eq_true, decide_eq_true_eq, decide_eq_true_eq] at hd
  rw [isDigit_iff]
  exact hd

theorem not_isBlank_of_isDigit {c : Char} (h : isDigit c = true) : Text.isBlank c = false := by
  obtain ⟨hl, hh⟩ := isDigit_iff.1 h
  simp only [Text.isBlank, Bool.or_eq_false_iff, Bool.and_eq_false_iff, decide_eq_false_iff_not,
    beq_eq_false_iff_ne, ne_eq]
  omega

theorem digitsValue_eq (ds : List Char) : digitsValue ds = Nat.ofDigitChars 10 ds 0 := by
  rw [Nat.ofDigitChars_eq_foldl]
  rfl

@[simp] theorem digitsValue_toDigits (n : Nat) : digitsValue (Nat.toDigits 10 n) = n := by
  rw [digitsValue_eq, Nat.ofDigitChars_ten_toDigits]

namespace Time

@[simp] theorem digitsValue_padded (width n : Nat) : digitsValue (padded width n) = n := by
  rw [digitsValue_eq, padded, Nat.ofDigitChars_append, Nat.ofDigitChars_replicate_zero,
    Nat.mul_zero, Nat.ofDigitChars_ten_toDigits]

theorem isDigit_of_mem_padded {width n : Nat} {c : Char} (h : c ∈ padded width n) :
    isDigit c = true := by
  rw [padded, List.mem_append, List.mem_replicate] at h
  rcases h with ⟨_, rfl⟩ | h
  · decide
  · exact isDigit_of_mem_toDigits h

theorem isDigit_padded (width n : Nat) : ∀ c ∈ padded width n, isDigit c = true :=
  fun _ => isDigit_of_mem_padded

theorem padded_ne_nil (width n : Nat) : padded width n ≠ [] := by
  simp [padded, Nat.toDigits_ne_nil]

/-- A number that fits takes exactly the width that is asked for. -/
theorem length_padded {width n : Nat} (hw : 0 < width) (hn : n < pow10 width) :
    (padded width n).length = width := by
  have hl := (Nat.length_toDigits_le_iff (by decide) hw).2 hn
  rw [padded, List.length_append, List.length_replicate]
  omega

/-- What follows a number does not go on with a digit. -/
def EndsNumber (rest : List Char) : Prop := ∀ c ∈ rest.head?, isDigit c = false

theorem endsNumber_cons {c : Char} {rest : List Char} (h : isDigit c = false) :
    EndsNumber (c :: rest) := by
  intro d hd
  cases hd
  exact h

theorem takeWhile_isDigit {ds rest : List Char} (hd : ∀ c ∈ ds, isDigit c = true)
    (hr : EndsNumber rest) : (ds ++ rest).takeWhile isDigit = ds := by
  rw [List.takeWhile_append_of_pos hd]
  cases rest with
  | nil => simp
  | cons c rest => simp [hr c rfl]

theorem dropWhile_isDigit {ds rest : List Char} (hd : ∀ c ∈ ds, isDigit c = true)
    (hr : EndsNumber rest) : (ds ++ rest).dropWhile isDigit = rest := by
  rw [List.dropWhile_append_of_pos hd]
  cases rest with
  | nil => rfl
  | cons c rest => simp [hr c rfl]

theorem trimStart_cons {c : Char} {rest : List Char} (h : Text.isBlank c = false) :
    Text.trimStart (c :: rest) = c :: rest := by simp [Text.trimStart, h]

/-- There is nothing to trim before a number. -/
theorem trimStart_padded (width n : Nat) (rest : List Char) :
    Text.trimStart (padded width n ++ rest) = padded width n ++ rest := by
  cases hp : padded width n with
  | nil => exact absurd hp (padded_ne_nil width n)
  | cons c ds =>
    have hc : c ∈ padded width n := by
      rw [hp]
      exact List.mem_cons_self
    exact trimStart_cons (not_isBlank_of_isDigit (isDigit_of_mem_padded hc))

/-! ## The parts of a time -/

theorem digits_padded {width n low high most : Nat} {rest : List Char}
    (hm : (padded width n).length ≤ most) (hl : low ≤ n) (hh : n ≤ high) (hr : EndsNumber rest) :
    digits most low high (padded width n ++ rest) = .ok (n, rest) := by
  have ht := takeWhile_isDigit (isDigit_padded width n) hr
  have he : (padded width n).isEmpty = false := by simp [padded_ne_nil]
  rw [digits, ht, List.take_of_length_le hm]
  simp [he, hl, hh]

theorem short_padded {n low high : Nat} {rest : List Char} (hl : low ≤ n) (hh : n ≤ high)
    (h100 : high < 100) (hr : EndsNumber rest) :
    short low high (padded 2 n ++ rest) = .ok (n, rest) := by
  have hn : n < pow10 2 := by
    change n < 100
    omega
  rw [short, trimStart_padded]
  exact digits_padded (Nat.le_of_eq (length_padded (by decide) hn)) hl hh hr

theorem separator_cons {c : Char} {rest : List Char} (h : Text.isBlank c = false) :
    separator c (c :: rest) = .ok rest := by
  rw [separator, trimStart_cons h]
  simp

private theorem year_padded {n : Nat} {rest : List Char} (h : n ≤ 9999) (hr : EndsNumber rest) :
    year (padded 4 n ++ rest) = .ok ((n : Int), rest) := by
  have hn : n < pow10 4 := by
    change n < 10000
    omega
  have hm : n ≤ maxYear := Nat.le_trans h (by decide)
  have hd := digits_padded (Nat.le_of_eq (length_padded (by decide) hn)) (Nat.zero_le n) hm hr
  rw [year, trimStart_padded]
  cases hp : padded 4 n with
  | nil => exact absurd hp (padded_ne_nil 4 n)
  | cons c ds =>
    have hc : isDigit c = true := by
      refine isDigit_padded 4 n c ?_
      rw [hp]
      exact List.mem_cons_self
    rw [hp] at hd
    rw [List.cons_append] at hd ⊢
    split
    · next h =>
      rw [(List.cons.inj h).1] at hc
      exact absurd hc (by decide)
    · next h =>
      rw [(List.cons.inj h).1] at hc
      exact absurd hc (by decide)
    · rw [hd]
      rfl

/-- A year is read back with its sign. -/
theorem year_yearText {y : Int} {rest : List Char} (h : y.natAbs ≤ maxYear)
    (hr : EndsNumber rest) : year (yearText y ++ rest) = .ok (y, rest) := by
  have hd (high : Nat) (hh : y.natAbs ≤ high) :
      digits (padded 4 y.natAbs ++ rest).length 0 high (padded 4 y.natAbs ++ rest) =
        .ok (y.natAbs, rest) :=
    digits_padded (by simp) (Nat.zero_le _) hh hr
  unfold yearText
  split
  · next hy =>
    simp only [Bool.and_eq_true, decide_eq_true_eq] at hy
    rw [year_padded (by omega) hr, Int.toNat_of_nonneg hy.1]
  · split
    · next hneg =>
      rw [year, List.cons_append, trimStart_cons (by decide)]
      simp only [hd (maxYear + 1) (by omega), Except.map]
      rw [Int.ofNat_natAbs_of_nonpos (by omega), Int.neg_neg]
    · next hpos =>
      rw [year, List.cons_append, trimStart_cons (by decide)]
      simp only [hd maxYear h, Except.map]
      rw [Int.natAbs_of_nonneg (by omega)]

/-- So many digits behind a point are read as nanoseconds. -/
private theorem fraction_padded {places n : Nat} {rest : List Char} (h0 : 0 < places)
    (h9 : places ≤ 9) (hn : n < pow10 places) (hr : EndsNumber rest) :
    fraction ('.' :: padded places n ++ rest) = .ok (n * pow10 (9 - places), rest) := by
  have hl := length_padded h0 hn
  have hd := isDigit_padded places n
  have he : (padded places n).isEmpty = false := by simp [padded_ne_nil]
  rw [List.cons_append, fraction, takeWhile_isDigit hd hr, dropWhile_isDigit hd hr,
    List.take_of_length_le (by omega)]
  simp only [he, digitsValue_padded, hl]
  rfl

/-- A fraction is read back whatever number of digits it takes. -/
theorem fraction_fractionText {nanos : Nat} (h : nanos < 1000000000) {rest : List Char}
    (hr : EndsNumber rest) (hp : ∀ r, rest ≠ '.' :: r) :
    fraction (fractionText nanos ++ rest) = .ok (nanos, rest) := by
  unfold fractionText
  split
  · next h0 =>
    rw [List.nil_append, fraction, h0]
    exact hp
  · split
    · next hm =>
      have hn : nanos / 1000000 < pow10 3 := by
        change nanos / 1000000 < 1000
        omega
      rw [fraction_padded (by decide) (by decide) hn hr]
      have hv : nanos / 1000000 * pow10 (9 - 3) = nanos := by
        show nanos / 1000000 * 1000000 = nanos
        omega
      rw [hv]
    · split
      · next hm =>
        have hn : nanos / 1000 < pow10 6 := by
          change nanos / 1000 < 1000000
          omega
        rw [fraction_padded (by decide) (by decide) hn hr]
        have hv : nanos / 1000 * pow10 (9 - 6) = nanos := by
          show nanos / 1000 * 1000 = nanos
          omega
        rw [hv]
      · rw [fraction_padded (by decide) (by decide) (by omega) hr]
        have hv : nanos * pow10 (9 - 9) = nanos := Nat.mul_one nanos
        rw [hv]

/-! ## Whole times -/

private theorem endsNumber_fraction (nanos : Nat) : EndsNumber (fractionText nanos ++ ['Z']) := by
  unfold fractionText
  split
  · exact endsNumber_cons (by decide)
  · split
    · exact endsNumber_cons (by decide)
    · split
      · exact endsNumber_cons (by decide)
      · exact endsNumber_cons (by decide)

private theorem zone_utc : zone ['Z'] = .ok (0, []) := rfl

private theorem day_le {date : Date} (h : date.IsValid) : date.day ≤ 31 := by
  refine Nat.le_trans h.2.2.2 ?_
  unfold daysInMonth
  split
  · split <;> decide
  all_goals decide

/-- A text of parts that are in range stands for the time that they make up, if there is one. -/
private theorem parse_parts {date : Date} {hour minute second nanos : Nat} (hd : date.IsValid)
    (hy : date.year.natAbs ≤ maxYear) (hh : hour ≤ 23) (hm : minute ≤ 59) (hs : second ≤ 60)
    (hn : nanos < 1000000000) :
    parse (String.ofList (yearText date.year ++ '-' :: padded 2 date.month ++
      '-' :: padded 2 date.day ++ 'T' :: padded 2 hour ++ ':' :: padded 2 minute ++
      ':' :: padded 2 second ++ fractionText nanos ++ ['Z'])) =
    (orFlaw .outOfRange <| Instant.of?
      (date.toDays * 86400 + (hour * 3600 + minute * 60 + min second 59 : Nat))
      (if second = 60 then nanos + 1000000000 else nanos)).bind fun written =>
        orFlaw .impossible (Instant.of? (written.seconds - 0) written.nanos) := by
  have hz : ∀ r, ['Z'] ≠ '.' :: r := fun r h => absurd (List.cons.inj h).1 (by decide)
  have e1 (rest : List Char) := year_yearText hy (@endsNumber_cons '-' rest (by decide))
  have e2 (rest : List Char) : separator '-' ('-' :: rest) = .ok rest := separator_cons (by decide)
  have e3 (rest : List Char) :=
    short_padded hd.1 hd.2.1 (by decide) (@endsNumber_cons '-' rest (by decide))
  have e4 (rest : List Char) :=
    short_padded hd.2.2.1 (day_le hd) (by decide) (@endsNumber_cons 'T' rest (by decide))
  have e5 (rest : List Char) : dateEnd ('T' :: rest) = .ok rest := rfl
  have e6 (rest : List Char) : separator ':' (':' :: rest) = .ok rest := separator_cons (by decide)
  have e7 (rest : List Char) :=
    short_padded (Nat.zero_le hour) hh (by decide) (@endsNumber_cons ':' rest (by decide))
  have e8 (rest : List Char) :=
    short_padded (Nat.zero_le minute) hm (by decide) (@endsNumber_cons ':' rest (by decide))
  have e9 := short_padded (Nat.zero_le second) hs (by decide) (endsNumber_fraction nanos)
  have e10 := fraction_fractionText hn (endsNumber_cons (by decide)) hz
  have hv : decide date.IsValid = true := decide_eq_true hd
  rw [parse, String.toList_ofList]
  simp only [List.append_assoc, List.cons_append, e1, e2, e3, e4, e5, e6, e7, e8, e9, e10, zone_utc,
    bind, Except.bind]
  simp [hv, Text.trimStart]

/-- Every instant is read back from its text, a leap second too. -/
theorem parse_print (t : Instant) : parse (print t) = .ok t := by
  obtain ⟨_, _, hnanos, hleap⟩ := t.inRange
  have hy : (Date.ofDays (t.seconds / 86400)).year.natAbs ≤ maxYear :=
    Nat.le_trans (Date.natAbs_year_le t) (by decide)
  have hseconds : t.seconds / 86400 * 86400 + (((t.seconds % 86400).toNat / 3600 * 3600 +
      (t.seconds % 86400).toNat / 60 % 60 * 60 +
      min ((t.seconds % 86400).toNat % 60 + t.nanos / 1000000000) 59 : Nat) : Int) = t.seconds := by
    omega
  have hfraction : (if (t.seconds % 86400).toNat % 60 + t.nanos / 1000000000 = 60
      then t.nanos % 1000000000 + 1000000000 else t.nanos % 1000000000) = t.nanos := by
    split <;> omega
  unfold print
  rw [parse_parts (Date.ofDays_isValid _) hy (by omega) (by omega) (by omega) (by omega),
    Date.toDays_ofDays, hseconds, hfraction, Instant.of?_self]
  show orFlaw .impossible (Instant.of? (t.seconds - 0) t.nanos) = .ok t
  rw [Int.sub_zero, Instant.of?_self]
  rfl

@[simp] theorem read?_print (t : Instant) : read? (print t) = some t := by
  rw [read?, parse_print]
  rfl

end Time
end PreviewControl
