import PreviewControl.Time.Instant

/-!
# Days and dates

The date of a day exists, and it is the date of this day and no other. Within an era of 400 years
the year of a day does not go back from one day to the next, so it is enough to know it on the first
and on the last day of every year.
-/
namespace PreviewControl.Time

/-- The number of the first day of a year within its era. -/
def firstDay (year : Nat) : Nat := 365 * year + year / 4 - year / 100

/-- The year of a day within its era. -/
def yearAt (day : Nat) : Nat := (day - day / 1460 + day / 36524 - day / 146096) / 365

/-- The month of a day of a year, counted from March. -/
def monthAt (day : Nat) : Nat := (5 * day + 2) / 153

/-- The number of the first day of a month within its year, both counted from March. -/
def monthStart (month : Nat) : Nat := (153 * month + 2) / 5

/-- The usual number of a month that is counted from March. -/
def monthNumber (month : Nat) : Nat := if month < 10 then month + 3 else month - 9

/-! ## Years of an era -/

private theorem yearAt_le_succ (day : Nat) : yearAt day ≤ yearAt (day + 1) := by
  unfold yearAt
  refine Nat.div_le_div_right ?_
  omega

theorem yearAt_mono {a b : Nat} (h : a ≤ b) : yearAt a ≤ yearAt b := by
  induction h with
  | refl => exact Nat.le_refl _
  | step _ ih => exact Nat.le_trans ih (yearAt_le_succ _)

private theorem yearAt_ends : ∀ year < 400, yearAt (firstDay year) = year ∧
    (year ≠ 0 → yearAt (firstDay year - 1) < year) := by decide +kernel

theorem yearAt_lt {day : Nat} (h : day < 146097) : yearAt day < 400 := by
  have hm : yearAt day ≤ yearAt 146096 := yearAt_mono (Nat.le_of_lt_succ h)
  have hl : yearAt 146096 < 400 := by decide
  omega

theorem firstDay_yearAt_le {day : Nat} (h : day < 146097) : firstDay (yearAt day) ≤ day := by
  refine Nat.le_of_not_lt fun hlt => ?_
  have hy : yearAt day ≠ 0 := by
    intro hy
    rw [hy] at hlt
    exact absurd hlt (Nat.not_lt_zero day)
  have hl := (yearAt_ends _ (yearAt_lt h)).2 hy
  have hm : yearAt day ≤ yearAt (firstDay (yearAt day) - 1) := yearAt_mono (by omega)
  omega

theorem lt_firstDay_succ (day : Nat) (hy : yearAt day < 399) :
    day < firstDay (yearAt day + 1) := by
  refine Nat.lt_of_not_le fun hle => ?_
  have hm := yearAt_mono hle
  rw [(yearAt_ends (yearAt day + 1) (by omega)).1] at hm
  omega

/-- Only a leap year has a day with the number 365. -/
theorem day_of_year {day : Nat} (h : day < 146097) (era : Int) :
    day - firstDay (yearAt day) ≤ 365 ∧ (day - firstDay (yearAt day) = 365 →
      isLeapYear (yearAt day + era * 400 + 1) = true) := by
  have hlo := firstDay_yearAt_le h
  have hy := yearAt_lt h
  simp only [isLeapYear, Bool.or_eq_true, Bool.and_eq_true, beq_iff_eq, bne_iff_ne, ne_eq]
  by_cases hl : yearAt day = 399
  · have hf : firstDay 399 = 145731 := by decide
    rw [hl] at hlo ⊢
    rw [hf] at hlo ⊢
    refine ⟨by omega, fun _ => ?_⟩
    omega
  · have hhi := lt_firstDay_succ day (by omega)
    generalize yearAt day = y at *
    unfold firstDay at *
    refine ⟨by omega, fun hd => .inl ?_⟩
    have hup : y / 100 ≤ (y + 1) / 100 := by omega
    have h4 : (y + 1) % 4 = 0 := by omega
    have h100 : (y + 1) % 100 ≠ 0 := by omega
    constructor <;> omega

/-! ## Months of a year -/

private theorem month_bounds : ∀ day < 366, monthAt day < 12 ∧ monthStart (monthAt day) ≤ day ∧
    (monthAt day = 11 → monthStart (monthAt day) = 337) ∧
    (monthAt day ≠ 11 →
      day - monthStart (monthAt day) + 1 ≤ daysInMonth 1 (monthNumber (monthAt day))) := by
  decide +kernel

private theorem monthNumber_bounds : ∀ month < 12, 1 ≤ monthNumber month ∧
    monthNumber month ≤ 12 ∧ (monthNumber month + 9) % 12 = month ∧
    (monthNumber month = 2 ↔ month = 11) := by decide

private theorem daysInMonth_of_ne {month : Nat} (h : month ≠ 2) (y z : Int) :
    daysInMonth y month = daysInMonth z month := by
  unfold daysInMonth
  split
  · exact absurd rfl h
  · rfl
  · rfl
  · rfl
  · rfl
  · rfl

namespace Date

/-- The day within its era of 400 years. -/
def dayOfEra (n : Int) : Nat := (n + 719468 - (n + 719468) / 146097 * 146097).toNat

theorem dayOfEra_lt (n : Int) : dayOfEra n < 146097 := by
  unfold dayOfEra
  omega

/-- The day within its year, which begins in March. -/
def dayOfYear (n : Int) : Nat := dayOfEra n - firstDay (yearAt (dayOfEra n))

theorem ofDays_eq (n : Int) : ofDays n =
    ⟨yearAt (dayOfEra n) + (n + 719468) / 146097 * 400 +
        (if monthNumber (monthAt (dayOfYear n)) ≤ 2 then 1 else 0),
      monthNumber (monthAt (dayOfYear n)),
      dayOfYear n - monthStart (monthAt (dayOfYear n)) + 1⟩ := rfl

theorem dayOfYear_le (n : Int) : dayOfYear n ≤ 365 := (day_of_year (dayOfEra_lt n) 0).1

theorem ofDays_isValid (n : Int) : (ofDays n).IsValid := by
  have hd := dayOfYear_le n
  obtain ⟨hm, hs, hf, hb⟩ := month_bounds (dayOfYear n) (by omega)
  obtain ⟨h1, h12, _, h2⟩ := monthNumber_bounds _ hm
  rw [ofDays_eq]
  refine ⟨h1, h12, by simp, ?_⟩
  by_cases hfeb : monthAt (dayOfYear n) = 11
  · have hleap := (day_of_year (dayOfEra_lt n) ((n + 719468) / 146097)).2
    have hn := h2.2 hfeb
    rw [hf hfeb] at hs ⊢
    simp only [hn, Nat.le_refl, if_true, daysInMonth]
    split
    · omega
    · next hne =>
      have hlt : dayOfYear n ≠ 365 := fun he => hne (hleap he)
      omega
  · have hn : monthNumber (monthAt (dayOfYear n)) ≠ 2 := fun h => hfeb (h2.1 h)
    rw [daysInMonth_of_ne hn _ 1]
    exact hb hfeb

private theorem toDays_march (era : Int) {year month : Nat} (hy : year < 400) (hm : month < 12)
    (day : Nat) :
    toDays ⟨year + era * 400 + (if monthNumber month ≤ 2 then 1 else 0), monthNumber month,
      day + 1⟩ = era * 146097 + (firstDay year + monthStart month + day) - 719468 := by
  obtain ⟨_, _, hnum, _⟩ := monthNumber_bounds month hm
  have hmarch : ∀ y : Int, (if monthNumber month ≤ 2
      then y + (if monthNumber month ≤ 2 then 1 else 0) - 1
      else y + (if monthNumber month ≤ 2 then 1 else 0)) = y := by
    intro y
    split <;> omega
  have hstart :
      (153 * (((monthNumber month : Int) + 9) % 12) + 2) / 5 = (monthStart month : Int) := by
    have hcast : ((monthNumber month : Int) + 9) % 12 = month := by exact_mod_cast hnum
    rw [hcast, monthStart]
    omega
  have hera : (year + era * 400) / 400 = era := by omega
  have hfirst : (year * 365 + (year : Int) / 4 - (year : Int) / 100) = (firstDay year : Int) := by
    unfold firstDay
    omega
  simp only [toDays, hmarch, hstart, hera]
  have hyear : (year : Int) + era * 400 - era * 400 = year := by omega
  rw [hyear]
  push_cast
  omega

/-- The date of a day is the date of this day. -/
theorem toDays_ofDays (n : Int) : (ofDays n).toDays = n := by
  have hy := yearAt_lt (dayOfEra_lt n)
  have hf := firstDay_yearAt_le (dayOfEra_lt n)
  obtain ⟨hm, hs, _, _⟩ := month_bounds (dayOfYear n) (Nat.lt_succ_of_le (dayOfYear_le n))
  have hera : (dayOfEra n : Int) = n + 719468 - (n + 719468) / 146097 * 146097 := by
    unfold dayOfEra
    omega
  have hd : dayOfYear n = dayOfEra n - firstDay (yearAt (dayOfEra n)) := rfl
  rw [ofDays_eq, toDays_march _ hy hm]
  omega

/-- No representable time has a year of more than six digits. -/
theorem natAbs_year_le (t : Instant) : (ofDays (t.seconds / 86400)).year.natAbs ≤ 300000 := by
  obtain ⟨hlo, hhi, _⟩ := t.inRange
  have hf : Instant.firstSecond = -8334601228800 := by decide
  have hl : Instant.lastSecond = 8210266876799 := by decide
  have hy := yearAt_lt (dayOfEra_lt (t.seconds / 86400))
  rw [hf] at hlo
  rw [hl] at hhi
  rw [ofDays_eq]
  simp only
  split <;> omega

end Date
end PreviewControl.Time
