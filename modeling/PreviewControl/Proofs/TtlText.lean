import PreviewControl.Environment.Ttl
import PreviewControl.Proofs.TimeText

/-!
# Times to live and their texts

A text is a time to live if and only if it is a row of numbers with units, between blanks or alone,
whose sum is positive and not too long. The sum is counted without bound here: what is checked while
a text is read, number by number, turns down nothing else.
-/
namespace PreviewControl.Ttl

/-! ## What a time to live is written with -/

inductive TimeUnit where
  | second
  | minute
  | hour
  | day
deriving DecidableEq, Repr

namespace TimeUnit

def letter : TimeUnit → Char
  | second => 's'
  | minute => 'm'
  | hour => 'h'
  | day => 'd'

def seconds : TimeUnit → Nat
  | second => 1
  | minute => 60
  | hour => 60 * 60
  | day => 24 * 60 * 60

theorem seconds_pos (unit : TimeUnit) : 0 < unit.seconds := by cases unit <;> decide

theorem not_isDigit_letter (unit : TimeUnit) : isDigit unit.letter = false := by
  cases unit <;> decide

theorem not_isBlank_letter (unit : TimeUnit) : Text.isBlank unit.letter = false := by
  cases unit <;> decide

theorem unitSeconds?_letter (unit : TimeUnit) : unitSeconds? unit.letter = some unit.seconds := by
  cases unit <;> rfl

theorem letter_inj {unit unit' : TimeUnit} (h : unit.letter = unit'.letter) : unit = unit' := by
  cases unit <;> cases unit' <;> first | rfl | exact absurd h (by decide)

end TimeUnit

theorem exists_unit {c : Char} {n : Nat} (h : unitSeconds? c = some n) :
    ∃ unit : TimeUnit, unit.letter = c ∧ unit.seconds = n := by
  unfold unitSeconds? at h
  split at h
  · exact ⟨.second, rfl, Option.some.inj h⟩
  · exact ⟨.minute, rfl, Option.some.inj h⟩
  · exact ⟨.hour, rfl, Option.some.inj h⟩
  · exact ⟨.day, rfl, Option.some.inj h⟩
  · cases h

/-- A number and its unit. -/
structure Segment where
  digits : List Char
  unit : TimeUnit
  written : digits ≠ []
  decimal : ∀ c ∈ digits, isDigit c = true

def Segment.text (s : Segment) : List Char := s.digits ++ [s.unit.letter]

def Segment.seconds (s : Segment) : Nat := digitsValue s.digits * s.unit.seconds

def text (segments : List Segment) : List Char := segments.flatMap (·.text)

/-- All segments together. -/
def seconds : List Segment → Nat
  | [] => 0
  | s :: segments => s.seconds + seconds segments

theorem text_cons (s : Segment) (segments : List Segment) :
    text (s :: segments) = s.digits ++ s.unit.letter :: text segments := by
  simp [text, Segment.text]

theorem seconds_cons (s : Segment) (segments : List Segment) :
    seconds (s :: segments) = digitsValue s.digits * s.unit.seconds + seconds segments := rfl

/-! ## Reading on in the middle of a text -/

/-- The number of which `n` has been read when `ds` follows. -/
def digitsFrom (n : Nat) (ds : List Char) : Nat :=
  ds.foldl (fun n c => 10 * n + (c.toNat - 48)) n

/-- What follows `total` seconds and the digits of `number`, if there are any, makes `sum` seconds
of them. -/
def Completes (total : Nat) (number : Option Nat) (cs : List Char) (sum : Nat) : Prop :=
  match number with
  | none => ∃ segments, cs = text segments ∧ sum = total + seconds segments
  | some n => ∃ (ds : List Char) (unit : TimeUnit) (segments : List Segment),
      (∀ c ∈ ds, isDigit c = true) ∧ cs = ds ++ unit.letter :: text segments ∧
        sum = total + digitsFrom n ds * unit.seconds + seconds segments

variable {total sum n : Nat} {number : Option Nat} {c : Char} {cs : List Char}

theorem completes_nil : Completes total none [] sum ↔ sum = total := by
  constructor
  · rintro ⟨segments, htext, hsum⟩
    cases segments with
    | nil => exact hsum
    | cons s segments =>
      rw [text_cons] at htext
      simp at htext
  · rintro rfl
    exact ⟨[], rfl, rfl⟩

theorem not_completes_nil : ¬Completes total (some n) [] sum := by
  rintro ⟨ds, unit, segments, _, htext, _⟩
  simp at htext

/-- A digit goes on with the number, or begins one. -/
theorem completes_digit (h : isDigit c = true) : Completes total number (c :: cs) sum ↔
    Completes total (some (10 * number.getD 0 + (c.toNat - 48))) cs sum := by
  have hletter (unit : TimeUnit) : c ≠ unit.letter := by
    rintro rfl
    exact absurd h (by simp [unit.not_isDigit_letter])
  constructor
  · cases number with
    | none =>
      rintro ⟨segments, htext, rfl⟩
      cases segments with
      | nil => cases htext
      | cons s segments =>
        obtain ⟨digits, unit, written, decimal⟩ := s
        rw [text_cons] at htext
        cases digits with
        | nil => exact absurd rfl written
        | cons d ds =>
          obtain ⟨rfl, rfl⟩ := List.cons.inj htext
          refine ⟨ds, unit, segments, fun c hc => decimal c (List.mem_cons_of_mem _ hc), rfl, ?_⟩
          rw [seconds_cons, ← Nat.add_assoc]
          rfl
    | some n =>
      rintro ⟨ds, unit, segments, hds, htext, rfl⟩
      cases ds with
      | nil => exact absurd (List.cons.inj htext).1 (hletter unit)
      | cons d ds =>
        obtain ⟨rfl, rfl⟩ := List.cons.inj htext
        exact ⟨ds, unit, segments, fun c hc => hds c (List.mem_cons_of_mem _ hc), rfl, rfl⟩
  · rintro ⟨ds, unit, segments, hds, rfl, rfl⟩
    have hall : ∀ d ∈ c :: ds, isDigit d = true := List.forall_mem_cons.2 ⟨h, hds⟩
    cases number with
    | none =>
      refine ⟨⟨c :: ds, unit, List.cons_ne_nil _ _, hall⟩ :: segments, ?_, ?_⟩
      · rw [text_cons]
        rfl
      · rw [seconds_cons, ← Nat.add_assoc]
        rfl
    | some n => exact ⟨c :: ds, unit, segments, hall, rfl, rfl⟩

/-- The letter of a unit ends a number. -/
theorem completes_letter (unit : TimeUnit) : Completes total (some n) (unit.letter :: cs) sum ↔
    Completes (total + n * unit.seconds) none cs sum := by
  constructor
  · rintro ⟨ds, unit', segments, hds, htext, rfl⟩
    cases ds with
    | nil =>
      obtain ⟨hletter, rfl⟩ := List.cons.inj htext
      obtain rfl := TimeUnit.letter_inj hletter
      exact ⟨segments, rfl, rfl⟩
    | cons d ds =>
      have hd := hds d List.mem_cons_self
      rw [← (List.cons.inj htext).1, unit.not_isDigit_letter] at hd
      cases hd
  · rintro ⟨segments, rfl, rfl⟩
    exact ⟨[], unit, segments, nofun, rfl, rfl⟩

/-- Any other character has no place in the text, and a letter has none without a number. -/
theorem not_completes (h : isDigit c = false) (hunit : unitSeconds? c = none ∨ number = none) :
    ¬Completes total number (c :: cs) sum := by
  cases number with
  | none =>
    rintro ⟨segments, htext, _⟩
    cases segments with
    | nil => cases htext
    | cons s segments =>
      rw [text_cons] at htext
      obtain ⟨d, ds, hdigits⟩ := List.exists_cons_of_ne_nil s.written
      rw [hdigits] at htext
      have hd := s.decimal d (by rw [hdigits]; exact List.mem_cons_self)
      rw [← (List.cons.inj htext).1, h] at hd
      cases hd
  | some n =>
    rintro ⟨ds, unit, segments, hds, htext, _⟩
    cases ds with
    | nil =>
      have hnone := hunit.resolve_right nofun
      rw [(List.cons.inj htext).1, unit.unitSeconds?_letter] at hnone
      cases hnone
    | cons d ds =>
      have hd := hds d List.mem_cons_self
      rw [← (List.cons.inj htext).1, h] at hd
      cases hd

theorem Completes.le (h : Completes total none cs sum) : total ≤ sum := by
  obtain ⟨segments, _, rfl⟩ := h
  exact Nat.le_add_right _ _

theorem scan_digit (h : isDigit c = true) : scan total number (c :: cs) =
    scan total (some (10 * number.getD 0 + (c.toNat - 48))) cs := by
  rw [scan.eq_def]
  exact if_pos h

/-- The letter of a unit adds a number, as far as can be counted. -/
theorem scan_letter (unit : TimeUnit) : scan total (some n) (unit.letter :: cs) =
    if total + n * unit.seconds ≤ counter then scan (total + n * unit.seconds) none cs
    else .error .outOfRange := by
  have hn : n ≤ n * unit.seconds := Nat.le_mul_of_pos_right n unit.seconds_pos
  have hread : scan total (some n) (unit.letter :: cs) = (do
      let n ← within? n
      let part ← within? (n * unit.seconds)
      let total ← within? (total + part)
      scan total none cs) := by
    simp [scan, unit.not_isDigit_letter, unit.unitSeconds?_letter]
  rw [hread]
  by_cases hsum : total + n * unit.seconds ≤ counter
  · have hpart : n * unit.seconds ≤ counter := by omega
    have hnumber : n ≤ counter := by omega
    simp [within?, bind, Except.bind, hsum, hpart, hnumber]
  · by_cases hnumber : n ≤ counter <;> by_cases hpart : n * unit.seconds ≤ counter <;>
      simp [within?, bind, Except.bind, hsum, hpart, hnumber]

/-- A text is read exactly if it goes on as it should and comes to a positive sum that is not too
long. -/
theorem scan_eq_ok : scan total number cs = .ok sum ↔
    Completes total number cs sum ∧ 0 < sum ∧ sum ≤ longest := by
  induction cs generalizing total number with
  | nil =>
    cases number with
    | none =>
      rw [completes_nil, scan]
      grind
    | some n => exact iff_of_false nofun fun h => not_completes_nil h.1
  | cons c cs ih =>
    cases hdigit : isDigit c with
    | true => rw [scan_digit hdigit, ih, completes_digit hdigit]
    | false =>
      cases hunit : unitSeconds? c with
      | none =>
        refine iff_of_false ?_ fun h => not_completes hdigit (.inl hunit) h.1
        simp [scan, hdigit, hunit]
      | some size =>
        cases number with
        | none =>
          refine iff_of_false ?_ fun h => not_completes hdigit (.inr rfl) h.1
          simp [scan, hdigit, hunit]
        | some n =>
          obtain ⟨unit, rfl, rfl⟩ := exists_unit hunit
          rw [completes_letter, scan_letter]
          split
          · exact ih
          · next hsum =>
            -- What cannot be counted is longer than any time to live.
            refine iff_of_false nofun fun ⟨h, _, hlongest⟩ => hsum ?_
            exact Nat.le_trans h.le (Nat.le_trans hlongest (by decide))

/-! ## Texts -/

theorem not_isBlank_of_mem_text {segments : List Segment} (h : c ∈ text segments) :
    Text.isBlank c = false := by
  obtain ⟨s, _, hc⟩ := List.mem_flatMap.1 h
  rcases List.mem_append.1 hc with hc | hc
  · exact not_isBlank_of_isDigit (s.decimal c hc)
  · obtain rfl := List.mem_singleton.1 hc
    exact s.unit.not_isBlank_letter

theorem trim_eq_text {segments : List Segment} :
    Text.trim cs = text segments ↔ Text.Padded (text segments) cs :=
  Text.trim_eq_iff (fun _ hc => not_isBlank_of_mem_text (List.mem_of_mem_head? hc))
    fun _ hc => not_isBlank_of_mem_text (List.mem_of_mem_getLast? hc)

theorem read_eq_ok : read cs = .ok sum ↔ ∃ segments : List Segment,
    Text.Padded (text segments) cs ∧ sum = seconds segments ∧ 0 < sum ∧ sum ≤ longest := by
  have hread : read cs = .ok sum ↔ scan 0 none (Text.trim cs) = .ok sum := by
    unfold read
    cases Text.trim cs with
    | nil => exact iff_of_false nofun nofun
    | cons c rest => rfl
  rw [hread, scan_eq_ok]
  constructor
  · rintro ⟨⟨segments, htext, hsum⟩, hrange⟩
    exact ⟨segments, trim_eq_text.1 htext, hsum.trans (Nat.zero_add _), hrange⟩
  · rintro ⟨segments, hpadded, hsum, hrange⟩
    exact ⟨⟨segments, trim_eq_text.2 hpadded, hsum.trans (Nat.zero_add _).symm⟩, hrange⟩

/-- Leading zeros and numbers without effect do no harm, however long they are. -/
example : orFallback " 00000000000000000000001h000000000000000000000d30m\n" = 5400 := by
  decide +kernel

theorem parse_eq_ok {input : String} : parse input = .ok sum ↔ read input.toList = .ok sum := by
  unfold parse
  cases read input.toList <;> simp

/-- A text is a time to live of so many seconds if and only if it is, between blanks or alone, a row
of one or more numbers with units that make so many seconds together, more than none and at most the
largest whole number of seconds whose milliseconds a signed 64-bit number can count. -/
theorem parse_eq_ok_iff (input : String) (total : Nat) : parse input = .ok total ↔
    ∃ segments : List Segment, segments ≠ [] ∧ Text.Padded (text segments) input.toList ∧
      total = seconds segments ∧ 0 < total ∧ total ≤ 9223372036854775 := by
  rw [parse_eq_ok, read_eq_ok, show longest = 9223372036854775 from rfl]
  constructor
  · rintro ⟨segments, hpadded, hsum, hpos, hmost⟩
    refine ⟨segments, ?_, hpadded, hsum, hpos, hmost⟩
    rintro rfl
    exact absurd hsum (Nat.ne_of_gt hpos)
  · rintro ⟨segments, _, h⟩
    exact ⟨segments, h⟩

end PreviewControl.Ttl
