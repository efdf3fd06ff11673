import PreviewControl.Time.Instant
import PreviewControl.Text.Blank
import PreviewControl.Numeric.Decimal

/-!
# Times in RFC 3339

The RFC 3339 form of an instant. Printing gives universal time with a `Z` and the fewest of 0, 3, 6
or 9 fractional digits that are exact; years outside 0000 to 9999 carry a sign. Reading is lenient:
numbers may be shorter, blanks may stand before them and before separators, and the zone may be an
offset, `Z`, or the letters `UTC`. A text that is no time is refused at the first part that is not
as it should be.
-/
namespace PreviewControl.Time

def padded (width n : Nat) : List Char :=
  let ds := Nat.toDigits 10 n
  List.replicate (width - ds.length) '0' ++ ds

/-- A year: four digits, or a sign and at least four digits. -/
def yearText (y : Int) : List Char :=
  if 0 ≤ y && y ≤ 9999 then padded 4 y.toNat
  else (if y < 0 then '-' else '+') :: padded 4 y.natAbs

def fractionText (nanos : Nat) : List Char :=
  if nanos = 0 then []
  else if nanos % 1000000 = 0 then '.' :: padded 3 (nanos / 1000000)
  else if nanos % 1000 = 0 then '.' :: padded 6 (nanos / 1000)
  else '.' :: padded 9 nanos

def print (t : Instant) : String :=
  let date := Date.ofDays (t.seconds / 86400)
  let s := (t.seconds % 86400).toNat
  let leap := t.nanos / 1000000000
  -- Only the last second of a minute can be a leap second, which is then written as 60.
  String.ofList (yearText date.year ++ '-' :: padded 2 date.month ++ '-' :: padded 2 date.day ++
    'T' :: padded 2 (s / 3600) ++ ':' :: padded 2 (s / 60 % 60) ++
    ':' :: padded 2 (s % 60 + leap) ++ fractionText (t.nanos % 1000000000) ++ ['Z'])

inductive Flaw where
  | tooShort
  | misplaced
  | outOfRange
  | impossible
  | trailing
deriving DecidableEq, Repr

def Flaw.message : Flaw → String
  | tooShort => "premature end of input"
  | misplaced => "input contains invalid characters"
  | outOfRange => "input is out of range"
  | impossible => "no possible date and time matching input"
  | trailing => "trailing input"

/-- The flaw of a text that does not go on as it should. -/
def flawAt : List Char → Flaw
  | [] => .tooShort
  | _ => .misplaced

/-- A number of at least one digit and at most `width`, which has to lie in a range. -/
def digits (width low high : Nat) (cs : List Char) : Except Flaw (Nat × List Char) :=
  let ds := (cs.takeWhile isDigit).take width
  let n := digitsValue ds
  if ds.isEmpty then .error (flawAt cs)
  else if low ≤ n ∧ n ≤ high then .ok (n, cs.drop ds.length)
  else .error .outOfRange

/-- A number of one or two digits, with the blanks before it. -/
def short (low high : Nat) (cs : List Char) : Except Flaw (Nat × List Char) :=
  digits 2 low high (Text.trimStart cs)

/-- The greatest number of a year, with any sign. -/
def maxYear : Nat := pow2 31 - 1

/-- A year: up to four digits, or a sign and any number of digits. -/
def year (cs : List Char) : Except Flaw (Int × List Char) :=
  match Text.trimStart cs with
  | '-' :: r => (digits r.length 0 (maxYear + 1) r).map fun (n, r) => (-n, r)
  | '+' :: r => (digits r.length 0 maxYear r).map fun (n, r) => (n, r)
  | r => (digits 4 0 maxYear r).map fun (n, r) => (n, r)

/-- A separator, with the blanks before it. -/
def separator (c : Char) (cs : List Char) : Except Flaw (List Char) :=
  match Text.trimStart cs with
  | d :: r => if d == c then .ok r else .error .misplaced
  | [] => .error .tooShort

/-- The nanoseconds of a fraction, if there is one; digits after the ninth do not count. -/
def fraction (cs : List Char) : Except Flaw (Nat × List Char) :=
  match cs with
  | '.' :: r =>
    let ds := r.takeWhile isDigit
    if ds.isEmpty then .error (flawAt r)
    else
      let ds9 := ds.take 9
      .ok (digitsValue ds9 * pow10 (9 - ds9.length), r.dropWhile isDigit)
  | _ => .ok (0, cs)

/-- The hours of an offset. A single character is too short, if it takes a single byte. -/
def twoDigits : List Char → Except Flaw (Nat × List Char)
  | a :: b :: r =>
    if isDigit a && isDigit b then .ok (digitsValue [a, b], r) else .error .misplaced
  | [c] => .error (if c.toNat < 128 then .tooShort else .misplaced)
  | [] => .error .tooShort

/-- A zone as its offset from universal time in seconds. -/
def zone (cs : List Char) : Except Flaw (Int × List Char) :=
  let cs := Text.trimStart cs
  if (cs.take 3).map Char.toUpper == ['U', 'T', 'C'] then .ok (0, cs.drop 3)
  else match cs with
    | 'Z' :: r => .ok (0, r)
    | 'z' :: r => .ok (0, r)
    | '+' :: r => offset r 1
    | '-' :: r => offset r (-1)
    | '−' :: r => offset r (-1)
    | cs => .error (flawAt cs)
where
  offset (cs : List Char) (sign : Int) : Except Flaw (Int × List Char) := do
    let (hours, r) ← twoDigits cs
    let (minutes, r) ← twoDigits (r.dropWhile fun c => c == ':' || Text.isBlank c)
    if minutes < 60 then .ok (sign * (hours * 3600 + minutes * 60 : Nat), r)
    else .error .outOfRange

/-- The letter, or blank, between a date and a time. -/
def dateEnd : List Char → Except Flaw (List Char)
  | c :: r => if c == 'T' || c == 't' || c == ' ' then .ok r else .error .misplaced
  | [] => .error .tooShort

/-- A value that has to be there, or else a flaw is found. -/
def orFlaw {α : Type} (flaw : Flaw) : Option α → Except Flaw α
  | some a => .ok a
  | none => .error flaw

/-- Reads an instant, or finds the first flaw. A second 60 is a leap second, at the end of any
minute. -/
def parse (text : String) : Except Flaw Instant := do
  let (year, r) ← year text.toList
  let r ← separator '-' r
  let (month, r) ← short 1 12 r
  let r ← separator '-' r
  let (day, r) ← short 1 31 r
  let r ← dateEnd r
  let (hour, r) ← short 0 23 r
  let r ← separator ':' r
  let (minute, r) ← short 0 59 r
  let r ← separator ':' r
  let (second, r) ← short 0 60 r
  let (nanos, r) ← fraction r
  let (offset, r) ← zone r
  let date : Date := ⟨year, month, day⟩
  if !(Text.trimStart r).isEmpty then .error .trailing
  else if decide date.IsValid && offset.natAbs < 86400 then
    let secondOfDay := hour * 3600 + minute * 60 + min second 59
    -- The time as written has to be representable, and so does the time it stands for.
    let written ← orFlaw .outOfRange <| Instant.of? (date.toDays * 86400 + secondOfDay)
      (if second = 60 then nanos + 1000000000 else nanos)
    orFlaw .impossible (Instant.of? (written.seconds - offset) written.nanos)
  else .error .outOfRange

def read? (text : String) : Option Instant := (parse text).toOption

/-- The last full second, of which a leap second is one too. -/
def wholeSecond (t : Instant) : Instant :=
  ⟨t.seconds, t.nanos / 1000000000 * 1000000000, by
    have := t.inRange
    simp only [Instant.InRange] at this ⊢
    omega⟩

end PreviewControl.Time
