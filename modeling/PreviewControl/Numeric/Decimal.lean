import PreviewControl.Numeric.Binary64

/-!
# Decimal numerals

Decimal numerals and doubles: reading a numeral as the nearest double, and printing a double with a
fixed number of decimal places.
-/
namespace PreviewControl

/-- A decimal digit is one of the ten ASCII digits. -/
def isDigit (c : Char) : Bool := '0' ≤ c && c ≤ '9'

/-- The number written by a list of digits, most significant first. -/
def digitsValue (ds : List Char) : Nat := ds.foldl (fun n c => 10 * n + (c.toNat - 48)) 0

/-- A sign in front of a text, if there is one: whether it is a minus, and the rest. -/
def takeSign : List Char → Bool × List Char
  | '-' :: r => (true, r)
  | '+' :: r => (false, r)
  | r => (false, r)

/-- A decimal numeral without its sign: `digits * 10 ^ exponent`. -/
structure Numeral where
  digits : Nat
  exponent : Int
deriving DecidableEq, Repr

namespace Numeral

/-- The number of an exponent part, which is the whole text: nothing, or a letter `e` of either
case, a sign if any, and at least one digit. -/
def exponentPart? : List Char → Option Int
  | [] => some 0
  | c :: r =>
    if c == 'e' || c == 'E' then
      let (negative, ds) := takeSign r
      if ds.isEmpty || !ds.all isDigit then none
      else some (if negative then -(digitsValue ds : Int) else digitsValue ds)
    else none

/-- Reads digits with at most one point among them or at either end, at least one digit, and an
exponent part if any. -/
def read? (cs : List Char) : Option Numeral :=
  let whole := cs.takeWhile isDigit
  let rest := cs.dropWhile isDigit
  let (fraction, tail) := match rest with
    | '.' :: r => (r.takeWhile isDigit, r.dropWhile isDigit)
    | r => ([], r)
  if whole.isEmpty && fraction.isEmpty then none
  else (exponentPart? tail).map fun e => ⟨digitsValue (whole ++ fraction), e - fraction.length⟩

/-- The double nearest to a numeral. Numerals far outside the range of doubles are decided by their
size alone: above `10 ^ 400` all are infinite, below `10 ^ -400` all are zero. -/
def toBinary64 (negative : Bool) (x : Numeral) : Binary64 :=
  if x.digits = 0 then .finite negative 0 (-1074)
  else if 400 < x.exponent then .infinite negative
  else if x.exponent + x.digits.log2 / 3 + 1 < -400 then .finite negative 0 (-1074)
  else if 0 ≤ x.exponent then .ofRatio negative (x.digits * pow10 x.exponent.toNat) 1
  else .ofRatio negative x.digits (pow10 (-x.exponent).toNat)

end Numeral

namespace Binary64

/-- Reads a signed numeral, or one of the words `inf`, `infinity`, `nan` in any case. -/
def read? (cs : List Char) : Option Binary64 :=
  let (negative, r) := takeSign cs
  match Numeral.read? r with
  | some x => some (x.toBinary64 negative)
  | none =>
    let word := String.ofList (r.map Char.toLower)
    if word == "inf" || word == "infinity" then some (infinite negative)
    else if word == "nan" then some (nan negative)
    else none

/-- A whole number with its last `places` digits behind a point. -/
def withPoint (places n : Nat) : List Char :=
  let ds := Nat.toDigits 10 n
  let ds := List.replicate (places + 1 - ds.length) '0' ++ ds
  let cut := ds.length - places
  if places = 0 then ds else ds.take cut ++ '.' :: ds.drop cut

/-- Prints with `places` decimal places, correctly rounded from the exact value; at a tie the last
digit is even. A value that rounds to zero keeps its sign. -/
def toFixed (places : Nat) : Binary64 → String
  | nan _ => "NaN"
  | infinite s => if s then "-inf" else "inf"
  | finite s m e =>
    let n := m * pow10 places
    -- The value in units of the last place.
    let n := if 0 ≤ e then n * pow2 e.toNat else nearestQuotient n (pow2 (-e).toNat)
    String.ofList ((if s then ['-'] else []) ++ withPoint places n)

end Binary64
end PreviewControl
