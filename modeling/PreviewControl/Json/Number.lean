import PreviewControl.Json
import PreviewControl.Numeric.Decimal

/-!
# Numbers in JSON texts

What the numerals of JSON stand for. A whole number of at most 64 bits is exact. Any other is a
double, made of the leading digits that fit into 64 bits and a power of ten: digits and power are
rounded to doubles, and so is their product or quotient. One that comes out infinite stands for no
value.
-/
namespace PreviewControl.Json

/-- A whole number of 64 bits, signed or unsigned; negative zero is none. -/
def fitsWord (n : Int) (negative : Bool) : Bool :=
  if negative then n ≠ 0 && FitsSigned 64 n else FitsUnsigned 64 n

/-- Takes digits in as long as the number with them fits into 64 bits. The result is that number and
the digits that are left. -/
def takeDigits (n : Nat) : List Char → Nat × List Char
  | [] => (n, [])
  | c :: cs =>
    let next := 10 * n + (c.toNat - 48)
    if next < pow2 64 then takeDigits next cs else (n, c :: cs)

def tenTo (n : Nat) : Binary64 := .ofNat (pow10 n)

/-- The exponent of the greatest power of ten that is a double. -/
def maxTenPower : Nat := 308

/-- A quotient by a power of ten. A power that is too great for a double is divided by in parts. -/
def divideByTens (x : Binary64) (n : Nat) : Binary64 :=
  if n ≤ maxTenPower then x / tenTo n
  -- Nothing more can come of a zero.
  else if x.isZero then x
  else divideByTens (x / tenTo maxTenPower) (n - maxTenPower)
termination_by n
decreasing_by simp only [maxTenPower] at *; omega

/-- The double for `n * 10 ^ e`, if it is not infinite. -/
def scaled? (n : Nat) (e : Int) : Option Binary64 :=
  let x := Binary64.ofNat n
  if e < 0 then some (divideByTens x (-e).toNat)
  else if e ≤ maxTenPower then
    let y := x * tenTo e.toNat
    if y.isFinite then some y else none
  else if n = 0 then some x
  else none

/-- What a numeral stands for: its sign, the digits before and behind its point, and its exponent,
if it has one. -/
def ofNumeral (negative : Bool) (whole fraction : List Char) (exponent : Option Int) : Json :=
  let value : Int := if negative then -(digitsValue whole : Int) else digitsValue whole
  if fraction.isEmpty && exponent.isNone && fitsWord value negative then int value
  else
    let (n, skipped) := takeDigits 0 whole
    let (n, dropped) := takeDigits n fraction
    -- A digit skipped before the point counts as a zero, one dropped behind it not at all.
    let shift : Int := skipped.length - (fraction.length - dropped.length : Nat)
    match scaled? n (shift + exponent.getD 0) with
    | some x => real (if negative then -x else x)
    | none => garbled

end PreviewControl.Json
