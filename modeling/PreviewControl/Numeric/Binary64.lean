import PreviewControl.Numeric.Power

/-!
# Double-precision numbers

Double-precision numbers as exact data: a sign, a whole mantissa and a power of two. Every operation
computes the exact result in whole numbers and rounds it once, to the nearest double and at a tie to
the even mantissa, so its results can be computed and reasoned about without a floating-point unit.
-/
namespace PreviewControl

/-- A double: `finite n m e` stands for `m * 2 ^ e`, negated if `n`. The functions below build it
with `m < 2 ^ 53`, `-1074 ≤ e ≤ 971`, and `2 ^ 52 ≤ m` unless `e = -1074`. -/
inductive Binary64 where
  | nan (negative : Bool)
  | infinite (negative : Bool)
  | finite (negative : Bool) (mantissa : Nat) (exponent : Int)
deriving DecidableEq, Repr, Inhabited

namespace Binary64

/-- The whole number nearest to `n / d`; of two equally near ones the even one. -/
def nearestQuotient (n d : Nat) : Nat :=
  let q := n / d
  let r := n % d
  if 2 * r < d then q else if d < 2 * r then q + 1 else q + q % 2

/-- The quotient of `n / d` by `2 ^ e`, again as a numerator and a denominator. -/
def shiftRatio (n d : Nat) (e : Int) : Nat × Nat :=
  if 0 ≤ e then (n, d * pow2 e.toNat) else (n * pow2 (-e).toNat, d)

/-- The power of two of the last mantissa bit of the double nearest to `n / d`. -/
def lastBit (n d : Nat) : Int :=
  -- The quotient by this power has 53 or 54 bits; with 54 the power is one too small.
  let guess : Int := (n.log2 : Int) - d.log2 - 53
  let s := shiftRatio n d guess
  max (if pow2 53 ≤ s.1 / s.2 then guess + 1 else guess) (-1074)

/-- The double nearest to `n / d`, negated if `negative`. -/
def ofRatio (negative : Bool) (n d : Nat) : Binary64 :=
  if n = 0 then finite negative 0 (-1074)
  else
    let e := lastBit n d
    let s := shiftRatio n d e
    let m := nearestQuotient s.1 s.2
    -- Rounding up can make the mantissa a power of two, with one bit too many.
    if m < pow2 53 then (if 971 < e then infinite negative else finite negative m e)
    else if 970 < e then infinite negative
    else finite negative (pow2 52) (e + 1)

def ofNat (n : Nat) : Binary64 := ofRatio false n 1

def zero : Binary64 := finite false 0 (-1074)

def ofScaled (negative : Bool) (m : Nat) (e : Int) : Binary64 :=
  if 0 ≤ e then ofRatio negative (m * pow2 e.toNat) 1 else ofRatio negative m (pow2 (-e).toNat)

/-- A mantissa with its sign, moved to the exponent `e`, which is not above its own. -/
private def aligned (negative : Bool) (m : Nat) (own e : Int) : Int :=
  let n : Int := (m * pow2 (own - e).toNat : Nat)
  if negative then -n else n

/-- A sum. Opposite infinities have none, and an exact zero is positive unless both parts are
negative zeros. -/
def add : Binary64 → Binary64 → Binary64
  | nan s, _ => nan s
  | _, nan s => nan s
  | infinite s, infinite t => if s == t then infinite s else nan true
  | infinite s, finite .. => infinite s
  | finite .., infinite t => infinite t
  | finite s m e, finite t n f =>
    -- At the lower exponent both parts are whole, and so is their exact sum.
    let low := min e f
    let sum := aligned s m e low + aligned t n f low
    if sum = 0 then finite (s && t) 0 (-1074) else ofScaled (decide (sum < 0)) sum.natAbs low

/-- A product. Zero times infinity has none. -/
def mul : Binary64 → Binary64 → Binary64
  | nan s, _ => nan s
  | _, nan s => nan s
  | infinite s, infinite t => infinite (s != t)
  | infinite s, finite t n _ => if n = 0 then nan true else infinite (s != t)
  | finite s m _, infinite t => if m = 0 then nan true else infinite (s != t)
  | finite s m e, finite t n f => ofScaled (s != t) (m * n) (e + f)

/-- A quotient. Zero by zero and infinity by infinity have none. -/
def div : Binary64 → Binary64 → Binary64
  | nan s, _ => nan s
  | _, nan s => nan s
  | infinite _, infinite _ => nan true
  | infinite s, finite t _ _ => infinite (s != t)
  | finite s _ _, infinite t => finite (s != t) 0 (-1074)
  | finite s m e, finite t n f =>
    if n = 0 then (if m = 0 then nan true else infinite (s != t))
    else if f ≤ e then ofRatio (s != t) (m * pow2 (e - f).toNat) n
    else ofRatio (s != t) m (n * pow2 (f - e).toNat)

def neg : Binary64 → Binary64
  | nan s => nan !s
  | infinite s => infinite !s
  | finite s m e => finite (!s) m e

instance : Add Binary64 := ⟨add⟩
instance : Mul Binary64 := ⟨mul⟩
instance : Div Binary64 := ⟨div⟩
instance : Neg Binary64 := ⟨neg⟩

def isFinite : Binary64 → Bool
  | finite .. => true
  | _ => false

def isZero : Binary64 → Bool
  | finite _ m _ => m == 0
  | _ => false

/-- Zero or above; negative zero counts. -/
def isNonNegative : Binary64 → Bool
  | nan _ => false
  | infinite s => !s
  | finite s m _ => !s || m == 0

/-- The whole number that a finite double is equal to, if it is equal to one. -/
def toInt? : Binary64 → Option Int
  | finite s m e =>
    let sign (n : Nat) : Int := if s then -(n : Int) else n
    if 0 ≤ e then some (sign (m * pow2 e.toNat))
    else if m % pow2 (-e).toNat = 0 then some (sign (m / pow2 (-e).toNat))
    else none
  | _ => none

/-- The interchange form: one sign bit, eleven exponent bits, fifty-two fraction bits. -/
def toBits (x : Binary64) : Nat :=
  let signed (s : Bool) (n : Nat) : Nat := if s then pow2 63 + n else n
  match x with
  | nan s => signed s (2047 * pow2 52 + pow2 51)
  | infinite s => signed s (2047 * pow2 52)
  | finite s m e =>
    if m < pow2 52 then signed s m else signed s ((e + 1075).toNat * pow2 52 + (m - pow2 52))

/-- The interchange form as sixteen hexadecimal digits. -/
def toHex (x : Binary64) : String :=
  let ds := Nat.toDigits 16 x.toBits
  String.ofList (List.replicate (16 - ds.length) '0' ++ ds)

end Binary64
end PreviewControl
