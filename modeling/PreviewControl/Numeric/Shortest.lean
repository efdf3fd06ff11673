import PreviewControl.Numeric.Decimal

/-!
# Shortest decimals

The shortest decimal text of a double: the fewest digits that are read back as the same double. A
point stands among the digits or a few zeros away from them; numbers farther off have an exponent.
-/
namespace PreviewControl.Binary64

/-- A power of two times a whole number, as a numerator and a denominator. -/
def ratio (m : Nat) (e : Int) : Nat × Nat :=
  if 0 ≤ e then (m * pow2 e.toNat, 1) else (m, pow2 (-e).toNat)

/-- The power of ten of the first digit of `n / d`. -/
def firstPlace (n d : Nat) : Int :=
  -- Even the least double has all of its digits before the point once it is scaled by this power.
  (Nat.toDigits 10 (n * pow10 400 / d)).length - 401

/-- The two multiples of `10 ^ e` that are next to `n / d`, the nearer one first. -/
def neighbours (n d : Nat) (e : Int) : List Nat :=
  let (n, d) := if 0 ≤ e then (n, d * pow10 e.toNat) else (n * pow10 (-e).toNat, d)
  let near := nearestQuotient n d
  [near, if near = n / d then near + 1 else n / d]

/-- The shortest numeral that is read as `m * 2 ^ e`, a double that is not zero. Seventeen digits
are enough for any of them. -/
def shortest (m : Nat) (e : Int) : Numeral :=
  let (n, d) := ratio m e
  let places := (List.range 17).map fun (k : Nat) => firstPlace n d - k
  (places.findSome? fun place =>
    ((neighbours n d place).map fun c => Numeral.mk c place).find? fun x =>
      x.toBinary64 false == finite false m e).getD ⟨0, 0⟩

/-- The number of digits before the point up to which there is no exponent. -/
def maxPositional : Int := 16

/-- The number of zeros behind the point from which on there is an exponent. -/
def maxLeadingZeros : Int := 5

/-- Lays out digits that stand for `ds * 10 ^ e`. -/
def layout (ds : List Char) (e : Int) : List Char :=
  let zeros (n : Int) : List Char := List.replicate n.toNat '0'
  let point : Int := ds.length + e
  if 0 ≤ e ∧ point ≤ maxPositional then ds ++ zeros e ++ ['.', '0']
  else if 0 < point ∧ point ≤ maxPositional then
    ds.take point.toNat ++ '.' :: ds.drop point.toNat
  else if -maxLeadingZeros < point ∧ point ≤ 0 then '0' :: '.' :: zeros (-point) ++ ds
  else
    let rest := ds.drop 1
    ds.take 1 ++ (if rest.isEmpty then [] else '.' :: rest) ++
      'e' :: (toString (point - 1)).toList

def toText : Binary64 → String
  | nan _ => "NaN"
  | infinite s => if s then "-inf" else "inf"
  | finite s m e =>
    let sign := if s then ['-'] else []
    if m = 0 then String.ofList (sign ++ ['0', '.', '0'])
    else
      let x := shortest m e
      -- Rounding up can leave a zero at the end.
      let ds := ((Nat.toDigits 10 x.digits).reverse.dropWhile (· == '0')).reverse
      let dropped : Nat := (Nat.toDigits 10 x.digits).length - ds.length
      String.ofList (sign ++ layout ds (x.exponent + dropped))

end PreviewControl.Binary64
