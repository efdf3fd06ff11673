import PreviewControl.Numeric.Decimal
import PreviewControl.Text.Blank

/-!
# Resource quantities

Resource quantities: a decimal numeral, alone or with one of fifteen suffixes. A numeral that can be
read alone is read alone, so that a trailing `E` is a suffix and an `E` before digits an exponent.
-/
namespace PreviewControl.Quantity

/-- The suffixes with their factors, in the order in which they are tried. -/
def suffixes : List (List Char × Binary64) :=
  [(['K', 'i'], .ofNat (pow2 10)), (['M', 'i'], .ofNat (pow2 20)), (['G', 'i'], .ofNat (pow2 30)),
   (['T', 'i'], .ofNat (pow2 40)), (['P', 'i'], .ofNat (pow2 50)), (['E', 'i'], .ofNat (pow2 60)),
   (['n'], .ofRatio false 1 (pow10 9)), (['u'], .ofRatio false 1 (pow10 6)),
   (['m'], .ofRatio false 1 (pow10 3)), (['k'], .ofNat (pow10 3)), (['M'], .ofNat (pow10 6)),
   (['G'], .ofNat (pow10 9)), (['T'], .ofNat (pow10 12)), (['P'], .ofNat (pow10 15)),
   (['E'], .ofNat (pow10 18))]

def beforeSuffix? (suffix cs : List Char) : Option (List Char) :=
  if suffix.isSuffixOf cs then some (cs.take (cs.length - suffix.length)) else none

/-- The first suffix that fits, as what stands before it and its factor. -/
def splitSuffix? (cs : List Char) : Option (List Char × Binary64) :=
  suffixes.findSome? fun (suffix, factor) => (beforeSuffix? suffix cs).map (·, factor)

def startsNumber (c : Char) : Bool := isDigit c || c == '.' || c == '+'

def value? (cs : List Char) : Option Binary64 :=
  -- This keeps out a minus and, unless a plus stands in front, the words that doubles go by.
  if !cs.head?.any startsNumber then none
  else match Binary64.read? cs with
    | some x => if x.isFinite then some x else none
    | none => do
      -- Words behind a plus are kept out by being no finite number.
      let (number, factor) ← splitSuffix? cs
      let x := (← Binary64.read? number) * factor
      if x.isFinite && x.isNonNegative then some x else none

/-- Reads a quantity in base units: cores, or bytes. -/
def read? (input : String) : Option Binary64 := value? (Text.trim input.toList)

def cores? (input : String) : Option Binary64 := read? input

/-- Reads an amount of memory in units of `2 ^ 30` bytes. -/
def gigabytes? (input : String) : Option Binary64 := (read? input).map (· / .ofNat (pow2 30))

/-- Prints a number with at most three decimal places. A whole number is cut to 64 bits. -/
def writeNumber (x : Binary64) : List Char :=
  match x.toInt? with
  | some n => (toString (max (-(pow2 63 : Int)) (min n (pow2 63 - 1 : Nat)))).toList
  | none => ((x.toFixed 3).toList.reverse.dropWhile (· == '0') |>.dropWhile (· == '.')).reverse

def isExponent (cs : List Char) : Bool :=
  let (negative, ds) := takeSign cs
  !ds.isEmpty && ds.all isDigit && digitsValue ds ≤ (if negative then pow2 31 else pow2 31 - 1)

/-- Multiplies a quantity and keeps its suffix. A quantity with an exponent loses it. -/
def scale? (input : String) (factor : Nat) : Option String := do
  let cs := Text.trim input.toList
  let _ ← value? cs
  -- The number ends where a suffix or an exponent begins.
  let number := cs.takeWhile startsNumber
  let suffix := cs.dropWhile startsNumber
  let exponential := match suffix with
    | c :: r => (c == 'e' || c == 'E') && isExponent r
    | [] => false
  let times := Binary64.ofNat factor
  if exponential then return .ofList (writeNumber ((← Binary64.read? cs) * times))
  else return .ofList (writeNumber ((← Binary64.read? number) * times) ++ suffix)

end PreviewControl.Quantity
