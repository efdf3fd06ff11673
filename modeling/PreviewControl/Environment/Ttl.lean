import PreviewControl.Failure
import PreviewControl.Numeric.Decimal
import PreviewControl.Text.Blank

/-!
# Times to live

Times to live: a sequence of numbers with units, such as `1h30m`, that stands for a whole number of
seconds. Zero is no time to live, and neither is one that a signed count of milliseconds cannot
hold.
-/
namespace PreviewControl.Ttl

/-- Why a text is no time to live. -/
inductive Fault where
  | empty
  | unknownUnit (unit : Char)
  | noNumber
  | outOfRange
  | noUnit
  | notPositive
deriving DecidableEq, Repr

def Fault.message (input : String) : Fault → String
  | empty => "TTL is empty"
  | unknownUnit c => "TTL '" ++ input ++ "' has unknown unit '" ++ String.singleton c ++ "'"
  | noNumber => "TTL '" ++ input ++ "' has a unit without a number"
  | outOfRange => "TTL '" ++ input ++ "' is out of range"
  | noUnit => "TTL '" ++ input ++ "' is missing a unit"
  | notPositive => "TTL '" ++ input ++ "' must be positive"

/-- The largest number and the largest sum that are counted with. -/
def counter : Nat := pow2 63 - 1

/-- The longest time to live in seconds. -/
def longest : Nat := counter / 1000

/-- The time to live of a spec that states none it could be read from. -/
def fallback : Nat := 4 * 3600

def unitSeconds? : Char → Option Nat
  | 's' => some 1
  | 'm' => some 60
  | 'h' => some 3600
  | 'd' => some 86400
  | _ => none

def within? (n : Nat) : Except Fault Nat := if n ≤ counter then .ok n else .error .outOfRange

/-- Reads the rest of a text after `total` seconds and the digits of `number`, if there are any. -/
def scan (total : Nat) (number : Option Nat) : List Char → Except Fault Nat
  | [] =>
    if number.isSome then .error .noUnit
    else if total = 0 then .error .notPositive
    else if total ≤ longest then .ok total
    else .error .outOfRange
  | c :: cs =>
    -- A number is only held against the counter once its unit is known.
    if isDigit c then scan total (some (10 * number.getD 0 + (c.toNat - 48))) cs
    else match unitSeconds? c, number with
      | none, _ => .error (.unknownUnit c)
      | some _, none => .error .noNumber
      | some unit, some n => do
        let n ← within? n
        let part ← within? (n * unit)
        let total ← within? (total + part)
        scan total none cs

/-- Reads the characters of a time to live, with blanks around them or without. -/
def read (cs : List Char) : Except Fault Nat :=
  let cs := Text.trim cs
  if cs.isEmpty then .error .empty else scan 0 none cs

def parse (input : String) : Except Failure Nat :=
  match read input.toList with
  | .ok seconds => .ok seconds
  | .error fault => .error (.invalid Failure.noContext none (fault.message input))

/-- The time to live of a spec: the stated one if it can be read. -/
def orFallback (input : String) : Nat :=
  match read input.toList with
  | .ok seconds => seconds
  | .error _ => fallback

end PreviewControl.Ttl
