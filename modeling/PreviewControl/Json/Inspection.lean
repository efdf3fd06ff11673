import PreviewControl.Json.Fault
import PreviewControl.Json.Token

/-!
# Inspections of JSON texts

Inspections of JSON texts. An inspection goes over the bytes of a text in the order in which they
stand, and stops at the first fault. What it looks for next depends on the form that a value should
have there, so that a value of another form is a fault before anything behind it is.
-/
namespace PreviewControl.Json

/-- How far a text has been inspected, and how many arrays and objects may still begin inside of
those that have not ended there. -/
structure Cursor where
  text : ByteArray
  index : Nat := 0
  room : Nat := maxDepth

namespace Cursor

def left (c : Cursor) : Nat := c.text.size - c.index

def byte? (c : Cursor) : Option UInt8 := c.text[c.index]?

/-- The place of the byte with the given number. -/
def placeOf (c : Cursor) (index : Nat) : Place :=
  (c.text.extract 0 index).foldl (fun p b => if b == 10 then ⟨p.line + 1, 0⟩ else
    ⟨p.line, p.column + 1⟩) ⟨1, 0⟩

def here (c : Cursor) : Place := c.placeOf c.index

/-- The place behind the next byte, if there is one. -/
def behind (c : Cursor) : Place := c.placeOf (min (c.index + 1) c.text.size)

/-- The cursor behind the bytes from here on that meet a condition. -/
def skipWhile (p : UInt8 → Bool) : Nat → Cursor → Cursor
  | 0, c => c
  | fuel + 1, c =>
    match c.byte? with
    | some b => if p b then skipWhile p fuel { c with index := c.index + 1 } else c
    | none => c

end Cursor

/-- A step over a text, which may find a fault. -/
abbrev Inspection := EStateM Fault Cursor

namespace Inspection

variable {α : Type}

/-- A fault without a place. The value around it gives it one. -/
def fault (flaw : Flaw) : Inspection α := throw { flaw := flaw }

/-- A fault in what has been read. -/
def faultHere (flaw : Flaw) : Inspection α := do throw ⟨flaw, some (← get).here⟩

/-- A fault that the next byte shows. -/
def faultNext (flaw : Flaw) : Inspection α := do throw ⟨flaw, some (← get).behind⟩

/-- Gives a fault that has none the place that has been reached. -/
def placed (inside : Inspection α) : Inspection α := fun c =>
  match inside c with
  | .error ⟨flaw, none⟩ c => .error ⟨flaw, some c.here⟩ c
  | result => result

def next? : Inspection (Option UInt8) := do return (← get).byte?

def advance : Inspection Unit := modify fun c => { c with index := c.index + 1 }

def take? : Inspection (Option UInt8) := do
  let b ← next?
  if b.isSome then advance
  return b

/-- Takes the bytes from here on that meet a condition. -/
def takeWhile (p : UInt8 → Bool) : Inspection (List UInt8) := do
  let before ← get
  modify fun c => c.skipWhile p c.left
  return (before.text.extract before.index (← get).index).toList

def isBlank (b : UInt8) : Bool := b == 32 || b == 10 || b == 9 || b == 13

/-- The next byte that is not blank. -/
def afterBlanks? : Inspection (Option UInt8) := do
  modify fun c => c.skipWhile isBlank c.left
  next?

def beginning : Inspection UInt8 := do
  match ← afterBlanks? with
  | some b => return b
  | none => faultNext .endInValue

/-- The number of steps that are enough for a loop that takes a byte in each. -/
def steps : Inspection Nat := do return (← get).left + 1

def ascii (c : Char) : UInt8 := c.toUInt8

/-- Reads the rest of one of the three words that JSON has. -/
def word : List Char → Inspection Unit
  | [] => return
  | c :: cs => do
    match ← take? with
    | some b => if b == ascii c then word cs else faultHere .wordExpected
    | none => faultHere .endInValue

/-! ## Numbers -/

def isDigitByte (b : UInt8) : Bool := 48 ≤ b && b ≤ 57

def nextIsDigit : Inspection Bool := do return (← next?).any isDigitByte

def nextIs (c : Char) : Inspection Bool := do return (← next?) == some (ascii c)

def digits : Inspection (List Char) := do
  return (← takeWhile isDigitByte).map fun b => Char.ofNat b.toNat

/-- The digits before the point. Only a zero may begin with a zero. -/
def whole (atEnd : Flaw) : Inspection (List Char) := do
  match ← take? with
  | some b =>
    if b == ascii '0' then
      if ← nextIsDigit then faultNext .badNumber else return ['0']
    else if isDigitByte b then return Char.ofNat b.toNat :: (← digits)
    else faultHere .badNumber
  | none => faultHere atEnd

/-- The digits behind the point, if there is one. -/
def fraction (atEnd : Flaw) : Inspection (List Char) := do
  if ← nextIs '.' then
    advance
    let ds ← digits
    if ds.isEmpty then faultNext (if (← next?).isSome then .badNumber else atEnd) else return ds
  else return []

/-- The greatest power of ten that a number may have, as written. -/
def maxExponent : Nat := pow2 31 - 1

/-- The digits of an exponent. Where that matters, the digit that makes it too great is a fault. -/
def exponentDigits (limited : Bool) : Nat → List Char → Inspection (List Char)
  | 0, seen => return seen
  | fuel + 1, seen => do
    if ← nextIsDigit then
      let seen := seen ++ (← take?).toList.map fun b => Char.ofNat b.toNat
      if limited && maxExponent < digitsValue seen then faultHere .numberTooGreat
      else exponentDigits limited fuel seen
    else return seen

/-- The exponent, if there is one. One that is too great does not matter if the number is zero, or
if it is negative. -/
def exponent (atEnd : Flaw) (isZero : Bool) : Inspection (Option Int) := do
  if (← nextIs 'e') || (← nextIs 'E') then
    advance
    let negative ← nextIs '-'
    if negative || (← nextIs '+') then advance
    match ← take? with
    | none => faultHere atEnd
    | some b =>
      if isDigitByte b then
        let ds ← exponentDigits (!isZero && !negative) (← steps) [Char.ofNat b.toNat]
        return some (if negative then -(digitsValue ds : Int) else digitsValue ds)
      else faultHere .badNumber
  else return none

def number : Inspection Json := do
  let negative ← nextIs '-'
  if negative then advance
  let whole ← whole .endInValue
  let fraction ← fraction .endInValue
  let exponent ← exponent .endInValue ((whole ++ fraction).all (· == '0'))
  match ofNumeral negative whole fraction exponent with
  | .garbled => faultHere .numberTooGreat
  | j => return j

def ignoredNumber : Inspection Unit := do
  if ← nextIs '-' then advance
  let _ ← whole .badNumber
  let _ ← fraction .badNumber
  let _ ← exponent .badNumber true

/-! ## Texts -/

def hexQuad : Inspection Nat := do
  let c ← get
  if 4 ≤ c.left then
    modify fun c => { c with index := c.index + 4 }
    let ds := (c.text.extract c.index (c.index + 4)).toList.map fun b => Char.ofNat b.toNat
    match Token.hexQuad? ds with
    | some (n, _) => return n
    | none => faultHere .badEscape
  else
    modify fun c => { c with index := c.text.size }
    faultHere .endInText

/-- Takes a byte that has to follow the first half of a surrogate pair. -/
def surrogateByte (c : Char) : Inspection Unit := do
  match ← take? with
  | some b => if b == ascii c then return else faultHere .surrogateEnd
  | none => faultHere .endInText

/-- Reads the code unit of an escape, and the one it makes a pair with. -/
def codePoint : Inspection Nat := do
  let n ← hexQuad
  if Token.isLowSurrogate n then faultHere .halfSurrogate
  else if Token.isHighSurrogate n then
    surrogateByte '\\'
    surrogateByte 'u'
    let m ← hexQuad
    if Token.isLowSurrogate m then return 0x10000 + (n - 0xD800) * 0x400 + (m - 0xDC00)
    else faultHere .halfSurrogate
  else return n

/-- Reads what follows the backslash of an escape. In a text that does not count, the halves of
surrogate pairs may stand alone. -/
def escape (counts : Bool) : Inspection (List UInt8) := do
  match ← take? with
  | none => faultHere .endInText
  | some b =>
    if b == ascii 'u' then
      let n ← if counts then codePoint else hexQuad
      return (String.singleton (Char.ofNat n)).toUTF8.toList
    else match Token.simpleEscape? (Char.ofNat b.toNat) with
      | some c => return [ascii c]
      | none => faultHere .badEscape

/-- The bytes of a text up to its closing quote, gathered in reverse. -/
def textBytes (counts : Bool) : Nat → List UInt8 → Inspection (List UInt8)
  | 0, _ => faultHere .endInText
  | fuel + 1, seen => do
    match ← next? with
    | none => faultHere .endInText
    | some b =>
      if b == ascii '"' then
        advance
        return seen.reverse
      else if b == ascii '\\' then
        advance
        textBytes counts fuel ((← escape counts).reverse ++ seen)
      else if b < 32 then
        -- A control is read before it is refused, but only in a text that counts.
        if counts then advance
        faultHere .controlInText
      else
        advance
        textBytes counts fuel (b :: seen)

def quoted : Inspection String := do
  advance
  let bytes ← textBytes true (← steps) []
  return (String.fromUTF8? ⟨bytes.toArray⟩).getD ""

def ignoredText : Inspection Unit := do
  advance
  let _ ← textBytes false (← steps) []

end Inspection
end PreviewControl.Json
