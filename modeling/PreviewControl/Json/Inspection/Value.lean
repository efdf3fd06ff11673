import PreviewControl.Json.Inspection

/-!
# Inspections of values

Inspections of JSON values: of arrays and objects with what is inside of them, of values of any
form, and of values that do not count, in which less can be wrong.
-/
namespace PreviewControl.Json.Inspection

/-! ## Arrays and objects -/

/-- Inspects what is inside of an array or object and then what closes it. A fault inside counts
more, and yet the place of one without a place is behind what closes it. -/
def enclosed (inside close : Inspection Unit) : Inspection Unit := fun c =>
  match inside c with
  | .ok _ c => close c
  | .error f c =>
    match close c with
    | .ok _ c => .error f c
    | .error _ c => .error f c

/-- Inspects an array or object from its opening bracket on, if it is not inside too many others. -/
def nested (inside close : Inspection Unit) : Inspection Unit := do
  if (← get).room = 0 then faultNext .tooDeep
  modify fun c => { c with room := c.room - 1 }
  advance
  enclosed inside do
    modify fun c => { c with room := c.room + 1 }
    close

def closeItems : Inspection Unit := do
  match ← afterBlanks? with
  | none => faultNext .endInItems
  | some b =>
    if b == ascii ']' then advance
    else if b == ascii ',' then
      advance
      faultNext (if (← afterBlanks?) == some (ascii ']') then .trailingComma else .trailingText)
    else faultNext .trailingText

def closeFields : Inspection Unit := do
  match ← afterBlanks? with
  | none => faultNext .endInFields
  | some b =>
    if b == ascii '\x7d' then advance
    else faultNext (if b == ascii ',' then .trailingComma else .trailingText)

/-- Whether one more item follows; a comma has to be in front of all but the first. -/
def anotherItem (first : Bool) : Inspection Bool := do
  match ← afterBlanks? with
  | none => faultNext .endInItems
  | some b =>
    if b == ascii ']' then return false
    else if first then return true
    else if b == ascii ',' then
      advance
      match ← afterBlanks? with
      | none => faultNext .endInValue
      | some b => if b == ascii ']' then faultNext .trailingComma else return true
    else faultNext .itemEndExpected

/-- Inspects the items of an array, all in the same way. -/
def itemsFrom (item : Inspection Unit) : Nat → Bool → Inspection Unit
  | 0, _ => return
  | fuel + 1, first => do
    if ← anotherItem first then
      item
      itemsFrom item fuel false

/-- Inspects the items of an array one after another, each in its own way. -/
def itemsInOrder : List (Inspection Unit) → Bool → Inspection Unit
  | [], _ => return
  | item :: items, first => do
    if ← anotherItem first then
      item
      itemsInOrder items false

/-- A name has to follow; the byte is the one at which it should begin. -/
def nameAt (b : UInt8) : Inspection (Option String) := do
  if b == ascii '"' then return some (← quoted)
  else faultNext (if b == ascii '\x7d' then .trailingComma else .nameExpected)

/-- The name of one more field, if one follows; a comma has to be in front of all but the first. -/
def anotherName (first : Bool) : Inspection (Option String) := do
  match ← afterBlanks? with
  | none => faultNext .endInFields
  | some b =>
    if b == ascii '\x7d' then return none
    else if first then nameAt b
    else if b == ascii ',' then
      advance
      nameAt (← beginning)
    else faultNext .fieldEndExpected

def colon : Inspection Unit := do
  match ← afterBlanks? with
  | none => faultNext .endInFields
  | some b => if b == ascii ':' then advance else faultNext .colonExpected

/-- Inspects the fields of an object from their colons on, each by its name and by the names that
came before it. -/
def fieldsFrom (field : List String → String → Inspection Unit) : Nat → List String →
    Inspection Unit
  | 0, _ => return
  | fuel + 1, seen => do
    if let some name ← anotherName seen.isEmpty then
      field seen name
      fieldsFrom field fuel (name :: seen)

def array (item : Inspection Unit) : Inspection Unit :=
  nested (do itemsFrom item (← steps) true) closeItems

/-- Inspects an object whose fields are known by their names, from its bracket on. -/
def object (field : List String → String → Inspection Unit) : Inspection Unit :=
  nested (do fieldsFrom field (← steps) []) closeFields

/-! ## Values of any form -/

/-- Inspects a value of any form that counts. There may be so many arrays and objects inside of one
another, and one more, which is a fault. -/
def anyWithin : Nat → Inspection Unit
  | 0 => faultNext .tooDeep
  | depth + 1 => do
    let b ← beginning
    if b == ascii 'n' then advance; word "ull".toList
    else if b == ascii 't' then advance; word "rue".toList
    else if b == ascii 'f' then advance; word "alse".toList
    else if b == ascii '"' then let _ ← quoted
    else if b == ascii '-' || isDigitByte b then let _ ← number
    else if b == ascii '[' then array (anyWithin depth)
    else if b == ascii '\x7b' then object fun _ _ => do colon; anyWithin depth
    else faultNext .valueExpected

def any : Inspection Unit := do anyWithin ((← get).room + 1)

/-! ## Values that do not count -/

inductive Bracket where
  | square
  | curly

namespace Bracket

def byte : Bracket → UInt8
  | square => ascii ']'
  | curly => ascii '\x7d'

def endFlaw : Bracket → Flaw
  | square => .endInItems
  | curly => .endInFields

def commaFlaw : Bracket → Flaw
  | square => .itemEndExpected
  | curly => .fieldEndExpected

end Bracket

/-- Reads the name of a field that does not count, and its colon. An item has none. -/
def ignoredName : Bracket → Inspection Unit
  | .square => return
  | .curly => do
    match ← afterBlanks? with
    | none => faultNext .endInFields
    | some b =>
      if b == ascii '"' then
        ignoredText
        colon
      else faultNext .nameExpected

mutual

/-- Reads a value that does not count, inside of arrays and objects, the innermost first. -/
def ignoredValue : Nat → List Bracket → Inspection Unit
  | 0, _ => return
  | fuel + 1, brackets => do
    let b ← beginning
    if b == ascii '[' then
      advance
      ignoredRest fuel false (.square :: brackets)
    else if b == ascii '\x7b' then
      advance
      ignoredRest fuel false (.curly :: brackets)
    else
      if b == ascii 'n' then advance; word "ull".toList
      else if b == ascii 't' then advance; word "rue".toList
      else if b == ascii 'f' then advance; word "alse".toList
      else if b == ascii '"' then ignoredText
      else if b == ascii '-' || isDigitByte b then ignoredNumber
      else faultNext .valueExpected
      ignoredRest fuel true brackets

/-- Reads what follows a value that does not count, or an opening bracket. -/
def ignoredRest : Nat → Bool → List Bracket → Inspection Unit
  | 0, _, _ => return
  | _, _, [] => return
  | fuel + 1, behindValue, bracket :: brackets => do
    match ← afterBlanks? with
    | none => faultNext bracket.endFlaw
    | some b =>
      if b == bracket.byte then
        advance
        ignoredRest fuel true brackets
      else if behindValue && b != ascii ',' then faultNext bracket.commaFlaw
      else
        if behindValue then advance
        ignoredName bracket
        ignoredValue fuel (bracket :: brackets)

end

/-- Reads a value that does not count. Arrays and objects may be inside of any number of others
there. -/
def ignored : Inspection Unit := do
  -- A bracket takes two steps, and all else one.
  ignoredValue (2 * (← steps)) []

/-! ## Whole texts -/

/-- What is wrong with a text that should hold one value, of the form that an inspection looks for,
and nothing else but blanks. -/
def fault? (value : Inspection Unit) (text : String) : Option Fault :=
  let whole : Inspection Unit := do
    value
    if (← afterBlanks?).isSome then faultNext .trailingText
  match whole { text := text.toUTF8 } with
  | .ok _ _ => none
  | .error f _ => some f

end PreviewControl.Json.Inspection
