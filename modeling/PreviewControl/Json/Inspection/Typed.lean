import PreviewControl.Json.Inspection.Value

/-!
# Inspections of typed values

Inspections of values of a given type. A value of another type is told by the name of the type that
is expected, and is read only as far as it takes to say what stands there instead.
-/
namespace PreviewControl.Json.Inspection

variable {α : Type}

/-- What begins at the next byte. Arrays and objects are not read. -/
def found : Inspection Found := do
  match ← next? with
  | none => faultNext .valueExpected
  | some b =>
    if b == ascii 'n' then
      advance
      word "ull".toList
      return .null
    else if b == ascii 't' then
      advance
      word "rue".toList
      return .boolean true
    else if b == ascii 'f' then
      advance
      word "alse".toList
      return .boolean false
    else if b == ascii '"' then return .text (← quoted)
    else if b == ascii '[' then return .items
    else if b == ascii '\x7b' then return .fields
    else if b == ascii '-' || isDigitByte b then
      match ← number with
      | .int n => return .integer n
      | .real x => return .real x
      | _ => faultHere .numberTooGreat
    else faultNext .valueExpected

/-- Refuses the value that begins at the next byte. -/
def unfit (expected : String) : Inspection α := do
  let what ← found
  faultHere (.kind what expected)

/-- Refuses a value where arrays and objects are entered before they are refused. -/
def unfitInside (expected : String) : Inspection Unit := placed do
  let b ← beginning
  if b == ascii '[' then nested (fault (.kind .items expected)) closeItems
  else if b == ascii '\x7b' then nested (fault (.kind .fields expected)) closeFields
  else unfit expected

def textOf (expected : String) : Inspection String := do
  if (← beginning) == ascii '"' then quoted else unfit expected

def text : Inspection Unit := do
  let _ ← textOf "a string"

def boolean : Inspection Unit := do
  let b ← beginning
  if b == ascii 't' then advance; word "rue".toList
  else if b == ascii 'f' then advance; word "alse".toList
  else unfit "a boolean"

def numeral (expected : String) : Inspection Found := do
  let b ← beginning
  if b == ascii '-' || isDigitByte b then found else unfit expected

/-- A whole number in a range, which has a name. -/
def integer (fits : Int → Bool) (expected : String) : Inspection Unit := do
  match ← numeral expected with
  | .integer n => if !fits n then faultHere (.value (.integer n) expected)
  | what => faultHere (.kind what expected)

def signed (bits : Nat) : Inspection Unit :=
  integer (fun n => decide (FitsSigned bits n)) ("i" ++ toString bits)

def unsigned (bits : Nat) : Inspection Unit :=
  integer (fun n => decide (FitsUnsigned bits n)) ("u" ++ toString bits)

def real : Inspection Unit := do
  let _ ← numeral "f64"

def instant : Inspection Unit := do
  match Time.parse (← textOf "an RFC 3339 formatted date and time string") with
  | .ok _ => return
  | .error flaw => faultHere (.notATime flaw)

/-- A value that may be null. -/
def orNull (value : Inspection Unit) : Inspection Unit := do
  if (← afterBlanks?) == some (ascii 'n') then
    advance
    word "ull".toList
  else value

def list (item : Inspection Unit) : Inspection Unit := placed do
  if (← beginning) == ascii '[' then array item else unfit "a sequence"

/-- An object whose fields are known by their names. -/
def fieldsOf (expected : String) (field : List String → String → Inspection Unit) :
    Inspection Unit := placed do
  if (← beginning) == ascii '\x7b' then object field else unfit expected

def map (value : Inspection Unit) : Inspection Unit :=
  fieldsOf "a map" fun _ _ => do colon; value

/-- An object that may not stand as an array. -/
def record (expected : String) (field : List String → String → Inspection Unit) :
    Inspection Unit := placed do
  if (← beginning) == ascii '\x7b' then object field else unfitInside expected

def once (seen : List String) (name : String) (value : Inspection Unit) : Inspection Unit := do
  if seen.contains name then fault (.repeatedField name)
  colon
  value

/-- An object of the given fields and any others, or an array of them in their order. -/
def structureOf (name : String) (fields : List (String × Inspection Unit)) : Inspection Unit :=
  placed do
    let b ← beginning
    if b == ascii '[' then nested (itemsInOrder (fields.map (·.2)) true) closeItems
    else if b == ascii '\x7b' then
      object fun seen key =>
        match fields.lookup key with
        | some value => once seen key value
        | none => do colon; ignored
    else unfit ("struct " ++ name)

/-- A word of a list, as a text, or as an object with this name and the value null. -/
def oneOf (words : List String) : Inspection Unit := do
  let choice : Inspection Unit := do
    let w ← textOf "variant identifier"
    if !words.contains w then faultHere (.word w words)
  match ← afterBlanks? with
  | none => faultNext .endInValue
  | some b =>
    if b == ascii '"' then choice
    else if b == ascii '\x7b' then
      nested (do
        choice
        colon
        if (← beginning) == ascii 'n' then
          advance
          word "ull".toList
        else unfit "unit") do
        match ← afterBlanks? with
        | none => faultHere .endInFields
        | some b => if b == ascii '\x7d' then advance else faultHere .valueExpected
    else faultNext .valueExpected

end PreviewControl.Json.Inspection
