import PreviewControl.Numeric.Shortest
import PreviewControl.Text.Quoted
import PreviewControl.Time.Rfc3339

/-!
# Faults of JSON texts

What can be wrong with a JSON text, and where: it is no JSON, or the value at some place is not of
the form that is expected there.
-/
namespace PreviewControl.Json

/-- A place in a text: its line, counted from 1, and the number of bytes in front of it there. -/
structure Place where
  line : Nat
  column : Nat
deriving DecidableEq, Repr

inductive Found where
  | null
  | boolean (b : Bool)
  | integer (n : Int)
  | real (x : Binary64)
  | text (s : String)
  | items
  | fields
deriving DecidableEq, Repr

def Found.message : Found → String
  | null => "null"
  | boolean b => "boolean " ++ (if b then "`true`" else "`false`")
  | integer n => "integer `" ++ toString n ++ "`"
  | real x => "floating point `" ++ x.toText ++ "`"
  | text s => "string " ++ Text.quote s
  | items => "sequence"
  | fields => "map"

/-- What can be wrong. The first ones are no JSON, the others not of the expected form. -/
inductive Flaw where
  | endInItems
  | endInFields
  | endInText
  | endInValue
  | colonExpected
  | itemEndExpected
  | fieldEndExpected
  | wordExpected
  | valueExpected
  | nameExpected
  | badEscape
  | badNumber
  | numberTooGreat
  | controlInText
  | halfSurrogate
  | surrogateEnd
  | trailingComma
  | trailingText
  | tooDeep
  | kind (found : Found) (expected : String)
  /-- A value of the right kind that is not among those that may stand here. -/
  | value (found : Found) (expected : String)
  /-- A word that is not in the list of those that may stand here. -/
  | word (found : String) (expected : List String)
  | repeatedField (name : String)
  | notATime (flaw : Time.Flaw)
  | notBase64
deriving DecidableEq, Repr

def alternatives (words : List String) : String :=
  let marked := words.map fun w => "`" ++ w ++ "`"
  match marked with
  | [a, b] => a ++ " or " ++ b
  | _ => (if marked.length > 1 then "one of " else "") ++ String.intercalate ", " marked

def Flaw.message : Flaw → String
  | endInItems => "EOF while parsing a list"
  | endInFields => "EOF while parsing an object"
  | endInText => "EOF while parsing a string"
  | endInValue => "EOF while parsing a value"
  | colonExpected => "expected `:`"
  | itemEndExpected => "expected `,` or `]`"
  | fieldEndExpected => "expected `,` or `\x7d`"
  | wordExpected => "expected ident"
  | valueExpected => "expected value"
  | nameExpected => "key must be a string"
  | badEscape => "invalid escape"
  | badNumber => "invalid number"
  | numberTooGreat => "number out of range"
  | controlInText => "control character (\\u0000-\\u001F) found while parsing a string"
  | halfSurrogate => "lone leading surrogate in hex escape"
  | surrogateEnd => "unexpected end of hex escape"
  | trailingComma => "trailing comma"
  | trailingText => "trailing characters"
  | tooDeep => "recursion limit exceeded"
  | kind found expected => "invalid type: " ++ found.message ++ ", expected " ++ expected
  | value found expected => "invalid value: " ++ found.message ++ ", expected " ++ expected
  | word found expected =>
    "unknown variant `" ++ found ++ "`, expected " ++ alternatives expected
  | repeatedField name => "duplicate field `" ++ name ++ "`"
  | notATime flaw => flaw.message
  | notBase64 => "Invalid padding"

structure Fault where
  flaw : Flaw
  place : Option Place := none
deriving DecidableEq, Repr

def Fault.message (f : Fault) : String :=
  f.flaw.message ++ match f.place with
    | some p => " at line " ++ toString p.line ++ " column " ++ toString p.column
    | none => ""

end PreviewControl.Json
