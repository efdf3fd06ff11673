import PreviewControl.Json
import PreviewControl.Numeric.Shortest

/-!
# Writing JSON

The compact written form of a JSON value: no blanks, and the least escaping that the format allows.
What JSON cannot express is written as null. `canonical` puts the fields of every object in the
order of their names.
-/
namespace PreviewControl.Json

private def hexDigit (n : Nat) : Char := Char.ofNat (if n < 10 then 48 + n else 87 + n)

def escapeChar (c : Char) : List Char :=
  if c == '"' then ['\\', '"']
  else if c == '\\' then ['\\', '\\']
  else if c == '\n' then ['\\', 'n']
  else if c == '\r' then ['\\', 'r']
  else if c == '\t' then ['\\', 't']
  else if c == '\x08' then ['\\', 'b']
  else if c == '\x0c' then ['\\', 'f']
  else if c.toNat < 32 then
    ['\\', 'u', '0', '0', hexDigit (c.toNat / 16), hexDigit (c.toNat % 16)]
  else [c]

def writeText (s : String) : String := String.ofList ('"' :: s.toList.flatMap escapeChar ++ ['"'])

mutual

/-- The compact written form, with the fields of an object in the order they are stored. -/
def compact : Json → String
  | null => "null"
  | bool b => if b then "true" else "false"
  | int n => toString n
  | real x => if x.isFinite then x.toText else "null"
  | str s => writeText s
  | arr xs => "[" ++ String.intercalate "," (compactItems xs) ++ "]"
  | obj fs => "\x7b" ++ String.intercalate "," (compactFields fs) ++ "\x7d"
  | garbled => "null"

def compactItems : List Json → List String
  | [] => []
  | x :: xs => x.compact :: compactItems xs

def compactFields : List (String × Json) → List String
  | [] => []
  | (k, v) :: fs => (writeText k ++ ":" ++ v.compact) :: compactFields fs

end

mutual

/-- The same value with the fields of every object in the order of their names. -/
def canonical : Json → Json
  | arr xs => arr (canonicalItems xs)
  | obj fs => obj (canonicalFields fs)
  | j => j

def canonicalItems : List Json → List Json
  | [] => []
  | x :: xs => x.canonical :: canonicalItems xs

def canonicalFields : List (String × Json) → List (String × Json)
  | [] => []
  | (k, v) :: fs => insertField k v.canonical (canonicalFields fs)

end

end PreviewControl.Json
