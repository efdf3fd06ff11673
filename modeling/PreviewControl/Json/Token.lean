import PreviewControl.Json.Number

/-!
# Tokens of JSON texts

The tokens of JSON texts: brackets, commas and colons, texts, and the other values without parts. A
text is read even if it holds half of a surrogate pair, but then it stands for nothing.
-/
namespace PreviewControl.Json

/-- A token. A text that stands for nothing is `none`. -/
inductive Token where
  | text (s : Option String)
  | value (j : Json)
  | openItems
  | closeItems
  | openFields
  | closeFields
  | comma
  | colon

namespace Token

def skipBlanks (cs : List Char) : List Char :=
  cs.dropWhile fun c => c == ' ' || c == '\n' || c == '\t' || c == '\r'

def hexValue? (c : Char) : Option Nat :=
  if '0' ≤ c && c ≤ '9' then some (c.toNat - 48)
  else if 'a' ≤ c && c ≤ 'f' then some (c.toNat - 87)
  else if 'A' ≤ c && c ≤ 'F' then some (c.toNat - 55)
  else none

def hexQuad? : List Char → Option (Nat × List Char)
  | a :: b :: c :: d :: r => do
    let a ← hexValue? a
    let b ← hexValue? b
    let c ← hexValue? c
    let d ← hexValue? d
    some (((a * 16 + b) * 16 + c) * 16 + d, r)
  | _ => none

def isHighSurrogate (n : Nat) : Bool := 0xD800 ≤ n && n ≤ 0xDBFF

def isLowSurrogate (n : Nat) : Bool := 0xDC00 ≤ n && n ≤ 0xDFFF

/-- The escape of a low surrogate at the front of a text. -/
def lowSurrogate? : List Char → Option (Nat × List Char)
  | '\\' :: 'u' :: r => (hexQuad? r).filter fun (n, _) => isLowSurrogate n
  | _ => none

/-- The character of a code unit escape. A high surrogate takes the low one that follows it; either
of them alone is no character. -/
def unicodeEscape? (cs : List Char) : Option (Option Char × List Char) := do
  let (n, r) ← hexQuad? cs
  if isHighSurrogate n then
    match lowSurrogate? r with
    | some (m, rest) =>
      some (some (Char.ofNat (0x10000 + (n - 0xD800) * 0x400 + (m - 0xDC00))), rest)
    | none => some (none, r)
  else if isLowSurrogate n then some (none, r)
  else some (some (Char.ofNat n), r)

def simpleEscape? (c : Char) : Option Char :=
  match c with
  | '"' => some '"'
  | '\\' => some '\\'
  | '/' => some '/'
  | 'b' => some '\x08'
  | 'f' => some '\x0c'
  | 'n' => some '\n'
  | 'r' => some '\r'
  | 't' => some '\t'
  | _ => none

/-- The characters of a text up to its closing quote, gathered in reverse. A text that is not sound
is read to its end all the same. -/
def readChars : Nat → Bool → List Char → List Char → Option (Token × List Char)
  | 0, _, _, _ => none
  | fuel + 1, sound, seen, cs =>
    match cs with
    | [] => none
    | '"' :: r => some (text (if sound then some (String.ofList seen.reverse) else none), r)
    | '\\' :: 'u' :: r =>
      match unicodeEscape? r with
      | some (some c, rest) => readChars fuel sound (c :: seen) rest
      | some (none, rest) => readChars fuel false seen rest
      | none => none
    | '\\' :: c :: r =>
      match simpleEscape? c with
      | some c => readChars fuel sound (c :: seen) r
      | none => none
    | c :: r => if c.toNat < 32 then none else readChars fuel sound (c :: seen) r

/-- The digits behind a point, if a point is there; then there has to be one digit at least. -/
def fraction? : List Char → Option (List Char × List Char)
  | '.' :: r => if (r.takeWhile isDigit).isEmpty then none else some (r.span isDigit)
  | r => some ([], r)

/-- The exponent, if the letter for it is there; then there has to be one digit at least. -/
def exponent? : List Char → Option (Option Int × List Char)
  | c :: r =>
    if c == 'e' || c == 'E' then
      let (negative, r) := takeSign r
      let (ds, r) := r.span isDigit
      if ds.isEmpty then none
      else some (some (if negative then -(digitsValue ds : Int) else digitsValue ds), r)
    else some (none, c :: r)
  | [] => some (none, [])

def readNumber (cs : List Char) : Option (Token × List Char) := do
  let (negative, body) := match cs with
    | '-' :: r => (true, r)
    | r => (false, r)
  let (whole, r) := body.span isDigit
  if whole.isEmpty || (whole.length > 1 && whole.head? == some '0') then none
  let (fraction, r) ← fraction? r
  let (exponent, r) ← exponent? r
  some (value (ofNumeral negative whole fraction exponent), r)

def readWord (word : List Char) (j : Json) (cs : List Char) : Option (Token × List Char) :=
  if word.isPrefixOf cs then some (value j, cs.drop word.length) else none

/-- The token at the front of a text, which is not blank. A text in quotes may take `fuel`
characters. -/
def read? (fuel : Nat) : List Char → Option (Token × List Char)
  | '"' :: r => readChars fuel true [] r
  | '[' :: r => some (openItems, r)
  | ']' :: r => some (closeItems, r)
  | '\x7b' :: r => some (openFields, r)
  | '\x7d' :: r => some (closeFields, r)
  | ',' :: r => some (comma, r)
  | ':' :: r => some (colon, r)
  | 'n' :: r => readWord "ull".toList .null r
  | 't' :: r => readWord "rue".toList (.bool true) r
  | 'f' :: r => readWord "alse".toList (.bool false) r
  | r => readNumber r

/-- The tokens of a text up to its end, gathered in reverse. -/
def readAll : Nat → List Token → List Char → Option (List Token)
  | 0, _, _ => none
  | fuel + 1, seen, cs =>
    match skipBlanks cs with
    | [] => some seen.reverse
    | cs =>
      match read? (fuel + 1) cs with
      | some (t, r) => readAll fuel (t :: seen) r
      | none => none

def ofText? (s : String) : Option (List Token) :=
  -- Every token takes a character at least, and the end takes one more step.
  readAll (s.toList.length + 1) [] s.toList

end Token
end PreviewControl.Json
