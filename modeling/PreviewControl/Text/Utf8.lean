/-!
# UTF-8

Where bytes fail to be UTF-8: the first place at which no character is spelled, and how many bytes
there could have begun one.
-/
namespace PreviewControl.Utf8

structure Fault where
  /-- The number of bytes in front that spell characters. -/
  index : Nat
  /-- The number of bytes that begin no character, or none if the bytes end inside of one. -/
  length : Option Nat
deriving DecidableEq, Repr

def Fault.message (f : Fault) : String :=
  match f.length with
  | some n =>
    "invalid utf-8 sequence of " ++ toString n ++ " bytes from index " ++ toString f.index
  | none => "incomplete utf-8 byte sequence from index " ++ toString f.index

/-- The bytes that may follow the first byte of a character, one range for each; none if it begins
no character. Spellings that are too long and surrogates show in the second byte. -/
def tailRanges (b : UInt8) : Option (List (UInt8 × UInt8)) :=
  let any : UInt8 × UInt8 := (0x80, 0xBF)
  if b < 0x80 then some []
  else if b < 0xC2 then none
  else if b < 0xE0 then some [any]
  else if b < 0xF0 then
    some [(if b == 0xE0 then 0xA0 else 0x80, if b == 0xED then 0x9F else 0xBF), any]
  else if b < 0xF5 then
    some [(if b == 0xF0 then 0x90 else 0x80, if b == 0xF4 then 0x8F else 0xBF), any, any]
  else none

/-- The number of bytes in front that lie in the given ranges. -/
def fitting : List (UInt8 × UInt8) → List UInt8 → Nat
  | (low, high) :: ranges, b :: bytes =>
    if low ≤ b && b ≤ high then fitting ranges bytes + 1 else 0
  | _, _ => 0

/-- The first fault of bytes, of which so many have been read and `skip` belong to a character. -/
def faultFrom (index skip : Nat) : List UInt8 → Option Fault
  | [] => none
  | b :: bytes =>
    match skip with
    | skip + 1 => faultFrom (index + 1) skip bytes
    | 0 =>
      match tailRanges b with
      | none => some ⟨index, some 1⟩
      | some ranges =>
        let n := fitting ranges bytes
        if n = ranges.length then faultFrom (index + 1) n bytes
        else some ⟨index, if n = bytes.length then none else some (n + 1)⟩

/-- Where bytes stop being UTF-8, if they do. -/
def fault? (bytes : List UInt8) : Option Fault := faultFrom 0 0 bytes

end PreviewControl.Utf8
