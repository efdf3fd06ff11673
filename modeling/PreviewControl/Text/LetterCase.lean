import PreviewControl.Text.LetterCase.Table

/-!
# Lower case

Lower case of a text. Every character maps by itself, except that a capital sigma at the end of a
word becomes the final sigma, and that a dotted capital I leaves its dot behind as a mark.
-/
namespace PreviewControl.Text.LetterCase

/-- Lower case of one character outside the two special cases. -/
def lowerChar (c : Char) : Char :=
  let n := c.toNat
  if n < 0x80 then c.toLower
  else match lowerRuns.find? fun r => r.1 ≤ n && n ≤ r.2.1 && (n - r.1) % r.2.2.1 == 0 with
    | some r => Char.ofNat (n + r.2.2.2).toNat
    | none => c

def isCased (c : Char) : Bool :=
  casedRanges.any fun r => r.1 ≤ c.toNat && c.toNat ≤ r.2

def isIgnorable (c : Char) : Bool :=
  ignorableRanges.any fun r => r.1 ≤ c.toNat && c.toNat ≤ r.2

/-- Whether the first character that is not ignorable has a case. -/
def startsCased (cs : List Char) : Bool := (cs.dropWhile isIgnorable).head?.any isCased

/-- Lower case of `cs` after the characters `before`, the nearest of them first. -/
def lowerAfter (before : List Char) : List Char → List Char
  | [] => []
  | c :: cs =>
    -- A word ends where a cased character stands before and none stands behind.
    (if c == 'Σ' then [if startsCased before && !startsCased cs then 'ς' else 'σ']
     else if c == 'İ' then ['i', '\u0307']
     else [lowerChar c]) ++ lowerAfter (c :: before) cs

def lower (s : String) : String := String.ofList (lowerAfter [] s.toList)

end PreviewControl.Text.LetterCase
