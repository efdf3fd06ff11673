import PreviewControl.Failure
import PreviewControl.Json.Printer

/-!
# Requests

Requests to an API server and its answers. The target of a request is written as one text, out of
which its path and its query are taken; a text with a character that no target may hold has neither.
-/
namespace PreviewControl.Http

inductive Method where
  | get
  | post
  | patch
  | delete
deriving DecidableEq, Repr

def Method.name : Method → String
  | get => "GET"
  | post => "POST"
  | patch => "PATCH"
  | delete => "DELETE"

structure Target where
  path : String
  query : List (String × String) := []
deriving DecidableEq, Repr

namespace Target

/-- A character that a path may hold. Quotes and braces may stand in it as they are, and so may all
that is not ASCII. -/
def isPathChar (c : Char) : Bool :=
  let n := c.toNat
  n == 0x21 || n == 0x22 || (0x24 ≤ n && n ≤ 0x3B) || n == 0x3D || (0x40 ≤ n && n ≤ 0x5F) ||
    (0x61 ≤ n && n ≤ 0x7E) || 0x80 ≤ n

def isQueryChar (c : Char) : Bool :=
  let n := c.toNat
  n == 0x21 || (0x24 ≤ n && n ≤ 0x3B) || n == 0x3D || (0x3F ≤ n && n ≤ 0x7E) || 0x80 ≤ n

/-- Cuts a list at the first item that meets a condition, and drops that item. -/
def cut (stop : Char → Bool) (cs : List Char) : List Char × List Char :=
  (cs.takeWhile (!stop ·), (cs.dropWhile (!stop ·)).drop 1)

/-- The pairs of a query: parted by ampersands, a name and a value by the first equals sign. Of
several pairs with one name the last counts. -/
def pairs (cs : List Char) : List (String × String) :=
  Json.lastOfEach <| ((cs.splitOn '&').filter (!·.isEmpty)).map fun part =>
    let (name, value) := cut (· == '=') part
    (.ofList name, .ofList value)

/-- The number of bytes that a target may have. -/
def maxBytes : Nat := 65534

/-- Takes a target apart. What follows a hash sign belongs to no request. -/
def ofText (text : String) : Except Unaddressable Target :=
  -- The hash sign is looked for first: a question mark behind it begins no query.
  let (cs, _) := cut (· == '#') text.toList
  let (path, query) := cut (· == '?') cs
  if maxBytes < text.utf8ByteSize then .error .tooLong
  else if path.all isPathChar && query.all isQueryChar then .ok ⟨.ofList path, pairs query⟩
  else .error .badCharacter

end Target

structure Request where
  method : Method
  target : Target
  contentType : Option String := none
  body : Option Json := none
deriving BEq

structure Response where
  status : Nat
  body : List UInt8

/-- What comes back: an answer, or the text of what broke on the way. -/
abbrev Exchange := Except String Response

def plainJson : String := "application/json"

/-- The media type of a patch that is merged into an object. -/
def mergePatch : String := "application/merge-patch+json"

/-- The media type of a patch that declares what an object is to be. -/
def applyPatch : String := "application/apply-patch+yaml"

end PreviewControl.Http
