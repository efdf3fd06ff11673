import PreviewControl.Json.Decode
import PreviewControl.Text.Base64

/-!
# Schemas of API objects

Schemas of API objects. Reading an object by its schema checks the fields that the schema knows,
drops all others, leaves out optional fields without a value and fills in required ones, so that the
result is the object in its normal form. A field may be there several times; then all of its values
are checked, and the last one counts. Times are kept to the second.
-/
namespace PreviewControl

/-- The form of a value of an API object. A field of a record is given by its name, whether it is
always written, and its schema. -/
inductive Schema where
  /-- No value has this form. -/
  | nothing
  | any
  | text
  | bytes
  | boolean
  | integer (bits : Nat)
  | number
  | integerOrText
  | instant
  | items (item : Schema)
  | entries (value : Schema)
  /-- One of two forms that no value has both of; they are a type of their own. -/
  | either (type : String) (left right : Schema)
  | record (type : String) (fields : List (String × Bool × Schema))
  | kinded (apiVersion kind : String) (fields : List (String × Bool × Schema))
deriving Inhabited

namespace Schema

def opt (name : String) (s : Schema) : String × Bool × Schema := (name, false, s)

def req (name : String) (s : Schema) : String × Bool × Schema := (name, true, s)

def int32 : Schema := integer 32
def int64 : Schema := integer 64

/-- A stated API version or kind has to be the expected one wherever it is stated. -/
def statedAs (fields : List (String × Json)) (name expected : String) : Bool :=
  fields.all fun f => f.1 != name || f.2.text? == some expected

/-- Bytes are checked but stay written as they are. -/
def checkBytes (s : String) : Option Json := (Base64.decode? s.toList).map fun _ => .str s

def checkNumber : Json → Option Json
  | .int n => some (.int n)
  | .real x => some (.real x)
  | _ => none

mutual

/-- The value written for a required field that is missing. -/
def default : Schema → Json
  | nothing | any | instant => .null
  | text | bytes => .str ""
  | boolean => .bool false
  | integer _ | number | integerOrText => .int 0
  | items _ => .arr []
  | entries _ => .obj []
  | either _ s _ => s.default
  | record _ fs => .obj (defaults fs)
  | kinded v k fs => .obj (("apiVersion", .str v) :: ("kind", .str k) :: defaults fs)

def defaults : List (String × Bool × Schema) → List (String × Json)
  | [] => []
  | (name, required, s) :: fs => if required then (name, s.default) :: defaults fs else defaults fs

end

mutual

/-- The normal form of a value, if it is of the schema's form. -/
def normalize : Schema → Json → Option Json
  | nothing, _ => none
  | any, j => j.settled?
  | text, j => j.text?.map .str
  | bytes, j => j.text?.bind checkBytes
  | boolean, j => j.bool?.map .bool
  | integer bits, j => j.int?.bind fun n =>
      if FitsSigned bits n then some (.int n) else none
  | number, j => checkNumber j
  | integerOrText, .str s => some (.str s)
  | integerOrText, j => j.int?.bind fun n =>
      if FitsSigned 32 n then some (.int n) else none
  | instant, j => j.instant?.map fun t => Json.ofInstant (Time.wholeSecond t)
  | items s, j => j.items?.bind fun xs => (xs.mapM fun x => s.normalize x).map .arr
  | entries s, j => j.fields?.bind fun fs =>
      (fs.mapM fun f => (s.normalize f.2).map (f.1, ·)).map fun fs => .obj (Json.lastOfEach fs)
  | either _ s t, j => s.normalize j <|> t.normalize j
  | record _ fs, j => j.fields?.bind fun given => (normalizeFields fs given).map .obj
  | kinded v k fs, j => j.fields?.bind fun given =>
      if statedAs given "apiVersion" v && statedAs given "kind" k then
        (normalizeFields fs given).map fun out =>
          .obj (("apiVersion", .str v) :: ("kind", .str k) :: out)
      else none

def normalizeFields : List (String × Bool × Schema) → List (String × Json) →
    Option (List (String × Json))
  | [], _ => some []
  | (name, required, s) :: fs, given => do
    let rest ← normalizeFields fs given
    let values ← (given.filter (·.1 == name)).mapM fun f =>
      -- A null is as good as no field at all.
      if f.2.isNull then some none else (s.normalize f.2).map some
    match values.getLast?.join with
    | some out => return (name, out) :: rest
    | none => return if required then (name, s.default) :: rest else rest

end

end Schema
end PreviewControl
