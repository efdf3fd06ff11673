import PreviewControl.Json.Inspection.Typed
import PreviewControl.Object.Schema

/-!
# Inspections by a schema

Inspections of texts that should hold an object of a schema. What a schema refuses to read has a
fault here: the first one in the text.
-/
namespace PreviewControl.Schema

open Json (Inspection)
open Json.Inspection (ascii)

/-- Whether a value of the schema's form can begin with a byte. -/
def canBegin (b : UInt8) : Schema → Bool
  | boolean => b == ascii 't' || b == ascii 'f'
  | items _ => b == ascii '['
  | entries _ | record .. | kinded .. => b == ascii '\x7b'
  | _ => false

def inspectBytes : Inspection Unit := do
  if (Base64.decode? (← Json.Inspection.textOf "a base64-encoded string").toList).isNone then
    Json.Inspection.faultHere .notBase64

/-- A stated API version or kind. The fault of a wrong one is that of the whole object. -/
def inspectStated (expected : String) : Inspection Unit := do
  Json.Inspection.colon
  let s ← Json.Inspection.textOf "a string"
  if s != expected then Json.Inspection.fault (.value (.text s) expected)

mutual

def inspect : Schema → Inspection Unit
  | nothing => Json.Inspection.faultNext .tooDeep
  | any => Json.Inspection.any
  | text => Json.Inspection.text
  | bytes => inspectBytes
  | boolean => Json.Inspection.boolean
  | integer bits => Json.Inspection.signed bits
  | number => Json.Inspection.real
  | integerOrText => do
    if (← Json.Inspection.beginning) == ascii '"' then Json.Inspection.text
    else Json.Inspection.signed 32
  | instant => Json.Inspection.instant
  | items s => Json.Inspection.list s.inspect
  | entries s => Json.Inspection.map s.inspect
  | either type s t => do
    let b ← Json.Inspection.beginning
    if s.canBegin b then s.inspect
    else if t.canBegin b then t.inspect
    else Json.Inspection.unfitInside ("enum " ++ type)
  | record type fs => Json.Inspection.record type fun _ name => inspectField fs name
  | kinded v k fs => Json.Inspection.record k fun _ name =>
      if name = "apiVersion" then inspectStated v
      else if name = "kind" then inspectStated k
      else inspectField fs name

/-- Inspects a field from its colon on. One that the schema does not know does not count. -/
def inspectField : List (String × Bool × Schema) → String → Inspection Unit
  | [], _ => do
    Json.Inspection.colon
    Json.Inspection.ignored
  | (known, _, s) :: fs, name =>
    if known = name then do
      Json.Inspection.colon
      Json.Inspection.orNull s.inspect
    else inspectField fs name

end

end PreviewControl.Schema
