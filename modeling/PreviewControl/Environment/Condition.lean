import PreviewControl.Json.Decode

/-!
# Conditions

Conditions: what is known about one aspect of a record, and since when. A list of conditions has one
entry for each type; an update that says nothing new leaves the entry and its time alone.
-/
namespace PreviewControl

inductive Verdict where
  | holds
  | fails
  | unknown
deriving DecidableEq, Repr, Inhabited

namespace Verdict

def name : Verdict → String
  | holds => "True"
  | fails => "False"
  | unknown => "Unknown"

def ofName? : String → Option Verdict
  | "True" => some holds
  | "False" => some fails
  | "Unknown" => some unknown
  | _ => none

@[simp] theorem ofName?_name (v : Verdict) : ofName? v.name = some v := by cases v <;> rfl

end Verdict

structure Condition where
  type : String
  verdict : Verdict
  reason : String
  message : String
  /-- When the condition came to be as it is. -/
  since : Instant
deriving DecidableEq, Inhabited

namespace Condition

/-- The type of the condition that tells whether the whole environment can be used. -/
def readyType : String := "Ready"

/-- Two conditions say the same, at whatever times. -/
def sameState (a b : Condition) : Bool :=
  a.type == b.type && a.verdict == b.verdict && a.reason == b.reason && a.message == b.message

/-- Enters a condition into a list: it takes the place of the first one of its type, unless that one
says the same already, and is appended if there is none. -/
def enter (c : Condition) : List Condition → List Condition
  | [] => [c]
  | d :: ds => if d.type == c.type then (if d.sameState c then d else c) :: ds else d :: enter c ds

def find? (type : String) (cs : List Condition) : Option Condition := cs.find? (·.type == type)

/-- Reads a condition; no member of it is optional. -/
def read? (j : Json) : Option Condition := do
  let fs ← j.members? ["type", "status", "reason", "message", "lastTransitionTime"]
  return {
    type := ← Json.field fs "type" Json.text?
    verdict := ← Json.field fs "status" fun v => v.variant?.bind Verdict.ofName?
    reason := ← Json.field fs "reason" Json.text?
    message := ← Json.field fs "message" Json.text?
    since := ← Json.field fs "lastTransitionTime" Json.instant? }

def toJson (c : Condition) : Json :=
  .obj [("type", .str c.type), ("status", .str c.verdict.name), ("reason", .str c.reason),
    ("message", .str c.message), ("lastTransitionTime", .ofInstant c.since)]

end Condition
end PreviewControl
