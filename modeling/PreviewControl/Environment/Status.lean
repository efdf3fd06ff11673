import PreviewControl.Environment.Condition
import PreviewControl.Environment.Phase

/-!
# Statuses of environments

What is known about an environment: its phase, where it can be reached, how its services fare, what
it costs, and when it was made and expires.
-/
namespace PreviewControl

structure ServiceStatus where
  name : String
  ready : Bool
  url : Option String
deriving DecidableEq, Repr, Inhabited

namespace ServiceStatus

def read? (j : Json) : Option ServiceStatus := do
  let fs ← j.members? ["name", "ready", "url"]
  return {
    name := ← Json.field fs "name" Json.text?
    ready := ← Json.field fs "ready" Json.bool?
    url := ← Json.optional fs "url" Json.text? }

def toJson (s : ServiceStatus) : Json :=
  .record [("name", some (.str s.name)), ("ready", some (.bool s.ready)), ("url", s.url.map .str)]

end ServiceStatus

/-- What an environment costs, as amounts with four decimal places. -/
structure CostEstimate where
  currency : String
  hourly : String
  total : String
deriving DecidableEq, Repr, Inhabited

namespace CostEstimate

def read? (j : Json) : Option CostEstimate := do
  let fs ← j.members? ["currency", "hourlyCost", "totalCost"]
  return {
    currency := ← Json.field fs "currency" Json.text?
    hourly := ← Json.field fs "hourlyCost" Json.text?
    total := ← Json.field fs "totalCost" Json.text? }

def toJson (c : CostEstimate) : Json :=
  .obj [("currency", .str c.currency), ("hourlyCost", .str c.hourly), ("totalCost", .str c.total)]

end CostEstimate

structure Status where
  phase : Option Phase := none
  /-- The namespace of the environment's children. -/
  ns : Option String := none
  url : Option String := none
  services : List ServiceStatus := []
  costEstimate : Option CostEstimate := none
  createdAt : Option Instant := none
  expiresAt : Option Instant := none
  lastSyncedAt : Option Instant := none
  /-- The generation of the spec that the status is about. -/
  observedGeneration : Option Int64 := none
  conditions : List Condition := []
  message : Option String := none
deriving DecidableEq, Inhabited

namespace Status

def condition? (s : Status) (type : String) : Option Condition := Condition.find? type s.conditions

def read? (j : Json) : Option Status := do
  let fs ← j.members? ["phase", "namespace", "url", "services", "costEstimate", "createdAt",
    "expiresAt", "lastSyncedAt", "observedGeneration", "conditions", "message"]
  return {
    phase := ← Json.optional fs "phase" Phase.read?
    ns := ← Json.optional fs "namespace" Json.text?
    url := ← Json.optional fs "url" Json.text?
    services := ← Json.defaulted fs "services" (Json.list? ServiceStatus.read?) []
    costEstimate := ← Json.optional fs "costEstimate" CostEstimate.read?
    createdAt := ← Json.optional fs "createdAt" Json.instant?
    expiresAt := ← Json.optional fs "expiresAt" Json.instant?
    lastSyncedAt := ← Json.optional fs "lastSyncedAt" Json.instant?
    observedGeneration := ← Json.optional fs "observedGeneration" Json.int64?
    conditions := ← Json.defaulted fs "conditions" (Json.list? Condition.read?) []
    message := ← Json.optional fs "message" Json.text? }

/-- The written form. The message is written even when there is none. -/
def toJson (s : Status) : Json :=
  .record [("phase", s.phase.map Phase.toJson), ("namespace", s.ns.map .str),
    ("url", s.url.map .str), ("services", some (.arr (s.services.map ServiceStatus.toJson))),
    ("costEstimate", s.costEstimate.map CostEstimate.toJson),
    ("createdAt", s.createdAt.map .ofInstant), ("expiresAt", s.expiresAt.map .ofInstant),
    ("lastSyncedAt", s.lastSyncedAt.map .ofInstant),
    ("observedGeneration", s.observedGeneration.map .ofInt64),
    ("conditions", some (.arr (s.conditions.map Condition.toJson))),
    ("message", some ((s.message.map Json.str).getD .null))]

end Status
end PreviewControl
