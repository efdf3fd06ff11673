import PreviewControl.Child.Names
import PreviewControl.Config
import PreviewControl.Health

/-!
# How a status moves on

How the status of an environment moves on: on first contact, when the spec cannot be acted on, after
an observation of the children, and on deletion. A time of expiry is set once; a test run that
others drive is left alone until the spec changes, except that a degraded deployment always shows.
-/
namespace PreviewControl

structure Observation where
  /-- The namespace that the children were put into. -/
  ns : String
  /-- The message of the first child that could not be put in place. -/
  fault : Option String
  /-- The health of the deployments, if it could be read. -/
  health : Option Health
  /-- The cost, if the pods could be listed. -/
  cost : Option CostEstimate
deriving Inhabited

namespace Status

def readyCondition (verdict : Verdict) (reason message : String) (now : Instant) : Condition :=
  ⟨Condition.readyType, verdict, reason, message, now⟩

/-- When the environment was made, and when it expires: as recorded, else from now on. There is no
answer if the expiry is beyond the representable years. -/
def lifetime? (current : Status) (spec : Spec) (now : Instant) : Option (Instant × Instant) :=
  let createdAt := current.createdAt.getD now
  match current.expiresAt with
  | some expiresAt => some (createdAt, expiresAt)
  | none => (createdAt.add? spec.ttlSeconds).map (createdAt, ·)

def acceptedMessage : String := "environment accepted, provisioning resources"

/-- The status on first contact with a record. Of the status so far only the times are kept. -/
def accepted? (env : Environment) (current : Status) (config : Config) (now : Instant) :
    Option Status :=
  (lifetime? current env.spec now).map fun (createdAt, expiresAt) =>
    -- Built from nothing: whatever else stood in a status before its first namespace is stale.
    { phase := some .pending
      ns := some env.spec.namespaceName
      url := some (config.urlFor env.spec.prNumber)
      createdAt := some createdAt
      expiresAt := some expiresAt
      lastSyncedAt := some now
      observedGeneration := env.metadata.generation
      conditions := [readyCondition .fails "Initializing" acceptedMessage now]
      message := some acceptedMessage }

/-- The status of a record whose spec cannot be acted on. Such a record expires like any other. -/
def refused? (env : Environment) (current : Status) (message : String) (now : Instant) :
    Option Status :=
  (lifetime? current env.spec now).map fun (createdAt, expiresAt) =>
    { current with
      phase := some .failed
      observedGeneration := env.metadata.generation
      message := some message
      createdAt := some createdAt
      expiresAt := some expiresAt
      conditions := (readyCondition .fails "InvalidSpec" message now).enter current.conditions }

def serviceUrl (config : Config) (pr : UInt32) (service : String) : String :=
  if service = config.frontendService then config.urlFor pr
  else config.urlFor pr ++ "/" ++ service

def servicesOf (env : Environment) (config : Config) (units : List UnitHealth) :
    List ServiceStatus :=
  units.map fun u => ⟨u.service, u.isReady, some (serviceUrl config env.spec.prNumber u.service)⟩

/-- A phase with the verdict that belongs to it. -/
structure Move where
  phase : Phase
  verdict : Verdict
  reason : String
  message : String
deriving DecidableEq, Repr

namespace Move

def degraded (message : Option String) : Move :=
  ⟨.failed, .fails, "Degraded", message.getD "deployment degraded"⟩

def ready (units : Nat) : Move :=
  ⟨.ready, .holds, "AllServicesHealthy",
    "all " ++ toString units ++ " services healthy and synced"⟩

def provisioning (message : Option String) : Move :=
  ⟨.provisioning, .fails, "Provisioning", message.getD "waiting for deployments"⟩

/-- The move that the health of the deployments asks for when all children are in place. -/
def ofHealth : Option Health → Move
  | some h => if h.state = .ready then ready h.units.length else provisioning h.message
  | none => provisioning none

end Move

/-- The record is in a test run that others drive, and its spec has not changed since. -/
def isExternallyDriven (env : Environment) (current : Status) : Bool :=
  current.observedGeneration == env.metadata.generation && current.phase.any (·.isExternal)

/-- The health that was read is degraded. -/
def degradation? (observation : Observation) : Option Health :=
  observation.health.filter (·.state == .degraded)

/-- The move that an observation asks for, if any. -/
def move? (env : Environment) (current : Status) (observation : Observation) : Option Move :=
  match degradation? observation with
  -- This comes first: a degraded deployment shows whoever drives the record.
  | some h => some (.degraded h.message)
  | none =>
    if current.isExternallyDriven env || observation.fault.isSome then none
    else some (.ofHealth observation.health)

/-- The message while no move is made: a child that could not be put in place is reported unless
others drive the record. -/
def restMessage (env : Environment) (current : Status) (observation : Observation) :
    Option String :=
  if current.isExternallyDriven env then current.message
  else observation.fault <|> current.message

def apply (m : Move) (now : Instant) (s : Status) : Status :=
  { s with
    phase := some m.phase
    message := some m.message
    conditions := (readyCondition m.verdict m.reason m.message now).enter s.conditions }

/-- What an observation tells apart from any move. -/
def learn (env : Environment) (observation : Observation) (config : Config) (s : Status) :
    Status :=
  { s with
    ns := some (s.ns.getD observation.ns)
    url := some (config.urlFor env.spec.prNumber)
    costEstimate := observation.cost <|> s.costEstimate
    services := match observation.health with
      | some h => servicesOf env config h.units
      | none => s.services
    observedGeneration := env.metadata.generation }

/-- The status after an observation of the children. The time of the last write is left as it is. -/
def next (env : Environment) (current : Status) (observation : Observation) (config : Config)
    (now : Instant) : Status :=
  let learnt := current.learn env observation config
  match current.move? env observation with
  | some m => learnt.apply m now
  | none => { learnt with message := current.restMessage env observation }

def removalMessage : String := "removing child resources"

def terminating (current : Status) (now : Instant) : Status :=
  { current with
    phase := some .terminating
    message := some removalMessage
    lastSyncedAt := some now
    conditions := (readyCondition .fails "Terminating" removalMessage now).enter
      current.conditions }

def stamped (now : Instant) (s : Status) : Status := { s with lastSyncedAt := some now }

/-- Two statuses differ in more than the time of the last write. -/
def differs (a b : Status) : Bool := { a with lastSyncedAt := b.lastSyncedAt } != b

end Status
end PreviewControl
