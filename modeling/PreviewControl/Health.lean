import PreviewControl.Object.Manifest

/-!
# Health of deployments

Health of what has been deployed: of one unit, as the deployment engine reports it, and of a child
as a whole. One degraded unit degrades the whole; without units nothing is ever ready.
-/
namespace PreviewControl

/-- The health of the deployment of one service, in the words of the deployment engine. -/
structure UnitHealth where
  service : String
  health : String
  sync : String
deriving DecidableEq, Repr, Inhabited

namespace UnitHealth

/-- A deployment that does not exist yet. -/
def missing (service : String) : UnitHealth := ⟨service, "Missing", "Unknown"⟩

/-- The health that a deployment reports; what it does not report as a text is unknown. -/
def ofObject (service : String) (app : StoredObject) : UnitHealth :=
  let reported (aspect : String) := (app.follow ["status", aspect, "status"]).text?.getD "Unknown"
  ⟨service, reported "health", reported "sync"⟩

def isReady (u : UnitHealth) : Bool := u.health == "Healthy" && u.sync == "Synced"

def isDegraded (u : UnitHealth) : Bool := u.health == "Degraded"

end UnitHealth

inductive HealthState where
  | ready
  | progressing
  | degraded
  | missing
deriving DecidableEq, Repr, Inhabited

structure Health where
  state : HealthState
  units : List UnitHealth := []
  message : Option String := none
deriving DecidableEq, Repr, Inhabited

namespace Health

def ready : Health := ⟨.ready, [], none⟩

def missing : Health := ⟨.missing, [], none⟩

def progressing (message : String) : Health := ⟨.progressing, [], some message⟩

def degradedServices (units : List UnitHealth) : List String :=
  (units.filter (·.isDegraded)).map (·.service)

def ofUnits (units : List UnitHealth) : Health :=
  if !(degradedServices units).isEmpty then
    ⟨.degraded, units, some ("degraded services: " ++
      String.intercalate ", " (degradedServices units))⟩
  else if !units.isEmpty && units.all (·.isReady) then ⟨.ready, units, none⟩
  else
    ⟨.progressing, units, some (toString (units.filter (!·.isReady)).length ++ " of " ++
      toString units.length ++ " services not ready")⟩

end Health
end PreviewControl
