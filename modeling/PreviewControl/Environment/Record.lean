import PreviewControl.Environment.Spec
import PreviewControl.Environment.Status
import PreviewControl.Object.Manifest

/-!
# Records of environments

Records of environments: metadata, a spec that others write, and a status that the operator writes.
-/
namespace PreviewControl

structure Environment where
  metadata : Metadata
  spec : Spec
  status : Option Status := none
deriving Inhabited

namespace Environment

/-- The finalizer that keeps a deleted record until its children are gone. -/
def cleanupFinalizer : String := "preview.dev/cleanup"

def spotMark : String := "preview.dev/use-spot"

/-- The label that exempts a record from expiry. -/
def pinLabel : String := "preview.dev/do-not-expire"

/-- The name of a record, or what it would be generated from. -/
def name (env : Environment) : String := env.metadata.anyName

def hasFinalizer (env : Environment) : Bool := env.metadata.heldBy.contains cleanupFinalizer

def usesSpot (env : Environment) : Bool := env.metadata.annotationAt? spotMark == some "true"

def isPinned (env : Environment) : Bool := env.metadata.labelAt? pinLabel == some "true"

/-- Where the environment stands; nowhere before its first status. -/
def phase? (env : Environment) : Option Phase := env.status.bind (·.phase)

def expiresAt? (env : Environment) : Option Instant := env.status.bind (·.expiresAt)

/-- The status, or the empty one before the first. -/
def known (env : Environment) : Status := env.status.getD {}

/-- Reads a record. Metadata and spec have to be there; in an array, a status or a null too. -/
def read? (j : Json) : Option Environment := do
  let fs ← j.members? ["metadata", "spec", "status"]
  if j.items?.any (·.length < 3) then none
  return {
    metadata := ← Json.field fs "metadata" Metadata.read?
    spec := ← Json.field fs "spec" Spec.read?
    status := ← Json.optional fs "status" Status.read? }

def toJson (env : Environment) : Json :=
  .record [("apiVersion", some (.str ResourceKind.environment.apiVersion)),
    ("kind", some (.str ResourceKind.environment.kind)),
    ("metadata", some env.metadata.toJson), ("spec", some env.spec.toJson),
    ("status", env.status.map Status.toJson)]

end Environment
end PreviewControl
