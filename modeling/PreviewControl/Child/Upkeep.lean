import PreviewControl.Child.Descriptor
import PreviewControl.Child.Ingress
import PreviewControl.Cluster.Pass
import PreviewControl.Health

/-!
# Upkeep of children

The upkeep of an environment's children: putting a child in place, removing it unless another record
owns it, and looking at its health. Each can be repeated at any time.
-/
namespace PreviewControl

/-- A child of an environment, with all that belongs to it. -/
inductive Child where
  | «namespace»
  | ingress
  | descriptor
deriving DecidableEq, Repr

namespace Child

/-- The children in the order in which they are put in place. -/
def all : List Child := [«namespace», ingress, descriptor]

def kind : Child → String
  | «namespace» => "Namespace"
  | ingress => "Ingress"
  | descriptor => "ApplicationSet"

def address (config : Config) (env : Environment) (ns : String) : Child → Address
  | «namespace» => namespaceAddress ns
  | ingress => ingressAddress ns
  | descriptor => descriptorAddress env.spec.prNumber config

/-- Deletes the object at an address, unless there is none or it names another record. The result
says whether there was something to delete. -/
def removeOwned (env : Environment) (target : Address) : Pass Bool := do
  match ← Pass.request (.getObject target) with
  | none => return false
  | some existing =>
    if env.isForeign existing.metadata then return false
    else Pass.request (.deleteObject target)

def applyAll : List Manifest → Pass Unit
  | [] => return
  | m :: ms => do
    let () ← Pass.request (.apply m)
    applyAll ms

/-- The failure to put anything into a namespace that is on its way out. -/
def stillTerminating (env : Environment) (ns : String) : Failure :=
  .child «namespace».kind env.name ("namespace " ++ ns ++ " is still terminating")

def ensureNamespace (config : Config) (env : Environment) (ns : String) : Pass Unit := do
  let existing ← Pass.request (.getObject (namespaceAddress ns))
  -- What is put into a namespace on its way out would go away with it.
  if (existing : Option StoredObject).any (·.metadata.isDeleting) then
    .fail (stillTerminating env ns)
  else
    applyAll (← .ofExcept (namespaceManifests env ns config))

/-- Puts the ingress in place, or removes it when there are no services left. -/
def ensureIngress (config : Config) (env : Environment) (ns : String) : Pass Unit := do
  match ingressObject? env ns config with
  | none =>
    -- The services may have been taken away after an earlier pass put an ingress in place.
    let _ ← removeOwned env (ingressAddress ns)
  | some object =>
    let manifest ← .ofExcept (Manifest.of .ingress object)
    Pass.request (.apply manifest)

def ensureDescriptor (config : Config) (env : Environment) (ns : String) : Pass Unit := do
  let manifest ← .ofExcept (Manifest.of .applicationSet (descriptorObject env ns config))
  Pass.request (.apply manifest)

def ensure (config : Config) (env : Environment) (ns : String) : Child → Pass Unit
  | «namespace» => ensureNamespace config env ns
  | ingress => ensureIngress config env ns
  | descriptor => ensureDescriptor config env ns

/-- Removes a child; one that is not there or names another record counts as removed. -/
def remove (config : Config) (env : Environment) (ns : String) (child : Child) : Pass Unit := do
  let _ ← removeOwned env (child.address config env ns)

def unitHealths (config : Config) (pr : UInt32) : List String → Pass (List UnitHealth)
  | [] => return []
  | service :: services => do
    let app ← Pass.request (.getObject (applicationAddress pr service config))
    let unit := match (app : Option StoredObject) with
      | some app => UnitHealth.ofObject service app
      | none => .missing service
    return unit :: (← unitHealths config pr services)

def deploymentHealth (config : Config) (env : Environment) : Pass Health := do
  return .ofUnits (← unitHealths config env.spec.prNumber env.spec.uniqueServices)

def health (config : Config) (env : Environment) (ns : String) : Child → Pass Health
  | «namespace» => do
    match ← Pass.request (.getObject (namespaceAddress ns)) with
    | none => return .missing
    | some space =>
      return if space.metadata.isDeleting then .progressing "namespace is terminating" else .ready
  | ingress => do
    match ← Pass.request (.getObject (ingressAddress ns)) with
    | none => return .missing
    | some _ => return .ready
  | descriptor => deploymentHealth config env

end Child
end PreviewControl
