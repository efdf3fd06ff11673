import PreviewControl.Environment.Record

/-!
# Ownership of children

Marks on children: labels that lead from a child to its pull request, and annotations that say which
record owns it. A child that names another record's identity is left alone.
-/
namespace PreviewControl.Environment

def uidMark : String := "preview.dev/owner-uid"
def nameMark : String := "preview.dev/owner-name"
def namespaceMark : String := "preview.dev/owner-namespace"

def prLabel : String := "preview.dev/pr"
def repositoryLabel : String := "preview.dev/repository"
def managerLabel : String := "app.kubernetes.io/managed-by"

/-- The name under which the operator writes. -/
def manager : String := "preview-operator"

def ownerAnnotations (env : Environment) : List (String × String) :=
  [(nameMark, env.name), (namespaceMark, env.metadata.ns.getD ""),
   (uidMark, env.metadata.uid.getD "")]

def identityLabels (env : Environment) : List (String × String) :=
  [(managerLabel, manager), (prLabel, toString env.spec.prNumber.toNat),
   (repositoryLabel, env.spec.repository.labelValue)]

/-- The namespace and name of the record that owns a child, if both are stated. -/
def ownerOf? (child : Metadata) : Option (String × String) := do
  let name ← child.annotationAt? nameMark
  let ns ← child.annotationAt? namespaceMark
  if name = "" ∨ ns = "" then none else some (ns, name)

def owns (env : Environment) (child : Metadata) : Bool :=
  match env.metadata.uid with
  | some uid => child.annotationAt? uidMark == some uid
  | none => false

/-- The child names an identity that is not this record's. -/
def isForeign (env : Environment) (child : Metadata) : Bool :=
  (child.annotationAt? uidMark).isSome && !env.owns child

theorem not_isForeign_of_owns {env : Environment} {child : Metadata} (h : env.owns child = true) :
    env.isForeign child = false := by
  simp [isForeign, h]

end PreviewControl.Environment
