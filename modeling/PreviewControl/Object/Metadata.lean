import PreviewControl.Object.Form

/-!
# Object metadata

The metadata of an object: the members that the operator works with by name, and all others in their
normal form, so that what is read can be written again.
-/
namespace PreviewControl

structure Metadata where
  name : Option String := none
  generateName : Option String := none
  ns : Option String := none
  uid : Option String := none
  resourceVersion : Option String := none
  generation : Option Int64 := none
  finalizers : Option (List String) := none
  labels : Option (List (String × String)) := none
  annotations : Option (List (String × String)) := none
  creationTimestamp : Option Instant := none
  deletionTimestamp : Option Instant := none
  /-- The members that only pass through. -/
  others : List (String × Json) := []
deriving Inhabited, BEq

namespace Metadata

/-- The name, or else what a name would be generated from, or else nothing. -/
def anyName (m : Metadata) : String := (m.name <|> m.generateName).getD ""

/-- The finalizers that hold the object back from going away. -/
def heldBy (m : Metadata) : List String := m.finalizers.getD []

def annotationAt? (m : Metadata) (key : String) : Option String :=
  (m.annotations.getD []).lookup key

def labelAt? (m : Metadata) (key : String) : Option String := (m.labels.getD []).lookup key

def isDeleting (m : Metadata) : Bool := m.deletionTimestamp.isSome

/-- The members that `Metadata` holds by name. -/
def named : List String :=
  ["annotations", "creationTimestamp", "deletionTimestamp", "finalizers", "generateName",
   "generation", "labels", "name", "namespace", "resourceVersion", "uid"]

/-- Reads metadata; it has to be an object whose known members are of the right form. -/
def read? (j : Json) : Option Metadata := do
  let fs ← (← Form.metadata.normalize j).fields?
  return {
    name := ← Json.optional fs "name" Json.text?
    generateName := ← Json.optional fs "generateName" Json.text?
    ns := ← Json.optional fs "namespace" Json.text?
    uid := ← Json.optional fs "uid" Json.text?
    resourceVersion := ← Json.optional fs "resourceVersion" Json.text?
    generation := ← Json.optional fs "generation" Json.int64?
    finalizers := ← Json.optional fs "finalizers" (Json.list? Json.text?)
    labels := ← Json.optional fs "labels" Json.textMap?
    annotations := ← Json.optional fs "annotations" Json.textMap?
    creationTimestamp := ← Json.optional fs "creationTimestamp" Json.instant?
    deletionTimestamp := ← Json.optional fs "deletionTimestamp" Json.instant?
    others := fs.filter fun f => !named.contains f.1 }

/-- The written form, without the members that have no value. -/
def toJson (m : Metadata) : Json :=
  Json.record <|
    [("name", m.name.map .str),
     ("generateName", m.generateName.map .str),
     ("namespace", m.ns.map .str),
     ("uid", m.uid.map .str),
     ("resourceVersion", m.resourceVersion.map .str),
     ("generation", m.generation.map .ofInt64),
     ("finalizers", m.finalizers.map .texts),
     ("labels", m.labels.map .textMap),
     ("annotations", m.annotations.map .textMap),
     ("creationTimestamp", m.creationTimestamp.map .ofInstant),
     ("deletionTimestamp", m.deletionTimestamp.map .ofInstant)] ++
    m.others.map fun f => (f.1, some f.2)

end Metadata
end PreviewControl
