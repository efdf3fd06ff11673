import PreviewControl.Object.Kind
import PreviewControl.Object.Metadata
import PreviewControl.Object.Schema.Inspection
import PreviewControl.Failure

/-!
# Addresses, manifests and stored objects

Addresses of objects, manifests that are ready to be applied, and objects as they are read back when
only their metadata is known.
-/
namespace PreviewControl

/-- Where an object lives. A kind that belongs to the whole cluster has no namespace. -/
structure Address where
  kind : ResourceKind
  name : String
  ns : Option String
deriving DecidableEq, Repr, Inhabited

structure Manifest where
  target : Address
  object : Json
deriving Inhabited, BEq

namespace Manifest

/-- A manifest lives where its metadata says; it has to have a name. -/
def of (kind : ResourceKind) (object : Json) : Except Failure Manifest :=
  match (object.follow ["metadata", "name"]).text? with
  | some name => .ok ⟨⟨kind, name, (object.follow ["metadata", "namespace"]).text?⟩, object⟩
  | none => .error (.internal "apply" (kind.kind ++ " has no name"))

end Manifest

/-- An object of any kind: its stated API version and kind, its metadata, and its other members. -/
structure StoredObject where
  types : Option (String × String)
  metadata : Metadata
  members : List (String × Json)
deriving Inhabited, BEq

namespace StoredObject

/-- Takes the types that an object states out of its members, in their order. The first member of
the two that is no text, or that comes a second time, ends this, and is gone too; there are no types
then, and the members behind it stay. The result is the types and the members that are left. -/
def takeTypes (version kind : Option String) :
    List (String × Json) → Option (String × String) × List (String × Json)
  | [] => ((version.bind fun v => kind.map (v, ·)), [])
  | f :: fs =>
    if f.1 = "apiVersion" then
      match version, f.2 with
      | none, .str v => takeTypes (some v) kind fs
      | _, _ => (none, fs)
    else if f.1 = "kind" then
      match kind, f.2 with
      | none, .str k => takeTypes version (some k) fs
      | _, _ => (none, fs)
    else
      let (types, rest) := takeTypes version kind fs
      (types, f :: rest)

/-- Reads any object whose metadata are of the right form; they may be missing but not null, and
nothing beside them may be garbled. -/
def read? : Json → Option StoredObject
  | .obj fields => do
    let fields ← Json.distinct? ["metadata"] fields
    let metadata ← Json.defaulted fields "metadata" Metadata.read? {}
    let members ← Json.settledFields? (fields.filter (·.1 != "metadata"))
    let (types, rest) := takeTypes none none members
    return ⟨types, metadata, Json.lastOfEach rest⟩
  | _ => none

open Json.Inspection in
/-- The form of an object of any kind. Metadata may not come twice, and all other members count. -/
def form : Json.Inspection Unit :=
  fieldsOf "struct DynamicObject" fun seen name =>
    if name = "metadata" then once seen name Form.metadata.inspect
    else do
      colon
      any

/-- What is wrong with a text that should hold an object. -/
def fault? : String → Option Json.Fault := Json.Inspection.fault? form

/-- The written form; metadata are always written. -/
def toJson (o : StoredObject) : Json :=
  let types := match o.types with
    | some (v, k) => [("apiVersion", Json.str v), ("kind", Json.str k)]
    | none => []
  .obj (types ++ ("metadata", o.metadata.toJson) :: o.members)

/-- The value at the end of a path that starts at a member. -/
def follow (path : List String) (o : StoredObject) : Json := (Json.obj o.members).follow path

end StoredObject
end PreviewControl
