import PreviewControl.Cluster.Pass
import PreviewControl.Http.Answer

/-!
# Calls as requests

Calls as requests to an API server. Writes to a record carry the version that was read, by which the
server refuses those that are stale; other objects are applied whole, in the operator's name.
-/
namespace PreviewControl.Http

/-- The path under which the objects of a kind are served. -/
def collection (kind : ResourceKind) (ns : Option String) : String :=
  (if kind.group = "" then "/api/" else "/apis/") ++ kind.apiVersion ++ "/" ++
    (match ns with
      | some ns => "namespaces/" ++ ns ++ "/"
      | none => "") ++ kind.plural

/-- The query of a write in the operator's name. -/
def inName : List (String × String) := [("fieldManager", Environment.manager)]

/-- A path with a query. Every pair of it has an ampersand in front, the first one too. -/
def withQuery (path : String) (query : List (String × String)) : String :=
  path ++ "?" ++ String.join (query.map fun q => "&" ++ q.1 ++ "=" ++ q.2)

def request (method : Method) (target : String) (content : Option (String × Json)) :
    Except Unaddressable Request :=
  (Target.ofText target).map fun target => ⟨method, target, content.map (·.1), content.map (·.2)⟩

/-- A request about one object, which has to have a name. Only a read of it goes without a query,
which matters where the name itself holds a question mark. -/
def objectRequest (method : Method) (kind : ResourceKind) (ns : Option String) (name : String)
    (part : String) (query : List (String × String)) (content : Option (String × Json)) :
    Except Unaddressable Request :=
  let path := collection kind ns ++ "/" ++ name ++ part
  if name = "" then .error .noName
  else request method (if method = .get then path else withQuery path query) content

def listRequest (kind : ResourceKind) (ns : Option String) : Except Unaddressable Request :=
  request .get (withQuery (collection kind ns) []) none

/-- The version that a write is based on. -/
def versionOf (env : Environment) : Json := (env.metadata.resourceVersion.map Json.str).getD .null

def statusPatch (env : Environment) (status : Status) : Json :=
  .obj [("metadata", .obj [("resourceVersion", versionOf env)]), ("status", status.toJson)]

def finalizerPatch (env : Environment) (finalizers : List String) : Json :=
  .obj [("metadata",
    .obj [("finalizers", .texts finalizers), ("resourceVersion", versionOf env)])]

def recordPatch (env : Environment) (part : String) (query : List (String × String))
    (patch : Json) : Except Unaddressable Request :=
  objectRequest .patch .environment (some (env.metadata.ns.getD "")) env.name part query
    (some (mergePatch, patch))

variable {m : Type → Type} [Monad m]

/-- Sends a request that could be made, and reads its answer. -/
def sendThen {α : Type} (send : Request → m Exchange) (request : Except Unaddressable Request)
    (read : Exchange → Except Failure α) : m (Except Failure α) :=
  match request with
  | .ok r => do return read (← send r)
  | .error cause => pure (.error (.unaddressable cause))

def ignoring {α : Type} (read : Except Failure α) : Except Failure Unit := read.map fun _ => ()

def answer (send : Request → m Exchange) : (c : Call) → m c.Answer
  | .getEnvironment name ns =>
    sendThen send (objectRequest .get .environment (some ns) name "" [] none) fun e =>
      objectOf? e Environment.read?
  | .listEnvironments ns =>
    sendThen send (listRequest .environment (some ns)) fun e =>
      valueOf e (list? Environment.read?)
  | .patchStatus env status =>
    sendThen send (recordPatch env "/status" inName (statusPatch env status)) fun e =>
      valueOf e Environment.read?
  | .addFinalizer env =>
    -- A record that carries the finalizer needs no request.
    if env.hasFinalizer then pure (.ok ())
    else
      sendThen send
        (recordPatch env "" []
          (finalizerPatch env (env.metadata.heldBy ++ [Environment.cleanupFinalizer]))) fun e =>
        ignoring (valueOf e Environment.read?)
  | .removeFinalizer env =>
    sendThen send
      (recordPatch env "" [] (finalizerPatch env
        (env.metadata.heldBy.filter (· != Environment.cleanupFinalizer)))) fun e =>
      ignoring (valueOf e Environment.read?)
  | .deleteEnvironment name ns =>
    sendThen send
      (objectRequest .delete .environment (some ns) name "" [] (some (plainJson, .obj []))) fun e =>
      ignoring (deletedOf e Environment.read?)
  | .apply manifest =>
    sendThen send
      (objectRequest .patch manifest.target.kind manifest.target.ns manifest.target.name ""
        (("force", "true") :: inName) (some (applyPatch, manifest.object))) fun e =>
      ignoring (valueOf e StoredObject.read? StoredObject.fault?)
  | .getObject target =>
    sendThen send (objectRequest .get target.kind target.ns target.name "" [] none) fun e =>
      objectOf? e StoredObject.read? StoredObject.fault?
  | .deleteObject target =>
    sendThen send
      (objectRequest .delete target.kind target.ns target.name "" []
        (some (plainJson, .obj [("propagationPolicy", .str "Background")]))) fun e =>
      deletedOf e StoredObject.read? StoredObject.fault?
  | .listPods ns =>
    sendThen send (listRequest .pod (some ns)) fun e => valueOf e (list? Pod.read?)

/-! ## Events -/

/-- The name under which the controller reports. -/
def controllerName : String := "preview-environment-controller"

/-- Who reports events: a controller, and the instance of it if that has a name. -/
structure Reporter where
  controller : String := controllerName
  instanceName : Option String := none

def eventKind : ResourceKind := .ofApiVersion "events.k8s.io/v1" "Event"

def subjectJson (about : Subject) : Json :=
  .record [("apiVersion", some (.str ResourceKind.environment.apiVersion)),
    ("kind", some (.str ResourceKind.environment.kind)), ("name", about.name.map .str),
    ("namespace", about.ns.map .str), ("uid", about.uid.map .str)]

/-- The object by which an event is reported. -/
def eventJson (reporter : Reporter) (event : Event) : Json :=
  .record [("apiVersion", some (.str eventKind.apiVersion)), ("kind", some (.str eventKind.kind)),
    ("metadata", some (.obj [("namespace", .str (event.about.ns.getD "default"))])),
    ("type", some (.str event.type.word)), ("reason", some (.str event.reason)),
    ("action", some (.str event.action)), ("note", event.note.map .str),
    ("regarding", some (subjectJson event.about)),
    ("reportingController", some (.str reporter.controller)),
    ("reportingInstance", some (.str (reporter.instanceName.getD reporter.controller)))]

def publish (send : Request → m Exchange) (reporter : Reporter) (event : Event) : m Unit := do
  match request .post (withQuery (collection eventKind (some (event.about.ns.getD "default"))) [])
      (some (plainJson, eventJson reporter event)) with
  | .ok r => do
    let _ ← send r
    return
  | .error _ => return

def handler (send : Request → m Exchange) (reporter : Reporter) : Pass.Handler m where
  answer := answer send
  publish := publish send reporter
  record _ := pure ()

end PreviewControl.Http
