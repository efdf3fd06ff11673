import PreviewControl.Cluster.Call

/-!
# A cluster in memory

A cluster in memory: records, other objects and pods, faults that make calls fail, and a clock. A
write to a record is refused if the record is gone or has changed since it was read; every write
that is accepted gives the record a new version.
-/
namespace PreviewControl

/-- A reason for calls to fail. -/
structure Fault where
  call : String
  kind : Option String := none
  name : Option String := none
  /-- How many calls are still to fail, if not all. -/
  times : Option Nat := none
  failure : Failure
deriving Inhabited

def Call.word : Call → String
  | getEnvironment .. => "get_environment"
  | listEnvironments .. => "list_environments"
  | patchStatus .. => "patch_environment_status"
  | addFinalizer .. => "add_finalizer"
  | removeFinalizer .. => "remove_finalizer"
  | deleteEnvironment .. => "delete_environment"
  | apply .. => "apply"
  | getObject .. => "get_resource"
  | deleteObject .. => "delete_resource"
  | listPods .. => "list_pods"

/-- The kind and the name that a call is about. -/
def Call.topic : Call → String × String
  | getEnvironment name _ => (ResourceKind.environment.kind, name)
  | listEnvironments _ => (ResourceKind.environment.kind, "")
  | patchStatus env _ => (ResourceKind.environment.kind, env.name)
  | addFinalizer env => (ResourceKind.environment.kind, env.name)
  | removeFinalizer env => (ResourceKind.environment.kind, env.name)
  | deleteEnvironment name _ => (ResourceKind.environment.kind, name)
  | apply m => (m.target.kind.kind, m.target.name)
  | getObject target => (target.kind.kind, target.name)
  | deleteObject target => (target.kind.kind, target.name)
  | listPods ns => (ResourceKind.pod.kind, ns)

namespace Fault

def hits (f : Fault) (c : Call) : Bool :=
  f.call == c.word && f.kind.all (· == c.topic.1) && f.name.all (· == c.topic.2) &&
    f.times != some 0

def used (f : Fault) : Fault := { f with times := f.times.map (· - 1) }

/-- The first fault that applies to a call, and all faults after it has made the call fail. -/
def strike (c : Call) : List Fault → Option (Failure × List Fault)
  | [] => none
  | f :: fs =>
    -- Faults behind this one keep their number of times.
    if f.hits c then some (f.failure, f.used :: fs)
    else (strike c fs).map fun (e, rest) => (e, f :: rest)

end Fault

structure RecordKey where
  ns : String
  name : String
deriving DecidableEq, Repr, Inhabited

namespace RecordKey

def precedes (a b : RecordKey) : Bool := a.ns < b.ns || (a.ns == b.ns && a.name < b.name)

end RecordKey

def Environment.key (env : Environment) : RecordKey := ⟨env.metadata.ns.getD "", env.name⟩

/-- The text by which an object is known: its types, its namespace if it has one, and its name. -/
def Address.text (a : Address) : String :=
  a.kind.apiVersion ++ " " ++ a.kind.kind ++ " " ++ a.ns.getD "-" ++ "/" ++ a.name

structure Store where
  records : List (RecordKey × Environment) := []
  objects : List (String × Json) := []
  pods : List (String × List Pod) := []
  faults : List Fault := []
  now : Instant
  /-- How many seconds it takes to list records. -/
  listSeconds : Nat := 0
deriving Inhabited

namespace Store

def insertRecord (key : RecordKey) (env : Environment) :
    List (RecordKey × Environment) → List (RecordKey × Environment)
  | [] => [(key, env)]
  | r :: rs =>
    if key = r.1 then (key, env) :: rs
    else if key.precedes r.1 then (key, env) :: r :: rs
    else r :: insertRecord key env rs

def record? (s : Store) (key : RecordKey) : Option Environment := s.records.lookup key

def putRecord (s : Store) (key : RecordKey) (env : Environment) : Store :=
  { s with records := insertRecord key env s.records }

def eraseRecord (s : Store) (key : RecordKey) : Store :=
  { s with records := s.records.filter (·.1 != key) }

def object? (s : Store) (key : String) : Option Json := s.objects.lookup key

def putObject (s : Store) (key : String) (object : Json) : Store :=
  { s with objects := Json.insertField key object s.objects }

def eraseObject (s : Store) (key : String) : Store :=
  { s with objects := s.objects.filter (·.1 != key) }

def podsIn (s : Store) (ns : String) : List Pod := (s.pods.lookup ns).getD []

def putPods (s : Store) (ns : String) (pods : List Pod) : Store :=
  { s with pods := (ns, pods) :: s.pods }

/-- Moves the clock on. Beyond the representable years it stands still. -/
def advance (s : Store) (seconds : Int) : Store := { s with now := (s.now.add? seconds).getD s.now }

/-- A whole number without sign, of 64 bits; anything else counts as zero. -/
def versionNumber (text : String) : Nat :=
  let ds := match text.toList with
    | '+' :: r => r
    | r => r
  if !ds.isEmpty && ds.all isDigit && digitsValue ds < UInt64.size then digitsValue ds else 0

def bump (env : Environment) : Environment :=
  let next := versionNumber (env.metadata.resourceVersion.getD "") + 1
  { env with metadata := { env.metadata with resourceVersion := some (toString next) } }

/-- The record that a write replaces, if it is there and is the version that was read. -/
def current (s : Store) (env : Environment) : Except Failure Environment :=
  match s.record? env.key with
  | none => .error (.rejected 404 "NotFound" (env.name ++ " not found"))
  | some stored =>
    if stored.metadata.resourceVersion == env.metadata.resourceVersion then .ok stored
    else .error (.rejected 409 "Conflict" (env.name ++ " has been modified"))

def revise (s : Store) (key : RecordKey) (env : Environment) : Store := s.putRecord key (bump env)

def withFinalizers (env : Environment) (finalizers : List String) : Environment :=
  { env with metadata := { env.metadata with finalizers := some finalizers } }

/-- Stores a record after finalizers have been removed; one that is being deleted and is held by
none any more goes away. -/
def settle (s : Store) (key : RecordKey) (env : Environment) : Store :=
  if env.metadata.isDeleting && env.metadata.heldBy.isEmpty then s.eraseRecord key
  else s.revise key env

/-- Requests the deletion of a record. One that is held stays, marked with the time of the first
request. -/
def deleteRecord (s : Store) (key : RecordKey) : Store :=
  match s.record? key with
  | none => s
  | some env =>
    if env.metadata.heldBy.isEmpty then s.eraseRecord key
    -- A second request changes nothing, not even the version.
    else if env.metadata.isDeleting then s
    else s.revise key
      { env with metadata := { env.metadata with deletionTimestamp := some s.now } }

/-- The finalizers that hold an object. -/
def objectIsHeld (object : Json) : Bool :=
  (object.follow ["metadata", "finalizers"]).items?.any (!·.isEmpty)

/-- The same object, marked as being deleted since a given time unless it is marked already. -/
def markDeleting (now : Instant) (object : Json) : Json :=
  let metadata := object.follow ["metadata"]
  if ((metadata.get? "deletionTimestamp").getD .null).isNull then
    object.set "metadata" (metadata.set "deletionTimestamp" (.ofInstant now))
  else object

/-- Requests the deletion of an object and says whether there is one. -/
def deleteObject (s : Store) (key : String) : Bool × Store :=
  match s.object? key with
  | none => (false, s)
  | some object =>
    if objectIsHeld object then (true, s.putObject key (markDeleting s.now object))
    else (true, s.eraseObject key)

def readObject (s : Store) (target : Address) : Except Failure (Option StoredObject) :=
  match s.object? target.text with
  | none => .ok none
  | some object =>
    match StoredObject.read? object with
    | some stored => .ok (some stored)
    | none => .error (.serialization (some target.kind.kind) "undecodable object")

def recordsIn (s : Store) (ns : String) : List Environment :=
  (s.records.filter (·.1.ns == ns)).map (·.2)

/-- A write to a record: what it makes of the record as it is stored, and how that is stored. -/
def write (s : Store) (env : Environment) (change : Environment → Environment)
    (put : Store → RecordKey → Environment → Store) : Except Failure Store :=
  (s.current env).map fun stored => put s env.key (change stored)

def answerWrite (s : Store) : Except Failure Store → Except Failure Unit × Store
  | .ok after => (.ok (), after)
  | .error e => (.error e, s)

/-- Answers a call that no fault makes fail. -/
def serve (s : Store) : (c : Call) → c.Answer × Store
  | .getEnvironment name ns => (.ok (s.record? ⟨ns, name⟩), s)
  | .listEnvironments ns => (.ok (s.recordsIn ns), s)
  | .patchStatus env status =>
    match s.current env with
    | .ok stored =>
      -- Only the status is taken from the writer; a new spec or new labels stay as stored.
      let updated := bump { stored with status := some status }
      (.ok updated, s.putRecord env.key updated)
    | .error e => (.error e, s)
  | .addFinalizer env =>
    s.answerWrite <| s.write env
      (fun stored =>
        withFinalizers stored (stored.metadata.heldBy ++ [Environment.cleanupFinalizer]))
      revise
  | .removeFinalizer env =>
    s.answerWrite <| s.write env
      (fun stored => withFinalizers stored
        (stored.metadata.heldBy.filter (· != Environment.cleanupFinalizer)))
      settle
  | .deleteEnvironment name ns => (.ok (), s.deleteRecord ⟨ns, name⟩)
  | .apply m => (.ok (), s.putObject m.target.text m.object)
  | .getObject target => (s.readObject target, s)
  | .deleteObject target =>
    let (found, after) := s.deleteObject target.text
    (.ok found, after)
  | .listPods ns => (.ok (s.podsIn ns), s)

def spend (s : Store) : Call → Store
  | .listEnvironments _ => s.advance s.listSeconds
  | _ => s

/-- Answers a call: by the first fault that applies to it, or else as the cluster does. -/
def answer (s : Store) (c : Call) : c.Answer × Store :=
  match Fault.strike c s.faults with
  -- A call that fails changes nothing, but it takes its time.
  | some (e, faults) => (.error e, { s with faults := faults }.spend c)
  | none =>
    let (answer, after) := s.serve c
    (answer, after.spend c)

/-! ## Other writers -/

/-- Changes a record as others do: with a new version, and only if it is there. -/
def edit? (s : Store) (key : RecordKey) (change : Environment → Environment) : Option Store :=
  (s.record? key).map fun env => s.revise key (change env)

def withSpec (spec : Spec) (env : Environment) : Environment :=
  { env with
    spec := spec
    metadata := { env.metadata with
      generation := some ((env.metadata.generation.getD 0) + 1) } }

def withStatus (status : Option Status) (env : Environment) : Environment :=
  { env with status := status }

def withMarks (labels annotations : Option (List (String × String))) (env : Environment) :
    Environment :=
  { env with metadata := { env.metadata with labels := labels, annotations := annotations } }

end Store
end PreviewControl
