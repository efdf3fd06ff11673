import PreviewControl.Child.Upkeep
import PreviewControl.Environment.Transition

/-!
# The pass over a record

One pass over a record: read it, hold it by the finalizer, put its children in place, observe them
and write what has changed; or, once its deletion is requested, remove the children and let it go.
-/
namespace PreviewControl.Reconcile

inductive Requeue where
  | after (seconds : Nat)
  | onChange
deriving DecidableEq, Repr

/-- Writes a status if it differs from the one that is stored in more than the time of writing. The
result is the record as it is after the write, if there was one. -/
def writeChanged (env : Environment) (current next : Status) (now : Instant) :
    Pass (Option Environment) :=
  if current.differs next then do
    return some (← Pass.request (.patchStatus env (next.stamped now)))
  else return none

/-- The event that a change of phase calls for. -/
def phaseEvent? (config : Config) (env : Environment) (note : Option String) :
    Option Phase → Option Event
  | some .provisioning => some (.converging env .normal "Provisioning" note)
  | some .ready =>
    some (.converging env .normal "Ready" (some (config.urlFor env.spec.prNumber)))
  | some .failed => some (.converging env .warning "Degraded" note)
  | _ => none

def reportIf : Option Event → Pass Unit
  | some event => Pass.report event
  | none => return

/-- Marks a record as being deleted, as far as that succeeds. The result is the newest version of
the record that is known. -/
def markTerminating (env : Environment) (now : Instant) : Pass Environment :=
  if env.phase? = some .terminating then return env
  else do
    match ← Pass.inquire (.patchStatus env (env.known.terminating now)) with
    | .ok updated => return updated
    -- The mark only informs; the children are removed without it.
    | .error _ => return env

/-- Removes children one after the other, up to the first that cannot be removed. -/
def removeAll (config : Config) (env : Environment) (ns : String) : List Child → Pass Unit
  | [] => return
  | child :: children => do
    match ← (child.remove config env ns).attempt with
    | .ok () => removeAll config env ns children
    | .error e =>
      Pass.report (.cleaning env .warning "CleanupFailed" (some (child.kind ++ ": " ++ e.message)))
      .fail e

/-- Removes the children of a record, the last one first, and lets the record go. -/
def release (config : Config) (env : Environment) (now : Instant) : Pass Requeue := do
  -- To release the version from before the mark would be a conflict with the mark itself.
  let latest ← markTerminating env now
  removeAll config env env.childNamespace Child.all.reverse
  let () ← Pass.request (.removeFinalizer latest)
  Pass.report (.cleaning env .normal "CleanupComplete" none)
  return .onChange

def refuse (env : Environment) (fault : Failure) (now : Instant) : Pass Requeue := do
  let next ← .ofTime (env.known.refused? env fault.message now)
  if (← writeChanged env env.known next now).isSome then
    Pass.report (.converging env .warning "InvalidSpec" (some fault.message))
  return .onChange

/-- Enters the status of first contact, unless a namespace is recorded already. The result is the
record to write to next and the status it has. -/
def firstContact (config : Config) (env : Environment) (now : Instant) :
    Pass (Environment × Status) :=
  if env.known.ns.isSome then return (env, env.known)
  else do
    -- The namespace is recorded before anything is put into it, so that deletion finds it again.
    let accepted ← .ofTime (Status.accepted? env env.known config now)
    let updated ← Pass.request (.patchStatus env accepted)
    return (updated, accepted)

/-- Puts children in place one after the other. One that fails does not keep the others from being
tried; the result is the first failure. -/
def ensureAll (config : Config) (env : Environment) (ns : String) :
    List Child → Pass (Option Failure)
  | [] => return none
  | child :: children => do
    match ← (child.ensure config env ns).attempt with
    | .ok () => ensureAll config env ns children
    | .error e =>
      -- The failures of the others go unsaid.
      let _ ← ensureAll config env ns children
      return some e

def costOf (config : Config) (env : Environment) (ns : String) : Pass (Option CostEstimate) := do
  match ← Pass.inquire (.listPods ns) with
  | .ok pods => return some (.of pods (CostEstimate.hoursOf env.spec.ttlSeconds) config.rates)
  | .error _ => return none

/-- The health of the deployments, if all of it can be read. -/
def healthOf (config : Config) (env : Environment) : Pass (Option Health) := do
  return (← (Child.deploymentHealth config env).attempt).toOption

/-- Puts the children in place, observes them and writes what has changed. -/
def converge (config : Config) (record : Environment) (now : Instant) : Pass Requeue := do
  let (env, current) ← firstContact config record now
  let ns := current.ns.getD env.spec.namespaceName
  let fault ← ensureAll config env ns Child.all
  reportIf (fault.map fun e => .converging env .warning "MaterializeFailed" (some e.message))
  let cost ← costOf config env ns
  let health ← healthOf config env
  let observation : Observation := ⟨ns, fault.map (·.message), health, cost⟩
  let next := Status.next env current observation config now
  let written ← writeChanged env current next now
  -- Only a change of phase that has been written is reported.
  if written.isSome ∧ current.phase ≠ next.phase then
    reportIf (phaseEvent? config env (health.bind (·.message)) next.phase)
  -- The failure of a child is the failure of the pass, but not before the status says so.
  match fault with
  | some e => .fail e
  | none => return .after config.requeueSeconds

/-- Acts on a record as it is stored. -/
def step (config : Config) (name : String) (env : Environment) (now : Instant) : Pass Requeue := do
  if env.metadata.isDeleting then
    if env.hasFinalizer then release config env now else return .onChange
  else if !env.hasFinalizer then
    -- Nothing is put in place for a record that could go away before its children.
    let () ← Pass.request (.addFinalizer env)
    return .after 0
  else match env.spec.validate name with
    | .error fault => refuse env fault now
    | .ok () => converge config env now

/-- Acts on the record that a notice is about. Only the name in the notice counts; the record itself
may have changed since. -/
def act (config : Config) (notice : Metadata) (now : Instant) : Pass Requeue := do
  match notice.ns with
  | none => .fail (.invalid notice.anyName (some "metadata.namespace")
      "PreviewEnvironment must be namespaced")
  | some ns =>
    match ← Pass.request (.getEnvironment notice.anyName ns) with
    | none => return .onChange
    | some env => step config notice.anyName env now

def pass (config : Config) (notice : Metadata) (now : Instant) : Pass Requeue := do
  match ← (act config notice now).attempt with
  | .ok requeue =>
    Pass.measure (.passEnded true)
    return requeue
  | .error e =>
    Pass.measure (.passEnded false)
    Pass.measure (.passFailed e.isRetryable)
    .fail e

/-- When a record is looked at again after a pass over it has failed: soon after a conflict, later
if the failure may pass, and otherwise not before it changes. -/
def afterFailure (e : Failure) : Requeue :=
  if e.isConflict then .after 1 else if e.isRetryable then .after 30 else .onChange

end PreviewControl.Reconcile
