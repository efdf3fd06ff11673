import PreviewControl.Cost
import PreviewControl.Environment.Ownership

/-!
# Calls, events and measurements

What the operator asks of a cluster, what the answers look like, the events it reports on records
and the measurements it takes.
-/
namespace PreviewControl

/-- A request to the cluster. Requests that write a record carry the record as it was last read, so
that a write based on an old version can be refused. -/
inductive Call where
  | getEnvironment (name ns : String)
  | listEnvironments (ns : String)
  | patchStatus (env : Environment) (status : Status)
  | addFinalizer (env : Environment)
  | removeFinalizer (env : Environment)
  | deleteEnvironment (name ns : String)
  | apply (manifest : Manifest)
  | getObject (target : Address)
  | deleteObject (target : Address)
  | listPods (ns : String)

/-- What a successful answer to a request holds. An object that does not exist is an answer; the
answer to a deletion of an object says whether there was one. -/
@[reducible] def Call.Reply : Call → Type
  | getEnvironment .. => Option Environment
  | listEnvironments .. => List Environment
  | patchStatus .. => Environment
  | addFinalizer .. => Unit
  | removeFinalizer .. => Unit
  | deleteEnvironment .. => Unit
  | apply .. => Unit
  | getObject .. => Option StoredObject
  | deleteObject .. => Bool
  | listPods .. => List Pod

abbrev Call.Answer (c : Call) : Type := Except Failure c.Reply

inductive EventType where
  | normal
  | warning
deriving DecidableEq, Repr

def EventType.word : EventType → String
  | normal => "Normal"
  | warning => "Warning"

structure Subject where
  name : Option String
  ns : Option String
  uid : Option String
deriving DecidableEq, Repr

structure Event where
  about : Subject
  type : EventType
  reason : String
  action : String
  note : Option String
deriving DecidableEq, Repr

namespace Event

def converging (env : Environment) (type : EventType) (reason : String) (note : Option String) :
    Event :=
  ⟨⟨env.metadata.name, env.metadata.ns, env.metadata.uid⟩, type, reason, "Reconcile", note⟩

def cleaning (env : Environment) (type : EventType) (reason : String) (note : Option String) :
    Event :=
  ⟨⟨env.metadata.name, env.metadata.ns, env.metadata.uid⟩, type, reason, "Cleanup", note⟩

end Event

/-- A measurement for those who watch the operator. -/
inductive Measurement where
  | passEnded (succeeded : Bool)
  | passFailed (retryable : Bool)
  | phaseCount (phase : Option Phase) (count : Nat)
  | expiryRequested
  | expiryFailed (retryable : Bool)
deriving DecidableEq, Repr

end PreviewControl
