import PreviewControl.Definition
import PreviewControl.Http.Client
import PreviewControl.Object.Form.Definition
import PreviewControl.Startup.Wait

/-!
# Installing the definition

Installing the definition of the environment resource: it is applied, and then read again until the
API server serves it.
-/
namespace PreviewControl.Install

open Http

/-- The form of the definition as it is read back. -/
def readDefinition? (j : Json) : Option Json := Form.customResourceDefinition.normalize j

/-- What is wrong with a text that should hold the definition. -/
def definitionFault? : String → Option Json.Fault :=
  Json.Inspection.fault? Form.customResourceDefinition.inspect

def saysEstablished (condition : Json) : Bool :=
  condition.get? "type" == some (.str "Established") &&
    condition.get? "status" == some (.str "True")

def isEstablished (definition : Json) : Bool :=
  ((definition.follow ["status", "conditions"]).items?.getD []).any saysEstablished

def timeout : Nat := 60000

def interval : Nat := 2000

def description : String := "PreviewEnvironment CRD to be established"

variable {m : Type → Type} [Monad m]

def apply (send : Request → m Exchange) : m (Except Failure Unit) :=
  sendThen send
    (objectRequest .patch Definition.kind none Definition.name "" (("force", "true") :: inName)
      (some (applyPatch, Definition.object))) fun e =>
    ignoring (valueOf e readDefinition? definitionFault?)

/-- What one look at the definition finds. -/
def finding : Except Failure (Option Json) → Wait.Finding Unit
  | .ok (some definition) => if isEstablished definition then .ready () else .notReady
  | .ok none => .notReady
  | .error e => .failed e.clientText

def look (send : Request → m Exchange) : m (Wait.Poll Unit) := do
  let found ← sendThen send
    (objectRequest .get Definition.kind none Definition.name "" [] none) fun e =>
    objectOf? e readDefinition? definitionFault?
  return ⟨finding found, 0⟩

/-- Installs the definition, with a pause between two looks. The error is the message to stop with.
-/
def install (pause : m Unit) (send : Request → m Exchange) : m (Except String Unit) := do
  match ← apply send with
  | .error e => return .error ("failed to install PreviewEnvironment CRD: " ++ e.clientText)
  | .ok () =>
    Wait.waitFor description timeout interval fun k => do
      if 0 < k then pause
      look send

end PreviewControl.Install
