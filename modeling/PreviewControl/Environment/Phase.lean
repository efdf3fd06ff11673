import PreviewControl.Json.Decode

/-!
# Phases

The phases of an environment's life.
-/
namespace PreviewControl

inductive Phase where
  /-- Accepted, nothing put in place yet. -/
  | pending
  /-- Children applied, deployments not yet healthy. -/
  | provisioning
  | ready
  | testing
  | complete
  /-- A deployment is degraded, or the spec cannot be acted on. -/
  | failed
  /-- Deletion requested, children being removed. -/
  | terminating
  | terminated
deriving DecidableEq, Repr, Inhabited

namespace Phase

/-- All phases in the order of an environment's life. -/
def all : List Phase :=
  [pending, provisioning, ready, testing, complete, failed, terminating, terminated]

def name : Phase → String
  | pending => "Pending"
  | provisioning => "Provisioning"
  | ready => "Ready"
  | testing => "Testing"
  | complete => "Complete"
  | failed => "Failed"
  | terminating => "Terminating"
  | terminated => "Terminated"

def ofName? (name : String) : Option Phase := all.find? (·.name == name)

/-- A phase that belongs to the external test run rather than to the operator. -/
def isExternal : Phase → Bool
  | testing | complete => true
  | _ => false

def read? (j : Json) : Option Phase := j.variant?.bind ofName?

def toJson (p : Phase) : Json := .str p.name

@[simp] theorem ofName?_name (p : Phase) : ofName? p.name = some p := by cases p <;> rfl

@[simp] theorem read?_toJson (p : Phase) : read? p.toJson = some p := by cases p <;> rfl

theorem mem_all (p : Phase) : p ∈ all := by cases p <;> decide

end Phase
end PreviewControl
