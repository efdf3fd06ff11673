import PreviewControl.Config
import PreviewControl.Environment.Status
import PreviewControl.Object.Form.Pod
import PreviewControl.Object.Metadata
import PreviewControl.Quantity

/-!
# Cost of an environment

What an environment costs: the requests of all containers, summed as doubles in the order in which
the containers stand, at the prices of the installation. Requests that cannot be read count nothing.
-/
namespace PreviewControl

structure Container where
  requests : Option (List (String × String))
deriving DecidableEq, Inhabited

structure Pod where
  name : Option String
  /-- The containers of the pod's spec, if it has one. -/
  containers : Option (List Container)
deriving DecidableEq, Inhabited

namespace Pod

def containerOf (j : Json) : Container := ⟨(j.follow ["resources", "requests"]).textMap?⟩

/-- Reads a pod and keeps what its cost depends on. -/
def read? (j : Json) : Option Pod := do
  let pod ← Form.pod.normalize j
  return {
    name := (pod.follow ["metadata", "name"]).text?
    containers := (pod.follow ["spec", "containers"]).items?.map (·.map containerOf) }

end Pod

structure Requests where
  cpuCores : Binary64 := .ofNat 0
  memoryGb : Binary64 := .ofNat 0

namespace Requests

/-- The value of one request, if it is stated and can be read. -/
def amount? (container : Container) (resource : String) (read : String → Option Binary64) :
    Option Binary64 :=
  container.requests.bind fun given => (given.lookup resource).bind read

def plus (total : Binary64) : Option Binary64 → Binary64
  | some x => total + x
  | none => total

def add (total : Requests) (container : Container) : Requests where
  cpuCores := plus total.cpuCores (amount? container "cpu" Quantity.cores?)
  memoryGb := plus total.memoryGb (amount? container "memory" Quantity.gigabytes?)

def containersOf (pods : List Pod) : List Container := pods.flatMap (·.containers.getD [])

def sum (pods : List Pod) : Requests := (containersOf pods).foldl add {}

end Requests

namespace CostEstimate

def hourlyOf (requests : Requests) (rates : Rates) : Binary64 :=
  requests.cpuCores * rates.cpuCoreHour + requests.memoryGb * rates.memoryGbHour

/-- What the pods cost for an hour and for the whole time to live. -/
def of (pods : List Pod) (ttlHours : Binary64) (rates : Rates) : CostEstimate :=
  -- The total is taken from the unrounded cost of an hour.
  let hourly := hourlyOf (Requests.sum pods) rates
  ⟨"USD", hourly.toFixed 4, (hourly * ttlHours).toFixed 4⟩

def hoursOf (seconds : Nat) : Binary64 := .ofNat seconds / .ofNat 3600

end CostEstimate
end PreviewControl
