import PreviewControl.Config
import PreviewControl.Json.Decode

/-!
# The written form of a configuration

The written form of an installation's configuration: an object of the values that differ from the
built-in ones. Prices are written as numerals in texts, because JSON leaves the precision of numbers
open, and shown by their bits.
-/
namespace PreviewControl

namespace Json

/-- A whole number from zero up to a bound. -/
def natBelow? (bound : Nat) (j : Json) : Option Nat :=
  j.int?.bind fun n => if 0 ≤ n ∧ n < bound then some n.toNat else none

/-- A whole number with sign of so many bits. -/
def signed? (bits : Nat) (j : Json) : Option Int :=
  j.int?.bind fun n => if FitsSigned bits n then some n else none

/-- A double that is written as a numeral in a text. -/
def double? (j : Json) : Option Binary64 := j.text?.bind fun s => Binary64.read? s.toList

def ofDouble (x : Binary64) : Json := .str x.toHex

end Json

namespace Config

def set? (c : Config) (name : String) (j : Json) : Option Config :=
  match name with
  | "base_domain" => j.text?.map ({ c with baseDomain := · })
  | "control_namespace" => j.text?.map ({ c with controlNamespace := · })
  | "gitops_namespace" => j.text?.map ({ c with gitopsNamespace := · })
  | "gitops_project" => j.text?.map ({ c with gitopsProject := · })
  | "destination_server" => j.text?.map ({ c with destinationServer := · })
  | "cluster_issuer" => j.text?.map ({ c with clusterIssuer := · })
  | "ingress_class" => j.text?.map ({ c with ingressClass := · })
  | "ingress_controller_namespace" => j.text?.map ({ c with ingressControllerNamespace := · })
  | "frontend_service" => j.text?.map ({ c with frontendService := · })
  | "service_port" => (j.signed? 32).map ({ c with servicePort := · })
  | "default_quota_cpu" => j.text?.map ({ c with defaultQuotaCpu := · })
  | "default_quota_memory" => j.text?.map ({ c with defaultQuotaMemory := · })
  | "default_quota_pods" => j.uint32?.map ({ c with defaultQuotaPods := · })
  | "cpu_core_hour_price" => j.double?.map ({ c with cpuCoreHourPrice := · })
  | "memory_gb_hour_price" => j.double?.map ({ c with memoryGbHourPrice := · })
  | "requeue_interval_secs" => (Json.natBelow? UInt64.size j).map ({ c with requeueSeconds := · })
  | "cleanup_interval_secs" => (Json.natBelow? UInt64.size j).map ({ c with cleanupSeconds := · })
  | _ => none

/-- Reads a configuration. A name that stands for no value is refused. -/
def read? (j : Json) : Option Config :=
  j.fields?.bind fun fields => fields.foldlM (fun c f => c.set? f.1 f.2) {}

def toJson (c : Config) : Json :=
  .obj [("base_domain", .str c.baseDomain), ("control_namespace", .str c.controlNamespace),
    ("gitops_namespace", .str c.gitopsNamespace), ("gitops_project", .str c.gitopsProject),
    ("destination_server", .str c.destinationServer), ("cluster_issuer", .str c.clusterIssuer),
    ("ingress_class", .str c.ingressClass),
    ("ingress_controller_namespace", .str c.ingressControllerNamespace),
    ("frontend_service", .str c.frontendService), ("service_port", .int c.servicePort),
    ("default_quota_cpu", .str c.defaultQuotaCpu),
    ("default_quota_memory", .str c.defaultQuotaMemory),
    ("default_quota_pods", .ofUInt32 c.defaultQuotaPods),
    ("cpu_core_hour_price", .ofDouble c.cpuCoreHourPrice),
    ("memory_gb_hour_price", .ofDouble c.memoryGbHourPrice),
    ("requeue_interval_secs", .int c.requeueSeconds),
    ("cleanup_interval_secs", .int c.cleanupSeconds)]

end Config
end PreviewControl
