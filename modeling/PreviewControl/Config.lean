import PreviewControl.Numeric.Decimal

/-!
# Configuration of an installation

What an installation of the operator can set, with the values of a single-cluster installation.
-/
namespace PreviewControl

/-- The prices of an hour. -/
structure Rates where
  cpuCoreHour : Binary64
  memoryGbHour : Binary64
deriving Inhabited

/-- The prices that hold unless an installation sets others. -/
def Rates.standard : Rates := ⟨.ofRatio false 4 100, .ofRatio false 5 1000⟩

/-- What an installation can set. -/
structure Config where
  /-- The domain that the hosts of environments belong to. -/
  baseDomain : String := "preview.local"
  controlNamespace : String := "preview-system"
  /-- The namespace that deployments are described in. -/
  gitopsNamespace : String := "argocd"
  gitopsProject : String := "default"
  /-- The API server that deployments go to. -/
  destinationServer : String := "https://kubernetes.default.svc"
  clusterIssuer : String := "letsencrypt-prod"
  ingressClass : String := "nginx"
  /-- The namespace of the ingress controller, which network policies let in. -/
  ingressControllerNamespace : String := "ingress-nginx"
  frontendService : String := "frontend"
  servicePort : Int := 80
  defaultQuotaCpu : String := "4"
  defaultQuotaMemory : String := "8Gi"
  defaultQuotaPods : UInt32 := 20
  cpuCoreHourPrice : Binary64 := Rates.standard.cpuCoreHour
  memoryGbHourPrice : Binary64 := Rates.standard.memoryGbHour
  requeueSeconds : Nat := 300
  cleanupSeconds : Nat := 300
deriving Inhabited

namespace Config

def hostFor (config : Config) (pr : UInt32) : String :=
  "pr-" ++ toString pr.toNat ++ "." ++ config.baseDomain

def urlFor (config : Config) (pr : UInt32) : String := "https://" ++ config.hostFor pr

def rates (config : Config) : Rates := ⟨config.cpuCoreHourPrice, config.memoryGbHourPrice⟩

end Config
end PreviewControl
