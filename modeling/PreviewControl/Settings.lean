import PreviewControl.Config

/-!
# Settings

The settings of a running operator. Each has a flag on the command line and a variable in the
environment; the flag counts before the variable, and the variable before the built-in value. All
three are texts, which the setting reads in the same way.
-/
namespace PreviewControl

/-- What can be set for an operator. -/
structure Settings where
  baseDomain : String
  controlNamespace : String
  gitopsNamespace : String
  gitopsProject : String
  destinationServer : String
  clusterIssuer : String
  ingressClass : String
  ingressControllerNamespace : String
  frontendService : String
  cpuCoreHourPrice : Binary64
  memoryGbHourPrice : Binary64
  requeueSeconds : Nat
  cleanupSeconds : Nat
  /-- Deployments are watched, so that changes of their health show sooner. -/
  watchGitops : Bool
  /-- Where telemetry is sent to. -/
  otlpEndpoint : Option String
deriving Inhabited

/-- The configuration with the settings in it. The port and the default quotas cannot be set. -/
def Settings.config (s : Settings) : Config where
  baseDomain := s.baseDomain
  controlNamespace := s.controlNamespace
  gitopsNamespace := s.gitopsNamespace
  gitopsProject := s.gitopsProject
  destinationServer := s.destinationServer
  clusterIssuer := s.clusterIssuer
  ingressClass := s.ingressClass
  ingressControllerNamespace := s.ingressControllerNamespace
  frontendService := s.frontendService
  cpuCoreHourPrice := s.cpuCoreHourPrice
  memoryGbHourPrice := s.memoryGbHourPrice
  requeueSeconds := s.requeueSeconds
  cleanupSeconds := s.cleanupSeconds

inductive Flag where
  | baseDomain
  | controlNamespace
  | gitopsNamespace
  | gitopsProject
  | destinationServer
  | clusterIssuer
  | ingressClass
  | ingressControllerNamespace
  | frontendService
  | cpuCoreHourPrice
  | memoryGbHourPrice
  | requeueSeconds
  | cleanupSeconds
  | watchGitops
  | otlpEndpoint
deriving DecidableEq, Repr

/-- Why settings cannot be taken from the command line and the environment. -/
inductive ArgumentFault where
  | unknown (word : String)
  | noValue (flag : Flag)
  | unreadable (flag : Flag) (value : String)
  | notAChoice (flag : Flag) (value : String)
  | repeated (flag : Flag)
  /-- A word that takes no value has one. -/
  | unneededValue (word : String)
  | helpWanted
deriving DecidableEq, Repr

namespace Flag

/-- All flags in the order in which they are looked up in the environment. -/
def all : List Flag :=
  [baseDomain, controlNamespace, gitopsNamespace, gitopsProject, destinationServer, clusterIssuer,
   ingressClass, ingressControllerNamespace, frontendService, cpuCoreHourPrice,
   memoryGbHourPrice, requeueSeconds, cleanupSeconds, watchGitops, otlpEndpoint]

/-- The name of a flag, without the two hyphens in front of it. -/
def name : Flag → String
  | baseDomain => "base-domain"
  | controlNamespace => "control-namespace"
  | gitopsNamespace => "gitops-namespace"
  | gitopsProject => "gitops-project"
  | destinationServer => "destination-server"
  | clusterIssuer => "cluster-issuer"
  | ingressClass => "ingress-class"
  | ingressControllerNamespace => "ingress-controller-namespace"
  | frontendService => "frontend-service"
  | cpuCoreHourPrice => "cpu-core-hour-price"
  | memoryGbHourPrice => "memory-gb-hour-price"
  | requeueSeconds => "requeue-interval-secs"
  | cleanupSeconds => "cleanup-interval-secs"
  | watchGitops => "watch-gitops"
  | otlpEndpoint => "otlp-endpoint"

def «variable» : Flag → String
  | baseDomain => "PREVIEW_BASE_DOMAIN"
  | controlNamespace => "PREVIEW_CONTROL_NAMESPACE"
  | gitopsNamespace => "PREVIEW_GITOPS_NAMESPACE"
  | gitopsProject => "PREVIEW_GITOPS_PROJECT"
  | destinationServer => "PREVIEW_DESTINATION_SERVER"
  | clusterIssuer => "PREVIEW_CLUSTER_ISSUER"
  | ingressClass => "PREVIEW_INGRESS_CLASS"
  | ingressControllerNamespace => "PREVIEW_INGRESS_CONTROLLER_NAMESPACE"
  | frontendService => "PREVIEW_FRONTEND_SERVICE"
  | cpuCoreHourPrice => "PREVIEW_CPU_CORE_HOUR_PRICE"
  | memoryGbHourPrice => "PREVIEW_MEMORY_GB_HOUR_PRICE"
  | requeueSeconds => "PREVIEW_REQUEUE_INTERVAL_SECS"
  | cleanupSeconds => "PREVIEW_CLEANUP_INTERVAL_SECS"
  | watchGitops => "PREVIEW_WATCH_GITOPS"
  | otlpEndpoint => "OTEL_EXPORTER_OTLP_ENDPOINT"

/-- The text that counts if neither the flag nor the variable is there. -/
def builtIn? : Flag → Option String
  | baseDomain => some "preview.local"
  | controlNamespace => some "preview-system"
  | gitopsNamespace => some "argocd"
  | gitopsProject => some "default"
  | destinationServer => some "https://kubernetes.default.svc"
  | clusterIssuer => some "letsencrypt-prod"
  | ingressClass => some "nginx"
  | ingressControllerNamespace => some "ingress-nginx"
  | frontendService => some "frontend"
  | cpuCoreHourPrice => some "0.04"
  | memoryGbHourPrice => some "0.005"
  | requeueSeconds => some "300"
  | cleanupSeconds => some "300"
  | watchGitops => some "false"
  | otlpEndpoint => none

/-- The one flag without a value is a switch. -/
def isSwitch : Flag → Bool
  | watchGitops => true
  | _ => false

def ofName? (name : String) : Option Flag := all.find? (·.name == name)

def seconds? (value : String) : Option Nat :=
  let ds := match value.toList with
    | '+' :: r => r
    | r => r
  if ds.isEmpty || !ds.all isDigit then none
  else if digitsValue ds < UInt64.size then some (digitsValue ds) else none

def need {α : Type} (flag : Flag) (value : String) (read : String → Option α) :
    Except ArgumentFault α :=
  match read value with
  | some a => .ok a
  | none => .error (.unreadable flag value)

def price? (value : String) : Option Binary64 := Binary64.read? value.toList

def set (value : String) (s : Settings) : Flag → Except ArgumentFault Settings
  | baseDomain => .ok { s with baseDomain := value }
  | controlNamespace => .ok { s with controlNamespace := value }
  | gitopsNamespace => .ok { s with gitopsNamespace := value }
  | gitopsProject => .ok { s with gitopsProject := value }
  | destinationServer => .ok { s with destinationServer := value }
  | clusterIssuer => .ok { s with clusterIssuer := value }
  | ingressClass => .ok { s with ingressClass := value }
  | ingressControllerNamespace => .ok { s with ingressControllerNamespace := value }
  | frontendService => .ok { s with frontendService := value }
  | cpuCoreHourPrice =>
    (need cpuCoreHourPrice value price?).map ({ s with cpuCoreHourPrice := · })
  | memoryGbHourPrice =>
    (need memoryGbHourPrice value price?).map ({ s with memoryGbHourPrice := · })
  | requeueSeconds => (need requeueSeconds value seconds?).map ({ s with requeueSeconds := · })
  | cleanupSeconds => (need cleanupSeconds value seconds?).map ({ s with cleanupSeconds := · })
  | watchGitops =>
    if value = "true" then .ok { s with watchGitops := true }
    else if value = "false" then .ok { s with watchGitops := false }
    else .error (.notAChoice watchGitops value)
  | otlpEndpoint => .ok { s with otlpEndpoint := some value }

end Flag

namespace Settings

/-- The text of a setting: that of its flag, else that of its variable, else the built-in one. -/
def textOf? (given : List (Flag × String)) (vars : List (String × String)) (flag : Flag) :
    Option String :=
  given.lookup flag <|> vars.lookup flag.variable <|> flag.builtIn?

/-- Sets one setting, if it has a text. -/
def take (given : List (Flag × String)) (vars : List (String × String)) (s : Settings)
    (flag : Flag) : Except ArgumentFault Settings :=
  match textOf? given vars flag with
  | some value => flag.set value s
  | none => .ok s

/-- The settings out of the flags that are given and the variables that are set. -/
def resolve (given : List (Flag × String)) (vars : List (String × String)) :
    Except ArgumentFault Settings :=
  Flag.all.foldlM (take given vars) default

end Settings
end PreviewControl
