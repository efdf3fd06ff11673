import PreviewControl.Child.Names
import PreviewControl.Config
import PreviewControl.Environment.Ownership
import PreviewControl.Quantity

/-!
# Namespace, quota and network policies

The namespace of an environment with its resource quota, whose limits are twice the requests, and
with the network policies that admit the ingress controller and the namespace itself.
-/
namespace PreviewControl.Child

def metadataOf (env : Environment) (name : String) (ns : Option String)
    (annotations : List (String × String)) : Json :=
  .record [("name", some (.str name)), ("namespace", ns.map .str),
    ("labels", some (.textMap env.identityLabels)), ("annotations", some (.textMap annotations))]

def objectOf (kind : ResourceKind) (metadata : Json) (members : List (String × Json)) : Json :=
  .obj (("apiVersion", .str kind.apiVersion) :: ("kind", .str kind.kind) ::
    ("metadata", metadata) :: members)

def namespaceObject (env : Environment) (ns : String) : Json :=
  objectOf .namespace (metadataOf env ns none env.ownerAnnotations) []

def quotaName : String := "preview-quota"

/-- The requests and limits for one resource. A request that cannot be doubled has no limit. -/
def quotaOn (resource request : String) : List (String × Option String) :=
  [("requests." ++ resource, some request), ("limits." ++ resource, Quantity.scale? request 2)]

/-- What the namespace may use: the spec's own numbers, else those of the installation. -/
def hardQuota (spec : Spec) (config : Config) : List (String × Option String) :=
  let own := spec.resources.getD {}
  quotaOn "cpu" (own.cpu.getD config.defaultQuotaCpu) ++
    quotaOn "memory" (own.memory.getD config.defaultQuotaMemory) ++
    [("pods", some (toString (own.pods.getD config.defaultQuotaPods).toNat))]

def quotaObject (env : Environment) (ns : String) (config : Config) : Json :=
  objectOf .resourceQuota (metadataOf env quotaName (some ns) env.ownerAnnotations)
    [("spec", .obj [("hard",
      .record ((hardQuota env.spec config).map fun q => (q.1, q.2.map .str)))])]

/-- A network policy of the namespace for the pods in it. -/
def policyObject (env : Environment) (ns name : String) (directions : List String)
    (rules : List (String × Json)) : Json :=
  objectOf .networkPolicy (metadataOf env name (some ns) env.ownerAnnotations)
    [("spec", .obj ([("podSelector", .obj []), ("policyTypes", .texts directions)] ++ rules))]

def ownPods : Json := .obj [("podSelector", .obj [])]

def podsOf (ns : String) : Json :=
  .obj [("namespaceSelector",
    .obj [("matchLabels", .obj [("kubernetes.io/metadata.name", .str ns)])])]

def portRule (protocol : String) (port : Int) : Json :=
  .obj [("protocol", .str protocol), ("port", .int port)]

def denyAllPolicy (env : Environment) (ns : String) : Json :=
  policyObject env ns "default-deny-all" ["Ingress", "Egress"] []

/-- The ingress controller and the namespace itself may come in. -/
def allowIngressPolicy (env : Environment) (ns : String) (config : Config) : Json :=
  policyObject env ns "allow-ingress" ["Ingress"]
    [("ingress",
      .arr [.obj [("from", .arr [podsOf config.ingressControllerNamespace, ownPods])]])]

/-- Name service, the namespace itself and the web may be reached. -/
def allowEgressPolicy (env : Environment) (ns : String) : Json :=
  policyObject env ns "allow-egress" ["Egress"]
    [("egress", .arr
      [.obj [("to", .arr [podsOf "kube-system"]),
         ("ports", .arr [portRule "UDP" 53, portRule "TCP" 53])],
       .obj [("to", .arr [ownPods])],
       .obj [("to", .arr [.obj [("ipBlock", .obj [("cidr", .str "0.0.0.0/0")])]]),
         ("ports", .arr [portRule "TCP" 443, portRule "TCP" 80])]])]

def policies (env : Environment) (ns : String) (config : Config) : List Json :=
  [denyAllPolicy env ns, allowIngressPolicy env ns config, allowEgressPolicy env ns]

/-- All objects that make up the namespace, in the order in which they are applied. -/
def namespaceManifests (env : Environment) (ns : String) (config : Config) :
    Except Failure (List Manifest) := do
  let space ← Manifest.of .namespace (namespaceObject env ns)
  let quota ← Manifest.of .resourceQuota (quotaObject env ns config)
  let rest ← (policies env ns config).mapM (Manifest.of .networkPolicy)
  return space :: quota :: rest

def namespaceAddress (ns : String) : Address := ⟨.namespace, ns, none⟩

end PreviewControl.Child
