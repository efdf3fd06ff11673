import PreviewControl.Child.Namespace

/-!
# Ingress and route table

The ingress of an environment: one path of the environment's host for every service. The frontend
answers at the root, which comes last, so that it never hides a longer path.
-/
namespace PreviewControl.Child

structure Route where
  path : String
  service : String
deriving DecidableEq, Repr, Inhabited

namespace Route

def pathOf (frontend service : String) : String :=
  if service = frontend then "/" else "/" ++ service

def of (frontend service : String) : Route := ⟨pathOf frontend service, service⟩

/-- Keeps the first of all routes with the same path. -/
def firsts : List Route → List Route
  | [] => []
  | r :: rs => r :: (firsts rs).filter (·.path != r.path)

/-- Whether `a` may stand before `b`: the root comes last, longer paths come first, and paths of one
length are in order. -/
def precedes (a b : Route) : Bool :=
  -- A path that begins with another one is longer, so it is met first.
  if (a.path == "/") != (b.path == "/") then b.path == "/"
  else if a.path.utf8ByteSize != b.path.utf8ByteSize then b.path.utf8ByteSize < a.path.utf8ByteSize
  else a.path ≤ b.path

def table (services : List String) (frontend : String) : List Route :=
  (firsts (services.map (of frontend))).mergeSort precedes

end Route

def ingressName : String := "preview"

/-- The annotations of the ingress, which ask for a certificate and for a name. -/
def ingressAnnotations (env : Environment) (config : Config) : List (String × String) :=
  [("cert-manager.io/cluster-issuer", config.clusterIssuer),
   ("external-dns.alpha.kubernetes.io/hostname", config.hostFor env.spec.prNumber)] ++
  env.ownerAnnotations

def ingressPath (pr : UInt32) (port : Int) (route : Route) : Json :=
  .obj [("path", .str route.path), ("pathType", .str "Prefix"),
    ("backend", .obj [("service", .obj [("name", .str (backendName pr route.service)),
      ("port", .obj [("number", .int port)])])])]

def ingressOf (env : Environment) (ns : String) (config : Config) (routes : List Route) : Json :=
  let pr := env.spec.prNumber
  let host := config.hostFor pr
  objectOf .ingress
    (metadataOf env ingressName (some ns) (ingressAnnotations env config))
    [("spec", .obj
      [("ingressClassName", .str config.ingressClass),
       ("rules", .arr [.obj [("host", .str host),
         ("http", .obj [("paths", .arr (routes.map (ingressPath pr config.servicePort)))])]]),
       ("tls", .arr [.obj [("hosts", .texts [host]), ("secretName", .str (tlsSecretName pr))]])])]

/-- The ingress of an environment; without services there is none. -/
def ingressObject? (env : Environment) (ns : String) (config : Config) : Option Json :=
  match Route.table env.spec.uniqueServices config.frontendService with
  | [] => none
  | routes => some (ingressOf env ns config routes)

def ingressAddress (ns : String) : Address := ⟨.ingress, ingressName, some ns⟩

end PreviewControl.Child
