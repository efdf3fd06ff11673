import PreviewControl.Object.Schema

/-!
# Forms of API objects

The forms of the API objects that the operator writes or reads with their full type, pods and
resource definitions apart: object metadata, namespaces, resource quotas and ingresses.
-/
namespace PreviewControl.Form

open Schema

/-- A reference from an object to one that owns it. -/
def ownerReference : Schema := record "OwnerReference"
  [req "apiVersion" text, opt "blockOwnerDeletion" boolean, opt "controller" boolean,
   req "kind" text, req "name" text, req "uid" text]

/-- Which fields of an object one of its writers has set. -/
def managedFields : Schema := record "ManagedFieldsEntry"
  [opt "apiVersion" text, opt "fieldsType" text, opt "fieldsV1" any, opt "manager" text,
   opt "operation" text, opt "subresource" text, opt "time" instant]

def metadataFields : List (String × Bool × Schema) :=
  [opt "annotations" (entries text), opt "creationTimestamp" instant,
   opt "deletionGracePeriodSeconds" int64, opt "deletionTimestamp" instant,
   opt "finalizers" (items text), opt "generateName" text, opt "generation" int64,
   opt "labels" (entries text), opt "managedFields" (items managedFields), opt "name" text,
   opt "namespace" text, opt "ownerReferences" (items ownerReference), opt "resourceVersion" text,
   opt "selfLink" text, opt "uid" text]

def metadata : Schema := record "ObjectMeta" metadataFields

/-- A condition that another controller reports on objects of some kind. -/
def reportedCondition (type : String) : Schema := record type
  [opt "lastTransitionTime" instant, opt "message" text, opt "reason" text, req "status" text,
   req "type" text]

def «namespace» : Schema := kinded "v1" "Namespace"
  [req "metadata" metadata, opt "spec" (record "NamespaceSpec" [opt "finalizers" (items text)]),
   opt "status" (record "NamespaceStatus"
     [opt "conditions" (items (reportedCondition "NamespaceCondition")), opt "phase" text])]

/-- One requirement on the scopes of a quota. -/
def scopeRequirement : Schema := record "ScopedResourceSelectorRequirement"
  [req "operator" text, req "scopeName" text, opt "values" (items text)]

def resourceQuota : Schema := kinded "v1" "ResourceQuota"
  [req "metadata" metadata,
   opt "spec" (record "ResourceQuotaSpec" [opt "hard" (entries text),
     opt "scopeSelector" (record "ScopeSelector" [opt "matchExpressions" (items scopeRequirement)]),
     opt "scopes" (items text)]),
   opt "status" (record "ResourceQuotaStatus" [opt "hard" (entries text),
     opt "used" (entries text)])]

/-- Where an ingress sends requests: to a service, or to another object. -/
def ingressBackend : Schema := record "IngressBackend"
  [opt "resource" (record "TypedLocalObjectReference" [opt "apiGroup" text, req "kind" text,
     req "name" text]),
   opt "service" (record "IngressServiceBackend" [req "name" text,
     opt "port" (record "ServiceBackendPort" [opt "name" text, opt "number" int32])])]

def ingressRule : Schema := record "IngressRule"
  [opt "host" text,
   opt "http" (record "HTTPIngressRuleValue"
     [req "paths" (items (record "HTTPIngressPath" [req "backend" ingressBackend, opt "path" text,
        req "pathType" text]))])]

def ingressPoint : Schema := record "IngressLoadBalancerIngress"
  [opt "hostname" text, opt "ip" text,
   opt "ports" (items (record "IngressPortStatus" [opt "error" text, req "port" int32,
     req "protocol" text]))]

def ingress : Schema := kinded "networking.k8s.io/v1" "Ingress"
  [req "metadata" metadata,
   opt "spec" (record "IngressSpec" [opt "defaultBackend" ingressBackend,
     opt "ingressClassName" text, opt "rules" (items ingressRule),
     opt "tls" (items (record "IngressTLS" [opt "hosts" (items text), opt "secretName" text]))]),
   opt "status" (record "IngressStatus"
     [opt "loadBalancer" (record "IngressLoadBalancerStatus"
        [opt "ingress" (items ingressPoint)])])]

end PreviewControl.Form
