import PreviewControl.Digest.Sha256
import PreviewControl.Environment.Record

/-!
# Names of children

The names of an environment's children. The namespace carries a hash of repository and number, so
that equal numbers in different repositories stay apart.
-/
namespace PreviewControl

/-- The text that the hash in a namespace's name is taken of. -/
def Spec.namespaceKey (s : Spec) : String :=
  s.repository.fullName ++ "#" ++ toString s.prNumber.toNat

/-- The namespace of an environment's children: the number and six digits of the hash. -/
def Spec.namespaceName (s : Spec) : String :=
  "pr-" ++ toString s.prNumber.toNat ++ "-" ++
    String.ofList ((Sha256.ofText s.namespaceKey).toList.take 6)

/-- The recorded namespace, or the derived one before there is a record of it. -/
def Environment.childNamespace (env : Environment) : String :=
  (env.status.bind (·.ns)).getD env.spec.namespaceName

namespace Child

def applicationSetName (pr : UInt32) : String := "preview-" ++ toString pr.toNat

def applicationName (pr : UInt32) (service : String) : String := Spec.serviceName pr service

def backendName (pr : UInt32) (service : String) : String := Spec.serviceName pr service

def tlsSecretName (pr : UInt32) : String := "pr-" ++ toString pr.toNat ++ "-tls"

end Child
end PreviewControl
