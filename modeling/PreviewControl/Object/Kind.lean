import PreviewControl.Text.LetterCase

/-!
# Kinds of objects

Kinds of objects: the API group and version that serve them, and the plural under which they are
addressed, which is formed from the kind by English spelling.
-/
namespace PreviewControl

/-- A kind of objects and where it is served. -/
structure ResourceKind where
  group : String
  version : String
  apiVersion : String
  kind : String
  plural : String
deriving DecidableEq, Repr, Inhabited

namespace ResourceKind

/-- The group and the version of an API version: what stands before and after its first slash. The
core group has no name and no slash. -/
def splitApiVersion (apiVersion : String) : String × String :=
  let cs := apiVersion.toList
  match cs.dropWhile (· != '/') with
  | _ :: version => (String.ofList (cs.takeWhile (· != '/')), String.ofList version)
  | [] => ("", apiVersion)

/-- The plural of a word, which is given in reverse: `es` after a hiss, `ies` for a `y` that does
not follow `a` or `e`, and `s` otherwise. -/
def pluralOfReversed : List Char → List Char
  | 's' :: r => 's' :: 'e' :: 's' :: r
  | 'h' :: 'c' :: r => 's' :: 'e' :: 'h' :: 'c' :: r
  | 'h' :: 's' :: r => 's' :: 'e' :: 'h' :: 's' :: r
  | 'y' :: 'a' :: r => 's' :: 'y' :: 'a' :: r
  | 'y' :: 'e' :: r => 's' :: 'y' :: 'e' :: r
  | 'y' :: r => 's' :: 'e' :: 'i' :: r
  | r => 's' :: r

def pluralize (kind : String) : String :=
  String.ofList (pluralOfReversed (Text.LetterCase.lower kind).toList.reverse).reverse

def ofApiVersion (apiVersion kind : String) : ResourceKind :=
  let (group, version) := splitApiVersion apiVersion
  ⟨group, version, apiVersion, kind, pluralize kind⟩

def «namespace» : ResourceKind := ofApiVersion "v1" "Namespace"
def resourceQuota : ResourceKind := ofApiVersion "v1" "ResourceQuota"
def pod : ResourceKind := ofApiVersion "v1" "Pod"
def ingress : ResourceKind := ofApiVersion "networking.k8s.io/v1" "Ingress"
def networkPolicy : ResourceKind := ofApiVersion "networking.k8s.io/v1" "NetworkPolicy"
def applicationSet : ResourceKind := ofApiVersion "argoproj.io/v1alpha1" "ApplicationSet"
def application : ResourceKind := ofApiVersion "argoproj.io/v1alpha1" "Application"

def environment : ResourceKind := ofApiVersion "preview.dev/v1alpha1" "PreviewEnvironment"

end ResourceKind
end PreviewControl
