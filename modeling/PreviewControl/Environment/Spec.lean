import PreviewControl.Environment.Ttl
import PreviewControl.Json.Decode

/-!
# Specs of environments

What an environment is asked to be: a repository, a pull request, a commit and the services to
deploy. `validate` finds the first field that no default can stand in for.
-/
namespace PreviewControl

structure Repository where
  owner : String
  name : String
  url : Option String := none
deriving DecidableEq, Repr, Inhabited

namespace Repository

def fullName (r : Repository) : String := r.owner ++ "/" ++ r.name

/-- Where the repository is cloned from: the stated place, or the public one. -/
def cloneUrl (r : Repository) : String :=
  r.url.getD ("https://github.com/" ++ r.owner ++ "/" ++ r.name ++ ".git")

def isAlnum (c : Char) : Bool :=
  ('a' ≤ c && c ≤ 'z') || ('A' ≤ c && c ≤ 'Z') || isDigit c

def isLabelChar (c : Char) : Bool := isAlnum c || c == '-' || c == '_' || c == '.'

/-- Owner and name as a label value: other characters become hyphens, 63 characters are kept, and
the ends are cut back to a letter or digit. -/
def labelValue (r : Repository) : String :=
  let legal := (r.owner ++ "." ++ r.name).toList.map fun c => if isLabelChar c then c else '-'
  -- Cutting comes before trimming, because it can bring another character to the end.
  let cs := legal.take 63
  String.ofList ((cs.dropWhile (!isAlnum ·)).reverse.dropWhile (!isAlnum ·)).reverse

def read? (j : Json) : Option Repository := do
  let fs ← j.members? ["owner", "name", "url"]
  return {
    owner := ← Json.field fs "owner" Json.text?
    name := ← Json.field fs "name" Json.text?
    url := ← Json.optional fs "url" Json.text? }

def toJson (r : Repository) : Json :=
  .record [("owner", some (.str r.owner)), ("name", some (.str r.name)), ("url", r.url.map .str)]

end Repository

/-- The parts of the resource quota that a spec sets itself. -/
structure QuotaOverrides where
  cpu : Option String := none
  memory : Option String := none
  pods : Option UInt32 := none
deriving DecidableEq, Repr, Inhabited

namespace QuotaOverrides

def read? (j : Json) : Option QuotaOverrides := do
  let fs ← j.members? ["cpu", "memory", "pods"]
  return {
    cpu := ← Json.optional fs "cpu" Json.text?
    memory := ← Json.optional fs "memory" Json.text?
    pods := ← Json.optional fs "pods" Json.uint32? }

def toJson (q : QuotaOverrides) : Json :=
  .record [("cpu", q.cpu.map .str), ("memory", q.memory.map .str), ("pods", q.pods.map .ofUInt32)]

end QuotaOverrides

structure Spec where
  repository : Repository
  prNumber : UInt32
  headSha : String
  baseBranch : Option String := none
  headBranch : Option String := none
  /-- The services to deploy; a repeated name counts once. -/
  services : List String := []
  ttl : String
  resources : Option QuotaOverrides := none
deriving DecidableEq, Repr, Inhabited

namespace Spec

def defaultTtl : String := "4h"

def hashLength : Nat := 40

def labelLength : Nat := 63

def isHexDigit (c : Char) : Bool :=
  isDigit c || ('a' ≤ c && c ≤ 'f') || ('A' ≤ c && c ≤ 'F')

/-- A character of a host name label. -/
def isHostChar (c : Char) : Bool := ('a' ≤ c && c ≤ 'z') || isDigit c || c == '-'

/-- A host name label: up to 63 lower-case letters, digits and hyphens, no hyphen at either end. -/
def isHostLabel (s : String) : Bool :=
  let cs := s.toList
  cs.head?.any Repository.isAlnum && cs.getLast?.any Repository.isAlnum &&
    s.utf8ByteSize ≤ labelLength && cs.all isHostChar

def serviceName (pr : UInt32) (service : String) : String :=
  "pr-" ++ toString pr.toNat ++ "-" ++ service

/-- The name of a service can be given to objects. -/
def isServiceNameable (pr : UInt32) (service : String) : Bool :=
  isHostLabel service && (serviceName pr service).utf8ByteSize ≤ labelLength

def serviceMessage (pr : UInt32) (service : String) : String :=
  "service '" ++ service ++ "' must be a lowercase DNS label and '" ++ serviceName pr service ++
    "' at most " ++ toString labelLength ++ " characters"

/-- The first field that cannot be acted on, with the reason. -/
def fault? (s : Spec) : Option (String × String) :=
  if s.prNumber = 0 then some ("spec.prNumber", "pull request number must be at least 1")
  else if s.headSha.utf8ByteSize ≠ hashLength ∨ !s.headSha.toList.all isHexDigit then
    some ("spec.headSha", "head commit must be " ++ toString hashLength ++ " hex characters")
  else if s.repository.owner = "" ∨ s.repository.name = "" then
    some ("spec.repository", "repository owner and name are required")
  else match s.services.find? fun service => !isServiceNameable s.prNumber service with
    | some service => some ("spec.services", serviceMessage s.prNumber service)
    | none => none

/-- Refuses a spec with a field that cannot be acted on, for the record of a given name. -/
def validate (s : Spec) (record : String) : Except Failure Unit :=
  match s.fault? with
  | some (field, text) => .error (.invalid record (some field) text)
  | none => .ok ()

def firsts : List String → List String
  | [] => []
  | x :: xs => x :: (firsts xs).filter (· != x)

def uniqueServices (s : Spec) : List String := firsts s.services

def ttlSeconds (s : Spec) : Nat := Ttl.orFallback s.ttl

def read? (j : Json) : Option Spec := do
  let fs ← j.members? ["repository", "prNumber", "headSha", "baseBranch", "headBranch", "services",
    "ttl", "resources"]
  return {
    repository := ← Json.field fs "repository" Repository.read?
    prNumber := ← Json.field fs "prNumber" Json.uint32?
    headSha := ← Json.field fs "headSha" Json.text?
    baseBranch := ← Json.optional fs "baseBranch" Json.text?
    headBranch := ← Json.optional fs "headBranch" Json.text?
    services := ← Json.defaulted fs "services" (Json.list? Json.text?) []
    ttl := ← Json.defaulted fs "ttl" Json.text? defaultTtl
    resources := ← Json.optional fs "resources" QuotaOverrides.read? }

def toJson (s : Spec) : Json :=
  .record [("repository", some s.repository.toJson), ("prNumber", some (.ofUInt32 s.prNumber)),
    ("headSha", some (.str s.headSha)), ("baseBranch", s.baseBranch.map .str),
    ("headBranch", s.headBranch.map .str),
    ("services", if s.services.isEmpty then none else some (.texts s.services)),
    ("ttl", some (.str s.ttl)), ("resources", s.resources.map (·.toJson))]

end Spec
end PreviewControl
