import PreviewControl.Environment.Record

/-!
# The definition of the environment resource

The definition of the environment resource, by which the API server learns to serve it: its names,
its columns in listings, and the schema of its spec and status.
-/
namespace PreviewControl.Definition

def member (description : String) (rest : List (String × Json)) : Json :=
  .obj (("description", .str description) :: rest)

def textType : List (String × Json) := [("type", .str "string")]

def nullable : List (String × Json) := [("nullable", .bool true)]

def timeType : List (String × Json) := ("format", .str "date-time") :: textType

/-- A number without sign. -/
def countType : List (String × Json) :=
  [("type", .str "integer"), ("format", .str "uint32"), ("minimum", .real .zero)]

def listType (item : Json) : List (String × Json) :=
  [("type", .str "array"), ("items", item)]

def choiceType (names : List String) : List (String × Json) := ("enum", .texts names) :: textType

/-- An object of members, some of which are required. -/
def objectType (required : List String) (members : List (String × Json)) : List (String × Json) :=
  [("type", .str "object"), ("properties", .obj members)] ++
    if required.isEmpty then [] else [("required", .texts required)]

def repositoryType : List (String × Json) :=
  objectType ["name", "owner"]
    [("owner", member "Repository owner (user or organization)" textType),
     ("name", member "Repository name" textType),
     ("url", member "Clone URL; defaults to the GitHub HTTPS URL for owner/name"
       (nullable ++ textType))]

def resourcesType : List (String × Json) :=
  objectType []
    [("cpu", member "Total CPU requests allowed (e.g. \"4\")" (nullable ++ textType)),
     ("memory", member "Total memory requests allowed (e.g. \"8Gi\")" (nullable ++ textType)),
     ("pods", member "Maximum pod count" (nullable ++ countType))]

def specType : List (String × Json) :=
  objectType ["headSha", "prNumber", "repository"]
    [("repository", member "Repository the pull request was opened against" repositoryType),
     ("prNumber", member "Pull request number" countType),
     ("headSha", member "Head commit the environment deploys" textType),
     ("baseBranch", member "Target branch of the pull request" (nullable ++ textType)),
     ("headBranch", member "Source branch of the pull request" (nullable ++ textType)),
     ("services", member "Services to deploy; empty until detection has run"
       (listType (.obj textType))),
     ("ttl", member "Time-to-live (e.g. \"4h\", \"1h30m\", \"2d\")"
       (("default", .str Spec.defaultTtl) :: textType)),
     ("resources", member "Resource quota overrides for the preview namespace"
       (nullable ++ resourcesType))]

def serviceType : Json :=
  member "Readiness of one deployed service" <| objectType ["name", "ready"]
    [("name", member "Service name as declared in the spec" textType),
     ("ready", member "Whether the service's deployment unit is Healthy and Synced"
       [("type", .str "boolean")]),
     ("url", member "Public URL routed to this service" (nullable ++ textType))]

def costType : List (String × Json) :=
  objectType ["currency", "hourlyCost", "totalCost"]
    [("currency", member "ISO currency code" textType),
     ("hourlyCost", member "Cost per hour, four decimal places" textType),
     ("totalCost", member "Cost over the full TTL, four decimal places" textType)]

def conditionType : Json :=
  member "Kubernetes-style condition for status reporting" <|
    objectType ["lastTransitionTime", "message", "reason", "status", "type"]
    [("type", member "Type of condition (e.g., Ready)" textType),
     ("status", member "Status of the condition (True, False, Unknown)"
       (choiceType ([Verdict.holds, .fails, .unknown].map Verdict.name))),
     ("reason", member "Machine-readable reason for the condition" textType),
     ("message", member "Human-readable message" textType),
     ("lastTransitionTime", member "Last time the condition transitioned" timeType)]

def noItems : List (String × Json) := [("default", .arr [])]

def statusType : List (String × Json) :=
  objectType []
    [("phase", member "Current lifecycle phase"
       (nullable ++ choiceType (Phase.all.map Phase.name))),
     ("namespace", member "Preview namespace; set once and never changed"
       (nullable ++ textType)),
     ("url", member "Public URL of the environment" (nullable ++ textType)),
     ("services", member "Per-service readiness" (noItems ++ listType serviceType)),
     ("costEstimate", member "Last good cost estimate" (nullable ++ costType)),
     ("createdAt", member "When the environment was first reconciled" (nullable ++ timeType)),
     ("expiresAt", member "When the environment becomes eligible for TTL cleanup"
       (nullable ++ timeType)),
     ("lastSyncedAt", member "Last time the controller wrote this status"
       (nullable ++ timeType)),
     ("observedGeneration", member "Generation of the spec this status reflects"
       (nullable ++ [("type", .str "integer"), ("format", .str "int64")])),
     ("conditions", member "Typed conditions (e.g. Ready)" (noItems ++ listType conditionType)),
     ("message", member "Human-readable message about the current state"
       (nullable ++ textType))]

def recordType : Json :=
  member "Auto-generated derived type for PreviewEnvironmentSpec via `CustomResource`" <|
    ("title", .str ResourceKind.environment.kind) :: objectType ["spec"]
    [("spec", member "Ephemeral per-pull-request environment" specType),
     ("status", member "Observed status of a PreviewEnvironment" (nullable ++ statusType))]

def column (name type path : String) : Json :=
  .obj [("name", .str name), ("type", .str type), ("jsonPath", .str path)]

def columns : List Json :=
  [column "PR" "integer" ".spec.prNumber", column "Phase" "string" ".status.phase",
   column "URL" "string" ".status.url", column "Expires" "date" ".status.expiresAt",
   column "Age" "date" ".metadata.creationTimestamp"]

def name : String := ResourceKind.environment.plural ++ "." ++ ResourceKind.environment.group

def kind : ResourceKind := .ofApiVersion "apiextensions.k8s.io/v1" "CustomResourceDefinition"

def servedVersion : Json :=
  .obj [("name", .str ResourceKind.environment.version), ("served", .bool true),
    ("storage", .bool true), ("additionalPrinterColumns", .arr columns),
    ("schema", .obj [("openAPIV3Schema", recordType)]),
    ("subresources", .obj [("status", .obj [])])]

def object : Json :=
  .obj [("apiVersion", .str kind.apiVersion), ("kind", .str kind.kind),
    ("metadata", .obj [("name", .str name)]),
    ("spec", .obj
      [("group", .str ResourceKind.environment.group),
       ("names", .obj [("categories", .arr []), ("kind", .str ResourceKind.environment.kind),
         ("plural", .str ResourceKind.environment.plural), ("shortNames", .texts ["pe"]),
         ("singular", .str "previewenvironment")]),
       ("scope", .str "Namespaced"), ("versions", .arr [servedVersion])])]

end PreviewControl.Definition
