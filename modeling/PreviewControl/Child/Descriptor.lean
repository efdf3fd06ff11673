import PreviewControl.Child.Namespace

/-!
# Deployment descriptors

The deployment descriptor of an environment: a template with a list of services, out of which the
deployment engine makes one deployment for each service.
-/
namespace PreviewControl.Child

/-- The place of the service's name in the template, as the deployment engine writes it. -/
def servicePlace : String := "\x7b\x7b.service\x7d\x7d"

def namePrefix (pr : UInt32) : String := "pr-" ++ toString pr.toNat ++ "-"

/-- What is deployed, at which commit, and under which names. -/
def descriptorSource (env : Environment) (ns : String) : Json :=
  .obj [("repoURL", .str env.spec.repository.cloneUrl),
    ("targetRevision", .str env.spec.headSha),
    ("path", .str ("services/" ++ servicePlace)),
    ("kustomize", .obj [("namePrefix", .str (namePrefix env.spec.prNumber)),
      ("namespace", .str ns),
      ("commonLabels",
        .obj [(Environment.prLabel, .str (toString env.spec.prNumber.toNat))])])]

def descriptorTemplate (env : Environment) (ns : String) (config : Config) : Json :=
  .obj [("metadata",
      metadataOf env (namePrefix env.spec.prNumber ++ servicePlace) none env.ownerAnnotations),
    ("spec", .obj
      [("project", .str config.gitopsProject),
       ("source", descriptorSource env ns),
       ("destination",
         .obj [("server", .str config.destinationServer), ("namespace", .str ns)]),
       ("syncPolicy", .obj
         [("automated", .obj [("prune", .bool true), ("selfHeal", .bool true)]),
          ("syncOptions", .texts ["CreateNamespace=false"])])])]

def descriptorElements (spec : Spec) : List Json :=
  spec.uniqueServices.map fun service => .obj [("service", .str service)]

def descriptorObject (env : Environment) (ns : String) (config : Config) : Json :=
  objectOf .applicationSet
    (metadataOf env (applicationSetName env.spec.prNumber) (some config.gitopsNamespace)
      env.ownerAnnotations)
    [("spec", .obj
      [("goTemplate", .bool true),
       ("goTemplateOptions", .texts ["missingkey=error"]),
       ("generators",
         .arr [.obj [("list", .obj [("elements", .arr (descriptorElements env.spec))])]]),
       ("template", descriptorTemplate env ns config)])]

def descriptorAddress (pr : UInt32) (config : Config) : Address :=
  ⟨.applicationSet, applicationSetName pr, some config.gitopsNamespace⟩

def applicationAddress (pr : UInt32) (service : String) (config : Config) : Address :=
  ⟨.application, applicationName pr service, some config.gitopsNamespace⟩

end PreviewControl.Child
