import PreviewControl.Proofs.Naming
import PreviewControl.Proofs.Readiness
import PreviewControl.Proofs.Routing
import PreviewControl.Proofs.StatusPatch

/-!
# The services in all places

The services of an environment turn up in its descriptor, among the deployments that are looked at,
in its status and in its ingress. For a spec that is accepted all these places speak of the same
services, and what one of them calls a service is what the others look for.
-/
namespace PreviewControl

/-! ## Reading documents -/

namespace Json

/-- A step into a value: into a field, or into every item of an array. -/
inductive Step where
  | field (name : String)
  | items

/-- The values at the ends of all ways that a path can take. -/
def select : List Step → Json → List Json
  | [], j => [j]
  | .field name :: path, j => ((j.get? name).map (select path)).getD []
  | .items :: path, j => (j.items?.getD []).flatMap (select path)

variable {name : String} {path : List Step} {j : Json} {fs : List (String × Json)}
  {items : List Json}

@[simp] theorem select_nil : select [] j = [j] := rfl

@[simp] theorem select_field_obj : select (.field name :: path) (obj fs) =
    ((fs.lookup name).map (select path)).getD [] := rfl

@[simp] theorem select_items_arr :
    select (.items :: path) (arr items) = items.flatMap (select path) := rfl

end Json

/-! ## Templates -/

namespace Child

variable {place value front rest : List Char} {c : Char}

/-- A template with a value in every place that is left for it, from the front to the back. -/
def fill (place value : List Char) : List Char → List Char
  | [] => []
  | c :: cs =>
    if place.isPrefixOf (c :: cs) then value ++ fill place value (cs.drop (place.length - 1))
    else c :: fill place value cs
termination_by cs => cs.length

/-- What a name becomes when the name of a service is put into its places. -/
def filled (name service : String) : String :=
  String.ofList (fill servicePlace.toList service.toList name.toList)

theorem fill_append (h : ∀ d ∈ front, d ≠ c) :
    fill (c :: place) value (front ++ rest) = front ++ fill (c :: place) value rest := by
  induction front with
  | nil => rfl
  | cons d front ih =>
    obtain ⟨hd, hfront⟩ := List.forall_mem_cons.1 h
    have hnot : (c :: place).isPrefixOf (d :: (front ++ rest)) = false := by
      simp [List.isPrefixOf, hd.symm]
    rw [List.cons_append, fill, hnot, ih hfront]
    rfl

theorem fill_place : fill (c :: place) value (c :: place) = value := by
  have hall : (c :: place).isPrefixOf (c :: place) = true := by simp
  have hrest : place.drop ((c :: place).length - 1) = [] := by simp
  rw [fill, hall, if_pos rfl, hrest, fill, List.append_nil]

/-- The name of a deployment is what the template makes of the service. -/
theorem filled_template (pr : UInt32) (service : String) :
    filled (namePrefix pr ++ servicePlace) service = applicationName pr service := by
  have hplace : servicePlace.toList = '\x7b' :: "\x7b.service\x7d\x7d".toList := by decide
  have hfront : ∀ d ∈ (namePrefix pr).toList, d ≠ '\x7b' := by
    intro d hd
    rw [toList_namePrefix] at hd
    simp only [List.mem_append, List.mem_cons, List.not_mem_nil, or_false] at hd
    rcases hd with ((rfl | rfl | rfl) | hd) | rfl
    · decide
    · decide
    · decide
    · rintro rfl
      exact absurd (isDigit_of_mem_toDigits hd) (by decide)
    · decide
  rw [filled, String.toList_append, hplace, fill_append hfront, fill_place,
    String.ofList_append, String.ofList_toList, String.ofList_toList]
  rfl

/-! ## What the objects say -/

section Objects

open Json.Step

variable {config : Config} {env : Environment} {ns : String}

/-- Where a descriptor names the services. -/
def serviceEntries : List Json.Step :=
  [field "spec", field "generators", items, field "list", field "elements", items, field "service"]

/-- Where a descriptor names the deployments. -/
def deploymentName : List Json.Step :=
  [field "spec", field "template", field "metadata", field "name"]

/-- What a descriptor puts in front of the names of what it deploys. -/
def deployedPrefix : List Json.Step :=
  [field "spec", field "template", field "spec", field "source", field "kustomize",
    field "namePrefix"]

theorem select_serviceEntries : (descriptorObject env ns config).select serviceEntries =
    env.spec.uniqueServices.map .str := by
  have hentries : (descriptorObject env ns config).select serviceEntries =
      env.spec.uniqueServices.flatMap fun service => [.str service] := by
    simp [descriptorObject, objectOf, serviceEntries, descriptorElements, List.lookup_cons,
      List.flatMap_map]
  exact hentries.trans List.map_eq_flatMap.symm

theorem select_deploymentName : (descriptorObject env ns config).select deploymentName =
    [.str (namePrefix env.spec.prNumber ++ servicePlace)] := by
  simp [descriptorObject, objectOf, deploymentName, descriptorTemplate, metadataOf, Json.record,
    List.lookup_cons]

theorem select_deployedPrefix : (descriptorObject env ns config).select deployedPrefix =
    [.str (namePrefix env.spec.prNumber)] := by
  simp [descriptorObject, objectOf, deployedPrefix, descriptorTemplate, descriptorSource,
    List.lookup_cons]

/-- The routes of an ingress. -/
def routeEntries : List Json.Step :=
  [field "spec", field "rules", items, field "http", field "paths", items]

/-- The path of a route, and the name of the service that it leads to. -/
def pathAndBackend (route : Json) : List Json × List Json :=
  (route.select [field "path"],
    route.select [field "backend", field "service", field "name"])

/-- The hosts that an ingress answers for. -/
def ruleHosts : List Json.Step := [field "spec", field "rules", items, field "host"]

/-- The hosts that a certificate is asked for. -/
def certifiedHosts : List Json.Step := [field "spec", field "tls", items, field "hosts", items]

/-- The host that a name is asked for. -/
def announcedHost : List Json.Step :=
  [field "metadata", field "annotations", field "external-dns.alpha.kubernetes.io/hostname"]

theorem select_routeEntries (routes : List Route) :
    ((ingressOf env ns config routes).select routeEntries).map pathAndBackend =
      routes.map fun r => ([.str r.path], [.str (backendName env.spec.prNumber r.service)]) := by
  simp [ingressOf, objectOf, routeEntries, pathAndBackend, ingressPath, List.lookup_cons,
    List.map_eq_flatMap, List.flatMap_assoc]

theorem select_ruleHosts (routes : List Route) :
    (ingressOf env ns config routes).select ruleHosts =
      [.str (config.hostFor env.spec.prNumber)] := by
  simp [ingressOf, objectOf, ruleHosts, List.lookup_cons]

theorem select_certifiedHosts (routes : List Route) :
    (ingressOf env ns config routes).select certifiedHosts =
      [.str (config.hostFor env.spec.prNumber)] := by
  simp [ingressOf, objectOf, certifiedHosts, Json.texts, List.lookup_cons]

theorem select_announcedHost (routes : List Route) :
    (ingressOf env ns config routes).select announcedHost =
      [.str (config.hostFor env.spec.prNumber)] := by
  simp [ingressOf, objectOf, announcedHost, metadataOf, Json.record, Json.textMap,
    ingressAnnotations, List.lookup_cons]

end Objects

/-! ## What is looked at -/

section Health

open Pass

variable {config : Config} {env : Environment} {pr : UInt32} {services : List String}
  {t : List Deed} {units : List UnitHealth} {health : Health}

/-- A service whose deployment has been looked at, and what there was. -/
abbrev Look := String × Option StoredObject

namespace Look

/-- The request for the deployment of a name. -/
def deed (config : Config) (name : String) (look : Look) : Deed :=
  .call (.getObject ⟨.application, name, some config.gitopsNamespace⟩) (.ok look.2)

/-- The health of the deployment that was there. -/
def unit (look : Look) : UnitHealth :=
  match look.2 with
  | some app => .ofObject look.1 app
  | none => .missing look.1

@[simp] theorem service_unit (look : Look) : look.unit.service = look.1 := by
  unfold unit
  cases look.2 <;> rfl

end Look

/-- Every deployment is looked at under the name of its service, one after the other. -/
theorem gives_unitHealths : (unitHealths config pr services).Gives t units ↔
    ∃ looks : List Look, looks.map Prod.fst = services ∧
      t = looks.map (fun look => look.deed config (applicationName pr look.1)) ∧
      units = looks.map Look.unit := by
  induction services generalizing t units with
  | nil =>
    constructor
    · intro h
      obtain ⟨rfl, rfl⟩ := gives_done.1 h
      exact ⟨[], rfl, rfl, rfl⟩
    · rintro ⟨looks, hnil, rfl, rfl⟩
      obtain rfl := List.map_eq_nil_iff.1 hnil
      exact .start _
  | cons service services ih =>
    constructor
    · intro h
      obtain ⟨t₁, t₂, app, rfl, happ, hrest⟩ := gives_bind.1 h
      obtain rfl := gives_request.1 happ
      obtain ⟨t₃, t₄, others, rfl, hothers, hd⟩ := gives_bind.1 hrest
      obtain ⟨rfl, rfl⟩ := gives_done.1 hd
      obtain ⟨looks, rfl, rfl, rfl⟩ := ih.1 hothers
      rw [List.append_nil]
      refine ⟨(service, app) :: looks, rfl, rfl, ?_⟩
      cases app <;> rfl
    · rintro ⟨looks, hall, rfl, rfl⟩
      cases looks with
      | nil => cases hall
      | cons look looks =>
        obtain ⟨rfl, rfl⟩ := List.cons.inj hall
        obtain ⟨service, app⟩ := look
        refine gives_bind.2 ⟨[_], _, app, rfl, gives_request.2 rfl, ?_⟩
        have hothers := ih.2 ⟨looks, rfl, rfl, rfl⟩
        refine gives_bind.2 ⟨_, [], _, (List.append_nil _).symm, hothers, ?_⟩
        cases app <;> exact .start _

theorem gives_deploymentHealth : (deploymentHealth config env).Gives t health ↔
    ∃ looks : List Look, looks.map Prod.fst = env.spec.uniqueServices ∧
      t = looks.map (fun look => look.deed config (applicationName env.spec.prNumber look.1)) ∧
      health = .ofUnits (looks.map Look.unit) := by
  constructor
  · intro h
    obtain ⟨t₁, t₂, units, rfl, hunits, hd⟩ := gives_bind.1 h
    obtain ⟨rfl, rfl⟩ := gives_done.1 hd
    obtain ⟨looks, hlooks, rfl, rfl⟩ := gives_unitHealths.1 hunits
    exact ⟨looks, hlooks, List.append_nil _, rfl⟩
  · rintro ⟨looks, hlooks, rfl, rfl⟩
    have hunits : (unitHealths config env.spec.prNumber env.spec.uniqueServices).Gives _ _ :=
      gives_unitHealths.2 ⟨looks, hlooks, rfl, rfl⟩
    exact gives_bind.2 ⟨_, [], _, (List.append_nil _).symm, hunits, .start _⟩

/-- The health tells about the services in their order. -/
theorem services_of_gives (h : (deploymentHealth config env).Gives t health) :
    health.units.map (·.service) = env.spec.uniqueServices := by
  obtain ⟨looks, hlooks, _, rfl⟩ := gives_deploymentHealth.1 h
  rw [Health.units_ofUnits, List.map_map, ← hlooks]
  exact List.map_congr_left fun look _ => look.service_unit

end Health

/-! ## Routes and addresses -/

namespace Route

variable {services : List String}

/-- Every route of a table is the one that its service gives. -/
theorem table_eq_map (services : List String) (frontend : String) :
    ((table services frontend).map (·.service)).map (of frontend) = table services frontend := by
  rw [List.map_map]
  refine (List.map_congr_left fun r hr => ?_).trans (List.map_id _)
  obtain ⟨service, _, rfl⟩ := exists_of_mem_table hr
  rfl

/-- Where no name is empty and none comes twice, the table is about these services. -/
theorem perm_services (frontend : String) (named : ∀ service ∈ services, service ≠ "")
    (distinct : services.Nodup) :
    ((table services frontend).map (·.service)).Perm services :=
  (List.perm_ext_iff_of_nodup (nodup_services _ _) distinct).2 fun _ => mem_services named

/-- What a route adds to the address of the environment: its path, but for the root nothing. -/
def addition (path : String) : String := if path = "/" then "" else path

end Route

theorem serviceUrl_eq (config : Config) (pr : UInt32) {service : String} (named : service ≠ "") :
    Status.serviceUrl config pr service =
      config.urlFor pr ++ Route.addition (Route.pathOf config.frontendService service) := by
  have hroot := Route.pathOf_eq_root config.frontendService named
  unfold Status.serviceUrl Route.addition
  by_cases hs : service = config.frontendService
  · rw [if_pos hs, if_pos (hroot.2 hs), String.append_empty]
  · rw [if_neg hs, if_neg (mt hroot.1 hs), Route.pathOf, if_neg hs, String.append_assoc]

theorem ingressObject?_eq (config : Config) (env : Environment) (ns : String) :
    ingressObject? env ns config =
      if Route.table env.spec.uniqueServices config.frontendService = [] then none
      else some (ingressOf env ns config
        (Route.table env.spec.uniqueServices config.frontendService)) := by
  unfold ingressObject?
  split
  · next h => rw [if_pos h]
  · next h => rw [if_neg h]

/-! ## Agreement -/

open Pass

/-- All places where the services of an environment turn up speak of the same ones. -/
structure Concordant (config : Config) (env : Environment) (ns : String) : Prop where
  /-- Every declared service counts. -/
  declared : ∀ service, service ∈ env.spec.uniqueServices ↔ service ∈ env.spec.services
  /-- It counts once, and where it is declared first. -/
  ordered : env.spec.uniqueServices.Pairwise fun a b =>
    env.spec.services.idxOf a < env.spec.services.idxOf b
  /-- The descriptor lists the services. -/
  described : (descriptorObject env ns config).select serviceEntries =
    env.spec.uniqueServices.map .str
  /-- The deployments that are looked at are those that the descriptor makes of the services. -/
  observed : ∃ name, (descriptorObject env ns config).select deploymentName = [.str name] ∧
    ∀ t health, (deploymentHealth config env).Gives t health ↔
      ∃ looks : List Look, looks.map Prod.fst = env.spec.uniqueServices ∧
        t = looks.map (fun look => look.deed config (filled name look.1)) ∧
        health = .ofUnits (looks.map Look.unit)
  /-- What is found out about them goes into the status, with the address of each service. -/
  reported : ∀ t health, (deploymentHealth config env).Gives t health →
    health.units.map (·.service) = env.spec.uniqueServices ∧
      ∀ current observation now, observation.health = some health →
        let next := Status.next env current observation config now
        next.url = some (config.urlFor env.spec.prNumber) ∧
          next.services.map (·.name) = env.spec.uniqueServices ∧
          ∀ entry ∈ next.services, entry.url = some (config.urlFor env.spec.prNumber ++
            Route.addition (Route.pathOf config.frontendService entry.name))
  /-- There is an ingress if there are services. -/
  served : ingressObject? env ns config = none ↔ env.spec.uniqueServices = []
  /-- It has one route for each of them, to what the descriptor deploys for it. -/
  routed : ∀ object, ingressObject? env ns config = some object →
    ∃ (front : String) (services : List String),
      (descriptorObject env ns config).select deployedPrefix = [.str front] ∧
      services.Perm env.spec.uniqueServices ∧
      (object.select routeEntries).map pathAndBackend = services.map fun service =>
        ([.str (Route.pathOf config.frontendService service)], [.str (front ++ service)])
  /-- The host of the environment is the only one that the ingress is about. -/
  hosted : ∀ object, ingressObject? env ns config = some object →
    ∃ host : String, config.urlFor env.spec.prNumber = "https://" ++ host ∧
      object.select ruleHosts = [.str host] ∧ object.select certifiedHosts = [.str host] ∧
      object.select announcedHost = [.str host]

section Agreement

variable {config : Config} {env : Environment} {ns : String}

theorem nodup_uniqueServices (s : Spec) : s.uniqueServices.Nodup := by
  refine (Spec.pairwise_firsts s.services).imp ?_
  rintro a b h rfl
  exact Nat.lt_irrefl _ h

theorem named_of_accepted {s : Spec} (accepted : ∀ field, s.Meets field) :
    ∀ service ∈ s.uniqueServices, service ≠ "" := by
  intro service hservice hempty
  have hnames : s.Names service := accepted .services service (Spec.mem_firsts.1 hservice)
  have hbounds := hnames.label.bounds
  rw [hempty] at hbounds
  exact absurd hbounds.1 (by decide)

theorem reported_services {health : Health}
    (named : ∀ service ∈ env.spec.uniqueServices, service ≠ "")
    (units : health.units.map (·.service) = env.spec.uniqueServices) (current : Status)
    (observation : Observation) (now : Instant) (read : observation.health = some health) :
    let next := Status.next env current observation config now
    next.url = some (config.urlFor env.spec.prNumber) ∧
      next.services.map (·.name) = env.spec.uniqueServices ∧
      ∀ entry ∈ next.services, entry.url = some (config.urlFor env.spec.prNumber ++
        Route.addition (Route.pathOf config.frontendService entry.name)) := by
  have hservices : (Status.next env current observation config now).services =
      Status.servicesOf env config health.units := Status.next_services read
  have hnames : (Status.servicesOf env config health.units).map (·.name) =
      env.spec.uniqueServices := by
    rw [← units, Status.servicesOf, List.map_map]
    rfl
  refine ⟨Status.next_url, hservices ▸ hnames, fun entry hentry => ?_⟩
  rw [hservices] at hentry
  have hname : entry.name ∈ env.spec.uniqueServices := hnames ▸ List.mem_map_of_mem hentry
  obtain ⟨unit, _, rfl⟩ := List.mem_map.1 hentry
  exact congrArg some (serviceUrl_eq config env.spec.prNumber (named _ hname))

theorem table_eq_nil_iff (config : Config)
    (named : ∀ service ∈ env.spec.uniqueServices, service ≠ "") :
    Route.table env.spec.uniqueServices config.frontendService = [] ↔
      env.spec.uniqueServices = [] := by
  have hperm := Route.perm_services config.frontendService named (nodup_uniqueServices env.spec)
  constructor
  · intro h
    rw [h] at hperm
    exact hperm.nil_eq.symm
  · intro h
    rw [h] at hperm ⊢
    exact List.map_eq_nil_iff.1 hperm.eq_nil

theorem eq_ingressOf {object : Json} (h : ingressObject? env ns config = some object) :
    object = ingressOf env ns config
      (Route.table env.spec.uniqueServices config.frontendService) := by
  rw [ingressObject?_eq] at h
  split at h
  · cases h
  · exact (Option.some.inj h).symm

/-- For every spec that is accepted, all places agree on the services. -/
theorem services_agree (config : Config) (env : Environment) (ns record : String)
    (accepted : env.spec.validate record = .ok ()) : Concordant config env ns := by
  have meets : ∀ field, env.spec.Meets field := Spec.validate_eq_ok_iff.1 accepted
  have named := named_of_accepted meets
  exact {
    declared := fun service => Spec.mem_firsts
    ordered := Spec.pairwise_firsts env.spec.services
    described := select_serviceEntries
    observed := by
      refine ⟨_, select_deploymentName, fun t health => ?_⟩
      simp only [filled_template]
      exact gives_deploymentHealth
    reported := fun t health h =>
      have units := services_of_gives h
      ⟨units, reported_services named units⟩
    served := by
      rw [ingressObject?_eq, ← table_eq_nil_iff config named]
      split <;> simp_all
    routed := by
      intro object h
      obtain rfl := eq_ingressOf h
      have hperm := Route.perm_services config.frontendService named (nodup_uniqueServices env.spec)
      refine ⟨_, _, select_deployedPrefix, hperm, ?_⟩
      rw [select_routeEntries]
      conv_lhs => rw [← Route.table_eq_map]
      exact List.map_map
    hosted := by
      intro object h
      obtain rfl := eq_ingressOf h
      exact ⟨_, rfl, select_ruleHosts _, select_certifiedHosts _, select_announcedHost _⟩ }

/-- An environment that declares one of its services twice. -/
def storefront : Environment :=
  { Reconcile.newcomer with
    spec := { Reconcile.newcomer.spec with services := ["api", "frontend", "api"] } }

theorem services_agree_storefront :
    storefront.spec.validate "shop" = .ok () ∧
      storefront.spec.uniqueServices = ["api", "frontend"] ∧
      ∃ (ingress : Json) (services : List String),
        ingressObject? storefront "space" {} = some ingress ∧
        services.Perm ["api", "frontend"] ∧
        (ingress.select routeEntries).map pathAndBackend = services.map fun service =>
          ([.str (Route.pathOf "frontend" service)], [.str ("pr-5-" ++ service)]) := by
  have accepted : storefront.spec.validate "shop" = .ok () := by decide +kernel
  have hunique : storefront.spec.uniqueServices = ["api", "frontend"] := by decide
  have agree := services_agree {} storefront "space" "shop" accepted
  refine ⟨accepted, hunique, ?_⟩
  cases hobject : ingressObject? storefront "space" {} with
  | none => cases hunique.symm.trans (agree.served.1 hobject)
  | some ingress =>
    obtain ⟨front, services, hfront, hservices, hroutes⟩ := agree.routed ingress hobject
    obtain rfl : front = "pr-5-" := by
      rw [select_deployedPrefix] at hfront
      cases hfront
      decide
    exact ⟨ingress, services, rfl, hunique ▸ hservices, hroutes⟩

end Agreement
end Child
end PreviewControl
