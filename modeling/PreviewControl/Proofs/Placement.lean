import PreviewControl.Proofs.Undisturbed

/-!
# Passes in which nothing fails

Where no call fails, a pass puts every child in place. What is then found in the places of the
children is what has been rendered from the record, whatever was there before, and no other object
has changed.
-/
namespace PreviewControl

open Pass Reconcile

/-! ## Clusters without faults -/

namespace Store

variable {s : Store}

/-- No fault hits any call. -/
def Faultless (s : Store) : Prop := ∀ c, Fault.strike c s.faults = none

theorem Faultless.undisturbed (h : s.Faultless) : s.Undisturbed := fun c _ => h c

theorem Faultless.answer (h : s.Faultless) (c : Call) : (s.answer c).2.Faultless := by
  intro d
  unfold Store.answer
  rw [h c, spend_faults, (s.serve_faults c).1]
  exact h d

end Store

theorem Pass.faultless_after {α : Type} {s : Store} (h : s.Faultless) (p : Pass α) :
    (p.after s).Faultless := after_preserves (fun _ c hs => hs.answer c) p h

namespace Child

variable {config : Config} {env : Environment} {ns : String} {s mid left : Store} {text : String}
  {child : Child} {children : List Child}

/-! ## The places of the children -/

/-- What a child consists of, with the places where it lives. -/
def portion (config : Config) (env : Environment) (ns : String) : Child → List Manifest
  | «namespace» => namespaceParts config env ns
  | ingress => ((ingressObject? env ns config).map (Manifest.mk (ingressAddress ns))).toList
  | descriptor => [⟨descriptorAddress env.spec.prNumber config, descriptorObject env ns config⟩]

theorem mem_parts {m : Manifest} :
    m ∈ parts config env ns ↔ ∃ child ∈ all, m ∈ child.portion config env ns := by
  simp [parts, all, portion]

/-- The addresses under which a child lives, if there is anything to put in place. -/
def homes (config : Config) (pr : UInt32) (ns : String) : Child → List Address
  | «namespace» =>
    [namespaceAddress ns, ⟨.resourceQuota, quotaName, some ns⟩, policyAddress ns "default-deny-all",
     policyAddress ns "allow-ingress", policyAddress ns "allow-egress"]
  | ingress => [ingressAddress ns]
  | descriptor => [descriptorAddress pr config]

/-- One of the texts under which a child lives. -/
def Place (config : Config) (pr : UInt32) (ns : String) (child : Child) (text : String) : Prop :=
  ∃ target ∈ child.homes config pr ns, target.text = text

theorem target_mem_homes {m : Manifest} (h : m ∈ child.portion config env ns) :
    m.target ∈ child.homes config env.spec.prNumber ns := by
  cases child with
  | «namespace» => exact List.mem_map_of_mem (f := Manifest.target) h
  | ingress =>
    obtain ⟨object, _, rfl⟩ := Option.map_eq_some_iff.1 (Option.mem_toList.1 h)
    exact List.mem_singleton_self _
  | descriptor =>
    rw [List.mem_singleton.1 h]
    exact List.mem_singleton_self _

/-- Where there is anything to put in place, something is put under every address. -/
theorem exists_portion {target : Address} (h : child.portion config env ns ≠ [])
    (ht : target ∈ child.homes config env.spec.prNumber ns) :
    ∃ m ∈ child.portion config env ns, m.target = target := by
  cases child with
  | «namespace» =>
    have heq : «namespace».homes config env.spec.prNumber ns =
        (namespaceParts config env ns).map Manifest.target := rfl
    rw [heq] at ht
    exact List.mem_map.1 ht
  | ingress =>
    obtain ⟨m, hm⟩ := List.exists_mem_of_ne_nil _ h
    have htarget := target_mem_homes hm
    exact ⟨m, hm, (List.mem_singleton.1 htarget).trans (List.mem_singleton.1 ht).symm⟩
  | descriptor => exact ⟨_, List.mem_singleton_self _, (List.mem_singleton.1 ht).symm⟩

theorem address_mem_homes (child : Child) :
    child.address config env ns ∈ child.homes config env.spec.prNumber ns := by
  cases child <;> exact List.mem_cons_self

theorem Place.reach {pr : UInt32} (h : child.Place config pr ns text) : child.reach text := by
  obtain ⟨target, ht, rfl⟩ := h
  cases child with
  | «namespace» =>
    simp only [homes, List.mem_cons, List.not_mem_nil, or_false] at ht
    rcases ht with rfl | rfl | rfl | rfl | rfl
    · exact reach_namespace ns
    · exact reach_quota ns
    all_goals exact reach_policy ns _
  | ingress =>
    rw [List.mem_singleton.1 ht]
    exact reach_ingress ns
  | descriptor =>
    rw [List.mem_singleton.1 ht]
    exact reach_descriptor pr config

/-- The parts of the namespace live under different texts. -/
private theorem texts_nodup (config : Config) (env : Environment) (ns : String) :
    ((namespaceParts config env ns).map (·.target.text)).Nodup := by
  have hkeys : (namespaceParts config env ns).Pairwise fun m n =>
      (m.target.kind.kind, m.target.name) ≠ (n.target.kind.kind, n.target.name) := by
    have hkind (v k : String) : (ResourceKind.ofApiVersion v k).kind = k := rfl
    simp [namespaceParts, namespaceAddress, policyAddress, ResourceKind.namespace,
      ResourceKind.resourceQuota, ResourceKind.networkPolicy, hkind]
  have hplain : ∀ m ∈ namespaceParts config env ns, m.target.kind.Plain ∧
      m.target.ns = if m.target.kind.kind = "Namespace" then none else some ns := by
    intro m hm
    simp only [namespaceParts, List.mem_cons, List.not_mem_nil, or_false] at hm
    have hspace : ResourceKind.namespace.Plain := by decide
    have hquota : ResourceKind.resourceQuota.Plain := by decide
    have hpolicy : ResourceKind.networkPolicy.Plain := by decide
    rcases hm with rfl | rfl | rfl | rfl | rfl
    · exact ⟨hspace, rfl⟩
    · exact ⟨hquota, rfl⟩
    all_goals exact ⟨hpolicy, rfl⟩
  refine List.pairwise_map.2 (hkeys.imp_of_mem fun {m n} hm hn hne htext => hne ?_)
  obtain ⟨hp, hns⟩ := hplain m hm
  obtain ⟨hp', hns'⟩ := hplain n hn
  have hkind := Address.kind_of_text hp hp' htext
  rw [hkind, ← hns'] at hns
  rw [hkind, Address.name_of_text hp hp' hns htext]

/-! ## Putting one child in place -/

/-- What has to be so for a child to be put in place: the namespace is not on its way out, and an
ingress that is there is nobody else's and is held by nobody. -/
def Ready (env : Environment) (ns : String) (s : Store) : Child → Prop
  | «namespace» => ∃ read, s.readObject (namespaceAddress ns) = .ok read ∧
      read.any (·.metadata.isDeleting) = false
  | ingress => ∃ read, s.readObject (ingressAddress ns) = .ok read ∧
      read.any (env.isForeign ·.metadata) = false ∧
      (s.object? (ingressAddress ns).text).any Store.objectIsHeld = false
  | descriptor => True

/-- Some children are in place, and nothing else has changed. -/
structure Placed (config : Config) (env : Environment) (ns : String) (children : List Child)
    (s left : Store) : Prop where
  put : ∀ child ∈ children, ∀ m ∈ child.portion config env ns,
    left.object? m.target.text = some m.object
  cleared : ∀ child ∈ children, child.portion config env ns = [] →
    ∀ target ∈ child.homes config env.spec.prNumber ns, left.object? target.text = none
  kept : ∀ text, (∀ child ∈ children, ¬child.Place config env.spec.prNumber ns text) →
    left.object? text = s.object? text

/-- What is applied where nothing fails is found where it was put. -/
theorem applyAll_put {ms : List Manifest} (calm : s.Faultless)
    (distinct : (ms.map (·.target.text)).Nodup) :
    (applyAll ms).outcome s = .done () ∧
      ∀ m ∈ ms, ((applyAll ms).after s).object? m.target.text = some m.object := by
  induction ms generalizing s with
  | nil => exact ⟨rfl, fun m hm => absurd hm List.not_mem_nil⟩
  | cons m ms ih =>
    obtain ⟨hnew, hdistinct⟩ := List.nodup_cons.1 distinct
    have hcons : applyAll (m :: ms) = (request (.apply m)).bind fun _ => applyAll ms := rfl
    obtain ⟨hdone, hafter⟩ : (request (.apply m)).outcome s = .done () ∧ _ := apply_of_miss (calm _)
    have hput : ((request (.apply m)).after s).object? m.target.text = some m.object := by
      rw [hafter, Store.object?_putObject, if_pos rfl]
    obtain ⟨hrest, hall⟩ := ih (faultless_after calm (request (.apply m))) hdistinct
    rw [hcons, outcome_bind_done hdone, after_bind_done hdone]
    refine ⟨hrest, List.forall_mem_cons.2 ⟨?_, hall⟩⟩
    rcases object?_applyAll ms ((request (.apply m)).after s) m.target.text with
      hsame | ⟨n, hn, htext, _⟩
    · exact hsame.trans hput
    · exact absurd (List.mem_map.2 ⟨n, hn, htext⟩) hnew

private theorem placed_singleton
    (put : ∀ m ∈ child.portion config env ns, left.object? m.target.text = some m.object)
    (cleared : child.portion config env ns = [] →
      ∀ target ∈ child.homes config env.spec.prNumber ns, left.object? target.text = none)
    (kept : ∀ text, ¬child.Place config env.spec.prNumber ns text →
      left.object? text = s.object? text) :
    Placed config env ns [child] s left where
  put := List.forall_mem_singleton.2 put
  cleared := List.forall_mem_singleton.2 cleared
  kept text h := kept text (h child (List.mem_singleton_self child))

private theorem placed_of_apply {m : Manifest} (calm : s.Faultless)
    (h : child.portion config env ns = [m]) :
    (request (.apply m)).outcome s = .done () ∧
      Placed config env ns [child] s ((request (.apply m)).after s) := by
  obtain ⟨hdone, hafter⟩ : (request (.apply m)).outcome s = .done () ∧ _ := apply_of_miss (calm _)
  refine ⟨hdone, ?_⟩
  rw [hafter]
  refine placed_singleton (fun n hn => ?_) (fun hnil => ?_) fun text ht => ?_
  · rw [h] at hn
    rw [List.mem_singleton.1 hn, Store.object?_putObject, if_pos rfl]
  · rw [h] at hnil
    cases hnil
  · rw [Store.object?_putObject, if_neg]
    rintro rfl
    exact ht ⟨m.target, target_mem_homes (h ▸ List.mem_singleton_self m), rfl⟩

private theorem placed_namespace (calm : s.Faultless) (ready : «namespace».Ready env ns s) :
    (ensureNamespace config env ns).outcome s = .done () ∧
      Placed config env ns [«namespace»] s ((ensureNamespace config env ns).after s) := by
  obtain ⟨read, hread, hopen⟩ := ready
  have hlook : (request (.getObject (namespaceAddress ns))).outcome s = .done read :=
    look_done.2 ⟨calm _, hread⟩
  obtain ⟨hdone, hput⟩ := applyAll_put calm (texts_nodup config env ns)
  rw [ensureNamespace_eq, outcome_bind_done hlook, after_bind_done hlook, after_look (calm _),
    hopen]
  refine ⟨hdone, placed_singleton hput (fun hnil => nomatch hnil) fun text ht => ?_⟩
  rcases object?_applyAll (namespaceParts config env ns) s text with hkept | ⟨m, hm, htext, _⟩
  · exact hkept
  · have hm' : m ∈ «namespace».portion config env ns := hm
    exact absurd ⟨m.target, target_mem_homes hm', htext⟩ ht

private theorem absent_of_read {target : Address} (h : s.readObject target = .ok none) :
    s.object? target.text = none := by
  unfold Store.readObject at h
  cases ho : s.object? target.text with
  | none => rfl
  | some object =>
    rw [ho] at h
    cases hr : StoredObject.read? object <;> simp [hr] at h

/-- Where there is nothing to put in place, an ingress of the record goes away. -/
private theorem placed_ingress_of_none (calm : s.Faultless) (ready : ingress.Ready env ns s)
    (none : ingressObject? env ns config = none) :
    (ensureIngress config env ns).outcome s = .done () ∧
      Placed config env ns [ingress] s ((ensureIngress config env ns).after s) := by
  obtain ⟨read, hread, hown, hfree⟩ := ready
  have hlook : (request (.getObject (ingressAddress ns))).outcome s = .done read :=
    look_done.2 ⟨calm _, hread⟩
  have hnil : ingress.portion config env ns = [] := by rw [portion, none]; rfl
  rw [ensureIngress_of_none none, removeOwned_eq, outcome_bind_done hlook, after_bind_done hlook,
    after_look (calm _)]
  refine ⟨(clear_of_miss env read (calm _)).1, placed_singleton ?_ (fun _ => ?_) fun text ht => ?_⟩
  · rw [hnil]
    exact fun m hm => absurd hm List.not_mem_nil
  · refine List.forall_mem_singleton.2 ?_
    cases read with
    | none => exact absent_of_read hread
    | some existing =>
      rw [clear_of_own hown, (withdraw_of_miss (calm _)).2, Store.object?_deleteObject, if_pos rfl]
      cases ho : s.object? (ingressAddress ns).text with
      | none => rfl
      | some object =>
        rw [ho] at hfree
        exact if_neg (Bool.eq_false_iff.1 hfree)
  · exact (framed_clear env (ingressAddress ns) read).frame s text fun heq =>
      ht ⟨_, List.mem_singleton_self _, heq.symm⟩

private theorem placed_ingress (calm : s.Faultless) (ready : ingress.Ready env ns s) :
    (ensureIngress config env ns).outcome s = .done () ∧
      Placed config env ns [ingress] s ((ensureIngress config env ns).after s) := by
  cases ho : ingressObject? env ns config with
  | none => exact placed_ingress_of_none calm ready ho
  | some object =>
    rw [ensureIngress_of_some ho]
    refine placed_of_apply calm ?_
    rw [portion, ho]
    rfl

theorem ensure_placed (child : Child) (calm : s.Faultless) (ready : child.Ready env ns s) :
    (child.ensure config env ns).outcome s = .done () ∧
      Placed config env ns [child] s ((child.ensure config env ns).after s) := by
  cases child with
  | «namespace» => exact placed_namespace calm ready
  | ingress => exact placed_ingress calm ready
  | descriptor =>
    show (ensureDescriptor config env ns).outcome s = .done () ∧
      Placed config env ns [descriptor] s ((ensureDescriptor config env ns).after s)
    rw [ensureDescriptor_eq]
    exact placed_of_apply calm rfl

/-! ## Putting all children in place -/

theorem Ready.of_kept (h : child.Ready env ns s)
    (kept : ∀ text, child.reach text → left.object? text = s.object? text) :
    child.Ready env ns left := by
  have hread {target : Address} (ht : child.reach target.text) :
      left.readObject target = s.readObject target := by
    rw [Store.readObject, kept _ ht]
    rfl
  cases child with
  | «namespace» =>
    unfold Ready at h ⊢
    rwa [hread (reach_namespace ns)]
  | ingress =>
    unfold Ready at h ⊢
    rwa [hread (reach_ingress ns), kept _ (reach_ingress ns)]
  | descriptor => trivial

/-- A child that is in place stays there while others are put in place. -/
private theorem Placed.cons (first : Placed config env ns [child] s mid)
    (rest : Placed config env ns children mid left) (new : child ∉ children) :
    Placed config env ns (child :: children) s left := by
  have hkept : ∀ text, child.reach text → left.object? text = mid.object? text := by
    refine fun text ht => rest.kept text fun other ho hplace => ?_
    refine reach_disjoint ?_ ht hplace.reach
    rintro rfl
    exact new ho
  refine ⟨List.forall_mem_cons.2 ⟨fun m hm => ?_, rest.put⟩,
    List.forall_mem_cons.2 ⟨fun hnil target htarget => ?_, rest.cleared⟩, fun text ht => ?_⟩
  · rw [hkept _ (Place.reach ⟨m.target, target_mem_homes hm, rfl⟩)]
    exact first.put child (List.mem_singleton_self child) m hm
  · rw [hkept _ (Place.reach ⟨target, htarget, rfl⟩)]
    exact first.cleared child (List.mem_singleton_self child) hnil target htarget
  · obtain ⟨hchild, hchildren⟩ := List.forall_mem_cons.1 ht
    rw [rest.kept text hchildren]
    exact first.kept text fun other ho => List.mem_singleton.1 ho ▸ hchild

end Child

namespace Reconcile

open Child

variable {config : Config} {env : Environment} {ns : String} {s : Store} {children : List Child}

theorem ensureAll_placed (calm : s.Faultless) (distinct : children.Nodup)
    (ready : ∀ child ∈ children, child.Ready env ns s) :
    (ensureAll config env ns children).outcome s = .done none ∧
      Placed config env ns children s ((ensureAll config env ns children).after s) := by
  induction children generalizing s with
  | nil =>
    exact ⟨rfl, fun child hc => absurd hc List.not_mem_nil,
      fun child hc => absurd hc List.not_mem_nil, fun _ _ => rfl⟩
  | cons child children ih =>
    obtain ⟨hnew, hdistinct⟩ := List.nodup_cons.1 distinct
    obtain ⟨hready, hrest⟩ := List.forall_mem_cons.1 ready
    obtain ⟨hdone, hplaced⟩ : _ ∧ Placed config env ns [child] s _ :=
      ensure_placed child calm hready
    have hattempt : (child.ensure config env ns).attempt.outcome s = .done (.ok ()) := by
      rw [outcome_attempt, hdone]
      rfl
    have hcalm := faultless_after calm (child.ensure config env ns)
    have hready' : ∀ other ∈ children,
        other.Ready env ns ((child.ensure config env ns).after s) := by
      refine fun other ho => (hrest other ho).of_kept fun text ht => ?_
      refine hplaced.kept text fun first hfirst hplace => ?_
      rw [List.mem_singleton.1 hfirst] at hplace
      refine reach_disjoint ?_ ht hplace.reach
      rintro rfl
      exact hnew ho
    obtain ⟨houtcome, hall⟩ := ih hcalm hdistinct hready'
    unfold ensureAll
    rw [bind_eq, outcome_bind_done hattempt, after_bind_done hattempt, after_attempt]
    exact ⟨houtcome, hplaced.cons hall hnew⟩

/-! ## Looking at the children -/

/-- The health of the deployment of one service, if there is one. -/
def unitOf (service : String) : Option StoredObject → UnitHealth
  | some app => .ofObject service app
  | none => .missing service

/-- The health of the deployment of one service, as it is found in a cluster. -/
def unitIn (config : Config) (pr : UInt32) (s : Store) (service : String) : UnitHealth :=
  unitOf service (s.readObject (applicationAddress pr service config)).toOption.join

def healthIn (config : Config) (env : Environment) (s : Store) : Health :=
  .ofUnits (env.spec.uniqueServices.map (unitIn config env.spec.prNumber s))

def costIn (config : Config) (env : Environment) (ns : String) (s : Store) : CostEstimate :=
  .of (s.podsIn ns) (CostEstimate.hoursOf env.spec.ttlSeconds) config.rates

/-- The deployments of all services can be read, as far as they are there. -/
def Legible (config : Config) (pr : UInt32) (services : List String) (s : Store) : Prop :=
  ∀ service ∈ services, ∃ app, s.readObject (applicationAddress pr service config) = .ok app

private theorem unitHealths_legible {pr : UInt32} {services : List String} (calm : s.Faultless)
    (legible : Legible config pr services s) :
    (unitHealths config pr services).outcome s = .done (services.map (unitIn config pr s)) ∧
      (unitHealths config pr services).after s = s := by
  induction services with
  | nil => exact ⟨rfl, rfl⟩
  | cons service services ih =>
    obtain ⟨⟨app, happ⟩, hrest⟩ := List.forall_mem_cons.1 legible
    obtain ⟨hdone, hafter⟩ := ih hrest
    have hlook : (request (.getObject (applicationAddress pr service config))).outcome s =
        .done app := look_done.2 ⟨calm _, happ⟩
    have hunit : unitIn config pr s service = unitOf service app := by
      rw [unitIn, happ]
      rfl
    have hcons : unitHealths config pr (service :: services) =
        (request (.getObject (applicationAddress pr service config))).bind fun app =>
          (unitHealths config pr services).bind fun units =>
            .done (unitOf service app :: units) := by
      rw [unitHealths, bind_eq]
      congr 1
      funext app
      cases app <;> rfl
    rw [hcons, outcome_bind_done hlook, after_bind_done hlook, after_look (calm _),
      outcome_bind_done hdone, after_bind_done hdone, hafter, List.map_cons, hunit]
    exact ⟨rfl, rfl⟩

private theorem healthOf_legible (calm : s.Faultless)
    (legible : Legible config env.spec.prNumber env.spec.uniqueServices s) :
    (healthOf config env).outcome s = .done (some (healthIn config env s)) ∧
      (healthOf config env).after s = s := by
  obtain ⟨hdone, hafter⟩ := unitHealths_legible calm legible
  have hhealth : (deploymentHealth config env).attempt.outcome s =
      .done (.ok (healthIn config env s)) := by
    rw [outcome_attempt]
    exact congrArg Outcome.attempt (outcome_bind_done hdone)
  have hsame : (deploymentHealth config env).attempt.after s = s := by
    rw [after_attempt]
    exact (after_bind_done hdone).trans hafter
  have heq : healthOf config env =
      (deploymentHealth config env).attempt.bind fun x => .done x.toOption := rfl
  rw [heq, outcome_bind_done hhealth, after_bind_done hhealth]
  exact ⟨rfl, hsame⟩

private theorem costOf_calm (config : Config) (env : Environment) (ns : String)
    (calm : s.Faultless) :
    (costOf config env ns).outcome s = .done (some (costIn config env ns s)) ∧
      (costOf config env ns).after s = s := by
  have hanswer : s.answer (.listPods ns) = (.ok (s.podsIn ns), s) :=
    Store.answer_of_miss (calm _) rfl
  have hlist : (inquire (.listPods ns)).outcome s = .done (.ok (s.podsIn ns)) := by
    rw [outcome_inquire, hanswer]
  have hsame : (inquire (.listPods ns)).after s = s := by
    rw [after_inquire, hanswer]
  exact ⟨outcome_bind_done hlist, (after_bind_done hlist).trans hsame⟩

/-- The deployments are no children, so that they are found as they were. -/
private theorem readObject_application {left : Store} (pr : UInt32) (service : String)
    (placed : Placed config env ns children s left) :
    left.readObject (applicationAddress pr service config) =
      s.readObject (applicationAddress pr service config) := by
  have happ : deployments (applicationAddress pr service config).text :=
    Address.ofKinds_text (by decide) (by decide) _ _
  have hkept := placed.kept (applicationAddress pr service config).text fun child _ hplace => by
    refine Address.OfKinds.disjoint ?_ happ hplace.reach
    cases child <;> decide
  rw [Store.readObject, hkept]
  rfl

/-- Where nothing fails, all children are put in place, their cost is known and their health is
read. -/
theorem survey_placed (calm : s.Faultless) (ready : ∀ child : Child, child.Ready env ns s)
    (legible : Legible config env.spec.prNumber env.spec.uniqueServices s) :
    findings config env ns s =
        ⟨none, some (costIn config env ns s), some (healthIn config env s)⟩ ∧
      Placed config env ns Child.all s ((survey config env ns).after s) := by
  obtain ⟨hdone, hplaced⟩ : _ ∧ Placed config env ns Child.all s _ :=
    ensureAll_placed calm (by decide) fun child _ => ready child
  have hsteady : (ensureAll config env ns Child.all).Steady _ _ := steady_ensureAll (by decide)
  have hcalm := faultless_after calm (ensureAll config env ns Child.all)
  have hcost : costIn config env ns ((ensureAll config env ns Child.all).after s) =
      costIn config env ns s := by
    rw [costIn, Store.podsIn, hsteady.pods]
    rfl
  have hhealth : healthIn config env ((ensureAll config env ns Child.all).after s) =
      healthIn config env s := by
    unfold healthIn unitIn
    simp only [readObject_application env.spec.prNumber _ hplaced]
  have hlegible : Legible config env.spec.prNumber env.spec.uniqueServices
      ((ensureAll config env ns Child.all).after s) := fun service hs => by
    rw [readObject_application env.spec.prNumber service hplaced]
    exact legible service hs
  obtain ⟨hpods, hsame⟩ := costOf_calm config env ns hcalm
  obtain ⟨hread, hsame'⟩ := healthOf_legible hcalm hlegible
  rw [hcost] at hpods
  rw [hhealth] at hread
  -- There is no failure to report.
  have hrest : survey config env ns = (ensureAll config env ns Child.all).bind fun fault =>
      (reportIf (fault.map fun e =>
        .converging env .warning "MaterializeFailed" (some e.message))).bind fun _ =>
          (costOf config env ns).bind fun cost => (healthOf config env).bind fun health =>
            .done ⟨fault, cost, health⟩ := rfl
  have houtcome : (survey config env ns).outcome s =
      .done ⟨none, some (costIn config env ns s), some (healthIn config env s)⟩ := by
    rw [hrest, outcome_bind_done hdone, Option.map_none, reportIf, pure_eq, bind_done,
      outcome_bind_done hpods, hsame, outcome_bind_done hread]
    rfl
  have hafter : (survey config env ns).after s = (ensureAll config env ns Child.all).after s := by
    rw [hrest, after_bind_done hdone, Option.map_none, reportIf, pure_eq, bind_done,
      after_bind_done hpods, hsame, after_bind_done hread]
    exact hsame'
  rw [findings, houtcome, hafter]
  exact ⟨rfl, hplaced⟩

end Reconcile
end PreviewControl
