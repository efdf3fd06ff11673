import PreviewControl.Child.Upkeep
import PreviewControl.Cluster.Trace

/-!
# What the upkeep of children does

The calls that putting children in place can make, and the traces of a removal. A child is cleared
if it is read as absent or as another record's, or if its deletion is accepted; any failure on the
way there is the failure of the removal.
-/
namespace PreviewControl

open Pass

namespace Environment

/-- Only an identity that is stated and is not the record's own counts as foreign. -/
theorem isForeign_iff {env : Environment} {child : Metadata} :
    env.isForeign child = true ↔
      ∃ uid, child.annotationAt? uidMark = some uid ∧ env.metadata.uid ≠ some uid := by
  unfold isForeign owns
  cases child.annotationAt? uidMark with
  | none => simp
  | some v =>
    cases hu : env.metadata.uid with
    | none => simp
    | some u =>
      by_cases h : v = u
      · simp [h]
      · simp [h, Ne.symm h]

end Environment

namespace Child

/-! ## Removal -/

/-- The child at an address is out of the way: it is absent, it names another record, or its
deletion has been accepted. -/
inductive Cleared (env : Environment) (target : Address) : List Deed → Prop where
  | absent : Cleared env target [.call (.getObject target) (.ok none)]
  | foreign {object : StoredObject} {uid : String}
      (stated : object.metadata.annotationAt? Environment.uidMark = some uid)
      (other : env.metadata.uid ≠ some uid) :
    Cleared env target [.call (.getObject target) (.ok (some object))]
  | deleted {object : StoredObject} {found : Bool}
      (own : env.isForeign object.metadata = false) :
    Cleared env target [.call (.getObject target) (.ok (some object)),
      .call (.deleteObject target) (.ok found)]

/-- The reading or the deletion of the child at an address has failed. -/
inductive Blocked (env : Environment) (target : Address) (e : Failure) : List Deed → Prop where
  | unread : Blocked env target e [.call (.getObject target) (.error e)]
  | undeleted {object : StoredObject} (own : env.isForeign object.metadata = false) :
    Blocked env target e [.call (.getObject target) (.ok (some object)),
      .call (.deleteObject target) (.error e)]

theorem Cleared.gives {env : Environment} {target : Address} {t : List Deed}
    (h : Cleared env target t) : ∃ found, (removeOwned env target).Gives t found := by
  cases h with
  | absent => exact ⟨false, .call (.start _)⟩
  | @foreign object uid stated other =>
    have hf : env.isForeign object.metadata = true :=
      Environment.isForeign_iff.2 ⟨uid, stated, other⟩
    refine ⟨false, .call ?_⟩
    simp [hf]
  | @deleted object found own =>
    refine ⟨found, .call ?_⟩
    simp only [ofExcept_ok, bind_done, own]
    exact gives_request.2 rfl

theorem Blocked.breaks {env : Environment} {target : Address} {e : Failure} {t : List Deed}
    (h : Blocked env target e t) : (removeOwned env target).Breaks t e := by
  cases h with
  | unread => exact .call (.start _)
  | undeleted own =>
    refine .call ?_
    simp only [ofExcept_ok, bind_done, own]
    exact breaks_request.2 rfl

theorem blocked_of_breaks {env : Environment} {target : Address} {t : List Deed} {e : Failure}
    (h : (removeOwned env target).Breaks t e) : Blocked env target e t := by
  rcases breaks_bind.1 h with hr | ⟨t₁, t₂, read, rfl, hr, hd⟩
  · obtain rfl := breaks_request.1 hr
    exact .unread
  · obtain rfl := gives_request.1 hr
    cases read with
    | none => exact absurd hd breaks_done
    | some object =>
      by_cases hf : env.isForeign object.metadata = true
      · simp only [hf, if_true] at hd
        exact absurd hd breaks_done
      · simp only [hf, Bool.false_eq_true, if_false] at hd
        obtain rfl := breaks_request.1 hd
        exact .undeleted (Bool.eq_false_iff.2 hf)

theorem cleared_of_gives {env : Environment} {target : Address} {t : List Deed} {found : Bool}
    (h : (removeOwned env target).Gives t found) : Cleared env target t := by
  obtain ⟨t₁, t₂, read, rfl, hr, hd⟩ := gives_bind.1 h
  obtain rfl := gives_request.1 hr
  cases read with
  | none =>
    obtain ⟨rfl, _⟩ := gives_done.1 hd
    exact .absent
  | some object =>
    by_cases hf : env.isForeign object.metadata = true
    · obtain ⟨uid, stated, other⟩ := Environment.isForeign_iff.1 hf
      simp only [hf, if_true] at hd
      obtain ⟨rfl, _⟩ := gives_done.1 hd
      exact .foreign stated other
    · simp only [hf, Bool.false_eq_true, if_false] at hd
      obtain rfl := gives_request.1 hd
      exact .deleted (Bool.eq_false_iff.2 hf)

/-- The removal of a child makes a second call only for an object that is not foreign. -/
theorem asks_removeOwned {env : Environment} {target : Address} {t : List Deed} {c : Call}
    (h : (removeOwned env target).Asks t c) : (t = [] ∧ c = .getObject target) ∨
      ∃ object, t = [.call (.getObject target) (.ok (some object))] ∧
        env.isForeign object.metadata = false ∧ c = .deleteObject target := by
  rcases asks_bind.1 h with hq | ⟨t₁, t₂, read, rfl, hr, hd⟩
  · exact .inl (asks_request.1 hq)
  · obtain rfl := gives_request.1 hr
    cases read with
    | none => exact absurd hd asks_done
    | some object =>
      by_cases hf : env.isForeign object.metadata = true
      · simp only [hf, if_true] at hd
        exact absurd hd asks_done
      · simp only [hf, Bool.false_eq_true, if_false] at hd
        obtain ⟨rfl, rfl⟩ := asks_request.1 hd
        exact .inr ⟨object, rfl, Bool.eq_false_iff.2 hf, rfl⟩

variable {config : Config} {env : Environment} {ns : String}

theorem gives_remove {child : Child} {t : List Deed} :
    (child.remove config env ns).Gives t () ↔ Cleared env (child.address config env ns) t := by
  constructor
  · intro h
    obtain ⟨t₁, t₂, found, rfl, hf, hd⟩ := gives_bind.1 h
    obtain ⟨rfl, _⟩ := gives_done.1 hd
    rw [List.append_nil]
    exact cleared_of_gives hf
  · intro h
    obtain ⟨found, hf⟩ := h.gives
    exact Leads.bind hf _

theorem breaks_remove {child : Child} {t : List Deed} {e : Failure} :
    (child.remove config env ns).Breaks t e ↔ Blocked env (child.address config env ns) e t := by
  constructor
  · intro h
    rcases breaks_bind.1 h with hr | ⟨_, _, _, _, _, hd⟩
    · exact blocked_of_breaks hr
    · exact absurd hd breaks_done
  · exact fun h => Leads.bind h.breaks _

theorem asks_remove {child : Child} {t : List Deed} {c : Call} :
    (child.remove config env ns).Asks t c ↔
      (removeOwned env (child.address config env ns)).Asks t c := by
  constructor
  · intro h
    rcases asks_bind.1 h with hr | ⟨_, _, _, _, _, hd⟩
    · exact hr
    · exact absurd hd asks_done
  · exact fun h => asks_bind.2 (.inl h)

/-! ## Putting in place -/

/-- An object that is made with a name lives under it. -/
theorem manifest_of_objectOf (env : Environment) (kind : ResourceKind) (name : String)
    (space : Option String) (annotations : List (String × String))
    (members : List (String × Json)) :
    Manifest.of kind (objectOf kind (metadataOf env name space annotations) members) =
      .ok ⟨⟨kind, name, space⟩, objectOf kind (metadataOf env name space annotations) members⟩ := by
  cases space with
  | none =>
    simp [Manifest.of, objectOf, metadataOf, Json.record, Json.follow, Json.get?, Json.text?,
      List.lookup_cons]
  | some n =>
    simp [Manifest.of, objectOf, metadataOf, Json.record, Json.follow, Json.get?, Json.text?,
      List.lookup_cons]

def policyAddress (ns name : String) : Address := ⟨.networkPolicy, name, some ns⟩

/-- The objects that make up the namespace, with the places where they live. -/
def namespaceParts (config : Config) (env : Environment) (ns : String) : List Manifest :=
  [⟨namespaceAddress ns, namespaceObject env ns⟩,
   ⟨⟨.resourceQuota, quotaName, some ns⟩, quotaObject env ns config⟩,
   ⟨policyAddress ns "default-deny-all", denyAllPolicy env ns⟩,
   ⟨policyAddress ns "allow-ingress", allowIngressPolicy env ns config⟩,
   ⟨policyAddress ns "allow-egress", allowEgressPolicy env ns⟩]

/-- All that the children of an environment consist of, with the places where it lives. -/
def parts (config : Config) (env : Environment) (ns : String) : List Manifest :=
  namespaceParts config env ns ++
    ((ingressObject? env ns config).map (Manifest.mk (ingressAddress ns))).toList ++
    [⟨descriptorAddress env.spec.prNumber config, descriptorObject env ns config⟩]

theorem namespaceManifests_eq :
    namespaceManifests env ns config = .ok (namespaceParts config env ns) := by
  have hs := manifest_of_objectOf env .namespace ns none env.ownerAnnotations []
  have hq : Manifest.of .resourceQuota (quotaObject env ns config) = .ok _ :=
    manifest_of_objectOf env .resourceQuota quotaName (some ns) env.ownerAnnotations _
  have hp (name : String) (directions : List String) (rules : List (String × Json)) :
      Manifest.of .networkPolicy (policyObject env ns name directions rules) = .ok _ :=
    manifest_of_objectOf env .networkPolicy name (some ns) env.ownerAnnotations _
  have hr : (policies env ns config).mapM (Manifest.of .networkPolicy) =
      .ok [⟨policyAddress ns "default-deny-all", denyAllPolicy env ns⟩,
        ⟨policyAddress ns "allow-ingress", allowIngressPolicy env ns config⟩,
        ⟨policyAddress ns "allow-egress", allowEgressPolicy env ns⟩] := by
    simp only [policies, List.mapM_cons, List.mapM_nil, denyAllPolicy, allowIngressPolicy,
      allowEgressPolicy, hp]
    rfl
  simp only [namespaceManifests, namespaceObject, hs, hq, hr]
  rfl

theorem manifest_of_ingressObject {object : Json} (h : ingressObject? env ns config = some object) :
    Manifest.of .ingress object = .ok ⟨ingressAddress ns, object⟩ := by
  unfold ingressObject? at h
  split at h
  · cases h
  · injection h with h
    subst h
    exact manifest_of_objectOf env .ingress ingressName (some ns) _ _

theorem manifest_of_descriptorObject :
    Manifest.of .applicationSet (descriptorObject env ns config) =
      .ok ⟨descriptorAddress env.spec.prNumber config, descriptorObject env ns config⟩ :=
  manifest_of_objectOf env .applicationSet _ _ _ _

/-- Putting the namespace in place applies all its parts, unless the namespace is on its way out. -/
theorem ensureNamespace_eq : ensureNamespace config env ns =
    (request (.getObject (namespaceAddress ns))).bind fun existing =>
      if existing.any (·.metadata.isDeleting) then .fail (stillTerminating env ns)
      else applyAll (namespaceParts config env ns) := by
  unfold ensureNamespace
  rw [namespaceManifests_eq]
  rfl

theorem ensureIngress_of_some {object : Json} (h : ingressObject? env ns config = some object) :
    ensureIngress config env ns = request (.apply ⟨ingressAddress ns, object⟩) := by
  unfold ensureIngress
  simp only [h, manifest_of_ingressObject h]
  rfl

theorem ensureIngress_of_none (h : ingressObject? env ns config = none) :
    ensureIngress config env ns =
      (removeOwned env (ingressAddress ns)).bind fun _ => .done () := by
  unfold ensureIngress
  rw [h]
  rfl

theorem ensureDescriptor_eq : ensureDescriptor config env ns =
    request (.apply ⟨descriptorAddress env.spec.prNumber config,
      descriptorObject env ns config⟩) := by
  unfold ensureDescriptor
  rw [manifest_of_descriptorObject]
  rfl

/-- A call that putting the children of an environment in place can make. -/
inductive Upkeep (config : Config) (env : Environment) (ns : String) : Call → Prop where
  | apply {m : Manifest} (part : m ∈ parts config env ns) : Upkeep config env ns (.apply m)
  | look (target : Address) : Upkeep config env ns (.getObject target)
  | withdraw : Upkeep config env ns (.deleteObject (ingressAddress ns))

theorem makes_applyAll {P : Call → Prop} {ms : List Manifest} (h : ∀ m ∈ ms, P (.apply m)) :
    (applyAll ms).Makes P := by
  induction ms with
  | nil => exact makes_done ()
  | cons m ms ih =>
    refine makes_bind (makes_request (h m (by simp))) fun _ => ih fun n hn => ?_
    exact h n (List.mem_cons_of_mem m hn)

private theorem makes_ensureNamespace :
    (ensureNamespace config env ns).Makes (Upkeep config env ns) := by
  rw [ensureNamespace_eq]
  refine makes_bind (makes_request (.look _)) fun existing => ?_
  split
  · exact makes_fail _
  · refine makes_applyAll fun m hm => .apply ?_
    exact List.mem_append_left _ (List.mem_append_left _ hm)

private theorem makes_ensureIngress :
    (ensureIngress config env ns).Makes (Upkeep config env ns) := by
  cases ho : ingressObject? env ns config with
  | none =>
    rw [ensureIngress_of_none ho]
    refine makes_bind (fun t c hc => ?_) fun _ => makes_done ()
    rcases asks_removeOwned hc with ⟨_, rfl⟩ | ⟨_, _, _, rfl⟩
    · exact .look _
    · exact .withdraw
  | some object =>
    rw [ensureIngress_of_some ho]
    refine makes_request (.apply (List.mem_append_left _ (List.mem_append_right _ ?_)))
    simp [ho]

private theorem makes_ensureDescriptor :
    (ensureDescriptor config env ns).Makes (Upkeep config env ns) := by
  rw [ensureDescriptor_eq]
  exact makes_request (.apply (List.mem_append_right _ (List.mem_singleton_self _)))

theorem makes_ensure (child : Child) :
    (child.ensure config env ns).Makes (Upkeep config env ns) := by
  cases child with
  | «namespace» => exact makes_ensureNamespace
  | ingress => exact makes_ensureIngress
  | descriptor => exact makes_ensureDescriptor

theorem makes_unitHealths (pr : UInt32) (services : List String) :
    (unitHealths config pr services).Makes (Upkeep config env ns) := by
  induction services with
  | nil => exact makes_done []
  | cons service services ih =>
    refine makes_bind (makes_request (.look _)) fun app => makes_bind ih fun units => ?_
    exact makes_done _

theorem makes_deploymentHealth :
    (deploymentHealth config env).Makes (Upkeep config env ns) := by
  exact makes_bind (makes_unitHealths _ _) fun units => makes_done _

end Child
end PreviewControl
