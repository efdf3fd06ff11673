import PreviewControl.Proofs.StoreLaws
import PreviewControl.Proofs.Upkeep

/-!
# Objects as they are rendered

Every object that is put in place for a record can be read back. It names the record as its owner,
and nothing holds it or has marked it as being deleted.
-/
namespace PreviewControl

/-! ## Values without garbled parts -/

namespace Json

/-- No part of the value is garbled. -/
def Settled (j : Json) : Prop := j.settled?.isSome = true

private theorem isSome_settledItems? {xs : List Json} :
    (settledItems? xs).isSome = true ↔ ∀ x ∈ xs, x.Settled := by
  induction xs with
  | nil => simp [settledItems?]
  | cons x xs ih =>
    rw [List.forall_mem_cons, ← ih, Settled, settledItems?]
    cases x.settled? <;> cases settledItems? xs <;> simp

theorem isSome_settledFields? {fs : List (String × Json)} :
    (settledFields? fs).isSome = true ↔ ∀ f ∈ fs, f.2.Settled := by
  induction fs with
  | nil => simp [settledFields?]
  | cons f fs ih =>
    obtain ⟨key, value⟩ := f
    rw [List.forall_mem_cons, ← ih, Settled, settledFields?]
    cases value.settled? <;> cases settledFields? fs <;> simp

@[simp] theorem settled_str (s : String) : (str s).Settled := rfl
@[simp] theorem settled_int (n : Int) : (int n).Settled := rfl
@[simp] theorem settled_bool (b : Bool) : (bool b).Settled := rfl

@[simp] theorem settled_arr {xs : List Json} : (arr xs).Settled ↔ ∀ x ∈ xs, x.Settled := by
  rw [← isSome_settledItems?, Settled, settled?, Option.isSome_map]

@[simp] theorem settled_obj {fs : List (String × Json)} :
    (obj fs).Settled ↔ ∀ f ∈ fs, f.2.Settled := by
  rw [← isSome_settledFields?, Settled, settled?, Option.isSome_map]

@[simp] theorem settled_texts (xs : List String) : (texts xs).Settled := by simp [texts]

@[simp] theorem settled_textMap (xs : List (String × String)) : (textMap xs).Settled := by
  rw [textMap, settled_obj]
  intro f hf
  obtain ⟨x, _, rfl⟩ := List.mem_map.1 hf
  exact settled_str x.2

/-- A record is settled if the values that are there are. -/
theorem settled_record {fields : List (String × Option Json)}
    (h : ∀ f ∈ fields, ∀ j ∈ f.2, j.Settled) : (record fields).Settled := by
  rw [record, settled_obj]
  intro f hf
  obtain ⟨⟨name, value⟩, hmem, hvalue⟩ := List.mem_filterMap.1 hf
  obtain ⟨j, hj, rfl⟩ := Option.map_eq_some_iff.1 hvalue
  exact h _ hmem j hj

end Json

/-! ## Metadata as they are rendered -/

private theorem mapM_eq_some_map {α β : Type} {f : α → Option β} {g : α → β} {xs : List α}
    (h : ∀ x ∈ xs, f x = some (g x)) : xs.mapM f = some (xs.map g) := by
  induction xs with
  | nil => rfl
  | cons x xs ih =>
    obtain ⟨hx, hxs⟩ := List.forall_mem_cons.1 h
    rw [List.mapM_cons, hx, ih hxs]
    rfl

theorem Json.textMap?_textMap (xs : List (String × String)) : textMap? (.textMap xs) = some xs := by
  rw [textMap, textMap?, List.mapM_map]
  exact (mapM_eq_some_map fun _ _ => rfl).trans (congrArg some (List.map_id xs))

/-- A map of texts is in its normal form if no key comes twice. -/
theorem Schema.normalize_textMap {xs : List (String × String)} (h : (xs.map (·.1)).Nodup) :
    normalize (.entries .text) (.textMap xs) = some (.textMap xs) := by
  have hkeys : ((xs.map fun x => (x.1, Json.str x.2)).map (·.1)).Nodup := by
    rw [List.map_map]
    exact h
  have hall : xs.mapM ((fun f => (normalize .text f.2).map (f.1, ·)) ∘
      fun x => (x.1, Json.str x.2)) = some (xs.map fun x => (x.1, Json.str x.2)) :=
    mapM_eq_some_map fun _ _ => rfl
  rw [normalize, Json.textMap, Json.fields?, Option.bind_some, List.mapM_map, hall,
    Option.map_some, Json.lastOfEach_eq_self hkeys]

namespace Child

variable {config : Config} {env : Environment} {ns : String}

/-- What is stated of an object when it is rendered is all that its metadata hold. -/
theorem read?_metadataOf (env : Environment) (name : String) (space : Option String)
    {annotations : List (String × String)} (h : (annotations.map (·.1)).Nodup) :
    Metadata.read? (metadataOf env name space annotations) =
      some { name := some name, ns := space, labels := some env.identityLabels,
             annotations := some annotations } := by
  have hform (fs : List (String × Json)) : Form.metadata.normalize (.obj fs) =
      (Schema.normalizeFields Form.metadataFields fs).map .obj := rfl
  have htext (v : String) : Schema.normalize .text (.str v) = some (.str v) := rfl
  have hstr (v : String) : (Json.str v).isNull = false := rfl
  have hmap (vs : List (String × String)) : (Json.textMap vs).isNull = false := rfl
  have hlabels : Schema.normalize (.entries .text) (.textMap env.identityLabels) =
      some (.textMap env.identityLabels) := Schema.normalize_textMap (by
    simp [Environment.identityLabels, Environment.managerLabel, Environment.prLabel,
      Environment.repositoryLabel])
  have hannotations := Schema.normalize_textMap h
  have hn : Form.metadata.normalize (metadataOf env name space annotations) =
      some (.obj ([("annotations", .textMap annotations),
        ("labels", .textMap env.identityLabels), ("name", .str name)] ++
          (space.map fun n => ("namespace", Json.str n)).toList)) := by
    cases space <;>
      simp [metadataOf, Json.record, hform, Form.metadataFields, Schema.normalizeFields,
        Schema.opt, hlabels, hannotations, htext, hstr, hmap]
  have hread := Json.textMap?_textMap annotations
  have hread' := Json.textMap?_textMap env.identityLabels
  unfold Metadata.read?
  rw [hn]
  unfold Json.textMap at hread hread' ⊢
  cases space <;>
    simp [Json.fields?, Json.optional, List.lookup_cons, Json.text?, hread, hread', Metadata.named]

/-! ## Objects as they are rendered -/

/-- An object can be read back if its metadata can and nothing else of it is garbled. -/
theorem read?_objectOf (kind : ResourceKind) {metadata : Json} {m : Metadata}
    {members : List (String × Json)} (hm : Metadata.read? metadata = some m)
    (named : ∀ f ∈ members, f.1 ≠ "metadata") (settled : ∀ f ∈ members, f.2.Settled) :
    ∃ stored, StoredObject.read? (objectOf kind metadata members) = some stored ∧
      stored.metadata = m := by
  obtain ⟨given, hgiven⟩ := Option.isSome_iff_exists.1 (Json.isSome_settledFields?.2 settled)
  have hnames : members.filter (·.1 != "metadata") = members :=
    List.filter_eq_self.2 fun f hf => by simpa using named f hf
  have hone : (members.map (·.1)).filter ["metadata"].contains = [] := by
    refine List.filter_eq_nil_iff.2 fun key hkey => ?_
    obtain ⟨f, hf, rfl⟩ := List.mem_map.1 hkey
    simpa using named f hf
  unfold objectOf StoredObject.read?
  simp [Json.distinct?, hone, hnames, Json.defaulted, List.lookup_cons, hm, Json.settledFields?,
    Json.settled?, hgiven]

/-- An object that has been rendered for a record. -/
inductive Rendered (env : Environment) : Json → Prop where
  | of (kind : ResourceKind) (name : String) (space : Option String)
      (annotations : List (String × String)) (members : List (String × Json))
      (marked : ∀ mark ∈ env.ownerAnnotations, annotations.lookup mark.1 = some mark.2)
      (distinct : (annotations.map (·.1)).Nodup) (named : ∀ f ∈ members, f.1 ≠ "metadata")
      (settled : ∀ f ∈ members, f.2.Settled) :
      Rendered env (objectOf kind (metadataOf env name space annotations) members)

namespace Rendered

variable {object : Json}

/-- An object that has been rendered can be read back, with all the marks of the record. -/
theorem read_marks (h : Rendered env object) : ∃ stored, StoredObject.read? object = some stored ∧
    stored.metadata.isDeleting = false ∧
    ∀ mark ∈ env.ownerAnnotations, stored.metadata.annotationAt? mark.1 = some mark.2 := by
  obtain ⟨kind, name, space, annotations, members, marked, distinct, named, settled⟩ := h
  obtain ⟨stored, hstored, hm⟩ :=
    read?_objectOf kind (read?_metadataOf env name space distinct) named settled
  refine ⟨stored, hstored, ?_, ?_⟩
  · rw [hm]
    rfl
  · rw [hm]
    exact marked

/-- An object that has been rendered names the record as its owner. -/
theorem read (h : Rendered env object) : ∃ stored, StoredObject.read? object = some stored ∧
    stored.metadata.isDeleting = false ∧
    stored.metadata.annotationAt? Environment.uidMark = some (env.metadata.uid.getD "") := by
  obtain ⟨stored, hstored, hdeleting, hmarks⟩ := h.read_marks
  have hmem : (Environment.uidMark, env.metadata.uid.getD "") ∈ env.ownerAnnotations := by
    simp [Environment.ownerAnnotations]
  exact ⟨stored, hstored, hdeleting, hmarks _ hmem⟩

theorem not_held (h : Rendered env object) : Store.objectIsHeld object = false := by
  obtain ⟨kind, name, space, annotations, members, marked, distinct, named, settled⟩ := h
  cases space <;>
    simp [Store.objectIsHeld, objectOf, metadataOf, Json.record, Json.follow, Json.get?,
      List.lookup_cons, Json.items?]

theorem plain (kind : ResourceKind) (name : String) (space : Option String)
    {members : List (String × Json)} (named : ∀ f ∈ members, f.1 ≠ "metadata")
    (settled : ∀ f ∈ members, f.2.Settled) :
    Rendered env (objectOf kind (metadataOf env name space env.ownerAnnotations) members) := by
  refine .of kind name space _ _ ?_ ?_ named settled
  · simp [Environment.ownerAnnotations, List.lookup_cons, Environment.uidMark,
      Environment.nameMark, Environment.namespaceMark]
  · simp [Environment.ownerAnnotations, Environment.uidMark,
      Environment.nameMark, Environment.namespaceMark]

end Rendered

theorem rendered_namespace : Rendered env (namespaceObject env ns) :=
  .plain .namespace ns none (by simp) (by simp)

theorem rendered_quota : Rendered env (quotaObject env ns config) := by
  refine .plain .resourceQuota quotaName (some ns) (by simp) ?_
  have hard : (Json.record ((hardQuota env.spec config).map fun q =>
      (q.1, q.2.map Json.str))).Settled := by
    refine Json.settled_record fun f hf j hj => ?_
    obtain ⟨q, _, rfl⟩ := List.mem_map.1 hf
    obtain ⟨text, _, rfl⟩ := Option.map_eq_some_iff.1 hj
    exact Json.settled_str text
  simpa using hard

theorem rendered_denyAll : Rendered env (denyAllPolicy env ns) :=
  .plain .networkPolicy _ (some ns) (by simp) (by simp)

theorem rendered_allowIngress : Rendered env (allowIngressPolicy env ns config) :=
  .plain .networkPolicy _ (some ns) (by simp) (by simp [podsOf, ownPods])

theorem rendered_allowEgress : Rendered env (allowEgressPolicy env ns) :=
  .plain .networkPolicy _ (some ns) (by simp) (by simp [podsOf, ownPods, portRule])

theorem rendered_ingress {object : Json} (h : ingressObject? env ns config = some object) :
    Rendered env object := by
  unfold ingressObject? at h
  split at h
  · cases h
  · injection h with h
    subst h
    refine .of .ingress ingressName (some ns) _ _ ?_ ?_ (by simp) ?_
    · simp [ingressAnnotations, Environment.ownerAnnotations, List.lookup_cons,
        Environment.uidMark, Environment.nameMark, Environment.namespaceMark]
    · simp [ingressAnnotations, Environment.ownerAnnotations, Environment.uidMark,
        Environment.nameMark, Environment.namespaceMark]
    · simp [ingressPath]

theorem rendered_descriptor : Rendered env (descriptorObject env ns config) := by
  refine .plain .applicationSet _ _ (by simp) ?_
  simp [descriptorElements, descriptorTemplate, descriptorSource, metadataOf, Json.record]

/-- All that a pass puts in place has been rendered for the record. -/
theorem rendered_part {m : Manifest} (h : m ∈ parts config env ns) : Rendered env m.object := by
  simp only [parts, namespaceParts, List.mem_append, List.mem_cons, List.not_mem_nil, or_false,
    Option.mem_toList, Option.map_eq_some_iff] at h
  rcases h with ((rfl | rfl | rfl | rfl | rfl) | ⟨object, hobject, rfl⟩) | rfl
  · exact rendered_namespace
  · exact rendered_quota
  · exact rendered_denyAll
  · exact rendered_allowIngress
  · exact rendered_allowEgress
  · exact rendered_ingress hobject
  · exact rendered_descriptor

end Child
end PreviewControl
