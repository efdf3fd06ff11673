import PreviewControl.Http.Client
import PreviewControl.Proofs.StatusLaws
import PreviewControl.Proofs.Versioning

/-!
# Patches that are merged into records

The patches that the operator sends are merged into the document of a record. A status is read back
over the one that was there, because a member that is left out in a patch does not mean that there
is none; finalizers and a version are read back as they were sent.
-/
namespace PreviewControl

open Json (optional_merged)

/-! ## A status that is merged into another one -/

theorem CostEstimate.read?_merged {old : Json} (readable : old = .null ∨ (read? old).isSome = true)
    (c : CostEstimate) : read? (old.mergePatch c.toJson) = some c := by
  show read? (old.mergePatch (.record [("currency", some (.str c.currency)),
    ("hourlyCost", some (.str c.hourly)), ("totalCost", some (.str c.total))])) = some c
  refine Json.read_merged (fun _ => rfl) (by simp) readable fun fields h => ?_
  rw [Json.field_written .text (h "currency"), Json.field_written .text (h "hourlyCost"),
    Json.field_written .text (h "totalCost")]
  rfl

namespace Status

/-- The members of a status that may be left out, as they are read. -/
structure Parts (given : List (String × Json)) (s : Status) : Prop where
  phase : Json.optional given "phase" Phase.read? = some s.phase
  ns : Json.optional given "namespace" Json.text? = some s.ns
  url : Json.optional given "url" Json.text? = some s.url
  costEstimate : Json.optional given "costEstimate" CostEstimate.read? = some s.costEstimate
  createdAt : Json.optional given "createdAt" Json.instant? = some s.createdAt
  expiresAt : Json.optional given "expiresAt" Json.instant? = some s.expiresAt
  lastSyncedAt : Json.optional given "lastSyncedAt" Json.instant? = some s.lastSyncedAt
  observedGeneration :
    Json.optional given "observedGeneration" Json.int64? = some s.observedGeneration

theorem parts_empty : Parts [] {} := by constructor <;> rfl

theorem parts_of_read {given : List (String × Json)} {s : Status}
    (h : read? (.obj given) = some s) : Parts given s := by
  unfold read? at h
  obtain ⟨fields, hfields, h⟩ := Option.bind_eq_some_iff.1 h
  obtain rfl : given = fields := by
    change Json.distinct? _ given = some fields at hfields
    unfold Json.distinct? at hfields
    split at hfields
    · exact Option.some.inj hfields
    · cases hfields
  obtain ⟨_, hphase, h⟩ := Option.bind_eq_some_iff.1 h
  obtain ⟨_, hns, h⟩ := Option.bind_eq_some_iff.1 h
  obtain ⟨_, hurl, h⟩ := Option.bind_eq_some_iff.1 h
  obtain ⟨_, _, h⟩ := Option.bind_eq_some_iff.1 h
  obtain ⟨_, hcost, h⟩ := Option.bind_eq_some_iff.1 h
  obtain ⟨_, hcreated, h⟩ := Option.bind_eq_some_iff.1 h
  obtain ⟨_, hexpires, h⟩ := Option.bind_eq_some_iff.1 h
  obtain ⟨_, hsynced, h⟩ := Option.bind_eq_some_iff.1 h
  obtain ⟨_, hgeneration, h⟩ := Option.bind_eq_some_iff.1 h
  obtain ⟨_, _, h⟩ := Option.bind_eq_some_iff.1 h
  obtain ⟨_, _, h⟩ := Option.bind_eq_some_iff.1 h
  cases h
  exact ⟨hphase, hns, hurl, hcost, hcreated, hexpires, hsynced, hgeneration⟩

private theorem cost_readable {given : List (String × Json)} {was : Option CostEstimate}
    (h : Json.optional given "costEstimate" CostEstimate.read? = some was) :
    (given.lookup "costEstimate").getD .null = .null ∨
      (CostEstimate.read? ((given.lookup "costEstimate").getD .null)).isSome = true := by
  unfold Json.optional at h
  split at h
  · next hl => exact .inl (by rw [hl]; rfl)
  · next hl => exact .inl (by rw [hl]; rfl)
  · next j _ hl =>
    obtain ⟨c, hc, _⟩ := Option.map_eq_some_iff.1 h
    exact .inr (by rw [hl, Option.getD_some, hc]; rfl)

/-- A status is read back from a merge over the one that was shown there before. -/
theorem read?_merged {old : Json} {base : Status} (shown : Parts (old.fields?.getD []) base)
    (readable : old = .null ∨ (read? old).isSome = true) (next : Status) :
    read? (old.mergePatch next.toJson) = some (next.mergedInto base) := by
  refine Json.read_merged (fun _ => rfl) (by simp) readable fun fields h => ?_
  have htext (old : Json) (s : String) : Json.text? (old.mergePatch (.str s)) = some s := rfl
  have htime (old : Json) (t : Instant) :
      Json.instant? (old.mergePatch (.ofInstant t)) = some t := Time.read?_print t
  rw [optional_merged Phase.codec shown.phase Phase.read?_toJson (h "phase"),
    optional_merged .text shown.ns (htext _) (h "namespace"),
    optional_merged .text shown.url (htext _) (h "url"),
    Json.defaulted_merged (.list ServiceStatus.codec) [] (fun _ => rfl) (h "services"),
    optional_merged CostEstimate.codec shown.costEstimate
      (CostEstimate.read?_merged (cost_readable shown.costEstimate)) (h "costEstimate"),
    optional_merged .instant shown.createdAt (htime _) (h "createdAt"),
    optional_merged .instant shown.expiresAt (htime _) (h "expiresAt"),
    optional_merged .instant shown.lastSyncedAt (htime _) (h "lastSyncedAt"),
    optional_merged .int64 shown.observedGeneration Json.Codec.int64.read_write
      (h "observedGeneration"),
    Json.defaulted_merged (.list Condition.codec) [] (fun _ => rfl) (h "conditions"),
    Json.optional_erased .text (fun _ _ => rfl) (h "message")]
  rfl

/-- What a status is merged into shows members that the status has too. -/
private theorem exists_shown {old : Json} {was next : Status} (covers : next.Covers was)
    (readable : old = .null ∨ read? old = some was) :
    ∃ base, Parts (old.fields?.getD []) base ∧ next.Covers base := by
  rcases readable with rfl | h
  · exact ⟨{}, parts_empty, covers_empty next⟩
  · cases old with
    | obj given => exact ⟨was, parts_of_read h, covers⟩
    -- The items of an array are no members by name, and the patch replaces them all.
    | _ => exact ⟨{}, parts_empty, covers_empty next⟩

/-- A status that covers what it is merged into is read back from the merge. -/
theorem read?_merged_of_covers {old : Json} {was next : Status} (covers : next.Covers was)
    (readable : old = .null ∨ read? old = some was) :
    read? (old.mergePatch next.toJson) = some next := by
  obtain ⟨base, shown, covers⟩ := exists_shown covers readable
  rw [read?_merged shown (readable.imp_right fun h => by rw [h]; rfl), covers.mergedInto_eq]

end Status

/-! ## Metadata with other finalizers or another version -/

namespace Json

variable {fields : List (String × Json)} {key : String}

/-- Where no name comes twice, there is at most one field of a name. -/
theorem filter_eq_of_nodup (once : (fields.map (·.1)).Nodup) (key : String) :
    fields.filter (·.1 == key) = (fields.lookup key).toList.map (key, ·) := by
  induction fields with
  | nil => rfl
  | cons f fs ih =>
    obtain ⟨hf, hfs⟩ := List.nodup_cons.1 once
    rw [lookup_cons_if]
    by_cases hkey : f.1 = key
    · have hnone : fs.lookup key = none := lookup_of_not_mem (hkey ▸ hf)
      rw [List.filter_cons_of_pos (by simpa using hkey), if_pos hkey.symm, ih hfs, hnone, ← hkey]
      rfl
    · rw [List.filter_cons_of_neg (by simpa using hkey), if_neg (Ne.symm hkey), ih hfs]

theorem once_setField (once : (fields.map (·.1)).Nodup) (key : String) (value : Json) :
    ((setField key value fields).map (·.1)).Nodup := by
  have hall (names : List String) : names.filter (fun _ => true) = names :=
    List.filter_eq_self.2 fun _ _ => rfl
  have h := nodup_setField (p := fun _ => true) (by rw [hall]; exact once) key value
  rwa [hall] at h

/-- A field that has been put in place is then the only one of its name. -/
theorem filter_setField_self (once : (fields.map (·.1)).Nodup) (value : Json) :
    (setField key value fields).filter (·.1 == key) = [(key, value)] := by
  rw [filter_eq_of_nodup (once_setField once key value), lookup_setField, if_pos rfl]
  rfl

end Json

namespace Metadata

/-- The name of the member that tells the finalizers. -/
def finalizersField : String := "finalizers"

variable {given : List (String × Json)} {m : Metadata}

private theorem normalize_texts (xs : List String) :
    (Schema.items .text).normalize (.texts xs) = some (.texts xs) := by
  have hitem : (fun x => Schema.normalize .text x) ∘ Json.str = fun s => pure (Json.str s) := rfl
  show ((xs.map Json.str).mapM fun x => Schema.normalize .text x).map Json.arr = _
  rw [List.mapM_map, hitem, List.mapM_pure]
  rfl

private theorem last?_singleton {s : Schema} {key : String} {value norm : Json}
    (there : value.isNull = false) (h : s.normalize value = some norm) :
    s.last? [(key, value)] = some (some norm) := by
  simp [Schema.last?, there, h]

/-- Where nothing but the finalizers and the version changes, all else is read as before. -/
private theorem Parts.rewritten {out out' : List (String × Json)} (parts : Parts out m)
    {finalizers : Option (List String)} {version : Option String}
    (same : ∀ name, name ≠ finalizersField → name ≠ versionField →
      out'.lookup name = out.lookup name)
    (others : out'.filter (fun f => !named.contains f.1) = out.filter fun f => !named.contains f.1)
    (hfinalizers : Json.optional out' finalizersField (Json.list? Json.text?) = some finalizers)
    (hversion : Json.optional out' versionField Json.text? = some version) :
    Parts out' { m with finalizers := finalizers, resourceVersion := version } :=
  have kept {β : Type} {name : String} {read : Json → Option β} {b : Option β}
      (hf : name ≠ finalizersField) (hv : name ≠ versionField)
      (hb : Json.optional out name read = some b) : Json.optional out' name read = some b :=
    (Json.optional_congr (same name hf hv)).trans hb
  { name := kept (by decide) (by decide) parts.name
    generateName := kept (by decide) (by decide) parts.generateName
    ns := kept (by decide) (by decide) parts.ns
    uid := kept (by decide) (by decide) parts.uid
    resourceVersion := hversion
    generation := kept (by decide) (by decide) parts.generation
    finalizers := hfinalizers
    labels := kept (by decide) (by decide) parts.labels
    annotations := kept (by decide) (by decide) parts.annotations
    creationTimestamp := kept (by decide) (by decide) parts.creationTimestamp
    deletionTimestamp := kept (by decide) (by decide) parts.deletionTimestamp
    others := parts.others.trans others.symm }

/-- Metadata in which the finalizers have been replaced as a whole. -/
theorem read?_refinalized (once : (given.map (·.1)).Nodup) (h : read? (.obj given) = some m)
    (finalizers : List String) :
    read? (.obj (Json.setField finalizersField (.texts finalizers) given)) =
      some { m with finalizers := some finalizers } := by
  obtain ⟨out, hout, parts⟩ := read?_eq_some_iff.1 h
  have last : (Schema.items .text).last? ((Json.setField finalizersField (.texts finalizers)
      given).filter (·.1 == finalizersField)) = some (some (.texts finalizers)) := by
    rw [Json.filter_setField_self once]
    exact last?_singleton rfl (normalize_texts finalizers)
  obtain ⟨out', hout', hnew, hsame, hfilter⟩ := Schema.normalizeFields_changed rfl
    (fun p hp => Json.filter_setField hp (.texts finalizers) given) last hout
  have hversion : Json.optional out' versionField Json.text? = some m.resourceVersion :=
    (Json.optional_congr (hsame _ (by decide))).trans parts.resourceVersion
  exact read?_eq_some_iff.2 ⟨out', hout', parts.rewritten (fun name hf _ => hsame name hf)
    (hfilter (fun name => !named.contains name) (by decide))
    (Json.optional_written (a := some finalizers) (.list .text) hnew) hversion⟩

/-- Metadata in which the version has been replaced. -/
theorem read?_reversioned (once : (given.map (·.1)).Nodup) (h : read? (.obj given) = some m)
    (version : String) :
    read? (.obj (Json.setField versionField (.str version) given)) =
      some { m with resourceVersion := some version } := by
  obtain ⟨out, hout, parts⟩ := read?_eq_some_iff.1 h
  have last : Schema.text.last? ((Json.setField versionField (.str version)
      given).filter (·.1 == versionField)) = some (some (.str version)) := by
    rw [Json.filter_setField_self once]
    exact last?_singleton rfl rfl
  obtain ⟨out', hout', hnew, hsame, hfilter⟩ := Schema.normalizeFields_changed rfl
    (fun p hp => Json.filter_setField hp (.str version) given) last hout
  have hfinalizers : Json.optional out' finalizersField (Json.list? Json.text?) =
      some m.finalizers :=
    (Json.optional_congr (hsame _ (by decide))).trans parts.finalizers
  exact read?_eq_some_iff.2 ⟨out', hout', parts.rewritten (fun name _ hv => hsame name hv)
    (hfilter (fun name => !named.contains name) (by decide)) hfinalizers
    (Json.optional_written (a := some version) .text hnew)⟩

/-- The version of metadata stands in them as it is read. -/
theorem lookup_version (once : (given.map (·.1)).Nodup) (h : read? (.obj given) = some m)
    {version : String} (hversion : m.resourceVersion = some version) :
    given.lookup versionField = some (.str version) := by
  have hlast := last?_version h
  rw [Json.filter_eq_of_nodup once, hversion] at hlast
  cases hl : given.lookup versionField with
  | none =>
    rw [hl] at hlast
    cases hlast
  | some j =>
    rw [hl] at hlast
    cases j with
    | str v =>
      cases hlast
      rfl
    | _ => cases hlast

end Metadata

/-! ## Records -/

namespace Environment

/-- A record is read from an object member by member. -/
theorem read?_eq_some_iff {fields : List (String × Json)} {env : Environment} :
    read? (.obj fields) = some env ↔
      ((fields.map (·.1)).filter ["metadata", "spec", "status"].contains).Nodup ∧
        Json.field fields "metadata" Metadata.read? = some env.metadata ∧
        Json.field fields "spec" Spec.read? = some env.spec ∧
        Json.optional fields "status" Status.read? = some env.status := by
  have hopen : (Json.obj fields).members? ["metadata", "spec", "status"] =
      Json.distinct? ["metadata", "spec", "status"] fields := rfl
  constructor
  · intro h
    obtain ⟨given, hgiven, h⟩ := Option.bind_eq_some_iff.1 h
    rw [hopen, Json.distinct?] at hgiven
    split at hgiven
    · next distinct =>
      obtain rfl := Option.some.inj hgiven
      obtain ⟨metadata, hmetadata, h⟩ := Option.bind_eq_some_iff.1 h
      obtain ⟨spec, hspec, h⟩ := Option.bind_eq_some_iff.1 h
      obtain ⟨status, hstatus, h⟩ := Option.bind_eq_some_iff.1 h
      cases h
      exact ⟨distinct, hmetadata, hspec, hstatus⟩
    · cases hgiven
  · rintro ⟨distinct, hmetadata, hspec, hstatus⟩
    unfold read?
    rw [hopen, Json.distinct?, if_pos distinct, Option.bind_eq_bind, Option.bind_some]
    show (if (none : Option (List Json)).any (·.length < 3) then none else _) = _
    rw [hmetadata, hspec, hstatus]
    rfl

private theorem distinct_statusPatch (env : Environment) (next : Status) :
    ([("metadata", Json.obj [(Metadata.versionField, Http.versionOf env)]),
      ("status", next.toJson)].map (·.1)).Nodup := by simp

/-- Metadata are read from an object only. -/
theorem exists_metadata {fields : List (String × Json)} {m : Metadata}
    (h : Json.field fields "metadata" Metadata.read? = some m) :
    ∃ given, fields.lookup "metadata" = some (.obj given) ∧
      Metadata.read? (.obj given) = some m := by
  obtain ⟨j, hlookup, hread⟩ := Option.bind_eq_some_iff.1 h
  cases j with
  | obj given => exact ⟨given, hlookup, hread⟩
  | _ => cases hread

theorem status_readable {fields : List (String × Json)} {status : Option Status}
    (h : Json.optional fields "status" Status.read? = some status) :
    (fields.lookup "status").getD .null = .null ∨
      Status.read? ((fields.lookup "status").getD .null) = some (status.getD {}) := by
  unfold Json.optional at h
  split at h
  · next hl => exact .inl (by rw [hl]; rfl)
  · next hl => exact .inl (by rw [hl]; rfl)
  · next j _ hl =>
    obtain ⟨s, hs, rfl⟩ := Option.map_eq_some_iff.1 h
    exact .inr (by rw [hl, Option.getD_some, hs]; rfl)

/-- From a record into which a status has been merged that covers its own, the same record is read,
but for the status. -/
theorem read?_merged {fields : List (String × Json)} {env : Environment} {next : Status}
    (h : read? (.obj fields) = some env) (covers : next.Covers env.known) :
    read? ((Json.obj fields).mergePatch (Http.statusPatch env next)) =
      some { env with status := some next } := by
  obtain ⟨distinct, hmetadata, hspec, hstatus⟩ := read?_eq_some_iff.1 h
  obtain ⟨given, hgiven, hmetadata⟩ := exists_metadata hmetadata
  let changes := [("metadata", Json.obj [(Metadata.versionField, Http.versionOf env)]),
    ("status", next.toJson)]
  have hlookup (name : String) : (Json.mergeFields fields changes).lookup name =
      Json.mergeValue (fields.lookup name) (changes.lookup name) :=
    Json.lookup_mergeFields (distinct_statusPatch env next) name
  show read? (.obj (Json.mergeFields fields changes)) = _
  refine read?_eq_some_iff.2 ⟨Json.nodup_mergeFields distinct changes, ?_, ?_, ?_⟩
  · rw [Json.field, hlookup, hgiven]
    exact Metadata.read?_versioned hmetadata
  · rw [Json.field, hlookup]
    exact hspec
  · have hmerged := hlookup "status"
    change _ = Json.mergeValue _ (some next.toJson) at hmerged
    have hnull : next.toJson ≠ .null := fun hnull => by cases hnull
    rw [Json.mergeValue_of_ne_null hnull] at hmerged
    rw [Json.optional_of_ne_null hmerged (Json.mergePatch_ne_null hnull _),
      Status.read?_merged_of_covers covers (status_readable hstatus)]
    rfl

/-- Beside the status nothing of a document changes but the version. -/
theorem get?_merged (env : Environment) (next : Status) (fields : List (String × Json)) :
    (∀ name, name ∉ ["metadata", "status"] →
      ((Json.obj fields).mergePatch (Http.statusPatch env next)).get? name =
        (Json.obj fields).get? name) ∧
    ∀ name, name ≠ Metadata.versionField →
      (((Json.obj fields).mergePatch (Http.statusPatch env next)).follow ["metadata"]).get? name =
        ((Json.obj fields).follow ["metadata"]).get? name := by
  have hlookup (name : String) :
      ((Json.obj fields).mergePatch (Http.statusPatch env next)).get? name =
        Json.mergeValue (fields.lookup name) _ :=
    Json.lookup_mergeFields (distinct_statusPatch env next) name
  refine ⟨fun name hname => ?_, fun name hname => ?_⟩
  · rw [List.mem_cons, List.mem_singleton, not_or] at hname
    rw [hlookup, lookup_cons_if, if_neg hname.1, lookup_cons_if, if_neg hname.2]
    rfl
  · have hmetadata : ((Json.obj fields).mergePatch (Http.statusPatch env next)).follow
        ["metadata"] = (((Json.obj fields).follow ["metadata"]).mergePatch
          (.obj [(Metadata.versionField, Http.versionOf env)])) := by
      rw [Json.follow, hlookup]
      rfl
    have hother (old : Json) : (old.fields?.getD []).lookup name = old.get? name := by
      cases old <;> rfl
    have hone : ([(Metadata.versionField, Http.versionOf env)].map (·.1)).Nodup :=
      List.nodup_cons.2 ⟨List.not_mem_nil, List.nodup_nil⟩
    rw [hmetadata]
    show (Json.mergeFields _ _).lookup name = _
    rw [Json.lookup_mergeFields hone, lookup_cons_if, if_neg hname]
    exact hother _

end Environment
end PreviewControl
