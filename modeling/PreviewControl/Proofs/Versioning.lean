import PreviewControl.Proofs.MergePatch

/-!
# Metadata that are merged with their own version

A write names the version that it is based on, as a patch of the metadata. Metadata that have this
version already are read as before: nothing but the version is merged into them, and of several
values that are given for it the last one counts, before and after.
-/
namespace PreviewControl

namespace Json

theorem filter_replaceField_self {key : String} {fields : List (String × Json)} (value : Json)
    (h : (fields.lookup key).isSome = true) : ∃ first rest,
      fields.filter (·.1 == key) = first :: rest ∧
        (replaceField key value fields).filter (·.1 == key) = (key, value) :: rest := by
  induction fields with
  | nil => cases h
  | cons f fs ih =>
    unfold replaceField
    by_cases hf : f.1 = key
    · refine ⟨f, fs.filter (·.1 == key), ?_, ?_⟩
      · rw [List.filter_cons_of_pos (by simpa using hf)]
      · rw [if_pos hf, List.filter_cons_of_pos (by simp)]
    · rw [lookup_cons_if, if_neg (Ne.symm hf)] at h
      rw [if_neg hf, List.filter_cons_of_neg (by simpa using hf),
        List.filter_cons_of_neg (by simpa using hf)]
      exact ih h

end Json

namespace Schema

/-- What counts of texts is a text. -/
theorem last?_text {values : List (String × Json)} {j : Json}
    (h : text.last? values = some (some j)) : ∃ v, j = .str v := by
  obtain ⟨given, hgiven⟩ := normal_of_last? h
  obtain ⟨v, _, rfl⟩ := Option.map_eq_some_iff.1 hgiven
  exact ⟨v, rfl⟩

/-- The text that counts may be put in place of the first one, which it then counts with or
after. -/
theorem last?_text_cons {first : String × Json} {rest : List (String × Json)} {v key : String}
    (h : text.last? (first :: rest) = some (some (.str v))) :
    text.last? ((key, .str v) :: rest) = some (some (.str v)) := by
  obtain ⟨results, hresults, hlast⟩ := Option.map_eq_some_iff.1 h
  rw [List.mapM_cons] at hresults
  obtain ⟨x, _, hresults⟩ := Option.bind_eq_some_iff.1 hresults
  obtain ⟨xs, hxs, hresults⟩ := Option.bind_eq_some_iff.1 hresults
  cases hresults
  refine Option.map_eq_some_iff.2 ⟨some (.str v) :: xs, ?_, ?_⟩
  · rw [List.mapM_cons, hxs]
    rfl
  · cases xs with
    | nil => rfl
    | cons y ys => exact hlast

end Schema

namespace Metadata

/-- The name of the member that tells the version. -/
def versionField : String := "resourceVersion"

private theorem form_versionField : ∀ e ∈ Form.metadataFields,
    e.1 = versionField → e = Schema.opt versionField .text := by
  simp [Form.metadataFields, Schema.opt, versionField]

/-- What the version is read from, if there is one, is its text. -/
theorem last?_version {given : List (String × Json)} {m : Metadata}
    (h : read? (.obj given) = some m) :
    Schema.text.last? (given.filter (·.1 == versionField)) =
      some (m.resourceVersion.map Json.str) := by
  obtain ⟨out, hout, parts⟩ := read?_eq_some_iff.1 h
  have hlast : Schema.text.last? (given.filter (·.1 == versionField)) =
      some (out.lookup versionField) := Schema.last?_of_normalizeFields rfl hout
  have hversion : Json.optional out versionField Json.text? = some m.resourceVersion :=
    parts.resourceVersion
  rw [hlast]
  cases hl : out.lookup versionField with
  | none =>
    rw [Json.optional, hl] at hversion
    rw [← Option.some.inj hversion]
    rfl
  | some j =>
    obtain ⟨v, rfl⟩ := Schema.last?_text (hlast.trans (congrArg some hl))
    rw [Json.optional, hl] at hversion
    rw [← Option.some.inj hversion]
    rfl

/-- A version that is merged into metadata which have it already is the one that counts. -/
private theorem last?_merged {given : List (String × Json)} {version : Option String}
    (h : Schema.text.last? (given.filter (·.1 == versionField)) = some (version.map Json.str)) :
    Schema.text.last? ((Json.mergeFields given
      [(versionField, (version.map Json.str).getD .null)]).filter (·.1 == versionField)) =
        some (version.map Json.str) := by
  cases version with
  | none =>
    have hgone : (given.filter (·.1 != versionField)).filter (·.1 == versionField) = [] := by
      rw [List.filter_filter]
      exact List.filter_eq_nil_iff.2 fun f _ => by simp
    show Schema.text.last? ((given.filter (·.1 != versionField)).filter (·.1 == versionField)) = _
    rw [hgone]
    rfl
  | some v =>
    have there : (given.lookup versionField).isSome = true := by
      refine Option.isSome_iff_ne_none.2 fun hnone => ?_
      have hempty : given.filter (·.1 == versionField) = [] := by
        refine List.filter_eq_nil_iff.2 fun f hf => ?_
        have hne := bne_iff_ne.1 (List.lookup_eq_none_iff.1 hnone f hf)
        exact fun h => hne (beq_iff_eq.1 h).symm
      rw [hempty] at h
      cases h
    obtain ⟨first, rest, hgiven, hmerged⟩ := Json.filter_replaceField_self (.str v) there
    show Schema.text.last? ((Json.setField versionField (.str v) given).filter
      (·.1 == versionField)) = _
    rw [Json.setField, if_pos there, hmerged]
    rw [hgiven] at h
    exact Schema.last?_text_cons h

/-- Metadata are read as before if they are given the version that they have. -/
theorem read?_versioned {given : List (String × Json)} {m : Metadata}
    (h : read? (.obj given) = some m) :
    read? ((Json.obj given).mergePatch
      (.obj [(versionField, (m.resourceVersion.map Json.str).getD .null)])) = some m := by
  have hversion := last?_version h
  let merged := Json.mergeFields given [(versionField, (m.resourceVersion.map Json.str).getD .null)]
  have hsame : Schema.normalizeFields Form.metadataFields merged =
      Schema.normalizeFields Form.metadataFields given := by
    refine Schema.normalizeFields_congr fun e he => ?_
    by_cases hname : e.1 = versionField
    · obtain rfl := form_versionField e he hname
      exact (last?_merged hversion).trans hversion.symm
    · have hne : (versionField == e.1) = false := beq_eq_false_iff_ne.2 (Ne.symm hname)
      have hkept : merged.filter (·.1 == e.1) = given.filter (·.1 == e.1) :=
        Json.filter_mergeFields (p := (· == e.1)) (fun c hc => List.mem_singleton.1 hc ▸ hne) given
      exact congrArg _ hkept
  have hnormal : Form.metadata.normalize (.obj merged) = Form.metadata.normalize (.obj given) :=
    congrArg (Option.map Json.obj) hsame
  rw [← h]
  show read? (.obj merged) = _
  unfold read?
  rw [hnormal]

end Metadata
end PreviewControl
