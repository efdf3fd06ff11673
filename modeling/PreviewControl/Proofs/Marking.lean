import PreviewControl.Proofs.NormalForm
import PreviewControl.Proofs.TimeText

/-!
# Marking an object as being deleted

An object whose metadata can be read can still be read after it has been marked as being deleted:
the mark is a time, every time is read back, and no other field is touched.
-/
namespace PreviewControl

variable {α : Type}

namespace Json

/-! ## Fields that are replaced or added -/

theorem lookup_replaceField {key : String} {fs : List (String × Json)} {old : Json}
    (h : fs.lookup key = some old) (value : Json) :
    (replaceField key value fs).lookup key = some value := by
  induction fs with
  | nil => cases h
  | cons f fs ih =>
    unfold replaceField
    by_cases hf : f.1 = key
    · rw [if_pos hf]
      exact List.lookup_cons_self
    · have hb : (key == f.1) = false := beq_eq_false_iff_ne.2 (Ne.symm hf)
      rw [List.lookup_cons, hb] at h
      rw [if_neg hf, List.lookup_cons, hb]
      exact ih h

@[simp] theorem names_replaceField (key : String) (value : Json) (fs : List (String × Json)) :
    (replaceField key value fs).map (·.1) = fs.map (·.1) := by
  induction fs with
  | nil => rfl
  | cons f fs ih =>
    unfold replaceField
    split
    · next h => simp [h]
    · simp [ih]

theorem filter_replaceField {p : String → Bool} {key : String} (hp : p key = false) (value : Json)
    (fs : List (String × Json)) :
    (replaceField key value fs).filter (fun f => p f.1) = fs.filter (fun f => p f.1) := by
  induction fs with
  | nil => rfl
  | cons f fs ih =>
    unfold replaceField
    split
    · next h => simp [h, hp]
    · simp [List.filter_cons, ih]

theorem filter_insertField {p : String → Bool} {key : String} (hp : p key = false) (value : Json)
    (fs : List (String × Json)) :
    (insertField key value fs).filter (fun f => p f.1) = fs.filter (fun f => p f.1) := by
  induction fs with
  | nil => simp [insertField, hp]
  | cons f fs ih =>
    unfold insertField
    split
    · next h => simp [← beq_iff_eq.1 h, hp]
    · split
      · simp [hp]
      · simp [List.filter_cons, ih]

theorem mem_replaceField {key : String} {value : Json} {fs : List (String × Json)}
    {f : String × Json} (h : f ∈ replaceField key value fs) : f = (key, value) ∨ f ∈ fs := by
  induction fs with
  | nil => cases h
  | cons g fs ih =>
    unfold replaceField at h
    split at h
    · rcases List.mem_cons.1 h with rfl | h
      · exact .inl rfl
      · exact .inr (List.mem_cons_of_mem g h)
    · rcases List.mem_cons.1 h with rfl | h
      · exact .inr List.mem_cons_self
      · exact (ih h).imp id (List.mem_cons_of_mem g)

theorem mem_insertField {key : String} {value : Json} {fs : List (String × Json)}
    {f : String × Json} (h : f ∈ insertField key value fs) : f = (key, value) ∨ f ∈ fs := by
  induction fs with
  | nil => exact .inl (List.mem_singleton.1 h)
  | cons g fs ih =>
    unfold insertField at h
    split at h
    · rcases List.mem_cons.1 h with rfl | h
      · exact .inl rfl
      · exact .inr (List.mem_cons_of_mem g h)
    · split at h
      · rcases List.mem_cons.1 h with rfl | h
        · exact .inl rfl
        · exact .inr h
      · rcases List.mem_cons.1 h with rfl | h
        · exact .inr List.mem_cons_self
        · exact (ih h).imp id (List.mem_cons_of_mem g)

theorem filter_setField {p : String → Bool} {key : String} (hp : p key = false) (value : Json)
    (fs : List (String × Json)) :
    (setField key value fs).filter (fun f => p f.1) = fs.filter (fun f => p f.1) := by
  unfold setField
  split
  · exact filter_replaceField hp value fs
  · exact filter_insertField hp value fs

theorem mem_setField {key : String} {value : Json} {fs : List (String × Json)}
    {f : String × Json} (h : f ∈ setField key value fs) : f = (key, value) ∨ f ∈ fs := by
  unfold setField at h
  split at h
  · exact mem_replaceField h
  · exact mem_insertField h

theorem optional_congr {fs gs : List (String × Json)} {name : String} {read : Json → Option α}
    (h : fs.lookup name = gs.lookup name) : optional fs name read = optional gs name read := by
  rw [optional, optional, h]

end Json

/-! ## The mark -/

/-- The field that says since when an object is being deleted. -/
def deletionField : String := "deletionTimestamp"

private theorem exists_instant {j : Json} (normal : Schema.instant.Normal j) :
    ∃ t, j = Json.ofInstant t := by
  obtain ⟨given, h⟩ := normal
  obtain ⟨t, _, rfl⟩ := Option.map_eq_some_iff.1 h
  exact ⟨_, rfl⟩

/-- The mark is a time beside the times that were there. -/
private theorem last?_mark {given : List (String × Json)} (now : Instant)
    (h : (Schema.instant.last? (given.filter (·.1 == deletionField))).isSome = true) :
    (Schema.instant.last? ((Json.setField deletionField (.ofInstant now) given).filter
      (·.1 == deletionField))).isSome = true := by
  rw [Schema.last?, Option.isSome_map, mapM_isSome] at h ⊢
  intro f hf
  obtain ⟨hmem, hname⟩ := List.mem_filter.1 hf
  rcases Json.mem_setField hmem with rfl | hgiven
  · simp [Json.ofInstant, Json.isNull, Schema.normalize, Json.instant?]
  · exact h f (List.mem_filter.2 ⟨hgiven, hname⟩)

/-- Fields of the right form stay of this form when they are marked, and only the mark is new in
their normal form. -/
private theorem normalizeFields_mark {ss : List (String × Bool × Schema)}
    {given out : List (String × Json)} (now : Instant)
    (only : ss.filter (·.1 == deletionField) = [Schema.opt deletionField .instant])
    (h : Schema.normalizeFields ss given = some out) :
    ∃ marked, Schema.normalizeFields ss
        (Json.setField deletionField (.ofInstant now) given) = some marked ∧
      (∀ name, name ≠ deletionField → marked.lookup name = out.lookup name) ∧
      ∀ j, marked.lookup deletionField = some j → ∃ t, j = Json.ofInstant t := by
  have hothers (name : String) (hne : name ≠ deletionField) :
      (Json.setField deletionField (.ofInstant now) given).filter (·.1 == name) =
        given.filter (·.1 == name) := by
    have hp : (deletionField == name) = false := beq_eq_false_iff_ne.2 (Ne.symm hne)
    exact Json.filter_setField (p := (· == name)) hp (.ofInstant now) given
  have hgiven := Schema.isSome_normalizeFields.1 (Option.isSome_iff_exists.2 ⟨out, h⟩)
  obtain ⟨marked, hmarked⟩ : ∃ marked, Schema.normalizeFields ss
      (Json.setField deletionField (.ofInstant now) given) = some marked := by
    refine Option.isSome_iff_exists.1 (Schema.isSome_normalizeFields.2 fun e he => ?_)
    by_cases hname : e.1 = deletionField
    · have hmem : e ∈ ss.filter (·.1 == deletionField) :=
        List.mem_filter.2 ⟨he, beq_iff_eq.2 hname⟩
      rw [only, List.mem_singleton] at hmem
      subst hmem
      exact last?_mark now (hgiven _ he)
    · rw [hothers e.1 hname]
      exact hgiven e he
  refine ⟨marked, hmarked, fun name hne => ?_, fun j hj => ?_⟩
  · rw [Schema.lookup_normalizeFields hmarked, Schema.lookup_normalizeFields h, hothers name hne]
  · obtain hnormal | ⟨hrequired, _⟩ := Schema.normal_of_lookup only hmarked hj
    · exact exists_instant hnormal
    · cases hrequired

namespace Metadata

private theorem optional_instant {fields : List (String × Json)}
    (h : ∀ j, fields.lookup deletionField = some j → ∃ t, j = Json.ofInstant t) :
    ∃ since, Json.optional fields deletionField Json.instant? = some since := by
  cases hl : fields.lookup deletionField with
  | none => exact ⟨none, by rw [Json.optional, hl]⟩
  | some j =>
    obtain ⟨t, rfl⟩ := h j hl
    exact ⟨some t, by simp [Json.optional, hl, Json.ofInstant, Json.instant?]⟩

/-- Metadata can be read after they have been marked. -/
theorem read?_mark {fields : List (String × Json)} {m : Metadata} (now : Instant)
    (h : read? (.obj fields) = some m) :
    ∃ m', read? ((Json.obj fields).set deletionField (.ofInstant now)) = some m' := by
  obtain ⟨out, hout, parts⟩ := read?_eq_some_iff.1 h
  obtain ⟨marked, hmarked, hsame, hmark⟩ := normalizeFields_mark now rfl hout
  obtain ⟨since, hsince⟩ := optional_instant hmark
  have kept {β : Type} {name : String} {read : Json → Option β} {b : Option β}
      (hne : name ≠ deletionField) (hb : Json.optional out name read = some b) :
      Json.optional marked name read = some b :=
    (Json.optional_congr (hsame name hne)).trans hb
  refine ⟨{ m with
    deletionTimestamp := since
    others := marked.filter fun f => !named.contains f.1 }, ?_⟩
  exact read?_eq_some_iff.2 ⟨marked, hmarked, {
    name := kept (by decide) parts.name
    generateName := kept (by decide) parts.generateName
    ns := kept (by decide) parts.ns
    uid := kept (by decide) parts.uid
    resourceVersion := kept (by decide) parts.resourceVersion
    generation := kept (by decide) parts.generation
    finalizers := kept (by decide) parts.finalizers
    labels := kept (by decide) parts.labels
    annotations := kept (by decide) parts.annotations
    creationTimestamp := kept (by decide) parts.creationTimestamp
    deletionTimestamp := hsince
    others := rfl }⟩

end Metadata

/-- Finalizers stand in metadata. -/
private theorem metadata_of_held {fields : List (String × Json)}
    (h : Store.objectIsHeld (.obj fields) = true) :
    ∃ metadata, fields.lookup "metadata" = some (.obj metadata) := by
  unfold Store.objectIsHeld at h
  cases hm : fields.lookup "metadata" with
  | none => simp [Json.follow, Json.get?, hm, Json.items?] at h
  | some j =>
    cases j with
    | obj metadata => exact ⟨metadata, rfl⟩
    | null | bool | int | real | str | arr | garbled =>
      simp [Json.follow, Json.get?, hm, Json.items?] at h

/-- An object can be read with other metadata that can be read. -/
private theorem read?_with_metadata {fields : List (String × Json)} {stored : StoredObject}
    {metadata j : Json} {m : Metadata} (h : StoredObject.read? (.obj fields) = some stored)
    (hm : fields.lookup "metadata" = some metadata) (hj : Metadata.read? j = some m) :
    ∃ after, StoredObject.read? ((Json.obj fields).set "metadata" j) = some after := by
  have hset : (Json.obj fields).set "metadata" j =
      .obj (Json.replaceField "metadata" j fields) := by
    simp [Json.set, Json.setField, hm]
  have hne : ("metadata" != "metadata") = false := by decide
  have hrest := Json.filter_replaceField (p := (· != "metadata")) hne j fields
  rw [hset]
  simp only [StoredObject.read?, Json.distinct?, Option.bind_eq_bind, Option.bind_eq_some_iff,
    Json.names_replaceField] at h ⊢
  obtain ⟨given, hg, _, _, members, hmembers, _⟩ := h
  split at hg
  · next hnodup =>
    cases hg
    refine ⟨_, _, if_pos hnodup, m, ?_, members, ?_, rfl⟩
    · rw [Json.defaulted, Json.lookup_replaceField hm]
      exact hj
    · rw [hrest]
      exact hmembers
  · cases hg

/-- An object that can be read can be read after it has been marked as being deleted. -/
theorem Store.read?_markDeleting {object : Json} {stored : StoredObject} (now : Instant)
    (held : objectIsHeld object = true) (h : StoredObject.read? object = some stored) :
    ∃ marked, StoredObject.read? (markDeleting now object) = some marked := by
  cases object with
  | null | bool | int | real | str | arr | garbled => cases h
  | obj fields =>
    obtain ⟨metadata, hm⟩ := metadata_of_held held
    have hget : (Json.obj fields).follow ["metadata"] = .obj metadata := by
      simp [Json.follow, Json.get?, hm]
    obtain ⟨m, hread⟩ : ∃ m, Metadata.read? (.obj metadata) = some m := by
      simp only [StoredObject.read?, Json.distinct?, Option.bind_eq_bind,
        Option.bind_eq_some_iff] at h
      obtain ⟨given, hg, m, hread, _⟩ := h
      split at hg
      · cases hg
        rw [Json.defaulted, hm] at hread
        exact ⟨m, hread⟩
      · cases hg
    unfold markDeleting
    rw [hget]
    dsimp only
    split
    · obtain ⟨marked, hmarked⟩ := Metadata.read?_mark now hread
      exact read?_with_metadata h hm hmarked
    · exact ⟨stored, h⟩

end PreviewControl
