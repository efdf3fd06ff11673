import Mathlib.Data.List.DropRight
import PreviewControl.Proofs.Agreement
import PreviewControl.Proofs.Course
import PreviewControl.Proofs.Rendering

/-!
# Values of labels

Whatever a repository is called, what is made of its name can stand in a label. Characters are
replaced first, then the text is cut, and then it is trimmed: a cut can bring a separator to the
end, but trimming makes nothing longer. So all objects that a pass applies have labels that can be
stored.
-/
namespace PreviewControl

/-- A character of a label value: a letter or digit of ASCII, or one of `-`, `_` and `.`. -/
def IsValueChar (c : Char) : Prop := c.isAlphanum = true ∨ c = '-' ∨ c = '_' ∨ c = '.'

/-- A label value that is not empty: 1 to 63 of its characters, and letters or digits at both
ends. -/
structure IsLabelValue (s : String) : Prop where
  chars : ∀ c ∈ s.toList, IsValueChar c
  first : ∃ c, s.toList.head? = some c ∧ c.isAlphanum = true
  last : ∃ c, s.toList.getLast? = some c ∧ c.isAlphanum = true
  bounds : 1 ≤ s.length ∧ s.length ≤ 63

/-- What can stand in a label. -/
def FitsLabel (s : String) : Prop := s = "" ∨ IsLabelValue s

namespace Repository

variable {r : Repository} {c : Char}

theorem isAlnum_eq (c : Char) : isAlnum c = c.isAlphanum := by
  have hupper : (decide ('A' ≤ c) && decide (c ≤ 'Z')) = c.isUpper :=
    (Bool.decide_and _ _).symm
  have hlower : (decide ('a' ≤ c) && decide (c ≤ 'z')) = c.isLower := rfl
  have hdigit : isDigit c = c.isDigit := rfl
  rw [isAlnum, hupper, hlower, hdigit, Bool.or_comm c.isLower]
  rfl

theorem isLabelChar_iff : isLabelChar c = true ↔ IsValueChar c := by
  simp only [isLabelChar, isAlnum_eq, Bool.or_eq_true, beq_iff_eq, IsValueChar, or_assoc]

end Repository

/-- A host name label can stand in a label. -/
theorem IsLabel.fitsLabel {s : String} (label : IsLabel s) : FitsLabel s := by
  have halnum (c : Char) (h : IsPlain c) : c.isAlphanum = true := by
    rw [← Repository.isAlnum_eq]
    exact isAlnum_of_isPlain h
  obtain ⟨c, hc, hfirst⟩ := label.first
  obtain ⟨d, hd, hlast⟩ := label.last
  refine .inr ⟨fun c hc => ?_, ⟨c, hc, halnum c hfirst⟩, ⟨d, hd, halnum d hlast⟩, label.bounds⟩
  rcases label.chars c hc with hplain | rfl
  · exact .inl (halnum c hplain)
  · exact .inr (.inl rfl)

/-! ## The value of a repository -/

namespace Repository

variable {r : Repository} {c : Char}

/-- The text that a value is made of. -/
def dotted (r : Repository) : String := r.owner ++ "." ++ r.name

/-- A character as it stands in the value. -/
def legible (c : Char) : Char := if isLabelChar c then c else '-'

/-- What the cut leaves, before it is trimmed. -/
def kept (r : Repository) : List Char := (r.dotted.toList.take 63).map legible

theorem isValueChar_legible (c : Char) : IsValueChar (legible c) := by
  unfold legible
  split
  · next h => exact isLabelChar_iff.1 h
  · exact .inr (.inl rfl)

theorem legible_eq_self (h : IsValueChar c) : legible c = c := if_pos (isLabelChar_iff.2 h)

/-- Letters and digits stand for themselves, and nothing else becomes one. -/
theorem isAlnum_legible (c : Char) : isAlnum (legible c) = isAlnum c := by
  unfold legible
  split
  · rfl
  · next h =>
    have hnot : isAlnum c = false := by
      rw [isLabelChar, Bool.or_assoc, Bool.or_assoc, Bool.or_eq_true, not_or] at h
      exact Bool.eq_false_iff.2 h.1
    rw [hnot]
    decide

theorem toList_labelValue (r : Repository) : r.labelValue.toList =
    (r.kept.dropWhile (!isAlnum ·)).rdropWhile (!isAlnum ·) := by
  rw [kept, List.map_take]
  exact String.toList_ofList

theorem sublist_labelValue (r : Repository) : r.labelValue.toList.Sublist r.kept := by
  rw [toList_labelValue]
  exact (List.rdropWhile_prefix _ _).sublist.trans (List.dropWhile_sublist _)

theorem head_labelValue (h : r.labelValue.toList.head? = some c) : isAlnum c = true := by
  have hfront := List.head?_dropWhile_not (!isAlnum ·) r.kept
  obtain ⟨rest, hrest⟩ := List.rdropWhile_prefix (!isAlnum ·) (r.kept.dropWhile (!isAlnum ·))
  rw [← toList_labelValue] at hrest
  rw [← hrest, List.head?_append, h] at hfront
  simpa using hfront

theorem last_labelValue (h : r.labelValue.toList.getLast? = some c) : isAlnum c = true := by
  rw [toList_labelValue] at h
  have hne := List.ne_nil_of_mem (List.mem_of_getLast? h)
  have hlast := List.rdropWhile_last_not _ _ hne
  rw [List.getLast?_eq_some_getLast hne, Option.some.injEq] at h
  rw [h] at hlast
  simpa using hlast

theorem fitsLabel_labelValue (r : Repository) : FitsLabel r.labelValue := by
  by_cases hempty : r.labelValue.toList = []
  · exact .inl (String.toList_eq_nil_iff.1 hempty)
  have hchars := (sublist_labelValue r).subset
  have hlength := (sublist_labelValue r).length_le
  refine .inr ⟨fun c hc => ?_, ?_, ?_, ?_, ?_⟩
  · obtain ⟨d, _, rfl⟩ := List.mem_map.1 (hchars hc)
    exact isValueChar_legible d
  · have hhead := List.head?_eq_some_head hempty
    exact ⟨_, hhead, (isAlnum_eq _).symm.trans (head_labelValue hhead)⟩
  · have hlast := List.getLast?_eq_some_getLast hempty
    exact ⟨_, hlast, (isAlnum_eq _).symm.trans (last_labelValue hlast)⟩
  · rw [← String.length_toList]
    exact List.length_pos_iff.2 hempty
  · rw [kept, List.length_map, List.length_take] at hlength
    rw [← String.length_toList]
    omega

/-- A name that fits is what stands in the label. -/
theorem labelValue_eq_dotted (h : IsLabelValue r.dotted) : r.labelValue = r.dotted := by
  have hkept : r.kept = r.dotted.toList := by
    have hlength : r.dotted.toList.length ≤ 63 := by
      rw [String.length_toList]
      exact h.bounds.2
    rw [kept, List.take_of_length_le hlength]
    exact (List.map_congr_left fun c hc => legible_eq_self (h.chars c hc)).trans (List.map_id _)
  obtain ⟨c, hc, hfirst⟩ := h.first
  obtain ⟨d, hd, hlast⟩ := h.last
  rw [← isAlnum_eq] at hfirst hlast
  rw [← String.toList_inj, toList_labelValue, hkept]
  have hfront : r.dotted.toList.dropWhile (!isAlnum ·) = r.dotted.toList := by
    obtain ⟨rest, hrest⟩ := List.head?_eq_some_iff.1 hc
    rw [hrest, List.dropWhile_cons_of_neg (by simp [hfirst])]
  rw [hfront, List.rdropWhile_eq_self_iff]
  intro hne
  rw [List.getLast?_eq_some_getLast hne, Option.some.injEq] at hd
  simp [hd, hlast]

theorem labelValue_eq_dotted_iff : r.labelValue = r.dotted ↔ IsLabelValue r.dotted := by
  refine ⟨fun h => ?_, labelValue_eq_dotted⟩
  rcases fitsLabel_labelValue r with hempty | hvalue
  · have hdot : '.' ∈ r.dotted.toList := by simp [dotted, String.toList_append]
    rw [← h, hempty] at hdot
    cases hdot
  · rwa [h] at hvalue

/-- Nothing is left exactly where no letter or digit comes before the cut. -/
theorem labelValue_eq_empty_iff :
    r.labelValue = "" ↔ ∀ c ∈ r.dotted.toList.take 63, c.isAlphanum = false := by
  have hkept : (∀ c ∈ r.kept, isAlnum c = false) ↔
      ∀ c ∈ r.dotted.toList.take 63, c.isAlphanum = false := by
    simp only [kept, List.forall_mem_map, isAlnum_legible]
    simp only [isAlnum_eq]
  rw [← hkept, ← String.toList_eq_nil_iff, toList_labelValue, List.rdropWhile_eq_nil_iff]
  constructor
  · intro h c hc
    have hnil : r.kept.dropWhile (!isAlnum ·) = [] := by
      by_contra hne
      have hhead := List.head_dropWhile_not (!isAlnum ·) hne
      rw [h _ (List.head_mem hne)] at hhead
      cases hhead
    simpa using List.dropWhile_eq_nil_iff.1 hnil c hc
  · intro h c hc
    simpa using h c ((List.dropWhile_sublist _).subset hc)

end Repository

/-! ## The labels of an environment -/

theorem Environment.fitsLabel_identityLabels (env : Environment) :
    ∀ label ∈ env.identityLabels, FitsLabel label.2 := by
  have hmanager : IsLabel manager := isHostLabel_iff.1 (by decide)
  rw [identityLabels, List.forall_mem_cons, List.forall_mem_cons, List.forall_mem_singleton]
  exact ⟨hmanager.fitsLabel, (Child.isLabel_number _).fitsLabel,
    env.spec.repository.fitsLabel_labelValue⟩

namespace Child

open Json.Step

variable {config : Config} {env : Environment} {ns : String} {m : Manifest}

/-- Where an object has its labels. -/
def ownLabels : List Json.Step := [field "metadata", field "labels"]

/-- Where a descriptor has the labels of what it deploys. -/
def templateLabels : List Json.Step :=
  [field "spec", field "template", field "metadata", field "labels"]

theorem select_labels_metadataOf (env : Environment) (name : String) (space : Option String)
    (annotations : List (String × String)) :
    (metadataOf env name space annotations).select [field "labels"] =
      [.textMap env.identityLabels] := by
  cases space <;> simp [metadataOf, Json.record, List.lookup_cons]

theorem Rendered.select_ownLabels {object : Json} (h : Rendered env object) :
    object.select ownLabels = [.textMap env.identityLabels] := by
  obtain ⟨kind, name, space, annotations, members, _, _, _, _⟩ := h
  have hmetadata : (objectOf kind (metadataOf env name space annotations) members).select
      ownLabels = (metadataOf env name space annotations).select [field "labels"] := by
    simp [objectOf, ownLabels, List.lookup_cons]
  exact hmetadata.trans (select_labels_metadataOf env name space annotations)

theorem select_templateLabels_descriptor : (descriptorObject env ns config).select templateLabels =
    [.textMap env.identityLabels] := by
  have htemplate : (descriptorObject env ns config).select templateLabels =
      (metadataOf env (namePrefix env.spec.prNumber ++ servicePlace) none
        env.ownerAnnotations).select [field "labels"] := by
    simp [descriptorObject, objectOf, templateLabels, descriptorTemplate, List.lookup_cons]
  exact htemplate.trans (select_labels_metadataOf env _ none _)

/-- Only a descriptor has a template. -/
theorem select_templateLabels (part : m ∈ parts config env ns) :
    m.object.select templateLabels = [] ∨
      m.object.select templateLabels = [.textMap env.identityLabels] := by
  have hpolicy (name : String) (directions : List String) (rules : List (String × Json))
      (hrules : rules.lookup "template" = none) :
      (policyObject env ns name directions rules).select templateLabels = [] := by
    simp [policyObject, objectOf, templateLabels, List.lookup_cons, hrules]
  simp only [parts, namespaceParts, List.mem_append, List.mem_cons, List.not_mem_nil, or_false,
    Option.mem_toList, Option.map_eq_some_iff] at part
  rcases part with ((rfl | rfl | rfl | rfl | rfl) | ⟨object, hobject, rfl⟩) | rfl
  · exact .inl (by simp [namespaceObject, objectOf, templateLabels, List.lookup_cons])
  · exact .inl (by simp [quotaObject, objectOf, templateLabels, List.lookup_cons])
  · exact .inl (hpolicy _ _ _ rfl)
  · exact .inl (hpolicy _ _ _ rfl)
  · exact .inl (hpolicy _ _ _ rfl)
  · unfold ingressObject? at hobject
    split at hobject
    · cases hobject
    · cases hobject
      exact .inl (by simp [ingressOf, objectOf, templateLabels, List.lookup_cons])
  · exact .inr select_templateLabels_descriptor

/-- An object has the labels of a record, and so has what it is a template of. -/
structure Labelled (env : Environment) (object : Json) : Prop where
  own : object.select ownLabels = [.textMap env.identityLabels]
  template : object.select templateLabels = [] ∨
    object.select templateLabels = [.textMap env.identityLabels]

theorem labelled_of_part (part : m ∈ parts config env ns) : Labelled env m.object :=
  ⟨(rendered_part part).select_ownLabels, select_templateLabels part⟩

end Child

namespace Repository

/-- Whatever the owner and the name of a repository are, the value that is made of them can stand in
a label. It is empty exactly where no letter or digit comes before the cut, and it is the name
itself exactly where this is a label value already. So all values of the labels of an environment
can stand in a label, and whatever a pass applies has the labels of an environment. -/
theorem labels_always_fit (r : Repository) : FitsLabel r.labelValue ∧
    (r.labelValue = "" ↔ ∀ c ∈ r.dotted.toList.take 63, c.isAlphanum = false) ∧
    (r.labelValue = r.dotted ↔ IsLabelValue r.dotted) ∧
    (∀ env : Environment, ∀ label ∈ env.identityLabels, FitsLabel label.2) ∧
    ∀ config notice now t m, (Reconcile.pass config notice now).Asks t (.apply m) →
      ∃ env ns, m ∈ Child.parts config env ns ∧ Child.Labelled env m.object := by
  refine ⟨fitsLabel_labelValue r, labelValue_eq_empty_iff, labelValue_eq_dotted_iff,
    fun env => env.fitsLabel_identityLabels, fun config notice now t m asks => ?_⟩
  obtain ⟨_, _, _, _, latest, status, _, _, _, _, _, _, part⟩ := Reconcile.part_of_asks asks
  exact ⟨latest, _, part, Child.labelled_of_part part⟩

/-- A repository in whose name the cut comes right behind the dot. -/
def lengthy : Repository := ⟨"é" ++ String.ofList (List.replicate 61 'a'), "shop", none⟩

/-- The record of a pull request of it. -/
def lengthyRecord : Environment :=
  Spec.record { name := some "pr", ns := some "previews" }
    { repository := lengthy, prNumber := 5, ttl := "",
      headSha := "0123456789abcdefABCDEF789abcdef012345678" }

/-- The first object that a pass over the record applies. -/
def lengthySpace : Manifest :=
  ⟨Child.namespaceAddress lengthyRecord.childNamespace,
    Child.namespaceObject lengthyRecord lengthyRecord.childNamespace⟩

open Reconcile Pass in
theorem asks_lengthySpace : (Reconcile.pass {} lengthyRecord.metadata default).Asks
    [read lengthyRecord.metadata "previews" lengthyRecord,
      .call (.getObject lengthySpace.target) (.ok none)] (.apply lengthySpace) := by
  refine asks_of_ensureAll (t := []) rfl rfl (by decide) (by decide) (.known rfl) ?_
  refine asks_ensureAll (u := []) .nil ?_
  rw [Child.ensure, Child.ensureNamespace_eq]
  refine asks_bind.2 (.inr ⟨[_], [], none, rfl, gives_request.2 rfl, ?_⟩)
  exact asks_bind.2 (.inl (asks_request.2 ⟨rfl, rfl⟩))

/-- The dot is trimmed after the cut, and a short name stays what it is. -/
theorem labels_always_fit_lengthy :
    lengthy.labelValue = String.ofList (List.replicate 61 'a') ∧ IsLabelValue lengthy.labelValue ∧
    (⟨"acme", "shop", none⟩ : Repository).labelValue = "acme.shop" ∧
    ∃ env ns, lengthySpace ∈ Child.parts {} env ns ∧ Child.Labelled env lengthySpace.object := by
  have hvalue : lengthy.labelValue = String.ofList (List.replicate 61 'a') := by decide +kernel
  obtain ⟨fits, _, _, _, _⟩ := labels_always_fit lengthy
  obtain ⟨_, _, same, _, labelled⟩ := labels_always_fit ⟨"acme", "shop", none⟩
  refine ⟨hvalue, fits.resolve_left ?_, same.2 ?_, labelled _ _ _ _ _ asks_lengthySpace⟩
  · rw [hvalue]
    decide
  · have hchars : "acme.shop".toList.all (fun c => c.isAlphanum || c == '.') = true := by decide
    refine ⟨fun c hc => ?_, ⟨'a', rfl, rfl⟩, ⟨'p', by decide, rfl⟩, by decide⟩
    have hc := List.all_eq_true.1 hchars c hc
    rw [Bool.or_eq_true, beq_iff_eq] at hc
    exact hc.imp_right fun hdot => .inr (.inr hdot)

end Repository
end PreviewControl
