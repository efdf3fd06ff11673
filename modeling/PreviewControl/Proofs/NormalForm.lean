import PreviewControl.Object.Metadata
import PreviewControl.Proofs.StoreLaws

/-!
# Normal forms

What stands in the normal form of an object. Each of its fields depends on nothing but what is given
for it, of which the last value counts, and is in the normal form of its own schema.
-/
namespace PreviewControl

/-! ## Lists that are read item by item -/

section

variable {α β : Type}

theorem mapM_isSome {f : α → Option β} {xs : List α} :
    (xs.mapM f).isSome = true ↔ ∀ x ∈ xs, (f x).isSome = true := by
  induction xs with
  | nil => simp
  | cons x xs ih =>
    rw [List.mapM_cons, List.forall_mem_cons, ← ih]
    cases f x <;> cases xs.mapM f <;> simp

theorem of_mem_mapM {f : α → Option β} {xs : List α} {ys : List β}
    (h : xs.mapM f = some ys) {y : β} (hy : y ∈ ys) : ∃ x ∈ xs, f x = some y := by
  induction xs generalizing ys with
  | nil =>
    cases h
    cases hy
  | cons x xs ih =>
    rw [List.mapM_cons] at h
    obtain ⟨z, hz, h⟩ := Option.bind_eq_some_iff.1 h
    obtain ⟨zs, hzs, h⟩ := Option.bind_eq_some_iff.1 h
    cases h
    rcases List.mem_cons.1 hy with rfl | hy
    · exact ⟨x, List.mem_cons_self, hz⟩
    · obtain ⟨w, hw, hwy⟩ := ih hzs hy
      exact ⟨w, List.mem_cons_of_mem x hw, hwy⟩

end

namespace Schema

/-! ## The fields of a normal form -/

/-- What a normal form has for a field of which several values may be given: the last one counts,
and a null stands for no value. -/
def last? (s : Schema) (values : List (String × Json)) : Option (Option Json) :=
  let each := values.mapM fun f : String × Json =>
    if f.2.isNull then some none else (s.normalize f.2).map some
  each.map (·.getLast?.join)

theorem normalizeFields_eq (name : String) (required : Bool) (s : Schema)
    (ss : List (String × Bool × Schema)) (given : List (String × Json)) :
    normalizeFields ((name, required, s) :: ss) given =
      (normalizeFields ss given).bind fun rest =>
        (s.last? (given.filter (·.1 == name))).map fun value =>
          ((value <|> if required then some s.default else none).map (name, ·)).toList ++ rest := by
  rw [normalizeFields, last?]
  cases normalizeFields ss given with
  | none => rfl
  | some rest =>
    simp only [Option.bind_eq_bind, Option.bind_some, Option.map_map]
    generalize (given.filter (·.1 == name)).mapM (m := Option) _ = values
    cases values with
    | none => rfl
    | some values =>
      simp only [Option.bind_some, Option.map_some, Function.comp]
      cases values.getLast?.join <;> cases required <;> rfl

/-- A normal form depends on nothing but what it has for every field. -/
theorem normalizeFields_congr {ss : List (String × Bool × Schema)}
    {given given' : List (String × Json)}
    (h : ∀ e ∈ ss, e.2.2.last? (given'.filter (·.1 == e.1)) =
      e.2.2.last? (given.filter (·.1 == e.1))) :
    normalizeFields ss given' = normalizeFields ss given := by
  induction ss with
  | nil => rfl
  | cons e ss ih =>
    obtain ⟨name, required, s⟩ := e
    obtain ⟨he, hss⟩ := List.forall_mem_cons.1 h
    rw [normalizeFields_eq, normalizeFields_eq, ih hss, he]

/-- Fields have a normal form if for each of them what is given is of its form. -/
theorem isSome_normalizeFields {ss : List (String × Bool × Schema)} {given : List (String × Json)} :
    (normalizeFields ss given).isSome = true ↔
      ∀ e ∈ ss, (e.2.2.last? (given.filter (·.1 == e.1))).isSome = true := by
  induction ss with
  | nil => exact ⟨fun _ => List.forall_mem_nil _, fun _ => rfl⟩
  | cons e ss ih =>
    obtain ⟨name, required, s⟩ := e
    rw [normalizeFields_eq, List.forall_mem_cons, ← ih]
    cases normalizeFields ss given with
    | none => simp
    | some rest => simp

/-- The field of a name in a normal form: what counts of the values that are given for it, or the
default of a required field. -/
theorem lookup_normalizeFields {ss : List (String × Bool × Schema)}
    {given out : List (String × Json)} (h : normalizeFields ss given = some out) (name : String) :
    out.lookup name = (ss.filter (·.1 == name)).findSome? fun e =>
      (e.2.2.last? (given.filter (·.1 == name))).join <|>
        if e.2.1 then some e.2.2.default else none := by
  induction ss generalizing out with
  | nil =>
    cases h
    rfl
  | cons e ss ih =>
    obtain ⟨key, required, s⟩ := e
    rw [normalizeFields_eq] at h
    obtain ⟨rest, hrest, h⟩ := Option.bind_eq_some_iff.1 h
    obtain ⟨value, hvalue, rfl⟩ := Option.map_eq_some_iff.1 h
    by_cases hname : key = name
    · subst hname
      rw [List.filter_cons_of_pos (by simp), List.findSome?_cons, hvalue, Option.join_some,
        ← ih hrest]
      cases value <|> if required then some s.default else none with
      | none => rfl
      | some j => exact List.lookup_cons_self
    · rw [List.filter_cons_of_neg (by simpa using hname), ← ih hrest]
      cases value <|> if required then some s.default else none with
      | none => rfl
      | some j =>
        show ((key, j) :: rest).lookup name = rest.lookup name
        rw [lookup_cons_if, if_neg (Ne.symm hname)]

section

variable {ss : List (String × Bool × Schema)} {given out : List (String × Json)} {name : String}
  {required : Bool} {s : Schema} {j : Json}

theorem field_of_normalizeFields (only : ss.filter (·.1 == name) = [(name, required, s)])
    (h : normalizeFields ss given = some out) : ∃ value,
      s.last? (given.filter (·.1 == name)) = some value ∧
        out.lookup name = (value <|> if required then some s.default else none) := by
  have hmem : (name, required, s) ∈ ss.filter (·.1 == name) := only ▸ List.mem_singleton_self _
  have hsome := isSome_normalizeFields.1 (Option.isSome_iff_exists.2 ⟨out, h⟩) _
    (List.mem_filter.1 hmem).1
  obtain ⟨value, hvalue⟩ := Option.isSome_iff_exists.1 hsome
  refine ⟨value, hvalue, ?_⟩
  rw [lookup_normalizeFields h, only, List.findSome?_singleton, hvalue, Option.join_some]

/-- An optional field stands in a normal form as it has last been given. -/
theorem last?_of_normalizeFields (only : ss.filter (·.1 == name) = [opt name s])
    (h : normalizeFields ss given = some out) :
    s.last? (given.filter (·.1 == name)) = some (out.lookup name) := by
  obtain ⟨value, hvalue, hlookup⟩ := field_of_normalizeFields only h
  rw [hvalue, hlookup]
  cases value <;> rfl

/-- A value that has been brought into the form of a schema. -/
def Normal (s : Schema) (j : Json) : Prop := ∃ given, s.normalize given = some j

/-- What counts of several values is in normal form. -/
theorem normal_of_last? {values : List (String × Json)} (h : s.last? values = some (some j)) :
    s.Normal j := by
  obtain ⟨results, hresults, hlast⟩ := Option.map_eq_some_iff.1 h
  obtain ⟨f, _, hf⟩ :=
    of_mem_mapM hresults (List.mem_of_getLast? (Option.join_eq_some_iff.1 hlast))
  split at hf
  · cases hf
  · obtain ⟨k, hk, hf⟩ := Option.map_eq_some_iff.1 hf
    cases hf
    exact ⟨f.2, hk⟩

/-- A field of a normal form is in the normal form of its schema, unless it is a required one that
has been left out. -/
theorem normal_of_lookup (only : ss.filter (·.1 == name) = [(name, required, s)])
    (h : normalizeFields ss given = some out) (there : out.lookup name = some j) :
    s.Normal j ∨ required = true ∧ j = s.default := by
  obtain ⟨value, hvalue, hlookup⟩ := field_of_normalizeFields only h
  rw [hlookup] at there
  cases value with
  | some k =>
    cases there
    exact .inl (normal_of_last? hvalue)
  | none =>
    cases required with
    | false => cases there
    | true =>
      cases there
      exact .inr ⟨rfl, rfl⟩

/-- A member of a record in normal form is in the normal form of its schema. -/
theorem Normal.get? {type : String} {v : Json} (normal : (record type ss).Normal j)
    (only : ss.filter (·.1 == name) = [(name, required, s)]) (there : j.get? name = some v) :
    s.Normal v ∨ required = true ∧ v = s.default := by
  obtain ⟨given, h⟩ := normal
  rw [normalize] at h
  obtain ⟨fields, _, h⟩ := Option.bind_eq_some_iff.1 h
  obtain ⟨out, hout, rfl⟩ := Option.map_eq_some_iff.1 h
  exact normal_of_lookup only hout there

/-- So is a member of an object that tells its kind. -/
theorem Normal.get?_kinded {version kind : String} {v : Json}
    (normal : (kinded version kind ss).Normal j)
    (only : ss.filter (·.1 == name) = [(name, required, s)])
    (hversion : name ≠ "apiVersion") (hkind : name ≠ "kind") (there : j.get? name = some v) :
    s.Normal v ∨ required = true ∧ v = s.default := by
  obtain ⟨given, h⟩ := normal
  rw [normalize] at h
  obtain ⟨fields, _, h⟩ := Option.bind_eq_some_iff.1 h
  split at h
  · obtain ⟨out, hout, rfl⟩ := Option.map_eq_some_iff.1 h
    change (("apiVersion", _) :: ("kind", _) :: out).lookup name = some v at there
    rw [lookup_cons_if, if_neg hversion, lookup_cons_if, if_neg hkind] at there
    exact normal_of_lookup only hout there
  · cases h

end

/-- A part of the fields has that part of the normal form. -/
theorem filter_normalizeFields {ss : List (String × Bool × Schema)}
    {given out : List (String × Json)} (h : normalizeFields ss given = some out)
    (p : String → Bool) :
    normalizeFields (ss.filter fun e => p e.1) given = some (out.filter fun f => p f.1) := by
  induction ss generalizing out with
  | nil =>
    cases h
    rfl
  | cons e ss ih =>
    obtain ⟨name, required, s⟩ := e
    rw [normalizeFields_eq] at h
    obtain ⟨rest, hrest, h⟩ := Option.bind_eq_some_iff.1 h
    obtain ⟨value, hvalue, rfl⟩ := Option.map_eq_some_iff.1 h
    rw [List.filter_append]
    cases hp : p name with
    | true =>
      rw [List.filter_cons_of_pos (by exact hp), normalizeFields_eq, ih hrest, Option.bind_some,
        hvalue, Option.map_some]
      cases value <|> if required then some s.default else none with
      | none => rfl
      | some j => simp [hp]
    | false =>
      rw [List.filter_cons_of_neg (by simp [hp]), ih hrest]
      cases value <|> if required then some s.default else none with
      | none => rfl
      | some j => simp [hp]

/-- Where one optional field is given anew, nothing else of the normal form changes. -/
theorem normalizeFields_changed {ss : List (String × Bool × Schema)}
    {given given' out : List (String × Json)} {key : String} {s : Schema} {norm : Json}
    (only : ss.filter (·.1 == key) = [opt key s])
    (same : ∀ p : String → Bool, p key = false →
      given'.filter (fun f => p f.1) = given.filter fun f => p f.1)
    (last : s.last? (given'.filter (·.1 == key)) = some (some norm))
    (h : normalizeFields ss given = some out) :
    ∃ out', normalizeFields ss given' = some out' ∧ out'.lookup key = some norm ∧
      (∀ name, name ≠ key → out'.lookup name = out.lookup name) ∧
      ∀ p : String → Bool, p key = false →
        out'.filter (fun f => p f.1) = out.filter fun f => p f.1 := by
  have hothers (name : String) (hne : name ≠ key) :
      given'.filter (·.1 == name) = given.filter (·.1 == name) :=
    same (· == name) (beq_eq_false_iff_ne.2 (Ne.symm hne))
  have hgiven := isSome_normalizeFields.1 (Option.isSome_iff_exists.2 ⟨out, h⟩)
  obtain ⟨out', hout'⟩ : ∃ out', normalizeFields ss given' = some out' := by
    refine Option.isSome_iff_exists.1 (isSome_normalizeFields.2 fun e he => ?_)
    by_cases hname : e.1 = key
    · have hmem : e ∈ ss.filter (·.1 == key) := List.mem_filter.2 ⟨he, beq_iff_eq.2 hname⟩
      rw [only, List.mem_singleton] at hmem
      subst hmem
      exact Option.isSome_iff_exists.2 ⟨_, last⟩
    · rw [hothers e.1 hname]
      exact hgiven e he
  refine ⟨out', hout', ?_, fun name hne => ?_, fun p hp => ?_⟩
  · exact Option.some.inj ((last?_of_normalizeFields only hout').symm.trans last)
  · rw [lookup_normalizeFields hout', lookup_normalizeFields h, hothers name hne]
  · refine Option.some.inj ((filter_normalizeFields hout' p).symm.trans
      (Eq.trans ?_ (filter_normalizeFields h p)))
    refine normalizeFields_congr fun e he => ?_
    have hp' : p e.1 = true := (List.mem_filter.1 he).2
    rw [hothers e.1 fun hname => ?_]
    rw [hname, hp] at hp'
    cases hp'

end Schema

/-! ## Metadata -/

namespace Metadata

/-- The members of a normal form from which metadata are read. -/
structure Parts (out : List (String × Json)) (m : Metadata) : Prop where
  name : Json.optional out "name" Json.text? = some m.name
  generateName : Json.optional out "generateName" Json.text? = some m.generateName
  ns : Json.optional out "namespace" Json.text? = some m.ns
  uid : Json.optional out "uid" Json.text? = some m.uid
  resourceVersion : Json.optional out "resourceVersion" Json.text? = some m.resourceVersion
  generation : Json.optional out "generation" Json.int64? = some m.generation
  finalizers : Json.optional out "finalizers" (Json.list? Json.text?) = some m.finalizers
  labels : Json.optional out "labels" Json.textMap? = some m.labels
  annotations : Json.optional out "annotations" Json.textMap? = some m.annotations
  creationTimestamp :
    Json.optional out "creationTimestamp" Json.instant? = some m.creationTimestamp
  deletionTimestamp :
    Json.optional out "deletionTimestamp" Json.instant? = some m.deletionTimestamp
  others : m.others = out.filter fun f => !named.contains f.1

/-- Metadata are read member by member from their normal form. -/
theorem read?_eq_some_iff {given : List (String × Json)} {m : Metadata} :
    read? (.obj given) = some m ↔
      ∃ out, Schema.normalizeFields Form.metadataFields given = some out ∧ Parts out m := by
  have hnormal : Form.metadata.normalize (.obj given) =
      (Schema.normalizeFields Form.metadataFields given).map Json.obj := rfl
  constructor
  · intro h
    unfold read? at h
    rw [hnormal] at h
    obtain ⟨_, hj, h⟩ := Option.bind_eq_some_iff.1 h
    obtain ⟨out, hout, rfl⟩ := Option.map_eq_some_iff.1 hj
    obtain ⟨_, hfields, h⟩ := Option.bind_eq_some_iff.1 h
    cases hfields
    obtain ⟨_, h₁, h⟩ := Option.bind_eq_some_iff.1 h
    obtain ⟨_, h₂, h⟩ := Option.bind_eq_some_iff.1 h
    obtain ⟨_, h₃, h⟩ := Option.bind_eq_some_iff.1 h
    obtain ⟨_, h₄, h⟩ := Option.bind_eq_some_iff.1 h
    obtain ⟨_, h₅, h⟩ := Option.bind_eq_some_iff.1 h
    obtain ⟨_, h₆, h⟩ := Option.bind_eq_some_iff.1 h
    obtain ⟨_, h₇, h⟩ := Option.bind_eq_some_iff.1 h
    obtain ⟨_, h₈, h⟩ := Option.bind_eq_some_iff.1 h
    obtain ⟨_, h₉, h⟩ := Option.bind_eq_some_iff.1 h
    obtain ⟨_, h₁₀, h⟩ := Option.bind_eq_some_iff.1 h
    obtain ⟨_, h₁₁, h⟩ := Option.bind_eq_some_iff.1 h
    cases h
    exact ⟨out, hout, h₁, h₂, h₃, h₄, h₅, h₆, h₇, h₈, h₉, h₁₀, h₁₁, rfl⟩
  · rintro ⟨out, hout, parts⟩
    unfold read?
    rw [hnormal, hout]
    simp only [Option.map_some, Option.bind_eq_bind, Option.bind_some, Json.fields?, parts.name,
      parts.generateName, parts.ns, parts.uid, parts.resourceVersion, parts.generation,
      parts.finalizers, parts.labels, parts.annotations, parts.creationTimestamp,
      parts.deletionTimestamp, ← parts.others]
    rfl

end Metadata
end PreviewControl
