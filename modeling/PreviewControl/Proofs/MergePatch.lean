import PreviewControl.Proofs.Marking
import PreviewControl.Proofs.RoundTrip
import PreviewControl.Proofs.StoreLaws

/-!
# Merge patches

What a server makes of a JSON value that is to be patched as in RFC 7386. Members that a patch does
not name stay, a null takes a member away, objects are merged member by member, and anything else
takes the place of what was there. So a record that is merged into an object is read back from it
only if it writes every member that could be read before.
-/
namespace PreviewControl

namespace Json

/-! ## Merging -/

mutual

/-- The value that a patch makes of a target. What is no object is merged as an empty one. -/
def mergePatch (target : Json) : Json → Json
  | obj changes => obj (mergeFields (target.fields?.getD []) changes)
  | patch => patch

/-- The members of an object after one change after the other. -/
def mergeFields (fields : List (String × Json)) : List (String × Json) → List (String × Json)
  | [] => fields
  | (name, value) :: changes =>
    mergeFields (if value.isNull then fields.filter (·.1 != name)
      else setField name (mergePatch ((fields.lookup name).getD null) value) fields) changes

end

/-- What a change makes of the value of one member. -/
def mergeValue (old : Option Json) : Option Json → Option Json
  | none => old
  | some value => if value.isNull then none else some (mergePatch (old.getD null) value)

variable {fields changes : List (String × Json)} {key name : String}

theorem lookup_replaceField_ne (h : name ≠ key) (value : Json) (fields : List (String × Json)) :
    (replaceField key value fields).lookup name = fields.lookup name := by
  induction fields with
  | nil => rfl
  | cons f fs ih =>
    unfold replaceField
    split
    · next hf => rw [lookup_cons_if, lookup_cons_if, if_neg h, if_neg fun hn => h (hn.trans hf)]
    · rw [lookup_cons_if, lookup_cons_if, ih]

theorem lookup_setField (key : String) (value : Json) (fields : List (String × Json))
    (name : String) :
    (setField key value fields).lookup name =
      if name = key then some value else fields.lookup name := by
  unfold setField
  split
  · next h =>
    obtain ⟨old, hold⟩ := Option.isSome_iff_exists.1 h
    split
    · next hname => rw [hname, lookup_replaceField hold]
    · next hname => exact lookup_replaceField_ne hname value fields
  · exact lookup_insertField key value fields name

/-- After a merge, what stands for a name depends on nothing but what stood there and the change of
this name. -/
theorem lookup_mergeFields (distinct : (changes.map (·.1)).Nodup) (name : String) :
    (mergeFields fields changes).lookup name =
      mergeValue (fields.lookup name) (changes.lookup name) := by
  induction changes generalizing fields with
  | nil => rfl
  | cons c cs ih =>
    obtain ⟨key, value⟩ := c
    obtain ⟨hkey, hcs⟩ := List.nodup_cons.1 distinct
    have hrest : cs.lookup key = none := lookup_of_not_mem hkey
    rw [mergeFields, ih hcs, lookup_cons_if]
    by_cases hname : name = key
    · rw [if_pos hname, hname, hrest]
      cases hnull : value.isNull with
      | true => simp [mergeValue, hnull, lookup_filter_ne]
      | false => simp [mergeValue, hnull, lookup_setField]
    · rw [if_neg hname]
      cases hnull : value.isNull with
      | true => simp [lookup_filter_ne, hname]
      | false => simp [lookup_setField, hname]

/-- Members that are not named by a patch stay where they are. -/
theorem filter_mergeFields {p : String → Bool} (h : ∀ c ∈ changes, p c.1 = false)
    (fields : List (String × Json)) :
    (mergeFields fields changes).filter (fun f => p f.1) = fields.filter fun f => p f.1 := by
  induction changes generalizing fields with
  | nil => rfl
  | cons c cs ih =>
    obtain ⟨key, value⟩ := c
    obtain ⟨hkey, hcs⟩ := List.forall_mem_cons.1 h
    rw [mergeFields, ih hcs]
    split
    · rw [List.filter_filter]
      refine List.filter_congr fun f _ => ?_
      by_cases hf : f.1 = key
      · rw [hf, hkey, Bool.false_and]
      · rw [bne_iff_ne.2 hf, Bool.and_true]
    · exact filter_setField hkey _ _

/-! ## Names that come once -/

private theorem names_insertField (h : fields.lookup key = none) (value : Json) :
    ((insertField key value fields).map (·.1)).Perm (key :: fields.map (·.1)) := by
  induction fields with
  | nil => exact .refl _
  | cons f fs ih =>
    rw [lookup_cons_if] at h
    split at h
    · cases h
    · next hne =>
      unfold insertField
      rw [if_neg (by simpa using hne)]
      split
      · exact .refl _
      · exact ((ih h).cons f.1).trans (.swap key f.1 _)

theorem nodup_setField {p : String → Bool} (h : ((fields.map (·.1)).filter p).Nodup) (key : String)
    (value : Json) : (((setField key value fields).map (·.1)).filter p).Nodup := by
  unfold setField
  split
  · rw [names_replaceField]
    exact h
  · next hnone =>
    have hnone : fields.lookup key = none := Option.not_isSome_iff_eq_none.1 hnone
    refine (((names_insertField hnone _).filter p).nodup_iff).2 ?_
    rw [List.filter_cons]
    split
    · refine List.nodup_cons.2 ⟨fun hmem => ?_, h⟩
      obtain ⟨f, hf, hkey⟩ := List.mem_map.1 (List.mem_filter.1 hmem).1
      have := List.lookup_eq_none_iff.1 hnone f hf
      simp [hkey] at this
    · exact h

/-- A merge repeats no name. -/
theorem nodup_mergeFields {p : String → Bool} (h : ((fields.map (·.1)).filter p).Nodup)
    (changes : List (String × Json)) :
    (((mergeFields fields changes).map (·.1)).filter p).Nodup := by
  induction changes generalizing fields with
  | nil => exact h
  | cons c cs ih =>
    obtain ⟨key, value⟩ := c
    rw [mergeFields]
    refine ih ?_
    split
    · exact h.sublist ((List.filter_sublist.map _).filter p)
    · exact nodup_setField h key _

/-! ## Members that are read after a merge -/

section Members

variable {α : Type} {read : Json → Option α} {write : α → Json}
  {given merged : List (String × Json)}

theorem mergeValue_of_ne_null {value : Json} (h : value ≠ null) (old : Option Json) :
    mergeValue old (some value) = some (mergePatch (old.getD null) value) := by
  unfold mergeValue
  cases value <;> first | rfl | exact absurd rfl h

theorem mergePatch_ne_null {value : Json} (h : value ≠ null) (old : Json) :
    mergePatch old value ≠ null := by
  cases value <;> first | exact absurd rfl h | (unfold mergePatch; exact nofun)

/-- What a list is written as takes the place of what was there. -/
theorem defaulted_merged (codec : Codec read write) {a : α} (value : α)
    (whole : ∀ old, mergePatch old (write a) = write a)
    (h : merged.lookup name = mergeValue (given.lookup name) (some (write a))) :
    defaulted merged name read value = some a := by
  rw [mergeValue_of_ne_null (codec.write_ne_null a), whole] at h
  exact defaulted_written codec value h

/-- A member that a patch does not name is what it was. -/
theorem optional_merged (codec : Codec read write) {was next : Option α}
    (before : optional given name read = some was)
    (reads : ∀ a, read (mergePatch ((given.lookup name).getD null) (write a)) = some a)
    (h : merged.lookup name = mergeValue (given.lookup name) (next.map write)) :
    optional merged name read = some (next <|> was) := by
  cases next with
  | none =>
    rw [optional_congr (show merged.lookup name = given.lookup name from h), before]
    rfl
  | some a =>
    have hnull := codec.write_ne_null a
    rw [Option.map_some, mergeValue_of_ne_null hnull] at h
    rw [optional_of_ne_null h (mergePatch_ne_null hnull _), reads, Option.map_some]
    rfl

/-- A member for whose absence a null is written is what is written, whatever was there. -/
theorem optional_erased (codec : Codec read write) {next : Option α}
    (whole : ∀ a old, mergePatch old (write a) = write a)
    (h : merged.lookup name = mergeValue (given.lookup name)
      (some ((next.map write).getD null))) : optional merged name read = some next := by
  cases next with
  | none =>
    rw [optional, h]
    rfl
  | some a =>
    have hnull := codec.write_ne_null a
    rw [Option.map_some, Option.getD_some, mergeValue_of_ne_null hnull, whole] at h
    exact optional_written (a := some a) codec h

/-- A record that is merged into a value that could be read, or into none, is read from its own
members and from those that the value had before. -/
theorem read_merged {names : List String} {body : List (String × Json) → Option α}
    {members : List (String × Option Json)} {old : Json} {a : α}
    (opens : ∀ j, read j = (j.members? names).bind body)
    (distinct : (members.map (·.1)).Nodup) (readable : old = null ∨ (read old).isSome = true)
    (reads : ∀ fields, (∀ name, fields.lookup name =
      mergeValue ((old.fields?.getD []).lookup name) (members.lookup name).join) →
      body fields = some a) :
    read (mergePatch old (record members)) = some a := by
  have hnames : (((old.fields?.getD []).map (·.1)).filter names.contains).Nodup := by
    rcases readable with rfl | h
    · exact List.nodup_nil
    · rw [opens] at h
      cases old with
      | obj given =>
        have hopen : (distinct? names given).isSome = true := Option.isSome_of_isSome_bind h
        unfold distinct? at hopen
        split at hopen
        · assumption
        · cases hopen
      | _ => exact List.nodup_nil
  have hchanges := (names_record members).nodup distinct
  have hopen : (mergePatch old (record members)).members? names =
      some (mergeFields (old.fields?.getD []) (members.filterMap fun f => f.2.map (f.1, ·))) :=
    if_pos (nodup_mergeFields hnames _)
  rw [opens, hopen, Option.bind_some]
  refine reads _ fun name => ?_
  rw [lookup_mergeFields hchanges, lookup_record distinct]

end Members

end Json
end PreviewControl
