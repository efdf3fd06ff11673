import PreviewControl.Environment.Record
import PreviewControl.Proofs.TimeText

/-!
# Values that are read back from their written form

Specs and statuses are read back from what they are written as. A codec is a reader that undoes a
writer; a record is one if its members are, where a member that is left out in writing is one whose
absence is read as the same value.
-/
namespace PreviewControl

namespace Json

variable {α : Type} {read : Json → Option α} {write : α → Json}

/-- Every value is read back from its written form. No written form is a null, because a null stands
for a member that is not there. -/
structure Codec (read : Json → Option α) (write : α → Json) : Prop where
  read_write (a : α) : read (write a) = some a
  write_ne_null (a : α) : write a ≠ null

namespace Codec

/-! ## Single values and lists -/

theorem text : Codec text? str := ⟨fun _ => rfl, nofun⟩

theorem bool : Codec bool? bool := ⟨fun _ => rfl, nofun⟩

theorem instant : Codec instant? ofInstant := ⟨Time.read?_print, fun t => by simp [ofInstant]⟩

theorem uint32 : Codec uint32? ofUInt32 := by
  refine ⟨fun n => ?_, nofun⟩
  have hfits : FitsUnsigned 32 n.toNat := ⟨by omega, by have := n.toNat_lt; simp [pow2]; omega⟩
  rw [ofUInt32, uint32?, if_pos hfits, Int.toNat_natCast, UInt32.ofNat_toNat]

theorem int64 : Codec int64? ofInt64 := by
  refine ⟨fun n => ?_, nofun⟩
  have hfits : FitsSigned 64 n.toInt := by
    have := n.le_toInt
    have := n.toInt_lt
    simp [FitsSigned, pow2]
    omega
  rw [ofInt64, int64?, if_pos hfits, Int64.ofInt_toInt]

theorem list (codec : Codec read write) : Codec (list? read) fun xs => arr (xs.map write) := by
  refine ⟨fun xs => ?_, nofun⟩
  have hitem : read ∘ write = some := funext codec.read_write
  show (xs.map write).mapM read = some xs
  rw [List.mapM_map, hitem]
  simpa using List.mapM_pure (m := Option) (l := xs) (f := id)

end Codec

/-! ## Members of records -/

/-- A member that a record leaves out is not found in it, and any other has its value there. -/
theorem lookup_record {members : List (String × Option Json)} (h : (members.map (·.1)).Nodup)
    (name : String) :
    (members.filterMap fun f => f.2.map (f.1, ·)).lookup name = (members.lookup name).join := by
  induction members with
  | nil => rfl
  | cons f fs ih =>
    obtain ⟨key, value⟩ := f
    obtain ⟨hkey, hfs⟩ := List.nodup_cons.1 h
    rw [List.filterMap_cons, List.lookup_cons]
    cases value with
    | none =>
      show (fs.filterMap _).lookup name = _
      rw [ih hfs]
      split
      · next heq =>
        -- The name that is left out comes only once, so that no later field is taken for it.
        have hnone : fs.lookup name = none := by
          refine List.lookup_eq_none_iff.2 fun f hf => bne_iff_ne.2 fun h => hkey ?_
          exact List.mem_map.2 ⟨f, hf, h.symm.trans (beq_iff_eq.1 heq)⟩
        rw [hnone]
        rfl
      · rfl
    | some j =>
      show ((key, j) :: fs.filterMap _).lookup name = _
      rw [List.lookup_cons, ih hfs]
      split <;> rfl

theorem names_record (members : List (String × Option Json)) :
    ((members.filterMap fun f => f.2.map (f.1, ·)).map (·.1)).Sublist (members.map (·.1)) := by
  induction members with
  | nil => exact .slnil
  | cons f fs ih =>
    obtain ⟨name, value | j⟩ := f
    · exact ih.cons name
    · exact ih.cons_cons name

section Members

variable {fields : List (String × Json)} {name : String}

theorem field_written (codec : Codec read write) {a : α}
    (h : fields.lookup name = some (write a)) : field fields name read = some a := by
  rw [field, h]
  exact codec.read_write a

theorem defaulted_written (codec : Codec read write) {a : α} (value : α)
    (h : fields.lookup name = some (write a)) :
    defaulted fields name read value = some a := by
  rw [defaulted, h]
  exact codec.read_write a

/-- A list that is left out when it is empty, and read as empty when it is missing. -/
theorem defaulted_nonempty {readAll : Json → Option (List α)} {writeAll : List α → Json}
    (codec : Codec readAll writeAll) {xs : List α}
    (h : fields.lookup name = if xs.isEmpty then none else some (writeAll xs)) :
    defaulted fields name readAll [] = some xs := by
  cases xs with
  | nil => rw [defaulted, h]; rfl
  | cons x xs => exact defaulted_written codec [] h

theorem optional_of_ne_null {j : Json} (h : fields.lookup name = some j) (hj : j ≠ null) :
    optional fields name read = (read j).map some := by
  rw [optional, h]
  cases j <;> first | rfl | exact absurd rfl hj

theorem optional_written (codec : Codec read write) {a : Option α}
    (h : fields.lookup name = a.map write) : optional fields name read = some a := by
  cases a with
  | none => rw [optional, h]; rfl
  | some a => rw [optional_of_ne_null h (codec.write_ne_null a), codec.read_write, Option.map_some]

/-- A member for whose absence a null is written. -/
theorem optional_nullable (codec : Codec read write) {a : Option α}
    (h : fields.lookup name = some ((a.map write).getD null)) :
    optional fields name read = some a := by
  cases a with
  | none => rw [optional, h]; rfl
  | some a => exact optional_written codec h

end Members

/-- Records with members under different names are read back if the members are: `body` is what is
read of the fields, wherever they stand. -/
theorem Codec.record {names : List String} {body : List (String × Json) → Option α}
    {members : α → List (String × Option Json)}
    (opens : ∀ j, read j = (j.members? names).bind body)
    (distinct : ∀ a, ((members a).map (·.1)).Nodup)
    (reads : ∀ a fields, (∀ name, fields.lookup name = ((members a).lookup name).join) →
      body fields = some a) :
    Codec read fun a => Json.record (members a) := by
  refine ⟨fun a => ?_, nofun⟩
  have hnames := (names_record (members a)).nodup (distinct a)
  have hopen : (Json.record (members a)).members? names =
      some ((members a).filterMap fun f => f.2.map (f.1, ·)) := distinct?_eq_some names hnames
  rw [opens, hopen, Option.bind_some]
  exact reads a _ (lookup_record (distinct a))

/-- The written form of the value that a JSON value is read as. -/
def normal? (read : Json → Option α) (write : α → Json) (j : Json) : Option Json :=
  (read j).map write

/-- A normal form is its own normal form. -/
theorem Codec.normal (codec : Codec read write) (j : Json) :
    (normal? read write j).bind (normal? read write) = normal? read write j := by
  unfold normal?
  cases read j with
  | none => rfl
  | some a => rw [Option.map_some, Option.bind_some, codec.read_write, Option.map_some]

end Json

/-! ## Parts of specs and statuses -/

open Json (Codec field_written optional_written)

theorem Repository.codec : Codec Repository.read? Repository.toJson := by
  refine .record (fun _ => rfl) (fun r => by simp) fun r fields h => ?_
  rw [field_written .text (h "owner"), field_written .text (h "name"),
    optional_written .text (h "url")]
  rfl

theorem QuotaOverrides.codec : Codec QuotaOverrides.read? QuotaOverrides.toJson := by
  refine .record (fun _ => rfl) (fun q => by simp) fun q fields h => ?_
  rw [optional_written .text (h "cpu"), optional_written .text (h "memory"),
    optional_written .uint32 (h "pods")]
  rfl

theorem ServiceStatus.codec : Codec ServiceStatus.read? ServiceStatus.toJson := by
  refine .record (fun _ => rfl) (fun s => by simp) fun s fields h => ?_
  rw [field_written .text (h "name"), field_written .bool (h "ready"),
    optional_written .text (h "url")]
  rfl

theorem CostEstimate.codec : Codec CostEstimate.read? CostEstimate.toJson := by
  show Codec CostEstimate.read? fun c => .record [("currency", some (.str c.currency)),
    ("hourlyCost", some (.str c.hourly)), ("totalCost", some (.str c.total))]
  refine .record (fun _ => rfl) (fun c => by simp) fun c fields h => ?_
  rw [field_written .text (h "currency"), field_written .text (h "hourlyCost"),
    field_written .text (h "totalCost")]
  rfl

theorem Phase.codec : Codec Phase.read? Phase.toJson := ⟨Phase.read?_toJson, nofun⟩

theorem Verdict.codec :
    Codec (fun j => j.variant?.bind Verdict.ofName?) fun v => .str v.name :=
  ⟨Verdict.ofName?_name, nofun⟩

theorem Condition.codec : Codec Condition.read? Condition.toJson := by
  show Codec Condition.read? fun c => .record [("type", some (.str c.type)),
    ("status", some (.str c.verdict.name)), ("reason", some (.str c.reason)),
    ("message", some (.str c.message)), ("lastTransitionTime", some (.ofInstant c.since))]
  refine .record (fun _ => rfl) (fun c => by simp) fun c fields h => ?_
  rw [field_written .text (h "type"), field_written Verdict.codec (h "status"),
    field_written .text (h "reason"), field_written .text (h "message"),
    field_written .instant (h "lastTransitionTime")]
  rfl

/-! ## Specs and statuses -/

theorem Spec.codec : Codec Spec.read? Spec.toJson := by
  refine .record (fun _ => rfl) (fun s => by simp) fun s fields h => ?_
  rw [field_written Repository.codec (h "repository"), field_written .uint32 (h "prNumber"),
    field_written .text (h "headSha"), optional_written .text (h "baseBranch"),
    optional_written .text (h "headBranch"), Json.defaulted_nonempty (.list .text) (h "services"),
    Json.defaulted_written .text _ (h "ttl"), optional_written QuotaOverrides.codec (h "resources")]
  rfl

theorem Status.codec : Codec Status.read? Status.toJson := by
  refine .record (fun _ => rfl) (fun s => by simp) fun s fields h => ?_
  rw [optional_written Phase.codec (h "phase"), optional_written .text (h "namespace"),
    optional_written .text (h "url"),
    Json.defaulted_written (.list ServiceStatus.codec) [] (h "services"),
    optional_written CostEstimate.codec (h "costEstimate"),
    optional_written .instant (h "createdAt"), optional_written .instant (h "expiresAt"),
    optional_written .instant (h "lastSyncedAt"),
    optional_written .int64 (h "observedGeneration"),
    Json.defaulted_written (.list Condition.codec) [] (h "conditions"),
    Json.optional_nullable .text (h "message")]
  rfl

/-- Every spec and every status is read back from its written form. So what is written of the value
that any JSON value is read as is a normal form, which reading and writing again leave as it is. -/
theorem written_read_back :
    (∀ spec : Spec, Spec.read? spec.toJson = some spec) ∧
      (∀ status : Status, Status.read? status.toJson = some status) ∧
      (∀ j, (Json.normal? Spec.read? Spec.toJson j).bind (Json.normal? Spec.read? Spec.toJson) =
        Json.normal? Spec.read? Spec.toJson j) ∧
      ∀ j, (Json.normal? Status.read? Status.toJson j).bind
        (Json.normal? Status.read? Status.toJson) = Json.normal? Status.read? Status.toJson j :=
  ⟨Spec.codec.read_write, Status.codec.read_write, Spec.codec.normal, Status.codec.normal⟩

end PreviewControl
