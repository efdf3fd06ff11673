import PreviewControl.Cluster.Store

/-!
# Laws of the cluster in memory

What is stored where after a write. A call changes the record that it names and no other, and what
a write leaves of a record can be told from the record that was there.
-/
namespace PreviewControl

/-- The record that a call writes to, if it writes to one. -/
def Call.recordKey? : Call → Option RecordKey
  | patchStatus env _ => some env.key
  | addFinalizer env => some env.key
  | removeFinalizer env => some env.key
  | deleteEnvironment name ns => some ⟨ns, name⟩
  | _ => none

/-- A call that lets time pass. -/
def Call.takesTime : Call → Bool
  | listEnvironments _ => true
  | _ => false

/-- The first entry of a list answers for its own key and for no other. -/
theorem lookup_cons_if {α β : Type} [BEq α] [LawfulBEq α] [DecidableEq α] (k : α) (r : α × β)
    (rs : List (α × β)) :
    (r :: rs).lookup k = if k = r.1 then some r.2 else rs.lookup k := by
  by_cases h : k = r.1
  · rw [if_pos h, h]
    exact List.lookup_cons_self
  · have hb : (k == r.1) = false := beq_eq_false_iff_ne.2 h
    rw [if_neg h, List.lookup_cons, hb]

/-- Where every key occurs once, an entry answers for its key. -/
theorem lookup_of_mem {α β : Type} [BEq α] [LawfulBEq α] [DecidableEq α] {rs : List (α × β)}
    {r : α × β} (distinct : (rs.map (·.1)).Nodup) (mem : r ∈ rs) : rs.lookup r.1 = some r.2 := by
  induction rs with
  | nil => cases mem
  | cons first rs ih =>
    obtain ⟨hfirst, hrs⟩ := List.nodup_cons.1 distinct
    rw [lookup_cons_if]
    rcases List.mem_cons.1 mem with rfl | mem
    · exact if_pos rfl
    · have hne : r.1 ≠ first.1 := fun h => hfirst (List.mem_map.2 ⟨r, mem, h⟩)
      rw [if_neg hne, ih hrs mem]

/-- No entry answers for a key that does not occur. -/
theorem lookup_of_not_mem {α β : Type} [BEq α] [LawfulBEq α] {rs : List (α × β)} {k : α}
    (absent : k ∉ rs.map (·.1)) : rs.lookup k = none := by
  rw [List.lookup_eq_none_iff]
  exact fun r hr => bne_iff_ne.2 fun h => absent (List.mem_map.2 ⟨r, hr, h.symm⟩)

/-- Where all entries for a key are gone, the others answer as before. -/
theorem lookup_filter_ne {α β : Type} [DecidableEq α] (key k : α) (rs : List (α × β)) :
    (rs.filter (·.1 != key)).lookup k = if k = key then none else rs.lookup k := by
  induction rs with
  | nil => simp
  | cons r rs ih =>
    by_cases hr : r.1 = key
    · rw [List.filter_cons_of_neg (by simp [hr]), ih, lookup_cons_if]
      by_cases hk : k = key
      · rw [if_pos hk, if_pos hk]
      · rw [if_neg hk, if_neg hk, if_neg fun h => hk (h.trans hr)]
    · rw [List.filter_cons_of_pos (by simp [hr]), lookup_cons_if, lookup_cons_if, ih]
      by_cases hkr : k = r.1
      · rw [if_pos hkr, if_pos hkr, if_neg fun h => hr (hkr.symm.trans h)]
      · rw [if_neg hkr, if_neg hkr]

/-- A field that is put in place answers for its name, wherever it stands. -/
theorem Json.lookup_insertField (key : String) (value : Json) (fs : List (String × Json))
    (k : String) :
    (Json.insertField key value fs).lookup k = if k = key then some value else fs.lookup k := by
  induction fs with
  | nil => exact lookup_cons_if k (key, value) []
  | cons f fs ih =>
    unfold Json.insertField
    split
    · next heq =>
      rw [lookup_cons_if, lookup_cons_if, ← beq_iff_eq.1 heq]
      split <;> rfl
    · split
      · rw [lookup_cons_if]
      · next hne _ =>
        rw [lookup_cons_if, lookup_cons_if, ih]
        by_cases hk : k = f.1
        · have hkey : k ≠ key := fun h => hne (beq_iff_eq.2 (h.symm.trans hk))
          rw [if_pos hk, if_pos hk, if_neg hkey]
        · rw [if_neg hk, if_neg hk]

namespace Store

/-! ## Records and objects, and where they are stored -/

private theorem lookup_insertRecord (key k : RecordKey) (env : Environment)
    (rs : List (RecordKey × Environment)) :
    (insertRecord key env rs).lookup k = if k = key then some env else rs.lookup k := by
  induction rs with
  | nil => exact lookup_cons_if k (key, env) []
  | cons r rs ih =>
    unfold insertRecord
    split
    · next heq =>
      rw [lookup_cons_if, lookup_cons_if]
      by_cases hk : k = key
      · rw [if_pos hk, if_pos hk]
      · rw [if_neg hk, if_neg hk, if_neg fun h => hk (h.trans heq.symm)]
    · split
      · rw [lookup_cons_if]
      · next hne _ =>
        rw [lookup_cons_if, lookup_cons_if, ih]
        by_cases hr : k = r.1
        · rw [if_pos hr, if_pos hr, if_neg fun h => hne (h.symm.trans hr)]
        · rw [if_neg hr, if_neg hr]

@[simp] theorem record?_putRecord (s : Store) (key k : RecordKey) (env : Environment) :
    (s.putRecord key env).record? k = if k = key then some env else s.record? k :=
  lookup_insertRecord key k env s.records

@[simp] theorem record?_eraseRecord (s : Store) (key k : RecordKey) :
    (s.eraseRecord key).record? k = if k = key then none else s.record? k :=
  lookup_filter_ne key k s.records

@[simp] theorem object?_putObject (s : Store) (text k : String) (object : Json) :
    (s.putObject text object).object? k = if k = text then some object else s.object? k :=
  Json.lookup_insertField text object s.objects k

@[simp] theorem object?_eraseObject (s : Store) (text k : String) :
    (s.eraseObject text).object? k = if k = text then none else s.object? k :=
  lookup_filter_ne text k s.objects

@[simp] theorem record?_revise (s : Store) (key k : RecordKey) (env : Environment) :
    (s.revise key env).record? k = if k = key then some (bump env) else s.record? k :=
  record?_putRecord s key k (bump env)

theorem record?_settle (s : Store) (key k : RecordKey) (env : Environment) :
    (s.settle key env).record? k = if k = key then
      (if env.metadata.isDeleting && env.metadata.heldBy.isEmpty then none else some (bump env))
      else s.record? k := by
  unfold settle
  split <;> simp

/-! ## A new version is the same record -/

@[simp] theorem bump_key (env : Environment) : (bump env).key = env.key := rfl
@[simp] theorem bump_uid (env : Environment) : (bump env).metadata.uid = env.metadata.uid := rfl
@[simp] theorem bump_status (env : Environment) : (bump env).status = env.status := rfl
@[simp] theorem bump_known (env : Environment) : (bump env).known = env.known := rfl
@[simp] theorem bump_spec (env : Environment) : (bump env).spec = env.spec := rfl
@[simp] theorem bump_hasFinalizer (env : Environment) :
    (bump env).hasFinalizer = env.hasFinalizer := rfl
@[simp] theorem bump_isDeleting (env : Environment) :
    (bump env).metadata.isDeleting = env.metadata.isDeleting := rfl

@[simp] theorem withFinalizers_key (env : Environment) (finalizers : List String) :
    (withFinalizers env finalizers).key = env.key := rfl
@[simp] theorem withFinalizers_uid (env : Environment) (finalizers : List String) :
    (withFinalizers env finalizers).metadata.uid = env.metadata.uid := rfl
@[simp] theorem withFinalizers_hasFinalizer (env : Environment) (finalizers : List String) :
    (withFinalizers env finalizers).hasFinalizer =
      finalizers.contains Environment.cleanupFinalizer := rfl
@[simp] theorem withFinalizers_known (env : Environment) (finalizers : List String) :
    (withFinalizers env finalizers).known = env.known := rfl

/-! ## What calls do to records -/

variable {s : Store} {env : Environment} {k : RecordKey}

/-- A write goes to the record as it is stored. -/
theorem current_ok {stored : Environment} (h : s.current env = .ok stored) :
    s.record? env.key = some stored := by
  unfold current at h
  cases hr : s.record? env.key with
  | none => simp [hr] at h
  | some r =>
    simp only [hr] at h
    split at h
    · injection h with h
      rw [h]
    · cases h

theorem current_self (h : s.record? env.key = some env) : s.current env = .ok env := by
  rw [current, h]
  simp

/-- A call leaves every record alone that it does not name. -/
theorem record?_serve_of_ne {c : Call} (h : c.recordKey? ≠ some k) :
    (s.serve c).2.record? k = s.record? k := by
  cases c with
  | getEnvironment | listEnvironments | apply | getObject | listPods => rfl
  | patchStatus env status =>
    have hk : k ≠ env.key := fun he => h (congrArg some he.symm)
    simp only [serve]
    cases s.current env with
    | ok stored => simp [hk]
    | error e => rfl
  | addFinalizer env =>
    have hk : k ≠ env.key := fun he => h (congrArg some he.symm)
    simp only [serve, write]
    cases s.current env with
    | ok stored => simp [answerWrite, Except.map, hk]
    | error e => rfl
  | removeFinalizer env =>
    have hk : k ≠ env.key := fun he => h (congrArg some he.symm)
    simp only [serve, write]
    cases s.current env with
    | ok stored => simp [answerWrite, Except.map, record?_settle, hk]
    | error e => rfl
  | deleteEnvironment name ns =>
    have hk : k ≠ ⟨ns, name⟩ := fun he => h (congrArg some he.symm)
    simp only [serve, deleteRecord]
    split
    · rfl
    · split
      · simp [hk]
      · split
        · rfl
        · simp [hk]
  | deleteObject target =>
    simp only [serve, deleteObject]
    split
    · rfl
    · split <;> rfl

/-- The status that is written is stored, and nothing else of the record changes but its version;
or the write is refused. -/
theorem serve_patchStatus (s : Store) (env : Environment) (status : Status) :
    (∃ stored, s.record? env.key = some stored ∧
      (s.serve (.patchStatus env status)).1 = .ok (bump { stored with status := some status }) ∧
      (s.serve (.patchStatus env status)).2.record? env.key =
        some (bump { stored with status := some status })) ∨
    ∃ e, (s.serve (.patchStatus env status)).1 = .error e ∧
      (s.serve (.patchStatus env status)).2 = s := by
  simp only [serve]
  cases hc : s.current env with
  | ok stored => exact .inl ⟨stored, current_ok hc, rfl, by simp⟩
  | error e => exact .inr ⟨e, rfl, rfl⟩

theorem serve_addFinalizer (s : Store) (env : Environment) :
    (∃ stored, s.record? env.key = some stored ∧
      (s.serve (.addFinalizer env)).2.record? env.key = some (bump (withFinalizers stored
        (stored.metadata.heldBy ++ [Environment.cleanupFinalizer])))) ∨
    (s.serve (.addFinalizer env)).2 = s := by
  simp only [serve, write]
  cases hc : s.current env with
  | ok stored => exact .inl ⟨stored, current_ok hc, by simp [answerWrite, Except.map]⟩
  | error e => exact .inr rfl

theorem serve_removeFinalizer (s : Store) (env : Environment) :
    (∃ stored, s.record? env.key = some stored ∧
      ((s.serve (.removeFinalizer env)).2.record? env.key = none ∨
        ∃ rest, (s.serve (.removeFinalizer env)).2.record? env.key =
          some (bump (withFinalizers stored rest)))) ∨
    (s.serve (.removeFinalizer env)).2 = s := by
  simp only [serve, write]
  cases hc : s.current env with
  | ok stored =>
    refine .inl ⟨stored, current_ok hc, ?_⟩
    simp only [answerWrite, Except.map, record?_settle, if_true]
    split
    · exact .inl rfl
    · exact .inr ⟨_, rfl⟩
  | error e => exact .inr rfl

/-- The request to delete a record marks it at most, unless nothing holds it. -/
theorem record?_deleteRecord {stored : Environment} (hr : s.record? k = some stored) :
    ((s.deleteRecord k).record? k = none ∧ stored.hasFinalizer = false) ∨
      ∃ after, (s.deleteRecord k).record? k = some after ∧ after.key = stored.key ∧
        after.metadata.uid = stored.metadata.uid ∧ after.hasFinalizer = stored.hasFinalizer ∧
        after.known = stored.known := by
  unfold deleteRecord
  simp only [hr]
  split
  · next he =>
    refine .inl ⟨by simp, ?_⟩
    rw [Environment.hasFinalizer, List.isEmpty_iff.1 he]
    rfl
  · split
    · exact .inr ⟨stored, hr, rfl, rfl, rfl, rfl⟩
    · rw [record?_revise, if_pos rfl]
      exact .inr ⟨_, rfl, rfl, rfl, rfl, rfl⟩

theorem record?_deleteRecord_of_ne {key : RecordKey} (h : key ≠ k) :
    (s.deleteRecord key).record? k = s.record? k :=
  record?_serve_of_ne (c := .deleteEnvironment key.name key.ns) fun heq => h (Option.some.inj heq)

/-- The request to delete a record touches no other object. -/
theorem objects_deleteRecord (s : Store) (k : RecordKey) :
    (s.deleteRecord k).objects = s.objects := by
  unfold deleteRecord
  split
  · rfl
  · split
    · rfl
    · split <;> rfl

@[simp] theorem object?_deleteRecord (s : Store) (k : RecordKey) (text : String) :
    (s.deleteRecord k).object? text = s.object? text :=
  congrArg (·.lookup text) (objects_deleteRecord s k)

/-- What the deletion of an object leaves of it. -/
theorem object?_deleteObject (s : Store) (text k : String) :
    (s.deleteObject text).2.object? k = if k = text then
      ((s.object? text).bind fun object =>
        if objectIsHeld object then some (markDeleting s.now object) else none)
      else s.object? k := by
  unfold deleteObject
  cases ho : s.object? text with
  | none =>
    by_cases hk : k = text
    · rw [if_pos hk, hk]
      exact ho
    · rw [if_neg hk]
  | some object =>
    simp only [Option.bind_some]
    split
    · exact object?_putObject ..
    · exact object?_eraseObject ..

/-- What can come of a call: it is answered, its answer is lost, or it does not get through. -/
inductive Served (s : Store) (c : Call) : c.Answer → Store → Prop where
  | answered : Served s c (s.serve c).1 (s.serve c).2
  | lost (e : Failure) : Served s c (.error e) (s.serve c).2
  | failed (e : Failure) : Served s c (.error e) s

theorem Served.read {name ns : String} (h : s.record? ⟨ns, name⟩ = some env) :
    s.Served (.getEnvironment name ns) (.ok (some env)) s := by
  have hs : s.Served (.getEnvironment name ns) (.ok (s.record? ⟨ns, name⟩)) s := .answered
  rw [h] at hs
  exact hs

theorem Served.absent {target : Address} (h : s.object? target.text = none) :
    s.Served (.getObject target) (.ok none) s := by
  have hs : s.Served (.getObject target) (s.readObject target) s := .answered
  rw [readObject, h] at hs
  exact hs

theorem Served.record?_of_ne {c : Call} {answer : c.Answer} {after : Store}
    (h : Served s c answer after) (hk : c.recordKey? ≠ some k) :
    after.record? k = s.record? k := by
  cases h with
  | answered | lost => exact record?_serve_of_ne hk
  | failed => rfl

/-! ## Calls and faults -/

theorem spend_eq {c : Call} (h : c.takesTime = false) : s.spend c = s := by
  cases c with
  | listEnvironments ns => cases h
  | getEnvironment | patchStatus | addFinalizer | removeFinalizer | deleteEnvironment | apply
  | getObject | deleteObject | listPods => rfl

@[simp] theorem spend_faults (s : Store) (c : Call) : (s.spend c).faults = s.faults := by
  cases c <;> rfl

@[simp] theorem spend_records (s : Store) (c : Call) : (s.spend c).records = s.records := by
  cases c <;> rfl

/-- A call that a fault makes fail changes nothing but the faults. -/
theorem answer_of_hit {c : Call} {e : Failure} {faults : List Fault}
    (h : Fault.strike c s.faults = some (e, faults)) (hc : c.takesTime = false) :
    s.answer c = (.error e, { s with faults := faults }) := by
  unfold answer
  rw [h]
  simp only [spend_eq hc]

theorem answer_of_miss {c : Call} (h : Fault.strike c s.faults = none)
    (hc : c.takesTime = false) : s.answer c = s.serve c := by
  unfold answer
  rw [h]
  simp only [spend_eq hc]

/-- Serving a call changes records and objects only. -/
theorem serve_kept (s : Store) (c : Call) :
    (s.serve c).2.faults = s.faults ∧ (s.serve c).2.pods = s.pods ∧
      (s.serve c).2.now = s.now ∧ (s.serve c).2.listSeconds = s.listSeconds := by
  cases c with
  | getEnvironment | listEnvironments | apply | getObject | listPods => exact ⟨rfl, rfl, rfl, rfl⟩
  | patchStatus env status =>
    simp only [serve]
    cases s.current env <;> exact ⟨rfl, rfl, rfl, rfl⟩
  | addFinalizer env =>
    simp only [serve, write]
    cases s.current env <;> exact ⟨rfl, rfl, rfl, rfl⟩
  | removeFinalizer env =>
    simp only [serve, write]
    cases s.current env with
    | error e => exact ⟨rfl, rfl, rfl, rfl⟩
    | ok stored =>
      simp only [Except.map, answerWrite, settle]
      split <;> exact ⟨rfl, rfl, rfl, rfl⟩
  | deleteEnvironment name ns =>
    simp only [serve, deleteRecord]
    split
    · exact ⟨rfl, rfl, rfl, rfl⟩
    · split
      · exact ⟨rfl, rfl, rfl, rfl⟩
      · split <;> exact ⟨rfl, rfl, rfl, rfl⟩
  | deleteObject target =>
    simp only [serve, deleteObject]
    split
    · exact ⟨rfl, rfl, rfl, rfl⟩
    · split <;> exact ⟨rfl, rfl, rfl, rfl⟩

theorem serve_faults (s : Store) (c : Call) :
    (s.serve c).2.faults = s.faults ∧ (s.serve c).2.pods = s.pods :=
  ⟨(s.serve_kept c).1, (s.serve_kept c).2.1⟩

theorem serve_records {c : Call} (h : c.recordKey? = none) :
    (s.serve c).2.records = s.records := by
  cases c with
  | getEnvironment | listEnvironments | apply | getObject | listPods => rfl
  | patchStatus | addFinalizer | removeFinalizer | deleteEnvironment => cases h
  | deleteObject target =>
    simp only [serve, deleteObject]
    split
    · rfl
    · split <;> rfl

/-- A call that names no record leaves all records alone. -/
theorem answer_records {c : Call} (h : c.recordKey? = none) :
    (s.answer c).2.records = s.records := by
  unfold answer
  split
  · exact spend_records _ c
  · exact (spend_records _ c).trans (serve_records h)

/-- A call takes the time that is written down for it. -/
theorem answer_clock (s : Store) (c : Call) :
    (s.answer c).2.now = (s.spend c).now ∧ (s.answer c).2.listSeconds = s.listSeconds := by
  obtain ⟨_, _, hnow, hlist⟩ := s.serve_kept c
  unfold answer
  split
  · cases c <;> exact ⟨rfl, rfl⟩
  · cases c with
    | listEnvironments ns => exact ⟨rfl, rfl⟩
    | _ => exact ⟨hnow, hlist⟩

end Store
end PreviewControl
