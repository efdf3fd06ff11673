import PreviewControl.Proofs.Provenance

/-!
# Passes whose calls about records get through

Faults may hit the calls about children and pods, but none that reads or writes a record. Such a
pass over a valid record writes what it means to write, and what it finds out depends on the
objects, the pods and the faults alone.
-/
namespace PreviewControl

open Reconcile Pass

/-! ## Faults are used up -/

namespace Fault

variable {c d : Call} {f : Fault} {fs rest : List Fault} {e : Failure}

theorem strike_eq_none : strike c fs = none ↔ ∀ f ∈ fs, f.hits c = false := by
  induction fs with
  | nil => simp [strike]
  | cons f fs ih =>
    cases hf : f.hits c with
    | true => simp [strike, hf]
    | false => simp [strike, hf, ih]

/-- A fault hits nothing more after it has been used. -/
theorem hits_used (h : f.hits c = false) : f.used.hits c = false := by
  unfold hits at h
  have hused : f.used.hits c = (f.call == c.word && f.kind.all (· == c.topic.1) &&
    f.name.all (· == c.topic.2) && f.times.map (· - 1) != some 0) := rfl
  rw [hused]
  rcases Bool.and_eq_false_iff.1 h with h | h
  · rw [h, Bool.false_and]
  · have htimes : f.times = some 0 := by simpa using h
    rw [htimes]
    exact Bool.and_false _

theorem strike_rest (h : strike d fs = some (e, rest)) (miss : strike c fs = none) :
    strike c rest = none := by
  induction fs generalizing rest with
  | nil => cases h
  | cons f fs ih =>
    rw [strike_eq_none] at miss
    obtain ⟨hf, hfs⟩ := List.forall_mem_cons.1 miss
    unfold strike at h
    split at h
    · cases h
      exact strike_eq_none.2 (List.forall_mem_cons.2 ⟨hits_used hf, hfs⟩)
    · obtain ⟨⟨e', rest'⟩, hs, heq⟩ := Option.map_eq_some_iff.1 h
      cases heq
      have hrest := strike_eq_none.1 (ih hs (strike_eq_none.2 hfs))
      exact strike_eq_none.2 (List.forall_mem_cons.2 ⟨hf, hrest⟩)

end Fault

namespace Store

variable {s : Store} {c : Call}

/-- No fault hits a call about records. -/
def Undisturbed (s : Store) : Prop := ∀ c : Call, c.isAside = false → Fault.strike c s.faults = none

theorem Undisturbed.answer (h : s.Undisturbed) (d : Call) : (s.answer d).2.Undisturbed := by
  intro c hc
  unfold Store.answer
  cases hs : Fault.strike d s.faults with
  | some hit =>
    rw [spend_faults]
    exact Fault.strike_rest hs (h c hc)
  | none =>
    rw [spend_faults, (s.serve_faults d).1]
    exact h c hc

/-- A call about children or pods does not see the records. -/
theorem answer_aside (h : c.isAside = true) (s : Store) (records : List (RecordKey × Environment)) :
    { s with records := records }.answer c =
      ((s.answer c).1, { (s.answer c).2 with records := records }) := by
  unfold Store.answer
  cases hs : Fault.strike c s.faults with
  | some hit =>
    cases c with
    | apply | getObject | deleteObject | listPods => rfl
    | _ => cases h
  | none =>
    cases c with
    | apply | getObject | listPods => rfl
    | deleteObject target =>
      simp only [serve, deleteObject, object?]
      cases s.objects.lookup target.text with
      | none => rfl
      | some object =>
        simp only
        split <;> rfl
    | _ => cases h

end Store

namespace Pass

variable {α β : Type} {p : Pass α} {s : Store}

theorem undisturbed_after (h : s.Undisturbed) (p : Pass α) : (p.after s).Undisturbed :=
  after_preserves (fun _ c hs => hs.answer c) p h

/-- A pass about children and pods does not see the records. -/
theorem Makes.observe_records (h : p.Makes fun c => c.isAside = true) (s : Store)
    (records : List (RecordKey × Environment)) :
    p.outcome { s with records := records } = p.outcome s ∧
      p.after { s with records := records } = { p.after s with records := records } := by
  induction p generalizing s with
  | done | fail | overflow => exact ⟨rfl, rfl⟩
  | call c next ih =>
    obtain ⟨hc, hnext⟩ := h.of_call
    rw [outcome, outcome, after, after, observe_call, observe_call, Store.answer_aside hc]
    exact ih _ (hnext _) _
  | announce e next ih =>
    rw [outcome, outcome, after, after, observe_announce, observe_announce]
    exact ih h.of_announce s
  | count m next ih =>
    rw [outcome, outcome, after, after, observe_count, observe_count]
    exact ih h.of_count s

/-! ## Passes that come to a result -/

/-- Whatever is answered, the pass does not ask for a time beyond the representable years. -/
def NeverOverflows (p : Pass α) : Prop := ∀ t, ¬p.Leads t overflow

theorem neverOverflows_done (a : α) : (done a).NeverOverflows := fun _ h =>
  nomatch (leads_done.1 h).2

theorem neverOverflows_fail (e : Failure) : (fail e : Pass α).NeverOverflows := fun _ h =>
  nomatch (leads_fail.1 h).2

theorem neverOverflows_call {c : Call} {next : c.Answer → Pass α}
    (h : ∀ answer, (next answer).NeverOverflows) : (call c next).NeverOverflows := by
  intro t ht
  rcases leads_call.1 ht with ⟨_, he⟩ | ⟨answer, u, _, hu⟩
  · cases he
  · exact h answer u hu

theorem neverOverflows_request (c : Call) : (request c).NeverOverflows := by
  refine neverOverflows_call fun answer => ?_
  cases answer with
  | ok reply => exact neverOverflows_done reply
  | error e => exact neverOverflows_fail e

theorem neverOverflows_announce {event : Event} {p : Pass α} (h : p.NeverOverflows) :
    (announce event p).NeverOverflows := by
  intro t ht
  rcases leads_announce.1 ht with ⟨_, he⟩ | ⟨u, _, hu⟩
  · cases he
  · exact h u hu

theorem neverOverflows_count {m : Measurement} {p : Pass α} (h : p.NeverOverflows) :
    (count m p).NeverOverflows := by
  intro t ht
  rcases leads_count.1 ht with ⟨_, he⟩ | ⟨u, _, hu⟩
  · cases he
  · exact h u hu

/-- Where what follows never overflows, an overflow is one of the beginning. -/
theorem overflows_bind {p : Pass α} {f : α → Pass β} {t : List Deed}
    (hf : ∀ a, (f a).NeverOverflows) : (p.bind f).Leads t overflow ↔ p.Leads t overflow := by
  constructor
  · intro ht
    rcases leads_bind.1 ht with ⟨q, hq, he⟩ | ⟨_, u, a, _, _, hu⟩
    · cases q with
      | overflow => exact hq
      | done a => exact absurd (leads_nil.2 he.symm) (hf a [])
      | fail | call | announce | count => cases he
    · exact absurd hu (hf a u)
  · exact fun h => Leads.bind h f

theorem neverOverflows_bind {p : Pass α} {f : α → Pass β} (hp : p.NeverOverflows)
    (hf : ∀ a, (f a).NeverOverflows) : (p.bind f).NeverOverflows :=
  fun t ht => hp t ((overflows_bind hf).1 ht)

/-- Nothing catches an overflow. -/
theorem overflows_attempt {p : Pass α} {t : List Deed} :
    p.attempt.Leads t overflow ↔ p.Leads t overflow := by
  constructor
  · intro ht
    obtain ⟨q, hq, he⟩ := leads_attempt.1 ht
    cases q with
    | overflow => exact hq
    | done | fail | call | announce | count => cases he
  · exact fun h => Leads.attempt h

theorem NeverOverflows.attempt {p : Pass α} (h : p.NeverOverflows) : p.attempt.NeverOverflows :=
  fun t ht => h t (overflows_attempt.1 ht)

/-- The pass ends, with a result or with a failure. -/
def Ends (p : Pass α) : Prop := ∀ s, p.outcome s ≠ .overflow

theorem NeverOverflows.ends {p : Pass α} (h : p.NeverOverflows) : p.Ends := by
  intro s hs
  have leads := leads_happenings p s
  rw [hs] at leads
  exact h _ leads

/-- The pass comes to a result, whatever fails on the way. -/
def Returns (p : Pass α) : Prop := ∀ s, ∃ a, p.outcome s = .done a

theorem returns_done (a : α) : (done a).Returns := fun _ => ⟨a, rfl⟩

theorem returns_inquire (c : Call) : (inquire c).Returns := fun s => ⟨_, outcome_inquire c s⟩

theorem returns_report (event : Event) : (report event).Returns := fun _ => ⟨(), rfl⟩

theorem Ends.attempt (h : p.Ends) : p.attempt.Returns := by
  intro s
  rw [outcome_attempt]
  cases ho : p.outcome s with
  | done a => exact ⟨.ok a, rfl⟩
  | failed e => exact ⟨.error e, rfl⟩
  | overflow => exact absurd ho (h s)

theorem returns_bind {f : α → Pass β} (hp : p.Returns) (hf : ∀ a, (f a).Returns) :
    (p.bind f).Returns := by
  intro s
  obtain ⟨a, ha⟩ := hp s
  obtain ⟨b, hb⟩ := hf a (p.after s)
  exact ⟨b, (outcome_bind_done ha).trans hb⟩

end Pass

/-! ## The survey comes to a result -/

namespace Child

variable {config : Config} {env : Environment} {ns : String}

private theorem neverOverflows_applyAll (ms : List Manifest) : (applyAll ms).NeverOverflows := by
  induction ms with
  | nil => exact neverOverflows_done ()
  | cons m ms ih => exact neverOverflows_bind (neverOverflows_request _) fun _ => ih

theorem neverOverflows_removeOwned (target : Address) :
    (removeOwned env target).NeverOverflows := by
  refine neverOverflows_bind (neverOverflows_request _) fun found => ?_
  cases found with
  | none => exact neverOverflows_done _
  | some existing =>
    simp only
    split
    · exact neverOverflows_done _
    · exact neverOverflows_request _

theorem neverOverflows_ensure (child : Child) : (child.ensure config env ns).NeverOverflows := by
  cases child with
  | «namespace» =>
    show (ensureNamespace config env ns).NeverOverflows
    rw [ensureNamespace_eq]
    refine neverOverflows_bind (neverOverflows_request _) fun existing => ?_
    split
    · exact neverOverflows_fail _
    · exact neverOverflows_applyAll _
  | ingress =>
    show (ensureIngress config env ns).NeverOverflows
    cases ho : ingressObject? env ns config with
    | none =>
      rw [ensureIngress_of_none ho]
      exact neverOverflows_bind (neverOverflows_removeOwned _) fun _ => neverOverflows_done ()
    | some object =>
      rw [ensureIngress_of_some ho]
      exact neverOverflows_request _
  | descriptor =>
    show (ensureDescriptor config env ns).NeverOverflows
    rw [ensureDescriptor_eq]
    exact neverOverflows_request _

private theorem neverOverflows_unitHealths (pr : UInt32) (services : List String) :
    (unitHealths config pr services).NeverOverflows := by
  induction services with
  | nil => exact neverOverflows_done _
  | cons service services ih =>
    exact neverOverflows_bind (neverOverflows_request _) fun app =>
      neverOverflows_bind ih fun units => neverOverflows_done _

theorem neverOverflows_deploymentHealth : (deploymentHealth config env).NeverOverflows :=
  neverOverflows_bind (neverOverflows_unitHealths _ _) fun _ => neverOverflows_done _

end Child

namespace Reconcile

variable {config : Config} {env : Environment} {ns : String} {s : Store}

theorem returns_ensureAll (children : List Child) : (ensureAll config env ns children).Returns := by
  induction children with
  | nil => exact returns_done none
  | cons child children ih =>
    refine returns_bind (Child.neverOverflows_ensure child).ends.attempt fun x => ?_
    cases x with
    | ok => exact ih
    | error e => exact returns_bind ih fun _ => returns_done _

theorem returns_costOf : (costOf config env ns).Returns := by
  refine returns_bind (returns_inquire _) fun answer => ?_
  cases answer <;> exact returns_done _

theorem returns_reportIf (event : Option Event) : (reportIf event).Returns := by
  cases event with
  | none => exact returns_done ()
  | some event => exact returns_report event

theorem returns_survey : (survey config env ns).Returns := by
  refine returns_bind (returns_ensureAll _) fun fault => ?_
  refine returns_bind (returns_reportIf _) fun _ => returns_bind returns_costOf fun cost => ?_
  refine returns_bind ?_ fun health => returns_done _
  exact returns_bind Child.neverOverflows_deploymentHealth.ends.attempt fun _ => returns_done _

/-- What a pass finds out about the children of a record in a cluster. -/
def findings (config : Config) (env : Environment) (ns : String) (s : Store) : Findings :=
  match (survey config env ns).outcome s with
  | .done found => found
  | _ => ⟨none, none, none⟩

theorem survey_outcome (config : Config) (env : Environment) (ns : String) (s : Store) :
    (survey config env ns).outcome s = .done (findings config env ns s) := by
  obtain ⟨found, hfound⟩ : ∃ found, (survey config env ns).outcome s = .done found :=
    returns_survey s
  rw [findings, hfound]

/-! ## What a pass over a valid record comes to -/

/-- What is left where only the status of one record has changed, and with it its version. -/
structure Leaves (s : Store) (env : Environment) (status : Status) (left : Store) : Prop where
  there : ∃ v written, left.record? env.key = some (restated env v written) ∧
    written.getD {} = status
  others : ∀ k, k ≠ env.key → left.record? k = s.record? k
  objects : left.objects = s.objects
  pods : left.pods = s.pods

theorem Leaves.refl (there : s.record? env.key = some env) : Leaves s env env.known s :=
  ⟨⟨_, _, there, rfl⟩, fun _ _ => rfl, rfl, rfl⟩

private theorem request_patch (free : s.Undisturbed) (there : s.record? env.key = some env)
    (status : Status) : ∃ v,
      (request (.patchStatus env status)).outcome s = .done (restated env v (some status)) ∧
      (request (.patchStatus env status)).after s =
        s.putRecord env.key (restated env v (some status)) := by
  obtain ⟨v, hv⟩ := bump_restated env (some status)
  obtain ⟨houtcome, hafter⟩ := request_of_miss (free (.patchStatus env status) rfl) rfl
  have hserve : s.serve (.patchStatus env status) =
      (.ok (restated env v (some status)), s.putRecord env.key (restated env v (some status))) := by
    simp only [Store.serve, Store.current_self there, hv]
  rw [houtcome, hafter, hserve]
  exact ⟨v, rfl, rfl⟩

private theorem leaves_putRecord (v : Option String) (status : Status) :
    Leaves s env status (s.putRecord env.key (restated env v (some status))) where
  there := ⟨v, some status, by rw [Store.record?_putRecord, if_pos rfl], rfl⟩
  others k hk := by rw [Store.record?_putRecord, if_neg hk]
  objects := rfl
  pods := rfl

variable {current : Status} {now : Instant} {found : Findings}

/-- A status that has changed is written. -/
private theorem writeChanged_leaves (next : Status) (now : Instant) (free : s.Undisturbed)
    (there : s.record? env.key = some env) (known : env.known = current) :
    (∃ written, (writeChanged env current next now).outcome s = .done written) ∧
      ∃ status, (current.differs next = false ∧ status = current ∨ status = next.stamped now) ∧
        Leaves s env status ((writeChanged env current next now).after s) := by
  cases hd : current.differs next with
  | false =>
    rw [writeChanged_of_not_differs hd]
    exact ⟨⟨none, rfl⟩, current, .inl ⟨rfl, rfl⟩, known ▸ .refl there⟩
  | true =>
    obtain ⟨v, hdone, hafter⟩ := request_patch free there (next.stamped now)
    unfold writeChanged
    rw [if_pos hd]
    refine ⟨⟨some _, outcome_bind_done hdone⟩, next.stamped now, .inr rfl, ?_⟩
    rw [bind_eq, after_bind_done hdone, hafter]
    exact leaves_putRecord v _

/-- The end of a pass that has found out something. -/
def Findings.ending (config : Config) (found : Findings) : Outcome Requeue :=
  match found.fault with
  | some e => .failed e
  | none => .done (.after config.requeueSeconds)

private theorem conclude_outcome {written : Option Environment}
    (h : (writeChanged env current (aim config env current found now) now).outcome s =
      .done written) :
    (conclude config env current found now).outcome s = found.ending config := by
  have hending : ∀ s, (match found.fault with
      | some e => .fail e
      | none => .done (.after config.requeueSeconds) : Pass Requeue).outcome s =
        found.ending config := by
    intro s
    unfold Findings.ending
    cases found.fault <;> rfl
  refine (outcome_bind_done h).trans ?_
  simp only
  split
  · obtain ⟨u, hu⟩ := returns_reportIf (phaseEvent? config env (found.health.bind (·.message))
      (aim config env current found now).phase)
      ((writeChanged env current (aim config env current found now) now).after s)
    exact (outcome_bind_done hu).trans (hending _)
  · exact hending _

/-- The status with which a pass goes on after first contact. -/
def contact? (config : Config) (env : Environment) (now : Instant) : Option Status :=
  if env.known.ns.isSome then some env.known else Status.accepted? env env.known config now

/-- First contact records the namespace that is derived. -/
theorem contact_ns (enters : contact? config env now = some current) :
    spaceOf env current = spaceOf env env.known := by
  unfold contact? at enters
  split at enters
  · cases enters
    rfl
  · next h =>
    rw [spaceOf, spaceOf, Status.accepted_ns enters, Option.not_isSome_iff_eq_none.1 h]
    rfl

/-- A pass means to leave a status, and it has written it or it was there. -/
def Reached (config : Config) (env : Environment) (current : Status) (found : Findings)
    (now : Instant) (status : Status) : Prop :=
  status = aim config env current found now ∨
    status = (aim config env current found now).stamped now

private theorem conclude_leaves (config : Config) (found : Findings) (now : Instant)
    (free : s.Undisturbed)
    (there : s.record? env.key = some env) (known : env.known = current) :
    (conclude config env current found now).outcome s = found.ending config ∧
      ∃ status, Reached config env current found now status ∧
        Leaves s env status ((conclude config env current found now).after s) := by
  obtain ⟨⟨written, hdone⟩, status, hstatus, hleaves⟩ :=
    writeChanged_leaves (aim config env current found now) now free there known
  refine ⟨conclude_outcome hdone, status, ?_, ?_⟩
  · rcases hstatus with ⟨hsame, rfl⟩ | rfl
    · exact .inl (Status.eq_of_not_differs hsame Status.next_lastSyncedAt.symm)
    · exact .inr rfl
  · obtain ⟨rest, hrest, heq⟩ := conclude_eq config env current found now
    rw [heq, after_bind_same fun written s => (hrest written).after_eq s]
    exact hleaves

/-- First contact leaves the record with the status with which the pass goes on, and changes nothing
but records. -/
private theorem firstContact_leaves (free : s.Undisturbed) (there : s.record? env.key = some env)
    (enters : contact? config env now = some current) : ∃ v written records,
      (restated env v written).known = current ∧
      (firstContact config env now).outcome s = .done (restated env v written, current) ∧
      (firstContact config env now).after s = { s with records := records } ∧
      { s with records := records }.record? env.key = some (restated env v written) ∧
      ∀ k, k ≠ env.key → { s with records := records }.record? k = s.record? k := by
  unfold contact? at enters
  unfold firstContact
  split at enters
  · next recorded =>
    obtain rfl := Option.some.inj enters
    rw [if_pos recorded]
    exact ⟨_, _, s.records, rfl, rfl, rfl, there, fun _ _ => rfl⟩
  · next unrecorded =>
    obtain ⟨v, hdone, hafter⟩ := request_patch free there current
    have hleaves : Leaves s env current _ := leaves_putRecord v current
    rw [if_neg unrecorded, enters]
    have hthere : (s.putRecord env.key (restated env v (some current))).record? env.key =
        some (restated env v (some current)) := (Store.record?_putRecord ..).trans (if_pos rfl)
    exact ⟨v, some current, _, rfl, outcome_bind_done hdone, (after_bind_done hdone).trans hafter,
      hthere, hleaves.others⟩

/-- A pass over a valid record finds out what there is to be found out about its children, and
leaves the record with the status that follows from that. -/
theorem converge_leaves (free : s.Undisturbed) (there : s.record? env.key = some env)
    (enters : contact? config env now = some current)
    (hfound : found = findings config env (spaceOf env current) s) :
    (converge config env now).outcome s = found.ending config ∧
      ∃ status, Reached config env current found now status ∧
        Leaves ((survey config env (spaceOf env current)).after s) env status
          ((converge config env now).after s) := by
  obtain ⟨v, written, records, known, hdone, hafter, hthere, hothers⟩ :=
    firstContact_leaves free there enters
  -- The survey sees neither the status nor the version of the record, nor any record at all.
  obtain ⟨hsurvey, hleft⟩ := makes_survey_aside.observe_records s records
    (p := survey config env (spaceOf env current))
  rw [survey_outcome config env _ s, ← hfound] at hsurvey
  have hmid : ((survey config env (spaceOf env current)).after
      { s with records := records }).record? env.key = some (restated env v written) := by
    rw [hleft]
    exact hthere
  have hfree := undisturbed_after (s := { s with records := records }) free
    (survey config env (spaceOf env current))
  obtain ⟨hend, status, hstatus, hleaves⟩ := conclude_leaves config found now hfree hmid known
  have hrest : (converge config env now).outcome s =
      (conclude config (restated env v written) current found now).outcome
        ((survey config env (spaceOf env current)).after { s with records := records }) := by
    rw [converge_eq, outcome_bind_done hdone, hafter]
    exact outcome_bind_done hsurvey
  have hrest' : (converge config env now).after s =
      (conclude config (restated env v written) current found now).after
        ((survey config env (spaceOf env current)).after { s with records := records }) := by
    rw [converge_eq, after_bind_done hdone, hafter]
    exact after_bind_done hsurvey
  refine ⟨hrest.trans hend, status, hstatus, ?_⟩
  rw [hrest']
  rw [hleft] at hleaves ⊢
  refine ⟨hleaves.there, fun k hk => (hleaves.others k hk).trans ?_, hleaves.objects,
    hleaves.pods⟩
  have hkept := makes_survey.records_after (p := survey config env (spaceOf env current)) s
  exact (hothers k hk).trans (congrArg (·.lookup k) hkept.symm)

variable {notice : Metadata} {space : String}

/-- What is measured at the end of a pass changes neither its outcome nor the cluster. -/
theorem pass_comes_to (config : Config) (notice : Metadata) (now : Instant) (s : Store) :
    (pass config notice now).outcome s = (act config notice now).outcome s ∧
      (pass config notice now).after s = (act config notice now).after s := by
  constructor
  · cases ho : (act config notice now).outcome s with
    | done requeue =>
      have hattempt : (act config notice now).attempt.outcome s = .done (.ok requeue) := by
        rw [outcome_attempt, ho]
        rfl
      exact outcome_bind_done hattempt
    | failed e =>
      have hattempt : (act config notice now).attempt.outcome s = .done (.error e) := by
        rw [outcome_attempt, ho]
        rfl
      exact outcome_bind_done hattempt
    | overflow =>
      have hattempt : (act config notice now).attempt.outcome s = .overflow := by
        rw [outcome_attempt, ho]
        rfl
      obtain ⟨rest, _, heq⟩ := pass_eq config notice now
      rw [heq, outcome, observe_bind, Run.next]
      rw [outcome] at hattempt
      rw [hattempt]
  · obtain ⟨rest, hrest, heq⟩ := pass_eq config notice now
    rw [heq, after_bind_same fun x s => (hrest x).after_eq s, after_attempt]

/-- A pass acts on the record that it reads. -/
theorem pass_of_read (config : Config) (free : s.Undisturbed) (place : notice.ns = some space)
    (about : env.key = ⟨space, notice.anyName⟩) (there : s.record? env.key = some env)
    (now : Instant) :
    (pass config notice now).outcome s = (step config notice.anyName env now).outcome s ∧
      (pass config notice now).after s = (step config notice.anyName env now).after s := by
  have hmiss : Fault.strike (.getEnvironment notice.anyName space) s.faults = none := free _ rfl
  have hread : (request (.getEnvironment notice.anyName space)).outcome s = .done (some env) :=
    read_done.2 ⟨hmiss, about ▸ there⟩
  obtain ⟨houtcome, hafter⟩ := pass_comes_to config notice now s
  rw [houtcome, hafter, act_eq place now, outcome_bind_done hread, after_bind_done hread,
    after_read hmiss]
  exact ⟨rfl, rfl⟩

/-- A record that a pass puts children in place for. -/
structure Acceptable (notice : Metadata) (env : Environment) : Prop where
  held : env.hasFinalizer = true
  staying : env.metadata.isDeleting = false
  valid : env.spec.validate notice.anyName = .ok ()

theorem pass_leaves (free : s.Undisturbed) (place : notice.ns = some space)
    (about : env.key = ⟨space, notice.anyName⟩) (there : s.record? env.key = some env)
    (acceptable : Acceptable notice env) (enters : contact? config env now = some current)
    (hfound : found = findings config env (spaceOf env current) s) :
    (pass config notice now).outcome s = found.ending config ∧
      ∃ status, Reached config env current found now status ∧
        Leaves ((survey config env (spaceOf env current)).after s) env status
          ((pass config notice now).after s) := by
  obtain ⟨houtcome, hafter⟩ : _ ∧ _ :=
    pass_of_read config free place about there now
  rw [houtcome, hafter, step_of_valid acceptable.staying acceptable.held acceptable.valid]
  exact converge_leaves free there enters hfound

end Reconcile
end PreviewControl
