import PreviewControl.Proofs.Upkeep
import PreviewControl.Reconcile

/-!
# The course of a pass

When a pass over a record makes which call. Every call belongs to one stage, and what has to have
happened before it, in this pass and in this order, is written down with the stage.
-/
namespace PreviewControl

/-- The namespace of the children in terms of what is known about the record. -/
theorem Environment.childNamespace_eq (env : Environment) :
    env.childNamespace = env.known.ns.getD env.spec.namespaceName := by
  unfold Environment.childNamespace Environment.known
  cases env.status <;> rfl

end PreviewControl

namespace PreviewControl.Status

variable {env : Environment} {current : Status} {config : Config} {now : Instant}

/-- A recorded namespace stays, whatever is observed. -/
theorem next_ns (observation : Observation) :
    (next env current observation config now).ns = some (current.ns.getD observation.ns) := by
  unfold next
  cases current.move? env observation <;> rfl

theorem accepted_ns {status : Status} (h : accepted? env current config now = some status) :
    status.ns = some env.spec.namespaceName := by
  obtain ⟨life, _, rfl⟩ := Option.map_eq_some_iff.1 h
  rfl

theorem refused_ns {message : String} {status : Status}
    (h : refused? env current message now = some status) : status.ns = current.ns := by
  obtain ⟨life, _, rfl⟩ := Option.map_eq_some_iff.1 h
  rfl

end PreviewControl.Status

namespace PreviewControl.Reconcile

open Pass

variable {config : Config} {env : Environment} {ns : String} {now : Instant}

/-! ## Removal of the children -/

/-- The record is marked as being deleted, or the attempt to mark it has been made. The second
record is the newest version that is known then. -/
inductive Marked (env : Environment) (now : Instant) : List Deed → Environment → Prop where
  | already (known : env.phase? = some .terminating) : Marked env now [] env
  | written {updated : Environment} (unmarked : env.phase? ≠ some .terminating) :
    Marked env now [.call (.patchStatus env (env.known.terminating now)) (.ok updated)] updated
  | unwritten {e : Failure} (unmarked : env.phase? ≠ some .terminating) :
    Marked env now [.call (.patchStatus env (env.known.terminating now)) (.error e)] env

/-- Children are cleared one after the other. -/
inductive ClearedAll (config : Config) (env : Environment) (ns : String) :
    List Child → List Deed → Prop where
  | nil : ClearedAll config env ns [] []
  | cons {child : Child} {children : List Child} {t u : List Deed}
      (first : Child.Cleared env (child.address config env ns) t)
      (rest : ClearedAll config env ns children u) :
    ClearedAll config env ns (child :: children) (t ++ u)

theorem gives_markTerminating {t : List Deed} {latest : Environment} :
    (markTerminating env now).Gives t latest ↔ Marked env now t latest := by
  unfold markTerminating
  by_cases hp : env.phase? = some .terminating
  · simp only [hp, if_true, pure_eq, gives_done]
    constructor
    · rintro ⟨rfl, rfl⟩
      exact .already hp
    · intro h
      cases h with
      | already => exact ⟨rfl, rfl⟩
      | written unmarked | unwritten unmarked => exact absurd hp unmarked
  · simp only [hp, if_false]
    constructor
    · intro h
      obtain ⟨t₁, t₂, answer, rfl, ha, hd⟩ := gives_bind.1 h
      obtain rfl := gives_inquire.1 ha
      cases answer with
      | ok updated =>
        obtain ⟨rfl, rfl⟩ := gives_done.1 hd
        exact .written hp
      | error e =>
        obtain ⟨rfl, rfl⟩ := gives_done.1 hd
        exact .unwritten hp
    · intro h
      cases h with
      | already known => exact absurd known hp
      | written | unwritten => exact .call (.start _)

theorem asks_markTerminating {t : List Deed} {c : Call} (h : (markTerminating env now).Asks t c) :
    t = [] ∧ c = .patchStatus env (env.known.terminating now) := by
  unfold markTerminating at h
  by_cases hp : env.phase? = some .terminating
  · simp only [hp, if_true] at h
    exact absurd h asks_done
  · simp only [hp, if_false] at h
    rcases asks_bind.1 h with hi | ⟨_, _, answer, _, _, hd⟩
    · exact asks_inquire.1 hi
    · cases answer <;> exact absurd hd asks_done

private theorem gives_attempt_remove {child : Child} {t : List Deed} {x : Except Failure Unit} :
    (child.remove config env ns).attempt.Gives t x ↔
      (x = .ok () ∧ Child.Cleared env (child.address config env ns) t) ∨
        ∃ e, x = .error e ∧ (child.remove config env ns).Breaks t e := by
  rw [gives_attempt]
  constructor
  · rintro (⟨a, rfl, h⟩ | h)
    · exact .inl ⟨rfl, Child.gives_remove.1 h⟩
    · exact .inr h
  · rintro (⟨rfl, h⟩ | h)
    · exact .inl ⟨(), rfl, Child.gives_remove.2 h⟩
    · exact .inr h

theorem gives_removeAll {children : List Child} {t : List Deed} :
    (removeAll config env ns children).Gives t () ↔ ClearedAll config env ns children t := by
  induction children generalizing t with
  | nil =>
    constructor
    · intro h
      obtain ⟨rfl, _⟩ := gives_done.1 h
      exact .nil
    · intro h
      cases h
      exact .start _
  | cons child children ih =>
    constructor
    · intro h
      obtain ⟨t₁, t₂, x, rfl, hx, hd⟩ := gives_bind.1 h
      rcases gives_attempt_remove.1 hx with ⟨rfl, hc⟩ | ⟨e, rfl, _⟩
      · exact .cons hc (ih.1 hd)
      · obtain ⟨_, _, _, _, _, hf⟩ := gives_bind.1 hd
        exact absurd hf gives_fail
    · intro h
      cases h with
      | cons first rest =>
        have hx := gives_attempt_remove.2 (.inl ⟨rfl, first⟩)
        exact gives_bind.2 ⟨_, _, _, rfl, hx, ih.2 rest⟩

/-- A child is only looked at when all children before it have been cleared. -/
theorem asks_removeAll {children : List Child} {t : List Deed} {c : Call}
    (h : (removeAll config env ns children).Asks t c) :
    ∃ before child after u v, children = before ++ child :: after ∧ t = u ++ v ∧
      ClearedAll config env ns before u ∧ (child.remove config env ns).Asks v c := by
  induction children generalizing t with
  | nil => exact absurd h asks_done
  | cons child children ih =>
    rcases asks_bind.1 h with hr | ⟨t₁, t₂, x, rfl, hx, hd⟩
    · exact ⟨[], child, children, [], t, rfl, rfl, .nil, asks_attempt.1 hr⟩
    · rcases gives_attempt_remove.1 hx with ⟨rfl, hc⟩ | ⟨e, rfl, _⟩
      · obtain ⟨before, child', after, u, v, rfl, rfl, hu, hv⟩ := ih hd
        refine ⟨child :: before, child', after, t₁ ++ u, v, rfl, ?_, .cons hc hu, hv⟩
        rw [List.append_assoc]
      · rcases asks_bind.1 hd with hr | ⟨_, _, _, _, _, hf⟩
        · exact absurd hr asks_report
        · exact absurd hf asks_fail

/-- The report of a child that could not be removed. -/
def cleanupFailed (env : Environment) (child : Child) (e : Failure) : Event :=
  .cleaning env .warning "CleanupFailed" (some (child.kind ++ ": " ++ e.message))

/-- The first child that cannot be removed ends the removal with its failure. -/
theorem leads_removeAll_blocked {before : List Child} (after : List Child) {child : Child}
    {u v : List Deed} {e : Failure} (hu : ClearedAll config env ns before u)
    (hv : Child.Blocked env (child.address config env ns) e v) :
    (removeAll config env ns (before ++ child :: after)).Leads (u ++ v)
      (.announce (cleanupFailed env child e) (.fail e)) := by
  induction hu with
  | nil =>
    have hb : (child.remove config env ns).Breaks v e := Leads.bind hv.breaks _
    exact (Leads.bind (Leads.attempt hb) _)
  | @cons first children t u hc _ ih =>
    have hx := gives_attempt_remove.2 (.inl ⟨rfl, hc⟩)
    rw [List.append_assoc]
    exact (Leads.bind hx _).trans ih

/-- The record is let go after its children have been cleared, the last one first. -/
theorem asks_release {t : List Deed} {c : Call} (h : (release config env now).Asks t c) :
    (t = [] ∧ c = .patchStatus env (env.known.terminating now)) ∨
      ∃ mark latest u, Marked env now mark latest ∧
        ((∃ before child after v w, Child.all.reverse = before ++ child :: after ∧ u = v ++ w ∧
            ClearedAll config env env.childNamespace before v ∧
            (child.remove config env env.childNamespace).Asks w c) ∨
          (ClearedAll config env env.childNamespace Child.all.reverse u ∧
            c = .removeFinalizer latest)) ∧
        t = mark ++ u := by
  rcases asks_bind.1 h with hm | ⟨mark, t₂, latest, rfl, hm, hd⟩
  · exact .inl (asks_markTerminating hm)
  · refine .inr ⟨mark, latest, t₂, gives_markTerminating.1 hm, ?_, rfl⟩
    rcases asks_bind.1 hd with hr | ⟨u, w, _, rfl, hu, hd⟩
    · obtain ⟨before, child, after, v, w, hs, rfl, hv, hw⟩ := asks_removeAll hr
      exact .inl ⟨before, child, after, v, w, hs, rfl, hv, hw⟩
    · rcases asks_bind.1 hd with hr | ⟨_, _, _, _, _, hd⟩
      · obtain ⟨rfl, rfl⟩ := asks_request.1 hr
        rw [List.append_nil]
        exact .inr ⟨gives_removeAll.1 hu, rfl⟩
      · rcases asks_bind.1 hd with hr | ⟨_, _, _, _, _, hd⟩
        · exact absurd hr asks_report
        · exact absurd hd asks_done

/-! ## Convergence -/

/-- A pass has come to put children in place: either a namespace is recorded already, or the status
of first contact has been written. From here on it works with this record and this status. -/
inductive Entered (config : Config) (env : Environment) (now : Instant) :
    List Deed → Environment → Status → Prop where
  | known (recorded : env.known.ns.isSome = true) : Entered config env now [] env env.known
  | accepted {status : Status} {updated : Environment} (unrecorded : env.known.ns = none)
      (made : Status.accepted? env env.known config now = some status) :
    Entered config env now [.call (.patchStatus env status) (.ok updated)] updated status

/-- The namespace that a pass puts children into. -/
def spaceOf (env : Environment) (status : Status) : String :=
  status.ns.getD env.spec.namespaceName

/-- When the convergence of a record makes a call. -/
inductive Converging (config : Config) (env : Environment) (now : Instant) :
    List Deed → Call → Prop where
  | accept {status : Status} (unrecorded : env.known.ns = none)
      (made : Status.accepted? env env.known config now = some status) :
    Converging config env now [] (.patchStatus env status)
  | tend {t u : List Deed} {latest : Environment} {status : Status} {c : Call}
      (entered : Entered config env now t latest status)
      (upkeep : Child.Upkeep config latest (spaceOf latest status) c) :
    Converging config env now (t ++ u) c
  | price {t u : List Deed} {latest : Environment} {status : Status}
      (entered : Entered config env now t latest status) :
    Converging config env now (t ++ u) (.listPods (spaceOf latest status))
  | write {t u : List Deed} {latest : Environment} {status next : Status}
      (entered : Entered config env now t latest status)
      (same : next.ns = some (spaceOf latest status)) :
    Converging config env now (t ++ u) (.patchStatus latest next)

theorem gives_firstContact {t : List Deed} {latest : Environment} {status : Status}
    (h : (firstContact config env now).Gives t (latest, status)) :
    Entered config env now t latest status := by
  unfold firstContact at h
  by_cases hr : env.known.ns.isSome = true
  · simp only [hr, if_true] at h
    obtain ⟨rfl, he⟩ := gives_done.1 h
    injection he with hl hs
    subst hl hs
    exact .known hr
  · simp only [hr, Bool.false_eq_true, if_false] at h
    obtain ⟨t₁, t₂, accepted, rfl, ha, hd⟩ := gives_bind.1 h
    obtain ⟨rfl, made⟩ := gives_ofTime.1 ha
    obtain ⟨t₃, t₄, updated, rfl, hp, hw⟩ := gives_bind.1 hd
    obtain rfl := gives_request.1 hp
    obtain ⟨rfl, he⟩ := gives_done.1 hw
    injection he with hl hs
    subst hl hs
    exact .accepted (Option.not_isSome_iff_eq_none.1 hr) made

theorem asks_firstContact {t : List Deed} {c : Call}
    (h : (firstContact config env now).Asks t c) :
    t = [] ∧ env.known.ns = none ∧
      ∃ status, Status.accepted? env env.known config now = some status ∧
        c = .patchStatus env status := by
  unfold firstContact at h
  by_cases hr : env.known.ns.isSome = true
  · simp only [hr, if_true] at h
    exact absurd h asks_done
  · simp only [hr, Bool.false_eq_true, if_false] at h
    rcases asks_bind.1 h with ho | ⟨t₁, t₂, accepted, rfl, ha, hd⟩
    · exact absurd ho asks_ofTime
    · obtain ⟨rfl, made⟩ := gives_ofTime.1 ha
      rcases asks_bind.1 hd with hp | ⟨_, _, _, _, _, hd⟩
      · obtain ⟨rfl, rfl⟩ := asks_request.1 hp
        exact ⟨rfl, Option.not_isSome_iff_eq_none.1 hr, accepted, made, rfl⟩
      · exact absurd hd asks_done

theorem makes_ensureAll (children : List Child) :
    (ensureAll config env ns children).Makes (Child.Upkeep config env ns) := by
  induction children with
  | nil => exact makes_done none
  | cons child children ih =>
    refine makes_bind (makes_attempt (Child.makes_ensure child)) fun x => ?_
    cases x with
    | ok => exact ih
    | error e =>
      exact makes_bind ih fun _ => makes_done (some e)

/-- What came of the children that have been seen to, good or bad. -/
inductive Tried (config : Config) (env : Environment) (ns : String) :
    List Child → List Deed → Prop where
  | nil : Tried config env ns [] []
  | placed {child : Child} {children : List Child} {t u : List Deed}
      (first : (child.ensure config env ns).Gives t ())
      (rest : Tried config env ns children u) : Tried config env ns (child :: children) (t ++ u)
  | failed {child : Child} {children : List Child} {t u : List Deed} {e : Failure}
      (first : (child.ensure config env ns).Breaks t e)
      (rest : Tried config env ns children u) : Tried config env ns (child :: children) (t ++ u)

/-- A child is put in place whatever has come of the children before it. -/
theorem asks_ensureAll {before after : List Child} {child : Child} {u v : List Deed} {c : Call}
    (tried : Tried config env ns before u) (h : (child.ensure config env ns).Asks v c) :
    (ensureAll config env ns (before ++ child :: after)).Asks (u ++ v) c := by
  induction tried with
  | nil => exact asks_bind.2 (.inl (asks_attempt.2 h))
  | placed first _ ih =>
    rw [List.append_assoc]
    exact asks_bind.2 (.inr ⟨_, _, .ok (), rfl, gives_attempt_ok.2 first, ih⟩)
  | failed first _ ih =>
    rw [List.append_assoc]
    refine asks_bind.2 (.inr ⟨_, _, .error _, rfl, gives_attempt_error.2 first, ?_⟩)
    exact asks_bind.2 (.inl ih)

theorem makes_healthOf : (healthOf config env).Makes (Child.Upkeep config env ns) := by
  exact makes_bind (makes_attempt Child.makes_deploymentHealth) fun _ => makes_done _

theorem asks_costOf {t : List Deed} {c : Call} (h : (costOf config env ns).Asks t c) :
    c = .listPods ns := by
  rcases asks_bind.1 h with hi | ⟨_, _, answer, _, _, hd⟩
  · exact (asks_inquire.1 hi).2
  · cases answer <;> exact absurd hd asks_done

theorem asks_reportIf {event : Option Event} {t : List Deed} {c : Call} :
    ¬(reportIf event).Asks t c := by
  cases event with
  | none => exact asks_done
  | some event => exact asks_report

theorem asks_writeChanged {current next : Status} {t : List Deed} {c : Call}
    (h : (writeChanged env current next now).Asks t c) :
    t = [] ∧ c = .patchStatus env (next.stamped now) := by
  unfold writeChanged at h
  split at h
  · rcases asks_bind.1 h with hr | ⟨_, _, _, _, _, hd⟩
    · exact asks_request.1 hr
    · exact absurd hd asks_done
  · exact absurd h asks_done

/-! ## The whole pass -/

theorem makes_reportIf {Q : Call → Prop} (event : Option Event) : (reportIf event).Makes Q :=
  fun _ _ hc => absurd hc asks_reportIf

theorem makes_ending {Q : Call → Prop} {P : Prop} [Decidable P] {event : Option Event}
    {rest : Pass Requeue} (h : rest.Makes Q) :
    (if P then (reportIf event).bind fun _ => rest else rest).Makes Q := by
  split
  · exact makes_bind (makes_reportIf event) fun _ => h
  · exact h

theorem asks_converge {t : List Deed} {c : Call} (h : (converge config env now).Asks t c) :
    Converging config env now t c := by
  rcases asks_bind.1 h with hf | ⟨t₁, t₂, ⟨latest, status⟩, rfl, hf, hd⟩
  · obtain ⟨rfl, unrecorded, status, made, rfl⟩ := asks_firstContact hf
    exact .accept unrecorded made
  have entered := gives_firstContact hf
  rcases asks_bind.1 hd with he | ⟨_, _, fault, rfl, _, hd⟩
  · exact .tend entered (makes_ensureAll _ _ _ he)
  rcases asks_bind.1 hd with hr | ⟨_, _, _, rfl, _, hd⟩
  · exact absurd hr asks_reportIf
  rcases asks_bind.1 hd with hc | ⟨_, _, cost, rfl, _, hd⟩
  · rw [asks_costOf hc]
    exact .price entered
  rcases asks_bind.1 hd with hh | ⟨_, _, health, rfl, _, hd⟩
  · exact .tend entered (makes_healthOf _ _ hh)
  rcases asks_bind.1 hd with hw | ⟨_, _, written, rfl, _, hd⟩
  · obtain ⟨rfl, rfl⟩ := asks_writeChanged hw
    refine .write entered ?_
    rw [Status.stamped, Status.next_ns, spaceOf]
    cases status.ns <;> rfl
  · cases fault with
    | none => exact False.elim (makes_ending (Q := fun _ => False) (makes_done _) _ _ hd)
    | some e => exact False.elim (makes_ending (Q := fun _ => False) (makes_fail e) _ _ hd)

theorem asks_refuse {fault : Failure} {t : List Deed} {c : Call}
    (h : (refuse env fault now).Asks t c) :
    t = [] ∧ ∃ status, status.ns = env.known.ns ∧ c = .patchStatus env status := by
  rcases asks_bind.1 h with ho | ⟨t₁, t₂, next, rfl, ho, hd⟩
  · exact absurd ho asks_ofTime
  · obtain ⟨rfl, made⟩ := gives_ofTime.1 ho
    rcases asks_bind.1 hd with hw | ⟨_, _, written, _, _, hd⟩
    · obtain ⟨rfl, rfl⟩ := asks_writeChanged hw
      have same := Status.refused_ns made
      exact ⟨rfl, next.stamped now, same, rfl⟩
    · exfalso
      split at hd
      · rcases asks_bind.1 hd with hr | ⟨_, _, _, _, _, hd⟩
        · exact asks_report hr
        · exact asks_done hd
      · exact asks_done hd

/-- The record that a pass reads first. -/
def read (notice : Metadata) (ns : String) (env : Environment) : Deed :=
  .call (.getEnvironment notice.anyName ns) (.ok (some env))

theorem read_inj {notice : Metadata} {ns ns' : String} {env env' : Environment} :
    read notice ns env = read notice ns' env' ↔ ns = ns' ∧ env = env' := by
  constructor
  · intro h
    unfold read at h
    injection h with hc ha
    injection hc with _ hn
    subst hn
    injection ha with ha
    injection ha with ha
    exact ⟨rfl, ha⟩
  · rintro ⟨rfl, rfl⟩
    rfl

/-- When a pass over a record makes a call. -/
inductive Turn (config : Config) (notice : Metadata) (now : Instant) :
    List Deed → Call → Prop where
  | read {ns : String} (place : notice.ns = some ns) :
    Turn config notice now [] (.getEnvironment notice.anyName ns)
  | hold {ns : String} {env : Environment} (place : notice.ns = some ns)
      (staying : env.metadata.isDeleting = false) (free : env.hasFinalizer = false) :
    Turn config notice now [read notice ns env] (.addFinalizer env)
  | refuse {ns : String} {env : Environment} {status : Status} (place : notice.ns = some ns)
      (staying : env.metadata.isDeleting = false) (held : env.hasFinalizer = true)
      (same : status.ns = env.known.ns) :
    Turn config notice now [read notice ns env] (.patchStatus env status)
  | converge {ns : String} {env : Environment} {t : List Deed} {c : Call}
      (place : notice.ns = some ns) (staying : env.metadata.isDeleting = false)
      (held : env.hasFinalizer = true) (valid : env.spec.validate notice.anyName = .ok ())
      (turn : Converging config env now t c) :
    Turn config notice now (read notice ns env :: t) c
  | mark {ns : String} {env : Environment} (place : notice.ns = some ns)
      (deleting : env.metadata.isDeleting = true) (held : env.hasFinalizer = true) :
    Turn config notice now [read notice ns env] (.patchStatus env (env.known.terminating now))
  | clear {ns : String} {env latest : Environment} {mark u v : List Deed}
      {before after : List Child} {child : Child} {c : Call} (place : notice.ns = some ns)
      (deleting : env.metadata.isDeleting = true) (held : env.hasFinalizer = true)
      (marked : Marked env now mark latest) (split : Child.all.reverse = before ++ child :: after)
      (cleared : ClearedAll config env env.childNamespace before u)
      (turn : (child.remove config env env.childNamespace).Asks v c) :
    Turn config notice now (read notice ns env :: (mark ++ (u ++ v))) c
  | letGo {ns : String} {env latest : Environment} {mark u : List Deed}
      (place : notice.ns = some ns) (deleting : env.metadata.isDeleting = true)
      (held : env.hasFinalizer = true) (marked : Marked env now mark latest)
      (cleared : ClearedAll config env env.childNamespace Child.all.reverse u) :
    Turn config notice now (read notice ns env :: (mark ++ u)) (.removeFinalizer latest)

theorem gives_of_entered {t : List Deed} {latest : Environment} {status : Status}
    (h : Entered config env now t latest status) :
    (firstContact config env now).Gives t (latest, status) := by
  unfold firstContact
  cases h with
  | known recorded =>
    simp only [recorded, if_true]
    exact .start _
  | accepted unrecorded made =>
    simp only [unrecorded, Option.isSome_none, Bool.false_eq_true, if_false, made]
    exact .call (.start _)

/-- What putting the children in place asks for, a pass over a valid record asks for. -/
theorem asks_of_ensureAll {notice : Metadata} {t u : List Deed} {latest : Environment}
    {status : Status} {c : Call} (place : notice.ns = some ns)
    (staying : env.metadata.isDeleting = false) (held : env.hasFinalizer = true)
    (valid : env.spec.validate notice.anyName = .ok ())
    (entered : Entered config env now t latest status)
    (h : (ensureAll config latest (spaceOf latest status) Child.all).Asks u c) :
    (pass config notice now).Asks (read notice ns env :: (t ++ u)) c := by
  have hc : (converge config env now).Asks (t ++ u) c := by
    refine asks_bind.2 (.inr ⟨t, u, (latest, status), rfl, gives_of_entered entered, ?_⟩)
    exact asks_bind.2 (.inl h)
  refine asks_bind.2 (.inl (asks_attempt.2 ?_))
  unfold act
  rw [place]
  refine asks_bind.2 (.inr ⟨[_], t ++ u, some env, rfl, gives_request.2 rfl, ?_⟩)
  simp only [step, staying, held, valid, Bool.not_true, Bool.false_eq_true, if_false]
  exact hc

private theorem asks_act {notice : Metadata} {t : List Deed} {c : Call}
    (h : (act config notice now).Asks t c) : ∃ ns, notice.ns = some ns ∧
      ((t = [] ∧ c = .getEnvironment notice.anyName ns) ∨
        ∃ env u, t = read notice ns env :: u ∧ (step config notice.anyName env now).Asks u c) := by
  unfold act at h
  cases hn : notice.ns with
  | none =>
    rw [hn] at h
    exact absurd h asks_fail
  | some ns =>
    rw [hn] at h
    refine ⟨ns, rfl, ?_⟩
    rcases asks_bind.1 h with hr | ⟨t₁, t₂, found, rfl, hf, hd⟩
    · exact .inl (asks_request.1 hr)
    · obtain rfl := gives_request.1 hf
      cases found with
      | none => exact absurd hd asks_done
      | some env => exact .inr ⟨env, t₂, rfl, hd⟩

/-- Every call of a pass has its turn. -/
theorem turn_of_asks {notice : Metadata} {t : List Deed} {c : Call}
    (h : (pass config notice now).Asks t c) : Turn config notice now t c := by
  rcases asks_bind.1 h with ha | ⟨_, t₂, x, _, _, hd⟩
  · obtain ⟨ns, place, ⟨rfl, rfl⟩ | ⟨env, u, rfl, hs⟩⟩ := asks_act (asks_attempt.1 ha)
    · exact .read place
    · unfold step at hs
      by_cases hd : env.metadata.isDeleting = true
      · by_cases hf : env.hasFinalizer = true
        · simp only [hd, hf, if_true] at hs
          rcases asks_release hs with ⟨rfl, rfl⟩ | ⟨mark, latest, w, hm, hw, rfl⟩
          · exact .mark place hd hf
          · rcases hw with ⟨before, child, after, v, w, split, rfl, hv, hc⟩ | ⟨hw, rfl⟩
            · exact .clear place hd hf hm split hv hc
            · exact .letGo place hd hf hm hw
        · simp only [hd, hf, if_true, Bool.false_eq_true, if_false] at hs
          exact absurd hs asks_done
      · have hd' : env.metadata.isDeleting = false := Bool.eq_false_iff.2 hd
        by_cases hf : env.hasFinalizer = true
        · simp only [hd', hf, Bool.not_true, Bool.false_eq_true, if_false] at hs
          cases hv : env.spec.validate notice.anyName with
          | error fault =>
            rw [hv] at hs
            obtain ⟨rfl, status, same, rfl⟩ := asks_refuse hs
            exact .refuse place hd' hf same
          | ok =>
            rw [hv] at hs
            exact .converge place hd' hf hv (asks_converge hs)
        · have hf' : env.hasFinalizer = false := Bool.eq_false_iff.2 hf
          simp only [hd', hf', Bool.not_false, Bool.false_eq_true, if_false, if_true] at hs
          rcases asks_bind.1 hs with hr | ⟨_, _, _, _, _, hd⟩
          · obtain ⟨rfl, rfl⟩ := asks_request.1 hr
            exact .hold place hd' hf'
          · exact absurd hd asks_done
  · exfalso
    cases x with
    | ok =>
      rcases asks_bind.1 hd with hm | ⟨_, _, _, _, _, hd⟩
      · exact asks_measure hm
      · exact asks_done hd
    | error =>
      rcases asks_bind.1 hd with hm | ⟨_, _, _, _, _, hd⟩
      · exact asks_measure hm
      · rcases asks_bind.1 hd with hm | ⟨_, _, _, _, _, hd⟩
        · exact asks_measure hm
        · exact asks_fail hd

/-- An object is applied in but one turn: it is a part of the children of a record that was read as
held and staying, with a spec that can be acted on. -/
theorem part_of_asks {notice : Metadata} {t : List Deed} {m : Manifest}
    (h : (pass config notice now).Asks t (.apply m)) :
    ∃ ns env u v latest status, notice.ns = some ns ∧ t = read notice ns env :: (u ++ v) ∧
      env.hasFinalizer = true ∧ env.metadata.isDeleting = false ∧
      env.spec.validate notice.anyName = .ok () ∧ Entered config env now u latest status ∧
      m ∈ Child.parts config latest (spaceOf latest status) := by
  have turn := turn_of_asks h
  generalize hc : Call.apply m = c at turn
  cases turn with
  | read | hold | refuse | mark | letGo => cases hc
  | clear _ _ _ _ _ _ turn =>
    subst hc
    obtain ⟨_, hc⟩ | ⟨_, _, _, hc⟩ := Child.asks_removeOwned (Child.asks_remove.1 turn) <;> cases hc
  | @converge ns env t _ place staying held valid turn =>
    subst hc
    cases turn with
    | @tend u v latest status _ entered upkeep =>
      cases upkeep with
      | apply part =>
        exact ⟨ns, env, u, v, latest, status, place, rfl, held, staying, valid, entered, part⟩

end PreviewControl.Reconcile
