import PreviewControl.Proofs.Quiescence

/-!
# Where a write comes from

Every write of a pass carries the newest version of the record that the pass has been told of, and
a status that is written is computed from that version. A write that is refused is the last call of
its pass, except for the mark of a record that is being deleted.
-/
namespace PreviewControl

open Reconcile Pass

/-! ## What a pass has been told -/

/-- The record that a write is based on. -/
def Call.basis? : Call → Option Environment
  | patchStatus env _ => some env
  | addFinalizer env => some env
  | removeFinalizer env => some env
  | _ => none

/-- The mark of a record that is being deleted. -/
def Call.isMark : Call → Bool
  | patchStatus env _ => env.metadata.isDeleting
  | _ => false

/-- A call about objects or pods, and not about records. -/
def Call.isAside : Call → Bool
  | apply .. | getObject .. | deleteObject .. | listPods .. => true
  | _ => false

theorem Call.basis?_of_isAside {c : Call} (h : c.isAside = true) : c.basis? = none := by
  cases c with
  | apply | getObject | deleteObject | listPods => rfl
  | _ => cases h

namespace Deed

def isAside : Deed → Bool
  | .call c _ => c.isAside
  | _ => true

/-- The record that an answer tells of: as it was read, or as it is after a write. -/
def told? : Deed → Option Environment
  | .call (.getEnvironment ..) (.ok found) => found
  | .call (.patchStatus ..) (.ok updated) => some updated
  | _ => none

theorem told?_of_isAside {d : Deed} (h : d.isAside = true) : d.told? = none := by
  cases d with
  | event | measurement => rfl
  | call c answer =>
    cases c with
    | apply | getObject | deleteObject | listPods => rfl
    | _ => cases h

/-- A status that was written stands in the record that the answer tells of, merged over the status
from before, and nothing else of the record has changed but its version. -/
def Faithful : Deed → Prop
  | .call (.patchStatus env status) (.ok updated) =>
    ∃ v, updated = restated env v (some (status.mergedInto env.known))
  | _ => True

/-- A change of the finalizers, whatever has come of it. -/
def isFinalizing : Deed → Bool
  | .call (.addFinalizer _) _ | .call (.removeFinalizer _) _ => true
  | _ => false

/-- A write that was refused because it was based on an old version. -/
def isConflict : Deed → Bool
  | .call c (.error e) => c.basis?.isSome && e.isConflict
  | _ => false

theorem faithful_of_isAside {d : Deed} (h : d.isAside = true) : d.Faithful := by
  cases d with
  | event | measurement => trivial
  | call c answer =>
    cases c with
    | patchStatus => cases h
    | _ => trivial

theorem not_isConflict_of_isAside {d : Deed} (h : d.isAside = true) : d.isConflict = false := by
  cases d with
  | event | measurement => rfl
  | call c answer =>
    cases answer with
    | ok => rfl
    | error e =>
      have hbasis : c.basis? = none := Call.basis?_of_isAside h
      rw [isConflict, hbasis]
      rfl

theorem not_isFinalizing_of_isAside {d : Deed} (h : d.isAside = true) : d.isFinalizing = false := by
  cases d with
  | event | measurement => rfl
  | call c answer =>
    cases c with
    | addFinalizer | removeFinalizer => cases h
    | _ => rfl

end Deed

/-- The newest version of the record that a pass has been told of. -/
def newest? (t : List Deed) : Option Environment := (t.filterMap Deed.told?).getLast?

theorem newest?_snoc (t : List Deed) (d : Deed) :
    newest? (t ++ [d]) = if d.told?.isSome then d.told? else newest? t := by
  unfold newest?
  cases hd : d.told? with
  | none => simp [hd]
  | some env => simp [hd]

theorem newest?_append {t u : List Deed} (h : ∀ d ∈ u, d.told? = none) :
    newest? (t ++ u) = newest? t := by
  have hu : u.filterMap Deed.told? = [] := List.filterMap_eq_nil_iff.2 h
  rw [newest?, List.filterMap_append, hu, List.append_nil, newest?]

theorem newest?_append_aside {t u : List Deed} (h : ∀ d ∈ u, d.isAside = true) :
    newest? (t ++ u) = newest? t :=
  newest?_append fun d hd => Deed.told?_of_isAside (h d hd)

namespace Pass

variable {α : Type} {p q : Pass α} {t : List Deed}

theorem Leads.isAside (h : p.Leads t q) (hp : p.Makes fun c => c.isAside = true) :
    ∀ d ∈ t, d.isAside = true := by
  induction h with
  | start => exact fun d hd => absurd hd List.not_mem_nil
  | call _ ih =>
    obtain ⟨hc, hnext⟩ := hp.of_call
    exact List.forall_mem_cons.2 ⟨hc, ih (hnext _)⟩
  | announce _ ih => exact List.forall_mem_cons.2 ⟨rfl, ih hp.of_announce⟩
  | count _ ih => exact List.forall_mem_cons.2 ⟨rfl, ih hp.of_count⟩

end Pass

namespace Reconcile

variable {config : Config} {notice : Metadata} {env old latest : Environment} {now : Instant}
  {name ns : String} {c : Call} {t u : List Deed}

/-! ## Between the writes -/

theorem isAside_of_upkeep (h : Child.Upkeep config env ns c) : c.isAside = true := by
  cases h <;> rfl

theorem makes_survey_aside : (survey config env ns).Makes fun c => c.isAside = true := by
  refine makes_bind ((makes_ensureAll _).mono fun _ => isAside_of_upkeep) fun fault => ?_
  refine makes_bind (makes_reportIf _) fun _ => makes_bind (fun _ c hc => ?_) fun cost => ?_
  · rw [asks_costOf hc]
    rfl
  · refine makes_bind ?_ fun health => makes_done _
    exact (makes_healthOf : (healthOf config env).Makes (Child.Upkeep config env ns)).mono
      fun _ => isAside_of_upkeep

private theorem isAside_of_removal {child : Child} (h : (child.remove config env ns).Asks t c) :
    c.isAside = true := by
  rcases Child.asks_removeOwned (Child.asks_remove.1 h) with ⟨_, rfl⟩ | ⟨_, _, _, rfl⟩
  · rfl
  · rfl

private theorem isAside_of_clearedAll {children : List Child}
    (h : ClearedAll config env ns children t) : ∀ d ∈ t, d.isAside = true := by
  refine (gives_removeAll.2 h).isAside fun u c hc => ?_
  obtain ⟨_, child, _, _, _, _, _, _, hr⟩ := asks_removeAll hc
  exact isAside_of_removal hr

/-! ## The writes of a pass -/

/-- When a pass that has read the record makes a write, and what it writes. -/
inductive Writing (config : Config) (name : String) (env : Environment) (now : Instant) :
    List Deed → Call → Prop where
  | hold (staying : env.metadata.isDeleting = false) (free : env.hasFinalizer = false) :
    Writing config name env now [] (.addFinalizer env)
  | refuse {fault : Failure} {next : Status} (staying : env.metadata.isDeleting = false)
      (held : env.hasFinalizer = true) (invalid : env.spec.validate name = .error fault)
      (made : env.known.refused? env fault.message now = some next)
      (changed : env.known.differs next = true) :
    Writing config name env now [] (.patchStatus env (next.stamped now))
  | accept {status : Status} (staying : env.metadata.isDeleting = false)
      (held : env.hasFinalizer = true) (valid : env.spec.validate name = .ok ())
      (unrecorded : env.known.ns = none)
      (made : Status.accepted? env env.known config now = some status) :
    Writing config name env now [] (.patchStatus env status)
  | conclude {t u : List Deed} {latest : Environment} {status : Status} {found : Findings}
      (staying : env.metadata.isDeleting = false) (held : env.hasFinalizer = true)
      (valid : env.spec.validate name = .ok ())
      (entered : Entered config env now t latest status)
      (surveyed : (survey config latest (spaceOf latest status)).Gives u found)
      (changed : status.differs (aim config latest status found now) = true) :
    Writing config name env now (t ++ u)
      (.patchStatus latest ((aim config latest status found now).stamped now))
  | mark (deleting : env.metadata.isDeleting = true) (held : env.hasFinalizer = true) :
    Writing config name env now [] (.patchStatus env (env.known.terminating now))
  | letGo {t u : List Deed} {latest : Environment} (deleting : env.metadata.isDeleting = true)
      (held : env.hasFinalizer = true) (marked : Marked env now t latest)
      (cleared : ClearedAll config env env.childNamespace Child.all.reverse u) :
    Writing config name env now (t ++ u) (.removeFinalizer latest)

theorem asks_writeChanged_of_differs {current next : Status}
    (h : (writeChanged env current next now).Asks t c) :
    current.differs next = true ∧ t = [] ∧ c = .patchStatus env (next.stamped now) := by
  cases hd : current.differs next with
  | true => exact ⟨rfl, asks_writeChanged h⟩
  | false =>
    rw [writeChanged_of_not_differs hd] at h
    exact absurd h asks_done

private theorem writing_of_release (deleting : env.metadata.isDeleting = true)
    (held : env.hasFinalizer = true) (writes : c.basis?.isSome = true)
    (h : (release config env now).Asks t c) : Writing config name env now t c := by
  rcases asks_release h with ⟨rfl, rfl⟩ | ⟨mark, latest, u, marked, hu, rfl⟩
  · exact .mark deleting held
  · rcases hu with ⟨_, child, _, _, _, _, _, _, hr⟩ | ⟨cleared, rfl⟩
    · rw [Call.basis?_of_isAside (isAside_of_removal hr)] at writes
      cases writes
    · exact .letGo deleting held marked cleared

private theorem writing_of_refuse {fault : Failure} (staying : env.metadata.isDeleting = false)
    (held : env.hasFinalizer = true) (invalid : env.spec.validate name = .error fault)
    (h : (refuse env fault now).Asks t c) : Writing config name env now t c := by
  cases made : env.known.refused? env fault.message now with
  | none =>
    rw [refuse_of_overflow fault made] at h
    exact absurd h asks_overflow
  | some next =>
    obtain ⟨rest, hrest, heq⟩ := refuse_eq fault made
    rw [heq] at h
    rcases asks_bind.1 h with hw | ⟨_, u, written, _, _, hd⟩
    · obtain ⟨changed, rfl, rfl⟩ := asks_writeChanged_of_differs hw
      exact .refuse staying held invalid made changed
    · exact (hrest written u c hd).elim

private theorem writing_of_converge (staying : env.metadata.isDeleting = false)
    (held : env.hasFinalizer = true) (valid : env.spec.validate name = .ok ())
    (writes : c.basis?.isSome = true) (h : (converge config env now).Asks t c) :
    Writing config name env now t c := by
  rw [converge_eq] at h
  rcases asks_bind.1 h with hf | ⟨t₁, t₂, ⟨latest, status⟩, rfl, hf, hd⟩
  · obtain ⟨rfl, unrecorded, status, made, rfl⟩ := asks_firstContact hf
    exact .accept staying held valid unrecorded made
  have entered := gives_firstContact hf
  rcases asks_bind.1 hd with hs | ⟨u, t₃, found, rfl, surveyed, hc⟩
  · rw [Call.basis?_of_isAside (makes_survey_aside _ _ hs)] at writes
    cases writes
  · obtain ⟨rest, hrest, heq⟩ := conclude_eq config latest status found now
    rw [heq] at hc
    rcases asks_bind.1 hc with hw | ⟨_, v, written, _, _, hd⟩
    · obtain ⟨changed, rfl, rfl⟩ := asks_writeChanged_of_differs hw
      rw [List.append_nil]
      exact .conclude staying held valid entered surveyed changed
    · exact (hrest written v c hd).elim

private theorem writing_of_step (writes : c.basis?.isSome = true)
    (h : (step config name env now).Asks t c) : Writing config name env now t c := by
  by_cases hd : env.metadata.isDeleting = true
  · by_cases held : env.hasFinalizer = true
    · rw [step_of_leaving hd held] at h
      exact writing_of_release hd held writes h
    · rw [step_of_released hd (Bool.eq_false_iff.2 held)] at h
      exact absurd h asks_done
  · have staying : env.metadata.isDeleting = false := Bool.eq_false_iff.2 hd
    by_cases held : env.hasFinalizer = true
    · cases hv : env.spec.validate name with
      | error fault =>
        rw [step_of_refused staying held hv] at h
        exact writing_of_refuse staying held hv h
      | ok =>
        rw [step_of_valid staying held hv] at h
        exact writing_of_converge staying held hv writes h
    · have free : env.hasFinalizer = false := Bool.eq_false_iff.2 held
      unfold step at h
      simp only [staying, free, Bool.false_eq_true, Bool.not_false, if_false, if_true] at h
      rcases asks_bind.1 h with hr | ⟨_, _, _, _, _, hd⟩
      · obtain ⟨rfl, rfl⟩ := asks_request.1 hr
        exact .hold staying free
      · exact absurd hd asks_done

/-- Before it writes anything a pass has read the record. -/
theorem writing_of_asks (writes : c.basis?.isSome = true)
    (h : (pass config notice now).Asks t c) : ∃ ns env u, notice.ns = some ns ∧
      t = read notice ns env :: u ∧ Writing config notice.anyName env now u c := by
  obtain ⟨rest, hrest, heq⟩ := pass_eq config notice now
  rw [heq] at h
  rcases asks_bind.1 h with ha | ⟨_, v, x, _, _, hd⟩
  · have ha := asks_attempt.1 ha
    cases place : notice.ns with
    | none =>
      obtain ⟨e, he⟩ := act_of_nowhere config place now
      rw [he] at ha
      exact absurd ha asks_fail
    | some ns =>
      rw [act_eq place now] at ha
      rcases asks_bind.1 ha with hr | ⟨t₁, u, found, rfl, hf, hs⟩
      · obtain ⟨_, rfl⟩ := asks_request.1 hr
        cases writes
      · obtain rfl := gives_request.1 hf
        cases found with
        | none => exact absurd hs asks_done
        | some env => exact ⟨ns, env, u, rfl, rfl, writing_of_step writes hs⟩
  · exact (hrest x v c hd).elim

/-! ## What a write is based on -/

private theorem newest?_read : newest? [read notice ns env] = some env := rfl

private theorem newest?_marked (h : Marked env now t latest) :
    newest? (read notice ns env :: t) = some latest := by
  cases h with
  | already | written | unwritten => rfl

private theorem newest?_entered {status : Status} (h : Entered config env now t latest status) :
    newest? (read notice ns env :: t) = some latest := by
  cases h with
  | known | accepted => rfl

theorem Writing.newest (h : Writing config name env now u c) :
    newest? (read notice ns env :: u) = c.basis? := by
  cases h with
  | hold | refuse | accept | mark => exact newest?_read
  | conclude _ _ _ entered surveyed =>
    rw [← List.cons_append, newest?_append_aside (surveyed.isAside makes_survey_aside)]
    exact newest?_entered entered
  | letGo _ _ marked cleared =>
    rw [← List.cons_append, newest?_append_aside (isAside_of_clearedAll cleared)]
    exact newest?_marked marked

/-- A write is based on the newest version of the record that the pass has been told of. -/
theorem newest?_of_asks (h : (pass config notice now).Asks t c) (basis : c.basis? = some old) :
    newest? t = some old := by
  obtain ⟨ns, env, u, _, rfl, writing⟩ := writing_of_asks (by rw [basis]; rfl) h
  rw [writing.newest, basis]

/-- A status that is computed from a record and from the status that it is taken to have. -/
inductive Computed (config : Config) (name : String) (now : Instant) (env : Environment) :
    Status → Status → Prop where
  | accepted {status : Status} (staying : env.metadata.isDeleting = false)
      (unrecorded : env.known.ns = none)
      (made : Status.accepted? env env.known config now = some status) :
    Computed config name now env env.known status
  | refused {fault : Failure} {next : Status} (staying : env.metadata.isDeleting = false)
      (invalid : env.spec.validate name = .error fault)
      (made : env.known.refused? env fault.message now = some next) :
    Computed config name now env env.known (next.stamped now)
  | observed {current : Status} (observation : Observation)
      (staying : env.metadata.isDeleting = false) (recorded : current.ns.isSome = true) :
    Computed config name now env current
      ((Status.next env current observation config now).stamped now)
  | marked (deleting : env.metadata.isDeleting = true) :
    Computed config name now env env.known (env.known.terminating now)

/-- The status that a record is taken to have: the one that stands in it, or the one of first
contact that has just been merged into it. -/
inductive Carries (config : Config) (now : Instant) (env : Environment) : Status → Prop where
  | known : Carries config now env env.known
  | accepted {before : Environment} {v : Option String} {current : Status}
      (unrecorded : before.known.ns = none)
      (made : Status.accepted? before before.known config now = some current)
      (written : env = restated before v (some (current.mergedInto before.known))) :
    Carries config now env current

/-- The status of first contact has all that could stay of a status without a namespace, apart from
the cost and the generation. -/
theorem Carries.resembles {current : Status} (h : Carries config now env current) :
    env.known.Resembles current := by
  cases h with
  | known => exact Status.resembles_refl _
  | accepted _ made written =>
    rw [written]
    obtain ⟨life, _, rfl⟩ := Option.map_eq_some_iff.1 made
    exact Status.Retains.resembles_mergedInto
      ⟨fun _ => rfl, fun _ => rfl, fun _ => rfl, fun _ => rfl, fun _ => rfl, fun _ => rfl⟩

/-- Apart from the cost and the generation nothing is left out that was there. -/
theorem Computed.retains {current status : Status}
    (h : Computed config name now env current status) : status.Retains current := by
  cases h with
  | accepted _ _ made =>
    obtain ⟨life, _, rfl⟩ := Option.map_eq_some_iff.1 made
    exact ⟨fun _ => rfl, fun _ => rfl, fun _ => rfl, fun _ => rfl, fun _ => rfl, fun _ => rfl⟩
  | refused _ _ made =>
    obtain ⟨life, _, rfl⟩ := Option.map_eq_some_iff.1 made
    exact ⟨fun _ => rfl, id, id, fun _ => rfl, fun _ => rfl, fun _ => rfl⟩
  | observed observation =>
    refine ⟨Status.next_phase_isSome, fun _ => ?_, fun _ => ?_, fun hcreated => ?_,
      fun hexpires => ?_, fun _ => rfl⟩
    · exact (congrArg Option.isSome (Status.next_ns observation)).trans rfl
    · exact (congrArg Option.isSome Status.next_url).trans rfl
    · exact (congrArg Option.isSome Status.next_createdAt).trans hcreated
    · exact (congrArg Option.isSome Status.next_expiresAt).trans hexpires
  | marked => exact ⟨fun _ => rfl, id, id, id, id, fun _ => rfl⟩

/-- What has been merged over a status from which it was computed stands there as it was written,
but for the cost and the generation. -/
theorem Computed.resembles {current status : Status}
    (h : Computed config name now env current status) (carries : Carries config now env current) :
    (status.mergedInto env.known).Resembles status :=
  (h.retains.of_resembles carries.resembles).resembles_mergedInto

/-- A status is computed from the one that stands in the record, or from the one of first contact
that the pass has written there. -/
theorem Writing.computed {status : Status}
    (h : Writing config name env now u (.patchStatus old status))
    (faithful : ∀ d ∈ u, d.Faithful) : ∃ current,
      Computed config name now old current status ∧
      (current = old.known ∨ ∃ before, before.known.ns = none ∧
        Status.accepted? before before.known config now = some current ∧
        .call (.patchStatus before current) (.ok old) ∈ u) := by
  generalize hc : Call.patchStatus old status = c at h
  cases h with
  | hold | letGo => cases hc
  | refuse staying _ invalid made =>
    cases hc
    exact ⟨_, .refused staying invalid made, .inl rfl⟩
  | accept staying _ _ unrecorded made =>
    cases hc
    exact ⟨_, .accepted staying unrecorded made, .inl rfl⟩
  | mark deleting =>
    cases hc
    exact ⟨_, .marked deleting, .inl rfl⟩
  | @conclude t v latest current found staying _ _ entered =>
    cases hc
    cases entered with
    | known recorded => exact ⟨_, .observed _ staying recorded, .inl rfl⟩
    | @accepted _ updated unrecorded made =>
      let told : Deed := .call (.patchStatus env current) (.ok old)
      have mem : told ∈ [told] ++ v := List.mem_append_left v (List.mem_singleton_self told)
      have recorded : current.ns.isSome = true := by
        rw [Status.accepted_ns made]
        rfl
      obtain ⟨_, rfl⟩ := faithful told mem
      exact ⟨current, .observed _ staying recorded, .inr ⟨env, unrecorded, made, mem⟩⟩

/-- A status is computed from the very version that it is to replace. -/
theorem computed_of_asks {status : Status} (faithful : ∀ d ∈ t, d.Faithful)
    (h : (pass config notice now).Asks t (.patchStatus old status)) : ∃ current,
      Carries config now old current ∧ Computed config notice.anyName now old current status := by
  obtain ⟨ns, env, u, _, rfl, writing⟩ := writing_of_asks rfl h
  have faithful (d : Deed) (hd : d ∈ u) : d.Faithful := faithful d (List.mem_cons_of_mem _ hd)
  obtain ⟨current, computed, rfl | ⟨before, unrecorded, made, hd⟩⟩ := writing.computed faithful
  · exact ⟨_, .known, computed⟩
  · obtain ⟨v, written⟩ := faithful _ hd
    exact ⟨current, .accepted unrecorded made written, computed⟩

/-! ## Refused writes -/

private theorem breaks_writeChanged {current next : Status} (changed : current.differs next = true)
    (e : Failure) :
    (writeChanged env current next now).Breaks
      [.call (.patchStatus env (next.stamped now)) (.error e)] e := by
  unfold writeChanged
  rw [if_pos changed]
  exact breaks_bind.2 (.inl (breaks_request.2 rfl))

private theorem breaks_converge {status : Status} {found : Findings}
    (entered : Entered config env now t latest status)
    (surveyed : (survey config latest (spaceOf latest status)).Gives u found)
    (changed : status.differs (aim config latest status found now) = true) (e : Failure) :
    (converge config env now).Breaks (t ++ (u ++
      [.call (.patchStatus latest ((aim config latest status found now).stamped now))
        (.error e)])) e := by
  obtain ⟨rest, _, heq⟩ := conclude_eq config latest status found now
  have hc : (writeChanged latest status (aim config latest status found now) now).Breaks _ e :=
    breaks_writeChanged changed e
  rw [converge_eq]
  refine breaks_bind.2 (.inr ⟨t, _, (latest, status), rfl, gives_of_entered entered, ?_⟩)
  refine breaks_bind.2 (.inr ⟨u, _, found, rfl, surveyed, ?_⟩)
  rw [heq]
  exact breaks_bind.2 (.inl hc)

/-- A write that is refused is the last thing that is tried for the record. -/
theorem Writing.breaks (h : Writing config name env now u c) (plain : c.isMark = false)
    (e : Failure) : (step config name env now).Breaks (u ++ [.call c (.error e)]) e := by
  cases h with
  | hold staying free =>
    unfold step
    simp only [staying, free, Bool.false_eq_true, Bool.not_false, if_false, if_true]
    exact breaks_bind.2 (.inl (breaks_request.2 rfl))
  | refuse staying held invalid made changed =>
    obtain ⟨rest, _, heq⟩ := refuse_eq _ made
    rw [step_of_refused staying held invalid, heq]
    exact breaks_bind.2 (.inl (breaks_writeChanged changed e))
  | accept staying held valid unrecorded made =>
    rw [step_of_valid staying held valid, converge_of_accepted unrecorded made]
    exact breaks_bind.2 (.inl (breaks_request.2 rfl))
  | conclude staying held valid entered surveyed changed =>
    rw [step_of_valid staying held valid, List.append_assoc]
    exact breaks_converge entered surveyed changed e
  | mark deleting =>
    rw [Call.isMark, deleting] at plain
    cases plain
  | letGo deleting held marked cleared =>
    rw [step_of_leaving deleting held, List.append_assoc]
    refine breaks_bind.2 (.inr ⟨_, _, _, rfl, gives_markTerminating.2 marked, ?_⟩)
    refine breaks_bind.2 (.inr ⟨_, _, (), rfl, gives_removeAll.2 cleared, ?_⟩)
    exact breaks_bind.2 (.inl (breaks_request.2 rfl))

/-- What a pass measures when it fails. -/
def failing (e : Failure) : List Deed :=
  [.measurement (.passEnded false), .measurement (.passFailed e.isRetryable)]

private theorem breaks_of_writing (place : notice.ns = some ns)
    (writing : Writing config notice.anyName env now u c) (plain : c.isMark = false) (e : Failure) :
    (pass config notice now).Breaks
      (read notice ns env :: u ++ .call c (.error e) :: failing e) e := by
  have hs := writing.breaks plain e
  have ha : (act config notice now).Breaks
      (read notice ns env :: (u ++ [.call c (.error e)])) e := by
    rw [act_eq place now]
    exact breaks_bind.2 (.inr ⟨[_], _, some env, rfl, gives_request.2 rfl, hs⟩)
  rw [List.append_cons]
  exact (Leads.bind (Leads.attempt ha) _).trans (.count (.count (.start _)))

/-- A write that is refused ends the pass with its failure, unless it is only a mark. -/
theorem breaks_of_refused (writes : c.basis?.isSome = true) (plain : c.isMark = false)
    (h : (pass config notice now).Asks t c) (e : Failure) :
    (pass config notice now).Breaks (t ++ .call c (.error e) :: failing e) e := by
  obtain ⟨ns, env, u, place, rfl, writing⟩ := writing_of_asks writes h
  exact breaks_of_writing place writing plain e

/-- Where a write is due, the pass asks for it. -/
theorem asks_of_writing (place : notice.ns = some ns)
    (writing : Writing config notice.anyName env now u c) (plain : c.isMark = false) :
    (pass config notice now).Asks (read notice ns env :: u) c :=
  (breaks_of_writing place writing plain .client).asks

/-! ## What comes before a write -/

/-- Before a write there are calls about objects and pods and at most one other write, which is one
of a status. Only the release can come after a refused one. -/
theorem Writing.before (h : Writing config name env now u c) {d : Deed} (hd : d ∈ u) :
    d.isAside = true ∨ ∃ old status answer, d = .call (.patchStatus old status) answer ∧
      ∀ e, answer = .error e → ∃ latest, c = .removeFinalizer latest := by
  cases h with
  | hold | refuse | accept | mark => exact absurd hd List.not_mem_nil
  | conclude _ _ _ entered surveyed =>
    rcases List.mem_append.1 hd with hd | hd
    · cases entered with
      | known => exact absurd hd List.not_mem_nil
      | accepted => exact .inr ⟨_, _, _, List.mem_singleton.1 hd, fun e he => nomatch he⟩
    · exact .inl (surveyed.isAside makes_survey_aside _ hd)
  | letGo _ _ marked cleared =>
    rcases List.mem_append.1 hd with hd | hd
    · cases marked with
      | already => exact absurd hd List.not_mem_nil
      | written | unwritten => exact .inr ⟨_, _, _, List.mem_singleton.1 hd, fun _ _ => ⟨_, rfl⟩⟩
    · exact .inl (isAside_of_clearedAll cleared _ hd)

/-- No write comes after a change of the finalizers. -/
theorem not_isFinalizing_of_asks (writes : c.basis?.isSome = true)
    (h : (pass config notice now).Asks t c) {d : Deed} (hd : d ∈ t) : d.isFinalizing = false := by
  obtain ⟨ns, env, u, _, rfl, writing⟩ := writing_of_asks writes h
  rcases List.mem_cons.1 hd with rfl | hd
  · rfl
  · rcases writing.before hd with haside | ⟨_, _, _, rfl, _⟩
    · exact Deed.not_isFinalizing_of_isAside haside
    · rfl

/-- After a write that could not be made there is nothing to write any more but the release. -/
theorem release_of_asks (writes : c.basis?.isSome = true)
    (h : (pass config notice now).Asks t c) {d : Call} {e : Failure} (hd : .call d (.error e) ∈ t)
    (refused : d.basis?.isSome = true) : ∃ latest, c = .removeFinalizer latest := by
  obtain ⟨ns, env, u, _, rfl, writing⟩ := writing_of_asks writes h
  rcases List.mem_cons.1 hd with hd | hd
  · cases hd
  · rcases writing.before hd with haside | ⟨_, _, _, heq, hrelease⟩
    · rw [Call.basis?_of_isAside haside] at refused
      cases refused
    · cases heq
      exact hrelease e rfl

/-- The record is read before anything else. -/
theorem first_of_asks_read {space : String}
    (h : (pass config notice now).Asks t (.getEnvironment name space)) : t = [] := by
  generalize hc : Call.getEnvironment name space = c at h
  cases turn_of_asks h with
  | read => rfl
  | hold | refuse | mark | letGo => cases hc
  | converge _ _ _ _ turn =>
    cases turn with
    | accept | price | write => cases hc
    | tend _ upkeep => cases upkeep <;> cases hc
  | clear _ _ _ _ _ _ turn =>
    rcases Child.asks_removeOwned (Child.asks_remove.1 turn) with ⟨_, rfl⟩ | ⟨_, _, _, rfl⟩
    · cases hc
    · cases hc

end Reconcile
end PreviewControl
