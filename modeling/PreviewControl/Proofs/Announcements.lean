import PreviewControl.Proofs.Attempts

/-!
# What is reported, and when

Events report what has been written and what has failed, never what is only intended. A pass
announces a phase once at most, right after the write that has brought it; it reports failures
exactly when there are some. The answers to the calls are arbitrary throughout.
-/
namespace PreviewControl

/-- The event that is published, if the deed is the publication of one. -/
def Deed.event? : Deed → Option Event
  | .event e => some e
  | _ => none

/-- The phase that is stored after a deed, as far as the answers tell. -/
def Deed.stored (phase : Option Phase) : Deed → Option Phase
  | .call (.getEnvironment ..) (.ok (some env)) => env.phase?
  | .call (.patchStatus _ status) (.ok _) => status.phase
  | _ => phase

/-- The events that are published in a trace, in their order. -/
def published (t : List Deed) : List Event := t.filterMap Deed.event?

/-- The phase that is stored after a trace. -/
def persisted (t : List Deed) : Option Phase := t.foldl Deed.stored none

theorem mem_published {t : List Deed} {e : Event} : e ∈ published t ↔ .event e ∈ t := by
  unfold published
  rw [List.mem_filterMap]
  constructor
  · rintro ⟨d, hd, he⟩
    cases d with
    | event e' =>
      cases he
      exact hd
    | call | measurement => cases he
  · exact fun h => ⟨_, h, rfl⟩

theorem published_append (t u : List Deed) : published (t ++ u) = published t ++ published u :=
  List.filterMap_append

namespace Pass

variable {α β : Type} {p : Pass α} {t u : List Deed} {e : Event}

/-! ## Next events -/

/-- Every event of a trace was the next one to be published when it was published. -/
theorem announce_of_leads {q : Pass α} (h : p.Leads (t ++ .event e :: u) q) :
    ∃ rest, p.Leads t (announce e rest) ∧ rest.Leads u q := by
  obtain ⟨r, hr, hq⟩ := h.split
  cases hq with
  | announce hq => exact ⟨_, hr, hq⟩

/-- An event of two passes in a row is published in the first one, or after its result. -/
theorem announce_of_bind {f : α → Pass β} {rest : Pass β}
    (h : (p.bind f).Leads t (announce e rest)) :
    (∃ q, p.Leads t (announce e q) ∧ rest = q.bind f) ∨
      ∃ t₁ t₂ a, t = t₁ ++ t₂ ∧ p.Gives t₁ a ∧ (f a).Leads t₂ (announce e rest) := by
  obtain ⟨q, hq, hr⟩ | ⟨t₁, t₂, a, ht, ha, hr⟩ := leads_bind.1 h
  · cases q with
    | done a => exact .inr ⟨t, [], a, (List.append_nil t).symm, hq, leads_nil.2 hr.symm⟩
    | announce e' q' =>
      cases hr
      exact .inl ⟨q', hq, rfl⟩
    | fail | overflow | call | count => cases hr
  · exact .inr ⟨t₁, t₂, a, ht, ha, hr⟩

theorem announce_of_attempt {rest : Pass (Except Failure α)}
    (h : p.attempt.Leads t (announce e rest)) :
    ∃ q, p.Leads t (announce e q) ∧ rest = q.attempt := by
  obtain ⟨q, hq, hr⟩ := leads_attempt.1 h
  cases q with
  | announce e' q' =>
    cases hr
    exact ⟨q', hq, rfl⟩
  | done | fail | overflow | call | count => cases hr

/-! ## Passes without events -/

/-- The pass publishes nothing, whatever the answers are. -/
def Mute (p : Pass α) : Prop := ∀ t e rest, ¬p.Leads t (announce e rest)

theorem mute_done (a : α) : (done a).Mute := fun _ _ _ h => nomatch (leads_done.1 h).2

theorem mute_fail (e : Failure) : (fail e : Pass α).Mute := fun _ _ _ h =>
  nomatch (leads_fail.1 h).2

theorem mute_overflow : (overflow : Pass α).Mute := fun _ _ _ h => nomatch (leads_overflow.1 h).2

theorem mute_call {c : Call} {next : c.Answer → Pass α} (h : ∀ answer, (next answer).Mute) :
    (call c next).Mute := by
  intro t e rest ht
  rcases leads_call.1 ht with ⟨_, he⟩ | ⟨answer, u, _, hu⟩
  · cases he
  · exact h answer u e rest hu

theorem mute_count {m : Measurement} (h : p.Mute) : (count m p).Mute := by
  intro t e rest ht
  rcases leads_count.1 ht with ⟨_, he⟩ | ⟨u, _, hu⟩
  · cases he
  · exact h u e rest hu

theorem mute_bind {f : α → Pass β} (hp : p.Mute) (hf : ∀ a, (f a).Mute) : (p.bind f).Mute := by
  intro t e rest h
  rcases announce_of_bind h with ⟨q, hq, _⟩ | ⟨_, t₂, a, _, _, hr⟩
  · exact hp t e q hq
  · exact hf a t₂ e rest hr

theorem Mute.attempt (h : p.Mute) : p.attempt.Mute := by
  intro t e rest ht
  obtain ⟨q, hq, _⟩ := announce_of_attempt ht
  exact h t e q hq

theorem mute_ofExcept (x : Except Failure α) : (ofExcept x).Mute := by
  cases x with
  | ok a => exact mute_done a
  | error e => exact mute_fail e

theorem mute_ofTime (x : Option α) : (ofTime x).Mute := by
  cases x with
  | some a => exact mute_done a
  | none => exact mute_overflow

theorem mute_request (c : Call) : (request c).Mute := mute_call mute_ofExcept

theorem mute_inquire (c : Call) : (inquire c).Mute := mute_call mute_done

theorem Mute.published {q : Pass α} (hp : p.Mute) (h : p.Leads t q) : published t = [] := by
  refine List.eq_nil_iff_forall_not_mem.2 fun e he => ?_
  obtain ⟨u, v, rfl⟩ := List.append_of_mem (mem_published.1 he)
  obtain ⟨rest, hrest, _⟩ := announce_of_leads h
  exact hp u e rest hrest

/-- A trace without events, or the first event and what comes before and after it. -/
theorem first_event {q : Pass α} (h : p.Leads t q) : published t = [] ∨ ∃ u e v rest,
    published t = e :: published v ∧ p.Leads u (announce e rest) ∧ rest.Leads v q := by
  induction h with
  | start => exact .inl rfl
  | call _ ih =>
    rcases ih with hnone | ⟨u, e, v, rest, hpub, hu, hv⟩
    · exact .inl hnone
    · exact .inr ⟨_, e, v, rest, hpub, .call hu, hv⟩
  | announce h _ => exact .inr ⟨[], _, _, _, rfl, .start _, h⟩
  | count _ ih =>
    rcases ih with hnone | ⟨u, e, v, rest, hpub, hu, hv⟩
    · exact .inl hnone
    · exact .inr ⟨_, e, v, rest, hpub, .count hu, hv⟩

end Pass

/-! ## Children -/

namespace Child

open Pass

variable {config : Config} {env : Environment} {ns : String}

theorem address_kind (child : Child) :
    (child.address config env ns).kind.kind = child.kind := by
  cases child <;> rfl

theorem address_inj {child other : Child}
    (h : child.address config env ns = other.address config env ns) : child = other := by
  have hkind : child.kind = other.kind := by
    have hall := congrArg (·.kind.kind) h
    exact (address_kind child).symm.trans (hall.trans (address_kind other))
  cases child <;> cases other <;> first | rfl | exact absurd hkind (by decide)

private theorem mute_removeOwned (target : Address) : (removeOwned env target).Mute := by
  refine mute_bind (mute_request _) fun existing => ?_
  cases existing with
  | none => exact mute_done _
  | some existing =>
    show (ite _ _ _ : Pass Bool).Mute
    split
    · exact mute_done _
    · exact mute_request _

theorem mute_remove (child : Child) : (child.remove config env ns).Mute :=
  mute_bind (mute_removeOwned _) fun _ => mute_done _

private theorem mute_applyAll (ms : List Manifest) : (applyAll ms).Mute := by
  induction ms with
  | nil => exact mute_done ()
  | cons m ms ih => exact mute_bind (mute_request _) fun _ => ih

theorem mute_ensure (child : Child) : (child.ensure config env ns).Mute := by
  cases child with
  | «namespace» =>
    rw [ensure, ensureNamespace_eq]
    refine mute_bind (mute_request _) fun existing => ?_
    split
    · exact mute_fail _
    · exact mute_applyAll _
  | ingress =>
    rw [ensure]
    cases hobject : ingressObject? env ns config with
    | none =>
      rw [ensureIngress_of_none hobject]
      exact mute_bind (mute_removeOwned _) fun _ => mute_done _
    | some object =>
      rw [ensureIngress_of_some hobject]
      exact mute_request _
  | descriptor =>
    rw [ensure, ensureDescriptor_eq]
    exact mute_request _

private theorem mute_unitHealths (pr : UInt32) (services : List String) :
    (unitHealths config pr services).Mute := by
  induction services with
  | nil => exact mute_done []
  | cons service services ih =>
    exact mute_bind (mute_request _) fun _ => mute_bind ih fun _ => mute_done _

theorem mute_deploymentHealth : (deploymentHealth config env).Mute :=
  mute_bind (mute_unitHealths _ _) fun _ => mute_done _

end Child

namespace Reconcile

open Pass

variable {config : Config} {env latest : Environment} {ns : String} {now : Instant}
  {notice : Metadata} {t u : List Deed} {e : Event} {rest : Pass Requeue}
  {current status : Status} {found : Findings}

/-! ## The parts of a pass that publish nothing -/

theorem mute_markTerminating : (markTerminating env now).Mute := by
  unfold markTerminating
  split
  · exact mute_done env
  · refine mute_bind (mute_inquire _) fun answer => ?_
    cases answer <;> exact mute_done _

theorem mute_firstContact : (firstContact config env now).Mute := by
  unfold firstContact
  split
  · exact mute_done _
  · exact mute_bind (mute_ofTime _) fun _ => mute_bind (mute_request _) fun _ => mute_done _

theorem mute_ensureAll (children : List Child) : (ensureAll config env ns children).Mute := by
  induction children with
  | nil => exact mute_done none
  | cons child children ih =>
    refine mute_bind (Child.mute_ensure child).attempt fun result => ?_
    cases result with
    | ok => exact ih
    | error e => exact mute_bind ih fun _ => mute_done _

theorem mute_costOf : (costOf config env ns).Mute := by
  refine mute_bind (mute_inquire _) fun answer => ?_
  cases answer <;> exact mute_done _

theorem mute_healthOf : (healthOf config env).Mute :=
  mute_bind Child.mute_deploymentHealth.attempt fun _ => mute_done _

theorem mute_writeChanged {next : Status} : (writeChanged env current next now).Mute := by
  unfold writeChanged
  split
  · exact mute_bind (mute_request _) fun _ => mute_done _
  · exact mute_done none

theorem mute_account (x : Except Failure Requeue) : (account x).Mute := by
  cases x with
  | ok requeue => exact mute_count (mute_done _)
  | error e => exact mute_count (mute_count (mute_fail e))

/-! ## Where events are published -/

/-- The words that announce a phase. -/
def heralds : List (String × Phase) :=
  [("Provisioning", .provisioning), ("Ready", .ready), ("Degraded", .failed)]

/-- The report that a child could not be put in place. -/
def unplaced (env : Environment) (e : Failure) : Event :=
  .converging env .warning "MaterializeFailed" (some e.message)

theorem herald_of_phaseEvent {note : Option String} {phase : Option Phase}
    (h : phaseEvent? config env note phase = some e) :
    ∃ p, phase = some p ∧ (e.reason, p) ∈ heralds := by
  unfold phaseEvent? at h
  split at h
  · cases h
    exact ⟨_, rfl, .head _⟩
  · cases h
    exact ⟨_, rfl, .tail _ (.head _)⟩
  · cases h
    exact ⟨_, rfl, .tail _ (.tail _ (.head _))⟩
  · cases h

theorem reportIf_of_announce {event : Option Event} {rest : Pass Unit}
    (h : (reportIf event).Leads t (.announce e rest)) : t = [] ∧ event = some e ∧ rest.Mute := by
  cases event with
  | none => exact absurd h (mute_done () t e rest)
  | some event =>
    rcases leads_announce.1 h with ⟨rfl, he⟩ | ⟨u, _, hu⟩
    · cases he
      exact ⟨rfl, rfl, mute_done ()⟩
    · exact absurd hu (mute_done () u e rest)

/-- A child that cannot be removed is reported as soon as its removal has failed. -/
theorem removeAll_of_announce {children : List Child} {rest : Pass Unit}
    (h : (removeAll config env ns children).Leads t (.announce e rest)) :
    ∃ before child after u v failure, children = before ++ child :: after ∧ t = u ++ v ∧
      Child.Blocked env (child.address config env ns) failure v ∧
      e = cleanupFailed env child failure ∧ rest = .fail failure := by
  induction children generalizing t with
  | nil => exact absurd h (mute_done () t e rest)
  | cons child children ih =>
    rcases announce_of_bind h with ⟨q, hq, _⟩ | ⟨t₁, t₂, result, rfl, hresult, hr⟩
    · exact absurd hq ((Child.mute_remove child).attempt t e q)
    · cases result with
      | ok =>
        obtain ⟨before, other, after, u, v, failure, rfl, rfl, blocked, he, hrest⟩ := ih hr
        refine ⟨child :: before, other, after, t₁ ++ u, v, failure, rfl, ?_, blocked, he, hrest⟩
        rw [List.append_assoc]
      | error failure =>
        have blocked := Child.breaks_remove.1 (gives_attempt_error.1 hresult)
        rcases leads_announce.1 hr with ⟨rfl, he⟩ | ⟨u, _, hu⟩
        · cases he
          rw [List.append_nil]
          exact ⟨[], child, children, [], t₁, failure, rfl, rfl, blocked, rfl, rfl⟩
        · exact absurd hu (mute_fail failure u e rest)

/-- The release of a record is reported when it is over, or when a child stands in its way. -/
theorem release_of_announce (h : (release config env now).Leads t (.announce e rest)) :
    rest.Mute ∧
      ((∃ child u v failure, t = u ++ v ∧
          Child.Blocked env (child.address config env env.childNamespace) failure v ∧
          e = cleanupFailed env child failure) ∨
        ∃ before latest, t = before ++ [.call (.removeFinalizer latest) (.ok ())] ∧
          e = .cleaning env .normal "CleanupComplete" none) := by
  rcases announce_of_bind h with ⟨q, hq, _⟩ | ⟨mark, t₂, latest, rfl, _, hr⟩
  · exact absurd hq (mute_markTerminating t e q)
  rcases announce_of_bind hr with ⟨q, hq, rfl⟩ | ⟨u, w, _, rfl, _, hd⟩
  · obtain ⟨before, child, after, u, v, failure, _, rfl, blocked, he, rfl⟩ :=
      removeAll_of_announce hq
    refine ⟨mute_fail failure, .inl ⟨child, mark ++ u, v, failure, ?_, blocked, he⟩⟩
    rw [List.append_assoc]
  rcases announce_of_bind hd with ⟨q, hq, _⟩ | ⟨t₃, t₄, _, rfl, hq, hlast⟩
  · exact absurd hq (mute_request _ w e q)
  obtain rfl := gives_request.1 hq
  rcases leads_announce.1 hlast with ⟨rfl, he⟩ | ⟨v, _, hv⟩
  · cases he
    refine ⟨mute_done _, .inr ⟨mark ++ u, latest, ?_, rfl⟩⟩
    rw [List.append_assoc, List.append_nil]
  · exact absurd hv (mute_done _ v e rest)

theorem written_of_gives {next : Status} {updated : Environment}
    (h : (writeChanged env current next now).Gives t (some updated)) :
    t = [.call (.patchStatus env (next.stamped now)) (.ok updated)] := by
  unfold writeChanged at h
  split at h
  · obtain ⟨t₁, t₂, answer, rfl, hanswer, hd⟩ := gives_bind.1 h
    obtain rfl := gives_request.1 hanswer
    obtain ⟨rfl, he⟩ := gives_done.1 hd
    cases he
    rfl
  · cases (gives_done.1 h).2

theorem refuse_of_announce {fault : Failure}
    (h : (refuse env fault now).Leads t (.announce e rest)) :
    rest.Mute ∧ ∃ status updated,
      Status.refused? env env.known fault.message now = some status ∧
      t = [.call (.patchStatus env (status.stamped now)) (.ok updated)] ∧
      e = .converging env .warning "InvalidSpec" (some fault.message) := by
  rcases announce_of_bind h with ⟨q, hq, _⟩ | ⟨t₁, t₂, status, rfl, hstatus, hr⟩
  · exact absurd hq (mute_ofTime _ t e q)
  obtain ⟨rfl, made⟩ := gives_ofTime.1 hstatus
  rcases announce_of_bind hr with ⟨q, hq, _⟩ | ⟨t₃, t₄, written, rfl, hwritten, hd⟩
  · exact absurd hq (mute_writeChanged _ e q)
  cases written with
  | none => exact absurd hd (mute_done _ t₄ e rest)
  | some updated =>
    obtain rfl := written_of_gives hwritten
    rcases leads_announce.1 hd with ⟨rfl, he⟩ | ⟨u, _, hu⟩
    · cases he
      exact ⟨mute_done _, status, updated, made, rfl, rfl⟩
    · exact absurd hu (mute_done _ u e rest)

/-- What a pass announces at its end is the phase that it has just written. -/
theorem conclude_of_announce
    (h : (conclude config env current found now).Leads t (.announce e rest)) :
    rest.Mute ∧ ∃ next updated p, t = [.call (.patchStatus env next) (.ok updated)] ∧
      next.phase = some p ∧ current.phase ≠ some p ∧ (e.reason, p) ∈ heralds := by
  obtain ⟨ending, hending, heq⟩ := exists_ending config env current found now
  have hend : ending.Mute := by
    rcases hending with ⟨e, _, rfl⟩ | ⟨_, rfl⟩
    · exact mute_fail e
    · exact mute_done _
  rw [heq] at h
  rcases announce_of_bind h with ⟨q, hq, _⟩ | ⟨t₁, t₂, written, rfl, hwritten, hr⟩
  · exact absurd hq (mute_writeChanged t e q)
  split at hr
  · next hcond =>
    obtain ⟨hsome, hchanged⟩ := hcond
    obtain ⟨updated, rfl⟩ := Option.isSome_iff_exists.1 hsome
    obtain rfl := written_of_gives hwritten
    rcases announce_of_bind hr with ⟨q, hq, rfl⟩ | ⟨_, t₃, _, _, _, hd⟩
    · obtain ⟨rfl, hevent, hmute⟩ := reportIf_of_announce hq
      obtain ⟨p, hp, herald⟩ := herald_of_phaseEvent hevent
      refine ⟨mute_bind hmute fun _ => hend, _, updated, p, rfl, hp, ?_, herald⟩
      exact hp ▸ hchanged
    · exact absurd hd (hend t₃ e rest)
  · exact absurd hr (hend t₂ e rest)

/-! ## The phase that is stored -/

theorem persisted_append_aside {t u : List Deed} (h : ∀ d ∈ u, d.isAside = true) :
    persisted (t ++ u) = persisted t := by
  have hfold (phase : Option Phase) : u.foldl Deed.stored phase = phase := by
    induction u with
    | nil => rfl
    | cons d u ih =>
      obtain ⟨hd, hu⟩ := List.forall_mem_cons.1 h
      have hsame : Deed.stored phase d = phase := by
        cases d with
        | event | measurement => rfl
        | call c answer =>
          cases c with
          | apply | getObject | deleteObject | listPods => rfl
          | _ => cases hd
      rw [List.foldl_cons, hsame]
      exact ih hu
  rw [persisted, List.foldl_append, hfold, persisted]

/-- A pass works with the phase that is stored. -/
theorem persisted_entered (h : Entered config env now u latest status) :
    persisted (read notice ns env :: u) = status.phase := by
  cases h with
  | known =>
    show env.phase? = _
    unfold Environment.phase? Environment.known
    cases env.status <;> rfl
  | accepted => rfl

/-! ## Convergence -/

/-- Only a phase is announced, and nothing after it. -/
def Heralding {α : Type} (p : Pass α) : Prop :=
  ∀ t e rest, p.Leads t (.announce e rest) → (∃ q, (e.reason, q) ∈ heralds) ∧ rest.Mute

theorem heralding_conclude : Heralding (conclude config env current found now) := by
  intro t e rest h
  obtain ⟨hmute, _, _, p, _, _, _, herald⟩ := conclude_of_announce h
  exact ⟨⟨p, herald⟩, hmute⟩

theorem heralding_after {α β : Type} {p : Pass α} {f : α → Pass β} (hp : p.Mute)
    (hf : ∀ a, Heralding (f a)) : Heralding (p.bind f) := by
  intro t e rest h
  rcases announce_of_bind h with ⟨q, hq, _⟩ | ⟨_, t₂, a, _, _, hr⟩
  · exact absurd hq (hp t e q)
  · exact hf a t₂ e rest hr

/-- What a pass finds out about the children after it has reported on them. -/
def gather (config : Config) (env : Environment) (ns : String) (fault : Option Failure) :
    Pass Findings :=
  (costOf config env ns).bind fun cost =>
  (healthOf config env).bind fun health => .done ⟨fault, cost, health⟩

theorem look_eq (fault : Option Failure) : look config env ns fault =
    (reportIf (fault.map (unplaced env))).bind fun _ => gather config env ns fault := rfl

theorem mute_gather (fault : Option Failure) : (gather config env ns fault).Mute :=
  mute_bind mute_costOf fun _ => mute_bind mute_healthOf fun _ => mute_done _

theorem look_of_announce {fault : Option Failure} {rest : Pass Findings}
    (h : (look config env ns fault).Leads t (.announce e rest)) :
    t = [] ∧ fault.map (unplaced env) = some e ∧ rest.Mute := by
  rw [look_eq] at h
  rcases announce_of_bind h with ⟨q, hq, rfl⟩ | ⟨_, t₂, _, _, _, hr⟩
  · obtain ⟨rfl, hevent, hmute⟩ := reportIf_of_announce hq
    exact ⟨rfl, hevent, mute_bind hmute fun _ => mute_gather fault⟩
  · exact absurd hr (mute_gather fault t₂ e rest)

/-- A pass reports that children could not be put in place when all have been tried, and a phase
when it has been written. -/
theorem converge_of_announce (h : (converge config env now).Leads t (.announce e rest)) :
    ∃ u v latest status, Entered config env now u latest status ∧
      ((∃ results first, t = u ++ v ∧
          Ensured config latest (spaceOf latest status) Child.all v results ∧
          firstFailure? results = some first ∧ e = unplaced latest first ∧ Heralding rest) ∨
        ∃ next updated p, t = u ++ v ++ [.call (.patchStatus latest next) (.ok updated)] ∧
          (∀ d ∈ v, d.isAside = true) ∧ next.phase = some p ∧ status.phase ≠ some p ∧
          (e.reason, p) ∈ heralds ∧ rest.Mute) := by
  rw [converge_eq] at h
  rcases announce_of_bind h with ⟨q, hq, _⟩ | ⟨u, t₂, ⟨latest, status⟩, rfl, hu, hr⟩
  · exact absurd hq (mute_firstContact t e q)
  have entered := gives_firstContact hu
  rcases announce_of_bind hr with ⟨q, hq, rfl⟩ | ⟨v, w, found, rfl, hv, hw⟩
  · rw [survey_eq] at hq
    rcases announce_of_bind hq with ⟨q', hq', _⟩ | ⟨v, w, fault, rfl, hv, hw⟩
    · exact absurd hq' (mute_ensureAll _ t₂ e q')
    obtain ⟨rfl, hevent, hmute⟩ := look_of_announce hw
    obtain ⟨results, ensured, rfl⟩ := gives_ensureAll.1 hv
    obtain ⟨first, hfirst, rfl⟩ := Option.map_eq_some_iff.1 hevent
    have hrest := heralding_after hmute fun found =>
      (heralding_conclude : Heralding (conclude config latest status found now))
    refine ⟨u, v, latest, status, entered, .inl ⟨results, first, ?_, ensured, hfirst, rfl, hrest⟩⟩
    rw [List.append_nil]
  · obtain ⟨hmute, next, updated, p, rfl, hnext, hchanged, herald⟩ := conclude_of_announce hw
    have aside := Leads.isAside hv makes_survey_aside
    refine ⟨u, v, latest, status, entered, .inr ⟨next, updated, p, ?_, aside, hnext, hchanged,
      herald, hmute⟩⟩
    rw [List.append_assoc]

/-! ## Occasions -/

/-- In a pass over a record that is being deleted, a child could not be read or removed. -/
inductive RemovalFailed (config : Config) (notice : Metadata) :
    List Deed → Environment → Child → Failure → Prop where
  | mk {ns : String} {env : Environment} {child : Child} {e : Failure} {t : List Deed} {c : Call}
      (place : notice.ns = some ns) (deleting : env.metadata.isDeleting = true)
      (held : env.hasFinalizer = true)
      (touched : c = .getObject (child.address config env env.childNamespace) ∨
        c = .deleteObject (child.address config env env.childNamespace))
      (failed : .call c (.error e) ∈ t) :
    RemovalFailed config notice (read notice ns env :: t) env child e

/-- When an event is published: what has happened in the pass before it. -/
inductive Occasion (config : Config) (notice : Metadata) (now : Instant) :
    List Deed → Event → Prop where
  /-- A phase has just been written, and another one was stored before. -/
  | reached {before : List Deed} {env updated : Environment} {status : Status} {p : Phase}
      {e : Event} (herald : (e.reason, p) ∈ heralds) (written : status.phase = some p)
      (changed : persisted before ≠ some p) :
    Occasion config notice now (before ++ [.call (.patchStatus env status) (.ok updated)]) e
  /-- The status of a spec that is not valid has just been written. -/
  | refused {ns : String} {env updated : Environment} {fault : Failure} {status : Status}
      (invalid : env.spec.validate notice.anyName = .error fault)
      (made : Status.refused? env env.known fault.message now = some status) :
    Occasion config notice now
      [read notice ns env, .call (.patchStatus env (status.stamped now)) (.ok updated)]
      (.converging env .warning "InvalidSpec" (some fault.message))
  /-- All children have been tried, and this was the first failure. -/
  | unplaced {t : List Deed} {latest : Environment} {status : Status}
      {results : List (Except Failure Unit)} {first : Failure}
      (tried : Attempted config notice now t latest status results)
      (failed : firstFailure? results = some first) :
    Occasion config notice now t (unplaced latest first)
  /-- A child stands in the way of the record's release. -/
  | stuck {t : List Deed} {env : Environment} {child : Child} {e : Failure}
      (failed : RemovalFailed config notice t env child e) :
    Occasion config notice now t (cleanupFailed env child e)
  /-- The record has just been let go. -/
  | released {before : List Deed} {env latest : Environment} :
    Occasion config notice now (before ++ [.call (.removeFinalizer latest) (.ok ())])
      (.cleaning env .normal "CleanupComplete" none)

/-- What is reported in a whole pass of children that could not be put in place. -/
inductive Placing (config : Config) (notice : Metadata) (now : Instant) :
    List Deed → List Event → Prop where
  | untried {t : List Deed}
      (never : ∀ u latest status, u <+: t → ¬Entering config notice now u latest status) :
    Placing config notice now t []
  | tried {u v : List Deed} {latest : Environment} {status : Status}
      {results : List (Except Failure Unit)}
      (tried : Attempted config notice now u latest status results) :
    Placing config notice now (u ++ v) ((firstFailure? results).map (unplaced latest)).toList

theorem RemovalFailed.append {env : Environment} {child : Child} {e : Failure} (v : List Deed)
    (h : RemovalFailed config notice t env child e) :
    RemovalFailed config notice (t ++ v) env child e := by
  cases h with
  | mk place deleting held touched failed =>
    exact .mk place deleting held touched (List.mem_append_left v failed)

theorem removalFailed_of_blocked {child : Child} {e : Failure} (place : notice.ns = some ns)
    (deleting : env.metadata.isDeleting = true) (held : env.hasFinalizer = true)
    (blocked : Child.Blocked env (child.address config env env.childNamespace) e u) :
    RemovalFailed config notice (read notice ns env :: (t ++ u)) env child e := by
  cases blocked with
  | unread => exact .mk place deleting held (.inl rfl) (by simp)
  | undeleted => exact .mk place deleting held (.inr rfl) (by simp)

/-! ## The whole pass -/

theorem step_of_free {name : String} (staying : env.metadata.isDeleting = false)
    (free : env.hasFinalizer = false) : step config name env now =
      (request (.addFinalizer env)).bind fun _ => .done (.after 0) := by
  unfold step
  rw [staying, free]
  rfl

/-- What a pass publishes has its occasion, and only what is reported of the children can be
followed by another event. -/
theorem step_of_announce (place : notice.ns = some ns)
    (h : (step config notice.anyName env now).Leads t (.announce e rest)) :
    Occasion config notice now (read notice ns env :: t) e ∧
      (rest.Mute ∨ e.reason = "MaterializeFailed" ∧ Heralding rest) := by
  by_cases hdeleting : env.metadata.isDeleting = true
  · by_cases held : env.hasFinalizer = true
    · rw [step_of_leaving hdeleting held] at h
      obtain ⟨hmute, ⟨child, u, v, failure, rfl, blocked, rfl⟩ | ⟨before, latest, rfl, rfl⟩⟩ :=
        release_of_announce h
      · exact ⟨.stuck (removalFailed_of_blocked place hdeleting held blocked), .inl hmute⟩
      · have released : Occasion config notice now
            ((read notice ns env :: before) ++ [.call (.removeFinalizer latest) (.ok ())])
            (.cleaning env .normal "CleanupComplete" none) := .released
        exact ⟨released, .inl hmute⟩
    · rw [step_of_released hdeleting (Bool.eq_false_iff.2 held)] at h
      exact absurd h (mute_done _ t e rest)
  have staying : env.metadata.isDeleting = false := Bool.eq_false_iff.2 hdeleting
  by_cases held : env.hasFinalizer = true
  · cases valid : env.spec.validate notice.anyName with
    | error fault =>
      rw [step_of_refused staying held valid] at h
      obtain ⟨hmute, status, updated, made, rfl, rfl⟩ := refuse_of_announce h
      exact ⟨.refused valid made, .inl hmute⟩
    | ok =>
      rw [step_of_valid staying held valid] at h
      obtain ⟨u, v, latest, status, entered, hwhat⟩ := converge_of_announce h
      rcases hwhat with ⟨results, first, rfl, ensured, hfirst, rfl, hrest⟩ |
        ⟨next, updated, p, rfl, aside, hnext, hchanged, herald, hmute⟩
      · exact ⟨.unplaced (.mk place staying held valid entered ensured) hfirst, .inr ⟨rfl, hrest⟩⟩
      · have hstored : persisted (read notice ns env :: (u ++ v)) = status.phase := by
          rw [← List.cons_append, persisted_append_aside aside, persisted_entered entered]
        rw [← hstored] at hchanged
        exact ⟨.reached herald hnext hchanged, .inl hmute⟩
  · rw [step_of_free staying (Bool.eq_false_iff.2 held)] at h
    have hmute : ((request (.addFinalizer env)).bind fun _ =>
        .done (.after 0) : Pass Requeue).Mute := mute_bind (mute_request _) fun _ => mute_done _
    exact absurd h (hmute t e rest)

theorem heralding_account (h : Heralding rest) : Heralding (rest.attempt.bind account) := by
  intro t e q ht
  rcases announce_of_bind ht with ⟨q', hq', rfl⟩ | ⟨_, t₂, x, _, _, hr⟩
  · obtain ⟨r, hr, rfl⟩ := announce_of_attempt hq'
    obtain ⟨herald, hmute⟩ := h t e r hr
    exact ⟨herald, mute_bind hmute.attempt mute_account⟩
  · exact absurd hr (mute_account x t₂ e q)

theorem pass_of_announce (h : (pass config notice now).Leads t (.announce e rest)) :
    Occasion config notice now t e ∧
      (rest.Mute ∨ e.reason = "MaterializeFailed" ∧ Heralding rest) := by
  rw [pass_eq_account] at h
  rcases announce_of_bind h with ⟨q, hq, rfl⟩ | ⟨_, t₂, x, _, _, hr⟩
  · obtain ⟨r, hr, rfl⟩ := announce_of_attempt hq
    cases place : notice.ns with
    | none =>
      obtain ⟨failure, hfail⟩ := act_of_nowhere config place now
      rw [hfail] at hr
      exact absurd hr (mute_fail failure t e r)
    | some ns =>
      rw [act_eq place] at hr
      rcases announce_of_bind hr with ⟨q, hq, _⟩ | ⟨t₁, u, found, rfl, hfound, hu⟩
      · exact absurd hq (mute_request _ t e q)
      obtain rfl := gives_request.1 hfound
      cases found with
      | none => exact absurd hu (mute_done _ u e r)
      | some env =>
        obtain ⟨occasion, hrest⟩ := step_of_announce place hu
        refine ⟨occasion, hrest.imp (fun hmute => ?_) (And.imp_right heralding_account)⟩
        exact mute_bind hmute.attempt mute_account
  · exact absurd hr (mute_account x t₂ e rest)

theorem Heralding.published {α : Type} {p q : Pass α} (hp : Heralding p) (h : p.Leads t q) :
    published t = [] ∨ ∃ e p, published t = [e] ∧ (e.reason, p) ∈ heralds := by
  rcases first_event h with hnone | ⟨u, e, v, rest, hpub, hu, hv⟩
  · exact .inl hnone
  · obtain ⟨⟨p, herald⟩, hmute⟩ := hp u e rest hu
    rw [hmute.published hv] at hpub
    exact .inr ⟨e, p, hpub, herald⟩

/-- The words that announce a phase announce nothing else. -/
theorem reason_of_herald {p : Phase} (h : (e.reason, p) ∈ heralds) :
    e.reason ∉ ["MaterializeFailed", "InvalidSpec", "CleanupFailed", "CleanupComplete"] := by
  have hall : ∀ herald ∈ heralds, herald.1 ∉
      ["MaterializeFailed", "InvalidSpec", "CleanupFailed", "CleanupComplete"] := by decide
  exact hall _ h

/-- Whether an event announces a phase. -/
def announcesPhase (e : Event) : Bool := (heralds.lookup e.reason).isSome

theorem published_once {q : Pass Requeue} (h : (pass config notice now).Leads t q) :
    (published t).countP announcesPhase ≤ 1 := by
  rcases first_event h with hnone | ⟨u, e, v, rest, hpub, hu, hv⟩
  · rw [hnone]
    exact Nat.zero_le 1
  · rw [hpub, List.countP_cons]
    rcases (pass_of_announce hu).2 with hmute | ⟨hreason, hherald⟩
    · rw [hmute.published hv]
      split <;> simp
    · have hfirst : announcesPhase e = false := by
        rw [announcesPhase, hreason]
        decide
      rw [hfirst]
      rcases hherald.published hv with hnone | ⟨e', _, hone, _⟩
      · rw [hnone]
        simp
      · rw [hone]
        exact List.countP_le_length

theorem occasion_of_leads {v : List Deed} {q : Pass Requeue}
    (h : (pass config notice now).Leads (u ++ .event e :: v) q) :
    Occasion config notice now u e := by
  obtain ⟨rest, hrest, _⟩ := announce_of_leads h
  exact (pass_of_announce hrest).1

theorem exists_occasion {q : Pass Requeue} (h : (pass config notice now).Leads t q)
    (he : e ∈ published t) : ∃ u v, t = u ++ v ∧ Occasion config notice now u e := by
  obtain ⟨u, v, rfl⟩ := List.append_of_mem (mem_published.1 he)
  exact ⟨u, _, rfl, occasion_of_leads h⟩

/-! ## Failures of children -/

theorem Occasion.of_unplaced (h : Occasion config notice now t e)
    (reason : e.reason = "MaterializeFailed") :
    ∃ latest status results first, Attempted config notice now t latest status results ∧
      firstFailure? results = some first ∧ e = Reconcile.unplaced latest first := by
  cases h with
  | reached herald =>
    have hapart := reason_of_herald herald
    rw [reason] at hapart
    exact absurd hapart (by decide)
  | unplaced tried failed => exact ⟨_, _, _, _, tried, failed, rfl⟩
  | refused | stuck | released => simp [Event.converging, Event.cleaning, cleanupFailed] at reason

theorem Occasion.of_stuck (h : Occasion config notice now t e)
    (reason : e.reason = "CleanupFailed") :
    ∃ env child failure, RemovalFailed config notice t env child failure ∧
      e = cleanupFailed env child failure := by
  cases h with
  | reached herald =>
    have hapart := reason_of_herald herald
    rw [reason] at hapart
    exact absurd hapart (by decide)
  | stuck failed => exact ⟨_, _, _, failed, rfl⟩
  | refused | unplaced | released =>
    simp [Event.converging, Event.cleaning, Reconcile.unplaced] at reason

/-- The removal that has failed is the end of the pass, but for the report. -/
theorem published_of_removalFailed {child : Child} {failure : Failure} {o : Outcome Requeue}
    (ends : (pass config notice now).Leads t o.ending)
    (h : RemovalFailed config notice t env child failure) :
    cleanupFailed env child failure ∈ published t := by
  cases h with
  | @mk ns env child failure t c place deleting held touched failed =>
    obtain ⟨u, v, rfl⟩ := List.append_of_mem failed
    rw [List.append_cons, ← List.cons_append] at ends
    obtain ⟨rest, hrest, hv⟩ := ends.split
    obtain ⟨_, other, _, htarget, rfl⟩ := givenUp_of_failure touched deleting hrest
    obtain rfl := Child.address_inj htarget
    rcases leads_announce.1 hv with ⟨_, he⟩ | ⟨w, rfl, _⟩
    · cases o <;> cases he
    · exact mem_published.2 (by simp)

/-- When two passes in a row have come to an end, the first one has. -/
theorem ends_bind {α β : Type} {p : Pass α} {f : α → Pass β} {o : Outcome β}
    (h : (p.bind f).Leads t o.ending) : ∃ u o', u <+: t ∧ p.Leads u (Outcome.ending o') := by
  rcases leads_bind.1 h with ⟨q, hq, he⟩ | ⟨t₁, t₂, a, rfl, ha, _⟩
  · cases q with
    | done a => exact ⟨t, .done a, List.prefix_refl t, hq⟩
    | fail e => exact ⟨t, .failed e, List.prefix_refl t, hq⟩
    | overflow => exact ⟨t, .overflow, List.prefix_refl t, hq⟩
    | call | announce | count => cases o <;> cases he
  · exact ⟨t₁, .done a, List.prefix_append t₁ t₂, ha⟩

theorem ends_attempt {α : Type} {p : Pass α} {o : Outcome (Except Failure α)}
    (h : p.attempt.Leads t o.ending) : ∃ o', p.Leads t (Outcome.ending o') := by
  obtain ⟨q, hq, he⟩ := leads_attempt.1 h
  cases q with
  | done a => exact ⟨.done a, hq⟩
  | fail e => exact ⟨.failed e, hq⟩
  | overflow => exact ⟨.overflow, hq⟩
  | call | announce | count => cases o <;> cases he

theorem finishes_ensureAll {good : Deed → Prop} (children : List Child) :
    (ensureAll config env ns children).Finishes good fun o => ∃ a, o = .done a ∧ True := by
  induction children with
  | nil => exact finishes_done ⟨none, rfl, trivial⟩
  | cons child children ih =>
    have hfirst : (child.ensure config env ns).attempt.Finishes good
        fun o => ∃ a, o = .done a ∧ True := by
      refine finishes_attempt (Child.neverOverflows_ensure child).finishes fun o ho => ?_
      cases o with
      | overflow => exact absurd rfl ho
      | done | failed => exact ⟨_, rfl, trivial⟩
    refine finishes_after hfirst fun result _ => ?_
    cases result with
    | ok => exact ih
    | error e => exact finishes_after ih fun _ _ => finishes_done ⟨_, rfl, trivial⟩

/-- A whole pass that has come to put children in place tries all of them. -/
theorem Entering.attempted {v : List Deed} {o : Outcome Requeue}
    (h : Entering config notice now u latest status)
    (ends : (pass config notice now).Leads (u ++ v) o.ending) :
    ∃ w results, w <+: u ++ v ∧ Attempted config notice now w latest status results := by
  obtain ⟨rest, hrest, hv⟩ := ends.split
  obtain rfl := h.leads.unique hrest
  obtain ⟨v₁, o₁, hle₁, hv₁⟩ := ends_bind hv
  obtain ⟨o₂, hv₂⟩ := ends_attempt hv₁
  obtain ⟨w, o₃, hle, hw⟩ := ends_bind hv₂
  obtain ⟨fault, rfl, _⟩ := finishes_ensureAll Child.all w o₃ hw fun _ _ => trivial
  obtain ⟨results, ensured, _⟩ := gives_ensureAll.1 hw
  refine ⟨u ++ w, results, ?_, attempted_iff.2 ⟨u, w, h, ensured, rfl⟩⟩
  exact (List.prefix_append_right_inj u).2 (hle.trans hle₁)

theorem Attempted.published {results : List (Except Failure Unit)}
    (h : Attempted config notice now t latest status results) : published t = [] := by
  obtain ⟨u, v, entering, ensured, rfl⟩ := attempted_iff.1 h
  have hv := (mute_ensureAll _).published (gives_ensureAll.2 ⟨results, ensured, rfl⟩)
  rw [published_append, hv, List.append_nil]
  cases entering with
  | mk _ _ _ _ entered =>
    cases entered <;> rfl

/-- The events about children that could not be put in place. -/
def placingEvents (t : List Deed) : List Event :=
  (published t).filter (·.reason == "MaterializeFailed")

theorem Heralding.placingEvents {α : Type} {p q : Pass α} (hp : Heralding p) (h : p.Leads t q) :
    placingEvents t = [] := by
  unfold Reconcile.placingEvents
  rcases hp.published h with hnone | ⟨e, _, hone, herald⟩
  · rw [hnone]
    rfl
  · have hother : (e.reason == "MaterializeFailed") = false :=
      beq_false_of_ne fun he => reason_of_herald herald (he ▸ List.mem_cons_self)
    rw [hone, List.filter_cons_of_neg (by simp [hother]), List.filter_nil]

/-- What is left of a pass after it has tried all children begins with the report of the first
failure, if there is one. -/
theorem placingEvents_remainder {fault : Option Failure} {o : Outcome Requeue}
    (h : ((remainder config env status fault now).attempt.bind account).Leads t o.ending) :
    placingEvents t = (fault.map (unplaced env)).toList := by
  have hrest : Heralding ((gather config env (spaceOf env status) fault).bind fun found =>
      conclude config env status found now) :=
    heralding_after (mute_gather fault) fun _ => heralding_conclude
  cases fault with
  | none => exact (heralding_account hrest).placingEvents h
  | some first =>
    rcases leads_announce.1 h with ⟨_, he⟩ | ⟨u, rfl, hu⟩
    · cases o <;> cases he
    · have hlater := (heralding_account hrest).placingEvents hu
      show unplaced env first :: placingEvents u = _
      rw [hlater]
      rfl

theorem placing_of_ends {o : Outcome Requeue} (ends : (pass config notice now).Leads t o.ending) :
    Placing config notice now t (placingEvents t) := by
  by_cases h : ∃ u latest status, u <+: t ∧ Entering config notice now u latest status
  · obtain ⟨u, latest, status, ⟨v, rfl⟩, entering⟩ := h
    obtain ⟨w, results, ⟨x, hx⟩, tried⟩ := entering.attempted ends
    rw [← hx] at ends ⊢
    obtain ⟨rest, hrest, hlast⟩ := ends.split
    obtain rfl := tried.leads.unique hrest
    have hall : placingEvents (w ++ x) = placingEvents x := by
      rw [placingEvents, published_append, tried.published, List.nil_append, placingEvents]
    rw [hall, placingEvents_remainder hlast]
    exact .tried tried
  · have hnone : placingEvents t = [] := by
      refine List.filter_eq_nil_iff.2 fun e he hreason => h ?_
      obtain ⟨u, v, rfl, occasion⟩ := exists_occasion ends he
      obtain ⟨latest, status, results, _, tried, _⟩ := occasion.of_unplaced (eq_of_beq hreason)
      obtain ⟨w, x, entering, _, rfl⟩ := attempted_iff.1 tried
      refine ⟨w, latest, status, ?_, entering⟩
      rw [List.append_assoc]
      exact List.prefix_append _ _
    rw [hnone]
    exact .untried fun u latest status hu entering => h ⟨u, latest, status, hu, entering⟩

/-! ## Truthfulness -/

/-- Events report what has been written and what has failed, and nothing else. -/
structure Truthful (config : Config) (notice : Metadata) (now : Instant) : Prop where
  /-- Whatever is published has its occasion. -/
  grounded : ∀ u e v rest, (pass config notice now).Leads (u ++ .event e :: v) rest →
    Occasion config notice now u e
  /-- No more than one phase is announced in a pass. -/
  once : ∀ t rest, (pass config notice now).Leads t rest →
    (published t).countP announcesPhase ≤ 1
  /-- A whole pass reports a removal exactly if it has failed. -/
  removals : ∀ t (o : Outcome Requeue), (pass config notice now).Leads t o.ending → ∀ e,
    e ∈ published t ∧ e.reason = "CleanupFailed" ↔ ∃ env child failure,
      RemovalFailed config notice t env child failure ∧ e = cleanupFailed env child failure
  /-- A whole pass reports the first child that could not be put in place, and no other one. -/
  placings : ∀ t (o : Outcome Requeue), (pass config notice now).Leads t o.ending →
    Placing config notice now t (placingEvents t)
  /-- Where nothing is written and nothing fails, nothing is published. -/
  quiet : ∀ t rest, (pass config notice now).Leads t rest →
    (∀ env status updated, .call (.patchStatus env status) (.ok updated) ∉ t) →
    (∀ env, .call (.removeFinalizer env) (.ok ()) ∉ t) →
    (∀ u latest status results, u <+: t → Attempted config notice now u latest status results →
      firstFailure? results = none) →
    (∀ env child e, ¬RemovalFailed config notice t env child e) → published t = []

/-- Every pass over a record is truthful in what it publishes, whatever the answers to its calls
are. -/
theorem events_truthful (config : Config) (notice : Metadata) (now : Instant) :
    Truthful config notice now where
  grounded _ _ _ _ h := occasion_of_leads h
  once _ _ h := published_once h
  removals t o ends e := by
    constructor
    · rintro ⟨he, hreason⟩
      obtain ⟨u, v, rfl, occasion⟩ := exists_occasion ends he
      obtain ⟨env, child, failure, failed, rfl⟩ := occasion.of_stuck hreason
      exact ⟨env, child, failure, failed.append v, rfl⟩
    · rintro ⟨env, child, failure, failed, rfl⟩
      exact ⟨published_of_removalFailed ends failed, rfl⟩
  placings _ _ ends := placing_of_ends ends
  quiet t rest h unwritten unreleased placed removed := by
    refine List.eq_nil_iff_forall_not_mem.2 fun e he => ?_
    obtain ⟨u, v, rfl, occasion⟩ := exists_occasion h he
    cases occasion with
    | @reached before env updated status => exact unwritten env status updated (by simp)
    | @refused ns env updated fault status =>
      exact unwritten env (status.stamped now) updated (by simp)
    | unplaced tried failed =>
      have hnone := placed _ _ _ _ (List.prefix_append _ _) tried
      rw [hnone] at failed
      cases failed
    | stuck failed => exact removed _ _ _ (failed.append v)
    | @released before env latest => exact unreleased latest (by simp)

/-- An ingress that cannot be read is reported, in the words of the failure. -/
theorem events_truthful_leaving :
    ∃ t, (pass {} leaving.metadata default).Leads t (Outcome.failed Failure.client).ending ∧
      Occasion {} leaving.metadata default
        [read leaving.metadata "previews" leaving,
         .call (.getObject (Child.descriptorAddress 5 {})) (.ok none),
         .call (.getObject (Child.ingressAddress "pr-5-0a1b2c")) (.error .client)]
        (cleanupFailed leaving .ingress .client) ∧
      cleanupFailed leaving .ingress .client ∈ published t ∧ placingEvents t = [] := by
  have held : leaving.hasFinalizer = true := by decide
  have marked : Marked leaving default [] leaving := .already rfl
  have cleared : ClearedAll {} leaving leaving.childNamespace [.descriptor] _ :=
    .cons .absent .nil
  have blocked : Child.Blocked leaving
      (Child.address {} leaving leaving.childNamespace .ingress) .client _ := .unread
  have hstuck := leads_pass_blocked (show leaving.metadata.ns = some "previews" from rfl) rfl held
    marked rfl cleared blocked
  have ends := hstuck.trans (.announce (.count (.count (.start (.fail .client)))))
  have truthful := events_truthful {} leaving.metadata default
  have hreported := (truthful.removals _ (.failed .client) ends _).2
    ⟨leaving, .ingress, .client, .mk rfl rfl held (.inl rfl) (by simp), rfl⟩
  exact ⟨_, ends, truthful.grounded _ _ _ _ ends, hreported.1, rfl⟩

end Reconcile
end PreviewControl
