import PreviewControl.Proofs.StatusLaws
import PreviewControl.Proofs.Survey

/-!
# What a pass settles

A pass over a valid record, and one over a record whose spec cannot be acted on, leave the record
with a status that asks for no other one. What the pass finds out is found out the same again, on
the cluster as it has been left and with the same calls failing.
-/
namespace PreviewControl

namespace Reconcile

open Pass

variable {config : Config} {env : Environment} {s left : Store} {t₁ t₂ : Instant}

/-- The cluster that the next pass finds: as it has been left, but with the faults from before and
at another time. -/
def resumed (s left : Store) (now : Instant) : Store := { left with faults := s.faults, now := now }

/-! ## Writes of a status -/

/-- An accepted write stores the status and touches nothing else. -/
theorem answer_patchStatus {status : Status} {updated : Environment}
    (there : s.record? env.key = some env)
    (ok : (s.answer (.patchStatus env status)).1 = .ok updated) :
    (∃ v, updated = restated env v (some status)) ∧
      (s.answer (.patchStatus env status)).2 = s.putRecord env.key updated := by
  have hcurrent := Store.current_self there
  cases hs : Fault.strike (.patchStatus env status) s.faults with
  | some hit =>
    rw [Store.answer_of_hit hs rfl] at ok
    cases ok
  | none =>
    rw [Store.answer_of_miss hs rfl] at ok ⊢
    simp only [Store.serve, hcurrent] at ok ⊢
    cases ok
    exact ⟨bump_restated env (some status), rfl⟩

/-- A status is written in the end, or it is stored already. -/
theorem after_writeChanged {current next : Status} (there : s.record? env.key = some env)
    (acc : (writeChanged env current next t₁).Accepted s) :
    (current.differs next = false ∧ (writeChanged env current next t₁).after s = s) ∨
      ∃ v, (writeChanged env current next t₁).after s =
        s.putRecord env.key (restated env v (some (next.stamped t₁))) := by
  unfold writeChanged at acc ⊢
  cases hd : current.differs next with
  | false => exact .inl ⟨rfl, rfl⟩
  | true =>
    rw [hd] at acc
    obtain ⟨updated, ok⟩ := accepted_request acc.left
    obtain ⟨⟨v, rfl⟩, hafter⟩ := answer_patchStatus there ok
    refine .inr ⟨v, ?_⟩
    rw [← hafter, ← after_request]
    exact after_bind_same fun _ _ => rfl

theorem writeChanged_of_not_differs {current next : Status} (h : current.differs next = false)
    (now : Instant) : writeChanged env current next now = .done none := by
  unfold writeChanged
  rw [h]
  rfl

/-! ## Convergence -/

section

variable {current : Status} {found : Findings}

/-- The status that a pass means to leave. -/
def aim (config : Config) (env : Environment) (current : Status) (found : Findings)
    (now : Instant) : Status :=
  Status.next env current (found.observation (spaceOf env current)) config now

theorem aim_ns : (aim config env current found t₁).ns = some (spaceOf env current) := by
  rw [aim, Status.next_ns, spaceOf]
  cases current.ns <;> rfl

/-- A pass that has written the status it means to leave has nothing more to write. -/
theorem aim_aim (v : Option String) {reached : Status}
    (h : reached = aim config env current found t₁ ∨
      reached = (aim config env current found t₁).stamped t₁) (status : Option Status) :
    aim config (restated env v status) reached found t₂ = reached := by
  have hspace : spaceOf env reached = spaceOf env current := by
    have hns : reached.ns = some (spaceOf env current) := by
      rcases h with rfl | rfl
      · exact aim_ns
      · exact aim_ns
    rw [spaceOf, hns, Option.getD_some]
  have hspace' : spaceOf (restated env v status) reached = spaceOf env current := hspace
  rw [aim, hspace', next_restated]
  rcases h with rfl | rfl
  · exact Status.next_next
  · rw [Status.next_stamped]
    exact congrArg _ Status.next_next

/-- The end of a pass writes the status, announces a phase that it has changed, and fails with the
failure of a child or asks to be called again. -/
theorem exists_ending (config : Config) (env : Environment) (current : Status) (found : Findings)
    (now : Instant) : ∃ ending : Pass Requeue,
      ((∃ e, found.fault = some e ∧ ending = .fail e) ∨
        found.fault = none ∧ ending = .done (.after config.requeueSeconds)) ∧
      conclude config env current found now =
        (writeChanged env current (aim config env current found now) now).bind fun written =>
          if written.isSome ∧ current.phase ≠ (aim config env current found now).phase then
            (reportIf (phaseEvent? config env (found.health.bind (·.message))
              (aim config env current found now).phase)).bind fun _ => ending
          else ending := by
  refine ⟨_, ?_, rfl⟩
  cases found.fault with
  | some e => exact .inl ⟨e, rfl, rfl⟩
  | none => exact .inr ⟨rfl, rfl⟩

theorem conclude_eq (config : Config) (env : Environment) (current : Status) (found : Findings)
    (now : Instant) : ∃ rest : Option Environment → Pass Requeue,
    (∀ written, (rest written).Makes fun _ => False) ∧
      conclude config env current found now =
        (writeChanged env current (aim config env current found now) now).bind rest := by
  obtain ⟨ending, hending, heq⟩ := exists_ending config env current found now
  refine ⟨_, fun written => makes_ending ?_, heq⟩
  rcases hending with ⟨e, _, rfl⟩ | ⟨_, rfl⟩
  · exact makes_fail e
  · exact makes_done _

/-- Where the status asks for no other one, nothing is written. -/
theorem conclude_quiet (h : aim config env current found t₂ = current) :
    (conclude config env current found t₂).Quiet s := by
  obtain ⟨rest, hrest, heq⟩ := conclude_eq config env current found t₂
  rw [heq, h, writeChanged_of_not_differs (Status.differs_self current)]
  exact quiet_of_silent (hrest none) s

/-- The end of a pass leaves the record with a status that asks for no other one, and leaves
everything else alone. -/
theorem conclude_settles (there : s.record? env.key = some env) (known : env.known = current)
    (acc : (conclude config env current found t₁).Accepted s) :
    ∃ v status, ((conclude config env current found t₁).after s).record? env.key =
        some (restated env v status) ∧
      (restated env v status).known.ns = some (spaceOf env current) ∧
      (∀ t₂, aim config (restated env v status) (restated env v status).known found t₂ =
        (restated env v status).known) ∧
      ((conclude config env current found t₁).after s).objects = s.objects ∧
      ((conclude config env current found t₁).after s).pods = s.pods := by
  obtain ⟨rest, hrest, heq⟩ := conclude_eq config env current found t₁
  rw [heq] at acc ⊢
  rw [after_bind_same fun written s => (hrest written).after_eq s]
  rcases after_writeChanged there acc.left with ⟨hd, hafter⟩ | ⟨v, hafter⟩
  · have hsame : current = aim config env current found t₁ :=
      Status.eq_of_not_differs hd Status.next_lastSyncedAt.symm
    refine ⟨env.metadata.resourceVersion, env.status, ?_, ?_, fun t₂ => ?_, ?_, ?_⟩
    · rw [hafter]
      exact there
    · calc env.known.ns = current.ns := by rw [known]
        _ = (aim config env current found t₁).ns := congrArg Status.ns hsame
        _ = some (spaceOf env current) := aim_ns
    · show aim config _ env.known found t₂ = env.known
      exact aim_aim _ (.inl (known.trans hsame)) _
    · rw [hafter]
    · rw [hafter]
  · refine ⟨v, some ((aim config env current found t₁).stamped t₁), ?_, aim_ns, fun t₂ => ?_, ?_,
      ?_⟩
    · rw [hafter, Store.record?_putRecord, if_pos rfl]
    · exact aim_aim _ (.inr rfl) _
    · rw [hafter]
      rfl
    · rw [hafter]
      rfl

/-- What a pass does from the first contact on. -/
def tend (config : Config) (env : Environment) (current : Status) (now : Instant) : Pass Requeue :=
  (survey config env (spaceOf env current)).bind fun found => conclude config env current found now

/-- The record is there in some version, with a namespace, and to tend it again writes nothing. -/
def Tended (config : Config) (env : Environment) (later : Instant) (s left : Store) : Prop :=
  ∃ v status, left.record? env.key = some (restated env v status) ∧
    (restated env v status).known.ns.isSome = true ∧
    ∀ now, (tend config (restated env v status) (restated env v status).known later).Quiet
      (resumed s left now)

theorem tend_settles (there : s.record? env.key = some env) (known : env.known = current)
    (recorded : current.ns.isSome = true) (acc : (tend config env current t₁).Accepted s) :
    Tended config env t₂ s ((tend config env current t₁).after s) := by
  unfold tend at acc ⊢
  have hsteady : (survey config env (spaceOf env current)).Steady _ _ := steady_survey
  have hmid : ((survey config env (spaceOf env current)).after s).record? env.key = some env := by
    rw [Store.record?, makes_survey.records_after]
    exact there
  rcases (survey config env (spaceOf env current)).done_or_not s with ⟨found, hfound⟩ | hne
  · rw [after_bind_done hfound]
    obtain ⟨v, status, hrecord, hns, haim, hobjects, hpods⟩ :=
      conclude_settles hmid known (acc.right hfound)
    refine ⟨v, status, hrecord, by rw [hns]; rfl, fun now => ?_⟩
    have hspace : spaceOf (restated env v status) (restated env v status).known =
        spaceOf env current := by rw [spaceOf, hns, Option.getD_some]
    rw [tend, hspace, survey_restated]
    refine (quiet_of_makes makes_survey _).bind fun found' hfound' => ?_
    -- The second survey finds what the first one has found.
    have hagain := hsteady.again s (resumed s _ now) rfl (hpods.trans (hsteady.pods s))
      fun text _ => congrArg (List.lookup text) hobjects
    rw [hagain.1, hfound] at hfound'
    cases hfound'
    exact conclude_quiet (haim t₂)
  · rw [after_bind_of_ne hne]
    refine ⟨env.metadata.resourceVersion, env.status, hmid, known ▸ recorded, fun now => ?_⟩
    rw [tend]
    refine Quiet.bind (quiet_of_makes makes_survey _) fun found' hfound' => ?_
    have hagain := hsteady.again s (resumed s _ now) rfl (hsteady.pods s) fun _ _ => rfl
    change (survey config env (spaceOf env env.known)).outcome _ = .done found' at hfound'
    rw [known, hagain.1] at hfound'
    exact absurd hfound' (hne found')

theorem converge_of_known (h : env.known.ns.isSome = true) (now : Instant) :
    converge config env now = tend config env env.known now := by
  rw [converge_eq, firstContact, if_pos h]
  rfl

theorem converge_of_accepted (h : env.known.ns = none) {now : Instant}
    {status : Status} (made : Status.accepted? env env.known config now = some status) :
    converge config env now = (request (.patchStatus env status)).bind fun updated =>
      tend config updated status now := by
  rw [converge_eq, firstContact, h]
  simp only [Option.isSome_none, Bool.false_eq_true, if_false, made, ofTime_some, bind_eq,
    bind_done, bind_assoc]
  rfl

theorem converge_of_overflow (h : env.known.ns = none) {now : Instant}
    (made : Status.accepted? env env.known config now = none) :
    converge config env now = .overflow := by
  rw [converge_eq, firstContact, h]
  simp only [Option.isSome_none, Bool.false_eq_true, if_false, made]
  rfl

/-- The record is there in some version, and to put its children in place again writes nothing. -/
def Converged (config : Config) (env : Environment) (later : Instant) (s left : Store) : Prop :=
  ∃ v status, left.record? env.key = some (restated env v status) ∧
    ∀ now, (converge config (restated env v status) later).Quiet (resumed s left now)

theorem Tended.converged (h : Tended config env t₂ s left) : Converged config env t₂ s left := by
  obtain ⟨v, status, hrecord, hns, hquiet⟩ := h
  refine ⟨v, status, hrecord, fun now => ?_⟩
  rw [converge_of_known hns]
  exact hquiet now

theorem converge_settles (there : s.record? env.key = some env) (later : ¬t₂.before t₁ = true)
    (acc : (converge config env t₁).Accepted s) :
    Converged config env t₂ s ((converge config env t₁).after s) := by
  cases hk : env.known.ns with
  | some ns =>
    have hns : env.known.ns.isSome = true := by rw [hk]; rfl
    rw [converge_of_known hns] at acc ⊢
    exact (tend_settles there rfl hns acc).converged
  | none =>
    cases made : Status.accepted? env env.known config t₁ with
    | none =>
      rw [converge_of_overflow hk made]
      refine ⟨env.metadata.resourceVersion, env.status, there, fun now => ?_⟩
      have hover := converge_of_overflow hk (Status.accepted?_none_of_later later made)
      change (converge config env t₂).Quiet _
      rw [hover]
      exact quiet_overflow _
    | some status =>
      rw [converge_of_accepted hk made] at acc ⊢
      obtain ⟨updated, ok⟩ := accepted_request acc.left
      obtain ⟨⟨v, rfl⟩, hafter⟩ := answer_patchStatus there ok
      have hdone : (request (.patchStatus env status)).outcome s =
          .done (restated env v (some status)) := by
        rw [outcome_request, ok]
        rfl
      have hrest := acc.right hdone
      rw [after_bind_done hdone]
      rw [after_request, hafter] at hrest ⊢
      have hthere : (s.putRecord env.key (restated env v (some status))).record? env.key =
          some (restated env v (some status)) := by
        rw [Store.record?_putRecord, if_pos rfl]
      have hns : status.ns.isSome = true := by
        rw [Status.accepted_ns made]
        rfl
      have htended : Tended config (restated env v (some status)) t₂ _ _ :=
        tend_settles hthere rfl hns hrest
      exact htended.converged

end

/-! ## Refusal -/

/-- Reports a refusal if it has been written. -/
theorem refuse_eq (fault : Failure) {next : Status}
    (made : env.known.refused? env fault.message t₁ = some next) :
    ∃ rest : Option Environment → Pass Requeue, (∀ written, (rest written).Makes fun _ => False) ∧
      refuse env fault t₁ = (writeChanged env env.known next t₁).bind rest := by
  refine ⟨fun written => if written.isSome then
    (report (.converging env .warning "InvalidSpec" (some fault.message))).bind fun _ =>
      .done .onChange else .done .onChange, fun written => ?_, ?_⟩
  · cases written with
    | none => exact makes_done _
    | some updated => exact makes_bind (makes_report _) fun _ => makes_done _
  · unfold refuse
    rw [made]
    rfl

theorem refuse_of_overflow (fault : Failure)
    (made : env.known.refused? env fault.message t₁ = none) : refuse env fault t₁ = .overflow := by
  unfold refuse
  rw [made]
  rfl

/-- Where the status of the refusal is stored already, nothing is written. -/
theorem refuse_quiet {fault : Failure}
    (made : env.known.refused? env fault.message t₂ = some env.known) :
    (refuse env fault t₂).Quiet s := by
  obtain ⟨rest, hrest, heq⟩ := refuse_eq fault made
  rw [heq, writeChanged_of_not_differs (Status.differs_self env.known)]
  exact quiet_of_silent (hrest none) s

theorem refuse_settles {fault : Failure} (there : s.record? env.key = some env)
    (later : ¬t₂.before t₁ = true) (acc : (refuse env fault t₁).Accepted s) :
    ∃ v status, ((refuse env fault t₁).after s).record? env.key = some (restated env v status) ∧
      ∀ s', (refuse (restated env v status) fault t₂).Quiet s' := by
  cases made : env.known.refused? env fault.message t₁ with
  | none =>
    rw [refuse_of_overflow fault made]
    refine ⟨env.metadata.resourceVersion, env.status, there, fun s' => ?_⟩
    have hover := refuse_of_overflow fault (Status.refused?_none_of_later later made)
    change (refuse env fault t₂).Quiet _
    rw [hover]
    exact quiet_overflow s'
  | some next =>
    obtain ⟨rest, hrest, heq⟩ := refuse_eq fault made
    rw [heq] at acc ⊢
    rw [after_bind_same fun written s => (hrest written).after_eq s]
    rcases after_writeChanged there acc.left with ⟨hd, hafter⟩ | ⟨v, hafter⟩
    · have hsame : env.known = next :=
        Status.eq_of_not_differs hd (Status.refused?_lastSyncedAt made).symm
      refine ⟨env.metadata.resourceVersion, env.status, by rw [hafter]; exact there, fun s' => ?_⟩
      have hagain : env.known.refused? env fault.message t₂ = some env.known := by
        rw [hsame]
        exact Status.refused?_refused made
      exact refuse_quiet hagain
    · refine ⟨v, some (next.stamped t₁), ?_, fun s' => refuse_quiet ?_⟩
      · rw [hafter, Store.record?_putRecord, if_pos rfl]
      · change (next.stamped t₁).refused? env fault.message t₂ = some (next.stamped t₁)
        rw [Status.refused?_stamped, Status.refused?_refused made]
        rfl

end Reconcile
end PreviewControl
