import PreviewControl.Proofs.CreationGuard
import PreviewControl.Proofs.Quiescence
import PreviewControl.Proofs.Undisturbed
import PreviewControl.Reconcile.Round

/-!
# What comes of failed children

A pass tries all children, one after the other, whatever has come of those before. Of the failures
the first one decides how the pass ends, and so when the record is looked at again.
-/
namespace PreviewControl

namespace Pass

variable {α β : Type} {good : Deed → Prop} {Q R : Outcome α → Prop}

/-! ## How passes end -/

/-- Whenever all that happens is good, the pass ends like this. -/
def Finishes (good : Deed → Prop) (Q : Outcome α → Prop) (p : Pass α) : Prop :=
  ∀ t o, p.Leads t o.ending → (∀ d ∈ t, good d) → Q o

theorem Outcome.ending_inj {o o' : Outcome α} (h : o.ending = o'.ending) : o = o' := by
  cases o <;> cases o' <;> cases h <;> rfl

theorem finishes_done {a : α} (h : Q (.done a)) : (done a).Finishes good Q := by
  intro t o ht _
  obtain rfl : o = .done a := Outcome.ending_inj (leads_done.1 ht).2
  exact h

theorem finishes_fail {e : Failure} (h : Q (.failed e)) : (fail e : Pass α).Finishes good Q := by
  intro t o ht _
  obtain rfl : o = .failed e := Outcome.ending_inj (leads_fail.1 ht).2
  exact h

theorem finishes_call {c : Call} {next : c.Answer → Pass α}
    (h : ∀ answer, good (.call c answer) → (next answer).Finishes good Q) :
    (call c next).Finishes good Q := by
  intro t o ht hgood
  rcases leads_call.1 ht with ⟨_, he⟩ | ⟨answer, u, rfl, hu⟩
  · cases o <;> cases he
  · obtain ⟨hanswer, hrest⟩ := List.forall_mem_cons.1 hgood
    exact h answer hanswer u o hu hrest

theorem finishes_announce {event : Event} {p : Pass α} (h : p.Finishes good Q) :
    (announce event p).Finishes good Q := by
  intro t o ht hgood
  rcases leads_announce.1 ht with ⟨_, he⟩ | ⟨u, rfl, hu⟩
  · cases o <;> cases he
  · exact h u o hu (List.forall_mem_cons.1 hgood).2

theorem finishes_count {m : Measurement} {p : Pass α} (h : p.Finishes good Q) :
    (count m p).Finishes good Q := by
  intro t o ht hgood
  rcases leads_count.1 ht with ⟨_, he⟩ | ⟨u, rfl, hu⟩
  · cases o <;> cases he
  · exact h u o hu (List.forall_mem_cons.1 hgood).2

theorem finishes_bind {p : Pass α} {f : α → Pass β} {Q : Outcome β → Prop}
    (hp : p.Finishes good R) (hdone : ∀ a, R (.done a) → (f a).Finishes good Q)
    (hfail : ∀ e, R (.failed e) → Q (.failed e)) (hover : R .overflow → Q .overflow) :
    (p.bind f).Finishes good Q := by
  intro t o ht hgood
  rcases leads_bind.1 ht with ⟨q, hq, he⟩ | ⟨t₁, t₂, a, rfl, ha, hr⟩
  · cases q with
    | done a =>
      have hnil : ∀ d ∈ ([] : List Deed), good d := fun d hd => absurd hd List.not_mem_nil
      exact hdone a (hp t (.done a) hq hgood) [] o (leads_nil.2 he.symm) hnil
    | fail e =>
      obtain rfl : o = .failed e := Outcome.ending_inj he
      exact hfail e (hp t (.failed e) hq hgood)
    | overflow =>
      obtain rfl : o = .overflow := Outcome.ending_inj he
      exact hover (hp t .overflow hq hgood)
    | call | announce | count => cases o <;> cases he
  · obtain ⟨hleft, hright⟩ := List.forall_mem_append.1 hgood
    exact hdone a (hp t₁ (.done a) ha hleft) t₂ o hr hright

/-- What comes to a result can be followed by anything. -/
theorem finishes_after {p : Pass α} {f : α → Pass β} {P : α → Prop} {Q : Outcome β → Prop}
    (hp : p.Finishes good fun o => ∃ a, o = .done a ∧ P a)
    (hf : ∀ a, P a → (f a).Finishes good Q) : (p.bind f).Finishes good Q := by
  refine finishes_bind hp (fun a ⟨b, hb, hP⟩ => ?_) (fun e ⟨b, hb, _⟩ => ?_) fun ⟨b, hb, _⟩ => ?_
  · cases hb
    exact hf a hP
  · cases hb
  · cases hb

/-- What comes to one result goes on from there. -/
theorem finishes_from {p : Pass α} {f : α → Pass β} {a : α} {Q : Outcome β → Prop}
    (hp : p.Finishes good (· = .done a)) (hf : (f a).Finishes good Q) :
    (p.bind f).Finishes good Q := by
  refine finishes_bind hp (fun b hb => ?_) (fun e he => nomatch he) fun ho => nomatch ho
  cases hb
  exact hf

theorem NeverOverflows.finishes {p : Pass α} (h : p.NeverOverflows) :
    p.Finishes good (· ≠ .overflow) := by
  rintro t o ht _ rfl
  exact h t ht

/-- A failure that is caught is a result. -/
theorem finishes_attempt {p : Pass α} {Q : Outcome (Except Failure α) → Prop}
    (hp : p.Finishes good R) (h : ∀ o, R o → Q o.attempt) : p.attempt.Finishes good Q := by
  intro t o ht hgood
  obtain ⟨q, hq, he⟩ := leads_attempt.1 ht
  cases q with
  | done a =>
    obtain rfl : o = .done (.ok a) := Outcome.ending_inj he
    exact h _ (hp t (.done a) hq hgood)
  | fail e =>
    obtain rfl : o = .done (.error e) := Outcome.ending_inj he
    exact h _ (hp t (.failed e) hq hgood)
  | overflow =>
    obtain rfl : o = .overflow := Outcome.ending_inj he
    exact h _ (hp t .overflow hq hgood)
  | call | announce | count => cases o <;> cases he

end Pass

namespace Reconcile

open Pass World

variable {config : Config} {env latest : Environment} {ns : String} {now : Instant}
  {notice : Metadata} {status : Status} {fault : Option Failure}

/-! ## All children are tried -/

/-- The children are tried one after the other, and this comes of them. -/
inductive Ensured (config : Config) (env : Environment) (ns : String) :
    List Child → List Deed → List (Except Failure Unit) → Prop where
  | nil : Ensured config env ns [] [] []
  | cons {child : Child} {children : List Child} {t u : List Deed} {result : Except Failure Unit}
      {results : List (Except Failure Unit)}
      (first : (child.ensure config env ns).attempt.Gives t result)
      (rest : Ensured config env ns children u results) :
    Ensured config env ns (child :: children) (t ++ u) (result :: results)

def firstFailure? : List (Except Failure Unit) → Option Failure
  | [] => none
  | .ok () :: results => firstFailure? results
  | .error e :: _ => some e

theorem gives_ensureAll {children : List Child} {t : List Deed} :
    (ensureAll config env ns children).Gives t fault ↔
      ∃ results, Ensured config env ns children t results ∧ fault = firstFailure? results := by
  induction children generalizing t fault with
  | nil =>
    constructor
    · intro h
      obtain ⟨rfl, rfl⟩ := gives_done.1 h
      exact ⟨[], .nil, rfl⟩
    · rintro ⟨_, ⟨⟩, rfl⟩
      exact .start _
  | cons child children ih =>
    constructor
    · intro h
      obtain ⟨t, u, result, rfl, hfirst, hrest⟩ := gives_bind.1 h
      cases result with
      | ok =>
        obtain ⟨results, hresults, rfl⟩ := ih.1 hrest
        exact ⟨_, .cons hfirst hresults, rfl⟩
      | error e =>
        obtain ⟨u, v, other, rfl, hother, hd⟩ := gives_bind.1 hrest
        obtain ⟨rfl, rfl⟩ := gives_done.1 hd
        obtain ⟨results, hresults, rfl⟩ := ih.1 hother
        rw [List.append_nil]
        exact ⟨_, .cons hfirst hresults, rfl⟩
    · rintro ⟨_, ensured, rfl⟩
      cases ensured with
      | @cons _ _ t u result results first rest =>
        refine gives_bind.2 ⟨t, u, result, rfl, first, ?_⟩
        have hrest := ih.2 ⟨results, rest, rfl⟩
        cases result with
        | ok => exact hrest
        | error e =>
          exact gives_bind.2 ⟨u, [], _, (List.append_nil u).symm, hrest, .start _⟩

/-! ## The rest of the pass -/

/-- What a pass finds out about the children after it has tried them. -/
def look (config : Config) (env : Environment) (ns : String) (fault : Option Failure) :
    Pass Findings :=
  (reportIf (fault.map fun e =>
    .converging env .warning "MaterializeFailed" (some e.message))).bind fun _ =>
  (costOf config env ns).bind fun cost =>
  (healthOf config env).bind fun health => .done ⟨fault, cost, health⟩

theorem survey_eq : survey config env ns =
    (ensureAll config env ns Child.all).bind (look config env ns) := rfl

/-- How a pass ends in which this was the first failure of a child. -/
def outcomeOf (config : Config) : Option Failure → Outcome Requeue
  | some e => .failed e
  | none => .done (.after config.requeueSeconds)

/-- No status has been refused. -/
def unrefused (d : Deed) : Prop := ∀ old status e, d ≠ .call (.patchStatus old status) (.error e)

theorem finishes_reportIf {good : Deed → Prop} (event : Option Event) :
    (reportIf event).Finishes good fun o => ∃ a, o = .done a ∧ True := by
  cases event with
  | none => exact finishes_done ⟨(), rfl, trivial⟩
  | some event => exact finishes_announce (finishes_done ⟨(), rfl, trivial⟩)

theorem finishes_costOf {good : Deed → Prop} :
    (costOf config env ns).Finishes good fun o => ∃ a, o = .done a ∧ True := by
  refine finishes_call fun answer _ => ?_
  cases answer <;> exact finishes_done ⟨_, rfl, trivial⟩

theorem finishes_healthOf {good : Deed → Prop} :
    (healthOf config env).Finishes good fun o => ∃ a, o = .done a ∧ True := by
  refine finishes_after (P := fun _ => True) ?_ fun health _ => finishes_done ⟨_, rfl, trivial⟩
  refine finishes_attempt Child.neverOverflows_deploymentHealth.finishes fun o ho => ?_
  cases o with
  | overflow => exact absurd rfl ho
  | done | failed => exact ⟨_, rfl, trivial⟩

theorem finishes_look {good : Deed → Prop} {P : Option Health → Prop}
    (hread : (healthOf config env).Finishes good fun o => ∃ health, o = .done health ∧ P health) :
    (look config env ns fault).Finishes good
      fun o => ∃ found, o = .done found ∧ found.fault = fault ∧ P found.health := by
  refine finishes_after (finishes_reportIf _) fun _ _ => ?_
  refine finishes_after finishes_costOf fun cost _ => ?_
  exact finishes_after hread fun health hhealth => finishes_done ⟨_, rfl, rfl, hhealth⟩

theorem finishes_writeChanged {current next : Status} :
    (writeChanged env current next now).Finishes unrefused fun o => ∃ a, o = .done a ∧ True := by
  unfold writeChanged
  split
  · refine finishes_call fun answer hanswer => ?_
    cases answer with
    | ok updated => exact finishes_done ⟨_, rfl, trivial⟩
    | error e => exact absurd rfl (hanswer _ _ e)
  · exact finishes_done ⟨_, rfl, trivial⟩

/-- The failure of a child is the failure of the pass, after the status has been written. -/
theorem finishes_conclude (current : Status) (found : Findings) :
    (conclude config env current found now).Finishes unrefused
      (· = outcomeOf config found.fault) := by
  obtain ⟨ending, hending, heq⟩ := exists_ending config env current found now
  have hend : ending.Finishes unrefused (· = outcomeOf config found.fault) := by
    rcases hending with ⟨e, hfault, rfl⟩ | ⟨hfault, rfl⟩
    · rw [hfault]
      exact finishes_fail rfl
    · rw [hfault]
      exact finishes_done rfl
  rw [heq]
  refine finishes_after finishes_writeChanged fun written _ => ?_
  split
  · exact finishes_after (finishes_reportIf _) fun _ _ => hend
  · exact hend

/-- What is left of a pass over a record when all children have been tried. -/
def remainder (config : Config) (env : Environment) (status : Status) (fault : Option Failure)
    (now : Instant) : Pass Requeue :=
  (look config env (spaceOf env status) fault).bind fun found =>
    conclude config env status found now

/-- A pass has come to put the children of a record in place. -/
inductive Entering (config : Config) (notice : Metadata) (now : Instant) :
    List Deed → Environment → Status → Prop where
  | mk {ns : String} {env latest : Environment} {status : Status} {t : List Deed}
      (place : notice.ns = some ns) (staying : env.metadata.isDeleting = false)
      (held : env.hasFinalizer = true) (valid : env.spec.validate notice.anyName = .ok ())
      (entered : Entered config env now t latest status) :
    Entering config notice now (read notice ns env :: t) latest status

/-- A pass has come to put the children of a record in place, and has tried all of them. -/
inductive Attempted (config : Config) (notice : Metadata) (now : Instant) :
    List Deed → Environment → Status → List (Except Failure Unit) → Prop where
  | mk {ns : String} {env latest : Environment} {status : Status} {t u : List Deed}
      {results : List (Except Failure Unit)} (place : notice.ns = some ns)
      (staying : env.metadata.isDeleting = false) (held : env.hasFinalizer = true)
      (valid : env.spec.validate notice.anyName = .ok ())
      (entered : Entered config env now t latest status)
      (ensured : Ensured config latest (spaceOf latest status) Child.all u results) :
    Attempted config notice now (read notice ns env :: (t ++ u)) latest status results

theorem attempted_iff {t : List Deed} {results : List (Except Failure Unit)} :
    Attempted config notice now t latest status results ↔
      ∃ u v, Entering config notice now u latest status ∧
        Ensured config latest (spaceOf latest status) Child.all v results ∧ t = u ++ v := by
  constructor
  · intro h
    cases h with
    | mk place staying held valid entered ensured =>
      exact ⟨_, _, .mk place staying held valid entered, ensured, rfl⟩
  · rintro ⟨u, v, entering, ensured, rfl⟩
    cases entering with
    | mk place staying held valid entered =>
      exact .mk place staying held valid entered ensured

/-- What is left of a pass that has come to put children in place. -/
theorem Entering.leads {t : List Deed} (h : Entering config notice now t latest status) :
    (pass config notice now).Leads t
      (((ensureAll config latest (spaceOf latest status) Child.all).bind fun fault =>
        remainder config latest status fault now).attempt.bind account) := by
  cases h with
  | @mk ns env _ _ t place staying held valid entered =>
    have hconverge : (converge config env now).Leads t
        ((ensureAll config latest (spaceOf latest status) Child.all).bind fun fault =>
          remainder config latest status fault now) := by
      have hfirst := Leads.bind (gives_of_entered entered) fun entered =>
        (survey config entered.1 (spaceOf entered.1 entered.2)).bind fun found =>
          conclude config entered.1 entered.2 found now
      rw [← converge_eq] at hfirst
      rw [bind_done, survey_eq, bind_assoc] at hfirst
      exact hfirst
    have hact : (act config notice now).Leads (read notice ns env :: t)
        ((ensureAll config latest (spaceOf latest status) Child.all).bind fun fault =>
          remainder config latest status fault now) := by
      rw [act_eq place]
      refine .call ?_
      show (step config notice.anyName env now).Leads _ _
      rw [step_of_valid staying held valid]
      exact hconverge
    rw [pass_eq_account]
    exact Leads.bind hact.attempt account

theorem Attempted.leads {t : List Deed} {results : List (Except Failure Unit)}
    (h : Attempted config notice now t latest status results) :
    (pass config notice now).Leads t
      ((remainder config latest status (firstFailure? results) now).attempt.bind account) := by
  obtain ⟨u, v, entering, ensured, rfl⟩ := attempted_iff.1 h
  have hensured := gives_ensureAll.2 ⟨results, ensured, rfl⟩
  exact entering.leads.trans ((Leads.bind hensured _).attempt.bind account)

/-- A pass that has tried all children ends with the first failure, if there is one. -/
theorem Attempted.outcome {t v : List Deed} {results : List (Except Failure Unit)}
    {o : Outcome Requeue} (h : Attempted config notice now t latest status results)
    (ends : (pass config notice now).Leads (t ++ v) o.ending) (written : ∀ d ∈ v, unrefused d) :
    o = outcomeOf config (firstFailure? results) := by
  obtain ⟨q, hq, hv⟩ := ends.split
  obtain rfl := h.leads.unique hq
  generalize firstFailure? results = fault at hv
  have hrest : (remainder config latest status fault now).Finishes unrefused
      (· = outcomeOf config fault) := by
    refine finishes_after (finishes_look finishes_healthOf) fun found ⟨hfault, _⟩ => ?_
    rw [← hfault]
    exact finishes_conclude status found
  have hcaught : (remainder config latest status fault now).attempt.Finishes unrefused
      (· = (outcomeOf config fault).attempt) :=
    finishes_attempt hrest fun o ho => congrArg Outcome.attempt ho
  have hwhole : ((remainder config latest status fault now).attempt.bind account).Finishes
      unrefused (· = outcomeOf config fault) := by
    cases fault with
    | none => exact finishes_from hcaught (finishes_count (finishes_done rfl))
    | some e => exact finishes_from hcaught (finishes_count (finishes_count (finishes_fail rfl)))
  exact hwhole v o hv written

/-! ## When the record is looked at again -/

theorem afterFailure_iff {e : Failure} :
    (∃ n, afterFailure e = .after n) ↔ e.isRetryable = true := by
  unfold afterFailure
  by_cases hc : e.isConflict = true
  · have hr := Failure.isRetryable_of_isConflict hc
    simp [hc, hr]
  · by_cases hr : e.isRetryable = true <;> simp [hc, hr]

theorem exists_firstFailure {results : List (Except Failure Unit)} {e : Failure}
    (h : .error e ∈ results) : ∃ first, firstFailure? results = some first := by
  induction results with
  | nil => exact absurd h List.not_mem_nil
  | cons result results ih =>
    cases result with
    | error first => exact ⟨first, rfl⟩
    | ok => exact ih ((List.mem_cons.1 h).resolve_left nofun)

/-- Of a pass in which a child has failed for a reason that may pass, the record is looked at again
after some time if and only if the first child that has failed has done so for such a reason. Else
it is not looked at before it changes. -/
theorem retried_iff_first {config : Config} {notice : Metadata} {now : Instant}
    {latest : Environment} {status : Status} {t v : List Deed}
    {results : List (Except Failure Unit)} {o : Outcome Requeue}
    (tried : Attempted config notice now t latest status results)
    (passing : ∃ e, .error e ∈ results ∧ e.isRetryable = true)
    (ends : (pass config notice now).Leads (t ++ v) o.ending) (written : ∀ d ∈ v, unrefused d) :
    ∃ first, firstFailure? results = some first ∧ o = .failed first ∧
      ((∃ n, Requeue.ofOutcome o = .after n) ↔ first.isRetryable = true) ∧
      (first.isRetryable = false → Requeue.ofOutcome o = .onChange) := by
  obtain ⟨e, hmem, _⟩ := passing
  obtain ⟨first, hfirst⟩ := exists_firstFailure hmem
  have ho : o = .failed first := by
    rw [tried.outcome ends written, hfirst]
    rfl
  subst ho
  refine ⟨first, hfirst, rfl, afterFailure_iff, fun hlasting => ?_⟩
  have hclash : first.isConflict = false := Bool.eq_false_iff.2 fun hc => by
    rw [Failure.isRetryable_of_isConflict hc] at hlasting
    cases hlasting
  rw [Requeue.ofOutcome, afterFailure, hclash, hlasting]
  rfl

/-- The server does not allow the request. -/
def forbidden : Failure := .rejected 403 "Forbidden" "namespaces is forbidden"

/-- The connection has been lost. -/
def reset : Failure := .transport "connection reset"

/-- Two children fail and the third one is put in place. -/
def troubles (e₁ e₂ : Failure) : List Deed :=
  [.call (.getObject (Child.namespaceAddress "pr-5-0a1b2c")) (.error e₁),
   .call (.getObject (Child.ingressAddress "pr-5-0a1b2c")) (.error e₂),
   .call (.apply (shopDescriptor 5)) (.ok ())]

theorem attempted_shop (e₁ e₂ : Failure) : Attempted {} (shop 5).metadata default
    (read (shop 5).metadata "previews" (shop 5) :: troubles e₁ e₂) (shop 5) (shop 5).known
    [.error e₁, .error e₂, .ok ()] := by
  have hnone : Child.ingressObject? (shop 5) "pr-5-0a1b2c" {} = none := by decide +kernel
  have ensured : Ensured {} (shop 5) "pr-5-0a1b2c" Child.all (troubles e₁ e₂)
      [.error e₁, .error e₂, .ok ()] := by
    refine .cons (t := [_]) ?_ (.cons (t := [_]) ?_ (.cons (t := [_]) ?_ .nil))
    · exact gives_attempt_error.2 (breaks_bind.2 (.inl (breaks_request.2 rfl)))
    · refine gives_attempt_error.2 ?_
      rw [Child.ensure, Child.ensureIngress_of_none hnone]
      exact breaks_bind.2 (.inl (breaks_bind.2 (.inl (breaks_request.2 rfl))))
    · refine gives_attempt_ok.2 ?_
      rw [Child.ensure, Child.ensureDescriptor_eq]
      exact gives_request.2 rfl
  exact .mk rfl rfl (by decide) (by decide +kernel) (.known rfl) ensured

/-- What the pass over the shop comes to after that. -/
def afterwards (fault : Failure) : Pass Requeue :=
  (remainder {} (shop 5) (shop 5).known (some fault) default).attempt.bind account

theorem unrefused_of_accepted {α : Type} {p : Pass α} {s : Store} (h : p.Accepted s) :
    ∀ d ∈ (p.happenings s).map Happening.deed, unrefused d := by
  intro d hd old status e heq
  obtain ⟨x, hx, rfl⟩ := List.mem_map.1 hd
  cases x with
  | event | measurement => cases heq
  | call start c answer =>
    cases heq
    obtain ⟨_, hanswer⟩ := h start old status _ hx
    cases hanswer

/-- A pass that has met with two failures, the first one for good and the second one not, does not
have the record looked at again. -/
theorem parked_by_first :
    let t := read (shop 5).metadata "previews" (shop 5) :: troubles forbidden reset
    Attempted {} (shop 5).metadata default t (shop 5) (shop 5).known
      [.error forbidden, .error reset, .ok ()] ∧
    ∃ v o, (pass {} (shop 5).metadata default).Leads (t ++ v) o.ending ∧ (∀ d ∈ v, unrefused d) ∧
      reset.isRetryable = true ∧ Requeue.ofOutcome o = .onChange := by
  have tried := attempted_shop forbidden reset
  have ends := tried.leads.trans (leads_happenings (afterwards forbidden) opening.store)
  have accepted : (afterwards forbidden).Accepted opening.store := by decide +kernel
  have written := unrefused_of_accepted accepted
  refine ⟨tried, _, _, ends, written, rfl, ?_⟩
  rw [tried.outcome ends written]
  rfl

/-- When the two failures come the other way round, the record is looked at again. -/
theorem retried_iff_first_shop :
    let t := read (shop 5).metadata "previews" (shop 5) :: troubles reset forbidden
    Attempted {} (shop 5).metadata default t (shop 5) (shop 5).known
      [.error reset, .error forbidden, .ok ()] ∧
    ∃ v o, (pass {} (shop 5).metadata default).Leads (t ++ v) o.ending ∧ (∀ d ∈ v, unrefused d) ∧
      ∃ n, Requeue.ofOutcome o = .after n := by
  have tried := attempted_shop reset forbidden
  have ends := tried.leads.trans (leads_happenings (afterwards reset) opening.store)
  have accepted : (afterwards reset).Accepted opening.store := by decide +kernel
  have written := unrefused_of_accepted accepted
  have passing : ∃ e, .error e ∈ [.error reset, .error forbidden, (.ok () : Except Failure Unit)] ∧
      e.isRetryable = true := ⟨reset, List.mem_cons_self, rfl⟩
  obtain ⟨first, hfirst, _, hagain, _⟩ := retried_iff_first tried passing ends written
  obtain rfl : reset = first := Option.some.inj hfirst
  exact ⟨tried, _, _, ends, written, hagain.2 rfl⟩

end Reconcile
end PreviewControl
