import PreviewControl.Proofs.Settling

/-!
# A second pass writes nothing

A pass over a record that already has the finalizer leaves nothing to write for the next one, if
all its own writes of the status were accepted, nothing else has changed and the same calls keep
failing. So it is with a record that is being deleted, too, as long as the record is there.
-/
namespace PreviewControl

namespace Reconcile

open Pass

variable {config : Config} {env : Environment} {s left : Store} {t₁ t₂ : Instant}

/-! ## Release -/

/-- A record that is marked stays where its children are, and the mark is written only once. -/
theorem markTerminating_settles (there : s.record? env.key = some env)
    (acc : (markTerminating env t₁).Accepted s) :
    ∃ v status, (markTerminating env t₁).outcome s = .done (restated env v status) ∧
      ((markTerminating env t₁).after s).record? env.key = some (restated env v status) ∧
      (restated env v status).phase? = some .terminating ∧
      (restated env v status).childNamespace = env.childNamespace ∧
      ((markTerminating env t₁).after s).faults = s.faults ∧
      ((markTerminating env t₁).after s).objects = s.objects ∧
      ((markTerminating env t₁).after s).pods = s.pods := by
  unfold markTerminating at acc ⊢
  by_cases hp : env.phase? = some .terminating
  · rw [if_pos hp]
    exact ⟨env.metadata.resourceVersion, env.status, rfl, there, hp, rfl, rfl, rfl, rfl⟩
  · rw [if_neg hp] at acc ⊢
    obtain ⟨updated, ok⟩ := accepted_inquire acc.left
    obtain ⟨⟨v, rfl⟩, hafter⟩ := answer_patchStatus there ok
    have hdone : (inquire (.patchStatus env (env.known.terminating t₁))).outcome s =
        .done (.ok (restated env v (some (env.known.terminating t₁)))) := by
      rw [outcome_inquire, ok]
    refine ⟨v, some (env.known.terminating t₁), ?_⟩
    rw [bind_eq, outcome_bind_done hdone, after_bind_done hdone, after_inquire, hafter]
    refine ⟨rfl, ?_, rfl, ?_, rfl, rfl, rfl⟩
    · exact (Store.record?_putRecord ..).trans (if_pos rfl)
    · rw [Environment.childNamespace_eq, Environment.childNamespace_eq]
      rfl

/-- Removes the children of a record, the last one first. -/
def removal (config : Config) (env : Environment) : Pass Unit :=
  removeAll config env env.childNamespace Child.all.reverse

theorem steady_removal (config : Config) (env : Environment) :
    (removal config env).Steady (reachAll Child.all.reverse) (reachAll Child.all.reverse) :=
  steady_removeAll (by decide)

theorem quiet_removal (config : Config) (env : Environment) (s : Store) :
    (removal config env).Quiet s := quiet_of_makes (makes_removeAll _) s

/-- What is left to do for a record that is marked. -/
def letGo (config : Config) (env : Environment) : Pass Requeue :=
  (removal config env).bind fun _ =>
    (request (.removeFinalizer env)).bind fun _ =>
      (report (.cleaning env .normal "CleanupComplete" none)).bind fun _ => .done .onChange

theorem release_of_marked (h : env.phase? = some .terminating) (now : Instant) :
    release config env now = letGo config env := by
  unfold release markTerminating
  rw [if_pos h]
  rfl

/-- Once a record is marked, what is left to do is done for the version with the mark. -/
theorem release_of_mark {v : Option String} {status : Option Status}
    (hdone : (markTerminating env t₁).outcome s = .done (restated env v status))
    (hns : (restated env v status).childNamespace = env.childNamespace) :
    (release config env t₁).outcome s =
        (letGo config (restated env v status)).outcome ((markTerminating env t₁).after s) ∧
      (release config env t₁).after s =
        (letGo config (restated env v status)).after ((markTerminating env t₁).after s) := by
  unfold release
  rw [bind_eq, outcome_bind_done hdone, after_bind_done hdone, letGo, removal, hns]
  exact ⟨rfl, rfl⟩

/-- A record without the finalizer that is being deleted is not looked at any more. -/
theorem step_of_released {name : String} (deleting : env.metadata.isDeleting = true)
    (free : env.hasFinalizer = false) (now : Instant) :
    step config name env now = .done .onChange := by
  unfold step
  rw [if_pos deleting, free]
  rfl

theorem step_of_leaving {name : String} (deleting : env.metadata.isDeleting = true)
    (held : env.hasFinalizer = true) (now : Instant) :
    step config name env now = release config env now := by
  unfold step
  rw [if_pos deleting, if_pos held]

/-- Whatever is left of the record, a pass over it writes nothing. -/
def Settled (config : Config) (name : String) (key : RecordKey) (later : Instant)
    (s left : Store) : Prop :=
  ∀ env now, left.record? key = some env → (step config name env later).Quiet (resumed s left now)

private theorem strike_quiet {updated : Environment} {hit : Failure × List Fault}
    (h : Fault.strike (.removeFinalizer updated) s.faults = some hit)
    (rest : Unit → Pass Requeue) : ((request (.removeFinalizer updated)).bind rest).Quiet s := by
  have hrequest : (request (.removeFinalizer updated)).Quiet s := by
    constructor
    · intro start env status answer hc
      rw [happenings_request, List.mem_singleton] at hc
      cases hc
    · rw [(request_of_hit h rfl).2]
  refine hrequest.bind fun _ hdone => ?_
  rw [(request_of_hit h rfl).1] at hdone
  cases hdone

/-- The finalizer goes, and perhaps the record with it. -/
theorem answer_removeFinalizer (there : s.record? env.key = some env)
    (h : Fault.strike (.removeFinalizer env) s.faults = none) {updated : Environment}
    (hu : (s.answer (.removeFinalizer env)).2.record? env.key = some updated) :
    updated.metadata.isDeleting = env.metadata.isDeleting ∧ updated.hasFinalizer = false := by
  have hcurrent := Store.current_self there
  rw [Store.answer_of_miss h rfl] at hu
  simp only [Store.serve, Store.write, hcurrent, Except.map, Store.answerWrite] at hu
  rw [Store.record?_settle, if_pos rfl] at hu
  split at hu
  · cases hu
  · cases hu
    constructor
    · rfl
    · simp

/-- Nothing is written where a fault keeps the finalizer in place, if it comes to that. -/
private theorem letGo_quiet (h : (removal config env).outcome s = .done () →
      ∃ hit, Fault.strike (.removeFinalizer env) ((removal config env).after s).faults = some hit) :
    (letGo config env).Quiet s := by
  refine (quiet_removal config env s).bind fun _ hdone => ?_
  obtain ⟨hit, hs⟩ := h hdone
  exact strike_quiet hs _

theorem letGo_settles (name : String) (there : s.record? env.key = some env)
    (marked : env.phase? = some .terminating) (deleting : env.metadata.isDeleting = true)
    (held : env.hasFinalizer = true) (t₂ : Instant) :
    Settled config name env.key t₂ s ((letGo config env).after s) := by
  have hsteady := steady_removal config env
  have hmid : ((removal config env).after s).record? env.key = some env := by
    rw [Store.record?, (quiet_removal config env s).kept]
    exact there
  have hstep : step config name env t₂ = letGo config env := by
    rw [step_of_leaving deleting held, release_of_marked marked]
  intro env' now hleft
  by_cases hd : (removal config env).outcome s = .done ()
  · have hafter : (letGo config env).after s =
        (request (.removeFinalizer env)).after ((removal config env).after s) := by
      rw [letGo, after_bind_done hd]
      exact after_bind_same fun _ _ => rfl
    rw [hafter] at hleft ⊢
    cases hs : Fault.strike (.removeFinalizer env) ((removal config env).after s).faults with
    | some hit =>
      have hfailed := (request_of_hit hs rfl).2
      rw [hfailed] at hleft ⊢
      have henv : env = env' := Option.some.inj (hmid.symm.trans hleft)
      rw [← henv, hstep]
      have hagain := hsteady.again s (resumed s _ now) rfl (hsteady.pods s) fun _ _ => rfl
      exact letGo_quiet fun _ => ⟨hit, (congrArg (Fault.strike _) hagain.2).trans hs⟩
    | none =>
      rw [after_request] at hleft
      obtain ⟨hdel, hfree⟩ := answer_removeFinalizer hmid hs hleft
      rw [step_of_released (hdel.trans deleting) hfree]
      exact quiet_done _ _
  · have hne : ∀ u, (removal config env).outcome s ≠ .done u := fun _ hu => hd hu
    have hafter : (letGo config env).after s = (removal config env).after s :=
      after_bind_of_ne hne
    rw [hafter] at hleft ⊢
    have henv : env = env' := Option.some.inj (hmid.symm.trans hleft)
    rw [← henv, hstep]
    have hagain := hsteady.again s (resumed s _ now) rfl (hsteady.pods s) fun _ _ => rfl
    exact letGo_quiet fun hdone => absurd (hagain.1.symm.trans hdone) hd

theorem release_settles {name : String} (there : s.record? env.key = some env)
    (deleting : env.metadata.isDeleting = true) (held : env.hasFinalizer = true)
    (acc : (release config env t₁).Accepted s) :
    Settled config name env.key t₂ s ((release config env t₁).after s) := by
  have hmark : (markTerminating env t₁).Accepted s := by
    unfold release at acc
    exact acc.left
  obtain ⟨v, status, hdone, hthere, hmarked, hns, hfaults, hobjects, hpods⟩ :=
    markTerminating_settles there hmark
  rw [(release_of_mark hdone hns).2]
  intro env' now hleft
  have hsettled := letGo_settles name hthere hmarked deleting held t₂ env' now hleft
  unfold resumed at hsettled ⊢
  rw [hfaults] at hsettled
  exact hsettled

/-! ## The whole pass -/

theorem step_of_refused {name : String} {fault : Failure}
    (staying : env.metadata.isDeleting = false) (held : env.hasFinalizer = true)
    (invalid : env.spec.validate name = .error fault) (now : Instant) :
    step config name env now = refuse env fault now := by
  unfold step
  rw [staying, held, invalid]
  rfl

theorem step_of_valid {name : String} (staying : env.metadata.isDeleting = false)
    (held : env.hasFinalizer = true) (valid : env.spec.validate name = .ok ()) (now : Instant) :
    step config name env now = converge config env now := by
  unfold step
  rw [staying, held, valid]
  rfl

theorem step_settles {name : String} (there : s.record? env.key = some env)
    (held : env.hasFinalizer = true) (later : ¬t₂.before t₁ = true)
    (acc : (step config name env t₁).Accepted s) :
    Settled config name env.key t₂ s ((step config name env t₁).after s) := by
  by_cases hd : env.metadata.isDeleting = true
  · rw [step_of_leaving hd held] at acc ⊢
    exact release_settles there hd held acc
  · have staying : env.metadata.isDeleting = false := Bool.eq_false_iff.2 hd
    have hstaying (v : Option String) (status : Option Status) :
        (restated env v status).metadata.isDeleting = false := staying
    have hheld (v : Option String) (status : Option Status) :
        (restated env v status).hasFinalizer = true := held
    intro env' now hleft
    cases hv : env.spec.validate name with
    | error fault =>
      rw [step_of_refused staying held hv] at acc hleft ⊢
      obtain ⟨v, status, hthere, hquiet⟩ := refuse_settles there later acc
      have henv : restated env v status = env' := Option.some.inj (hthere.symm.trans hleft)
      rw [← henv, step_of_refused (hstaying v status) (hheld v status) hv]
      exact hquiet _
    | ok =>
      rw [step_of_valid staying held hv] at acc hleft ⊢
      obtain ⟨v, status, hthere, hquiet⟩ := converge_settles there later acc
      have henv : restated env v status = env' := Option.some.inj (hthere.symm.trans hleft)
      rw [← henv, step_of_valid (hstaying v status) (hheld v status) hv]
      exact hquiet now

variable {notice : Metadata} {ns : String}

/-- Acts on the record that has been read, if there is one. -/
def actOn (config : Config) (name : String) (now : Instant) : Option Environment → Pass Requeue
  | none => .done .onChange
  | some env => step config name env now

theorem act_eq (place : notice.ns = some ns) (now : Instant) : act config notice now =
    (request (.getEnvironment notice.anyName ns)).bind (actOn config notice.anyName now) := by
  unfold act
  rw [place]
  simp only [bind_eq]
  congr 1
  funext found
  cases found <;> rfl

/-- Takes measure of what has come of a pass. -/
def account : Except Failure Requeue → Pass Requeue
  | .ok requeue => (measure (.passEnded true)).bind fun _ => .done requeue
  | .error e => (measure (.passEnded false)).bind fun _ =>
      (measure (.passFailed e.isRetryable)).bind fun _ => .fail e

theorem makes_account (x : Except Failure Requeue) : (account x).Makes fun _ => False := by
  cases x with
  | ok requeue => exact makes_bind (makes_measure _) fun _ => makes_done requeue
  | error e =>
    exact makes_bind (makes_measure _) fun _ => makes_bind (makes_measure _) fun _ => makes_fail e

theorem pass_eq_account (config : Config) (notice : Metadata) (now : Instant) :
    pass config notice now = (act config notice now).attempt.bind account := by
  refine congrArg (act config notice now).attempt.bind (funext fun x => ?_)
  cases x <;> rfl

theorem pass_eq (config : Config) (notice : Metadata) (now : Instant) :
    ∃ rest : Except Failure Requeue → Pass Requeue, (∀ x, (rest x).Makes fun _ => False) ∧
      pass config notice now = (act config notice now).attempt.bind rest :=
  ⟨account, makes_account, pass_eq_account config notice now⟩

theorem read_done {name : String} {found : Option Environment} :
    (request (.getEnvironment name ns)).outcome s = .done found ↔
      Fault.strike (.getEnvironment name ns) s.faults = none ∧ s.record? ⟨ns, name⟩ = found := by
  rw [request_done_iff rfl]
  simp only [Store.serve, Except.ok.injEq]

theorem after_read {name : String}
    (h : Fault.strike (.getEnvironment name ns) s.faults = none) :
    (request (.getEnvironment name ns)).after s = s := (request_of_miss h rfl).2

theorem act_settles (place : notice.ns = some ns)
    (there : s.record? ⟨ns, notice.anyName⟩ = some env) (key : env.key = ⟨ns, notice.anyName⟩)
    (held : env.hasFinalizer = true) (later : ¬t₂.before t₁ = true)
    (acc : (act config notice t₁).Accepted s) (now : Instant) :
    (act config notice t₂).Quiet (resumed s ((act config notice t₁).after s) now) := by
  rw [act_eq place t₁] at acc ⊢
  rw [act_eq place t₂]
  have hread : (request (.getEnvironment notice.anyName ns)).Makes fun c => c.recordKey? = none :=
    makes_request rfl
  refine (quiet_of_makes hread _).bind fun found hfound => ?_
  obtain ⟨hs, hrecord⟩ := read_done.1 hfound
  rw [after_read hs]
  have hmiss : Fault.strike (.getEnvironment notice.anyName ns) s.faults = none := hs
  have hfirst := read_done.2 ⟨hmiss, there⟩
  have hacc := acc.right hfirst
  rw [after_bind_done hfirst] at hrecord ⊢
  rw [after_read hmiss] at hacc hrecord ⊢
  cases found with
  | none => exact quiet_done _ _
  | some env' =>
    rw [← key] at there hrecord
    exact step_settles there held later hacc env' now hrecord

theorem act_of_nowhere (config : Config) (h : notice.ns = none) (now : Instant) :
    ∃ e, act config notice now = .fail e := by
  unfold act
  rw [h]
  exact ⟨_, rfl⟩

theorem pass_settles (about : env.key = ⟨notice.ns.getD "", notice.anyName⟩)
    (there : s.record? env.key = some env) (held : env.hasFinalizer = true)
    (later : ¬t₂.before t₁ = true) (acc : (pass config notice t₁).Accepted s) (now : Instant) :
    (pass config notice t₂).Quiet (resumed s ((pass config notice t₁).after s) now) := by
  obtain ⟨rest, hrest, heq⟩ := pass_eq config notice t₁
  obtain ⟨rest', hrest', heq'⟩ := pass_eq config notice t₂
  have hact : (act config notice t₁).Accepted s := by
    rw [heq] at acc
    have hattempt := acc.left
    unfold Pass.Accepted at hattempt ⊢
    rw [happenings_attempt] at hattempt
    exact hattempt
  have hafter : (pass config notice t₁).after s = (act config notice t₁).after s := by
    rw [heq, after_bind_same fun x s => (hrest x).after_eq s, after_attempt]
  have hquiet : (act config notice t₂).Quiet (resumed s ((act config notice t₁).after s) now) := by
    cases place : notice.ns with
    | none =>
      obtain ⟨e, he⟩ := act_of_nowhere config place t₂
      rw [he]
      exact quiet_fail e _
    | some ns =>
      rw [place, Option.getD_some] at about
      exact act_settles place (about ▸ there) about held later hact now
  rw [hafter, heq']
  refine hquiet.attempt.bind fun x _ => ?_
  exact quiet_of_silent (hrest' x) _

/-- A status taken from an observation differs in nothing from the one that the same observation
asks for later. And where a pass over a record with the finalizer has had all its writes of the
status accepted, the next pass over the cluster that it has left writes none, with the same faults
as before: all records stay as they are. -/
theorem second_pass_quiet :
    (∀ (env : Environment) (current : Status) (observation : Observation) (config : Config)
      (t₁ t₂ : Instant),
      (Status.next env current observation config t₁).differs
        (Status.next env (Status.next env current observation config t₁) observation config t₂) =
          false) ∧
    ∀ (config : Config) (notice : Metadata) (env : Environment) (s : Store) (t₁ t₂ now : Instant),
      env.key = ⟨notice.ns.getD "", notice.anyName⟩ → s.record? env.key = some env →
      env.hasFinalizer = true → ¬t₂.before t₁ = true → (pass config notice t₁).Accepted s →
      (pass config notice t₂).Quiet (resumed s ((pass config notice t₁).after s) now) := by
  constructor
  · intro env current observation config t₁ t₂
    rw [Status.next_next]
    exact Status.differs_self _
  · intro config notice env s t₁ t₂ now about there held later acc
    exact pass_settles about there held later acc now

/-- A record that the finalizer holds, before its first status. -/
def newcomer : Environment where
  metadata := { name := some "shop", ns := some "previews", uid := some "u-5",
                finalizers := some [Environment.cleanupFinalizer] }
  spec := { repository := ⟨"owner", "shop", none⟩, prNumber := 5,
            headSha := "0123456789abcdef0123456789abcdef01234567", ttl := "4h" }

/-- A cluster with this record, in which no ingress can be read. -/
def arrival : Store where
  records := [(⟨"previews", "shop"⟩, newcomer)]
  faults := [{ call := "get_resource", kind := some "Ingress", failure := .client }]
  now := default

/-- The time at which the next pass comes. -/
def nextTurn : Instant := ((default : Instant).add? 300).getD default

/-- The first pass writes the status twice and fails, and the second pass writes nothing. -/
theorem second_pass_quiet_newcomer :
    (pass {} newcomer.metadata default).Accepted arrival ∧
      (pass {} newcomer.metadata nextTurn).Quiet
        (resumed arrival ((pass {} newcomer.metadata default).after arrival) nextTurn) := by
  have acc : (pass {} newcomer.metadata default).Accepted arrival := by decide +kernel
  refine ⟨acc, second_pass_quiet.2 {} newcomer.metadata newcomer arrival default nextTurn nextTurn
    rfl ?_ ?_ ?_ acc⟩
  · exact (lookup_cons_if _ _ []).trans (if_pos rfl)
  · decide
  · decide +kernel

end Reconcile
end PreviewControl
