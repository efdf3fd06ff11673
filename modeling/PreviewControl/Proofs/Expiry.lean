import PreviewControl.Proofs.Belongings
import PreviewControl.Proofs.Custody

/-!
# Records whose time is up

The cleanup only requests that an expired record be deleted, and the finalizer holds the record
back. The next pass over it clears its children away and takes the finalizer off, and then it is
gone.
-/
namespace PreviewControl

open Pass

/-! ## The request for deletion -/

/-- The record after the request for its deletion, which a finalizer holds back. -/
def Environment.dismissed (env : Environment) (since : Instant) : Environment :=
  Store.bump { env with metadata := { env.metadata with deletionTimestamp := some since } }

/-- The deletion of the record has been requested, and nothing else has happened to it. -/
def Dismissed (env : Environment) (r : Option Environment) : Prop :=
  ∃ since, r = some (env.dismissed since)

/-- Nothing has happened to the record but perhaps the request for its deletion. -/
def Untouched (env : Environment) (r : Option Environment) : Prop :=
  r = some env ∨ Dismissed env r

theorem Untouched.dismissed {env : Environment} {s : Store}
    (h : Untouched env (s.record? env.key)) (held : env.metadata.heldBy ≠ [])
    (staying : env.metadata.isDeleting = false) :
    Dismissed env ((s.deleteRecord env.key).record? env.key) := by
  have hheld : env.metadata.heldBy.isEmpty = false := List.isEmpty_eq_false_iff.2 held
  rcases h with there | ⟨since, there⟩
  · refine ⟨s.now, ?_⟩
    unfold Store.deleteRecord
    simp only [there, hheld, staying, Bool.false_eq_true, if_false]
    rw [Store.record?_revise, if_pos rfl]
    rfl
  · have hheld' : (env.dismissed since).metadata.heldBy.isEmpty = false := hheld
    have hdeleting : (env.dismissed since).metadata.isDeleting = true := rfl
    refine ⟨since, ?_⟩
    unfold Store.deleteRecord
    simp only [there, hheld', hdeleting, Bool.false_eq_true, if_false, if_true]

/-! ## What the cleanup keeps -/

namespace Cleanup

open Store

variable {env : Environment} {envs : List Environment} {s : Store} {sum sum' : Summary}
  {c : Call} {Q : Store → Prop}

/-- A property of the records and the objects that no request for the deletion of a record takes
away. -/
structure Lasting (Q : Store → Prop) : Prop where
  same : ∀ {s left : Store}, left.records = s.records → left.objects = s.objects → Q s → Q left
  request : ∀ {s : Store} (key : RecordKey), Q s → Q (s.deleteRecord key)

theorem Lasting.answer (lasting : Lasting Q) (chore : Chore c) (h : Q s) : Q (s.answer c).2 := by
  unfold Store.answer
  cases hs : Fault.strike c s.faults with
  | some hit => cases chore <;> exact lasting.same (s := s) rfl rfl h
  | none =>
    cases chore with
    | list => exact lasting.same (s := s) rfl rfl h
    | delete name ns => exact lasting.request ⟨ns, name⟩ h

theorem Lasting.after (lasting : Lasting Q) {α : Type} {p : Pass α} (makes : p.Makes Chore)
    (h : Q s) : Q (p.after s) :=
  makes.preserves (fun _ _ chore hs => lasting.answer chore hs) h

theorem lasting_objects (s : Store) : Lasting fun left => left.objects = s.objects where
  same _ hobjects h := hobjects.trans h
  request key h := (objects_deleteRecord _ key).trans h

/-- What is true of one record lasts if the request for its own deletion does not take it away. -/
theorem lasting_record {P : Option Environment → Prop} {key : RecordKey}
    (own : ∀ s : Store, P (s.record? key) → P ((s.deleteRecord key).record? key)) :
    Lasting fun s => P (s.record? key) where
  same hrecords _ h := by
    unfold record? at h ⊢
    rw [hrecords]
    exact h
  request {s} k h := by
    by_cases hk : k = key
    · exact hk ▸ own s h
    · rw [record?_deleteRecord_of_ne hk]
      exact h

theorem lasting_untouched (held : env.metadata.heldBy ≠ [])
    (staying : env.metadata.isDeleting = false) :
    Lasting fun s => Untouched env (s.record? env.key) :=
  lasting_record fun _ h => .inr (h.dismissed held staying)

theorem lasting_dismissed (held : env.metadata.heldBy ≠ [])
    (staying : env.metadata.isDeleting = false) :
    Lasting fun s => Dismissed env (s.record? env.key) :=
  lasting_record fun _ h => Untouched.dismissed (.inr h) held staying

/-! ## What the cleanup requests -/

/-- Of a request that fails, account is taken. -/
theorem expire_done (done : (expire env sum).outcome s = .done sum') :
    sum.failed ≤ sum'.failed ∧
      (sum'.failed = sum.failed → (expire env sum).after s = s.deleteRecord env.key) := by
  have hask := outcome_inquire (.deleteEnvironment env.name (env.metadata.ns.getD "")) s
  unfold expire at done ⊢
  rw [bind_eq, outcome_bind_done hask] at done
  rw [bind_eq, after_bind_done hask, after_inquire]
  cases hs : Fault.strike (.deleteEnvironment env.name (env.metadata.ns.getD "")) s.faults with
  | some hit =>
    rw [answer_of_hit hs rfl] at done ⊢
    cases done
    exact ⟨Nat.le_succ _, fun h => absurd h (Nat.succ_ne_self _)⟩
  | none =>
    rw [answer_of_miss hs rfl] at done ⊢
    cases done
    exact ⟨Nat.le_refl _, fun _ => rfl⟩

theorem failed_le (done : (expireAll sum envs).outcome s = .done sum') :
    sum.failed ≤ sum'.failed := by
  induction envs generalizing sum s with
  | nil =>
    cases done
    exact Nat.le_refl _
  | cons env envs ih =>
    obtain ⟨mid, hmid, hrest⟩ := of_bind_done done
    exact Nat.le_trans (expire_done hmid).1 (ih hrest)

/-- If no request fails, what the request for one record of the list brings about is there in the
end. -/
theorem expireAll_brings {R : Store → Prop} (before : Lasting Q) (after : Lasting R)
    (brings : ∀ s, Q s → R (s.deleteRecord env.key)) (listed : env ∈ envs) (h : Q s)
    (done : (expireAll sum envs).outcome s = .done sum') (requested : sum'.failed = sum.failed) :
    R ((expireAll sum envs).after s) := by
  induction envs generalizing sum s with
  | nil => cases listed
  | cons first envs ih =>
    obtain ⟨mid, hmid, hrest⟩ := of_bind_done done
    obtain ⟨hle, hafter⟩ := expire_done hmid
    -- The number of failures never falls, so it has not risen here if it has not in the end.
    have hfailed : mid.failed = sum.failed := Nat.le_antisymm (requested ▸ failed_le hrest) hle
    have hwhole : (expireAll sum (first :: envs)).after s =
        (expireAll mid envs).after (s.deleteRecord first.key) :=
      (after_bind_done hmid).trans (congrArg _ (hafter hfailed))
    rw [hwhole]
    rw [hafter hfailed] at hrest
    rcases List.mem_cons.1 listed with rfl | listed
    · exact after.after (makes_expireAll _ _) (brings s h)
    · exact ih listed (before.request _ h) hrest (requested.trans hfailed.symm)

/-- If no request fails, the deletion of every record of the list has been requested in the end. -/
theorem expireAll_dismisses (held : env.metadata.heldBy ≠ [])
    (staying : env.metadata.isDeleting = false) (listed : env ∈ envs)
    (h : Untouched env (s.record? env.key)) (done : (expireAll sum envs).outcome s = .done sum')
    (requested : sum'.failed = sum.failed) :
    Dismissed env (((expireAll sum envs).after s).record? env.key) :=
  expireAll_brings (lasting_untouched held staying) (lasting_dismissed held staying)
    (fun _ hs => hs.dismissed held staying) listed h done requested

theorem listed_of_done {ns : String}
    (done : (request (.listEnvironments ns)).outcome s = .done envs) : envs = s.recordsIn ns := by
  rw [outcome_request] at done
  unfold Store.answer at done
  cases hs : Fault.strike (.listEnvironments ns) s.faults with
  | some hit =>
    rw [hs] at done
    cases done
  | none =>
    rw [hs] at done
    cases done
    rfl

theorem mem_recordsIn (there : s.record? env.key = some env) : env ∈ s.recordsIn env.key.ns := by
  obtain ⟨before, after, hrecords, _⟩ := List.lookup_eq_some_iff.1 there
  refine List.mem_map.2 ⟨(env.key, env), List.mem_filter.2 ⟨?_, beq_self_eq_true _⟩, rfl⟩
  rw [hrecords]
  exact List.mem_append_right _ List.mem_cons_self

/-- A cleanup pass in which no request fails has requested the deletion of every expired record. -/
theorem pass_dismisses {now : Instant} (there : s.record? env.key = some env)
    (held : env.metadata.heldBy ≠ []) (expired : env.isExpired now = true)
    (done : (pass env.key.ns now).outcome s = .done sum) (requested : sum.failed = 0) :
    Dismissed env (((pass env.key.ns now).after s).record? env.key) := by
  have staying : env.metadata.isDeleting = false := by
    unfold Environment.isExpired at expired
    simp only [Bool.and_eq_true, Bool.not_eq_true'] at expired
    exact expired.1.1
  obtain ⟨envs, hlist, hrest⟩ := of_bind_done done
  obtain ⟨⟨⟩, hmeasured, hrest⟩ := of_bind_done hrest
  obtain rfl := listed_of_done hlist
  have hwhole : (pass env.key.ns now).after s = _ :=
    (after_bind_done hlist).trans (after_bind_done hmeasured)
  rw [hwhole]
  have hlisted : env ∈ (s.recordsIn env.key.ns).filter (·.isExpired now) :=
    List.mem_filter.2 ⟨mem_recordsIn there, expired⟩
  have hstart : Untouched env
      (((request (.listEnvironments env.key.ns)).after s).record? env.key) :=
    (lasting_untouched held staying).after (makes_request (.list _)) (.inl there)
  rw [(makes_measureAll _).after_eq] at hrest ⊢
  exact expireAll_dismisses held staying hlisted hstart hrest requested

end Cleanup

/-! ## The pass that lets the record go -/

namespace Reconcile

open Child

variable {config : Config} {env : Environment} {ns : String} {s : Store} {now : Instant}

/-- Where nothing fails, all children are cleared away but those that name another identity. -/
theorem removeAll_clears (children : List Child) (calm : s.Faultless)
    (removable : ∀ child ∈ children, Removable config env ns s child) :
    (removeAll config env ns children).outcome s = .done () ∧
      ∀ text object, ((removeAll config env ns children).after s).object? text = some object ↔
        s.object? text = some object ∧
          ∀ child ∈ children, text = (child.address config env ns).text → Foreign env object := by
  induction children generalizing s with
  | nil =>
    refine ⟨rfl, fun text object => ⟨fun h => ⟨h, fun child hchild => ?_⟩, And.left⟩⟩
    cases hchild
  | cons child children ih =>
    obtain ⟨hfirst, hothers⟩ := List.forall_mem_cons.1 removable
    have hdone : (child.remove config env ns).attempt.outcome s = .done (.ok ()) := by
      rw [outcome_attempt, remove_done calm hfirst]
      rfl
    have hstep := object?_remove calm hfirst
    have hleft : ∀ other ∈ children,
        Removable config env ns ((child.remove config env ns).after s) other :=
      fun other hother object ho => hothers other hother object ((hstep _ _).1 ho).1
    obtain ⟨hend, hobjects⟩ := ih (faultless_after calm _) hleft
    rw [removeAll, bind_eq, outcome_bind_done hdone, after_bind_done hdone, after_attempt]
    refine ⟨hend, fun text object => ?_⟩
    rw [hobjects, hstep, List.forall_mem_cons, and_assoc]

/-- A record that can be let go: its deletion has been requested, no other finalizer holds it, its
children can be removed, and nothing fails. -/
structure Releasable (config : Config) (env : Environment) (s : Store) : Prop where
  calm : s.Faultless
  there : s.record? env.key = some env
  deleting : env.metadata.isDeleting = true
  only : env.metadata.heldBy = [Environment.cleanupFinalizer]
  removable : ∀ child, Removable config env env.childNamespace s child

/-- Nothing is left of a record, and of its children only what names another identity. -/
structure Cleared (config : Config) (env : Environment) (s left : Store) : Prop where
  record : left.record? env.key = none
  objects : ∀ text object, left.object? text = some object ↔ s.object? text = some object ∧
    ∀ child : Child, text = (child.address config env env.childNamespace).text → Foreign env object

theorem hasFinalizer_of_only (only : env.metadata.heldBy = [Environment.cleanupFinalizer]) :
    env.hasFinalizer = true := by
  rw [Environment.hasFinalizer, only]
  rfl

/-- With its last finalizer, a record whose deletion has been requested goes away. -/
theorem removeFinalizer_erases (calm : s.Faultless) (there : s.record? env.key = some env)
    (deleting : env.metadata.isDeleting = true)
    (only : env.metadata.heldBy = [Environment.cleanupFinalizer]) :
    (request (.removeFinalizer env)).outcome s = .done () ∧
      (request (.removeFinalizer env)).after s = s.eraseRecord env.key := by
  have hnone : [Environment.cleanupFinalizer].filter (· != Environment.cleanupFinalizer) = [] := by
    decide
  have hdeleting : (Store.withFinalizers env []).metadata.isDeleting = true := deleting
  have hsettle : s.settle env.key (Store.withFinalizers env []) = s.eraseRecord env.key := by
    rw [Store.settle, hdeleting]
    rfl
  have hserve : s.serve (.removeFinalizer env) = (.ok (), s.eraseRecord env.key) := by
    simp only [Store.serve, Store.write, Store.current_self there, Except.map, Store.answerWrite,
      only, hnone, hsettle]
  obtain ⟨houtcome, hafter⟩ := request_of_miss (calm (.removeFinalizer env)) rfl
  rw [houtcome, hafter, hserve]
  exact ⟨rfl, rfl⟩

theorem letGo_clears (ready : Releasable config env s) :
    (letGo config env).outcome s = .done .onChange ∧
      Cleared config env s ((letGo config env).after s) := by
  have hremoval : (removal config env).outcome s = .done () ∧ _ :=
    removeAll_clears all.reverse ready.calm fun child _ => ready.removable child
  obtain ⟨hdone, hobjects⟩ := hremoval
  have hmid : ((removal config env).after s).record? env.key = some env := by
    rw [Store.record?, (quiet_removal config env s).kept]
    exact ready.there
  obtain ⟨hreleased, hafter⟩ := removeFinalizer_erases
    (faultless_after ready.calm (removal config env)) hmid ready.deleting ready.only
  rw [letGo, outcome_bind_done hdone, after_bind_done hdone, outcome_bind_done hreleased,
    after_bind_done hreleased, hafter]
  refine ⟨rfl, (Store.record?_eraseRecord ..).trans (if_pos rfl), fun text object => ?_⟩
  refine (hobjects text object).trans (and_congr_right fun _ => forall_congr' fun child => ?_)
  exact forall_prop_of_true (by cases child <;> decide)

/-- Where nothing fails, the record is marked. -/
theorem accepted_markTerminating (calm : s.Faultless) (there : s.record? env.key = some env)
    (now : Instant) : (markTerminating env now).Accepted s := by
  unfold markTerminating
  split
  · exact accepted_iff.2 rfl
  · have hanswer : ∃ updated, (s.answer (.patchStatus env (env.known.terminating now))).1 =
        .ok updated := by
      rw [Store.answer_of_miss (calm _) rfl]
      simp only [Store.serve, Store.current_self there]
      exact ⟨_, rfl⟩
    obtain ⟨updated, hok⟩ := hanswer
    intro start env' status answer hc
    rw [bind_eq, happenings_bind_done (outcome_inquire _ s), happenings_inquire, hok] at hc
    cases List.mem_singleton.1 hc
    exact ⟨updated, rfl⟩

/-- The mark gives the record another version, and that is the one that is let go. -/
theorem release_clears (ready : Releasable config env s) (now : Instant) :
    (release config env now).outcome s = .done .onChange ∧
      Cleared config env s ((release config env now).after s) := by
  obtain ⟨v, status, hdone, hthere, _, hns, _, hobjects, _⟩ :=
    markTerminating_settles ready.there (accepted_markTerminating ready.calm ready.there now)
  have hready : Releasable config (restated env v status) ((markTerminating env now).after s) := by
    refine ⟨faultless_after ready.calm _, hthere, ready.deleting, ready.only,
      fun child object ho => ?_⟩
    rw [hns, Store.object?, hobjects] at ho
    exact ready.removable child object ho
  obtain ⟨hend, hcleared⟩ := letGo_clears hready
  rw [(release_of_mark hdone hns).1, (release_of_mark hdone hns).2]
  refine ⟨hend, hcleared.record, fun text object => ?_⟩
  rw [hcleared.objects, hns, Store.object?, hobjects]
  rfl

theorem pass_clears {notice : Metadata} (place : notice.ns = some ns)
    (about : env.key = ⟨ns, notice.anyName⟩) (ready : Releasable config env s) (now : Instant) :
    (pass config notice now).outcome s = .done .onChange ∧
      Cleared config env s ((pass config notice now).after s) := by
  obtain ⟨hend, hafter⟩ : _ ∧ _ :=
    pass_of_read config ready.calm.undisturbed place about ready.there now
  rw [hend, hafter, step_of_leaving ready.deleting (hasFinalizer_of_only ready.only)]
  exact release_clears ready now

end Reconcile

/-! ## The whole course -/

open Child

/-- A record whose time is up, and that is not exempt, is gone after a cleanup pass whose requests
succeed and one pass over it in which nothing fails. Of all objects, its children are gone with it,
but those that name another identity; whatever else there was is left. -/
theorem expired_record_cleared (config : Config) (notice : Metadata) (later : Instant) {s : Store}
    {env : Environment} {ns uid : String} {expiry now : Instant} {sum : Cleanup.Summary}
    (place : notice.ns = some ns) (about : env.key = ⟨ns, notice.anyName⟩)
    (there : s.record? env.key = some env) (identified : env.metadata.uid = some uid)
    (lifetime : env.expiresAt? = some expiry) (past : expiry.before now = true)
    (unpinned : env.isPinned = false) (staying : env.metadata.isDeleting = false)
    (only : env.metadata.heldBy = [Environment.cleanupFinalizer])
    (swept : (Cleanup.pass ns now).outcome s = .done sum) (requested : sum.failed = 0)
    (calm : ((Cleanup.pass ns now).after s).Faultless)
    (removable : ∀ child, Removable config env env.childNamespace s child) :
    (Reconcile.pass config notice later).outcome ((Cleanup.pass ns now).after s) =
        .done .onChange ∧
      ((Reconcile.pass config notice later).after ((Cleanup.pass ns now).after s)).record?
        env.key = none ∧
      ∀ text object, ((Reconcile.pass config notice later).after
          ((Cleanup.pass ns now).after s)).object? text = some object ↔
        s.object? text = some object ∧ ∀ child : Child,
          text = (child.address config env env.childNamespace).text →
            ∃ other, other ≠ uid ∧ NamedBy other object := by
  obtain rfl : env.key.ns = ns := congrArg RecordKey.ns about
  have expired : env.isExpired now = true := by
    rw [Environment.isExpired, staying, unpinned, lifetime]
    exact past
  have held : env.metadata.heldBy ≠ [] := only ▸ List.cons_ne_nil _ _
  obtain ⟨since, hthere⟩ := Cleanup.pass_dismisses there held expired swept requested
  have hobjects : ((Cleanup.pass env.key.ns now).after s).objects = s.objects :=
    (Cleanup.lasting_objects s).after (Cleanup.makes_pass _ _) rfl
  have ready : Reconcile.Releasable config (env.dismissed since)
      ((Cleanup.pass env.key.ns now).after s) := by
    refine ⟨calm, hthere, rfl, only, fun child object ho => ?_⟩
    rw [Store.object?, hobjects] at ho
    exact removable child object ho
  have named : (env.dismissed since).key = ⟨env.key.ns, notice.anyName⟩ := about
  obtain ⟨hdone, hcleared⟩ := Reconcile.pass_clears place named ready later
  refine ⟨hdone, hcleared.record, fun text object => ?_⟩
  rw [hcleared.objects, Store.object?, hobjects]
  refine and_congr_right fun _ => forall_congr' fun child => imp_congr_right fun _ => ?_
  exact foreign_iff_namedBy identified

/-- A record that has outlived its time, with the namespace that it has recorded. -/
def stale : Environment :=
  { Reconcile.newcomer with status := some { ns := some "pr-5", expiresAt := some default } }

/-- A cluster with this record and its namespace, and with the descriptor of another record of the
same pull request. -/
def outlived : Store where
  records := [(⟨"previews", "shop"⟩, stale)]
  objects := [((namespaceAddress "pr-5").text, namespaceObject stale "pr-5"),
    ((descriptorAddress 5 {}).text, descriptorObject Child.rival "pr-5" {})]
  now := Reconcile.nextTurn

private theorem removable_outlived (child : Child) :
    Removable {} stale stale.childNamespace outlived child := by
  intro object ho
  obtain ⟨before, after, hobjects, _⟩ := List.lookup_eq_some_iff.1 ho
  have hmem : ((child.address {} stale stale.childNamespace).text, object) ∈ outlived.objects := by
    rw [hobjects]
    exact List.mem_append_right _ List.mem_cons_self
  simp only [outlived, List.mem_cons, List.not_mem_nil, or_false, Prod.mk.injEq] at hmem
  rcases hmem with ⟨_, rfl⟩ | ⟨_, rfl⟩
  · exact ⟨rendered_namespace.legible, rendered_namespace.not_held⟩
  · exact ⟨rendered_descriptor.legible, rendered_descriptor.not_held⟩

/-- The same cluster after a cleanup pass and a pass over the record. -/
def survived : Store :=
  (Reconcile.pass {} stale.metadata Reconcile.nextTurn).after
    ((Cleanup.pass "previews" Reconcile.nextTurn).after outlived)

/-- The record goes, and so does its namespace, but the descriptor of the other record stays. -/
theorem expired_record_cleared_outlived : survived.record? stale.key = none ∧
    survived.object? (namespaceAddress "pr-5").text = none ∧
    survived.object? (descriptorAddress 5 {}).text =
      some (descriptorObject rival "pr-5" {}) := by
  have swept : (Cleanup.pass "previews" Reconcile.nextTurn).outcome outlived =
      .done { scanned := 1, expired := 1, deleted := 1, failed := 0 } := by rfl
  have there : outlived.record? stale.key = some stale := by rfl
  have calm : outlived.Faultless := fun _ => rfl
  have identified : stale.metadata.uid = some "u-5" := rfl
  obtain ⟨_, hgone, hobjects⟩ := expired_record_cleared {} stale.metadata Reconcile.nextTurn rfl rfl
    there identified rfl (by decide +kernel) (by decide) rfl rfl swept rfl
    (faultless_after calm _) removable_outlived
  refine ⟨hgone, Option.eq_none_iff_forall_ne_some.2 fun object ho => ?_,
    (hobjects _ _).2 ⟨rfl, fun _ _ => ?_⟩⟩
  · obtain ⟨hobject, hother⟩ := (hobjects _ object).1 ho
    have own : outlived.object? (namespaceAddress "pr-5").text =
        some (namespaceObject stale "pr-5") := List.lookup_cons_self
    obtain rfl := Option.some.inj (own.symm.trans hobject)
    exact not_foreign_of_namedBy identified (rendered_namespace.namedBy identified)
      ((foreign_iff_namedBy identified).2 (hother «namespace» rfl))
  · exact ⟨"u-9", by decide, rendered_descriptor.namedBy rfl⟩

end PreviewControl
