import PreviewControl.Proofs.Attempts
import PreviewControl.Proofs.Convergence

/-!
# Times to live that lead too far

A record that has no time of expiry yet gets one when its first status is written: the time of its
creation and its time to live together. That a time to live can be read does not keep it from
leading beyond the representable years. Then there is no such status, and the pass does not end.
-/
namespace PreviewControl

open Pass

namespace Instant

/-- The last second of the year 9999. -/
def lastCommonSecond : Int := (Time.Date.mk 9999 12 31).toDays * 86400 + 86399

/-- A time in the years from 1970 to 9999. -/
def Common (t : Instant) : Prop := 0 ≤ t.seconds ∧ t.seconds ≤ lastCommonSecond

/-- So many seconds can be added to every time in the years from 1970 to 9999. -/
def commonReach : Int := lastSecond - lastCommonSecond

/-- The last whole second of these years. -/
def lastCommon : Instant := ⟨lastCommonSecond, 0, by decide⟩

theorem common_lastCommon : lastCommon.Common := ⟨by decide, Int.le_refl _⟩

theorem le_of_common {t : Instant} {span : Nat} (h : t.Common)
    (within : (span : Int) ≤ commonReach) : t.seconds + span ≤ lastSecond := by
  have hlast := h.2
  unfold commonReach at within
  omega

end Instant

namespace Status

variable {env : Environment} {current : Status} {config : Config} {now : Instant}
  {message : String} {spec : Spec}

/-- There is no time of expiry yet, and the one that follows is beyond the representable years. -/
def TooLate (current : Status) (spec : Spec) (now : Instant) : Prop :=
  current.expiresAt = none ∧
    Instant.lastSecond < (current.createdAt.getD now).seconds + spec.ttlSeconds

theorem lifetime?_eq_none : lifetime? current spec now = none ↔ current.TooLate spec now := by
  unfold lifetime? TooLate
  cases current.expiresAt with
  | some expiresAt => simp
  | none => simp [Instant.add?_eq_none]

theorem accepted?_eq_none :
    accepted? env current config now = none ↔ current.TooLate env.spec now :=
  Option.map_eq_none_iff.trans lifetime?_eq_none

theorem refused?_eq_none :
    refused? env current message now = none ↔ current.TooLate env.spec now :=
  Option.map_eq_none_iff.trans lifetime?_eq_none

/-- A time to live of this length is never too long in the years from 1970 to 9999. -/
theorem not_tooLate_iff : (∀ (current : Status) (now : Instant), now.Common →
      (∀ createdAt, current.createdAt = some createdAt → createdAt.Common) →
        ¬current.TooLate spec now) ↔ (spec.ttlSeconds : Int) ≤ Instant.commonReach := by
  constructor
  · intro h
    have hlast := h {} Instant.lastCommon Instant.common_lastCommon fun _ hc => by cases hc
    have hle : ¬Instant.lastSecond < Instant.lastCommonSecond + spec.ttlSeconds :=
      fun hlt => hlast ⟨rfl, hlt⟩
    unfold Instant.commonReach
    omega
  · intro within current now hnow hcreated ⟨_, hlate⟩
    have hcommon : (current.createdAt.getD now).Common := by
      cases hc : current.createdAt with
      | none => exact hnow
      | some createdAt => exact hcreated createdAt hc
    have hle := Instant.le_of_common hcommon within
    omega

end Status

/-! ## Passes that do not end -/

theorem Pass.overflows_ofTime {α : Type} {x : Option α} {t : List Deed} :
    (ofTime x).Leads t overflow ↔ t = [] ∧ x = none := by
  cases x with
  | none => simp
  | some a => simp

namespace Reconcile

variable {config : Config} {env : Environment} {ns name : String} {now : Instant}
  {current next : Status} {found : Findings} {t : List Deed} {notice : Metadata}

theorem neverOverflows_reportIf (event : Option Event) : (reportIf event).NeverOverflows := by
  cases event with
  | none => exact neverOverflows_done ()
  | some event => exact neverOverflows_announce (neverOverflows_done ())

theorem neverOverflows_ensureAll (children : List Child) :
    (ensureAll config env ns children).NeverOverflows := by
  induction children with
  | nil => exact neverOverflows_done none
  | cons child children ih =>
    refine neverOverflows_bind (Child.neverOverflows_ensure child).attempt fun x => ?_
    cases x with
    | ok => exact ih
    | error e => exact neverOverflows_bind ih fun _ => neverOverflows_done _

theorem neverOverflows_survey : (survey config env ns).NeverOverflows := by
  refine neverOverflows_bind (neverOverflows_ensureAll _) fun fault => ?_
  refine neverOverflows_bind (neverOverflows_reportIf _) fun _ => ?_
  refine neverOverflows_bind (neverOverflows_call fun answer => ?_) fun cost => ?_
  · cases answer <;> exact neverOverflows_done _
  · refine neverOverflows_bind ?_ fun health => neverOverflows_done _
    exact neverOverflows_bind Child.neverOverflows_deploymentHealth.attempt fun _ =>
      neverOverflows_done _

theorem neverOverflows_writeChanged :
    (writeChanged env current next now).NeverOverflows := by
  unfold writeChanged
  split
  · exact neverOverflows_bind (neverOverflows_request _) fun _ => neverOverflows_done _
  · exact neverOverflows_done none

theorem neverOverflows_conclude : (conclude config env current found now).NeverOverflows := by
  refine neverOverflows_bind neverOverflows_writeChanged fun written => ?_
  obtain ⟨fault, cost, health⟩ := found
  cases fault with
  | none =>
    show (ite _ ((reportIf _).bind fun _ => _) _ : Pass Requeue).NeverOverflows
    split
    · exact neverOverflows_bind (neverOverflows_reportIf _) fun _ => neverOverflows_done _
    · exact neverOverflows_done _
  | some e =>
    show (ite _ ((reportIf _).bind fun _ => _) _ : Pass Requeue).NeverOverflows
    split
    · exact neverOverflows_bind (neverOverflows_reportIf _) fun _ => neverOverflows_fail e
    · exact neverOverflows_fail e

theorem neverOverflows_removeAll (children : List Child) :
    (removeAll config env ns children).NeverOverflows := by
  induction children with
  | nil => exact neverOverflows_done ()
  | cons child children ih =>
    have hremove : (child.remove config env ns).NeverOverflows :=
      neverOverflows_bind (Child.neverOverflows_removeOwned _) fun _ => neverOverflows_done ()
    refine neverOverflows_bind hremove.attempt fun x => ?_
    cases x with
    | ok => exact ih
    | error e => exact neverOverflows_announce (neverOverflows_fail e)

theorem neverOverflows_release : (release config env now).NeverOverflows := by
  have hmark : (markTerminating env now).NeverOverflows := by
    unfold markTerminating
    split
    · exact neverOverflows_done env
    · refine neverOverflows_call fun answer => ?_
      cases answer <;> exact neverOverflows_done _
  refine neverOverflows_bind hmark fun latest => ?_
  refine neverOverflows_bind (neverOverflows_removeAll _) fun _ => ?_
  refine neverOverflows_bind (neverOverflows_request _) fun _ => ?_
  exact neverOverflows_announce (neverOverflows_done _)

theorem neverOverflows_account (x : Except Failure Requeue) : (account x).NeverOverflows := by
  cases x with
  | ok requeue => exact neverOverflows_count (neverOverflows_done requeue)
  | error e => exact neverOverflows_count (neverOverflows_count (neverOverflows_fail e))

theorem overflows_refuse {fault : Failure} : (refuse env fault now).Leads t overflow ↔
    t = [] ∧ env.known.TooLate env.spec now := by
  unfold refuse
  refine (overflows_bind fun next => ?_).trans
    (overflows_ofTime.trans (and_congr_right fun _ => Status.refused?_eq_none))
  refine neverOverflows_bind neverOverflows_writeChanged fun written => ?_
  split
  · exact neverOverflows_announce (neverOverflows_done _)
  · exact neverOverflows_done _

theorem overflows_converge : (converge config env now).Leads t overflow ↔
    t = [] ∧ env.known.ns = none ∧ env.known.TooLate env.spec now := by
  rw [converge_eq]
  refine (overflows_bind fun entered => ?_).trans ?_
  · exact neverOverflows_bind neverOverflows_survey fun found => neverOverflows_conclude
  · unfold firstContact
    cases hns : env.known.ns with
    | some ns => simp
    | none =>
      simp only [Option.isSome_none, Bool.false_eq_true, if_false, true_and]
      refine (overflows_bind fun accepted => ?_).trans
        (overflows_ofTime.trans (and_congr_right fun _ => Status.accepted?_eq_none))
      exact neverOverflows_bind (neverOverflows_request _) fun _ => neverOverflows_done _

/-- The time of expiry of a record is to be recorded, and it is beyond the representable years. -/
structure Overruns (env : Environment) (name : String) (now : Instant) : Prop where
  staying : env.metadata.isDeleting = false
  held : env.hasFinalizer = true
  first : env.spec.validate name ≠ .ok () ∨ env.known.ns = none
  late : env.known.TooLate env.spec now

theorem overflows_step : (step config name env now).Leads t overflow ↔
    t = [] ∧ Overruns env name now := by
  cases hdeleting : env.metadata.isDeleting with
  | true =>
    refine iff_of_false (fun h => ?_) fun h => nomatch hdeleting.symm.trans h.2.staying
    cases hheld : env.hasFinalizer with
    | true =>
      rw [step_of_leaving hdeleting hheld] at h
      exact neverOverflows_release t h
    | false =>
      rw [step_of_released hdeleting hheld] at h
      exact neverOverflows_done _ t h
  | false =>
    cases hheld : env.hasFinalizer with
    | false =>
      refine iff_of_false (fun h => ?_) fun h => nomatch hheld.symm.trans h.2.held
      unfold step at h
      rw [hdeleting, hheld] at h
      exact neverOverflows_bind (neverOverflows_request (.addFinalizer env))
        (fun _ => neverOverflows_done _) t h
    | true =>
      cases hvalid : env.spec.validate name with
      | error fault =>
        rw [step_of_refused hdeleting hheld hvalid, overflows_refuse]
        have hinvalid : env.spec.validate name ≠ .ok () := hvalid ▸ nofun
        exact and_congr_right fun _ =>
          ⟨fun hlate => ⟨hdeleting, hheld, .inl hinvalid, hlate⟩, Overruns.late⟩
      | ok =>
        rw [step_of_valid hdeleting hheld hvalid, overflows_converge]
        exact and_congr_right fun _ => ⟨fun ⟨hns, hlate⟩ => ⟨hdeleting, hheld, .inr hns, hlate⟩,
          fun h => ⟨h.first.resolve_left fun hne => hne hvalid, h.late⟩⟩

/-- A pass overflows as soon as it has read the record, or not at all. -/
theorem overflows_pass : (pass config notice now).Leads t overflow ↔ ∃ ns env,
    notice.ns = some ns ∧ t = [read notice ns env] ∧ Overruns env notice.anyName now := by
  rw [pass_eq_account, overflows_bind neverOverflows_account, overflows_attempt]
  cases place : notice.ns with
  | none =>
    obtain ⟨e, hfail⟩ := act_of_nowhere config place now
    rw [hfail]
    exact iff_of_false (neverOverflows_fail e t) fun ⟨_, _, h, _⟩ => nomatch h
  | some ns =>
    rw [act_eq place]
    constructor
    · intro h
      rcases leads_call.1 h with ⟨_, he⟩ | ⟨answer, u, rfl, hu⟩
      · cases he
      · match answer, hu with
        | .error e, hu => exact absurd hu (neverOverflows_fail e u)
        | .ok none, hu => exact absurd hu (neverOverflows_done _ u)
        | .ok (some env), hu =>
          obtain ⟨rfl, hover⟩ := overflows_step.1 hu
          exact ⟨ns, env, rfl, rfl, hover⟩
    · rintro ⟨_, env, heq, rfl, hover⟩
      cases heq
      exact .call (overflows_step.2 ⟨rfl, hover⟩)

/-- Only a time to live can keep a status from being there: that of a record without a time of
expiry, when its time of creation and its time to live together lie beyond the representable years.
In the years from 1970 to 9999 that never happens to a spec if and only if its time to live is
within what is always in reach from there. A pass overflows if and only if it has read a record that
is held and not being deleted, whose status of first contact or of refusal is called for and is not
there for this reason. -/
theorem status_missing_iff (config : Config) (env : Environment) (current : Status)
    (message : String) (now : Instant) :
    (current.accepted? env config now = none ↔ current.TooLate env.spec now) ∧
    (current.refused? env message now = none ↔ current.TooLate env.spec now) ∧
    ((∀ (known : Status) (start : Instant), start.Common →
        (∀ createdAt, known.createdAt = some createdAt → createdAt.Common) →
          (known.accepted? env config start).isSome = true ∧
          (known.refused? env message start).isSome = true) ↔
      (env.spec.ttlSeconds : Int) ≤ Instant.commonReach) ∧
    (∀ (notice : Metadata) (t : List Deed), (pass config notice now).Leads t overflow ↔
      ∃ ns record, notice.ns = some ns ∧ t = [read notice ns record] ∧
        Overruns record notice.anyName now) := by
  refine ⟨Status.accepted?_eq_none, Status.refused?_eq_none, ?_, fun notice t => overflows_pass⟩
  rw [← Status.not_tooLate_iff]
  simp only [Option.isSome_iff_ne_none, ne_eq, Status.accepted?_eq_none, Status.refused?_eq_none,
    and_self]

/-- A time to live that can be read leads too far, at whatever time in the years from 1970 to 9999
the record is seen first. -/
theorem endless_overflows : Ttl.read endless.spec.ttl.toList = .ok 8640000000000 ∧
    ∀ now : Instant, now.Common → Status.accepted? endless {} {} now = none ∧
      Status.refused? endless {} "" now = none ∧
      ∃ t, (pass {} newcomer.metadata now).Leads t overflow := by
  have hread : Ttl.read endless.spec.ttl.toList = .ok 8640000000000 := by decide +kernel
  have hspan : endless.spec.ttlSeconds = 8640000000000 := by
    unfold Spec.ttlSeconds Ttl.orFallback
    rw [hread]
  have hlast : Instant.lastSecond < 8640000000000 := by decide +kernel
  refine ⟨hread, fun now common => ?_⟩
  have hlate : Status.TooLate {} endless.spec now := by
    refine ⟨rfl, ?_⟩
    have hstart : 0 ≤ now.seconds := common.1
    show Instant.lastSecond < now.seconds + _
    rw [hspan]
    omega
  have hover : Overruns endless newcomer.metadata.anyName now :=
    ⟨rfl, by decide, .inr rfl, hlate⟩
  exact ⟨Status.accepted?_eq_none.2 hlate, Status.refused?_eq_none.2 hlate, _,
    overflows_pass.2 ⟨"previews", endless, rfl, rfl, hover⟩⟩

/-- With a time to live of four hours a record still gets its status at the end of these years. -/
theorem status_missing_iff_newcomer :
    (Status.accepted? newcomer {} {} Instant.lastCommon).isSome = true ∧
      (Status.refused? newcomer {} "" Instant.lastCommon).isSome = true := by
  have within : (newcomer.spec.ttlSeconds : Int) ≤ Instant.commonReach := by decide +kernel
  obtain ⟨_, _, hreach, _⟩ := status_missing_iff {} newcomer {} "" Instant.lastCommon
  exact hreach.2 within {} Instant.lastCommon Instant.common_lastCommon fun _ hc => by cases hc

end Reconcile
end PreviewControl
