import PreviewControl.Proofs.Handback
import PreviewControl.Proofs.Readiness

/-!
# What becomes of a ready environment when something cannot be seen

An environment that is ready stays so while a child cannot be put in place, whatever else can be
read or not. When all children are in place and only the health of the deployments cannot be read,
the environment goes back to being provisioned.
-/
namespace PreviewControl

open Pass Reconcile

namespace Status

variable {config : Config} {env : Environment} {s current : Status} {now : Instant}
  {observation : Observation}

/-- The environment is ready, in phase and in verdict. -/
structure StandsReady (s : Status) : Prop where
  phase : s.phase = some .ready
  verdict : s.verdict? = some .holds

/-- Nothing but the phase and the conditions counts. -/
theorem standsReady_congr {a b : Status} (phase : a.phase = b.phase)
    (conditions : a.conditions = b.conditions) : a.StandsReady ↔ b.StandsReady := by
  have hverdict : a.verdict? = b.verdict? := by
    rw [verdict?, verdict?, condition?, condition?, conditions]
  exact ⟨fun h => ⟨phase.symm.trans h.phase, hverdict.symm.trans h.verdict⟩,
    fun h => ⟨phase.trans h.phase, hverdict.trans h.verdict⟩⟩

theorem not_standsReady_of_phase {p : Phase} (h : s.phase = some p) (other : p ≠ .ready) :
    ¬s.StandsReady :=
  fun ready => other (Option.some.inj (h.symm.trans ready.phase))

/-- What belongs to a ready environment is the operator's own. -/
theorem StandsReady.undriven (h : current.StandsReady) :
    current.isExternallyDriven env = false := by
  rw [isExternallyDriven, h.phase]
  exact Bool.and_false _

end Status

namespace Observation

variable {observation : Observation}

/-- The health that has been read, if any, is good. -/
def Mild (observation : Observation) : Prop :=
  ∀ health, observation.health = some health → health.state = .ready

/-- All children are in place, and the health of the deployments could not be read. -/
def Blind (observation : Observation) : Prop :=
  observation.fault = none ∧ observation.health = none

theorem not_blind_iff : ¬observation.Blind ↔
    observation.fault.isSome = true ∨ observation.health.isSome = true := by
  unfold Blind
  cases observation.fault <;> cases observation.health <;> simp

theorem Mild.degradation (h : observation.Mild) : Status.degradation? observation = none := by
  rw [Status.degradation?, Option.filter_eq_none_iff]
  intro health hhealth
  rw [h health hhealth]
  decide

end Observation

namespace Status

variable {config : Config} {env : Environment} {current : Status} {now : Instant}
  {observation : Observation}

/-- A child that could not be put in place leaves the environment ready. -/
theorem next_ready_of_fault (ready : current.StandsReady) (mild : observation.Mild)
    (fault : observation.fault.isSome = true) :
    (next env current observation config now).StandsReady := by
  have hrest : current.move? env observation = none := by
    rw [move?_of_not_degraded mild.degradation, fault, Bool.or_true, if_pos rfl]
  rw [next_of_rest hrest]
  refine (standsReady_congr ?_ ?_).2 ready <;> rfl

/-- Without a fault the health decides. -/
theorem move?_of_no_fault (ready : current.StandsReady) (mild : observation.Mild)
    (fault : observation.fault = none) :
    current.move? env observation = some (.ofHealth observation.health) := by
  rw [move?_of_not_degraded mild.degradation, ready.undriven, fault]
  rfl

theorem next_ready_of_read (ready : current.StandsReady) (mild : observation.Mild)
    (fault : observation.fault = none) {health : Health}
    (read : observation.health = some health) :
    (next env current observation config now).StandsReady := by
  rw [next_of_move (move?_of_no_fault ready mild fault), read, Move.ofHealth,
    if_pos (mild health read)]
  exact ⟨rfl, verdict?_of_entered rfl⟩

theorem next_of_blind (ready : current.StandsReady) (mild : observation.Mild)
    (blind : observation.Blind) :
    (next env current observation config now).phase = some .provisioning ∧
      (next env current observation config now).verdict? = some .fails := by
  rw [next_of_move (move?_of_no_fault ready mild blind.1), blind.2]
  exact ⟨rfl, verdict?_of_entered rfl⟩

theorem next_ready_iff (ready : current.StandsReady) (mild : observation.Mild) :
    (next env current observation config now).StandsReady ↔ ¬observation.Blind := by
  constructor
  · intro stays blind
    exact not_standsReady_of_phase (next_of_blind ready mild blind).1 (by decide) stays
  · intro seeing
    cases hfault : observation.fault with
    | some message => exact next_ready_of_fault ready mild (hfault ▸ rfl)
    | none =>
      cases hhealth : observation.health with
      | some health => exact next_ready_of_read ready mild hfault hhealth
      | none => exact absurd ⟨hfault, hhealth⟩ seeing

end Status

/-! ## Passes in a row -/

namespace Reconcile

variable {config : Config} {notice : Metadata} {env before left : Environment} {s : Store}
  {space : String} {now : Instant}

/-- What a pass over a record observes in a cluster. -/
def observed (config : Config) (env : Environment) (s : Store) : Observation :=
  (seenIn config env s).observation (spaceOf env env.known)

/-- Passes over one record in a row: what each one observes, and the record after it. No read and no
write of the record fails, but anything else may. In between the cluster may change at will, and so
may the record, as long as nobody else writes its status. -/
inductive Visits (notice : Metadata) : Environment → List (Observation × Environment) → Prop where
  | nil (env : Environment) : Visits notice env []
  | cons {config : Config} {env before left : Environment} {space : String} {s : Store}
      {now : Instant} {visits : List (Observation × Environment)}
      (same : before.known = env.known) (place : notice.ns = some space)
      (about : before.key = ⟨space, notice.anyName⟩) (there : s.record? before.key = some before)
      (acceptable : Acceptable notice before) (free : s.Undisturbed)
      (after : ((pass config notice now).after s).record? before.key = some left)
      (rest : Visits notice left visits) :
    Visits notice env ((observed config before s, left) :: visits)

/-- One pass leaves the status that follows from its observation, whenever it was last written. -/
theorem visit_leaves (place : notice.ns = some space) (about : before.key = ⟨space, notice.anyName⟩)
    (there : s.record? before.key = some before) (acceptable : Acceptable notice before)
    (free : s.Undisturbed) (recorded : before.known.ns.isSome = true) :
    ∃ left, ((pass config notice now).after s).record? before.key = some left ∧
      left.known = { Status.next before before.known (observed config before s) config now with
        lastSyncedAt := left.known.lastSyncedAt } := by
  have enters : contact? config before now = some before.known := if_pos recorded
  obtain ⟨_, status, hreached, hleaves⟩ : (pass config notice now).outcome s = _ ∧ _ :=
    pass_leaves free place about there acceptable enters rfl
  obtain ⟨v, written, hthere, hstatus⟩ := hleaves.there
  have hknown : (restated before v written).known = status := hstatus
  refine ⟨_, hthere, ?_⟩
  rw [hknown]
  rcases hreached with rfl | rfl <;> rfl

/-- After one pass a ready environment is ready if its observation was not blind. Its namespace
stays recorded. -/
theorem visit_ready_iff (ready : before.known.StandsReady)
    (mild : (observed config before s).Mild) (place : notice.ns = some space)
    (about : before.key = ⟨space, notice.anyName⟩) (there : s.record? before.key = some before)
    (acceptable : Acceptable notice before) (free : s.Undisturbed)
    (recorded : before.known.ns.isSome = true)
    (after : ((pass config notice now).after s).record? before.key = some left) :
    (left.known.StandsReady ↔ ¬(observed config before s).Blind) ∧ left.known.ns.isSome = true := by
  obtain ⟨_, hthere, hknown⟩ : ∃ left, ((pass config notice now).after s).record? before.key =
    some left ∧ _ := visit_leaves place about there acceptable free recorded
  obtain rfl := Option.some.inj (after.symm.trans hthere)
  constructor
  · rw [hknown]
    have hnext : (Status.next before before.known (observed config before s) config
        now).StandsReady ↔ _ := Status.next_ready_iff ready mild
    refine (Status.standsReady_congr ?_ ?_).trans hnext <;> rfl
  · rw [hknown]
    exact congrArg Option.isSome (Status.next_ns _)

theorem Visits.ready_iff {visits : List (Observation × Environment)} (h : Visits notice env visits)
    (ready : env.known.StandsReady) (recorded : env.known.ns.isSome = true)
    (mild : ∀ v ∈ visits, v.1.Mild) :
    (∀ v ∈ visits, v.2.known.StandsReady) ↔ ∀ v ∈ visits, ¬v.1.Blind := by
  induction h with
  | nil => simp
  | cons same place about there acceptable free after rest ih =>
    obtain ⟨hmild, hrest⟩ := List.forall_mem_cons.1 mild
    obtain ⟨hiff, hns⟩ : _ ∧ _ := visit_ready_iff (same.symm ▸ ready) hmild place about there
      acceptable free (same.symm ▸ recorded) after
    rw [List.forall_mem_cons, List.forall_mem_cons, hiff]
    exact and_congr_right fun seeing => ih (hiff.2 seeing) hns hrest

/-- The next status of a ready environment, whose health is good as far as it is read, is ready if
and only if the observation is not blind: a child could not be put in place, or the health was read.
After a blind observation the environment is being provisioned, and it cannot be used. Over passes
in a row, a ready environment whose namespace is recorded is ready after each of them if and only if
none of them is blind. -/
theorem ready_kept_iff (env : Environment) (current : Status) (observation : Observation)
    (config : Config) (now : Instant) (ready : current.StandsReady) (mild : observation.Mild) :
    ((Status.next env current observation config now).StandsReady ↔ ¬observation.Blind) ∧
    (observation.Blind →
      (Status.next env current observation config now).phase = some .provisioning ∧
      (Status.next env current observation config now).verdict? = some .fails) ∧
    (env.known = current → current.ns.isSome = true →
      ∀ (notice : Metadata) (visits : List (Observation × Environment)),
        Visits notice env visits → (∀ v ∈ visits, v.1.Mild) →
          ((∀ v ∈ visits, v.2.known.StandsReady) ↔ ∀ v ∈ visits, ¬v.1.Blind)) := by
  refine ⟨Status.next_ready_iff ready mild, Status.next_of_blind ready mild, ?_⟩
  rintro rfl recorded notice visits h hmild
  exact h.ready_iff ready recorded hmild

/-! ## A ready environment that is lost sight of -/

open Contest

/-- A record of a ready environment with one service. -/
def serving : Environment :=
  { debut with status := some {
      phase := some .ready
      ns := some "pr-5"
      conditions := [Status.readyCondition .holds "AllServicesHealthy"
        "all 1 services healthy and synced" default] } }

/-- A cluster with this record, in which reads of objects fail: of this kind, or else of all. -/
def clouded (kind : Option String) : Store where
  records := [(serving.key, serving)]
  faults := [{ call := "get_resource", kind, failure := .client }]
  now := nextTurn

theorem undisturbed_clouded (kind : Option String) : (clouded kind).Undisturbed := by
  intro c hc
  cases c with
  | getObject => cases hc
  | _ => rfl

theorem standsReady_serving : serving.known.StandsReady := ⟨rfl, rfl⟩

theorem acceptable_serving : Acceptable debut.metadata serving := ⟨by decide, rfl, valid_debut⟩

theorem visits_clouded (kind : Option String) : ∃ left,
    Visits debut.metadata serving [(observed {} serving (clouded kind), left)] := by
  have there : (clouded kind).record? serving.key = some serving :=
    (lookup_cons_if _ _ []).trans (if_pos rfl)
  have about : serving.key = ⟨"previews", debut.metadata.anyName⟩ := rfl
  obtain ⟨left, hleft, _⟩ : ∃ left, ((pass {} debut.metadata nextTurn).after
      (clouded kind)).record? serving.key = some left ∧ _ := visit_leaves rfl about there
    acceptable_serving (undisturbed_clouded kind) rfl
  exact ⟨left, .cons rfl rfl about there acceptable_serving (undisturbed_clouded kind) hleft
    (.nil left)⟩

theorem blind_clouded : (observed {} serving (clouded (some "Application"))).Blind := by
  constructor <;> decide +kernel

/-- When nothing fails but the read of the deployment, the environment is no longer ready, although
nothing is known to be wrong. -/
theorem readiness_flaps : serving.known.StandsReady ∧ ∃ observation left,
    Visits debut.metadata serving [(observation, left)] ∧ observation.Mild ∧
      ¬(Status.next serving serving.known observation {} nextTurn).StandsReady ∧
      ¬left.known.StandsReady := by
  obtain ⟨left, visits⟩ := visits_clouded (some "Application")
  have mild : (observed {} serving (clouded (some "Application"))).Mild :=
    fun health hhealth => nomatch blind_clouded.2.symm.trans hhealth
  refine ⟨standsReady_serving, _, left, visits, mild, fun stays => ?_, fun stays => ?_⟩
  · exact (Status.next_ready_iff standsReady_serving mild).1 stays blind_clouded
  · have hseeing := (visits.ready_iff standsReady_serving rfl
      (List.forall_mem_singleton.2 mild)).1 (List.forall_mem_singleton.2 stays)
    exact List.forall_mem_singleton.1 hseeing blind_clouded

/-- When no child can be put in place either, the environment stays ready. -/
theorem ready_kept_iff_serving : ∃ left,
    Visits debut.metadata serving [(observed {} serving (clouded none), left)] ∧
      left.known.StandsReady := by
  have hfault : (observed {} serving (clouded none)).fault.isSome = true := by decide +kernel
  have hunread : (observed {} serving (clouded none)).health = none := by decide +kernel
  have mild : (observed {} serving (clouded none)).Mild :=
    fun health hhealth => nomatch hunread.symm.trans hhealth
  obtain ⟨left, visits⟩ := visits_clouded none
  obtain ⟨_, _, hrow⟩ := ready_kept_iff serving serving.known _ {} nextTurn standsReady_serving mild
  have hready := (hrow rfl rfl _ _ visits (List.forall_mem_singleton.2 mild)).2
    (List.forall_mem_singleton.2 (Observation.not_blind_iff.2 (.inl hfault)))
  exact ⟨left, visits, hready _ (List.mem_singleton_self _)⟩

end Reconcile
end PreviewControl
