import PreviewControl.Proofs.Attempts
import PreviewControl.Proofs.Handback
import PreviewControl.Proofs.Placement
import PreviewControl.Proofs.Verdicts

/-!
# What it takes to be ready

What the deployments of the services report, from the answers of the cluster to the phase and the
verdict that a pass computes from them. A deployment that is not there, or that does not report a
text, is neither ready nor degraded.
-/
namespace PreviewControl

namespace Spec

theorem mem_firsts {s : String} {services : List String} : s ∈ firsts services ↔ s ∈ services := by
  induction services with
  | nil => rfl
  | cons x xs ih =>
    by_cases hs : s = x
    · simp [firsts, hs]
    · simp [firsts, ih, hs]

/-- Services come in the order in which they are declared, and so each of them once. -/
theorem pairwise_firsts (services : List String) :
    (firsts services).Pairwise fun a b => services.idxOf a < services.idxOf b := by
  induction services with
  | nil => exact .nil
  | cons x xs ih =>
    refine List.pairwise_cons.2 ⟨fun b hb => ?_, ?_⟩
    · have hne : b ≠ x := by simpa using (List.mem_filter.1 hb).2
      rw [List.idxOf_cons_self, List.idxOf_cons_ne _ hne.symm]
      exact Nat.succ_pos _
    · refine (List.Pairwise.filter _ ih).imp_of_mem fun {a b} ha hb hab => ?_
      have ha : a ≠ x := by simpa using (List.mem_filter.1 ha).2
      have hb : b ≠ x := by simpa using (List.mem_filter.1 hb).2
      rw [List.idxOf_cons_ne _ ha.symm, List.idxOf_cons_ne _ hb.symm]
      exact Nat.succ_lt_succ hab

end Spec

/-- A deployment is there and reports this text about an aspect of it. -/
def Reports (app : Option StoredObject) (aspect word : String) : Prop :=
  ∃ object, app = some object ∧ object.follow ["status", aspect, "status"] = .str word

/-- The health of a service whose deployment has been looked for. -/
def unitFor (apps : String → Option StoredObject) (service : String) : UnitHealth :=
  match apps service with
  | some app => .ofObject service app
  | none => .missing service

namespace UnitHealth

variable {apps : String → Option StoredObject} {service : String}

@[simp] theorem service_unitFor : (unitFor apps service).service = service := by
  unfold unitFor
  cases apps service <;> rfl

private theorem reported_iff {app : StoredObject} {aspect word : String} (h : word ≠ "Unknown") :
    (app.follow ["status", aspect, "status"]).text?.getD "Unknown" = word ↔
      app.follow ["status", aspect, "status"] = .str word := by
  cases app.follow ["status", aspect, "status"] with
  | str s => simp [Json.text?]
  | _ => simp [Json.text?, h.symm]

theorem isDegraded_unitFor :
    (unitFor apps service).isDegraded = true ↔ Reports (apps service) "health" "Degraded" := by
  unfold unitFor Reports
  cases apps service with
  | none => simp [isDegraded, missing]
  | some app => simp [isDegraded, ofObject, reported_iff]

theorem isReady_unitFor : (unitFor apps service).isReady = true ↔
    Reports (apps service) "health" "Healthy" ∧ Reports (apps service) "sync" "Synced" := by
  unfold unitFor Reports
  cases apps service with
  | none => simp [isReady, missing]
  | some app => simp [isReady, ofObject, reported_iff]

theorem not_isDegraded_of_isReady {u : UnitHealth} (h : u.isReady = true) :
    u.isDegraded = false := by
  simp only [isReady, Bool.and_eq_true, beq_iff_eq] at h
  simp [isDegraded, h.1]

end UnitHealth

namespace Health

variable {units : List UnitHealth}

theorem units_ofUnits : (ofUnits units).units = units := by
  unfold ofUnits
  split
  · rfl
  · split <;> rfl

private theorem degradedServices_eq_nil :
    (degradedServices units).isEmpty = true ↔ ∀ u ∈ units, u.isDegraded = false := by
  simp [degradedServices]

theorem state_ofUnits_degraded :
    (ofUnits units).state = .degraded ↔ ∃ u ∈ units, u.isDegraded = true := by
  unfold ofUnits
  by_cases h : (degradedServices units).isEmpty = true
  · have hnone := degradedServices_eq_nil.1 h
    have hnot : ¬∃ u ∈ units, u.isDegraded = true := fun ⟨u, hu, hd⟩ => by
      rw [hnone u hu] at hd
      cases hd
    simp only [h, Bool.not_true, Bool.false_eq_true, if_false, hnot, iff_false]
    split <;> nofun
  · have hsome : ∃ u ∈ units, u.isDegraded = true := by
      simpa using mt degradedServices_eq_nil.2 h
    simp [h, hsome]

theorem state_ofUnits_ready :
    (ofUnits units).state = .ready ↔ units ≠ [] ∧ ∀ u ∈ units, u.isReady = true := by
  unfold ofUnits
  by_cases h : (degradedServices units).isEmpty = true
  · simp only [h, Bool.not_true, Bool.false_eq_true, if_false]
    by_cases hall : units ≠ [] ∧ ∀ u ∈ units, u.isReady = true
    · have hcond : (!units.isEmpty && units.all (·.isReady)) = true := by simpa using hall
      rw [if_pos hcond]
      exact iff_of_true rfl hall
    · have hcond : ¬(!units.isEmpty && units.all (·.isReady)) = true := by simpa using hall
      rw [if_neg hcond]
      exact iff_of_false nofun hall
  · have hnot : ¬(units ≠ [] ∧ ∀ u ∈ units, u.isReady = true) := fun hall =>
      h (degradedServices_eq_nil.2 fun u hu => UnitHealth.not_isDegraded_of_isReady (hall.2 u hu))
    simp [h, hnot]

end Health

namespace Status

variable {config : Config} {env : Environment} {current : Status} {observation : Observation}
  {now : Instant}

theorem next_services {health : Health} (h : observation.health = some health) :
    (next env current observation config now).services = servicesOf env config health.units := by
  unfold next
  cases current.move? env observation <;> simp [apply, learn, h]

end Status

namespace Reconcile

open Pass

variable {config : Config} {env latest : Environment} {ns : String} {now : Instant}
  {notice : Metadata} {status : Status} {found : Findings} {t w : List Deed}
  {results : List (Except Failure Unit)} {apps : String → Option StoredObject}

theorem aim_of_move {current : Status} {m : Status.Move}
    (h : current.move? env (found.observation (spaceOf env current)) = some m) :
    (aim config env current found now).phase = some m.phase ∧
      (aim config env current found now).verdict? = some m.verdict := by
  rw [aim, Status.next_of_move h]
  exact ⟨rfl, Status.verdict?_of_entered rfl⟩

/-- Every answer about the deployment of one of these services is what there is of it. -/
def Answered (config : Config) (pr : UInt32) (services : List String)
    (apps : String → Option StoredObject) (d : Deed) : Prop :=
  ∀ service ∈ services, ∀ answer,
    d = .call (.getObject (Child.applicationAddress pr service config)) answer →
      answer = .ok (apps service)

theorem finishes_unitHealths_answered (pr : UInt32) {services declared : List String}
    (h : services ⊆ declared) :
    (Child.unitHealths config pr services).Finishes (Answered config pr declared apps)
      (· = .done (services.map (unitFor apps))) := by
  induction services with
  | nil => exact finishes_done rfl
  | cons service services ih =>
    obtain ⟨hservice, hrest⟩ := List.cons_subset.1 h
    refine finishes_call fun answer hanswer => ?_
    obtain rfl := hanswer service hservice answer rfl
    simp only [ofExcept_ok, bind_done, bind_eq, pure_eq]
    refine finishes_from (ih hrest) (finishes_done ?_)
    rw [List.map_cons, unitFor]
    cases apps service <;> rfl

/-- When the deployments of all services can be read, the health that is found is theirs. -/
theorem finishes_healthOf_answered :
    (healthOf config env).Finishes
      (Answered config env.spec.prNumber env.spec.services apps)
      fun o => ∃ health, o = .done health ∧
        health = some (.ofUnits (env.spec.uniqueServices.map (unitFor apps))) := by
  have hread : (Child.deploymentHealth config env).Finishes
      (Answered config env.spec.prNumber env.spec.services apps)
      (· = .done (.ofUnits (env.spec.uniqueServices.map (unitFor apps)))) := by
    have hdeclared : env.spec.uniqueServices ⊆ env.spec.services := fun _ => Spec.mem_firsts.1
    exact finishes_from (finishes_unitHealths_answered env.spec.prNumber hdeclared)
      (finishes_done rfl)
  refine finishes_after (finishes_attempt hread fun o ho => ⟨_, congrArg Outcome.attempt ho, rfl⟩)
    fun health hhealth => ?_
  subst hhealth
  exact finishes_done ⟨_, rfl, rfl⟩

/-- What a pass has found out after these attempts, where the deployments are these. -/
structure Seen (env : Environment) (results : List (Except Failure Unit))
    (apps : String → Option StoredObject) (found : Findings) : Prop where
  fault : found.fault = firstFailure? results
  health : found.health = some (.ofUnits (env.spec.uniqueServices.map (unitFor apps)))

theorem seen_of_look
    (looked : (look config env ns (firstFailure? results)).Gives w found)
    (read : ∀ d ∈ w, Answered config env.spec.prNumber env.spec.services apps d) :
    Seen env results apps found := by
  obtain ⟨found', heq, hfault, hhealth⟩ :=
    finishes_look finishes_healthOf_answered w (.done found) looked read
  cases heq
  exact ⟨hfault, hhealth⟩

/-! ## From the reports to the phase -/

/-- All children are in place. There are services, and the deployment of each of them is there,
healthy and in sync. -/
structure AllReady (services : List String) (results : List (Except Failure Unit))
    (apps : String → Option StoredObject) : Prop where
  placed : ∀ result ∈ results, result = .ok ()
  declared : services ≠ []
  healthy : ∀ service ∈ services, Reports (apps service) "health" "Healthy"
  synced : ∀ service ∈ services, Reports (apps service) "sync" "Synced"

theorem AllReady.sound {services : List String} (h : AllReady services results apps) :
    ¬∃ service ∈ services, Reports (apps service) "health" "Degraded" := by
  rintro ⟨service, hservice, object, hobject, hdegraded⟩
  obtain ⟨object', hobject', hhealthy⟩ := h.healthy service hservice
  obtain rfl := Option.some.inj (hobject.symm.trans hobject')
  exact absurd (Json.str.inj (hdegraded.symm.trans hhealthy)) (by decide)

/-- The entries are about the services in the order in which these are declared, and say which of
them are ready. -/
structure Lists (services : List String) (apps : String → Option StoredObject)
    (entries : List ServiceStatus) : Prop where
  declared : ∀ service, service ∈ entries.map (·.name) ↔ service ∈ services
  ordered : (entries.map (·.name)).Pairwise fun a b => services.idxOf a < services.idxOf b
  ready : ∀ entry ∈ entries, entry.ready = true ↔
    Reports (apps entry.name) "health" "Healthy" ∧ Reports (apps entry.name) "sync" "Synced"

/-- The record is not in a test run of others that is about the present spec. -/
def Undriven (env : Environment) (current : Status) : Prop :=
  ∀ p, current.phase = some p → p.isExternal = true →
    current.observedGeneration ≠ env.metadata.generation

theorem undriven_iff {current : Status} :
    Undriven env current ↔ current.isExternallyDriven env = false := by
  rw [Bool.eq_false_iff, Ne, Status.isExternallyDriven, Bool.and_eq_true, beq_iff_eq,
    Option.any_eq_true]
  constructor
  · rintro hfree ⟨hsame, p, hp, hexternal⟩
    exact hfree p hp hexternal hsame
  · exact fun hnot p hp hexternal hsame => hnot ⟨hsame, p, hp, hexternal⟩

theorem firstFailure?_eq_none :
    firstFailure? results = none ↔ ∀ result ∈ results, result = .ok () := by
  induction results with
  | nil => simp [firstFailure?]
  | cons result results ih => cases result <;> simp [firstFailure?, ih]

namespace Seen

variable {current : Status}

theorem lists (h : Seen env results apps found) :
    Lists env.spec.services apps (aim config env current found now).services := by
  have hservices : (aim config env current found now).services =
      env.spec.uniqueServices.map fun service =>
        ⟨service, (unitFor apps service).isReady,
          some (Status.serviceUrl config env.spec.prNumber service)⟩ := by
    rw [aim, Status.next_services h.health, Health.units_ofUnits, Status.servicesOf, List.map_map]
    refine List.map_congr_left fun service _ => ?_
    simp only [Function.comp_apply, UnitHealth.service_unitFor]
  rw [hservices]
  refine ⟨fun service => ?_, ?_, fun entry hentry => ?_⟩
  · rw [List.map_map, List.map_id'']
    · exact Spec.mem_firsts
    · exact fun _ => rfl
  · rw [List.map_map, List.map_id'']
    · exact Spec.pairwise_firsts _
    · exact fun _ => rfl
  · obtain ⟨service, _, rfl⟩ := List.mem_map.1 hentry
    exact UnitHealth.isReady_unitFor

private theorem degraded_iff (h : Seen env results apps found) {health : Health}
    (read : found.health = some health) : health.state = .degraded ↔
      ∃ service ∈ env.spec.services, Reports (apps service) "health" "Degraded" := by
  obtain rfl := Option.some.inj (h.health.symm.trans read)
  rw [Health.state_ofUnits_degraded]
  constructor
  · rintro ⟨u, hu, hd⟩
    obtain ⟨service, hservice, rfl⟩ := List.mem_map.1 hu
    exact ⟨service, Spec.mem_firsts.1 hservice, UnitHealth.isDegraded_unitFor.1 hd⟩
  · rintro ⟨service, hservice, hd⟩
    exact ⟨_, List.mem_map_of_mem (Spec.mem_firsts.2 hservice), UnitHealth.isDegraded_unitFor.2 hd⟩

private theorem ready_iff (h : Seen env results apps found) {health : Health}
    (read : found.health = some health) (placed : ∀ result ∈ results, result = .ok ()) :
    health.state = .ready ↔ AllReady env.spec.services results apps := by
  obtain rfl := Option.some.inj (h.health.symm.trans read)
  have hnil : env.spec.uniqueServices.map (unitFor apps) ≠ [] ↔ env.spec.services ≠ [] := by
    cases hs : env.spec.services <;> simp [Spec.uniqueServices, Spec.firsts, hs]
  rw [Health.state_ofUnits_ready, hnil]
  constructor
  · rintro ⟨hsome, hall⟩
    have hready : ∀ service ∈ env.spec.services, Reports (apps service) "health" "Healthy" ∧
        Reports (apps service) "sync" "Synced" := fun service hservice =>
      UnitHealth.isReady_unitFor.1 (hall _ (List.mem_map_of_mem (Spec.mem_firsts.2 hservice)))
    exact ⟨placed, hsome, fun s hs => (hready s hs).1, fun s hs => (hready s hs).2⟩
  · refine fun hall => ⟨hall.declared, fun u hu => ?_⟩
    obtain ⟨service, hservice, rfl⟩ := List.mem_map.1 hu
    have hservice := Spec.mem_firsts.1 hservice
    exact UnitHealth.isReady_unitFor.2 ⟨hall.healthy _ hservice, hall.synced _ hservice⟩

/-- A degraded deployment shows, whatever else is the case. -/
theorem move?_of_degraded (h : Seen env results apps found)
    (degraded : ∃ service ∈ env.spec.services, Reports (apps service) "health" "Degraded") :
    ∃ m, current.move? env (found.observation ns) = some m ∧ m.phase = .failed := by
  have hstate := (h.degraded_iff h.health).2 degraded
  have hdegradation : Status.degradation? (found.observation ns) = found.health := by
    show found.health.filter _ = _
    rw [h.health, Option.filter_some, hstate]
    rfl
  rw [Status.move?, hdegradation, h.health]
  exact ⟨_, rfl, rfl⟩

theorem move?_of_sound (current : Status) (ns : String) (h : Seen env results apps found)
    (sound : ¬∃ service ∈ env.spec.services, Reports (apps service) "health" "Degraded") :
    current.move? env (found.observation ns) =
      if current.isExternallyDriven env || (firstFailure? results).isSome then none
      else some (.ofHealth found.health) := by
  have hstate := mt (h.degraded_iff h.health).1 sound
  have hdegradation : Status.degradation? (found.observation ns) = none := by
    show found.health.filter _ = _
    rw [h.health, Option.filter_some, if_neg (by simpa using hstate)]
  have hfault : (found.observation ns).fault.isSome = found.fault.isSome := Option.isSome_map
  rw [Status.move?_of_not_degraded hdegradation, ← h.fault, hfault]
  rfl

theorem aim_of_degraded (h : Seen env results apps found)
    (degraded : ∃ service ∈ env.spec.services, Reports (apps service) "health" "Degraded") :
    (aim config env current found now).phase = some .failed := by
  obtain ⟨m, hm, hphase⟩ := h.move?_of_degraded degraded
  rw [(aim_of_move hm).1, hphase]

/-- Where nothing is degraded, the phase stays as long as others drive the record or a child has
failed, and else it is the one that the reports call for. -/
theorem aim_of_sound (h : Seen env results apps found)
    (sound : ¬∃ service ∈ env.spec.services, Reports (apps service) "health" "Degraded") :
    ¬(Undriven env current ∧ ∀ result ∈ results, result = .ok ()) ∧
        (aim config env current found now).phase = current.phase ∨
      AllReady env.spec.services results apps ∧
        (aim config env current found now).phase = some .ready ∧
        (aim config env current found now).verdict? = some .holds ∨
      ¬AllReady env.spec.services results apps ∧
        (aim config env current found now).phase = some .provisioning ∧
        (aim config env current found now).verdict? = some .fails := by
  have hmove := h.move?_of_sound current (spaceOf env current) sound
  by_cases hfree : Undriven env current ∧ ∀ result ∈ results, result = .ok ()
  · obtain ⟨hundriven, hplaced⟩ := hfree
    rw [undriven_iff.1 hundriven, firstFailure?_eq_none.2 hplaced] at hmove
    obtain ⟨health, hhealth⟩ : ∃ health, found.health = some health := ⟨_, h.health⟩
    have hready := h.ready_iff hhealth hplaced
    rw [hhealth] at hmove
    by_cases hstate : health.state = .ready
    · rw [Status.Move.ofHealth, if_pos hstate] at hmove
      exact .inr (.inl ⟨hready.1 hstate, aim_of_move hmove⟩)
    · rw [Status.Move.ofHealth, if_neg hstate] at hmove
      exact .inr (.inr ⟨mt hready.2 hstate, aim_of_move hmove⟩)
  · refine .inl ⟨hfree, ?_⟩
    have hcond : (current.isExternallyDriven env || (firstFailure? results).isSome) = true := by
      refine eq_true_of_ne_false fun hcond => hfree ?_
      rw [Bool.or_eq_false_iff, Option.isSome_eq_false_iff, Option.isNone_iff_eq_none] at hcond
      exact ⟨undriven_iff.2 hcond.1, firstFailure?_eq_none.1 hcond.2⟩
    rw [if_pos hcond] at hmove
    rw [aim, Status.next_of_rest hmove]
    rfl

end Seen

/-- When all children have been tried and looked at, what is left to ask for is the write of the
status, if that has changed. -/
theorem Attempted.asks_iff {current : Status} {c : Call}
    (tried : Attempted config notice now t latest current results)
    (looked : (look config latest (spaceOf latest current) (firstFailure? results)).Gives w found) :
    (pass config notice now).Asks (t ++ w) c ↔
      current.differs (aim config latest current found now) = true ∧
        c = .patchStatus latest ((aim config latest current found now).stamped now) := by
  obtain ⟨rest, hrest, heq⟩ := conclude_eq config latest current found now
  have leads : (pass config notice now).Leads (t ++ w)
      ((conclude config latest current found now).attempt.bind account) :=
    tried.leads.trans (Leads.bind (Leads.attempt (Leads.bind looked _)) account)
  constructor
  · rintro ⟨next, h⟩
    have hasks : ((conclude config latest current found now).attempt.bind account).Asks [] c :=
      ⟨next, leads_nil.2 (leads.unique h)⟩
    rcases asks_bind.1 hasks with hc | ⟨_, u, x, _, _, hd⟩
    · rw [asks_attempt, heq] at hc
      rcases asks_bind.1 hc with hw | ⟨_, v, written, _, _, hd⟩
      · obtain ⟨changed, _, rfl⟩ := asks_writeChanged_of_differs hw
        exact ⟨changed, rfl⟩
      · exact (hrest written v c hd).elim
    · exact (makes_account x u c hd).elim
  · rintro ⟨changed, rfl⟩
    have hwrite : (writeChanged latest current (aim config latest current found now) now).Asks []
        (.patchStatus latest ((aim config latest current found now).stamped now)) := by
      unfold writeChanged
      rw [if_pos changed]
      exact asks_bind.2 (.inl (asks_request.2 ⟨rfl, rfl⟩))
    have hconclude : (conclude config latest current found now).attempt.Asks []
        (.patchStatus latest ((aim config latest current found now).stamped now)) := by
      rw [asks_attempt, heq]
      exact asks_bind.2 (.inl hwrite)
    obtain ⟨next, h⟩ := asks_bind.2 (.inl hconclude)
    rw [← List.append_nil (t ++ w)]
    exact ⟨next, leads.trans h⟩

/-- A pass in which all children have been tried and all deployments could be read, and the status
that it goes on to write if that differs from the present one. Where a deployment is degraded, the
phase is that the environment has failed. The environment becomes ready only if it is all ready, and
it does so if it is all ready and not in a test run of others. Otherwise, where no child has failed
and nothing is degraded, it is being provisioned. The services are listed as they are declared. -/
theorem ready_means_all_ready {current : Status}
    (tried : Attempted config notice now t latest current results)
    (looked : (look config latest (spaceOf latest current) (firstFailure? results)).Gives w found)
    (read : ∀ d ∈ w, Answered config latest.spec.prNumber latest.spec.services apps d) :
    let next := aim config latest current found now
    let degraded := ∃ service ∈ latest.spec.services, Reports (apps service) "health" "Degraded"
    let allReady := AllReady latest.spec.services results apps
    (∀ c, (pass config notice now).Asks (t ++ w) c ↔
      current.differs next = true ∧ c = .patchStatus latest (next.stamped now)) ∧
    (degraded → next.phase = some .failed) ∧
    (next.phase = some .ready → current.phase ≠ some .ready → allReady) ∧
    (allReady → Undriven latest current → next.phase = some .ready ∧
      next.verdict? = some .holds ∧ ∀ entry ∈ next.services, entry.ready = true) ∧
    ((∀ result ∈ results, result = .ok ()) → ¬degraded → ¬allReady → Undriven latest current →
      next.phase = some .provisioning ∧ next.verdict? = some .fails) ∧
    Lists latest.spec.services apps next.services := by
  have seen := seen_of_look looked read
  refine ⟨fun c => tried.asks_iff looked, seen.aim_of_degraded, fun hready hother => ?_,
    fun hall hfree => ?_, fun hplaced hsound hwanting hfree => ?_, seen.lists⟩
  · by_cases hdegraded : ∃ service ∈ latest.spec.services,
        Reports (apps service) "health" "Degraded"
    · rw [seen.aim_of_degraded hdegraded] at hready
      cases hready
    · rcases seen.aim_of_sound hdegraded with ⟨_, hphase⟩ | ⟨hall, _⟩ | ⟨_, hphase, _⟩
      · exact absurd (hphase.symm.trans hready) hother
      · exact hall
      · cases hphase.symm.trans hready
  · rcases seen.aim_of_sound hall.sound with ⟨hrest, _⟩ | ⟨_, hphase, hverdict⟩ | ⟨hwanting, _⟩
    · exact absurd ⟨hfree, hall.placed⟩ hrest
    · refine ⟨hphase, hverdict, fun entry hentry => ?_⟩
      have hdeclared := (seen.lists.declared _).1 (List.mem_map_of_mem hentry)
      exact (seen.lists.ready entry hentry).2 ⟨hall.healthy _ hdeclared, hall.synced _ hdeclared⟩
    · exact absurd hall hwanting
  · rcases seen.aim_of_sound hsound with ⟨hrest, _⟩ | ⟨hall, _⟩ | ⟨_, hphase, hverdict⟩
    · exact absurd ⟨hfree, hplaced⟩ hrest
    · exact absurd hall hwanting
    · exact ⟨hphase, hverdict⟩

open Contest in
/-- In a cluster without any objects nothing stands in the way. -/
theorem ensured_welcomed : ∃ u results, (∀ result ∈ results, result = .ok ()) ∧
    Ensured {} welcomed (spaceOf welcomed welcome) Child.all u results := by
  have calm : Store.Faultless { now := default } := fun _ => rfl
  have ready : ∀ child ∈ Child.all,
      child.Ready welcomed (spaceOf welcomed welcome) { now := default } := by
    intro child _
    cases child with
    | «namespace» => exact ⟨none, rfl, rfl⟩
    | ingress => exact ⟨none, rfl, rfl, rfl⟩
    | descriptor => trivial
  have houtcome : (ensureAll {} welcomed (spaceOf welcomed welcome) Child.all).outcome
      { now := default } = .done none := (ensureAll_placed calm (by decide) ready).1
  have leads := leads_happenings (ensureAll {} welcomed (spaceOf welcomed welcome) Child.all)
    { now := default }
  rw [houtcome] at leads
  obtain ⟨results, ensured, hnone⟩ := gives_ensureAll.1 leads
  exact ⟨_, results, firstFailure?_eq_none.1 hnone.symm, ensured⟩

/-- The deployment of a service that fares well. -/
def wellApp : StoredObject where
  types := none
  metadata := {}
  members := [("status", .obj [("health", .obj [("status", .str "Healthy")]),
    ("sync", .obj [("status", .str "Synced")])])]

/-- What a pass sees after all children have been put in place. -/
def sights (app : Option StoredObject) : List Deed :=
  [.call (.listPods (spaceOf Contest.welcomed Contest.welcome)) (.ok []),
   .call (.getObject (Child.applicationAddress 5 "web" {})) (.ok app)]

open Contest in
theorem look_welcomed (app : Option StoredObject) :
    ∃ found, (look {} welcomed (spaceOf welcomed welcome) none).Gives (sights app) found :=
  ⟨_, .call (.call (.start _))⟩

theorem answered_welcomed (app : Option StoredObject) :
    ∀ d ∈ sights app, Answered {} 5 ["web"] (fun _ => app) d := by
  intro d hd service hservice answer heq
  obtain rfl := List.mem_singleton.1 hservice
  subst heq
  rcases List.mem_cons.1 hd with hd | hd
  · cases hd
  · cases List.mem_singleton.1 hd
    rfl

open Contest in
/-- A record that has just been accepted is ready as soon as its one deployment reports so, and it
is being provisioned as long as there is no deployment. -/
theorem ready_means_all_ready_welcomed :
    ∃ t results, Attempted {} debut.metadata default t welcomed welcome results ∧
      (∃ found,
        (look {} welcomed (spaceOf welcomed welcome) none).Gives (sights (some wellApp)) found ∧
        (aim {} welcomed welcome found default).phase = some .ready ∧
        (aim {} welcomed welcome found default).verdict? = some .holds) ∧
      ∃ found, (look {} welcomed (spaceOf welcomed welcome) none).Gives (sights none) found ∧
        (aim {} welcomed welcome found default).phase = some .provisioning := by
  obtain ⟨u, results, placed, ensured⟩ := ensured_welcomed
  have tried : Attempted {} debut.metadata default _ welcomed welcome results :=
    .mk rfl rfl (by decide) valid_debut (.accepted rfl made_welcome) ensured
  have free : Undriven welcomed welcome := by
    have hpending : welcome.phase = some .pending := by decide +kernel
    intro p hp hexternal
    obtain rfl := Option.some.inj (hpending.symm.trans hp)
    cases hexternal
  obtain ⟨found, looked⟩ := look_welcomed (some wellApp)
  obtain ⟨found', looked'⟩ := look_welcomed none
  rw [← firstFailure?_eq_none.2 placed] at looked looked'
  obtain ⟨_, _, _, hready, _⟩ := ready_means_all_ready tried looked (answered_welcomed _)
  obtain ⟨_, _, _, _, hwanting, _⟩ := ready_means_all_ready tried looked' (answered_welcomed _)
  have all : AllReady welcomed.spec.services results fun _ => some wellApp :=
    ⟨placed, List.cons_ne_nil _ _, fun _ _ => ⟨wellApp, rfl, rfl⟩, fun _ _ => ⟨wellApp, rfl, rfl⟩⟩
  obtain ⟨hphase, hverdict, _⟩ := hready all free
  have absent (aspect word : String) : ¬Reports none aspect word := fun ⟨_, h, _⟩ => nomatch h
  obtain ⟨hphase', _⟩ := hwanting placed (fun ⟨_, _, h⟩ => absent _ _ h)
    (fun h => absent _ _ (h.healthy "web" (List.mem_singleton_self _))) free
  rw [firstFailure?_eq_none.2 placed] at looked looked'
  exact ⟨_, results, tried, ⟨found, looked, hphase, hverdict⟩, found', looked', hphase'⟩

end Reconcile
end PreviewControl
