import PreviewControl.Proofs.Leftovers

/-!
# The same end, whatever happened before

A pass in which nothing fails leaves a record with a status, and with children, that follow from its
present spec and from what is deployed. What its status was before, and what earlier passes have
left of its children, plays no part. Only a time of expiry that is still to be recorded can be in
the way, if it is beyond the representable years.
-/
namespace PreviewControl

open Pass

/-! ## What a status shows -/

/-- What a status tells of the environment, apart from all times. -/
structure Shown where
  phase : Option Phase
  message : Option String
  url : Option String
  services : List ServiceStatus
  costEstimate : Option CostEstimate
  observedGeneration : Option Int64
  /-- The verdict, the reason and the message of the condition that tells whether the environment
  can be used. -/
  ready : Option (Verdict × String × String)
deriving DecidableEq

namespace Status

def shown (s : Status) : Shown where
  phase := s.phase
  message := s.message
  url := s.url
  services := s.services
  costEstimate := s.costEstimate
  observedGeneration := s.observedGeneration
  ready := (s.condition? Condition.readyType).map fun c => (c.verdict, c.reason, c.message)

theorem shown_apply (m : Move) (now : Instant) (s : Status) :
    (s.apply m now).shown = { s.shown with
      phase := some m.phase
      message := some m.message
      ready := some (m.verdict, m.reason, m.message) } := by
  obtain ⟨d, hd, hsame⟩ := Condition.find?_enter
    (readyCondition m.verdict m.reason m.message now) s.conditions
  simp only [Condition.sameState, readyCondition, Bool.and_eq_true, beq_iff_eq] at hsame
  obtain ⟨⟨⟨_, hverdict⟩, hreason⟩, hmessage⟩ := hsame
  have hfind : (s.apply m now).condition? Condition.readyType = some d := hd
  rw [shown, hfind, Option.map_some, hverdict, hreason, hmessage]
  rfl

/-- The move that the health of the deployments asks for, be it good or bad. -/
def Move.ofRead (health : Health) : Move :=
  if health.state = .degraded then .degraded health.message else .ofHealth (some health)

end Status

namespace Reconcile

open Child

variable {config : Config} {env : Environment} {ns : String} {s : Store} {current status : Status}
  {now : Instant} {health : Health} {cost : CostEstimate}

/-- What the status of a record shows in the end. -/
def shownBy (config : Config) (env : Environment) (cost : CostEstimate) (health : Health) :
    Shown where
  phase := some (Status.Move.ofRead health).phase
  message := some (Status.Move.ofRead health).message
  url := some (config.urlFor env.spec.prNumber)
  services := Status.servicesOf env config health.units
  costEstimate := some cost
  observedGeneration := env.metadata.generation
  ready := some ((Status.Move.ofRead health).verdict, (Status.Move.ofRead health).reason,
    (Status.Move.ofRead health).message)

private theorem move?_read (undriven : current.isExternallyDriven env = false) :
    current.move? env ((⟨none, some cost, some health⟩ : Findings).observation ns) =
      some (Status.Move.ofRead health) := by
  have hfilter : Status.degradation? ((⟨none, some cost, some health⟩ : Findings).observation ns) =
      if health.state = .degraded then some health else none := by
    simp [Status.degradation?, Findings.observation, Option.filter_some]
  unfold Status.Move.ofRead
  by_cases hs : health.state = .degraded
  · rw [if_pos hs] at hfilter
    rw [Status.move?, hfilter, if_pos hs]
  · rw [if_neg hs] at hfilter
    rw [Status.move?_of_not_degraded hfilter, undriven, if_neg hs]
    rfl

/-- Where the health has been read and nothing failed, what the status shows does not depend on the
status before. -/
theorem shown_of_reached (undriven : current.isExternallyDriven env = false)
    (h : Reached config env current ⟨none, some cost, some health⟩ now status) :
    status.shown = shownBy config env cost health := by
  have haim : (aim config env current ⟨none, some cost, some health⟩ now).shown =
      shownBy config env cost health := by
    rw [aim, Status.next_of_move (move?_read undriven), Status.shown_apply]
    rfl
  rcases h with rfl | rfl
  · exact haim
  · exact haim

/-! ## First contact -/

/-- The time of expiry is still to be recorded, and it is beyond the representable years. -/
def OutOfReach (env : Environment) (now : Instant) : Prop :=
  env.known.ns = none ∧ env.known.expiresAt = none ∧
    Instant.lastSecond < (env.known.createdAt.getD now).seconds + env.spec.ttlSeconds

theorem contact?_eq_none : contact? config env now = none ↔ OutOfReach env now := by
  unfold contact? OutOfReach
  cases hns : env.known.ns with
  | some ns => simp
  | none =>
    unfold Status.accepted? Status.lifetime?
    cases he : env.known.expiresAt with
    | some expiresAt => simp
    | none => simp [Instant.add?_eq_none]

/-- The status of first contact is nobody else's. -/
private theorem undriven_of_contact (undriven : env.known.isExternallyDriven env = false)
    (enters : contact? config env now = some current) : current.isExternallyDriven env = false := by
  unfold contact? at enters
  split at enters
  · obtain rfl := Option.some.inj enters
    exact undriven
  · obtain ⟨life, _, rfl⟩ := Option.map_eq_some_iff.1 enters
    exact Bool.and_false _

/-! ## Histories -/

/-- A record that a pass puts children in place for, with a status of any kind, in a cluster in
which no call fails and none of its children is in the way. -/
structure History (config : Config) (notice : Metadata) (env : Environment) (ns : String)
    (s : Store) : Prop where
  there : s.record? env.key = some env
  acceptable : Acceptable notice env
  identified : env.metadata.uid.isSome = true
  /-- No test run that others drive is going on. -/
  undriven : env.known.isExternallyDriven env = false
  space : spaceOf env env.known = ns
  calm : s.Faultless
  ready : ∀ child : Child, child.Ready env ns s
  legible : Legible config env.spec.prNumber env.spec.uniqueServices s
  homes : ∀ text object, Owned env s text object →
    ∃ child : Child, child.Place config env.spec.prNumber ns text

/-- What earlier passes have left of the children is in nobody's way. -/
theorem History.of_tidy {notice : Metadata} (there : s.record? env.key = some env)
    (acceptable : Acceptable notice env) (identified : env.metadata.uid.isSome = true)
    (undriven : env.known.isExternallyDriven env = false) (space : spaceOf env env.known = ns)
    (calm : s.Faultless)
    (legible : Legible config env.spec.prNumber env.spec.uniqueServices s)
    (tidy : Tidy config env ns s) : History config notice env ns s :=
  ⟨there, acceptable, identified, undriven, space, calm, tidy.ready identified, legible, tidy.homes⟩

/-- A record after passes over earlier versions of it, cut short or not, since a time when none of
its children was there. -/
structure Past (config : Config) (notice : Metadata) (env : Environment) (ns : String)
    (s : Store) : Prop where
  there : s.record? env.key = some env
  acceptable : Acceptable notice env
  identified : env.metadata.uid.isSome = true
  undriven : env.known.isExternallyDriven env = false
  space : spaceOf env env.known = ns
  calm : s.Faultless
  legible : Legible config env.spec.prNumber env.spec.uniqueServices s
  run : ∃ bare, (∀ text, reachAll all text → bare.object? text = none) ∧
    Relation.ReflTransGen (Earlier config env ns) bare s

/-- Whatever the passes have done, they leave a history. -/
theorem Past.history {notice : Metadata} (h : Past config notice env ns s) :
    History config notice env ns s := by
  obtain ⟨bare, empty, run⟩ := h.run
  exact .of_tidy h.there h.acceptable h.identified h.undriven h.space h.calm h.legible
    ((Tidy.of_empty empty).run run)

/-- A pass ends well: the status of the record shows this, and the children of the record are what
is rendered from its spec, and nothing else. -/
structure EndsAs (config : Config) (notice : Metadata) (env : Environment) (ns : String)
    (now : Instant) (s : Store) (shown : Shown) : Prop where
  outcome : (pass config notice now).outcome s = .done (.after config.requeueSeconds)
  status : ∃ left, ((pass config notice now).after s).record? env.key = some left ∧
    left.known.shown = shown
  children : ∀ text object, Owned env ((pass config notice now).after s) text object ↔
    ∃ m ∈ parts config env ns, m.target.text = text ∧ m.object = object

/-! ## The end of a pass -/

variable {notice : Metadata} {space : String} {left : Store}

/-- Where all children are in place, what belongs to the record is what has been rendered for it. -/
private theorem owned_iff (placed : Placed config env ns all s left)
    (identified : env.metadata.uid.isSome = true)
    (homes : ∀ text object, Owned env s text object →
      ∃ child : Child, child.Place config env.spec.prNumber ns text) (text : String)
    (object : Json) : Owned env left text object ↔
      ∃ m ∈ parts config env ns, m.target.text = text ∧ m.object = object := by
  have hall (child : Child) : child ∈ all := by cases child <;> decide
  constructor
  · intro ho
    by_cases hplace : ∃ child : Child, child.Place config env.spec.prNumber ns text
    · obtain ⟨child, target, htarget, rfl⟩ := hplace
      by_cases hnil : child.portion config env ns = []
      · have hthere := ho.there
        rw [placed.cleared child (hall child) hnil target htarget] at hthere
        cases hthere
      · obtain ⟨m, hm, rfl⟩ := exists_portion hnil htarget
        have hput := placed.put child (hall child) m hm
        exact ⟨m, mem_parts.2 ⟨child, hall child, hm⟩, rfl,
        Option.some.inj (hput.symm.trans ho.there)⟩
    · have hkept := placed.kept text fun child _ h => hplace ⟨child, h⟩
      exact absurd (homes text object ⟨ho.kind, hkept.symm.trans ho.there, ho.marked⟩) hplace
  · rintro ⟨m, hm, rfl, rfl⟩
    obtain ⟨child, hchild, hportion⟩ := mem_parts.1 hm
    have hleftover : Leftover config env ns m.target.text m.object :=
      ⟨env, rfl, rfl, m, hm, rfl, rfl⟩
    obtain ⟨stored, hstored, _, howns⟩ := hleftover.read identified
    exact ⟨Place.reachAll ⟨m.target, target_mem_homes hportion, rfl⟩,
      placed.put child hchild m hportion, stored, hstored, howns⟩

/-- A pass ends in the same way from every history that does not overflow. -/
theorem ends_of_history (place : notice.ns = some space) (about : env.key = ⟨space, notice.anyName⟩)
    (h : History config notice env ns s) (reach : ¬OutOfReach env now) :
    EndsAs config notice env ns now s
      (shownBy config env (costIn config env ns s) (healthIn config env s)) := by
  obtain ⟨current, enters⟩ : ∃ current, contact? config env now = some current :=
    Option.ne_none_iff_exists'.1 fun hnone => reach (contact?_eq_none.1 hnone)
  have hspace : spaceOf env current = ns := (contact_ns enters).trans h.space
  have hsurvey := survey_placed h.calm h.ready h.legible
  rw [← hspace] at hsurvey
  obtain ⟨hfound, hplaced⟩ := hsurvey
  obtain ⟨houtcome, status, hreached, hleaves⟩ : (pass config notice now).outcome s = _ ∧ _ :=
    pass_leaves h.calm.undisturbed place about h.there h.acceptable enters hfound.symm
  rw [hspace] at hplaced hleaves hreached
  obtain ⟨version, written, hthere, hstatus⟩ := hleaves.there
  have hshown := shown_of_reached (undriven_of_contact h.undriven enters) hreached
  refine ⟨houtcome, ⟨_, hthere, (congrArg Status.shown hstatus).trans hshown⟩,
    fun text object => ?_⟩
  have hobjects : ∀ text, ((pass config notice now).after s).object? text =
      ((survey config env ns).after s).object? text :=
    fun text => congrArg (List.lookup text) hleaves.objects
  rw [← owned_iff hplaced h.identified h.homes text object]
  exact ⟨fun ho => ⟨ho.kind, (hobjects text).symm.trans ho.there, ho.marked⟩,
    fun ho => ⟨ho.kind, (hobjects text).trans ho.there, ho.marked⟩⟩

/-- Where the time of expiry is out of reach, a pass does nothing. -/
theorem overflows_of_history (place : notice.ns = some space)
    (about : env.key = ⟨space, notice.anyName⟩) (h : History config notice env ns s)
    (out : OutOfReach env now) :
    (pass config notice now).outcome s = .overflow ∧ (pass config notice now).after s = s := by
  have hnone : contact? config env now = none := contact?_eq_none.2 out
  rw [contact?, out.1] at hnone
  obtain ⟨houtcome, hafter⟩ : _ ∧ _ :=
    pass_of_read config h.calm.undisturbed place about h.there now
  rw [houtcome, hafter, step_of_valid h.acceptable.staying h.acceptable.held h.acceptable.valid,
    converge_of_overflow out.1 hnone]
  exact ⟨rfl, rfl⟩

/-- How a pass ends says nothing of the status before and of the version of the record. -/
private theorem EndsAs.of_restated {v : Option String} {before : Option Status} {shown : Shown}
    (h : EndsAs config notice (restated env v before) ns now s shown) :
    EndsAs config notice env ns now s shown := by
  refine ⟨h.outcome, h.status, fun text object => Iff.trans ?_ (h.children text object)⟩
  exact ⟨fun ho => ⟨ho.kind, ho.there, ho.marked⟩, fun ho => ⟨ho.kind, ho.there, ho.marked⟩⟩

private theorem healthIn_congr {s₁ s₂ : Store}
    (apps : ∀ service ∈ env.spec.uniqueServices,
      s₁.object? (applicationAddress env.spec.prNumber service config).text =
        s₂.object? (applicationAddress env.spec.prNumber service config).text) :
    healthIn config env s₁ = healthIn config env s₂ := by
  unfold healthIn
  refine congrArg Health.ofUnits (List.map_congr_left fun service hs => ?_)
  rw [unitIn, Store.readObject, apps service hs]
  rfl

/-- Two histories of one record, with the same namespace, in clusters with the same deployments and
pods. A pass over each ends in the same way, with a status that shows the same and with the children
that are rendered from the present spec, if and only if neither has a time of expiry to record that
is out of reach. A pass for which it is out of reach overflows and leaves everything as it was. What
passes over earlier versions of the record have left, whatever came of them, is such a history. -/
theorem same_end_iff {config : Config} {notice : Metadata} {space : String} {env : Environment}
    {ns : String} {v₁ v₂ : Option String} {status₁ status₂ : Option Status} {s₁ s₂ : Store}
    {t₁ t₂ : Instant} (place : notice.ns = some space) (about : env.key = ⟨space, notice.anyName⟩)
    (first : History config notice (restated env v₁ status₁) ns s₁)
    (second : History config notice (restated env v₂ status₂) ns s₂)
    (apps : ∀ service ∈ env.spec.uniqueServices,
      s₁.object? (applicationAddress env.spec.prNumber service config).text =
        s₂.object? (applicationAddress env.spec.prNumber service config).text)
    (pods : s₁.podsIn ns = s₂.podsIn ns) :
    ((∃ shown, EndsAs config notice env ns t₁ s₁ shown ∧ EndsAs config notice env ns t₂ s₂ shown) ↔
      ¬OutOfReach (restated env v₁ status₁) t₁ ∧ ¬OutOfReach (restated env v₂ status₂) t₂) ∧
    (OutOfReach (restated env v₁ status₁) t₁ →
      (pass config notice t₁).outcome s₁ = .overflow ∧ (pass config notice t₁).after s₁ = s₁) ∧
    (OutOfReach (restated env v₂ status₂) t₂ →
      (pass config notice t₂).outcome s₂ = .overflow ∧ (pass config notice t₂).after s₂ = s₂) ∧
    ∀ v status s, Past config notice (restated env v status) ns s →
      History config notice (restated env v status) ns s := by
  have about₁ : (restated env v₁ status₁).key = ⟨space, notice.anyName⟩ := about
  have about₂ : (restated env v₂ status₂).key = ⟨space, notice.anyName⟩ := about
  have hover₁ := fun out : OutOfReach (restated env v₁ status₁) t₁ =>
    overflows_of_history place about₁ first out
  have hover₂ := fun out : OutOfReach (restated env v₂ status₂) t₂ =>
    overflows_of_history place about₂ second out
  refine ⟨⟨?_, ?_⟩, hover₁, hover₂, fun _ _ _ past => past.history⟩
  · rintro ⟨shown, hends₁, hends₂⟩
    refine ⟨fun out => ?_, fun out => ?_⟩
    · have houtcome := hends₁.outcome
      rw [(hover₁ out).1] at houtcome
      cases houtcome
    · have houtcome := hends₂.outcome
      rw [(hover₂ out).1] at houtcome
      cases houtcome
  · rintro ⟨reach₁, reach₂⟩
    have hcost : costIn config env ns s₁ = costIn config env ns s₂ := by rw [costIn, pods]; rfl
    have hhealth : healthIn config env s₁ = healthIn config env s₂ := healthIn_congr apps
    have hends₁ := (ends_of_history place about₁ first reach₁).of_restated
    have hends₂ := (ends_of_history place about₂ second reach₂).of_restated
    -- What the status shows is a matter of the spec, which is the same in both histories.
    have hshown : shownBy config (restated env v₁ status₁)
          (costIn config (restated env v₁ status₁) ns s₁)
          (healthIn config (restated env v₁ status₁) s₁) =
        shownBy config env (costIn config env ns s₂) (healthIn config env s₂) := by
      rw [← hcost, ← hhealth]
      rfl
    rw [hshown] at hends₁
    exact ⟨_, hends₁, hends₂⟩

/-- A record before its first status, in a cluster without any children. -/
def unseen (env : Environment) : Store where
  records := [(env.key, env)]
  now := default

/-- A status in which the namespace of a record is recorded. -/
def seenOnce (env : Environment) : Status where
  phase := some .failed
  ns := some env.spec.namespaceName
  createdAt := some default
  expiresAt := some nextTurn
  message := some "degraded services: web"
  conditions := [⟨Condition.readyType, .fails, "Degraded", "degraded services: web", default⟩]

/-- The same record after its first status, when it still had a service, and with the children that
were put in place then. -/
def revised (env : Environment) : Store where
  records := [(env.key, restated env (some "7") (some (seenOnce env)))]
  objects := (parts {} { env with spec := { env.spec with services := ["web"] } }
    env.spec.namespaceName).map fun m => (m.target.text, m.object)
  now := nextTurn

private theorem record?_alone (key : RecordKey) (env : Environment) (objects : List (String × Json))
    (now : Instant) : (Store.record? { records := [(key, env)], objects, now } key) = some env :=
  (lookup_cons_if key (key, env) []).trans (if_pos rfl)

private theorem acceptable_newcomer : Acceptable newcomer.metadata newcomer := by
  have sound : newcomer.spec.fault? = none := by decide +kernel
  refine ⟨by decide, rfl, ?_⟩
  rw [Spec.validate, sound]

private theorem tidy_revised : Tidy {} (restated newcomer (some "7") (some (seenOnce newcomer)))
    newcomer.spec.namespaceName (revised newcomer) := by
  have hleft : ∀ text object, (revised newcomer).object? text = some object →
      Leftover {} (restated newcomer (some "7") (some (seenOnce newcomer)))
        newcomer.spec.namespaceName text object := by
    intro text object ho
    obtain ⟨before, after, hobjects, _⟩ := List.lookup_eq_some_iff.1 ho
    have hmem : (text, object) ∈ (revised newcomer).objects := by
      rw [hobjects]
      exact List.mem_append_right _ List.mem_cons_self
    obtain ⟨m, hm, heq⟩ := List.mem_map.1 hmem
    obtain ⟨rfl, rfl⟩ := Prod.mk.inj heq
    exact ⟨{ newcomer with spec := { newcomer.spec with services := ["web"] } }, rfl, rfl, m, hm,
      rfl, rfl⟩
  exact ⟨fun _ text object _ ho => hleft text object ho,
    fun text object ho => (hleft text object ho.there).place⟩

/-- The newcomer as it comes, and the newcomer after passes over another spec: the pass removes the
ingress that these have left. -/
theorem same_end_iff_newcomer : ∃ shown,
    EndsAs {} newcomer.metadata newcomer newcomer.spec.namespaceName default (unseen newcomer)
      shown ∧
    EndsAs {} newcomer.metadata newcomer newcomer.spec.namespaceName nextTurn (revised newcomer)
      shown := by
  have first : History {} newcomer.metadata (restated newcomer none none)
      newcomer.spec.namespaceName (unseen newcomer) :=
    .of_tidy (record?_alone ..) acceptable_newcomer rfl rfl rfl (fun _ => rfl)
      (fun _ hs => absurd hs List.not_mem_nil) (.of_empty fun _ _ => rfl)
  have second : History {} newcomer.metadata
      (restated newcomer (some "7") (some (seenOnce newcomer))) newcomer.spec.namespaceName
      (revised newcomer) :=
    .of_tidy (record?_alone ..) ⟨acceptable_newcomer.held, rfl, acceptable_newcomer.valid⟩ rfl rfl
      rfl (fun _ => rfl) (fun _ hs => absurd hs List.not_mem_nil) tidy_revised
  refine (same_end_iff rfl rfl first second (fun _ hs => absurd hs List.not_mem_nil) rfl).1.2
    ⟨?_, ?_⟩
  · rintro ⟨_, _, out⟩
    have soon : ¬Instant.lastSecond < (default : Instant).seconds + newcomer.spec.ttlSeconds := by
      decide +kernel
    exact soon out
  · exact fun out => nomatch out.1

/-- A record whose spec can be acted on, with a time to live that leads beyond all representable
years. -/
def endless : Environment :=
  { newcomer with spec := { newcomer.spec with ttl := "100000000d" } }

/-- The same record with a namespace and a time of expiry that were recorded before its time to live
was changed, in the same cluster. -/
def enlisted : Environment := restated endless (some "7") (some (seenOnce endless))

private theorem acceptable_endless : Acceptable newcomer.metadata endless := by
  have sound : endless.spec.fault? = none := by decide +kernel
  refine ⟨by decide, rfl, ?_⟩
  rw [Spec.validate, sound]

/-- The end of a pass depends on the history: with the same spec, the same cluster and the same
namespace, the pass over a record that has not been seen before overflows, and the pass over a
record that has been seen ends well. -/
theorem history_matters :
    History {} newcomer.metadata endless endless.spec.namespaceName (unseen endless) ∧
      History {} newcomer.metadata enlisted endless.spec.namespaceName (unseen enlisted) ∧
      (unseen enlisted).objects = (unseen endless).objects ∧
      (unseen enlisted).pods = (unseen endless).pods ∧
      (pass {} newcomer.metadata default).outcome (unseen endless) = .overflow ∧
      ∃ shown, EndsAs {} newcomer.metadata enlisted endless.spec.namespaceName default
        (unseen enlisted) shown := by
  have first : History {} newcomer.metadata endless endless.spec.namespaceName (unseen endless) :=
    .of_tidy (record?_alone ..) acceptable_endless rfl rfl rfl (fun _ => rfl)
      (fun _ hs => absurd hs List.not_mem_nil) (.of_empty fun _ _ => rfl)
  have second : History {} newcomer.metadata enlisted endless.spec.namespaceName
      (unseen enlisted) :=
    .of_tidy (record?_alone ..) ⟨acceptable_endless.held, rfl, acceptable_endless.valid⟩ rfl rfl rfl
      (fun _ => rfl) (fun _ hs => absurd hs List.not_mem_nil) (.of_empty fun _ _ => rfl)
  have late : Instant.lastSecond < (default : Instant).seconds + endless.spec.ttlSeconds := by
    decide +kernel
  have out : OutOfReach endless default := ⟨rfl, rfl, late⟩
  have about : endless.key = ⟨"previews", newcomer.metadata.anyName⟩ := rfl
  have about' : enlisted.key = ⟨"previews", newcomer.metadata.anyName⟩ := rfl
  exact ⟨first, second, rfl, rfl, (overflows_of_history rfl about first out).1, _,
    ends_of_history rfl about' second fun out => nomatch out.1⟩

end Reconcile
end PreviewControl
