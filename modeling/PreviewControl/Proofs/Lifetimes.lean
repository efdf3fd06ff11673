import PreviewControl.Cleanup
import PreviewControl.Proofs.Revision

/-!
# What a status keeps for good

The namespace of a record, the time when it was made and the time when it expires are set once. The
two times come with the first status that the operator writes, whether or not the spec can be acted
on, so that every record that is known to the operator expires.
-/
namespace PreviewControl

open Reconcile

namespace Status

variable {config : Config} {env : Environment} {current status : Status} {now : Instant}

/-- What is set stays set, to the same value. -/
structure SetOnce (before after : Status) : Prop where
  ns : ∀ n, before.ns = some n → after.ns = some n
  createdAt : ∀ t, before.createdAt = some t → after.createdAt = some t
  expiresAt : ∀ t, before.expiresAt = some t → after.expiresAt = some t

theorem SetOnce.refl (s : Status) : SetOnce s s := ⟨fun _ => id, fun _ => id, fun _ => id⟩

theorem SetOnce.trans {a b c : Status} (h : SetOnce a b) (h' : SetOnce b c) : SetOnce a c where
  ns n hn := h'.ns n (h.ns n hn)
  createdAt t ht := h'.createdAt t (h.createdAt t ht)
  expiresAt t ht := h'.expiresAt t (h.expiresAt t ht)

theorem SetOnce.of_eq {before after : Status} (ns : after.ns = before.ns)
    (createdAt : after.createdAt = before.createdAt)
    (expiresAt : after.expiresAt = before.expiresAt) : SetOnce before after where
  ns _ hn := ns.trans hn
  createdAt _ ht := createdAt.trans ht
  expiresAt _ ht := expiresAt.trans ht

/-- The two times of a status come together, and no namespace is recorded without them. -/
structure Dated (s : Status) : Prop where
  paired : s.createdAt.isSome = s.expiresAt.isSome
  placed : s.ns.isSome = true → s.createdAt.isSome = true

theorem Dated.of_eq {before after : Status} (h : before.Dated) (ns : after.ns = before.ns)
    (createdAt : after.createdAt = before.createdAt)
    (expiresAt : after.expiresAt = before.expiresAt) : after.Dated where
  paired := by rw [createdAt, expiresAt, h.paired]
  placed hns := by
    rw [createdAt]
    rw [ns] at hns
    exact h.placed hns

/-- How the times of a status come about: they are kept, and what is missing counts from now on. -/
structure Aged (env : Environment) (current : Status) (now : Instant) (next : Status) : Prop where
  createdAt : next.createdAt = some (current.createdAt.getD now)
  expiresAt : next.expiresAt.isSome = true
  kept : ∀ t, current.expiresAt = some t → next.expiresAt = some t
  counted : current.expiresAt = none →
    next.expiresAt = (current.createdAt.getD now).add? env.spec.ttlSeconds

theorem aged_of_lifetime {life : Instant × Instant} (h : lifetime? current env.spec now = some life)
    {next : Status} (createdAt : next.createdAt = some life.1)
    (expiresAt : next.expiresAt = some life.2) : Aged env current now next := by
  unfold lifetime? at h
  cases he : current.expiresAt with
  | some t =>
    simp only [he] at h
    cases h
    refine ⟨createdAt, by rw [expiresAt]; rfl, fun t' ht => ?_, fun hn => ?_⟩
    · rw [expiresAt, ← ht, he]
    · rw [he] at hn
      cases hn
  | none =>
    simp only [he] at h
    obtain ⟨t, ht, rfl⟩ := Option.map_eq_some_iff.1 h
    refine ⟨createdAt, by rw [expiresAt]; rfl, fun t' hn => ?_, fun _ => ?_⟩
    · rw [he] at hn
      cases hn
    · rw [expiresAt, ht]

theorem aged_accepted (h : accepted? env current config now = some status) :
    Aged env current now status := by
  obtain ⟨life, hlife, rfl⟩ := Option.map_eq_some_iff.1 h
  exact aged_of_lifetime hlife rfl rfl

theorem aged_refused {message : String} (h : refused? env current message now = some status) :
    Aged env current now status := by
  obtain ⟨life, hlife, rfl⟩ := Option.map_eq_some_iff.1 h
  exact aged_of_lifetime hlife rfl rfl

theorem Aged.setOnce (h : Aged env current now status)
    (ns : ∀ n, current.ns = some n → status.ns = some n) : SetOnce current status where
  ns := ns
  createdAt t ht := by rw [h.createdAt, ht, Option.getD_some]
  expiresAt := h.kept

theorem Aged.dated (h : Aged env current now status) : status.Dated where
  paired := by rw [h.createdAt, h.expiresAt]; rfl
  placed _ := by rw [h.createdAt]; rfl

/-! ## Statuses that differ in the cost and the generation -/

variable {before after base next : Status}

theorem SetOnce.of_resembles (h : SetOnce base next) (hbefore : before.Resembles base)
    (hafter : after.Resembles next) : SetOnce before after := by
  obtain ⟨_, _, rfl⟩ := hbefore
  obtain ⟨_, _, rfl⟩ := hafter
  exact ⟨h.ns, h.createdAt, h.expiresAt⟩

theorem Dated.of_resembles (h : base.Dated) (resembles : before.Resembles base) :
    before.Dated := by
  obtain ⟨_, _, rfl⟩ := resembles
  exact ⟨h.paired, h.placed⟩

theorem Aged.of_resembles (h : Aged env base now next) (resembles : before.Resembles base) :
    Aged env before now next := by
  obtain ⟨_, _, rfl⟩ := resembles
  exact ⟨h.createdAt, h.expiresAt, h.kept, h.counted⟩

end Status

namespace Reconcile

variable {config : Config} {name : String} {env : Environment} {current status : Status}
  {now : Instant}

/-- What is computed from a record keeps what is set in it. -/
theorem Computed.setOnce (h : Computed config name now env current status) :
    Status.SetOnce current status := by
  cases h with
  | accepted _ unrecorded made =>
    refine (Status.aged_accepted made).setOnce fun n hn => ?_
    rw [unrecorded] at hn
    cases hn
  | @refused fault next _ _ made =>
    have aged : Status.SetOnce env.known next :=
      (Status.aged_refused made).setOnce fun n hn => (Status.refused_ns made).trans hn
    exact ⟨aged.ns, aged.createdAt, aged.expiresAt⟩
  | observed observation =>
    refine ⟨fun n hn => ?_, fun t ht => Status.next_createdAt.trans ht,
      fun t ht => Status.next_expiresAt.trans ht⟩
    show (Status.next env current observation config now).ns = some n
    rw [Status.next_ns, hn, Option.getD_some]
  | marked => exact .of_eq rfl rfl rfl

theorem Computed.dated (h : Computed config name now env current status) (dated : current.Dated) :
    status.Dated := by
  cases h with
  | accepted _ _ made => exact (Status.aged_accepted made).dated
  | refused _ _ made =>
    have aged := (Status.aged_refused made).dated
    exact ⟨aged.paired, aged.placed⟩
  | observed observation _ recorded =>
    constructor
    · show (Status.next env current observation config now).createdAt.isSome =
        (Status.next env current observation config now).expiresAt.isSome
      rw [Status.next_createdAt, Status.next_expiresAt, dated.paired]
    · intro _
      show (Status.next env current observation config now).createdAt.isSome = true
      rw [Status.next_createdAt, dated.placed recorded]
  | marked => exact dated.of_eq rfl rfl rfl

/-- A status that is written while the record stays has its times. Where none were set before, they
count from the time of writing. -/
theorem Computed.aged (h : Computed config name now env current status)
    (staying : env.metadata.isDeleting = false) (dated : current.Dated) :
    status.createdAt.isSome = true ∧
      (current.ns = none → Status.Aged env current now status) := by
  cases h with
  | accepted _ _ made =>
    have aged := Status.aged_accepted made
    refine ⟨?_, fun _ => aged⟩
    rw [aged.createdAt]
    rfl
  | @refused fault next _ _ made =>
    have aged := Status.aged_refused made
    refine ⟨?_, fun _ => ⟨aged.createdAt, aged.expiresAt, aged.kept, aged.counted⟩⟩
    show next.createdAt.isSome = true
    rw [aged.createdAt]
    rfl
  | observed observation _ recorded =>
    constructor
    · show (Status.next env current observation config now).createdAt.isSome = true
      rw [Status.next_createdAt, dated.placed recorded]
    · intro hns
      rw [hns] at recorded
      cases recorded
  | marked deleting =>
    rw [staying] at deleting
    cases deleting

end Reconcile

namespace Contest

/-- What others may do to a record while the operator looks after it: they may write its metadata
and its spec at will, but not take back the request to delete it, and of the status they write only
the phase. The record may also go away. -/
inductive Meddles : Option Environment → Option Environment → Prop where
  | edit {before after : Environment}
      (lasting : before.metadata.isDeleting = true → after.metadata.isDeleting = true)
      (shielded : after.known = { before.known with phase := after.known.phase }) :
    Meddles (some before) (some after)
  | vanish {before : Environment} : Meddles (some before) none

/-- The operator has written a status, whether or not it has heard of it. -/
def written (log : List Entry) : Bool :=
  log.any fun
    | .answered (.call (.patchStatus ..) (.ok _)) => true
    | .lost (.patchStatus ..) => true
    | _ => false

variable {x x' : Contest} {before after : Environment}

/-- What one step makes of a record: the operator writes a status, or what there is of the status
stays but for its phase. -/
inductive Passage (x x' : Contest) (before after : Environment) : Prop where
  | kept (lasting : before.metadata.isDeleting = true → after.metadata.isDeleting = true)
      (shielded : after.known = { before.known with phase := after.known.phase })
      (same : written x'.log = written x.log) : Passage x x' before after
  | revised {current status : Status}
      (lasting : before.metadata.isDeleting = true → after.metadata.isDeleting = true)
      (known : before.known.Resembles current)
      (computed : Computed x.pass.config x.pass.notice.anyName x.pass.now before current status)
      (stands : after.known.Resembles status) (entered : written x'.log = true) :
    Passage x x' before after

private theorem Passage.same (env : Environment) (h : written x'.log = written x.log) :
    Passage x x' env env := .kept id rfl h

private theorem isDeleting_of_kept {env : Environment} (h : Kept env after) :
    env.metadata.isDeleting = true → after.metadata.isDeleting = true := by
  have heq : after.metadata.isDeleting = env.metadata.isDeleting := by
    rw [← h.metadata]
    rfl
  exact fun hd => heq.trans hd

private theorem written_of_quiet {entry : Entry} (quiet : entry.accepted? = none)
    (log : List Entry) : written (entry :: log) = written log := by
  cases entry with
  | began | failed | noted | others => rfl
  | lost c => cases quiet
  | answered d =>
    cases d with
    | event | measurement => rfl
    | call c answer =>
      cases answer with
      | error e => cases c <;> rfl
      | ok reply =>
        cases c with
        | patchStatus | addFinalizer | removeFinalizer => cases quiet
        | _ => rfl

private theorem written_of_accepted {entry : Entry} {c : Call}
    (accepted : entry.accepted? = some c) (log : List Entry) : written (entry :: log) =
      match c with
      | .patchStatus .. => true
      | _ => written log := by
  cases entry with
  | began | failed | noted | others => cases accepted
  | lost d =>
    obtain rfl : d = c := Option.some.inj accepted
    cases d <;> rfl
  | answered d =>
    cases d with
    | event | measurement => cases accepted
    | call d answer =>
      cases answer with
      | error e => cases d <;> cases accepted
      | ok reply => cases d <;> cases accepted <;> rfl

private theorem Revises.passage {c : Call} {env : Environment} {entry : Entry}
    (h : Revises x.pass env c (some after)) (log : x'.log = entry :: x.log)
    (accepted : entry.accepted? = some c) : Passage x x' env after := by
  have hwritten := written_of_accepted accepted x.log
  rw [← log] at hwritten
  cases h with
  | @status current status _ kept carries computed hstatus =>
    refine .revised (isDeleting_of_kept kept) carries.resembles computed ?_ hwritten
    rw [show after.known = status.mergedInto env.known by rw [Environment.known, hstatus]; rfl]
    exact computed.resembles carries
  | hold kept hstatus | letGo kept hstatus =>
    have hknown : after.known = env.known := by
      rw [Environment.known, hstatus]
      rfl
    refine .kept (isDeleting_of_kept kept) ?_ hwritten
    rw [hknown]

/-- A record that is there after a step was there before. -/
theorem Step.passage (h : x.Coherent) (s : Step Meddles x x') (there : x'.stored = some after) :
    ∃ before, x.stored = some before ∧ Passage x x' before after := by
  cases s.origin h there with
  | untouched log quiet there =>
    refine ⟨after, there, .same after ?_⟩
    rw [log, written_of_quiet quiet]
  | revised log accepted _ there revises => exact ⟨_, there, revises.passage log accepted⟩
  | others log may =>
    generalize hs : x.stored = before at may
    cases may with
    | edit lasting shielded => exact ⟨_, rfl, .kept lasting shielded (by rw [log]; rfl)⟩

/-! ## Over a whole run -/

/-- A step keeps what is set. -/
theorem Passage.setOnce (h : Passage x x' before after) : before.known.SetOnce after.known := by
  cases h with
  | kept _ shielded =>
    rw [shielded]
    exact .of_eq rfl rfl rfl
  | revised _ known computed stands => exact computed.setOnce.of_resembles known stands

/-- How far the operator has come with a record whose status is its own from the beginning. -/
structure Governed (x : Contest) (env : Environment) : Prop where
  dated : env.known.Dated
  blank : written x.log = false → env.known.ns = none ∧ env.known.createdAt = none
  entered : written x.log = true → env.metadata.isDeleting = false →
    env.known.createdAt.isSome = true

theorem Passage.governed (h : Passage x x' before after) (g : x.Governed before) :
    x'.Governed after := by
  cases h with
  | kept lasting shielded same =>
    have hns : after.known.ns = before.known.ns := by rw [shielded]
    have hcreated : after.known.createdAt = before.known.createdAt := by rw [shielded]
    have hexpires : after.known.expiresAt = before.known.expiresAt := by rw [shielded]
    refine ⟨g.dated.of_eq hns hcreated hexpires, fun hw => ?_, fun hw hd => ?_⟩
    · rw [hns, hcreated]
      exact g.blank (same.symm.trans hw)
    · rw [hcreated]
      refine g.entered (same.symm.trans hw) (Bool.eq_false_iff.2 fun hdeleting => ?_)
      rw [lasting hdeleting] at hd
      cases hd
  | @revised current status lasting known computed stands entered =>
    have dated : current.Dated := g.dated.of_resembles known.symm
    refine ⟨(computed.dated dated).of_resembles stands, fun hw => ?_, fun _ hd => ?_⟩
    · rw [entered] at hw
      cases hw
    · have hcreated : after.known.createdAt = status.createdAt := by
        obtain ⟨_, _, heq⟩ := stands
        rw [heq]
      rw [hcreated]
      refine (computed.aged (Bool.eq_false_iff.2 fun hdeleting => ?_) dated).1
      rw [lasting hdeleting] at hd
      cases hd

/-- Whatever happens to a record, what is set in its status stays set. -/
theorem setOnce_of_run (h : x.Reachable Meddles) (run : Relation.ReflTransGen (Step Meddles) x x')
    (there : x.stored = some before) (there' : x'.stored = some after) :
    before.known.SetOnce after.known := by
  induction run generalizing after with
  | refl =>
    obtain rfl := Option.some.inj (there.symm.trans there')
    exact .refl _
  | tail run s ih =>
    obtain ⟨mid, hmid, passage⟩ := s.passage (h.run run).coherent there'
    exact (ih hmid).trans passage.setOnce

/-- The operator governs a record that has had no status before. -/
theorem governed_of_run (start : x.Start) (unknown : ∀ env, x.stored = some env → env.status = none)
    (run : Relation.ReflTransGen (Step Meddles) x x') (there : x'.stored = some after) :
    x'.Governed after := by
  induction run generalizing after with
  | refl =>
    have hknown : after.known = {} := by
      rw [Environment.known, unknown after there]
      rfl
    refine ⟨⟨by rw [hknown], fun hns => ?_⟩, fun _ => by rw [hknown]; exact ⟨rfl, rfl⟩,
      fun hw => ?_⟩
    · rw [hknown] at hns
      cases hns
    · rw [start.log] at hw
      cases hw
  | tail run s ih =>
    obtain ⟨mid, hmid, passage⟩ := s.passage ((Reachable.start start).run run).coherent there
    exact passage.governed (ih hmid)

private theorem expiresAt?_eq (env : Environment) : env.expiresAt? = env.known.expiresAt := by
  unfold Environment.expiresAt? Environment.known
  cases env.status <;> rfl

/-- Of a record that has had no status before the operator came, what is set once stays: the
namespace, the time when it was made and the time when it expires. The two times are set by the
first status that is written before the deletion is requested, the second one as far after the first
one as the spec says that the write finds. And every record with a status that the operator has
written has both times, so that it expires, unless it is pinned or being deleted. -/
theorem lifetime_set_once {x₀ x : Contest} (start : x₀.Start)
    (unknown : ∀ env, x₀.stored = some env → env.status = none)
    (run : Relation.ReflTransGen (Step Meddles) x₀ x) :
    (∀ x' before after, Relation.ReflTransGen (Step Meddles) x x' → x.stored = some before →
      x'.stored = some after → before.known.SetOnce after.known) ∧
    (∀ env status reply stored, x.pass.pass.Asks x.pass.trace (.patchStatus env status) →
      x.Serves (.patchStatus env status) (.ok reply) stored → written x.log = false →
      env.metadata.isDeleting = false → x.stored = some env ∧
        env.known.createdAt = none ∧ env.known.expiresAt = none ∧
        status.createdAt = some x.pass.now ∧ status.expiresAt.isSome = true ∧
        status.expiresAt = x.pass.now.add? env.spec.ttlSeconds) ∧
    (∀ env, x.stored = some env → written x.log = true → env.metadata.isDeleting = false →
      ∃ createdAt expiresAt, env.known.createdAt = some createdAt ∧
        env.known.expiresAt = some expiresAt ∧
        ∀ now, expiresAt.before now = true → env.isPinned = false →
          env.isExpired now = true) := by
  have reachable : x.Reachable Meddles := (Reachable.start start).run run
  refine ⟨fun x' before after run' there there' => ?_,
    fun env status reply stored asks serves unwritten staying => ?_,
    fun env there entered staying => ?_⟩
  · exact setOnce_of_run reachable run' there there'
  · have there := serves.stored reachable.coherent asks rfl
    have governed := governed_of_run start unknown run there
    obtain ⟨hns, hcreated⟩ := governed.blank unwritten
    have hexpires : env.known.expiresAt = none := by
      have hpaired := governed.dated.paired
      rw [hcreated] at hpaired
      exact Option.not_isSome_iff_eq_none.1 (Bool.eq_false_iff.1 hpaired.symm)
    obtain ⟨current, carries, computed⟩ := computed_of_asks reachable.coherent.faithful asks
    have known := carries.resembles
    have hnone : current.ns = none := by
      obtain ⟨_, _, heq⟩ := known
      rw [heq] at hns
      exact hns
    have aged := ((computed.aged staying (governed.dated.of_resembles known.symm)).2
      hnone).of_resembles known
    have hnow : env.known.createdAt.getD x.pass.now = x.pass.now := by rw [hcreated]; rfl
    refine ⟨there, hcreated, hexpires, ?_, aged.expiresAt, ?_⟩
    · rw [aged.createdAt, hnow]
    · rw [aged.counted hexpires, hnow]
  · have governed := governed_of_run start unknown run there
    have hcreated := governed.entered entered staying
    have hexpires := governed.dated.paired ▸ hcreated
    obtain ⟨createdAt, hcreated⟩ := Option.isSome_iff_exists.1 hcreated
    obtain ⟨expiresAt, hexpires⟩ := Option.isSome_iff_exists.1 hexpires
    refine ⟨createdAt, expiresAt, hcreated, hexpires, fun now past unpinned => ?_⟩
    rw [Environment.isExpired, staying, unpinned, expiresAt?_eq, hexpires]
    exact past

/-- A record that can never be acted on, because there is no pull request zero. -/
def hopeless : Environment :=
  { newcomer with
    metadata := { newcomer.metadata with resourceVersion := some "1" }
    spec := { newcomer.spec with prNumber := 0 } }

/-- What the spec of the record is refused for. -/
def hopelessness : Failure :=
  .invalid "shop" (some "spec.prNumber") "pull request number must be at least 1"

/-- The status that is written for the record. -/
def verdict : Status :=
  ((Status.refused? hopeless {} hopelessness.message default).getD {}).stamped default

/-- The beginning of a pass over the record. -/
def hearing : Contest where
  stored := some hopeless
  given := ["1"]
  pass := { config := {}, notice := hopeless.metadata, now := default }
  log := []

/-- The record has been read. -/
def heard : Contest :=
  let d : Deed := read hopeless.metadata "previews" hopeless
  (hearing.put (some hopeless)).go d (.answered d)

/-- The record with the status that has been written. -/
def sentenced : Environment := restated hopeless (some "2") (some verdict)

/-- The status has been written. -/
def judged : Contest :=
  let d : Deed := .call (.patchStatus hopeless verdict) (.ok sentenced)
  (heard.put (some sentenced)).go d (.answered d)

theorem start_hearing : hearing.Start := by
  refine ⟨fun env henv => ?_, fun env henv => ?_, rfl, rfl⟩
  · cases henv
    rfl
  · cases henv
    exact ⟨"1", List.mem_singleton_self _, rfl⟩

theorem asks_verdict : heard.pass.pass.Asks heard.pass.trace (.patchStatus hopeless verdict) := by
  have made : Status.refused? hopeless {} hopelessness.message default =
      some ((Status.refused? hopeless {} hopelessness.message default).getD {}) := by
    decide +kernel
  exact asks_of_writing rfl (.refuse rfl (by decide) rfl made (by decide +kernel)) rfl

theorem serves_verdict :
    heard.Serves (.patchStatus hopeless verdict) (.ok sentenced) (some sentenced) :=
  .status rfl rfl rfl (by decide)

theorem run_heard : Relation.ReflTransGen (Step Meddles) hearing heard :=
  .single (.answer ⟨_, .start _⟩ (.read rfl))

/-- A record whose spec has never been valid expires all the same. -/
theorem lifetime_set_once_judged :
    judged.stored = some sentenced ∧ sentenced.spec.fault?.isSome = true ∧
      sentenced.known.expiresAt = (default : Instant).add? 14400 ∧
      ∃ expiresAt, sentenced.known.expiresAt = some expiresAt ∧
        ∀ now, expiresAt.before now = true → sentenced.isExpired now = true := by
  have unknown : ∀ env, hearing.stored = some env → env.status = none := by
    intro env henv
    cases henv
    rfl
  have first := (lifetime_set_once start_hearing unknown run_heard).2.1 hopeless verdict sentenced
    (some sentenced) asks_verdict serves_verdict rfl rfl
  have whole := (lifetime_set_once start_hearing unknown
    (run_heard.tail (.answer asks_verdict serves_verdict))).2.2 sentenced rfl rfl rfl
  obtain ⟨_, _, _, _, _, hcounted⟩ := first
  obtain ⟨_, expiresAt, _, hexpires, hpast⟩ := whole
  have hours : hopeless.spec.ttlSeconds = 14400 := by decide +kernel
  rw [hours] at hcounted
  exact ⟨rfl, by decide, hcounted, expiresAt, hexpires, fun now past => hpast now past rfl⟩

end Contest
end PreviewControl
