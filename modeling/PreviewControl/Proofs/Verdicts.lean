import PreviewControl.Proofs.Revision
import PreviewControl.Proofs.Undisturbed

/-!
# Phase and verdict

The phase of a record and the condition that tells whether its environment can be used are written
side by side and say the same, whatever the operator and a test run that others drive do to the
record in turn. What belongs to others the operator never writes of its own accord.
-/
namespace PreviewControl

open Reconcile

namespace Status

variable {config : Config} {env : Environment} {s current status : Status} {now : Instant}
  {verdict : Verdict} {reason message : String} {m : Move} {observation : Observation}

/-- The verdict on whether the environment can be used. -/
def verdict? (s : Status) : Option Verdict :=
  (s.condition? Condition.readyType).map (·.verdict)

/-- Every type of condition comes once. An environment that is ready can be used, and one that can
be used is ready or in a test run. -/
structure Agreeing (s : Status) : Prop where
  distinct : (s.conditions.map (·.type)).Nodup
  ready : s.phase = some .ready → s.verdict? = some .holds
  holds : s.verdict? = some .holds → ∃ p ∈ [Phase.ready, .testing, .complete], s.phase = some p

theorem agreeing_empty : Agreeing {} where
  distinct := List.nodup_nil
  ready h := nomatch h
  holds h := nomatch h

/-- The verdict that has been entered is the one that stands. -/
theorem verdict?_of_entered {cs : List Condition}
    (entered : s.conditions = (readyCondition verdict reason message now).enter cs) :
    s.verdict? = some verdict := by
  obtain ⟨d, hfind, hsame⟩ :=
    Condition.find?_enter (readyCondition verdict reason message now) cs
  simp only [Condition.sameState, Bool.and_eq_true, beq_iff_eq] at hsame
  have hfind : s.condition? Condition.readyType = some d := by
    rw [condition?, entered]
    exact hfind
  rw [verdict?, hfind]
  exact congrArg some hsame.1.1.2

/-- A phase is entered together with the verdict that belongs to it. -/
theorem agreeing_of_entered {cs : List Condition} (distinct : (cs.map (·.type)).Nodup)
    (entered : s.conditions = (readyCondition verdict reason message now).enter cs)
    (agree : s.phase = some .ready ↔ verdict = .holds) : s.Agreeing where
  distinct := by
    rw [entered]
    exact Condition.nodup_enter _ distinct
  ready h := (verdict?_of_entered entered).trans (congrArg some (agree.1 h))
  holds h := by
    rw [verdict?_of_entered entered] at h
    exact ⟨.ready, List.mem_cons_self, agree.2 (Option.some.inj h)⟩

/-- Where neither the conditions nor the phase change, nothing comes apart. -/
theorem Agreeing.of_eq (h : current.Agreeing) (phase : s.phase = current.phase)
    (conditions : s.conditions = current.conditions) : s.Agreeing := by
  have hverdict : s.verdict? = current.verdict? := by
    rw [verdict?, verdict?, condition?, condition?, conditions]
  refine ⟨conditions ▸ h.distinct, fun hr => ?_, fun hh => ?_⟩
  · rw [hverdict]
    exact h.ready (phase.symm.trans hr)
  · rw [phase]
    exact h.holds (hverdict.symm.trans hh)

theorem Agreeing.of_resembles (h : current.Agreeing) (resembles : s.Resembles current) :
    s.Agreeing := by
  obtain ⟨_, _, rfl⟩ := resembles
  exact h.of_eq rfl rfl

/-- A test run may begin whatever the verdict is. -/
theorem Agreeing.driven (h : current.Agreeing) {p : Phase} (external : p.isExternal = true) :
    Agreeing { current with phase := some p } where
  distinct := h.distinct
  ready hr := by
    obtain rfl : p = .ready := Option.some.inj hr
    cases external
  holds _ := by
    cases p with
    | testing => exact ⟨.testing, by decide, rfl⟩
    | complete => exact ⟨.complete, by decide, rfl⟩
    | _ => cases external

/-- Every move brings the verdict that belongs to its phase. -/
theorem verdict_of_move (h : current.move? env observation = some m) :
    m.phase = .ready ∧ m.verdict = .holds ∨
      m.phase ∈ [.failed, .provisioning] ∧ m.verdict = .fails := by
  unfold move? at h
  split at h
  · obtain rfl := Option.some.inj h
    exact .inr ⟨List.mem_cons_self, rfl⟩
  · split at h
    · cases h
    · obtain rfl := Option.some.inj h
      unfold Move.ofHealth
      split
      · split
        · exact .inl ⟨rfl, rfl⟩
        · exact .inr ⟨List.mem_cons_of_mem _ List.mem_cons_self, rfl⟩
      · exact .inr ⟨List.mem_cons_of_mem _ List.mem_cons_self, rfl⟩

end Status

namespace Reconcile

variable {config : Config} {name : String} {env : Environment} {current status : Status}
  {now : Instant}

/-- What is computed from a status in which phase and verdict agree is one in which they do. -/
theorem Computed.agreeing (h : Computed config name now env current status)
    (agreeing : current.Agreeing) : status.Agreeing := by
  cases h with
  | accepted _ _ made =>
    obtain ⟨life, _, rfl⟩ := Option.map_eq_some_iff.1 made
    have distinct : (([] : List Condition).map (·.type)).Nodup := List.nodup_nil
    exact Status.agreeing_of_entered distinct rfl ⟨(nomatch ·), (nomatch ·)⟩
  | refused _ _ made =>
    obtain ⟨life, _, rfl⟩ := Option.map_eq_some_iff.1 made
    exact Status.agreeing_of_entered agreeing.distinct rfl
      ⟨(nomatch ·), (nomatch ·)⟩
  | observed observation =>
    cases hm : current.move? env observation with
    | none =>
      rw [Status.next_of_rest hm]
      exact agreeing.of_eq rfl rfl
    | some m =>
      rw [Status.next_of_move hm]
      refine Status.agreeing_of_entered agreeing.distinct rfl ?_
      show some m.phase = some .ready ↔ m.verdict = .holds
      rcases Status.verdict_of_move hm with ⟨hphase, hverdict⟩ | ⟨hphase, hverdict⟩
      · simp [hphase, hverdict]
      · simp only [List.mem_cons, List.not_mem_nil, or_false] at hphase
        rcases hphase with hphase | hphase <;> simp [hphase, hverdict]
  | marked =>
    exact Status.agreeing_of_entered agreeing.distinct rfl
      ⟨(nomatch ·), (nomatch ·)⟩

/-- The phases that the operator moves a record to. -/
def ownPhases : List Phase := [.pending, .provisioning, .ready, .failed, .terminating]

/-- What the operator does not move to one of its own phases stays where it is. -/
theorem Computed.phase (h : Computed config name now env current status) :
    (∃ p ∈ ownPhases, status.phase = some p) ∨ status.phase = current.phase := by
  cases h with
  | accepted _ _ made =>
    obtain ⟨life, _, rfl⟩ := Option.map_eq_some_iff.1 made
    exact .inl ⟨.pending, by decide, rfl⟩
  | refused _ _ made =>
    obtain ⟨life, _, rfl⟩ := Option.map_eq_some_iff.1 made
    exact .inl ⟨.failed, by decide, rfl⟩
  | observed observation =>
    cases hm : current.move? env observation with
    | none =>
      rw [Status.next_of_rest hm]
      exact .inr rfl
    | some m =>
      rw [Status.next_of_move hm]
      refine .inl ⟨m.phase, ?_, rfl⟩
      rcases Status.verdict_of_move hm with ⟨hphase, _⟩ | ⟨hphase, _⟩
      · rw [hphase]
        decide
      · exact (show [Phase.failed, .provisioning] ⊆ ownPhases by decide) hphase
  | marked => exact .inl ⟨.terminating, by decide, rfl⟩

end Reconcile

namespace Contest

variable {others : Option Environment → Option Environment → Prop} {x x' x₀ : Contest}
  {before after : Environment}

/-- What others do to a record while a test run is driven: they write metadata and spec at will, but
of the status only the phase, and only to begin or to complete the test run. The record may also go
away. -/
inductive Drives : Option Environment → Option Environment → Prop where
  | edit {before after : Environment} (same : after.known = before.known) :
    Drives (some before) (some after)
  | drive {before after : Environment} {p : Phase} (external : p.isExternal = true)
      (driven : after.known = { before.known with phase := some p }) :
    Drives (some before) (some after)
  | vanish {before : Environment} : Drives (some before) none

/-- A write of the operator leaves the status as it is or computes it anew. -/
theorem Revises.known {e : Episode} {c : Call} {env : Environment}
    (h : Revises e env c (some after)) : after.known = env.known ∨ ∃ current status,
      env.known.Resembles current ∧ after.known.Resembles status ∧
      Computed e.config e.notice.anyName e.now env current status := by
  cases h with
  | status _ carries computed hstatus =>
    refine .inr ⟨_, _, carries.resembles, ?_, computed⟩
    rw [Environment.known, hstatus]
    exact computed.resembles carries
  | hold _ hstatus | letGo _ hstatus =>
    refine .inl ?_
    rw [Environment.known, hstatus]
    rfl

theorem Step.agreeing (h : x.Coherent) (s : Step Drives x x')
    (agreeing : ∀ env, x.stored = some env → env.known.Agreeing)
    (there : x'.stored = some after) : after.known.Agreeing := by
  cases s.origin h there with
  | untouched _ _ there => exact agreeing after there
  | revised _ _ _ there revises =>
    rcases revises.known with hsame | ⟨current, status, hcurrent, hstatus, computed⟩
    · rw [hsame]
      exact agreeing _ there
    · exact (computed.agreeing ((agreeing _ there).of_resembles hcurrent.symm)).of_resembles hstatus
  | others _ may =>
    generalize hs : x.stored = before at may
    cases may with
    | edit same =>
      rw [same]
      exact agreeing _ hs
    | drive external driven =>
      rw [driven]
      exact (agreeing _ hs).driven external

/-- Phase and verdict agree in whatever has come of a record that has had no status before. -/
theorem agreeing_of_run (start : x₀.Start)
    (unknown : ∀ env, x₀.stored = some env → env.status = none)
    (run : Relation.ReflTransGen (Step Drives) x₀ x) (there : x.stored = some after) :
    after.known.Agreeing := by
  induction run generalizing after with
  | refl =>
    rw [Environment.known, unknown after there]
    exact Status.agreeing_empty
  | tail run s ih =>
    exact s.agreeing ((Reachable.start start).run run).coherent (fun env henv => ih henv) there

/-- Of a record that has had no status before: every type of condition comes once, the environment
can be used if the phase is that it is ready, and if it can be used, it is ready or in a test run.
No step but one of others brings a phase of a test run, or the last phase, that was not there. -/
theorem verdict_follows_phase {x₀ x : Contest} (start : x₀.Start)
    (unknown : ∀ env, x₀.stored = some env → env.status = none)
    (run : Relation.ReflTransGen (Step Drives) x₀ x) :
    (∀ env, x.stored = some env → env.known.Agreeing) ∧
    (∀ x' after, Step (fun _ _ => False) x x' → x'.stored = some after →
      ∀ p ∈ [Phase.testing, .complete, .terminated], after.known.phase = some p →
        ∃ before, x.stored = some before ∧ before.known.phase = some p) := by
  refine ⟨fun env there => agreeing_of_run start unknown run there,
    fun x' after s there p hp hphase => ?_⟩
  cases s.origin ((Reachable.start start).run run).coherent there with
  | untouched _ _ there => exact ⟨after, there, hphase⟩
  | revised _ _ _ there revises =>
    refine ⟨_, there, ?_⟩
    rcases revises.known with hsame | ⟨current, status, hcurrent, hstatus, computed⟩
    · exact hsame ▸ hphase
    · rw [hcurrent.phase]
      rw [hstatus.phase] at hphase
      rcases computed.phase with ⟨q, hq, hown⟩ | hkept
      · obtain rfl : p = q := Option.some.inj (hphase.symm.trans hown)
        exact absurd hq ((show ∀ q ∈ [Phase.testing, .complete, .terminated], q ∉ ownPhases by
          decide) p hp)
      · exact hkept.symm.trans hphase
  | others _ may => exact may.elim

/-! ## A test run that begins when all is well -/

/-- A record with one service, before its first status. -/
def debut : Environment :=
  { newcomer with
    metadata := { newcomer.metadata with resourceVersion := some "1" }
    spec := { newcomer.spec with services := ["web"] } }

/-- A cluster in which the service has been deployed and is well. -/
def healthy : Store where
  objects := [((Child.applicationAddress 5 "web" {}).text, .obj
    [("status", .obj [("health", .obj [("status", .str "Healthy")]),
      ("sync", .obj [("status", .str "Synced")])])])]
  now := default

/-- The status of first contact. -/
def welcome : Status := (Status.accepted? debut {} {} default).getD {}

def welcomed : Environment := restated debut (some "2") (some welcome)

/-- What the pass finds out, and the status that it writes then. -/
def seen : Findings := findings {} welcomed (spaceOf welcomed welcome) healthy

def applause : Status := (aim {} welcomed welcome seen default).stamped default

def applauded : Environment := restated welcomed (some "3") (some applause)

/-- Others have begun their test run. -/
def toured : Environment :=
  restated applauded (some "4") (some { applause with phase := some .testing })

/-- The beginning of the pass. -/
def curtain : Contest where
  stored := some debut
  given := ["1"]
  pass := { config := {}, notice := debut.metadata, now := default }
  log := []

theorem start_curtain : curtain.Start := by
  refine ⟨fun env henv => ?_, fun env henv => ?_, rfl, rfl⟩
  · cases henv
    rfl
  · cases henv
    exact ⟨"1", List.mem_singleton_self _, rfl⟩

theorem valid_debut : debut.spec.validate "shop" = .ok () := by decide +kernel

theorem made_welcome : Status.accepted? debut {} {} default = some welcome := by decide +kernel

variable (others)

/-- The pass has made first contact. -/
theorem run_welcomed : ∃ x, Relation.ReflTransGen (Step others) curtain x ∧
    x.stored = some welcomed ∧ x.given = ["2", "1", "1"] ∧
    x.pass = { curtain.pass with trace := [read debut.metadata "previews" debut,
      .call (.patchStatus debut welcome) (.ok welcomed)] } := by
  have first : Step others curtain _ := .answer ⟨_, .start _⟩ (.read rfl)
  have asks : curtain.pass.pass.Asks [read debut.metadata "previews" debut]
      (.patchStatus debut welcome) :=
    asks_of_writing rfl (.accept rfl (by decide) valid_debut rfl made_welcome) rfl
  exact ⟨_, .tail (.single first) (.answer asks (.status (v := "2") rfl rfl rfl (by decide))),
    rfl, rfl, rfl⟩

/-- The deployment has been looked at, and the status is about to be written. -/
theorem run_surveyed : ∃ x, Relation.ReflTransGen (Step others) curtain x ∧
    x.stored = some welcomed ∧ (∀ v ∈ x.given, v ∈ ["2", "1"]) ∧ x.pass.notice = debut.metadata ∧
    x.pass.pass.Asks x.pass.trace (.patchStatus welcomed applause) := by
  obtain ⟨x, hrun, hstored, hgiven, hpass⟩ := run_welcomed others
  let course := ((survey {} welcomed (spaceOf welcomed welcome)).happenings healthy).map
    Happening.deed
  have surveyed : (survey {} welcomed (spaceOf welcomed welcome)).Gives course seen := by
    have h := Pass.leads_happenings (survey {} welcomed (spaceOf welcomed welcome)) healthy
    rwa [survey_outcome] at h
  have changed : welcome.differs (aim {} welcomed welcome seen default) = true := by
    decide +kernel
  have asks : x.pass.pass.Asks (x.pass.trace ++ course) (.patchStatus welcomed applause) := by
    rw [hpass]
    exact asks_of_writing rfl (.conclude rfl (by decide) valid_debut
      (.accepted rfl made_welcome) surveyed changed) rfl
  obtain ⟨_, leads⟩ := asks
  obtain ⟨y, hrun', hstored', hpass', hgiven'⟩ : ∃ y, Relation.ReflTransGen (Step others) x y ∧ _ :=
    run_of_aside leads (surveyed.isAside makes_survey_aside)
  refine ⟨y, hrun.trans hrun', hstored'.trans hstored, fun v hv => ?_, ?_, ?_⟩
  · have hv := hgiven' v hv
    rw [hgiven, hstored] at hv
    rcases hv with hv | hv
    · exact (show ["2", "1", "1"] ⊆ ["2", "1"] by decide) hv
    · obtain rfl := Option.some.inj hv
      decide
  · rw [hpass', hpass]
    rfl
  · rw [hpass']
    exact ⟨_, leads⟩

/-- The server accepts the status. -/
theorem serves_applause (there : x.stored = some welcomed) (given : ∀ v ∈ x.given, v ∈ ["2", "1"])
    (notice : x.pass.notice = debut.metadata) :
    x.Serves (.patchStatus welcomed applause) (.ok applauded) (some applauded) := by
  have key : welcomed.key = x.pass.key := by
    rw [Episode.key, notice]
    rfl
  have whole : applause.mergedInto welcomed.known = applause := by decide +kernel
  have serves : x.Serves (.patchStatus welcomed applause) _ _ :=
    .status (v := "3") key there rfl fun hv => absurd (given _ hv) (by decide)
  rw [whole] at serves
  exact serves

/-- The deployment has been looked at and the status has been written. -/
theorem run_applauded : ∃ x, Relation.ReflTransGen (Step others) curtain x ∧
    x.stored = some applauded ∧ (∀ v ∈ x.given, v ∈ ["3", "2", "1"]) ∧
    x.pass.notice = debut.metadata := by
  obtain ⟨x, hrun, hstored, hgiven, hnotice, asks⟩ := run_surveyed others
  refine ⟨_, hrun.tail (.answer asks (serves_applause hstored hgiven hnotice)), rfl,
    fun v hv => ?_, hnotice⟩
  rcases List.mem_cons.1 hv with rfl | hv
  · decide
  · exact List.mem_cons_of_mem _ (hgiven v hv)

/-- The environment can be used when the pass has ended, and while others test it. -/
theorem verdict_follows_phase_toured :
    (applauded.known.phase = some .ready ∧ applauded.known.verdict? = some .holds) ∧
    (toured.known.phase = some .testing ∧ toured.known.verdict? = some .holds) ∧
    ∃ x, Relation.ReflTransGen (Step Drives) curtain x ∧ x.stored = some toured := by
  obtain ⟨x, hrun, hstored, hgiven, hnotice⟩ := run_applauded Drives
  have unknown : ∀ env, curtain.stored = some env → env.status = none := by
    intro env henv
    cases henv
    rfl
  have begun : Step Drives x { x.put (some toured) with log := .others :: x.log } := by
    refine .others ?_ fun env henv => ?_
    · rw [hstored]
      exact .drive (p := .testing) rfl rfl
    · cases henv
      refine ⟨?_, "4", rfl, fun hv => absurd (hgiven _ hv) (by decide)⟩
      rw [Episode.key, hnotice]
      rfl
  have ready : applauded.known.phase = some .ready := by decide +kernel
  have agreeing := (verdict_follows_phase start_curtain unknown hrun).1 applauded hstored
  have holds := agreeing.ready ready
  exact ⟨⟨ready, holds⟩, ⟨rfl, holds⟩, _, hrun.tail begun, rfl⟩

end Contest
end PreviewControl
