import PreviewControl.Proofs.Lifetimes
import PreviewControl.Proofs.RecordMerge
import PreviewControl.Proofs.Verdicts

/-!
# Statuses that are merged into records

A status is sent to the server as a merge patch, in which a member that is left out does not mean
that there is none. The operator never writes a status without a member that the record has, so that
the record that the merge leaves has exactly the status that was sent.
-/
namespace PreviewControl

open Reconcile

/-! ## What the operator never leaves out -/

/-- What the operator takes for granted when it leaves out a cost or a generation: there is no cost
before there is a namespace, and a record of which a generation is known has one. -/
structure Environment.Grounded (env : Environment) : Prop where
  unpriced : env.known.ns = none → env.known.costEstimate = none
  counted : env.known.observedGeneration.isSome = true → env.metadata.generation.isSome = true

namespace Reconcile

variable {config : Config} {name : String} {env after : Environment} {status : Status}
  {now : Instant}

/-- The operator writes every member that the record has. -/
theorem Computed.covers (h : Computed config name now env env.known status)
    (grounded : env.Grounded) : status.Covers env.known := by
  refine ⟨h.retains, fun hcost => ?_, fun hcounted => ?_⟩
  · cases h with
    | accepted _ unrecorded =>
      rw [grounded.unpriced unrecorded] at hcost
      cases hcost
    | refused _ _ made =>
      obtain ⟨life, _, rfl⟩ := Option.map_eq_some_iff.1 made
      exact hcost
    | observed observation =>
      refine (congrArg Option.isSome Status.next_costEstimate).trans ?_
      cases observation.cost with
      | none => exact hcost
      | some _ => rfl
    | marked => exact hcost
  · cases h with
    | accepted _ _ made | refused _ _ made =>
      obtain ⟨life, _, rfl⟩ := Option.map_eq_some_iff.1 made
      exact grounded.counted hcounted
    | observed observation =>
      refine (congrArg Option.isSome Status.next_observedGeneration).trans ?_
      exact grounded.counted hcounted
    | marked => exact hcounted

/-- What is written of a grounded record leaves it grounded. -/
theorem Computed.grounded (h : Computed config name now env env.known status)
    (grounded : env.Grounded)
    (known : after.known = status)
    (generation : after.metadata.generation = env.metadata.generation) : after.Grounded := by
  refine ⟨fun hns => ?_, fun hcounted => ?_⟩
  · rw [known] at hns ⊢
    cases h with
    | accepted _ _ made =>
      rw [Status.accepted_ns made] at hns
      cases hns
    | refused _ _ made =>
      obtain ⟨life, _, rfl⟩ := Option.map_eq_some_iff.1 made
      exact grounded.unpriced hns
    | observed observation =>
      rw [show (Status.stamped now _).ns = _ from Status.next_ns observation] at hns
      cases hns
    | marked => exact grounded.unpriced hns
  · rw [generation]
    rw [known] at hcounted
    cases h with
    | accepted _ _ made | refused _ _ made =>
      obtain ⟨life, _, rfl⟩ := Option.map_eq_some_iff.1 made
      exact hcounted
    | observed observation =>
      exact (congrArg Option.isSome Status.next_observedGeneration).symm.trans hcounted
    | marked => exact grounded.counted hcounted

/-- A status that was written stands in the record that the answer tells of as it was written. -/
def Exact : Deed → Prop
  | .call (.patchStatus env status) (.ok updated) => ∃ v, updated = restated env v (some status)
  | _ => True

/-- Where statuses stand as they were written, the next one is computed from the one that stands in
the record. -/
theorem computed_of_exact {notice : Metadata} {old : Environment} {t : List Deed}
    (faithful : ∀ d ∈ t, d.Faithful) (exact : ∀ d ∈ t, Exact d)
    (h : (pass config notice now).Asks t (.patchStatus old status)) :
    Computed config notice.anyName now old old.known status := by
  obtain ⟨ns, env, u, _, rfl, writing⟩ := writing_of_asks rfl h
  obtain ⟨current, computed, rfl | ⟨before, _, _, hd⟩⟩ :=
    writing.computed fun d hd => faithful d (List.mem_cons_of_mem _ hd)
  · exact computed
  · obtain ⟨v, rfl⟩ := exact _ (List.mem_cons_of_mem _ hd)
    exact computed

end Reconcile

namespace Contest

variable {x x' x₀ : Contest} {env after : Environment}

/-- What others do to a record on a server that counts generations: they drive a test run and write
metadata and spec, but a generation that the record has does not go away. A record that is made
anew has no status. -/
inductive Tends : Option Environment → Option Environment → Prop where
  | drive {before after : Option Environment} (drives : Drives before after)
      (counted : ∀ b a, before = some b → after = some a →
        b.metadata.generation.isSome = true → a.metadata.generation.isSome = true) :
    Tends before after
  | create {after : Environment} (blank : after.status = none) : Tends none (some after)

theorem grounded_of_blank (blank : env.status = none) : env.Grounded := by
  have hknown : env.known = {} := by rw [Environment.known, blank]; rfl
  refine ⟨fun _ => ?_, fun h => ?_⟩
  · rw [hknown]
  · rw [hknown] at h
    cases h

theorem grounded_of_known (grounded : env.Grounded)
    (ns : after.known.ns = env.known.ns)
    (costEstimate : after.known.costEstimate = env.known.costEstimate)
    (observedGeneration : after.known.observedGeneration = env.known.observedGeneration)
    (counted : env.metadata.generation.isSome = true → after.metadata.generation.isSome = true) :
    after.Grounded where
  unpriced h := costEstimate.trans (grounded.unpriced (ns.symm.trans h))
  counted h := counted (grounded.counted (observedGeneration ▸ h))

/-- A record is grounded, and the pass over it knows what it has written. -/
structure Sound (x : Contest) : Prop where
  grounded : ∀ env, x.stored = some env → env.Grounded
  exact : ∀ d ∈ x.pass.trace, Exact d

theorem Sound.covers (sound : x.Sound) (h : x.Coherent) {status : Status}
    (there : x.stored = some env) (asks : x.pass.pass.Asks x.pass.trace (.patchStatus env status)) :
    status.Covers env.known :=
  (computed_of_exact h.faithful sound.exact asks).covers (sound.grounded env there)

private theorem Revises.grounded {c : Call} (h : Revises x.pass env c (some after))
    (sound : x.Sound) (coherent : x.Coherent) (there : x.stored = some env)
    (asks : x.pass.pass.Asks x.pass.trace c) : after.Grounded := by
  have grounded := sound.grounded env there
  cases h with
  | status kept _ _ hstatus =>
    have covers := sound.covers coherent there asks
    refine (computed_of_exact coherent.faithful sound.exact asks).grounded grounded ?_
      (congrArg (·.generation) kept.metadata)
    rw [Environment.known, hstatus, Option.getD_some, covers.mergedInto_eq]
  | hold kept hstatus | letGo kept hstatus =>
    have hknown : after.known = env.known := by rw [Environment.known, hstatus]; rfl
    have hgeneration : after.metadata.generation = env.metadata.generation :=
      congrArg (·.generation) kept.metadata
    exact grounded_of_known grounded (by rw [hknown]) (by rw [hknown]) (by rw [hknown])
      fun h => hgeneration ▸ h

private theorem Step.grounded (h : x.Coherent) (s : Step Tends x x') (sound : x.Sound)
    (there : x'.stored = some after) : after.Grounded := by
  cases s.origin h there with
  | untouched _ _ there => exact sound.grounded after there
  | revised _ _ asks there revises => exact revises.grounded sound h there asks
  | others _ may =>
    generalize hs : x.stored = before at may
    cases may with
    | create blank => exact grounded_of_blank blank
    | drive drives counted =>
      cases drives with
      | edit same =>
        exact grounded_of_known (sound.grounded _ hs) (by rw [same]) (by rw [same]) (by rw [same])
          (counted _ _ rfl rfl)
      | drive _ driven =>
        exact grounded_of_known (sound.grounded _ hs) (by rw [driven]) (by rw [driven])
          (by rw [driven]) (counted _ _ rfl rfl)

private theorem exact_of_untold {d : Deed} (untold : d.told? = none) : Exact d := by
  cases d with
  | event | measurement => trivial
  | call c answer =>
    cases c with
    | patchStatus env status =>
      cases answer with
      | ok => cases untold
      | error => trivial
    | _ => trivial

/-- What the server accepts of a sound record stands there as it was written. -/
private theorem Serves.exact {c : Call} {answer : c.Answer} {stored : Option Environment}
    (serves : x.Serves c answer stored) (h : x.Coherent) (sound : x.Sound)
    (asks : x.pass.pass.Asks x.pass.trace c) : Exact (.call c answer) := by
  cases serves with
  | aside aside => exact exact_of_untold (Deed.told?_of_isAside aside)
  | @status env cur status v _ there current =>
    obtain rfl := h.stored_of_current asks rfl there current
    exact ⟨some v, by rw [(sound.covers h there asks).mergedInto_eq]⟩
  | read | hold | letGo => trivial
  | conflict | missing => cases c <;> trivial

theorem Step.sound (h : x.Coherent) (s : Step Tends x x') (sound : x.Sound) : x'.Sound := by
  refine ⟨fun env there => s.grounded h sound there, ?_⟩
  have more {d : Deed} (hd : Exact d) : ∀ d' ∈ x.pass.trace ++ [d], Exact d' := by
    intro d' hd'
    rcases List.mem_append.1 hd' with hd' | hd'
    · exact sound.exact d' hd'
    · rw [List.mem_singleton.1 hd']
      exact hd
  cases s with
  | begin e unbegun =>
    intro d hd
    rw [show e.trace = [] from unbegun] at hd
    cases hd
  | answer asks serves => exact more (serves.exact h sound asks)
  | @fail c | @lose c => exact more (by cases c <;> trivial)
  | @note d _ quiet =>
    cases d with
    | call c answer => exact absurd rfl (quiet c answer)
    | event | measurement => exact more trivial
  | others => exact sound.exact

/-- A record that has had no status before is sound whatever has happened to it. -/
theorem sound_of_run (start : x₀.Start)
    (unknown : ∀ env, x₀.stored = some env → env.status = none)
    (run : Relation.ReflTransGen (Step Tends) x₀ x) : x.Sound := by
  induction run with
  | refl =>
    refine ⟨fun env there => grounded_of_blank (unknown env there), fun d hd => ?_⟩
    rw [start.unbegun] at hd
    cases hd
  | tail run s ih => exact s.sound ((Reachable.start start).run run).coherent ih

/-- A status that the server accepts is written over the record on which it is based. If a record
has had no status before the operator came, then from any document that shows it, after the patch
has been merged into this document, the same record is read with exactly the status that has been
written, and nothing else of the document has changed but the version. -/
theorem patch_replaces_status {x₀ x : Contest} (start : x₀.Start)
    (unknown : ∀ env, x₀.stored = some env → env.status = none)
    (run : Relation.ReflTransGen (Step Tends) x₀ x) {env : Environment} {next : Status}
    {reply : Environment} {stored : Option Environment}
    (asks : x.pass.pass.Asks x.pass.trace (.patchStatus env next))
    (serves : x.Serves (.patchStatus env next) (.ok reply) stored) :
    x.stored = some env ∧
    ∀ fields, Environment.read? (.obj fields) = some env →
      Environment.read? ((Json.obj fields).mergePatch (Http.statusPatch env next)) =
        some { env with status := some next } ∧
      (∃ v, stored = some (restated env (some v) (some next))) ∧
      (∀ name, name ∉ ["metadata", "status"] →
        ((Json.obj fields).mergePatch (Http.statusPatch env next)).get? name =
          (Json.obj fields).get? name) ∧
      ∀ name, name ≠ Metadata.versionField →
        (((Json.obj fields).mergePatch (Http.statusPatch env next)).follow ["metadata"]).get?
            name = ((Json.obj fields).follow ["metadata"]).get? name := by
  have reachable : x.Reachable Tends := (Reachable.start start).run run
  have there := serves.stored reachable.coherent asks rfl
  have covers := (sound_of_run start unknown run).covers reachable.coherent there asks
  have given : ∃ v, stored = some (restated env (some v) (some next)) := by
    cases serves with
    | @status _ cur _ v _ hcur =>
      obtain rfl := Option.some.inj (hcur.symm.trans there)
      exact ⟨v, by rw [covers.mergedInto_eq]⟩
    | aside aside => cases aside
  refine ⟨there, fun fields shows => ⟨Environment.read?_merged shows covers, given, ?_⟩⟩
  exact Environment.get?_merged env next fields

/-- A document that shows a record after first contact. It has a member of which the operator knows
nothing. -/
def welcomedDocument : List (String × Json) :=
  [("apiVersion", .str ResourceKind.environment.apiVersion),
   ("metadata", welcomed.metadata.toJson), ("spec", welcomed.spec.toJson),
   ("status", welcome.toJson.set "remark" (.str "first of its kind"))]

theorem shows_welcomed : Environment.read? (.obj welcomedDocument) = some welcomed := rfl

/-- The first status after an observation, with a cost that the record did not have before. -/
theorem patch_replaces_status_applauded : welcome.costEstimate = none ∧
    applause.costEstimate.isSome = true ∧
    Environment.read? ((Json.obj welcomedDocument).mergePatch
      (Http.statusPatch welcomed applause)) = some { welcomed with status := some applause } ∧
    ((Json.obj welcomedDocument).mergePatch (Http.statusPatch welcomed applause)).get?
      "apiVersion" = some (.str ResourceKind.environment.apiVersion) := by
  obtain ⟨x, hrun, hstored, hgiven, hnotice, asks⟩ := run_surveyed Tends
  have unknown : ∀ env, curtain.stored = some env → env.status = none := by
    intro env henv
    cases henv
    rfl
  have serves := serves_applause hstored hgiven hnotice
  obtain ⟨hread, _, hothers, _⟩ :=
    (patch_replaces_status start_curtain unknown hrun asks serves).2 _ shows_welcomed
  exact ⟨rfl, by decide +kernel, hread, hothers "apiVersion" (by decide)⟩

end Contest
end PreviewControl
