import PreviewControl.Proofs.ChildSteadiness

/-!
# The survey of the children

The middle of a pass, in which the children are put in place and looked at, comes to the same when
it is repeated, and so does the removal of the children. Both depend on the record, but neither on
its status nor on its version.
-/
namespace PreviewControl

namespace Reconcile

open Pass

variable {config : Config} {env : Environment} {ns : String}

/-! ## All children -/

/-- The texts of the objects that belong to some of the children. -/
def reachAll (children : List Child) (text : String) : Prop :=
  ∃ child ∈ children, child.reach text

private theorem reach_not_reachAll {child : Child} {children : List Child} (h : child ∉ children)
    {text : String} (ht : child.reach text) : ¬reachAll children text := by
  rintro ⟨other, ho, htext⟩
  refine Child.reach_disjoint ?_ ht htext
  rintro rfl
  exact h ho

private theorem reachAll_not_reach {child : Child} {children : List Child} (h : child ∉ children)
    {text : String} (ht : reachAll children text) : ¬child.reach text :=
  fun hc => reach_not_reachAll h hc ht

private theorem reachAll_cons {child : Child} {children : List Child} {text : String}
    (h : child.reach text ∨ reachAll children text) : reachAll (child :: children) text := by
  rcases h with h | ⟨other, ho, ht⟩
  · exact ⟨child, List.mem_cons_self, h⟩
  · exact ⟨other, List.mem_cons_of_mem child ho, ht⟩

private theorem steady_then {α β : Type} {p : Pass α} {reads writes : String → Prop}
    (hp : p.Steady reads writes) {q : α → Pass β}
    (hq : ∀ a, (q a).Steady (fun _ => False) fun _ => False) :
    (p.bind q).Steady reads writes :=
  (hp.bind hq (fun _ _ => False.elim) fun _ => False.elim).mono
    (fun _ ht => ht.elim id False.elim) fun _ ht => ht.elim id False.elim

theorem steady_ensureAll {children : List Child} (h : children.Nodup) :
    (ensureAll config env ns children).Steady (reachAll children) (reachAll children) := by
  induction children with
  | nil => exact steady_done none
  | cons child children ih =>
    obtain ⟨hnew, hrest⟩ := List.nodup_cons.1 h
    refine (Steady.bind (Child.steady_ensure child).attempt (fun x => ?_)
      (fun _ => reach_not_reachAll hnew) fun _ => reachAll_not_reach hnew).mono
      (fun _ => reachAll_cons) fun _ => reachAll_cons
    cases x with
    | ok => exact ih hrest
    | error e => exact steady_then (ih hrest) fun _ => steady_done _

theorem steady_removeAll {children : List Child} (h : children.Nodup) :
    (removeAll config env ns children).Steady (reachAll children) (reachAll children) := by
  induction children with
  | nil => exact steady_done ()
  | cons child children ih =>
    obtain ⟨hnew, hrest⟩ := List.nodup_cons.1 h
    refine (Steady.bind (Child.steady_remove child).attempt (fun x => ?_)
      (fun _ => reach_not_reachAll hnew) fun _ => reachAll_not_reach hnew).mono
      (fun _ => reachAll_cons) fun _ => reachAll_cons
    cases x with
    | ok => exact ih hrest
    | error e => exact steady_then (steady_report _) fun _ => steady_fail e

/-! ## Looking at the children -/

/-- The texts of the deployments that the deployment engine makes. -/
def deployments : String → Prop := Address.OfKinds ["Application"]

private theorem steady_unitHealths (pr : UInt32) (services : List String) :
    (Child.unitHealths config pr services).Steady deployments fun _ => False := by
  induction services with
  | nil => exact steady_done []
  | cons service services ih =>
    have hlook : (request (.getObject (Child.applicationAddress pr service config))).Steady
        deployments fun _ => False := by
      refine (steady_look _).mono ?_ fun _ => id
      rintro t rfl
      exact Address.ofKinds_text (by decide) (by decide) _ _
    refine (hlook.bind (fun app => steady_then ih fun units => steady_done _) (fun _ _ => id)
      fun _ _ => id).mono (fun _ ht => ht.elim id id) fun _ ht => ht.elim id id

theorem steady_healthOf : (healthOf config env).Steady deployments fun _ => False :=
  steady_then (steady_then (steady_unitHealths _ _) fun _ => steady_done _).attempt
    fun _ => steady_done _

theorem steady_costOf :
    (costOf config env ns).Steady (fun _ => False) fun _ => False := by
  refine steady_then (steady_listPods ns) fun answer => ?_
  cases answer with
  | ok pods => exact steady_done _
  | error e => exact steady_done _

theorem steady_reportIf (event : Option Event) :
    (reportIf event).Steady (fun _ => False) fun _ => False := by
  cases event with
  | none => exact steady_done ()
  | some event => exact steady_report event

/-! ## The survey -/

/-- What is found out about the children of a record while they are put in place. -/
structure Findings where
  fault : Option Failure
  cost : Option CostEstimate
  health : Option Health

def Findings.observation (found : Findings) (ns : String) : Observation :=
  ⟨ns, found.fault.map (·.message), found.health, found.cost⟩

/-- Puts the children in place and looks at them. -/
def survey (config : Config) (env : Environment) (ns : String) : Pass Findings :=
  (ensureAll config env ns Child.all).bind fun fault =>
  (reportIf (fault.map fun e =>
    .converging env .warning "MaterializeFailed" (some e.message))).bind fun _ =>
  (costOf config env ns).bind fun cost =>
  (healthOf config env).bind fun health => .done ⟨fault, cost, health⟩

/-- Writes what has changed, reports it and ends the pass. -/
def conclude (config : Config) (env : Environment) (current : Status) (found : Findings)
    (now : Instant) : Pass Requeue := do
  let next := Status.next env current (found.observation (spaceOf env current)) config now
  let written ← writeChanged env current next now
  if written.isSome ∧ current.phase ≠ next.phase then
    reportIf (phaseEvent? config env (found.health.bind (·.message)) next.phase)
  match found.fault with
  | some e => .fail e
  | none => return .after config.requeueSeconds

theorem converge_eq (now : Instant) : converge config env now =
    (firstContact config env now).bind fun entered =>
      (survey config entered.1 (spaceOf entered.1 entered.2)).bind fun found =>
        conclude config entered.1 entered.2 found now := by
  unfold converge survey conclude
  simp only [bind_eq, bind_assoc, bind_done]
  rfl

private theorem steady_before {α β : Type} {p : Pass α} {reads writes : String → Prop}
    (hp : p.Steady (fun _ => False) fun _ => False) {q : α → Pass β}
    (hq : ∀ a, (q a).Steady reads writes) : (p.bind q).Steady reads writes :=
  (hp.bind hq (fun _ => False.elim) fun _ _ => id).mono
    (fun _ ht => ht.elim False.elim id) fun _ ht => ht.elim False.elim id

theorem steady_survey : (survey config env ns).Steady
    (fun t => reachAll Child.all t ∨ deployments t) (reachAll Child.all) := by
  have hchildren : (ensureAll config env ns Child.all).Steady (reachAll Child.all)
      (reachAll Child.all) := steady_ensureAll (by decide)
  refine (hchildren.bind (fun fault => ?_) (fun _ _ => id) fun t ht => ?_).mono (fun _ => id)
    fun _ ht => ht.elim id False.elim
  · refine steady_before (steady_reportIf _) fun _ => steady_before steady_costOf fun cost => ?_
    exact steady_then steady_healthOf fun health => steady_done _
  · rintro ⟨child, _, hc⟩
    refine Address.OfKinds.disjoint ?_ ht hc
    cases child <;> decide

/-! ## No writes of records -/

private theorem upkeep_recordKey? {c : Call} (h : Child.Upkeep config env ns c) :
    c.recordKey? = none := by cases h <;> rfl

theorem makes_survey : (survey config env ns).Makes fun c => c.recordKey? = none := by
  refine makes_bind ((makes_ensureAll _).mono fun _ => upkeep_recordKey?) fun fault => ?_
  refine makes_bind (fun _ _ hc => absurd hc asks_reportIf) fun _ => makes_bind ?_ fun cost => ?_
  · intro t c hc
    rw [asks_costOf hc]
    rfl
  · refine makes_bind ?_ fun health => makes_done _
    exact (makes_healthOf : (healthOf config env).Makes (Child.Upkeep config env ns)).mono
      fun _ => upkeep_recordKey?

theorem makes_removeAll (children : List Child) :
    (removeAll config env ns children).Makes fun c => c.recordKey? = none := by
  intro t c hc
  obtain ⟨_, child, _, _, v, _, _, _, hr⟩ := asks_removeAll hc
  rcases Child.asks_removeOwned (Child.asks_remove.1 hr) with ⟨_, rfl⟩ | ⟨_, _, _, rfl⟩
  · rfl
  · rfl

/-! ## Other versions of a record -/

/-- The record with another status and another version. -/
def restated (env : Environment) (version : Option String) (status : Option Status) :
    Environment :=
  { env with metadata := { env.metadata with resourceVersion := version }, status := status }

theorem bump_restated (env : Environment) (status : Option Status) :
    ∃ v, Store.bump { env with status := status } = restated env v status := ⟨_, rfl⟩

theorem survey_restated (v : Option String) (status : Option Status) :
    survey config (restated env v status) ns = survey config env ns := rfl

theorem next_restated (v : Option String) (status : Option Status) (current : Status)
    (observation : Observation) (now : Instant) :
    Status.next (restated env v status) current observation config now =
      Status.next env current observation config now := rfl

end Reconcile
end PreviewControl
