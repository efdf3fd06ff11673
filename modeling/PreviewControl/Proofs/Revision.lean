import Mathlib.Logic.Relation
import PreviewControl.Proofs.Contention

/-!
# Where a record comes from

What one step makes of a record. A record that is there after a step is the one that was there
before, or a write of the pass has been accepted, or others have written it.
-/
namespace PreviewControl

namespace Contest

/-- The write that the server has accepted, whether or not the pass has heard of it. -/
def Entry.accepted? : Entry → Option Call
  | .answered (.call c (.ok _)) => if c.basis?.isSome then some c else none
  | .lost c => some c
  | _ => none

/-- How a step has come to this record. -/
inductive Origin (others : Option Environment → Option Environment → Prop) (x x' : Contest)
    (after : Environment) : Prop where
  | untouched {entry : Entry} (log : x'.log = entry :: x.log) (quiet : entry.accepted? = none)
      (there : x.stored = some after) : Origin others x x' after
  | revised {before : Environment} {c : Call} {entry : Entry} (log : x'.log = entry :: x.log)
      (accepted : entry.accepted? = some c) (asks : x.pass.pass.Asks x.pass.trace c)
      (there : x.stored = some before)
      (revises : Revises x.pass before c (some after)) : Origin others x x' after
  | others (log : x'.log = .others :: x.log) (may : others x.stored (some after)) :
    Origin others x x' after

variable {others : Option Environment → Option Environment → Prop} {x x' : Contest}
  {after : Environment}

private theorem accepted?_error (c : Call) (e : Failure) :
    (Entry.answered (.call c (.error e))).accepted? = none := by cases c <;> rfl

private theorem accepted?_ok {c : Call} (reply : c.Reply) :
    (Entry.answered (.call c (.ok reply))).accepted? =
      if c.basis?.isSome then some c else none := by cases c <;> rfl

private theorem origin_of_answer (h : x.Coherent) {c : Call} {answer : c.Answer}
    {stored : Option Environment} (asks : x.pass.pass.Asks x.pass.trace c)
    (serves : x.Serves c answer stored) (there : stored = some after) :
    Origin others x ((x.put stored).go (.call c answer) (.answered (.call c answer))) after := by
  cases answer with
  | error e => exact .untouched rfl (accepted?_error c e) (serves.kept.symm.trans there)
  | ok reply =>
    cases basis : c.basis? with
    | none =>
      have quiet : (Entry.answered (.call c (.ok reply))).accepted? = none := by
        rw [accepted?_ok, basis]
        rfl
      cases serves with
      | read | aside => exact .untouched rfl quiet there
      | status | hold | letGo => cases basis
    | some before =>
      have accepted : (Entry.answered (.call c (.ok reply))).accepted? = some c := by
        rw [accepted?_ok, basis]
        rfl
      exact .revised rfl accepted asks (serves.stored h asks basis)
        (there ▸ serves.revises h asks basis)

/-- A record does not come from nowhere. -/
theorem Step.origin (h : x.Coherent) (s : Step others x x') (there : x'.stored = some after) :
    Origin others x x' after := by
  cases s with
  | begin => exact .untouched rfl rfl there
  | fail => exact .untouched rfl rfl there
  | note => exact .untouched rfl rfl there
  | answer asks serves => exact origin_of_answer h asks serves there
  | @lose c reply stored e asks writes serves =>
    obtain ⟨before, basis⟩ := Option.isSome_iff_exists.1 writes
    have there : stored = some after := there
    subst there
    exact .revised rfl rfl asks (serves.stored h asks basis) (serves.revises h asks basis)
  | @others stored may =>
    have there : stored = some after := there
    exact .others rfl (there ▸ may)

theorem Reachable.run (h : x.Reachable others)
    (run : Relation.ReflTransGen (Step others) x x') : x'.Reachable others := by
  induction run with
  | refl => exact h
  | tail _ s ih => exact ih.step s

/-- What a pass does apart from the record leaves the record as it is stored. -/
theorem run_of_aside {t : List Deed} {rest : Pass Reconcile.Requeue}
    (leads : x.pass.pass.Leads (x.pass.trace ++ t) rest) (aside : ∀ d ∈ t, d.isAside = true) :
    ∃ x', Relation.ReflTransGen (Step others) x x' ∧ x'.stored = x.stored ∧
      x'.pass = { x.pass with trace := x.pass.trace ++ t } ∧
      ∀ v ∈ x'.given, v ∈ x.given ∨ x.stored.bind (·.version?) = some v := by
  induction t generalizing x with
  | nil => exact ⟨x, .refl, rfl, by rw [List.append_nil], fun v hv => .inl hv⟩
  | cons d t ih =>
    obtain ⟨hd, ht⟩ := List.forall_mem_cons.1 aside
    obtain ⟨mid, hmid, hstored, hpass, hgiven⟩ : ∃ mid, Step others x mid ∧
        mid.stored = x.stored ∧ mid.pass = x.pass.after d ∧
        ∀ v ∈ mid.given, v ∈ x.given ∨ x.stored.bind (·.version?) = some v := by
      cases d with
      | call c answer =>
        refine ⟨_, .answer leads.asks (.aside hd), rfl, rfl, fun v hv => ?_⟩
        rcases List.mem_append.1 hv with hv | hv
        · exact .inr (Option.mem_toList.1 hv)
        · exact .inl hv
      | event | measurement =>
        rw [List.append_cons] at leads
        obtain ⟨rest', hrest, _⟩ := leads.split
        exact ⟨_, .note (fun _ _ h => by cases h) hrest, rfl, rfl, fun v hv => .inl hv⟩
    have leads' : mid.pass.pass.Leads (mid.pass.trace ++ t) rest := by
      rw [List.append_cons] at leads
      rw [hpass]
      exact leads
    obtain ⟨last, hrun, hstored', hpass', hgiven'⟩ := ih leads' ht
    refine ⟨last, .head hmid hrun, hstored'.trans hstored, ?_, fun v hv => ?_⟩
    · rw [hpass', hpass, Episode.after, List.append_assoc]
      rfl
    · rcases hgiven' v hv with hv | hv
      · exact hgiven v hv
      · exact .inr (hstored ▸ hv)

end Contest
end PreviewControl
