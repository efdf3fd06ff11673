import PreviewControl.Environment.Transition
import PreviewControl.Proofs.StoreLaws

/-!
# Laws of statuses

A status that has been taken from an observation is left as it is by the same observation, at
whatever time it is made again; and so is the status of a record that has been refused.
-/
namespace PreviewControl

namespace Condition

theorem sameState_trans {a b c : Condition} (h : a.sameState b = true) (h' : b.sameState c = true) :
    a.sameState c = true := by
  simp only [sameState, Bool.and_eq_true, beq_iff_eq] at h h' ⊢
  obtain ⟨⟨⟨ht, hv⟩, hr⟩, hm⟩ := h
  obtain ⟨⟨⟨ht', hv'⟩, hr'⟩, hm'⟩ := h'
  exact ⟨⟨⟨ht.trans ht', hv.trans hv'⟩, hr.trans hr'⟩, hm.trans hm'⟩

theorem type_of_sameState {a b : Condition} (h : a.sameState b = true) : a.type = b.type := by
  simp only [sameState, Bool.and_eq_true, beq_iff_eq] at h
  exact h.1.1.1

/-- A condition that says nothing new leaves all entries and their times alone. -/
theorem enter_enter {c c' : Condition} (h : c.sameState c' = true) (cs : List Condition) :
    enter c' (enter c cs) = enter c cs := by
  have ht := type_of_sameState h
  induction cs with
  | nil => simp [enter, ht, h]
  | cons d ds ih =>
    unfold enter
    by_cases hd : d.type = c.type
    · by_cases hs : d.sameState c = true
      · have hs' := sameState_trans hs h
        simp [hd, hs, hs', enter, ht]
      · simp [hd, hs, h, enter, ht]
    · have hd' : d.type ≠ c'.type := fun he => hd (he.trans ht.symm)
      simp [hd, hd', enter, ih]

/-- A condition that has been entered is found, with the time at which it came to be. -/
theorem find?_enter (c : Condition) (cs : List Condition) :
    ∃ d, find? c.type (enter c cs) = some d ∧ d.sameState c = true := by
  have hself : c.sameState c = true := by simp [sameState]
  induction cs with
  | nil => exact ⟨c, by simp [find?, enter], hself⟩
  | cons d ds ih =>
    unfold enter
    by_cases ht : d.type = c.type
    · by_cases hs : d.sameState c = true
      · exact ⟨d, by simp [find?, ht, hs], hs⟩
      · exact ⟨c, by simp [find?, ht, hs], hself⟩
    · obtain ⟨e, he, hsame⟩ := ih
      refine ⟨e, ?_, hsame⟩
      simpa [find?, ht] using he

/-- An entry keeps its type, and no type is entered twice. -/
theorem map_type_enter (c : Condition) (cs : List Condition) :
    (enter c cs).map (·.type) =
      if c.type ∈ cs.map (·.type) then cs.map (·.type) else cs.map (·.type) ++ [c.type] := by
  induction cs with
  | nil => rfl
  | cons d ds ih =>
    unfold enter
    by_cases hd : d.type = c.type
    · by_cases hs : d.sameState c = true
      · simp [hd, hs]
      · simp [hd, hs]
    · have hc : c.type ≠ d.type := Ne.symm hd
      by_cases hmem : c.type ∈ ds.map (·.type)
      · rw [if_pos hmem] at ih
        simpa [hd, hc, ih] using hmem
      · rw [if_neg hmem] at ih
        simpa [hd, hc, ih] using hmem

theorem nodup_enter (c : Condition) {cs : List Condition} (h : (cs.map (·.type)).Nodup) :
    ((enter c cs).map (·.type)).Nodup := by
  rw [map_type_enter]
  split
  · exact h
  · next hnew => exact List.nodup_append.2 ⟨h, by simp, by simpa using hnew⟩

end Condition

namespace Instant

theorem of?_eq_none {seconds : Int} {nanos : Nat} :
    of? seconds nanos = none ↔ ¬InRange seconds nanos := by
  unfold of?
  split
  · next h => simp [h]
  · next h => simp [h]

/-- Going forward, only the last representable second is in the way. -/
theorem add?_eq_none {t : Instant} {span : Nat} :
    t.add? span = none ↔ lastSecond < t.seconds + span := by
  obtain ⟨hlo, hhi, hn, hl⟩ := t.inRange
  unfold add?
  split
  · next h =>
    simp only [Bool.or_eq_true, decide_eq_true_eq, beq_iff_eq] at h
    rw [of?_eq_none, InRange]
    omega
  · next h =>
    simp only [Bool.or_eq_true, decide_eq_true_eq, beq_iff_eq, not_or] at h
    rw [if_pos (by omega), of?_eq_none, InRange]
    omega

/-- Going forward, the seconds are added. -/
theorem seconds_add? {t u : Instant} {span : Nat} (h : t.add? span = some u) :
    u.seconds = t.seconds + span := by
  unfold add? of? at h
  split at h
  · split at h
    · cases h
      rfl
    · cases h
  · next hspan =>
    simp only [Bool.or_eq_true, decide_eq_true_eq, beq_iff_eq, not_or] at hspan
    rw [if_pos (by omega)] at h
    split at h
    · cases h
      rfl
    · cases h

theorem seconds_le_of_not_before {t u : Instant} (h : ¬u.before t = true) :
    t.seconds ≤ u.seconds := by
  simp only [before, Bool.or_eq_true, decide_eq_true_eq, not_or] at h
  omega

/-- A time out of reach does not come into reach later. -/
theorem add?_none_of_later {t u : Instant} (h : ¬u.before t = true) {span : Nat}
    (hn : t.add? span = none) : u.add? span = none := by
  have hs := seconds_le_of_not_before h
  rw [add?_eq_none] at hn ⊢
  omega

end Instant

namespace Status

variable {env : Environment} {current next' : Status} {config : Config} {now later : Instant}
  {observation : Observation}

theorem readyCondition_sameState (verdict : Verdict) (reason message : String)
    (now later : Instant) :
    (readyCondition verdict reason message now).sameState
      (readyCondition verdict reason message later) = true := by
  simp [Condition.sameState, readyCondition]

@[simp] theorem differs_self (s : Status) : s.differs s = false := by simp [differs]

theorem eq_of_not_differs {a b : Status} (h : a.differs b = false)
    (hs : a.lastSyncedAt = b.lastSyncedAt) : a = b := by
  simp only [differs, bne_eq_false_iff_eq, ← hs] at h
  exact h

/-! ## After an observation -/

theorem next_lastSyncedAt :
    (next env current observation config now).lastSyncedAt = current.lastSyncedAt := by
  unfold next
  cases current.move? env observation <;> rfl

theorem next_observedGeneration :
    (next env current observation config now).observedGeneration = env.metadata.generation := by
  unfold next
  cases current.move? env observation <;> rfl

theorem next_createdAt :
    (next env current observation config now).createdAt = current.createdAt := by
  unfold next
  cases current.move? env observation <;> rfl

theorem next_expiresAt :
    (next env current observation config now).expiresAt = current.expiresAt := by
  unfold next
  cases current.move? env observation <;> rfl

theorem next_url : (next env current observation config now).url =
    some (config.urlFor env.spec.prNumber) := by
  unfold next
  cases current.move? env observation <;> rfl

theorem next_costEstimate : (next env current observation config now).costEstimate =
    (observation.cost <|> current.costEstimate) := by
  unfold next
  cases current.move? env observation <;> rfl

theorem next_phase_isSome (h : current.phase.isSome = true) :
    (next env current observation config now).phase.isSome = true := by
  unfold next
  cases current.move? env observation with
  | some m => rfl
  | none => exact h

theorem next_of_move {m : Move} (h : current.move? env observation = some m) :
    next env current observation config now =
      (current.learn env observation config).apply m now := by
  unfold next
  rw [h]

theorem next_of_rest (h : current.move? env observation = none) :
    next env current observation config now = { current.learn env observation config with
      message := current.restMessage env observation } := by
  unfold next
  rw [h]

theorem ofHealth_phase (health : Option Health) :
    (Move.ofHealth health).phase.isExternal = false := by
  unfold Move.ofHealth
  split
  · split <;> rfl
  · rfl

/-- While others drive the record, or a child fails, no move is made; else the health decides. -/
theorem move?_of_not_degraded (h : degradation? observation = none) :
    current.move? env observation =
      if current.isExternallyDriven env || observation.fault.isSome then none
      else some (.ofHealth observation.health) := by
  unfold move?
  rw [h]

/-- After a status without a move others drive the record if and only if its phase is theirs. -/
theorem isExternallyDriven_next : (next env current observation config now).isExternallyDriven env =
    (next env current observation config now).phase.any (·.isExternal) := by
  rw [isExternallyDriven, next_observedGeneration]
  simp

/-- The next status asks for the same move again. -/
theorem move?_next : (next env current observation config now).move? env observation =
    current.move? env observation := by
  cases hd : degradation? observation with
  | some h =>
    unfold move?
    rw [hd]
  | none =>
    rw [move?_of_not_degraded hd, move?_of_not_degraded hd]
    cases hf : observation.fault with
    | some message => simp
    | none =>
      have hsame : (next env current observation config now).isExternallyDriven env =
          current.isExternallyDriven env := by
        rw [isExternallyDriven_next]
        cases hx : current.isExternallyDriven env with
        | true =>
          have hm : current.move? env observation = none := by
            rw [move?_of_not_degraded hd, hx]
            rfl
          rw [next_of_rest hm]
          rw [isExternallyDriven, Bool.and_eq_true] at hx
          exact hx.2
        | false =>
          have hm : current.move? env observation = some (.ofHealth observation.health) := by
            rw [move?_of_not_degraded hd, hx, hf]
            rfl
          rw [next_of_move hm]
          exact ofHealth_phase observation.health
      rw [hsame]

theorem restMessage_next (h : current.move? env observation = none) :
    (next env current observation config now).restMessage env observation =
      current.restMessage env observation := by
  have hmessage : (next env current observation config now).message =
      current.restMessage env observation := by rw [next_of_rest h]
  unfold restMessage at hmessage ⊢
  rw [hmessage]
  cases hn : (next env current observation config now).isExternallyDriven env with
  | true => rfl
  | false =>
    have hx : current.isExternallyDriven env = false := by
      rw [isExternallyDriven_next, next_of_rest h] at hn
      rw [isExternallyDriven, Bool.and_eq_false_iff]
      exact .inr hn
    rw [hx]
    cases observation.fault <;> rfl

private theorem apply_apply (m : Move) (s : Status) :
    (s.apply m now).apply m later = s.apply m now := by
  have hs := readyCondition_sameState m.verdict m.reason m.message now later
  simp only [apply, Condition.enter_enter hs]

private theorem learn_learn : (current.learn env observation config).learn env observation config =
    current.learn env observation config := by
  cases hc : observation.cost <;> cases hh : observation.health <;> simp [learn, hc, hh]

private theorem learn_next :
    (next env current observation config now).learn env observation config =
      next env current observation config now := by
  have hl : (current.learn env observation config).learn env observation config =
      current.learn env observation config := learn_learn
  cases hm : current.move? env observation with
  | some m =>
    rw [next_of_move hm]
    exact congrArg (fun s : Status => s.apply m now) hl
  | none =>
    rw [next_of_rest hm]
    exact congrArg (fun s : Status => { s with message := current.restMessage env observation }) hl

/-- The same observation does not move a status on a second time. -/
theorem next_next : next env (next env current observation config now) observation config later =
    next env current observation config now := by
  cases hm : current.move? env observation with
  | some m =>
    rw [next_of_move (move?_next.trans hm), learn_next, next_of_move hm]
    exact apply_apply m _
  | none =>
    rw [next_of_rest (move?_next.trans hm), learn_next, restMessage_next hm, next_of_rest hm]

/-- The time of the last write plays no part. -/
theorem next_stamped (at' : Instant) : next env (current.stamped at') observation config now =
    (next env current observation config now).stamped at' := by
  have hm : (current.stamped at').move? env observation = current.move? env observation := rfl
  unfold next
  rw [hm]
  cases current.move? env observation <;> rfl

/-! ## Times beyond reach -/

theorem lifetime?_none_of_later {spec : Spec} (h : ¬later.before now = true)
    (hn : lifetime? current spec now = none) : lifetime? current spec later = none := by
  unfold lifetime? at hn ⊢
  cases he : current.expiresAt with
  | some expiresAt =>
    rw [he] at hn
    cases hn
  | none =>
    rw [he] at hn
    simp only [Option.map_eq_none_iff] at hn ⊢
    cases hc : current.createdAt with
    | some createdAt =>
      rw [hc] at hn
      exact hn
    | none =>
      rw [hc] at hn
      exact Instant.add?_none_of_later h hn

theorem accepted?_none_of_later (h : ¬later.before now = true)
    (made : accepted? env current config now = none) :
    accepted? env current config later = none := by
  unfold accepted? at made ⊢
  rw [Option.map_eq_none_iff] at made ⊢
  exact lifetime?_none_of_later h made

theorem refused?_none_of_later (h : ¬later.before now = true) {message : String}
    (made : refused? env current message now = none) :
    refused? env current message later = none := by
  unfold refused? at made ⊢
  rw [Option.map_eq_none_iff] at made ⊢
  exact lifetime?_none_of_later h made

/-! ## After a refusal -/

theorem refused?_lastSyncedAt {message : String}
    (made : refused? env current message now = some next') :
    next'.lastSyncedAt = current.lastSyncedAt := by
  obtain ⟨life, _, rfl⟩ := Option.map_eq_some_iff.1 made
  rfl

theorem refused?_refused {message : String}
    (h : refused? env current message now = some next') :
    refused? env next' message later = some next' := by
  obtain ⟨⟨createdAt, expiresAt⟩, _, rfl⟩ := Option.map_eq_some_iff.1 h
  have hs := readyCondition_sameState .fails "InvalidSpec" message now later
  simp [refused?, lifetime?, Condition.enter_enter hs]

theorem refused?_stamped (at' : Instant) {message : String} :
    refused? env (current.stamped at') message now =
      (refused? env current message now).map (·.stamped at') := by
  have hl : lifetime? (current.stamped at') env.spec now = lifetime? current env.spec now := rfl
  unfold refused?
  rw [hl, Option.map_map]
  rfl

/-! ## A status that is merged over another one -/

/-- What stands after a status has been merged over another one: the members that it leaves out are
what they were. The services, the conditions and the message are never left out. -/
def mergedInto (next was : Status) : Status :=
  { next with
    phase := next.phase <|> was.phase
    ns := next.ns <|> was.ns
    url := next.url <|> was.url
    costEstimate := next.costEstimate <|> was.costEstimate
    createdAt := next.createdAt <|> was.createdAt
    expiresAt := next.expiresAt <|> was.expiresAt
    lastSyncedAt := next.lastSyncedAt <|> was.lastSyncedAt
    observedGeneration := next.observedGeneration <|> was.observedGeneration }

/-- A status has every member that another one has, of those that the operator never leaves out once
they are there. -/
structure Retains (next was : Status) : Prop where
  phase : was.phase.isSome = true → next.phase.isSome = true
  ns : was.ns.isSome = true → next.ns.isSome = true
  url : was.url.isSome = true → next.url.isSome = true
  createdAt : was.createdAt.isSome = true → next.createdAt.isSome = true
  expiresAt : was.expiresAt.isSome = true → next.expiresAt.isSome = true
  lastSyncedAt : was.lastSyncedAt.isSome = true → next.lastSyncedAt.isSome = true

/-- A status has every member that another one has, of those that are left out in writing when there
is none. -/
structure Covers (next was : Status) : Prop extends Retains next was where
  costEstimate : was.costEstimate.isSome = true → next.costEstimate.isSome = true
  observedGeneration : was.observedGeneration.isSome = true →
    next.observedGeneration.isSome = true

/-- Two statuses are the same but for the cost and the generation. -/
def Resembles (a b : Status) : Prop :=
  ∃ costEstimate generation,
    a = { b with costEstimate := costEstimate, observedGeneration := generation }

theorem resembles_refl (s : Status) : s.Resembles s := ⟨_, _, rfl⟩

theorem Resembles.phase {a b : Status} (h : a.Resembles b) : a.phase = b.phase := by
  obtain ⟨_, _, rfl⟩ := h
  rfl

theorem Resembles.symm {a b : Status} (h : a.Resembles b) : b.Resembles a := by
  obtain ⟨_, _, rfl⟩ := h
  exact ⟨_, _, rfl⟩

private theorem orElse_eq_left {α : Type} {a b : Option α} (h : b.isSome = true → a.isSome = true) :
    (a <|> b) = a := by
  cases a with
  | some => rfl
  | none =>
    cases b with
    | none => rfl
    | some => cases h rfl

theorem Retains.resembles_mergedInto {next was : Status} (h : next.Retains was) :
    (next.mergedInto was).Resembles next := by
  refine ⟨next.costEstimate <|> was.costEstimate,
    next.observedGeneration <|> was.observedGeneration, ?_⟩
  rw [mergedInto, orElse_eq_left h.phase, orElse_eq_left h.ns, orElse_eq_left h.url,
    orElse_eq_left h.createdAt, orElse_eq_left h.expiresAt, orElse_eq_left h.lastSyncedAt]

/-- Nothing stays of a status that is covered. -/
theorem Covers.mergedInto_eq {next was : Status} (h : next.Covers was) :
    next.mergedInto was = next := by
  rw [mergedInto, orElse_eq_left h.phase, orElse_eq_left h.ns, orElse_eq_left h.url,
    orElse_eq_left h.createdAt, orElse_eq_left h.expiresAt, orElse_eq_left h.lastSyncedAt,
    orElse_eq_left h.costEstimate, orElse_eq_left h.observedGeneration]

theorem Retains.of_resembles {next was base : Status} (h : next.Retains base)
    (resembles : was.Resembles base) : next.Retains was := by
  obtain ⟨_, _, rfl⟩ := resembles
  exact ⟨h.phase, h.ns, h.url, h.createdAt, h.expiresAt, h.lastSyncedAt⟩

theorem covers_empty (next : Status) : next.Covers {} :=
  ⟨⟨nofun, nofun, nofun, nofun, nofun, nofun⟩, nofun, nofun⟩

end Status
end PreviewControl
