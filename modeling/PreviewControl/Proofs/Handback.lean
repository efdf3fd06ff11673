import PreviewControl.Proofs.Undisturbed

/-!
# Who drives a record after a change of its spec

A record in a test run is left alone by the operator until its spec changes. What counts as a change
is the generation that the status is about, and every pass writes that anew. So the first pass after
a change of the spec decides whether the operator drives the record again.
-/
namespace PreviewControl

namespace Reconcile

open Pass

/-- The phase that the health of the deployments dictates. -/
def dictated (health : Health) : Phase :=
  match health.state with
  | .degraded => .failed
  | .ready => .ready
  | .progressing | .missing => .provisioning

/-- The health that has been read is degraded. -/
def Findings.degraded (found : Findings) : Bool := found.health.any (·.state == .degraded)

/-- What becomes of a phase that is the operator's to move. -/
def moved (found : Findings) (phase : Option Phase) : Option Phase :=
  if found.degraded then some .failed
  else if found.fault.isSome then phase
  else some (Status.Move.ofHealth found.health).phase

/-- What becomes of a phase when the status is about the present spec. -/
def advanced (phase : Option Phase) (found : Findings) : Option Phase :=
  if phase.any (·.isExternal) && !found.degraded then phase else moved found phase

variable {config : Config} {env : Environment} {current status : Status} {found : Findings}
  {now : Instant} {phase : Option Phase} {health : Health}

/-! ## What becomes of a phase -/

theorem dictated_not_isExternal (health : Health) : (dictated health).isExternal = false := by
  unfold dictated
  cases health.state <;> rfl

theorem moved_of_read (phase : Option Phase) (placed : found.fault = none)
    (read : found.health = some health) :
    moved found phase = some (dictated health) := by
  unfold moved dictated Findings.degraded Status.Move.ofHealth
  rw [placed, read]
  cases hs : health.state <;> simp [hs, Status.Move.provisioning, Status.Move.ready]

/-- What is not in the hands of others does not come into them by a pass. -/
theorem moved_not_isExternal (h : phase.any (·.isExternal) = false) :
    (moved found phase).any (·.isExternal) = false := by
  unfold moved
  split
  · rfl
  · split
    · exact h
    · exact Status.ofHealth_phase found.health

theorem advanced_of_free (h : phase.any (·.isExternal) = false) :
    advanced phase found = moved found phase := by
  unfold advanced
  rw [h]
  rfl

theorem advanced_of_degraded (h : found.degraded = true) : advanced phase found = some .failed := by
  unfold advanced moved
  rw [h]
  simp

theorem advanced_of_driven (h : phase.any (·.isExternal) = true) (sound : found.degraded = false) :
    advanced phase found = phase := by
  unfold advanced
  rw [h, sound]
  rfl

/-- A phase that the operator may move stays so. -/
theorem foldl_advanced_of_free (h : phase.any (·.isExternal) = false) (seen : List Findings) :
    (seen.foldl advanced phase).any (·.isExternal) = false := by
  induction seen generalizing phase with
  | nil => exact h
  | cons found seen ih =>
    refine ih ?_
    rw [advanced_of_free h]
    exact moved_not_isExternal h

/-- A phase in the hands of others stays as it is until a degraded deployment shows. -/
theorem foldl_advanced_of_driven (h : phase.any (·.isExternal) = true) (seen : List Findings) :
    (∃ found ∈ seen, found.degraded = true) ∧
        (seen.foldl advanced phase).any (·.isExternal) = false ∨
      (∀ found ∈ seen, found.degraded = false) ∧ seen.foldl advanced phase = phase := by
  induction seen with
  | nil => exact .inr ⟨fun _ hf => absurd hf List.not_mem_nil, rfl⟩
  | cons found seen ih =>
    rw [List.foldl_cons]
    cases hd : found.degraded with
    | true =>
      refine .inl ⟨⟨found, List.mem_cons_self, hd⟩, ?_⟩
      rw [advanced_of_degraded hd]
      exact foldl_advanced_of_free rfl seen
    | false =>
      rw [advanced_of_driven h hd]
      rcases ih with ⟨⟨other, hmem, hdeg⟩, hfree⟩ | ⟨hall, hsame⟩
      · exact .inl ⟨⟨other, List.mem_cons_of_mem _ hmem, hdeg⟩, hfree⟩
      · exact .inr ⟨List.forall_mem_cons.2 ⟨hd, hall⟩, hsame⟩

/-- Where all children are in place in the end and their health is read, the phase is the one that
the health dictates, or it has been in the hands of others all the time. -/
theorem foldl_advanced_of_read (phase : Option Phase) {last : Findings} (placed : last.fault = none)
    (read : last.health = some health) (seen : List Findings) :
    (phase.any (·.isExternal) = false ∨ ∃ found ∈ seen ++ [last], found.degraded = true) ∧
        (seen ++ [last]).foldl advanced phase = some (dictated health) ∨
      phase.any (·.isExternal) = true ∧ (∀ found ∈ seen ++ [last], found.degraded = false) ∧
        (seen ++ [last]).foldl advanced phase = phase := by
  have ends {phase : Option Phase} (h : phase.any (·.isExternal) = false) :
      advanced phase last = some (dictated health) := by
    rw [advanced_of_free h, moved_of_read _ placed read]
  rw [List.foldl_append, List.foldl_cons, List.foldl_nil]
  cases hp : phase.any (·.isExternal) with
  | false => exact .inl ⟨.inl rfl, ends (foldl_advanced_of_free hp seen)⟩
  | true =>
    rcases foldl_advanced_of_driven hp seen with ⟨⟨found, hmem, hdeg⟩, hfree⟩ | ⟨hall, hsame⟩
    · exact .inl ⟨.inr ⟨found, List.mem_append_left _ hmem, hdeg⟩, ends hfree⟩
    · rw [hsame]
      cases hd : last.degraded with
      | true =>
        refine .inl ⟨.inr ⟨last, List.mem_append_right _ (List.mem_singleton_self _), hd⟩, ?_⟩
        rw [advanced_of_degraded hd, ← moved_of_read phase placed read, moved, if_pos hd]
      | false =>
        refine .inr ⟨rfl, fun found hmem => ?_, advanced_of_driven hp hd⟩
        rcases List.mem_append.1 hmem with hmem | hmem
        · exact hall found hmem
        · rw [List.mem_singleton.1 hmem]
          exact hd

/-! ## One pass -/

private theorem isSome_degradation (found : Findings) (ns : String) :
    (Status.degradation? (found.observation ns)).isSome = found.degraded := by
  show (found.health.filter (·.state == .degraded)).isSome = found.health.any (·.state == .degraded)
  cases found.health with
  | none => rfl
  | some health =>
    rw [Option.filter_some]
    cases hs : health.state == .degraded <;> simp [hs]

theorem phase_aim : (aim config env current found now).phase =
    if current.isExternallyDriven env && !found.degraded then current.phase
    else moved found current.phase := by
  have hdegraded := isSome_degradation found (spaceOf env current)
  unfold aim moved
  cases hd : Status.degradation? (found.observation (spaceOf env current)) with
  | some h =>
    rw [hd] at hdegraded
    rw [← hdegraded, Status.next, Status.move?, hd]
    simp [Status.apply, Status.Move.degraded]
  | none =>
    rw [hd] at hdegraded
    rw [← hdegraded, Status.next, Status.move?_of_not_degraded hd]
    cases hx : current.isExternallyDriven env with
    | true => rfl
    | false =>
      cases hf : found.fault <;> simp [Findings.observation, hf, Status.apply, Status.learn]

theorem phase_of_reached (h : Reached config env current found now status) :
    status.phase = (aim config env current found now).phase := by
  rcases h with rfl | rfl <;> rfl

theorem observedGeneration_of_reached (h : Reached config env current found now status) :
    status.observedGeneration = env.metadata.generation := by
  rcases h with rfl | rfl
  · exact Status.next_observedGeneration
  · exact Status.next_observedGeneration

theorem ns_of_reached (h : Reached config env current found now status) :
    status.ns = some (spaceOf env current) := by
  rcases h with rfl | rfl
  · exact aim_ns
  · exact aim_ns

/-! ## Passes in a row -/

/-- What the next pass leaves. It finds the records as the one before has left them, and everything
else as it may be by then. -/
def visit (config : Config) (notice : Metadata) (s v : Store) : Store :=
  (pass config notice v.now).after { v with records := s.records }

/-- What a pass finds out about the children of a record, in the namespace that is recorded or else
derived. -/
def seenIn (config : Config) (env : Environment) (v : Store) : Findings :=
  findings config env (spaceOf env env.known) v

/-- The record is there, with a status that is about the present spec and in this phase. -/
def Stands (env : Environment) (phase : Option Phase) (s : Store) : Prop :=
  ∃ v written, s.record? env.key = some (restated env v (some written)) ∧
    written.ns = some (spaceOf env env.known) ∧
    written.observedGeneration = env.metadata.generation ∧ written.phase = phase

variable {notice : Metadata} {space : String} {s v : Store}

theorem findings_records (config : Config) (env : Environment) (ns : String) (v : Store)
    (records : List (RecordKey × Environment)) :
    findings config env ns { v with records := records } = findings config env ns v := by
  unfold findings
  rw [(makes_survey_aside.observe_records v records).1]

private theorem stands_of_leaves {left : Store}
    (reached : Reached config env current found now status)
    (same : spaceOf env current = spaceOf env env.known) (h : Leaves s env status left) :
    Stands env (aim config env current found now).phase left := by
  obtain ⟨version, written, hthere, hstatus⟩ := h.there
  have hns := ns_of_reached reached
  have hgeneration := observedGeneration_of_reached reached
  have hphase := phase_of_reached reached
  cases written with
  | none =>
    have hnone : status = {} := hstatus.symm
    rw [hnone] at hns
    cases hns
  | some written =>
    obtain rfl : written = status := hstatus
    exact ⟨version, written, hthere, same ▸ hns, hgeneration, hphase⟩

/-- The first pass. -/
theorem stands_of_first (config : Config) (s : Store) (place : notice.ns = some space)
    (about : env.key = ⟨space, notice.anyName⟩) (there : s.record? env.key = some env)
    (acceptable : Acceptable notice env) (free : v.Undisturbed)
    (enters : contact? config env v.now = some current) :
    Stands env (aim config env current (seenIn config env v) v.now).phase
      (visit config notice s v) := by
  have hspace := contact_ns enters
  obtain ⟨_, status, hstatus, hleaves⟩ := pass_leaves (s := { v with records := s.records }) free
    place about there acceptable enters (by rw [findings_records, hspace])
  exact stands_of_leaves hstatus hspace hleaves

/-- Every later pass. -/
theorem stands_of_later (place : notice.ns = some space) (about : env.key = ⟨space, notice.anyName⟩)
    (acceptable : Acceptable notice env) (free : v.Undisturbed) (h : Stands env phase s) :
    Stands env (advanced phase (seenIn config env v)) (visit config notice s v) := by
  obtain ⟨version, written, there, hns, hgeneration, rfl⟩ := h
  have acceptable' : Acceptable notice (restated env version (some written)) :=
    ⟨acceptable.held, acceptable.staying, acceptable.valid⟩
  have enters : contact? config (restated env version (some written)) v.now = some written := by
    have hsome : (restated env version (some written)).known.ns.isSome = true := by
      show written.ns.isSome = true
      rw [hns]
      rfl
    rw [contact?, if_pos hsome]
    rfl
  have hspace : spaceOf env written = spaceOf env env.known := by
    rw [spaceOf, hns]
    rfl
  have there' : { v with records := s.records }.record? (restated env version (some written)).key =
      some (restated env version (some written)) := there
  have hfound : seenIn config env v = findings config (restated env version (some written))
      (spaceOf (restated env version (some written)) written) { v with records := s.records } := by
    rw [findings_records]
    exact congrArg (findings config env · v) hspace.symm
  have about' : (restated env version (some written)).key = ⟨space, notice.anyName⟩ := about
  have free' : { v with records := s.records }.Undisturbed := free
  obtain ⟨_, status, hstatus, hleaves⟩ :=
    pass_leaves free' place about' there' acceptable' enters hfound
  have hstands : Stands env (aim config env written (seenIn config env v) v.now).phase
      (visit config notice s v) :=
    stands_of_leaves hstatus hspace
      ⟨hleaves.there, hleaves.others, hleaves.objects, hleaves.pods⟩
  rw [phase_aim, Status.isExternallyDriven, hgeneration] at hstands
  simpa [advanced] using hstands

/-- All passes after the first one. -/
theorem stands_of_rest (place : notice.ns = some space) (about : env.key = ⟨space, notice.anyName⟩)
    (acceptable : Acceptable notice env) {later : List Store}
    (free : ∀ v ∈ later, v.Undisturbed) (h : Stands env phase s) :
    Stands env ((later.map (seenIn config env)).foldl advanced phase)
      (later.foldl (visit config notice) s) := by
  induction later generalizing s phase with
  | nil => exact h
  | cons v later ih =>
    obtain ⟨hv, hlater⟩ := List.forall_mem_cons.1 free
    exact ih hlater (stands_of_later place about acceptable hv h)

/-! ## After a change of the spec -/

/-- The first pass after a change of the spec may move the phase, and so it does unless a child
could not be put in place. -/
private theorem phase_of_first (changed : env.known.observedGeneration ≠ env.metadata.generation)
    (enters : contact? config env now = some current) :
    (aim config env current found now).phase = moved found current.phase ∧
      (current.phase.any (·.isExternal) = true → env.known.ns ≠ none ∧ current = env.known) := by
  unfold contact? at enters
  rw [phase_aim]
  split at enters
  · next recorded =>
    cases enters
    refine ⟨?_, fun _ => ⟨Option.isSome_iff_ne_none.1 recorded, rfl⟩⟩
    have hfresh : env.known.isExternallyDriven env = false := by
      rw [Status.isExternallyDriven, beq_eq_false_iff_ne.2 changed]
      rfl
    rw [hfresh]
    rfl
  · have hpending : current.phase = some .pending := by
      obtain ⟨life, _, rfl⟩ := Option.map_eq_some_iff.1 enters
      rfl
    have hfresh : current.isExternallyDriven env = false := by
      rw [Status.isExternallyDriven, hpending]
      exact Bool.and_false _
    rw [hfresh, hpending]
    refine ⟨rfl, fun h => ?_⟩
    cases h

private theorem external_of_moved (h : (moved found phase).any (·.isExternal) = true) :
    found.degraded = false ∧ found.fault.isSome = true ∧ moved found phase = phase := by
  unfold moved at h ⊢
  cases hd : found.degraded with
  | true =>
    rw [hd] at h
    cases h
  | false =>
    rw [hd] at h
    cases hf : found.fault.isSome with
    | true => exact ⟨rfl, rfl, rfl⟩
    | false =>
      rw [hf] at h
      have hfree := Status.ofHealth_phase found.health
      simp only [Bool.false_eq_true, if_false, Option.any_some, hfree] at h

private theorem free_of_moved (h : (moved found phase).any (·.isExternal) = false) :
    phase.any (·.isExternal) = false ∨ found.fault = none ∨ found.degraded = true := by
  cases hd : found.degraded with
  | true => exact .inr (.inr rfl)
  | false =>
    cases hf : found.fault with
    | none => exact .inr (.inl rfl)
    | some e =>
      rw [moved, hd, hf] at h
      exact .inl h

/-- After passes of which the first may move the phase, and the last puts all children in place and
reads their health, the phase is the one that the health dictates, or it is still in the hands of
others. -/
private theorem phase_of_passes (phase : Option Phase) {first last : Findings}
    {later : List Findings} (ends : (first :: later).getLast? = some last)
    (placed : last.fault = none) (read : last.health = some health) :
    (phase.any (·.isExternal) = false ∨ first.fault = none ∨
          ∃ found ∈ first :: later, found.degraded = true) ∧
        later.foldl advanced (moved first phase) = some (dictated health) ∨
      phase.any (·.isExternal) = true ∧ first.fault ≠ none ∧
        (∀ found ∈ first :: later, found.degraded = false) ∧
        later.foldl advanced (moved first phase) = phase := by
  rcases List.eq_nil_or_concat later with rfl | ⟨seen, final, rfl⟩
  · obtain rfl : first = last := Option.some.inj ends
    exact .inl ⟨.inr (.inl placed), moved_of_read phase placed read⟩
  · rw [List.concat_eq_append] at ends ⊢
    rw [← List.cons_append, List.getLast?_concat] at ends
    obtain rfl : final = last := Option.some.inj ends
    rcases foldl_advanced_of_read (moved first phase) placed read seen with
      ⟨hback, hphase⟩ | ⟨hexternal, hsound, hphase⟩
    · refine .inl ⟨?_, hphase⟩
      rcases hback with hfree | ⟨found, hmem, hdeg⟩
      · exact (free_of_moved hfree).imp_right fun h =>
          h.imp_right fun hdeg => ⟨first, List.mem_cons_self, hdeg⟩
      · exact .inr (.inr ⟨found, List.mem_cons_of_mem _ hmem, hdeg⟩)
    · obtain ⟨hsound', hfault, hsame⟩ := external_of_moved hexternal
      refine .inr ⟨hsame ▸ hexternal, ?_, List.forall_mem_cons.2 ⟨hsound', hsound⟩,
        hphase.trans hsame⟩
      exact Option.isSome_iff_ne_none.1 hfault

/-- A record in a test run whose spec has changed, and passes over it, the last of which puts all
children in place and reads their health. The phase is then the one that the health dictates if and
only if no namespace was recorded in the beginning, or the first pass put all children in place, or
one of the passes found a degraded deployment. Else the phase is still that of the test run. -/
theorem handed_back_iff {config : Config} {notice : Metadata} {space : String} {env : Environment}
    {s first last : Store} {later : List Store} {phase : Phase} {health : Health}
    (place : notice.ns = some space) (about : env.key = ⟨space, notice.anyName⟩)
    (there : s.record? env.key = some env) (acceptable : Acceptable notice env)
    (stands : env.phase? = some phase) (external : phase.isExternal = true)
    (changed : env.known.observedGeneration ≠ env.metadata.generation)
    (enters : (contact? config env first.now).isSome = true)
    (free : ∀ v ∈ first :: later, v.Undisturbed) (ends : (first :: later).getLast? = some last)
    (placed : (seenIn config env last).fault = none)
    (read : (seenIn config env last).health = some health) :
    ∃ left, ((first :: later).foldl (visit config notice) s).record? env.key = some left ∧
      (left.phase? = some (dictated health) ↔
        env.known.ns = none ∨ (seenIn config env first).fault = none ∨
          ∃ v ∈ first :: later, (seenIn config env v).degraded = true) ∧
      (left.phase? ≠ some (dictated health) → left.phase? = some phase) := by
  obtain ⟨current, enters⟩ := Option.isSome_iff_exists.1 enters
  obtain ⟨hfirst, hlater⟩ := List.forall_mem_cons.1 free
  have hstands := stands_of_first config s place about there acceptable hfirst enters
  obtain ⟨hmoved, hcurrent⟩ : (aim config env current (seenIn config env first) first.now).phase =
      moved (seenIn config env first) current.phase ∧ _ := phase_of_first changed enters
  rw [hmoved] at hstands
  obtain ⟨version, written, hthere, _, _, hphase⟩ :=
    stands_of_rest place about acceptable hlater hstands
  have hends : (seenIn config env first :: later.map (seenIn config env)).getLast? =
      some (seenIn config env last) := by
    rw [← List.map_cons, List.getLast?_map, ends]
    rfl
  have hleft : (restated env version (some written)).phase? = written.phase := rfl
  have hknown : env.known.phase = env.phase? := by
    unfold Environment.known Environment.phase?
    cases env.status <;> rfl
  refine ⟨_, hthere, ?_⟩
  rw [hleft, hphase]
  rcases phase_of_passes current.phase hends placed read with
    ⟨hback, hphase⟩ | ⟨hexternal, hfault, hsound, hphase⟩
  · rw [hphase]
    refine ⟨⟨fun _ => ?_, fun _ => rfl⟩, fun h => absurd rfl h⟩
    rcases hback with hfree | hfault | ⟨found, hmem, hdeg⟩
    · -- The phase that is not in the hands of others is the one of first contact.
      refine .inl (Option.not_isSome_iff_eq_none.1 fun recorded => ?_)
      rw [contact?, if_pos recorded] at enters
      obtain rfl := Option.some.inj enters
      rw [hknown, stands, Option.any_some, external] at hfree
      cases hfree
    · exact .inr (.inl hfault)
    · rw [← List.map_cons] at hmem
      obtain ⟨v, hv, rfl⟩ := List.mem_map.1 hmem
      exact .inr (.inr ⟨v, hv, hdeg⟩)
  · obtain ⟨hrecorded, rfl⟩ := hcurrent hexternal
    rw [hphase, hknown, stands]
    refine ⟨⟨fun h => ?_, fun h => ?_⟩, fun _ => rfl⟩
    · have hdictated := dictated_not_isExternal health
      rw [← Option.some.inj h, external] at hdictated
      cases hdictated
    · exfalso
      rcases h with hns | hnone | ⟨v, hv, hdeg⟩
      · exact hrecorded hns
      · exact hfault hnone
      · have hmem := List.mem_map_of_mem (f := seenIn config env) hv
        rw [hsound _ (List.map_cons ▸ hmem)] at hdeg
        cases hdeg

/-- A record in a test run, whose spec has been changed. -/
def tested : Environment :=
  { newcomer with
    metadata := { newcomer.metadata with generation := some 2 }
    spec := { newcomer.spec with services := ["web"] }
    status := some { phase := some .testing, ns := some "pr-5", observedGeneration := some 1 } }

/-- The record in its cluster. -/
def trial : Store where
  records := [(⟨"previews", "shop"⟩, tested)]
  now := default

/-- A cluster in which nothing can be put in place. -/
def stalled : Store where
  faults := [{ call := "apply", failure := .client }]
  now := default

/-- A cluster in which the one deployment is healthy. -/
def thriving : Store where
  objects := [((Child.applicationAddress 5 "web" {}).text, .obj
    [("metadata", .obj [("name", .str "pr-5-web")]),
     ("status", .obj [("health", .obj [("status", .str "Healthy")]),
       ("sync", .obj [("status", .str "Synced")])])])]
  now := nextTurn

private theorem seen_stalled : (seenIn {} tested stalled).fault = some .client ∧
    (seenIn {} tested stalled).degraded = false := by decide +kernel

private theorem seen_thriving : (seenIn {} tested thriving).fault = none ∧
    (seenIn {} tested thriving).health = some ⟨.ready, [⟨"web", "Healthy", "Synced"⟩], none⟩ := by
  decide +kernel

private theorem undisturbed_stalled : stalled.Undisturbed := by
  intro c hc
  cases c with
  | apply => cases hc
  | _ => rfl

private theorem acceptable_tested : Acceptable tested.metadata tested := by
  have sound : tested.spec.fault? = none := by decide +kernel
  refine ⟨by decide, rfl, ?_⟩
  rw [Spec.validate, sound]

/-- The first pass puts no child in place and no pass finds a degraded deployment, so that none of
the three conditions is met. -/
theorem handed_back_iff_tested : ∃ left,
    ([stalled, thriving].foldl (visit {} tested.metadata) trial).record? tested.key = some left ∧
      left.phase? = some .testing := by
  have free : ∀ v ∈ [stalled, thriving], v.Undisturbed :=
    List.forall_mem_cons.2 ⟨undisturbed_stalled, List.forall_mem_singleton.2 fun _ _ => rfl⟩
  have there : trial.record? tested.key = some tested :=
    (lookup_cons_if _ _ []).trans (if_pos rfl)
  obtain ⟨left, hthere, hiff, hrest⟩ := handed_back_iff rfl rfl there acceptable_tested rfl rfl
    (by decide) rfl free rfl seen_thriving.1 seen_thriving.2
  refine ⟨left, hthere, hrest fun hready => ?_⟩
  rcases hiff.1 hready with hns | hfault | ⟨v, hv, hdeg⟩
  · cases hns
  · rw [seen_stalled.1] at hfault
    cases hfault
  · rcases List.mem_cons.1 hv with rfl | hv
    · rw [seen_stalled.2] at hdeg
      cases hdeg
    · obtain rfl := List.mem_singleton.1 hv
      rw [Findings.degraded, seen_thriving.2] at hdeg
      cases hdeg

/-- A pass that fails to put a child in place hands the record back to the test run: the next pass
finds all children in place and the deployment ready, and yet the phase stays. -/
theorem test_run_goes_on :
    (([stalled, thriving].foldl (visit {} tested.metadata) trial).record? tested.key).map
        (·.phase?) = some (some .testing) ∧
      (seenIn {} tested thriving).fault = none ∧
      (seenIn {} tested thriving).health.map dictated = some .ready := by
  decide +kernel

end Reconcile
end PreviewControl
