import PreviewControl.Cluster.Simulation
import PreviewControl.Cluster.Trace
import PreviewControl.Proofs.StoreLaws

/-!
# Runs of passes over a cluster

What a pass comes to over a cluster in memory, taken apart along the pass: its outcome, the cluster
after it and what happened meanwhile.
-/
namespace PreviewControl

variable {α β : Type}

namespace Pass.Outcome

def ofExcept : Except Failure α → Outcome α
  | .ok a => done a
  | .error e => failed e

/-- What an attempt comes to. Nothing catches an overflow. -/
def attempt : Outcome α → Outcome (Except Failure α)
  | done a => done (.ok a)
  | failed e => done (.error e)
  | overflow => overflow

/-- The end of a pass with this outcome. -/
def ending : Outcome α → Pass α
  | done a => .done a
  | failed e => .fail e
  | overflow => .overflow

end Pass.Outcome

/-- What has happened, as something that a pass does. -/
def Happening.deed : Happening → Deed
  | call _ c answer => .call c answer
  | event e => .event e
  | measurement m => .measurement m

namespace Pass

open Simulation

/-- What a pass comes to over a cluster: its outcome, what happens in order, and the cluster after
it. -/
abbrev Run (α : Type) := Outcome α × List Happening × Store

/-- One more thing has happened before. -/
def Run.behind (h : Happening) (r : Run α) : Run α := (r.1, h :: r.2.1, r.2.2)

/-- A run goes on from its result, if it has one. -/
def Run.next (r : Run α) (k : α → Store → Run β) : Run β :=
  match r.1 with
  | .done a => ((k a r.2.2).1, r.2.1 ++ (k a r.2.2).2.1, (k a r.2.2).2.2)
  | .failed e => (.failed e, r.2)
  | .overflow => (.overflow, r.2)

/-- The failure of a run becomes a value. -/
def Run.attempt (r : Run α) : Run (Except Failure α) := (r.1.attempt, r.2)

theorem Run.next_behind (h : Happening) (r : Run α) (k : α → Store → Run β) :
    (r.behind h).next k = (r.next k).behind h := by
  obtain ⟨o, hs, s⟩ := r
  cases o <;> rfl

def outcome (p : Pass α) (s : Store) : Outcome α := (observe p s).1

/-- What happens during a pass, in order. -/
def happenings (p : Pass α) (s : Store) : List Happening := (observe p s).2.1

/-- The cluster after a pass. -/
def after (p : Pass α) (s : Store) : Store := (observe p s).2.2

/-! ## Along a pass -/

private def runFrom (p : Pass α) (s : Simulation) : Outcome α × Simulation := (follow p).run s

/-- What has happened before does not matter, and stays written down. -/
private theorem runFrom_eq (p : Pass α) (s : Store) (hs : List Happening) :
    runFrom p ⟨s, hs⟩ = (p.outcome s, ⟨p.after s, (p.happenings s).reverse ++ hs⟩) := by
  have key : ∀ (s : Store) (hs : List Happening), runFrom p ⟨s, hs⟩ =
      ((runFrom p ⟨s, []⟩).1, ⟨(runFrom p ⟨s, []⟩).2.store,
        (runFrom p ⟨s, []⟩).2.happenings ++ hs⟩) := by
    induction p with
    | done | fail | overflow => exact fun _ _ => rfl
    | call c next ih =>
      intro s hs
      have step (hs : List Happening) : runFrom (.call c next) ⟨s, hs⟩ =
          runFrom (next (s.answer c).1)
            ⟨(s.answer c).2, .call s.now c (s.answer c).1 :: hs⟩ := rfl
      rw [step, step, ih _ _ (_ :: hs), ih _ _ [_]]
      simp
    | announce e next ih =>
      intro s hs
      have step (hs : List Happening) :
          runFrom (.announce e next) ⟨s, hs⟩ = runFrom next ⟨s, .event e :: hs⟩ := rfl
      rw [step, step, ih _ (_ :: hs), ih _ [_]]
      simp
    | count m next ih =>
      intro s hs
      have step (hs : List Happening) :
          runFrom (.count m next) ⟨s, hs⟩ = runFrom next ⟨s, .measurement m :: hs⟩ := rfl
      rw [step, step, ih _ (_ :: hs), ih _ [_]]
      simp
  rw [key s hs]
  simp only [outcome, after, happenings, observe, List.reverse_reverse]
  rfl

/-- A pass that is followed adds what happens to what has happened. -/
theorem follow_run (p : Pass α) (s : Store) (hs : List Happening) :
    (follow p).run ⟨s, hs⟩ =
      ((p.outcome s, ⟨p.after s, (p.happenings s).reverse ++ hs⟩) : Id (Outcome α × Simulation)) :=
  runFrom_eq p s hs

private theorem observe_of_runFrom {p q : Pass α} {s s' : Store} {h : Happening}
    (step : runFrom p ⟨s, []⟩ = runFrom q ⟨s', [h]⟩) :
    observe p s = Run.behind h (observe q s') := by
  show ((runFrom p ⟨s, []⟩).1, (runFrom p ⟨s, []⟩).2.happenings.reverse,
    (runFrom p ⟨s, []⟩).2.store) = _
  rw [step, runFrom_eq]
  simp [Run.behind, outcome, happenings, after]

theorem observe_call (c : Call) (next : c.Answer → Pass α) (s : Store) :
    observe (call c next) s = Run.behind (.call s.now c (s.answer c).1)
      (observe (next (s.answer c).1) (s.answer c).2) := observe_of_runFrom rfl

theorem observe_announce (e : Event) (next : Pass α) (s : Store) :
    observe (announce e next) s = Run.behind (.event e) (observe next s) := observe_of_runFrom rfl

theorem observe_count (m : Measurement) (next : Pass α) (s : Store) :
    observe (count m next) s = Run.behind (.measurement m) (observe next s) :=
  observe_of_runFrom rfl

/-! ## As traces -/

/-- What happens during a pass over a cluster leads it to its outcome. -/
theorem leads_happenings (p : Pass α) (s : Store) :
    p.Leads ((p.happenings s).map Happening.deed) (p.outcome s).ending := by
  induction p generalizing s with
  | done | fail | overflow => exact .start _
  | call c next ih =>
    rw [happenings, outcome, observe_call]
    exact .call (ih _ _)
  | announce e next ih =>
    rw [happenings, outcome, observe_announce]
    exact .announce (ih s)
  | count m next ih =>
    rw [happenings, outcome, observe_count]
    exact .count (ih s)

/-! ## Passes in a row -/

theorem observe_bind (p : Pass α) (f : α → Pass β) (s : Store) :
    observe (p.bind f) s = Run.next (observe p s) fun a s' => observe (f a) s' := by
  induction p generalizing s with
  | done | fail | overflow => rfl
  | call c next ih => rw [bind_call, observe_call, observe_call, Run.next_behind, ih]
  | announce e next ih => rw [bind, observe_announce, observe_announce, Run.next_behind, ih]
  | count m next ih => rw [bind, observe_count, observe_count, Run.next_behind, ih]

theorem observe_attempt (p : Pass α) (s : Store) :
    observe p.attempt s = Run.attempt (observe p s) := by
  induction p generalizing s with
  | done | fail | overflow => rfl
  | call c next ih =>
    rw [attempt, observe_call, observe_call, ih]
    rfl
  | announce e next ih =>
    rw [attempt, observe_announce, observe_announce, ih]
    rfl
  | count m next ih =>
    rw [attempt, observe_count, observe_count, ih]
    rfl

section

variable {p : Pass α} {f : α → Pass β} {s : Store}

/-- A pass that comes to a result goes on from the cluster that it leaves. -/
theorem observe_bind_done {a : α} (h : p.outcome s = .done a) : observe (p.bind f) s =
    ((f a).outcome (p.after s), p.happenings s ++ (f a).happenings (p.after s),
      (f a).after (p.after s)) := by
  rw [observe_bind, Run.next]
  rw [outcome] at h
  rw [h]
  rfl

/-- Nothing comes after a pass without a result. -/
private theorem observe_bind_of_ne (h : ∀ a, p.outcome s ≠ .done a) :
    (p.bind f).happenings s = p.happenings s ∧ (p.bind f).after s = p.after s := by
  rw [happenings, after, observe_bind, Run.next]
  cases ho : (observe p s).1 with
  | done a => exact absurd ho (h a)
  | failed e => exact ⟨rfl, rfl⟩
  | overflow => exact ⟨rfl, rfl⟩

theorem happenings_bind_of_ne (h : ∀ a, p.outcome s ≠ .done a) :
    (p.bind f).happenings s = p.happenings s := (observe_bind_of_ne h).1

theorem after_bind_of_ne (h : ∀ a, p.outcome s ≠ .done a) : (p.bind f).after s = p.after s :=
  (observe_bind_of_ne h).2

theorem done_or_not (p : Pass α) (s : Store) :
    (∃ a, p.outcome s = .done a) ∨ ∀ a, p.outcome s ≠ .done a := by
  by_cases h : ∃ a, p.outcome s = .done a
  · exact .inl h
  · exact .inr fun a ha => h ⟨a, ha⟩

theorem outcome_bind_failed {e : Failure} (h : p.outcome s = .failed e) :
    (p.bind f).outcome s = .failed e := by
  rw [outcome] at h
  rw [outcome, observe_bind, Run.next, h]

theorem after_bind_failed {e : Failure} (h : p.outcome s = .failed e) :
    (p.bind f).after s = p.after s := by
  refine after_bind_of_ne fun a ha => ?_
  rw [h] at ha
  cases ha

/-- What leaves the cluster alone can follow without a trace. -/
theorem after_bind_same (h : ∀ a s, (f a).after s = s) : (p.bind f).after s = p.after s := by
  rcases p.done_or_not s with ⟨a, ha⟩ | hne
  · rw [after, observe_bind_done ha]
    exact h a _
  · exact after_bind_of_ne hne

theorem outcome_bind_done {a : α} (h : p.outcome s = .done a) :
    (p.bind f).outcome s = (f a).outcome (p.after s) := by
  rw [outcome, observe_bind_done h]

/-- Passes in a row come to a result only if the first one does. -/
theorem of_bind_done {b : β} (h : (p.bind f).outcome s = .done b) :
    ∃ a, p.outcome s = .done a ∧ (f a).outcome (p.after s) = .done b := by
  rcases p.done_or_not s with ⟨a, ha⟩ | hne
  · exact ⟨a, ha, (outcome_bind_done ha).symm.trans h⟩
  · rw [outcome, observe_bind, Run.next] at h
    cases ho : (observe p s).1 with
    | done a => exact absurd ho (hne a)
    | failed | overflow =>
      rw [ho] at h
      cases h

theorem happenings_bind_done {a : α} (h : p.outcome s = .done a) :
    (p.bind f).happenings s = p.happenings s ++ (f a).happenings (p.after s) := by
  rw [happenings, observe_bind_done h]

theorem after_bind_done {a : α} (h : p.outcome s = .done a) :
    (p.bind f).after s = (f a).after (p.after s) := by
  rw [after, observe_bind_done h]

end

@[simp] theorem outcome_attempt (p : Pass α) (s : Store) :
    p.attempt.outcome s = (p.outcome s).attempt := congrArg (·.1) (observe_attempt p s)

@[simp] theorem happenings_attempt (p : Pass α) (s : Store) :
    p.attempt.happenings s = p.happenings s := congrArg (·.2.1) (observe_attempt p s)

@[simp] theorem after_attempt (p : Pass α) (s : Store) : p.attempt.after s = p.after s :=
  congrArg (·.2.2) (observe_attempt p s)

/-! ## The small passes -/

@[simp] theorem outcome_done (a : α) (s : Store) : (done a).outcome s = .done a := rfl
@[simp] theorem after_done (a : α) (s : Store) : (done a).after s = s := rfl
@[simp] theorem happenings_done (a : α) (s : Store) : (done a).happenings s = [] := rfl

@[simp] theorem outcome_fail (e : Failure) (s : Store) : (fail e : Pass α).outcome s = .failed e :=
  rfl
@[simp] theorem after_fail (e : Failure) (s : Store) : (fail e : Pass α).after s = s := rfl
@[simp] theorem happenings_fail (e : Failure) (s : Store) : (fail e : Pass α).happenings s = [] :=
  rfl

@[simp] theorem outcome_overflow (s : Store) : (overflow : Pass α).outcome s = .overflow := rfl
@[simp] theorem after_overflow (s : Store) : (overflow : Pass α).after s = s := rfl
@[simp] theorem happenings_overflow (s : Store) : (overflow : Pass α).happenings s = [] := rfl

theorem observe_request (c : Call) (s : Store) : observe (request c) s =
    (.ofExcept (s.answer c).1, [.call s.now c (s.answer c).1], (s.answer c).2) := by
  rw [request, observe_call]
  cases (s.answer c).1 <;> rfl

theorem observe_inquire (c : Call) (s : Store) : observe (inquire c) s =
    (.done (s.answer c).1, [.call s.now c (s.answer c).1], (s.answer c).2) := observe_call c _ s

@[simp] theorem outcome_request (c : Call) (s : Store) :
    (request c).outcome s = .ofExcept (s.answer c).1 := congrArg (·.1) (observe_request c s)

@[simp] theorem happenings_request (c : Call) (s : Store) :
    (request c).happenings s = [.call s.now c (s.answer c).1] :=
  congrArg (·.2.1) (observe_request c s)

@[simp] theorem after_request (c : Call) (s : Store) : (request c).after s = (s.answer c).2 :=
  congrArg (·.2.2) (observe_request c s)

@[simp] theorem outcome_inquire (c : Call) (s : Store) :
    (inquire c).outcome s = .done (s.answer c).1 := congrArg (·.1) (observe_inquire c s)

@[simp] theorem happenings_inquire (c : Call) (s : Store) :
    (inquire c).happenings s = [.call s.now c (s.answer c).1] :=
  congrArg (·.2.1) (observe_inquire c s)

@[simp] theorem after_inquire (c : Call) (s : Store) : (inquire c).after s = (s.answer c).2 :=
  congrArg (·.2.2) (observe_inquire c s)

@[simp] theorem outcome_report (e : Event) (s : Store) : (report e).outcome s = .done () := rfl
@[simp] theorem after_report (e : Event) (s : Store) : (report e).after s = s := rfl
@[simp] theorem happenings_report (e : Event) (s : Store) : (report e).happenings s = [.event e] :=
  rfl

@[simp] theorem outcome_measure (m : Measurement) (s : Store) : (measure m).outcome s = .done () :=
  rfl
@[simp] theorem after_measure (m : Measurement) (s : Store) : (measure m).after s = s := rfl
@[simp] theorem happenings_measure (m : Measurement) (s : Store) :
    (measure m).happenings s = [.measurement m] := rfl

/-! ## Calls with and without faults -/

section

variable {c : Call} {s : Store}

theorem request_of_hit {hit : Failure × List Fault} (h : Fault.strike c s.faults = some hit)
    (hc : c.takesTime = false) :
    (request c).outcome s = .failed hit.1 ∧ (request c).after s = { s with faults := hit.2 } := by
  rw [outcome_request, after_request, Store.answer_of_hit h hc]
  exact ⟨rfl, rfl⟩

theorem request_of_miss (h : Fault.strike c s.faults = none)
    (hc : c.takesTime = false) :
    (request c).outcome s = .ofExcept (s.serve c).1 ∧ (request c).after s = (s.serve c).2 := by
  rw [outcome_request, after_request, Store.answer_of_miss h hc]
  exact ⟨rfl, rfl⟩

/-- A call has a result if no fault hits it and the cluster has one. -/
theorem request_done_iff {r : c.Reply} (hc : c.takesTime = false) :
    (request c).outcome s = .done r ↔
      Fault.strike c s.faults = none ∧ (s.serve c).1 = .ok r := by
  cases hs : Fault.strike c s.faults with
  | some hit =>
    rw [(request_of_hit hs hc).1]
    simp
  | none =>
    rw [(request_of_miss hs hc).1]
    cases (s.serve c).1 <;> simp [Outcome.ofExcept]

end

/-! ## Runs that write no record -/

variable {P : Call → Prop}

theorem Makes.of_call {c : Call} {next : c.Answer → Pass α} (h : (call c next).Makes P) :
    P c ∧ ∀ answer, (next answer).Makes P :=
  ⟨h [] c ⟨next, .start _⟩, fun answer t c' ⟨n, hn⟩ => h (.call c answer :: t) c' ⟨n, .call hn⟩⟩

theorem Makes.of_announce {e : Event} {next : Pass α} (h : (announce e next).Makes P) :
    next.Makes P := fun t c ⟨n, hn⟩ => h (.event e :: t) c ⟨n, .announce hn⟩

theorem Makes.of_count {m : Measurement} {next : Pass α} (h : (count m next).Makes P) :
    next.Makes P := fun t c ⟨n, hn⟩ => h (.measurement m :: t) c ⟨n, .count hn⟩

/-- What happens in a run are calls that the pass can make. -/
theorem Makes.of_mem_happenings {p : Pass α} (h : p.Makes P) {s : Store} {start : Instant}
    {c : Call} {answer : c.Answer} (hc : .call start c answer ∈ p.happenings s) : P c := by
  induction p generalizing s with
  | done | fail | overflow => cases hc
  | call c' next ih =>
    obtain ⟨hp, hnext⟩ := h.of_call
    rw [happenings, observe_call] at hc
    rcases List.mem_cons.1 hc with heq | hc
    · cases heq
      exact hp
    · exact ih _ (hnext _) hc
  | announce e next ih =>
    rw [happenings, observe_announce] at hc
    rcases List.mem_cons.1 hc with heq | hc
    · cases heq
    · exact ih h.of_announce hc
  | count m next ih =>
    rw [happenings, observe_count] at hc
    rcases List.mem_cons.1 hc with heq | hc
    · cases heq
    · exact ih h.of_count hc

/-- What every call of a pass keeps, the pass keeps. -/
theorem Makes.preserves {Q : Store → Prop} {p : Pass α} (h : p.Makes P)
    (keeps : ∀ s c, P c → Q s → Q (s.answer c).2) {s : Store} (hs : Q s) : Q (p.after s) := by
  induction p generalizing s with
  | done | fail | overflow => exact hs
  | call c next ih =>
    obtain ⟨hc, hnext⟩ := h.of_call
    rw [after, observe_call]
    exact ih _ (hnext _) (keeps s c hc hs)
  | announce e next ih =>
    rw [after, observe_announce]
    exact ih h.of_announce hs
  | count m next ih =>
    rw [after, observe_count]
    exact ih h.of_count hs

/-- What every call keeps, every pass keeps. -/
theorem after_preserves {Q : Store → Prop} (keeps : ∀ s c, Q s → Q (s.answer c).2) (p : Pass α)
    {s : Store} (hs : Q s) : Q (p.after s) := by
  have any : p.Makes fun _ => True := fun _ _ _ => trivial
  exact any.preserves (fun s c _ hs => keeps s c hs) hs

theorem Makes.records_after {p : Pass α} (h : p.Makes fun c => c.recordKey? = none) (s : Store) :
    (p.after s).records = s.records :=
  h.preserves (Q := fun left => left.records = s.records)
    (fun _ _ hc hleft => (Store.answer_records hc).trans hleft) rfl

/-- A pass without calls leaves the cluster alone. -/
theorem Makes.after_eq {p : Pass α} (h : p.Makes fun _ => False) (s : Store) : p.after s = s := by
  induction p with
  | done | fail | overflow => rfl
  | call c next ih => exact h.of_call.1.elim
  | announce e next ih =>
    rw [after, observe_announce]
    exact ih h.of_announce
  | count m next ih =>
    rw [after, observe_count]
    exact ih h.of_count

/-- The run writes no status and leaves the records as they are. -/
structure Quiet (p : Pass α) (s : Store) : Prop where
  unwritten : ∀ start env status answer,
    .call start (.patchStatus env status) answer ∉ p.happenings s
  kept : (p.after s).records = s.records

/-- All writes of a status that are made in the run are accepted. -/
def Accepted (p : Pass α) (s : Store) : Prop :=
  ∀ start env status (answer : Call.Answer (.patchStatus env status)),
    .call start (.patchStatus env status) answer ∈ p.happenings s → ∃ updated, answer = .ok updated

/-- Not a write of a status that has been refused. -/
def accepts : Happening → Bool
  | .call _ (.patchStatus _ _) (.error _) => false
  | _ => true

theorem accepted_iff {p : Pass α} {s : Store} :
    p.Accepted s ↔ (p.happenings s).all accepts = true := by
  rw [List.all_eq_true]
  constructor
  · intro h x hx
    unfold accepts
    split
    · next start env status e =>
      obtain ⟨updated, heq⟩ := h start env status (.error e) hx
      cases heq
    · rfl
  · intro h start env status answer hx
    cases answer with
    | ok updated => exact ⟨updated, rfl⟩
    | error e => cases h _ hx

instance (p : Pass α) (s : Store) : Decidable (p.Accepted s) := decidable_of_iff' _ accepted_iff

theorem quiet_of_makes {p : Pass α} (h : p.Makes fun c => c.recordKey? = none) (s : Store) :
    p.Quiet s := by
  refine ⟨fun start env status answer hc => ?_, h.records_after s⟩
  cases h.of_mem_happenings hc

theorem quiet_of_silent {p : Pass α} (h : p.Makes fun _ => False) (s : Store) : p.Quiet s :=
  quiet_of_makes (h.mono fun _ => False.elim) s

theorem quiet_done (a : α) (s : Store) : (done a).Quiet s := ⟨by simp, rfl⟩

theorem quiet_fail (e : Failure) (s : Store) : (fail e : Pass α).Quiet s := ⟨by simp, rfl⟩

theorem quiet_overflow (s : Store) : (overflow : Pass α).Quiet s := ⟨by simp, rfl⟩

theorem Quiet.bind {p : Pass α} {f : α → Pass β} {s : Store} (hp : p.Quiet s)
    (hf : ∀ a, p.outcome s = .done a → (f a).Quiet (p.after s)) : (p.bind f).Quiet s := by
  rcases p.done_or_not s with ⟨a, ha⟩ | hne
  · have hq := hf a ha
    constructor
    · intro start env status answer hc
      rw [happenings_bind_done ha, List.mem_append] at hc
      rcases hc with hc | hc
      · exact hp.unwritten start env status answer hc
      · exact hq.unwritten start env status answer hc
    · rw [after_bind_done ha, hq.kept, hp.kept]
  · constructor
    · rw [happenings_bind_of_ne hne]
      exact hp.unwritten
    · rw [after_bind_of_ne hne]
      exact hp.kept

theorem Quiet.attempt {p : Pass α} {s : Store} (h : p.Quiet s) : p.attempt.Quiet s := by
  constructor
  · rw [happenings_attempt]
    exact h.unwritten
  · rw [after_attempt]
    exact h.kept

theorem accepted_request {env : Environment} {status : Status} {s : Store}
    (h : (request (.patchStatus env status)).Accepted s) :
    ∃ updated, (s.answer (.patchStatus env status)).1 = .ok updated := by
  refine h s.now env status _ ?_
  rw [happenings_request]
  exact List.mem_singleton_self _

theorem accepted_inquire {env : Environment} {status : Status} {s : Store}
    (h : (inquire (.patchStatus env status)).Accepted s) :
    ∃ updated, (s.answer (.patchStatus env status)).1 = .ok updated := by
  refine h s.now env status _ ?_
  rw [happenings_inquire]
  exact List.mem_singleton_self _

theorem Accepted.left {p : Pass α} {f : α → Pass β} {s : Store} (h : (p.bind f).Accepted s) :
    p.Accepted s := by
  intro start env status answer hc
  refine h start env status answer ?_
  rcases p.done_or_not s with ⟨a, ha⟩ | hne
  · rw [happenings_bind_done ha]
    exact List.mem_append_left _ hc
  · rw [happenings_bind_of_ne hne]
    exact hc

theorem Accepted.right {p : Pass α} {f : α → Pass β} {s : Store} (h : (p.bind f).Accepted s) {a : α}
    (ha : p.outcome s = .done a) : (f a).Accepted (p.after s) := by
  intro start env status answer hc
  refine h start env status answer ?_
  rw [happenings_bind_done ha]
  exact List.mem_append_right _ hc

end Pass
end PreviewControl
