import PreviewControl.Cluster.Pass

/-!
# Traces of passes

What a pass does when its calls are answered in a given way. A trace fixes the answers, so it leads
a pass to at most one other: the part of it that is still to come. A pass that is interrupted has
done some trace and leaves the rest undone.
-/
namespace PreviewControl

/-- Something that a pass does, with the answer if it is a call. -/
inductive Deed where
  | call (c : Call) (answer : c.Answer)
  | event (event : Event)
  | measurement (measurement : Measurement)

namespace Pass

variable {α β : Type}

/-- With its calls answered as in the trace, the first pass has the second one left. -/
inductive Leads : Pass α → List Deed → Pass α → Prop where
  | start (p : Pass α) : Leads p [] p
  | call {c : Call} {next : c.Answer → Pass α} {answer : c.Answer} {t : List Deed} {q : Pass α} :
    Leads (next answer) t q → Leads (call c next) (.call c answer :: t) q
  | announce {e : Event} {p : Pass α} {t : List Deed} {q : Pass α} :
    Leads p t q → Leads (announce e p) (.event e :: t) q
  | count {m : Measurement} {p : Pass α} {t : List Deed} {q : Pass α} :
    Leads p t q → Leads (count m p) (.measurement m :: t) q

/-- After the trace the pass makes this call next. -/
def Asks (p : Pass α) (t : List Deed) (c : Call) : Prop := ∃ next, p.Leads t (.call c next)

/-- The trace leads to the end of the pass, with this result. -/
def Gives (p : Pass α) (t : List Deed) (a : α) : Prop := p.Leads t (done a)

/-- The trace leads to the end of the pass, with this failure. -/
def Breaks (p : Pass α) (t : List Deed) (e : Failure) : Prop := p.Leads t (fail e)

/-! ## One step -/

@[simp] theorem leads_nil {p q : Pass α} : p.Leads [] q ↔ p = q :=
  ⟨fun h => by cases h; rfl, fun h => h ▸ .start p⟩

@[simp] theorem leads_done {a : α} {t : List Deed} {q : Pass α} :
    (done a).Leads t q ↔ t = [] ∧ q = done a :=
  ⟨fun h => by cases h; exact ⟨rfl, rfl⟩, fun ⟨ht, hq⟩ => ht ▸ hq ▸ .start _⟩

@[simp] theorem leads_fail {e : Failure} {t : List Deed} {q : Pass α} :
    (fail e).Leads t q ↔ t = [] ∧ q = fail e :=
  ⟨fun h => by cases h; exact ⟨rfl, rfl⟩, fun ⟨ht, hq⟩ => ht ▸ hq ▸ .start _⟩

@[simp] theorem leads_overflow {t : List Deed} {q : Pass α} :
    overflow.Leads t q ↔ t = [] ∧ q = overflow :=
  ⟨fun h => by cases h; exact ⟨rfl, rfl⟩, fun ⟨ht, hq⟩ => ht ▸ hq ▸ .start _⟩

theorem leads_call {c : Call} {next : c.Answer → Pass α} {t : List Deed} {q : Pass α} :
    (call c next).Leads t q ↔ (t = [] ∧ q = call c next) ∨
      ∃ answer u, t = .call c answer :: u ∧ (next answer).Leads u q := by
  constructor
  · intro h
    cases h with
    | start => exact .inl ⟨rfl, rfl⟩
    | call h => exact .inr ⟨_, _, rfl, h⟩
  · rintro (⟨rfl, rfl⟩ | ⟨answer, u, rfl, h⟩)
    · exact .start _
    · exact .call h

theorem leads_announce {e : Event} {p : Pass α} {t : List Deed} {q : Pass α} :
    (announce e p).Leads t q ↔ (t = [] ∧ q = announce e p) ∨
      ∃ u, t = .event e :: u ∧ p.Leads u q := by
  constructor
  · intro h
    cases h with
    | start => exact .inl ⟨rfl, rfl⟩
    | announce h => exact .inr ⟨_, rfl, h⟩
  · rintro (⟨rfl, rfl⟩ | ⟨u, rfl, h⟩)
    · exact .start _
    · exact .announce h

theorem leads_count {m : Measurement} {p : Pass α} {t : List Deed} {q : Pass α} :
    (count m p).Leads t q ↔ (t = [] ∧ q = count m p) ∨
      ∃ u, t = .measurement m :: u ∧ p.Leads u q := by
  constructor
  · intro h
    cases h with
    | start => exact .inl ⟨rfl, rfl⟩
    | count h => exact .inr ⟨_, rfl, h⟩
  · rintro (⟨rfl, rfl⟩ | ⟨u, rfl, h⟩)
    · exact .start _
    · exact .count h

@[simp] theorem leads_call_cons {c : Call} {next : c.Answer → Pass α} {answer : c.Answer}
    {t : List Deed} {q : Pass α} :
    (call c next).Leads (.call c answer :: t) q ↔ (next answer).Leads t q :=
  ⟨fun h => by cases h with | call h => exact h, .call⟩

@[simp] theorem leads_announce_cons {e : Event} {p : Pass α} {t : List Deed} {q : Pass α} :
    (announce e p).Leads (.event e :: t) q ↔ p.Leads t q :=
  ⟨fun h => by cases h with | announce h => exact h, .announce⟩

@[simp] theorem leads_count_cons {m : Measurement} {p : Pass α} {t : List Deed} {q : Pass α} :
    (count m p).Leads (.measurement m :: t) q ↔ p.Leads t q :=
  ⟨fun h => by cases h with | count h => exact h, .count⟩

/-! ## Traces in a row -/

namespace Leads

theorem trans {p q r : Pass α} {t u : List Deed} (h : p.Leads t q) (h' : q.Leads u r) :
    p.Leads (t ++ u) r := by
  induction h with
  | start => exact h'
  | call _ ih => exact .call (ih h')
  | announce _ ih => exact .announce (ih h')
  | count _ ih => exact .count (ih h')

theorem split {p r : Pass α} {t u : List Deed} (h : p.Leads (t ++ u) r) :
    ∃ q, p.Leads t q ∧ q.Leads u r := by
  induction t generalizing p with
  | nil => exact ⟨p, .start p, h⟩
  | cons d t ih =>
    cases h with
    | call h =>
      obtain ⟨q, hq, hr⟩ := ih h
      exact ⟨q, .call hq, hr⟩
    | announce h =>
      obtain ⟨q, hq, hr⟩ := ih h
      exact ⟨q, .announce hq, hr⟩
    | count h =>
      obtain ⟨q, hq, hr⟩ := ih h
      exact ⟨q, .count hq, hr⟩

/-- A trace leaves no choice. -/
theorem unique {p q r : Pass α} {t : List Deed} (h : p.Leads t q) (h' : p.Leads t r) : q = r := by
  induction h with
  | start => exact leads_nil.1 h'
  | call _ ih => exact ih (leads_call_cons.1 h')
  | announce _ ih => exact ih (leads_announce_cons.1 h')
  | count _ ih => exact ih (leads_count_cons.1 h')

/-- Every call of a trace was the next one to be made when it was made. -/
theorem asks {p q : Pass α} {t u : List Deed} {c : Call} {answer : c.Answer}
    (h : p.Leads (t ++ .call c answer :: u) q) : p.Asks t c := by
  obtain ⟨r, hr, hq⟩ := h.split
  cases hq with
  | call => exact ⟨_, hr⟩

theorem snoc {p : Pass α} {t : List Deed} {c : Call} {next : c.Answer → Pass α}
    (h : p.Leads t (.call c next)) (answer : c.Answer) :
    p.Leads (t ++ [.call c answer]) (next answer) := h.trans (.call (.start _))

theorem bind {p q : Pass α} {t : List Deed} (h : p.Leads t q) (f : α → Pass β) :
    (p.bind f).Leads t (q.bind f) := by
  induction h with
  | start => exact .start _
  | call _ ih => exact .call ih
  | announce _ ih => exact .announce ih
  | count _ ih => exact .count ih

theorem attempt {p q : Pass α} {t : List Deed} (h : p.Leads t q) : p.attempt.Leads t q.attempt := by
  induction h with
  | start => exact .start _
  | call _ ih => exact .call ih
  | announce _ ih => exact .announce ih
  | count _ ih => exact .count ih

end Leads

/-- A trace of two passes in a row ends in the first one, or goes on from its result. -/
theorem leads_bind {p : Pass α} {f : α → Pass β} {t : List Deed} {r : Pass β} :
    (p.bind f).Leads t r ↔ (∃ q, p.Leads t q ∧ r = q.bind f) ∨
      ∃ t₁ t₂ a, t = t₁ ++ t₂ ∧ p.Gives t₁ a ∧ (f a).Leads t₂ r := by
  constructor
  · intro h
    induction p generalizing t with
    | done a => exact .inr ⟨[], t, a, rfl, .start _, h⟩
    | fail e =>
      obtain ⟨rfl, rfl⟩ := leads_fail.1 h
      exact .inl ⟨fail e, .start _, rfl⟩
    | overflow =>
      obtain ⟨rfl, rfl⟩ := leads_overflow.1 h
      exact .inl ⟨overflow, .start _, rfl⟩
    | call c next ih =>
      cases h with
      | start => exact .inl ⟨call c next, .start _, rfl⟩
      | call h =>
        obtain ⟨q, hq, rfl⟩ | ⟨t₁, t₂, a, rfl, ha, hr⟩ := ih _ h
        · exact .inl ⟨q, .call hq, rfl⟩
        · exact .inr ⟨_ :: t₁, t₂, a, rfl, .call ha, hr⟩
    | announce e p ih =>
      cases h with
      | start => exact .inl ⟨announce e p, .start _, rfl⟩
      | announce h =>
        obtain ⟨q, hq, rfl⟩ | ⟨t₁, t₂, a, rfl, ha, hr⟩ := ih h
        · exact .inl ⟨q, .announce hq, rfl⟩
        · exact .inr ⟨_ :: t₁, t₂, a, rfl, .announce ha, hr⟩
    | count m p ih =>
      cases h with
      | start => exact .inl ⟨count m p, .start _, rfl⟩
      | count h =>
        obtain ⟨q, hq, rfl⟩ | ⟨t₁, t₂, a, rfl, ha, hr⟩ := ih h
        · exact .inl ⟨q, .count hq, rfl⟩
        · exact .inr ⟨_ :: t₁, t₂, a, rfl, .count ha, hr⟩
  · rintro (⟨q, hq, rfl⟩ | ⟨t₁, t₂, a, rfl, ha, hr⟩)
    · exact hq.bind f
    · exact (Leads.bind ha f).trans hr

theorem leads_attempt {p : Pass α} {t : List Deed} {r : Pass (Except Failure α)} :
    p.attempt.Leads t r ↔ ∃ q, p.Leads t q ∧ r = q.attempt := by
  constructor
  · intro h
    induction p generalizing t with
    | done a =>
      obtain ⟨rfl, rfl⟩ := leads_done.1 h
      exact ⟨done a, .start _, rfl⟩
    | fail e =>
      obtain ⟨rfl, rfl⟩ := leads_done.1 h
      exact ⟨fail e, .start _, rfl⟩
    | overflow =>
      obtain ⟨rfl, rfl⟩ := leads_overflow.1 h
      exact ⟨overflow, .start _, rfl⟩
    | call c next ih =>
      cases h with
      | start => exact ⟨call c next, .start _, rfl⟩
      | call h =>
        obtain ⟨q, hq, rfl⟩ := ih _ h
        exact ⟨q, .call hq, rfl⟩
    | announce e p ih =>
      cases h with
      | start => exact ⟨announce e p, .start _, rfl⟩
      | announce h =>
        obtain ⟨q, hq, rfl⟩ := ih h
        exact ⟨q, .announce hq, rfl⟩
    | count m p ih =>
      cases h with
      | start => exact ⟨count m p, .start _, rfl⟩
      | count h =>
        obtain ⟨q, hq, rfl⟩ := ih h
        exact ⟨q, .count hq, rfl⟩
  · rintro ⟨q, hq, rfl⟩
    exact hq.attempt

/-! ## Next calls, results and failures -/

@[simp] theorem bind_eq (p : Pass α) (f : α → Pass β) : (p >>= f) = p.bind f := rfl
@[simp] theorem pure_eq (a : α) : (pure a : Pass α) = done a := rfl
@[simp] theorem ofExcept_ok (a : α) : ofExcept (.ok a) = done a := rfl
@[simp] theorem ofExcept_error (e : Failure) : (ofExcept (.error e) : Pass α) = fail e := rfl
@[simp] theorem ofTime_some (a : α) : ofTime (some a) = done a := rfl
@[simp] theorem ofTime_none : (ofTime none : Pass α) = overflow := rfl

private theorem bind_eq_call {q : Pass α} {f : α → Pass β} {c : Call} {next : c.Answer → Pass β}
    (h : call c next = q.bind f) :
    (∃ next', q = call c next') ∨ ∃ a, q = done a ∧ f a = call c next := by
  cases q with
  | done a => exact .inr ⟨a, rfl, h.symm⟩
  | fail | overflow | announce | count => simp [bind] at h
  | call c' next' =>
    rw [bind_call] at h
    injection h with hc _
    subst hc
    exact .inl ⟨next', rfl⟩

theorem asks_bind {p : Pass α} {f : α → Pass β} {t : List Deed} {c : Call} :
    (p.bind f).Asks t c ↔ p.Asks t c ∨
      ∃ t₁ t₂ a, t = t₁ ++ t₂ ∧ p.Gives t₁ a ∧ (f a).Asks t₂ c := by
  constructor
  · rintro ⟨next, h⟩
    obtain ⟨q, hq, hr⟩ | ⟨t₁, t₂, a, ht, ha, hr⟩ := leads_bind.1 h
    · obtain ⟨next', rfl⟩ | ⟨a, rfl, hf⟩ := bind_eq_call hr
      · exact .inl ⟨next', hq⟩
      · exact .inr ⟨t, [], a, (List.append_nil t).symm, hq, next, leads_nil.2 hf⟩
    · exact .inr ⟨t₁, t₂, a, ht, ha, next, hr⟩
  · rintro (⟨next, h⟩ | ⟨t₁, t₂, a, rfl, ha, next, h⟩)
    · exact ⟨_, h.bind f⟩
    · exact ⟨next, (Leads.bind ha f).trans h⟩

theorem gives_bind {p : Pass α} {f : α → Pass β} {t : List Deed} {b : β} :
    (p.bind f).Gives t b ↔ ∃ t₁ t₂ a, t = t₁ ++ t₂ ∧ p.Gives t₁ a ∧ (f a).Gives t₂ b := by
  constructor
  · intro h
    obtain ⟨q, hq, hr⟩ | ⟨t₁, t₂, a, ht, ha, hr⟩ := leads_bind.1 h
    · cases q with
      | done a => exact ⟨t, [], a, (List.append_nil t).symm, hq, leads_nil.2 hr.symm⟩
      | fail | overflow | announce | count | call => simp [bind] at hr
    · exact ⟨t₁, t₂, a, ht, ha, hr⟩
  · rintro ⟨t₁, t₂, a, rfl, ha, h⟩
    exact (Leads.bind ha f).trans h

theorem breaks_bind {p : Pass α} {f : α → Pass β} {t : List Deed} {e : Failure} :
    (p.bind f).Breaks t e ↔ p.Breaks t e ∨
      ∃ t₁ t₂ a, t = t₁ ++ t₂ ∧ p.Gives t₁ a ∧ (f a).Breaks t₂ e := by
  constructor
  · intro h
    obtain ⟨q, hq, hr⟩ | ⟨t₁, t₂, a, ht, ha, hr⟩ := leads_bind.1 h
    · cases q with
      | done a => exact .inr ⟨t, [], a, (List.append_nil t).symm, hq, leads_nil.2 hr.symm⟩
      | fail e' =>
        rw [bind_fail] at hr
        injection hr with he
        exact .inl (he ▸ hq)
      | overflow | announce | count | call => simp [bind] at hr
    · exact .inr ⟨t₁, t₂, a, ht, ha, hr⟩
  · rintro (h | ⟨t₁, t₂, a, rfl, ha, h⟩)
    · exact Leads.bind h f
    · exact (Leads.bind ha f).trans h

@[simp] theorem asks_attempt {p : Pass α} {t : List Deed} {c : Call} :
    p.attempt.Asks t c ↔ p.Asks t c := by
  constructor
  · rintro ⟨next, h⟩
    obtain ⟨q, hq, hr⟩ := leads_attempt.1 h
    cases q with
    | call c' next' =>
      simp only [attempt] at hr
      injection hr with hc _
      subst hc
      exact ⟨next', hq⟩
    | done | fail | overflow | announce | count => simp [attempt] at hr
  · rintro ⟨next, h⟩
    exact ⟨_, h.attempt⟩

theorem gives_attempt {p : Pass α} {t : List Deed} {x : Except Failure α} :
    p.attempt.Gives t x ↔ (∃ a, x = .ok a ∧ p.Gives t a) ∨ ∃ e, x = .error e ∧ p.Breaks t e := by
  constructor
  · intro h
    obtain ⟨q, hq, hr⟩ := leads_attempt.1 h
    cases q with
    | done a => exact .inl ⟨a, by simpa [attempt] using hr, hq⟩
    | fail e => exact .inr ⟨e, by simpa [attempt] using hr, hq⟩
    | overflow | announce | count | call => simp [attempt] at hr
  · rintro (⟨a, rfl, h⟩ | ⟨e, rfl, h⟩)
    · exact Leads.attempt h
    · exact Leads.attempt h

@[simp] theorem gives_attempt_ok {p : Pass α} {t : List Deed} {a : α} :
    p.attempt.Gives t (.ok a) ↔ p.Gives t a := by simp [gives_attempt]

@[simp] theorem gives_attempt_error {p : Pass α} {t : List Deed} {e : Failure} :
    p.attempt.Gives t (.error e) ↔ p.Breaks t e := by simp [gives_attempt]

/-! ## The small passes -/

@[simp] theorem asks_done {a : α} {t : List Deed} {c : Call} : ¬(done a).Asks t c := by simp [Asks]
@[simp] theorem gives_done {a b : α} {t : List Deed} :
    (done a).Gives t b ↔ t = [] ∧ b = a := by simp [Gives]
@[simp] theorem breaks_done {a : α} {t : List Deed} {e : Failure} : ¬(done a).Breaks t e := by
  simp [Breaks]

@[simp] theorem asks_fail {e : Failure} {t : List Deed} {c : Call} :
    ¬(fail e : Pass α).Asks t c := by simp [Asks]
@[simp] theorem gives_fail {e : Failure} {t : List Deed} {a : α} : ¬(fail e).Gives t a := by
  simp [Gives]
@[simp] theorem breaks_fail {e e' : Failure} {t : List Deed} :
    (fail e : Pass α).Breaks t e' ↔ t = [] ∧ e' = e := by simp [Breaks]

@[simp] theorem asks_overflow {t : List Deed} {c : Call} : ¬(overflow : Pass α).Asks t c := by
  simp [Asks]
@[simp] theorem gives_overflow {t : List Deed} {a : α} : ¬overflow.Gives t a := by simp [Gives]

@[simp] theorem asks_request {c c' : Call} {t : List Deed} :
    (request c).Asks t c' ↔ t = [] ∧ c' = c := by
  constructor
  · rintro ⟨next, h⟩
    obtain ⟨rfl, hq⟩ | ⟨answer, u, rfl, hq⟩ := leads_call.1 h
    · injection hq with hc _
      exact ⟨rfl, hc⟩
    · cases answer <;> simp [ofExcept] at hq
  · rintro ⟨rfl, rfl⟩
    exact ⟨_, .start _⟩

@[simp] theorem gives_request {c : Call} {t : List Deed} {a : c.Reply} :
    (request c).Gives t a ↔ t = [.call c (.ok a)] := by
  constructor
  · intro h
    obtain ⟨rfl, hq⟩ | ⟨answer, u, rfl, hq⟩ := leads_call.1 h
    · cases hq
    · cases answer with
      | ok b =>
        obtain ⟨rfl, he⟩ := leads_done.1 hq
        injection he with he
        rw [he]
      | error e => simp [ofExcept] at hq
  · rintro rfl
    exact .call (.start _)

@[simp] theorem breaks_request {c : Call} {t : List Deed} {e : Failure} :
    (request c).Breaks t e ↔ t = [.call c (.error e)] := by
  constructor
  · intro h
    obtain ⟨rfl, hq⟩ | ⟨answer, u, rfl, hq⟩ := leads_call.1 h
    · cases hq
    · cases answer with
      | ok b => simp [ofExcept] at hq
      | error e' =>
        obtain ⟨rfl, he⟩ := leads_fail.1 hq
        injection he with he
        rw [he]
  · rintro rfl
    exact .call (.start _)

@[simp] theorem asks_inquire {c c' : Call} {t : List Deed} :
    (inquire c).Asks t c' ↔ t = [] ∧ c' = c := by
  constructor
  · rintro ⟨next, h⟩
    obtain ⟨rfl, hq⟩ | ⟨answer, u, rfl, hq⟩ := leads_call.1 h
    · injection hq with hc _
      exact ⟨rfl, hc⟩
    · simp at hq
  · rintro ⟨rfl, rfl⟩
    exact ⟨_, .start _⟩

@[simp] theorem gives_inquire {c : Call} {t : List Deed} {answer : c.Answer} :
    (inquire c).Gives t answer ↔ t = [.call c answer] := by
  constructor
  · intro h
    obtain ⟨rfl, hq⟩ | ⟨answer', u, rfl, hq⟩ := leads_call.1 h
    · cases hq
    · obtain ⟨rfl, he⟩ := leads_done.1 hq
      injection he with he
      rw [he]
  · rintro rfl
    exact .call (.start _)

@[simp] theorem asks_report {e : Event} {t : List Deed} {c : Call} : ¬(report e).Asks t c := by
  rintro ⟨next, h⟩
  obtain ⟨_, hq⟩ | ⟨u, _, hq⟩ := leads_announce.1 h <;> simp at hq

@[simp] theorem gives_report {e : Event} {t : List Deed} {u : Unit} :
    (report e).Gives t u ↔ t = [.event e] := by
  constructor
  · intro h
    obtain ⟨_, hq⟩ | ⟨u, rfl, hq⟩ := leads_announce.1 h
    · cases hq
    · rw [(leads_done.1 hq).1]
  · rintro rfl
    exact .announce (.start _)

@[simp] theorem asks_measure {m : Measurement} {t : List Deed} {c : Call} :
    ¬(measure m).Asks t c := by
  rintro ⟨next, h⟩
  obtain ⟨_, hq⟩ | ⟨u, _, hq⟩ := leads_count.1 h <;> simp at hq

@[simp] theorem gives_measure {m : Measurement} {t : List Deed} {u : Unit} :
    (measure m).Gives t u ↔ t = [.measurement m] := by
  constructor
  · intro h
    obtain ⟨_, hq⟩ | ⟨u, rfl, hq⟩ := leads_count.1 h
    · cases hq
    · rw [(leads_done.1 hq).1]
  · rintro rfl
    exact .count (.start _)

@[simp] theorem asks_ofExcept {x : Except Failure α} {t : List Deed} {c : Call} :
    ¬(ofExcept x).Asks t c := by cases x <;> simp [ofExcept]

@[simp] theorem gives_ofExcept {x : Except Failure α} {t : List Deed} {a : α} :
    (ofExcept x).Gives t a ↔ t = [] ∧ x = .ok a := by
  cases x <;> simp [ofExcept, eq_comm]

@[simp] theorem asks_ofTime {x : Option α} {t : List Deed} {c : Call} : ¬(ofTime x).Asks t c := by
  cases x <;> simp [ofTime]

@[simp] theorem gives_ofTime {x : Option α} {t : List Deed} {a : α} :
    (ofTime x).Gives t a ↔ t = [] ∧ x = some a := by
  cases x <;> simp [ofTime, eq_comm]

/-! ## Calls of one sort -/

/-- All calls that the pass can make are of this sort. -/
def Makes (P : Call → Prop) (p : Pass α) : Prop := ∀ t c, p.Asks t c → P c

variable {P : Call → Prop}

theorem Makes.mono {Q : Call → Prop} {p : Pass α} (h : p.Makes P) (hq : ∀ c, P c → Q c) :
    p.Makes Q := fun t c hc => hq c (h t c hc)

theorem makes_bind {p : Pass α} {f : α → Pass β} (hp : p.Makes P) (hf : ∀ a, (f a).Makes P) :
    (p.bind f).Makes P := by
  intro t c h
  obtain h | ⟨_, t₂, a, _, _, h⟩ := asks_bind.1 h
  · exact hp t c h
  · exact hf a t₂ c h

theorem makes_attempt {p : Pass α} (hp : p.Makes P) : p.attempt.Makes P :=
  fun t c h => hp t c (asks_attempt.1 h)

theorem makes_done (a : α) : (done a).Makes P := fun _ _ hc => absurd hc asks_done

theorem makes_fail (e : Failure) : (fail e : Pass α).Makes P := fun _ _ hc => absurd hc asks_fail

theorem makes_report (e : Event) : (report e).Makes P := fun _ _ hc => absurd hc asks_report

theorem makes_measure (m : Measurement) : (measure m).Makes P :=
  fun _ _ hc => absurd hc asks_measure

theorem makes_request {c : Call} (h : P c) : (request c).Makes P := by
  intro t c' h'
  rw [(asks_request.1 h').2]
  exact h

theorem makes_inquire {c : Call} (h : P c) : (inquire c).Makes P := by
  intro t c' h'
  rw [(asks_inquire.1 h').2]
  exact h

end Pass
end PreviewControl
