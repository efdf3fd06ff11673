import PreviewControl.Metrics
import PreviewControl.Proofs.Attempts
import PreviewControl.Proofs.Expiry

/-!
# What a cleanup pass requests, and what it counts

A cleanup pass requests the deletion of every record of the list whose time is up, one after the
other, and goes on whatever comes of a request. Its summary counts the requests and what has come of
them, and the gauges count the records of the list by their phase. Where no request has failed,
nothing whose time is up is left.
-/
namespace PreviewControl

open Pass

theorem Environment.isExpired_iff {env : Environment} {now : Instant} :
    env.isExpired now = true ↔ env.isPinned = false ∧ env.metadata.isDeleting = false ∧
      ∃ expiry, env.expiresAt? = some expiry ∧ expiry.before now = true := by
  unfold Environment.isExpired
  simp only [Bool.and_eq_true, Bool.not_eq_true', Option.any_eq_true]
  constructor
  · rintro ⟨⟨staying, unpinned⟩, past⟩
    exact ⟨unpinned, staying, past⟩
  · rintro ⟨unpinned, staying, past⟩
    exact ⟨⟨staying, unpinned⟩, past⟩

/-! ## Gauges -/

namespace Phase

/-- Where an environment can stand: in one of the phases, or nowhere yet. -/
def standings : List (Option Phase) := all.map some ++ [none]

theorem mem_standings (p : Option Phase) : p ∈ standings := by
  cases p with
  | none => decide
  | some p => cases p <;> decide

/-- What there is in all places together. -/
def total (f : Option Phase → Nat) : Nat := standings.foldr (fun p n => f p + n) 0

theorem total_add (f g : Option Phase → Nat) : total (fun p => f p + g p) = total f + total g := by
  simp only [total, standings, all, List.map_cons, List.map_nil, List.cons_append, List.nil_append,
    List.foldr_cons, List.foldr_nil]
  omega

theorem total_one (q : Option Phase) : total (fun p => if (q == p) = true then 1 else 0) = 1 := by
  cases q with
  | none => rfl
  | some q => cases q <;> rfl

/-- Each record stands in one place only, so that counting by places counts every record once. -/
theorem total_countP (envs : List Environment) :
    total (fun p => envs.countP (·.phase? == p)) = envs.length := by
  induction envs with
  | nil => rfl
  | cons env envs ih =>
    simp only [List.countP_cons]
    rw [total_add, ih, total_one, List.length_cons]

end Phase

namespace Measurement

/-- The series that a measurement belongs to. -/
def series (m : Measurement) : String × String := (m.instrument, m.label)

/-- Every phase has a gauge of its own. -/
theorem series_phaseCount {p q : Option Phase} {n k : Nat} :
    (phaseCount p n).series = (phaseCount q k).series ↔ p = q := by
  have apart : ∀ p ∈ Phase.standings, ∀ q ∈ Phase.standings,
      (phaseCount p 0).series = (phaseCount q 0).series → p = q := by decide +kernel
  exact ⟨apart p (Phase.mem_standings p) q (Phase.mem_standings q), fun h => h ▸ rfl⟩

end Measurement

namespace Metrics

variable {ms : Metrics} {m : Measurement} {series : String × String}

private theorem lookup_map_update (ms : Metrics) :
    (ms.map fun s => if s.1 = m.series then (s.1, m.update s.2) else s).lookup series =
      if series = m.series then (ms.lookup series).map m.update else ms.lookup series := by
  induction ms with
  | nil => split <;> rfl
  | cons s ms ih =>
    rw [List.map_cons, lookup_cons_if, lookup_cons_if, ih]
    by_cases hs : s.1 = m.series
    · rw [if_pos hs]
      by_cases hk : series = m.series
      · simp only [hk, hs, if_true, Option.map_some]
      · simp only [hk, hs, if_false]
    · rw [if_neg hs]
      by_cases hk : series = s.1
      · simp only [hk, hs, if_true, if_false]
      · simp only [hk, if_false]

/-- A measurement updates its own series and no other. -/
theorem value_enter : (ms.enter m).value series =
    if series = m.series then m.update (ms.value series) else ms.value series := by
  have hnew : (ms.enter m).lookup series =
      if series = m.series then some (m.update (ms.value series)) else ms.lookup series := by
    show (ite _ _ _ : Metrics).lookup series = _
    split
    · next hthere =>
      obtain ⟨before, hbefore⟩ := Option.isSome_iff_exists.1 hthere
      refine (lookup_map_update ms).trans ?_
      by_cases hk : series = m.series
      · rw [if_pos hk, if_pos hk, hk, value]
        simp only [Measurement.series, hbefore, Option.map_some, Option.getD_some]
      · rw [if_neg hk, if_neg hk]
    · next habsent =>
      have hnone : ms.lookup m.series = none := Option.not_isSome_iff_eq_none.1 habsent
      have hlast : ([(m.series, m.update 0)] : Metrics).lookup series =
          if series = m.series then some (m.update 0) else none := lookup_cons_if ..
      refine List.lookup_append.trans ((congrArg _ hlast).trans ?_)
      by_cases hk : series = m.series
      · rw [if_pos hk, if_pos hk, hk, value, hnone]
        rfl
      · rw [if_neg hk, if_neg hk, Option.or_none]
  rw [value, hnew]
  split <;> rfl

/-- The values after more measurements. -/
def enterAll (ms : Metrics) (more : List Measurement) : Metrics := more.foldl enter ms

/-- What is not measured stays as it is. -/
theorem value_enterAll_of_forall_ne {more : List Measurement}
    (other : ∀ m ∈ more, series ≠ m.series) :
    (ms.enterAll more).value series = ms.value series := by
  induction more generalizing ms with
  | nil => rfl
  | cons m more ih =>
    obtain ⟨hm, hmore⟩ := List.forall_mem_cons.1 other
    exact (ih hmore).trans (value_enter.trans (if_neg hm))

/-- The gauge of a phase. -/
def gauge (ms : Metrics) (p : Option Phase) : Nat := ms.value (Measurement.phaseCount p 0).series

/-- When several phases have been counted, the gauge of each of them shows what was counted. -/
theorem gauge_counted (f : Option Phase → Nat) {p : Option Phase} {phases : List (Option Phase)}
    (counted : p ∈ phases) :
    (ms.enterAll (phases.map fun q => .phaseCount q (f q))).gauge p = f p := by
  induction phases generalizing ms with
  | nil => cases counted
  | cons q phases ih =>
    by_cases hp : p ∈ phases
    · exact ih hp
    · obtain rfl : p = q := (List.mem_cons.1 counted).resolve_right hp
      have hother : ∀ m ∈ phases.map (fun q => Measurement.phaseCount q (f q)),
          (Measurement.phaseCount p 0).series ≠ m.series := by
        intro m hm heq
        obtain ⟨q, hq, rfl⟩ := List.mem_map.1 hm
        exact hp (Measurement.series_phaseCount.1 heq ▸ hq)
      refine (value_enterAll_of_forall_ne hother).trans (value_enter.trans (if_pos ?_))
      exact Measurement.series_phaseCount.2 rfl

end Metrics

/-! ## What a cleanup pass does -/

namespace Pass

variable {α : Type} {t : List Deed} {p q : Pass α}

/-- A measurement is not what comes next. -/
def Unmeasured (p : Pass α) : Prop := ∀ m next, p ≠ count m next

theorem leads_count_of_unmeasured {m : Measurement} (hq : q.Unmeasured) :
    (count m p).Leads t q ↔ ∃ u, t = .measurement m :: u ∧ p.Leads u q :=
  leads_count.trans (or_iff_right fun h => hq m p h.2)

theorem unmeasured_ending (o : Outcome α) : o.ending.Unmeasured := by
  intro m next h
  cases o <;> cases h

end Pass

def Deed.measurement? : Deed → Option Measurement
  | .measurement m => some m
  | _ => none

namespace Cleanup

open Store

/-- A record whose deletion has been requested, and what has come of it. -/
abbrev Attempt := Environment × Except Failure Unit

/-- What is counted of the answer to a request. -/
def mark : Except Failure Unit → Measurement
  | .ok () => .expiryRequested
  | .error e => .expiryFailed e.isRetryable

namespace Attempt

/-- The request itself and what is counted of it. -/
def deeds (a : Attempt) : List Deed :=
  [.call (.deleteEnvironment a.1.name (a.1.metadata.ns.getD "")) a.2, .measurement (mark a.2)]

def failed (a : Attempt) : Bool := !a.2.isOk

end Attempt

/-- The summary after one more request. -/
def Summary.enter (sum : Summary) : Except Failure Unit → Summary
  | .ok () => { sum with expired := sum.expired + 1, deleted := sum.deleted + 1 }
  | .error _ => { sum with expired := sum.expired + 1, failed := sum.failed + 1 }

/-- What the summary of a pass says of the records of its list and of its requests. -/
structure Tallied (envs : List Environment) (tried : List Attempt) (sum : Summary) : Prop where
  scanned : sum.scanned = envs.length
  expired : sum.expired = tried.length
  split : sum.expired = sum.deleted + sum.failed
  failed : sum.failed = tried.countP Attempt.failed

/-- What happens in a pass after its list has come. -/
def course (ns : String) (envs : List Environment) (tried : List Attempt) : List Deed :=
  .call (.listEnvironments ns) (.ok envs) ::
    ((phaseCounts envs).map .measurement ++ tried.flatMap Attempt.deeds)

variable {ns : String} {now : Instant} {env : Environment} {envs : List Environment}
  {sum : Summary} {t : List Deed}

theorem leads_measureAll {α : Type} {f : Unit → Pass α} {q : Pass α} {ms : List Measurement}
    (hq : q.Unmeasured) : ((measureAll ms).bind f).Leads t q ↔
      ∃ u, t = ms.map .measurement ++ u ∧ (f ()).Leads u q := by
  induction ms generalizing t with
  | nil => exact ⟨fun h => ⟨t, rfl, h⟩, fun ⟨_, ht, h⟩ => ht ▸ h⟩
  | cons m ms ih =>
    show (count m ((measureAll ms).bind f)).Leads t q ↔ _
    rw [leads_count_of_unmeasured hq]
    constructor
    · rintro ⟨u, rfl, h⟩
      obtain ⟨v, rfl, hv⟩ := ih.1 h
      exact ⟨v, rfl, hv⟩
    · rintro ⟨v, rfl, h⟩
      exact ⟨_, rfl, ih.2 ⟨v, rfl, h⟩⟩

/-- The summary after some requests. -/
def Summary.after (sum : Summary) (tried : List Attempt) : Summary :=
  tried.foldl (fun sum a => sum.enter a.2) sum

theorem expireAll_cons (sum : Summary) (env : Environment) (envs : List Environment) :
    expireAll sum (env :: envs) = call (.deleteEnvironment env.name (env.metadata.ns.getD ""))
      fun answer => count (mark answer) (expireAll (sum.enter answer) envs) := by
  refine congrArg (call _) (funext fun answer => ?_)
  cases answer <;> rfl

/-- The requests are made one after the other, whatever comes of each. -/
theorem leads_expireAll {q : Pass Summary} (hq : q.Unmeasured) :
    (expireAll sum envs).Leads t q ↔
      ∃ (tried : List Attempt) (rest : List Environment), tried.map Prod.fst ++ rest = envs ∧
        t = tried.flatMap Attempt.deeds ∧ q = expireAll (sum.after tried) rest := by
  induction envs generalizing sum t with
  | nil =>
    rw [expireAll, pure_eq, leads_done]
    constructor
    · rintro ⟨rfl, rfl⟩
      exact ⟨[], [], rfl, rfl, rfl⟩
    · rintro ⟨tried, rest, hnil, rfl, rfl⟩
      obtain ⟨htried, rfl⟩ := List.append_eq_nil_iff.1 hnil
      obtain rfl := List.map_eq_nil_iff.1 htried
      exact ⟨rfl, rfl⟩
  | cons env envs ih =>
    rw [expireAll_cons, leads_call]
    simp only [leads_count_of_unmeasured hq]
    constructor
    · rintro (⟨rfl, rfl⟩ | ⟨answer, _, rfl, u, rfl, h⟩)
      · exact ⟨[], env :: envs, rfl, rfl, (expireAll_cons sum env envs).symm⟩
      · obtain ⟨tried, rest, rfl, rfl, rfl⟩ := ih.1 h
        exact ⟨(env, answer) :: tried, rest, rfl, rfl, rfl⟩
    · rintro ⟨tried, rest, hall, rfl, rfl⟩
      cases tried with
      | nil =>
        obtain rfl : rest = env :: envs := hall
        exact .inl ⟨rfl, expireAll_cons sum env envs⟩
      | cons a tried =>
        obtain ⟨rfl, rfl⟩ := List.cons.inj hall
        exact .inr ⟨a.2, _, rfl, _, rfl, ih.2 ⟨tried, rest, rfl, rfl, rfl⟩⟩

/-- Between its measurements a pass is in one of three states: at its beginning, at an end with a
list that has failed, or before the rest of its requests. -/
theorem leads_pass {q : Pass Summary} (hq : q.Unmeasured) : (pass ns now).Leads t q ↔
    (t = [] ∧ q = pass ns now) ∨
    (∃ e, t = [.call (.listEnvironments ns) (.error e)] ∧ q = fail e) ∨
    ∃ (envs : List Environment) (tried : List Attempt) (rest : List Environment),
      tried.map Prod.fst ++ rest = envs.filter (fun env => env.isExpired now) ∧
      t = course ns envs tried ∧
      q = expireAll (Summary.after { scanned := envs.length } tried) rest := by
  have hcall : pass ns now = call (.listEnvironments ns) fun answer =>
      (ofExcept answer).bind fun envs => (measureAll (phaseCounts envs)).bind fun _ =>
        expireAll { scanned := envs.length } (envs.filter fun env => env.isExpired now) := rfl
  rw [hcall, leads_call]
  refine or_congr_right ?_
  constructor
  · rintro ⟨answer, u, rfl, h⟩
    cases answer with
    | error e =>
      obtain ⟨rfl, rfl⟩ := leads_fail.1 h
      exact .inl ⟨e, rfl, rfl⟩
    | ok envs =>
      obtain ⟨v, rfl, hv⟩ := (leads_measureAll hq).1 h
      obtain ⟨tried, rest, hdue, rfl, rfl⟩ := (leads_expireAll hq).1 hv
      exact .inr ⟨envs, tried, rest, hdue, rfl, rfl⟩
  · rintro (⟨e, rfl, rfl⟩ | ⟨envs, tried, rest, hdue, rfl, rfl⟩)
    · exact ⟨.error e, [], rfl, .start _⟩
    · refine ⟨.ok envs, _, rfl, (leads_measureAll hq).2 ⟨_, rfl, ?_⟩⟩
      exact (leads_expireAll hq).2 ⟨tried, rest, hdue, rfl, rfl⟩

/-- Every request counts, and it counts as one that has succeeded or as one that has failed. -/
theorem Summary.after_eq (tried : List Attempt) (sum : Summary) : sum.after tried =
    { sum with
      expired := sum.expired + tried.length
      deleted := sum.deleted + tried.countP (!·.failed)
      failed := sum.failed + tried.countP Attempt.failed } := by
  induction tried generalizing sum with
  | nil => rfl
  | cons a tried ih =>
    obtain ⟨env, answer⟩ := a
    refine (ih _).trans ?_
    cases answer with
    | ok =>
      have hfailed : Attempt.failed (env, .ok ()) = false := rfl
      simp [Summary.enter, hfailed, Nat.add_assoc, Nat.add_comm 1]
    | error e =>
      have hfailed : Attempt.failed (env, .error e) = true := rfl
      simp [Summary.enter, hfailed, Nat.add_assoc, Nat.add_comm 1]

theorem tallied_iff {tried : List Attempt} : Tallied envs tried sum ↔
    sum = Summary.after { scanned := envs.length } tried := by
  have hall : tried.length = tried.countP Attempt.failed + tried.countP (!·.failed) := by
    rw [List.length_eq_countP_add_countP Attempt.failed]
    simp
  rw [Summary.after_eq]
  constructor
  · intro ⟨hscanned, hexpired, hsplit, hfailed⟩
    cases sum
    simp only at hscanned hexpired hsplit hfailed
    simp only [Summary.mk.injEq]
    omega
  · rintro rfl
    refine ⟨rfl, ?_, ?_, ?_⟩ <;> simp only <;> omega

/-- If the list fails, that is all. Else the deletion of the records of the list whose time is up is
requested, one after the other. -/
theorem leads_ending_pass {o : Outcome Summary} : (pass ns now).Leads t o.ending ↔
    (∃ e, t = [.call (.listEnvironments ns) (.error e)] ∧ o = .failed e) ∨
    ∃ (envs : List Environment) (tried : List Attempt) (sum : Summary),
      tried.map Prod.fst = envs.filter (fun env => env.isExpired now) ∧
      t = course ns envs tried ∧ o = .done sum ∧ Tallied envs tried sum := by
  rw [leads_pass (unmeasured_ending o)]
  constructor
  · rintro (⟨_, ho⟩ | ⟨e, rfl, ho⟩ | ⟨envs, tried, rest, hdue, rfl, ho⟩)
    · cases o <;> cases ho
    · have ho : o.ending = (Outcome.failed e).ending := ho
      exact .inl ⟨e, rfl, Outcome.ending_inj ho⟩
    · cases rest with
      | nil =>
        rw [List.append_nil] at hdue
        have ho : o.ending = (Outcome.done _).ending := ho
        exact .inr ⟨envs, tried, _, hdue, rfl, Outcome.ending_inj ho, tallied_iff.2 rfl⟩
      | cons env rest =>
        rw [expireAll_cons] at ho
        cases o <;> cases ho
  · rintro (⟨e, rfl, rfl⟩ | ⟨envs, tried, sum, hdue, rfl, rfl, htally⟩)
    · exact .inr (.inl ⟨e, rfl, rfl⟩)
    · refine .inr (.inr ⟨envs, tried, [], ?_, rfl, ?_⟩)
      · rw [List.append_nil, hdue]
      · rw [tallied_iff.1 htally]
        rfl

/-- A pass asks for the list first and then for the deletion of one record after the other. -/
theorem asks_pass {c : Call} : (pass ns now).Asks t c ↔ (t = [] ∧ c = .listEnvironments ns) ∨
    ∃ (envs : List Environment) (tried : List Attempt) (env : Environment)
      (rest : List Environment),
      tried.map Prod.fst ++ env :: rest = envs.filter (fun env => env.isExpired now) ∧
      t = course ns envs tried ∧
      c = .deleteEnvironment env.name (env.metadata.ns.getD "") := by
  have hcall : ∀ next : c.Answer → Pass Summary, (call c next).Unmeasured :=
    fun _ _ _ h => nomatch h
  constructor
  · rintro ⟨next, h⟩
    obtain ⟨rfl, h⟩ | ⟨e, _, h⟩ | ⟨envs, tried, rest, hdue, rfl, h⟩ := (leads_pass (hcall next)).1 h
    · cases h
      exact .inl ⟨rfl, rfl⟩
    · cases h
    · cases rest with
      | nil => cases h
      | cons env rest =>
        rw [expireAll_cons] at h
        cases h
        exact .inr ⟨envs, tried, env, rest, hdue, rfl, rfl⟩
  · rintro (⟨rfl, rfl⟩ | ⟨envs, tried, env, rest, hdue, rfl, rfl⟩)
    · exact ⟨_, .start _⟩
    · exact ⟨_, (leads_pass (hcall _)).2
        (.inr (.inr ⟨envs, tried, env :: rest, hdue, rfl, (expireAll_cons _ env rest).symm⟩))⟩

/-! ## What the gauges show -/

/-- The values after a trace. -/
def readings (ms : Metrics) (t : List Deed) : Metrics := ms.enterAll (t.filterMap Deed.measurement?)

theorem phaseCounts_eq (envs : List Environment) : phaseCounts envs =
    Phase.standings.map fun p => .phaseCount p (envs.countP (·.phase? == p)) := rfl

theorem measurements_attempts (tried : List Attempt) :
    (tried.flatMap Attempt.deeds).filterMap Deed.measurement? = tried.map fun a => mark a.2 := by
  induction tried with
  | nil => rfl
  | cons a tried ih => exact congrArg (mark a.2 :: ·) ih

theorem measurements_course (ns : String) (envs : List Environment) (tried : List Attempt) :
    (course ns envs tried).filterMap Deed.measurement? =
      phaseCounts envs ++ tried.map fun a => mark a.2 := by
  rw [course, List.filterMap_cons_none rfl, List.filterMap_append, measurements_attempts,
    List.filterMap_map]
  exact congrArg (· ++ _) List.filterMap_some

/-- The requests leave the gauges alone. -/
theorem series_phaseCount_ne_mark (p : Option Phase) (answer : Except Failure Unit) :
    (Measurement.phaseCount p 0).series ≠ (mark answer).series := by
  have hinstrument : (mark answer).instrument ≠ (Measurement.phaseCount p 0).instrument := by
    cases answer <;> simp [mark, Measurement.instrument]
  exact fun heq => hinstrument (congrArg Prod.fst heq).symm

/-- In the end the gauge of each phase shows how many records of the list were in it. -/
theorem gauge_course (ms : Metrics) (p : Option Phase) (tried : List Attempt) :
    (readings ms (course ns envs tried)).gauge p = envs.countP (·.phase? == p) := by
  have hmarks : ∀ m ∈ tried.map (fun a => mark a.2),
      (Measurement.phaseCount p 0).series ≠ m.series := by
    intro m hm
    obtain ⟨a, _, rfl⟩ := List.mem_map.1 hm
    exact series_phaseCount_ne_mark p a.2
  rw [readings, measurements_course, Metrics.enterAll, List.foldl_append]
  refine (Metrics.value_enterAll_of_forall_ne hmarks).trans ?_
  rw [phaseCounts_eq]
  exact Metrics.gauge_counted _ (Phase.mem_standings p)

/-! ## What is left -/

/-- There is nothing under the key but what is on its way out. -/
def Leaving (key : RecordKey) (s : Store) : Prop :=
  ∀ env, s.record? key = some env → env.metadata.isDeleting = true

theorem leaving_deleteRecord (key : RecordKey) (s : Store) : Leaving key (s.deleteRecord key) := by
  intro env henv
  unfold deleteRecord at henv
  cases hr : s.record? key with
  | none =>
    simp only [hr] at henv
    cases henv
  | some stored =>
    simp only [hr] at henv
    split at henv
    · rw [record?_eraseRecord, if_pos rfl] at henv
      cases henv
    · split at henv
      · next hdeleting => exact Option.some.inj (hr.symm.trans henv) ▸ hdeleting
      · rw [record?_revise, if_pos rfl] at henv
        exact Option.some.inj henv ▸ rfl

theorem lasting_leaving (key : RecordKey) : Lasting (Leaving key) :=
  lasting_record (P := fun r => ∀ env, r = some env → env.metadata.isDeleting = true) fun s _ =>
    leaving_deleteRecord key s

/-- There is nothing under the key whose time is up and that is stored there as its own. -/
def Spent (now : Instant) (key : RecordKey) (s : Store) : Prop :=
  ∀ env, s.record? key = some env → env.key = key → env.isExpired now = false

theorem Leaving.spent {key : RecordKey} {s : Store} (h : Leaving key s) : Spent now key s := by
  intro env henv _
  refine Bool.eq_false_iff.2 fun hexpired => ?_
  have hstaying := (Environment.isExpired_iff.1 hexpired).2.1
  rw [h env henv] at hstaying
  cases hstaying

theorem lasting_spent (now : Instant) (key : RecordKey) : Lasting (Spent now key) :=
  lasting_record (P := fun r => ∀ env, r = some env → env.key = key → env.isExpired now = false)
    fun s _ => (leaving_deleteRecord key s).spent

/-- After a pass in which no request fails, the time of no record of the namespace is up. -/
theorem pass_spends {s : Store} (done : (pass ns now).outcome s = .done sum)
    (requested : sum.failed = 0) (there : ((pass ns now).after s).record? env.key = some env)
    (among : env.key.ns = ns) : env.isExpired now = false := by
  subst among
  suffices h : Spent now env.key ((pass env.key.ns now).after s) from h env there rfl
  obtain ⟨envs, hlist, hrest⟩ := of_bind_done done
  obtain ⟨⟨⟩, hmeasured, hrest⟩ := of_bind_done hrest
  obtain rfl := listed_of_done hlist
  have hwhole : (pass env.key.ns now).after s = _ :=
    (after_bind_done hlist).trans (after_bind_done hmeasured)
  by_cases hspent : Spent now env.key s
  · exact (lasting_spent now env.key).after (makes_pass _ _) hspent
  · -- Else the record of this name is on the list.
    simp only [Spent, not_forall] at hspent
    obtain ⟨due, hdue, hkey, hexpired⟩ := hspent
    have hlisted : due ∈ (s.recordsIn env.key.ns).filter (·.isExpired now) := by
      have hmem := mem_recordsIn (hkey.symm ▸ hdue)
      rw [hkey] at hmem
      exact List.mem_filter.2 ⟨hmem, Bool.not_eq_false _ ▸ hexpired⟩
    have always : Lasting fun _ => True := ⟨fun _ _ _ => trivial, fun _ _ => trivial⟩
    have hleft : Leaving due.key _ := expireAll_brings always (lasting_leaving due.key)
      (fun s _ => leaving_deleteRecord due.key s) hlisted trivial hrest requested
    rw [hwhole]
    exact (hkey ▸ hleft).spent

/-- A cleanup pass is exact. Whatever the cluster answers, the pass requests that precisely the
records go that are not exempt, not on their way out and past their expiry, each once and in the
order of the list, and nothing that fails keeps it from the others. The summary tells how many
records there were, how many requests have been made and how many of them have failed, and every
record of the list shows in the gauge of its own phase. If the list fails, the pass fails with it
and requests nothing. If nothing fails, no record of the namespace is left whose time is up. -/
theorem pass_exact (ns : String) (now : Instant) :
    (∀ env : Environment, env.isExpired now = true ↔
      env.isPinned = false ∧ env.metadata.isDeleting = false ∧
        ∃ expiry, env.expiresAt? = some expiry ∧ expiry.before now = true) ∧
    (∀ (t : List Deed) (o : Outcome Summary), (pass ns now).Leads t o.ending ↔
      (∃ e, t = [.call (.listEnvironments ns) (.error e)] ∧ o = .failed e) ∨
      ∃ (envs : List Environment) (tried : List Attempt) (sum : Summary),
        tried.map Prod.fst = envs.filter (fun env => env.isExpired now) ∧
        t = course ns envs tried ∧ o = .done sum ∧ Tallied envs tried sum) ∧
    (∀ (ms : Metrics) (envs : List Environment) (tried : List Attempt),
      (∀ p, (readings ms (course ns envs tried)).gauge p = envs.countP (·.phase? == p)) ∧
      Phase.total (readings ms (course ns envs tried)).gauge = envs.length) ∧
    (∀ (s : Store) (sum : Summary), (pass ns now).outcome s = .done sum → sum.failed = 0 →
      ∀ env : Environment, ((pass ns now).after s).record? env.key = some env →
        env.key.ns = ns → env.isExpired now = false) := by
  refine ⟨fun env => Environment.isExpired_iff, fun t o => leads_ending_pass,
    fun ms envs tried => ⟨fun p => gauge_course ms p tried, ?_⟩,
    fun s sum done requested env there among => pass_spends done requested there among⟩
  rw [← Phase.total_countP envs]
  exact congrArg Phase.total (funext fun p => gauge_course ms p tried)

/-- The stale record and another one of its kind. -/
def staleOnes : List Environment :=
  [stale, { stale with metadata := { stale.metadata with name := some "store" } }]

/-- Of the two requests for their deletion the first one fails. -/
def staleTries : List Attempt := staleOnes.zip [.error Reconcile.reset, .ok ()]

/-- The second request is made all the same. -/
theorem pass_exact_outlived :
    (pass "previews" Reconcile.nextTurn).Gives (course "previews" staleOnes staleTries)
      { scanned := 2, expired := 2, deleted := 1, failed := 1 } ∧
    (readings [] (course "previews" staleOnes staleTries)).gauge none = 2 ∧
    stale.isExpired Reconcile.nextTurn = true ∧
    ∀ env : Environment,
      ((pass "previews" Reconcile.nextTurn).after outlived).record? env.key = some env →
        env.key.ns = "previews" → env.isExpired Reconcile.nextTurn = false := by
  have hall : ∀ env ∈ staleOnes, env.isExpired Reconcile.nextTurn = true := by decide +kernel
  obtain ⟨hdue, htrace, hgauge, hleft⟩ := pass_exact "previews" Reconcile.nextTurn
  refine ⟨(htrace _ (.done _)).2 (.inr ⟨staleOnes, staleTries, _, ?_, rfl, rfl, ?_⟩), ?_, ?_,
    hleft outlived { scanned := 1, expired := 1, deleted := 1, failed := 0 } rfl rfl⟩
  · exact (List.filter_eq_self.2 hall).symm
  · exact ⟨rfl, rfl, rfl, rfl⟩
  · exact ((hgauge [] staleOnes staleTries).1 none).trans (by decide +kernel)
  · exact (hdue stale).2 ⟨by decide +kernel, rfl, default, rfl, by decide +kernel⟩

end Cleanup
end PreviewControl
