import Mathlib.Data.Nat.Find
import Mathlib.Order.Monotone.Basic
import PreviewControl.Cleanup.Schedule
import PreviewControl.Proofs.Tally

/-!
# The cleanup loop never gives up

The cleanup loop makes one pass at every tick of its timer before it is cancelled, whatever has come
of the passes before, and ends after that. So a record whose time is up is requested to go again and
again, as long as it is listed.
-/
namespace PreviewControl

namespace Cleanup

/-! ## Ticks -/

section Ticks

variable {interval cancelled n k : Nat} {lasts : Nat → Nat}

/-- The time of each tick, when the pass that starts at a time lasts so many seconds. A tick that
comes due during a pass is served late and moves all later ones. -/
def tick (interval : Nat) (lasts : Nat → Nat) : Nat → Nat
  | 0 => 0
  | k + 1 => max (tick interval lasts k + interval)
      (tick interval lasts k + lasts (tick interval lasts k))

/-- The time at which the first passes have come to an end. -/
def finish (interval : Nat) (lasts : Nat → Nat) : Nat → Nat
  | 0 => 0
  | k + 1 => tick interval lasts k + lasts (tick interval lasts k)

theorem strictMono_tick (positive : 0 < interval) : StrictMono (tick interval lasts) := by
  refine strictMono_nat_of_lt_succ fun k => ?_
  rw [tick]
  omega

theorem le_tick (positive : 0 < interval) (k : Nat) : k ≤ tick interval lasts k := by
  induction k with
  | zero => exact Nat.zero_le _
  | succ k ih =>
    rw [tick]
    omega

/-- Only so many ticks come before the cancellation. -/
theorem exists_count (positive : 0 < interval) (lasts : Nat → Nat) (cancelled : Nat) :
    ∃ n, ∀ k, k < n ↔ tick interval lasts k < cancelled := by
  have hlate : ∃ n, cancelled ≤ tick interval lasts n := ⟨cancelled, le_tick positive cancelled⟩
  refine ⟨Nat.find hlate, fun k => ⟨fun hk => Nat.not_le.1 (Nat.find_min hlate hk), fun hk => ?_⟩⟩
  have hlast := Nat.find_spec hlate
  exact (strictMono_tick positive).lt_iff_lt.1 (Nat.lt_of_lt_of_le hk hlast)

/-- Without delay the ticks are the multiples of the interval. -/
theorem tick_of_prompt (prompt : ∀ start, lasts start = 0) (k : Nat) :
    tick interval lasts k = k * interval := by
  induction k with
  | zero => rw [tick, Nat.zero_mul]
  | succ k ih =>
    rw [tick, prompt, ih, Nat.succ_mul]
    omega

end Ticks

/-! ## The loop -/

section Loop

variable {m : Type → Type} [Monad m] {interval cancelled due clock : Nat} {positive : 0 < interval}
  {pass : Nat → m Nat}

theorem loop_of_lt (h : max due clock < cancelled) :
    loop interval cancelled positive pass due clock = (do
      let finished ← pass (max due clock)
      loop interval cancelled positive pass (max due clock + interval) finished) := by
  rw [loop]
  exact dif_pos h

theorem loop_of_le (h : cancelled ≤ max due clock) :
    loop interval cancelled positive pass due clock = pure (max cancelled clock) := by
  rw [loop]
  exact dif_neg (Nat.not_lt.2 h)

end Loop

end Cleanup

namespace Pass

variable {α β : Type} {p : Pass α} {f : α → Pass β} {t : List Deed} {o : Outcome β}

/-- A whole trace of two passes in a row, of which the first one always has a result, goes on from
this result. -/
theorem leads_ending_bind (returns : ∀ t o, p.Leads t (Outcome.ending o) → ∃ a, o = .done a) :
    (p.bind f).Leads t o.ending ↔
      ∃ u v a, t = u ++ v ∧ p.Gives u a ∧ (f a).Leads v o.ending := by
  constructor
  · intro h
    rcases leads_bind.1 h with ⟨q, hq, he⟩ | hrest
    · cases q with
      | done a => exact ⟨t, [], a, (List.append_nil t).symm, hq, leads_nil.2 he.symm⟩
      | fail e =>
        obtain ⟨a, ha⟩ := returns t (.failed e) hq
        cases ha
      | overflow =>
        obtain ⟨a, ha⟩ := returns t .overflow hq
        cases ha
      | call | announce | count => cases o <;> cases he
    · exact hrest
  · rintro ⟨u, v, a, rfl, ha, hv⟩
    exact (Leads.bind ha f).trans hv

end Pass

namespace Cleanup

open Pass

/-! ## Passes -/

variable {ns : String} {now : Instant} {env : Environment} {envs : List Environment}
  {t : List Deed} {clock : Nat → Instant} {lasts : Nat → Nat}

/-- A whole pass, whatever comes of it. -/
def Whole (ns : String) (now : Instant) (course : List Deed) : Prop :=
  ∃ result, (pass ns now).Leads course (Outcome.ending result)

/-- One pass of the loop: it judges expiry by the time at which it starts, and what comes of it does
not count. -/
def attend (ns : String) (clock : Nat → Instant) (lasts : Nat → Nat) (start : Nat) : Pass Nat :=
  (pass ns (clock start)).attempt.bind fun _ => .done (start + lasts start)

theorem neverOverflows_pass : (pass ns now).NeverOverflows := by
  intro t h
  rcases (leads_ending_pass (o := .overflow)).1 h with ⟨_, _, ho⟩ | ⟨_, _, _, _, _, ho, _⟩ <;>
    cases ho

theorem leads_ending_attempt {o : Outcome (Except Failure Summary)} :
    (pass ns now).attempt.Leads t o.ending ↔
      ∃ result, (pass ns now).Leads t (Outcome.ending result) ∧ o = result.attempt := by
  constructor
  · intro h
    obtain ⟨q, hq, he⟩ := leads_attempt.1 h
    cases q with
    | done sum => exact ⟨.done sum, hq, Outcome.ending_inj he⟩
    | fail e => exact ⟨.failed e, hq, Outcome.ending_inj he⟩
    | overflow => exact absurd hq (neverOverflows_pass t)
    | call | announce | count => cases o <;> cases he
  · rintro ⟨result, h, rfl⟩
    have hcaught := h.attempt
    cases result <;> exact hcaught

/-- A pass of the loop comes to its end, whatever comes of it. -/
theorem leads_ending_attend {start : Nat} {o : Outcome Nat} :
    (attend ns clock lasts start).Leads t o.ending ↔
      Whole ns (clock start) t ∧ o = .done (start + lasts start) := by
  have returns : ∀ t o, (pass ns (clock start)).attempt.Leads t (Outcome.ending o) →
      ∃ x, o = .done x := by
    intro t o h
    obtain ⟨result, hresult, rfl⟩ := leads_ending_attempt.1 h
    cases result with
    | done | failed => exact ⟨_, rfl⟩
    | overflow => exact absurd hresult (neverOverflows_pass t)
  rw [attend, leads_ending_bind returns]
  constructor
  · rintro ⟨u, v, x, rfl, hx, hv⟩
    obtain ⟨result, hresult, _⟩ := (leads_ending_attempt (o := .done x)).1 hx
    obtain ⟨rfl, ho⟩ := leads_done.1 hv
    rw [List.append_nil]
    exact ⟨⟨result, hresult⟩, Outcome.ending_inj ho⟩
  · rintro ⟨⟨result, h⟩, rfl⟩
    have hcaught := leads_ending_attempt.2 ⟨result, h, rfl⟩
    obtain ⟨x, hx⟩ := returns t _ hcaught
    rw [hx] at hcaught
    exact ⟨t, [], x, (List.append_nil t).symm, hcaught, .start _⟩

/-- In a whole pass every record of the list whose time is up is requested to go. -/
theorem Whole.requests (whole : Whole ns now t)
    (listed : .call (.listEnvironments ns) (.ok envs) ∈ t) (mem : env ∈ envs)
    (due : env.isExpired now = true) : ∃ answer,
      .call (.deleteEnvironment env.name (env.metadata.ns.getD "")) answer ∈ t := by
  obtain ⟨o, h⟩ := whole
  rcases leads_ending_pass.1 h with ⟨e, rfl, _⟩ | ⟨listing, tried, _, hdue, rfl, _, _⟩
  · simp at listed
  · have hsame : envs = listing := by
      rcases List.mem_cons.1 listed with heq | hlater
      · cases heq
        rfl
      · rcases List.mem_append.1 hlater with hm | hm
        · obtain ⟨m, _, hm⟩ := List.mem_map.1 hm
          cases hm
        · obtain ⟨a, _, hm⟩ := List.mem_flatMap.1 hm
          simp [Attempt.deeds] at hm
    subst hsame
    have hmem : env ∈ tried.map Prod.fst := hdue ▸ List.mem_filter.2 ⟨mem, due⟩
    obtain ⟨a, ha, rfl⟩ := List.mem_map.1 hmem
    refine ⟨a.2, List.mem_cons_of_mem _ (List.mem_append_right _ ?_)⟩
    exact List.mem_flatMap.2 ⟨a, ha, List.mem_cons_self⟩

/-! ## All passes of the loop -/

variable {interval cancelled n : Nat} {positive : 0 < interval}

/-- From one of its ticks on, the loop makes one pass after the other. -/
theorem leads_loop (count : ∀ k, k < n ↔ tick interval lasts k < cancelled) {left k due : Nat}
    (hleft : k + left = n) (next : max due (finish interval lasts k) = tick interval lasts k)
    {o : Outcome Nat} :
    (loop interval cancelled positive (attend ns clock lasts) due (finish interval lasts k)).Leads
        t o.ending ↔
      ∃ courses, List.Forall₂ (fun start course => Whole ns (clock start) course)
          ((List.range' k left).map (tick interval lasts)) courses ∧
        t = courses.flatten ∧ o = .done (max cancelled (finish interval lasts n)) := by
  induction left generalizing k due t with
  | zero =>
    obtain rfl : k = n := hleft
    have hlate : ¬tick interval lasts k < cancelled := mt (count k).2 (Nat.lt_irrefl k)
    rw [loop_of_le (next ▸ Nat.not_lt.1 hlate)]
    constructor
    · intro h
      obtain ⟨rfl, ho⟩ := leads_done.1 h
      exact ⟨[], .nil, rfl, Outcome.ending_inj ho⟩
    · rintro ⟨courses, hall, rfl, rfl⟩
      cases hall
      exact .start _
  | succ left ih =>
    have hopen : tick interval lasts k < cancelled := (count k).1 (by omega)
    have hnext : max (tick interval lasts k + interval) (finish interval lasts (k + 1)) =
        tick interval lasts (k + 1) := rfl
    have returns : ∀ t o, (attend ns clock lasts (tick interval lasts k)).Leads t
        (Outcome.ending o) → ∃ a, o = .done a := fun t o h => ⟨_, (leads_ending_attend.1 h).2⟩
    rw [loop_of_lt (next ▸ hopen), next, bind_eq, leads_ending_bind returns, List.range'_succ,
      List.map_cons]
    constructor
    · rintro ⟨u, v, stop, rfl, hu, hv⟩
      obtain ⟨whole, hstop⟩ := (leads_ending_attend (o := .done stop)).1 hu
      cases hstop
      obtain ⟨courses, hall, rfl, ho⟩ := (ih (by omega) hnext).1 hv
      exact ⟨u :: courses, .cons whole hall, rfl, ho⟩
    · rintro ⟨courses, hall, rfl, rfl⟩
      cases hall with
      | @cons _ u _ courses whole hall =>
        have hu : (attend ns clock lasts (tick interval lasts k)).Gives u
            (finish interval lasts (k + 1)) :=
          (leads_ending_attend (o := .done _)).2 ⟨whole, rfl⟩
        exact ⟨u, _, _, rfl, hu, (ih (by omega) hnext).2 ⟨courses, hall, rfl, rfl⟩⟩

/-! ## The loop over a cluster -/

/-- The time that a clock shows when it has counted so many seconds from its origin. -/
def clockFrom (origin : Instant) (start : Nat) : Instant := (origin.add? start).getD origin

theorem seconds_clockFrom {origin : Instant} {start : Nat}
    (within : origin.seconds + start ≤ Instant.lastSecond) :
    (clockFrom origin start).seconds = origin.seconds + start := by
  unfold clockFrom
  cases hadd : origin.add? start with
  | none =>
    have hlate := Instant.add?_eq_none.1 hadd
    omega
  | some now => exact Instant.seconds_add? hadd

/-- In a pass only the list takes time. -/
theorem after_pass_clock (ns : String) (now : Instant) (s : Store) :
    ((pass ns now).after s).listSeconds = s.listSeconds ∧
      ((pass ns now).after s).now = clockFrom s.now s.listSeconds := by
  have hcall : pass ns now = call (.listEnvironments ns) fun answer =>
      (ofExcept answer).bind fun envs => (measureAll (phaseCounts envs)).bind fun _ =>
        expireAll { scanned := envs.length } (envs.filter fun env => env.isExpired now) := rfl
  have hlater : ∀ answer, ((ofExcept answer).bind fun envs =>
      (measureAll (phaseCounts envs)).bind fun _ => expireAll { scanned := envs.length }
        (envs.filter fun env => env.isExpired now)).Makes fun c => c.takesTime = false := by
    intro answer u c hlast
    obtain ⟨next, h⟩ := hlast
    have hasks : (pass ns now).Asks (.call (.listEnvironments ns) answer :: u) c :=
      ⟨next, hcall ▸ .call h⟩
    rcases asks_pass.1 hasks with ⟨hnil, _⟩ | ⟨_, _, env, _, _, _, rfl⟩
    · cases hnil
    · rfl
  obtain ⟨hnow, hlist⟩ := s.answer_clock (.listEnvironments ns)
  rw [hcall, after, observe_call]
  refine (hlater _).preserves (Q := fun left => left.listSeconds = s.listSeconds ∧
    left.now = clockFrom s.now s.listSeconds) (fun left c hc hleft => ?_) ⟨hlist, hnow⟩
  obtain ⟨hl, hn⟩ := hleft
  obtain ⟨hnow, hlist⟩ := left.answer_clock c
  rw [Store.spend_eq hc] at hnow
  exact ⟨hlist.trans hl, hnow.trans hn⟩

/-- The cluster at the start of a pass of the loop. -/
def begun (origin : Instant) (start : Nat) (s : Store) : Store :=
  { s with now := clockFrom origin start }

theorem run_scheduledPass (origin : Instant) (start : Nat) (s : Store) (hs : List Happening) :
    let p := pass ns (clockFrom origin start)
    let left := p.after (begun origin start s)
    (scheduledPass ns origin start).run ⟨s, hs⟩ =
      (((left.now.seconds - origin.seconds).toNat,
        ⟨left, (p.happenings (begun origin start s)).reverse ++ hs⟩) : Id (Nat × Simulation)) := by
  intro p left
  have hrun : (scheduledPass ns origin start).run ⟨s, hs⟩ =
      (((Simulation.follow p).run ⟨begun origin start s, hs⟩ : Id _) >>= fun r =>
        (pure ((r.2.store.now.seconds - origin.seconds).toNat, r.2) : Id _)) := rfl
  rw [hrun, follow_run]
  rfl

/-- A pass of the loop over a cluster does what a pass of the loop does that is answered so. -/
theorem leads_scheduledPass (ns : String) {origin : Instant} {start : Nat} {s : Store}
    (within : origin.seconds + start + s.listSeconds ≤ Instant.lastSecond) (hs : List Happening) :
    ∃ (u : List Happening) (left : Store), left.listSeconds = s.listSeconds ∧
      (scheduledPass ns origin start).run ⟨s, hs⟩ =
        ((start + s.listSeconds, ⟨left, u.reverse ++ hs⟩) : Id (Nat × Simulation)) ∧
      (attend ns (clockFrom origin) (fun _ => s.listSeconds) start).Gives (u.map Happening.deed)
        (start + s.listSeconds) := by
  obtain ⟨hlist, hnow⟩ := after_pass_clock ns (clockFrom origin start) (begun origin start s)
  have hstart : (clockFrom origin start).seconds = origin.seconds + start :=
    seconds_clockFrom (by omega)
  have hfinish : ((pass ns (clockFrom origin start)).after (begun origin start s)).now.seconds =
      origin.seconds + start + s.listSeconds := by
    rw [hnow]
    refine (seconds_clockFrom ?_).trans (congrArg (· + _) hstart)
    show (clockFrom origin start).seconds + s.listSeconds ≤ _
    omega
  refine ⟨(pass ns (clockFrom origin start)).happenings (begun origin start s), _, hlist,
    (run_scheduledPass origin start s hs).trans ?_, ?_⟩
  · have helapsed : (origin.seconds + start + s.listSeconds - origin.seconds).toNat =
        start + s.listSeconds := by omega
    rw [hfinish, helapsed]
  · have whole : Whole ns (clockFrom origin start) _ :=
      ⟨_, leads_happenings (pass ns (clockFrom origin start)) (begun origin start s)⟩
    exact (leads_ending_attend (o := .done _)).2 ⟨whole, rfl⟩

/-- The loop over a cluster does what the loop does that is answered so. -/
theorem leads_scheduled (ns : String) (positive : 0 < interval) {origin : Instant}
    (due clock : Nat) {seconds : Nat} {s : Store}
    (within : origin.seconds + cancelled + seconds ≤ Instant.lastSecond)
    (hlist : s.listSeconds = seconds) (hs : List Happening) :
    ∃ (stop : Nat) (u : List Happening) (left : Store),
      (loop interval cancelled positive (scheduledPass ns origin) due clock).run ⟨s, hs⟩ =
        ((stop, ⟨left, u.reverse ++ hs⟩) : Id (Nat × Simulation)) ∧
      (loop interval cancelled positive (attend ns (clockFrom origin) fun _ => seconds) due
        clock).Gives (u.map Happening.deed) stop := by
  induction due, clock using loop.induct interval cancelled positive generalizing s hs with
  | case1 due clock served hopen =>
    rename_i ih
    subst hlist
    have reach : origin.seconds + (max due clock : Nat) + s.listSeconds ≤ Instant.lastSecond := by
      omega
    obtain ⟨u, left, hkept, hrun, hgives⟩ := leads_scheduledPass ns reach hs
    obtain ⟨stop, v, last, hloop, hrest⟩ := ih _ hkept (u.reverse ++ hs)
    refine ⟨stop, u ++ v, last, ?_, ?_⟩
    · rw [loop_of_lt hopen, StateT.run_bind, hrun]
      refine hloop.trans ?_
      rw [List.reverse_append, List.append_assoc]
    · rw [loop_of_lt hopen, List.map_append]
      exact (Leads.bind hgives _).trans hrest
  | case2 due clock served =>
    rename_i hlate
    rw [loop_of_le (Nat.not_lt.1 hlate), loop_of_le (Nat.not_lt.1 hlate)]
    exact ⟨_, [], s, rfl, .start _⟩

/-- What happens in a loop over a cluster is a whole trace of the loop. -/
theorem leads_schedule (ns : String) (positive : 0 < interval) {s : Store}
    (within : s.now.seconds + cancelled + s.listSeconds ≤ Instant.lastSecond) :
    ∃ (stop : Nat) (u : List Happening) (left : Store),
      schedule? ns interval cancelled s = some (stop, u, left) ∧
      (loop interval cancelled positive (attend ns (clockFrom s.now) fun _ => s.listSeconds) 0
        0).Gives (u.map Happening.deed) stop := by
  obtain ⟨stop, u, left, hrun, hgives⟩ := leads_scheduled ns positive 0 0 within rfl []
  refine ⟨stop, u, { left with now := s.now }.advance stop, ?_, hgives⟩
  rw [schedule?, dif_pos positive]
  simp only [Id.run, hrun, List.append_nil, List.reverse_reverse]

/-! ## The vigil -/

/-- The loop makes as many passes as there are ticks before its cancellation, and no pass keeps it
from the next one. -/
structure Tireless (ns : String) (clock : Nat → Instant) (lasts : Nat → Nat)
    (interval cancelled : Nat) (positive : 0 < interval) (n : Nat) : Prop where
  /-- So many ticks come before the cancellation. -/
  ticks : ∀ k, k < n ↔ tick interval lasts k < cancelled
  /-- At each of them one pass is made, whatever has come of the others, and none is made at another
  time; the loop ends when it has been cancelled, and in no other way. -/
  attended : ∀ t (o : Outcome Nat),
    (loop interval cancelled positive (attend ns clock lasts) 0 0).Leads t o.ending ↔
      ∃ courses, List.Forall₂ (fun start course => Whole ns (clock start) course)
          ((List.range n).map (tick interval lasts)) courses ∧
        t = courses.flatten ∧ o = .done (max cancelled (finish interval lasts n))
  /-- In each pass with a list, whatever is past its expiry is requested to go unless it is exempt
  or on its way out. -/
  requested : ∀ now course, Whole ns now course → ∀ envs,
    .call (.listEnvironments ns) (.ok envs) ∈ course → ∀ env ∈ envs,
      env.isPinned = false → env.metadata.isDeleting = false → ∀ expiry,
        env.expiresAt? = some expiry → expiry.before now = true → ∃ answer,
          .call (.deleteEnvironment env.name (env.metadata.ns.getD "")) answer ∈ course
  /-- Where passes take no time, the ticks are the multiples of the interval. -/
  prompt : (∀ start, lasts start = 0) →
    (∀ k, tick interval lasts k = k * interval) ∧
      max cancelled (finish interval lasts n) = cancelled
  /-- The loop over a cluster is one of these, in which only the lists take time. -/
  scheduled : ∀ s : Store, clock = clockFrom s.now → (lasts = fun _ => s.listSeconds) →
    s.now.seconds + cancelled + s.listSeconds ≤ Instant.lastSecond → ∃ u left,
      schedule? ns interval cancelled s =
        some (max cancelled (finish interval lasts n), u, left) ∧
      (loop interval cancelled positive (attend ns clock lasts) 0 0).Gives (u.map Happening.deed)
        (max cancelled (finish interval lasts n))

theorem finish_le_of_prompt (ticks : ∀ k, k < n ↔ tick interval lasts k < cancelled)
    (prompt : ∀ start, lasts start = 0) : finish interval lasts n ≤ cancelled := by
  cases n with
  | zero => exact Nat.zero_le _
  | succ k =>
    have hlast := (ticks k).1 (Nat.lt_succ_self k)
    rw [finish, prompt]
    omega

/-- Whatever the cluster answers, the cleanup loop makes a pass at every tick before it is cancelled
and none later, and ends only then. -/
theorem loop_tireless (ns : String) (clock : Nat → Instant) (lasts : Nat → Nat)
    (interval cancelled : Nat) (positive : 0 < interval) :
    ∃ n, Tireless ns clock lasts interval cancelled positive n := by
  obtain ⟨n, hticks⟩ := exists_count positive lasts cancelled
  have hattended : ∀ t (o : Outcome Nat),
      (loop interval cancelled positive (attend ns clock lasts) 0 0).Leads t o.ending ↔
        ∃ courses, List.Forall₂ (fun start course => Whole ns (clock start) course)
            ((List.range n).map (tick interval lasts)) courses ∧
          t = courses.flatten ∧ o = .done (max cancelled (finish interval lasts n)) := by
    intro t o
    have hfirst : max 0 (finish interval lasts 0) = tick interval lasts 0 := rfl
    rw [List.range_eq_range']
    exact leads_loop hticks (Nat.zero_add n) hfirst
  exact ⟨n, {
    ticks := hticks
    attended := hattended
    requested := fun now course whole envs listed env mem unpinned staying expiry known past =>
      whole.requests listed mem
        (Environment.isExpired_iff.2 ⟨unpinned, staying, expiry, known, past⟩)
    prompt := fun prompt =>
      ⟨tick_of_prompt prompt, Nat.max_eq_left (finish_le_of_prompt hticks prompt)⟩
    scheduled := by
      rintro s rfl rfl within
      obtain ⟨stop, u, left, hrun, hgives⟩ := leads_schedule ns positive within
      obtain ⟨_, _, _, hstop⟩ := (hattended _ (.done stop)).1 hgives
      cases hstop
      exact ⟨u, left, hrun, hgives⟩ }⟩

/-- Of three passes the first and the last one get no list, and the one between them makes all its
requests. -/
theorem loop_tireless_stale :
    (loop 300 700 (by decide) (attend "previews" (clockFrom default) fun _ => 0) 0 0).Gives
      ([.call (.listEnvironments "previews") (.error .client)] ++
        (course "previews" staleOnes staleTries ++
          [.call (.listEnvironments "previews") (.error .client)])) 700 := by
  obtain ⟨n, tireless⟩ :=
    loop_tireless "previews" (clockFrom default) (fun _ => 0) 300 700 (by decide)
  obtain ⟨hticks, hstop⟩ := tireless.prompt fun _ => rfl
  obtain rfl : n = 3 := by
    have htwo := tireless.ticks 2
    have hthree := tireless.ticks 3
    rw [hticks] at htwo hthree
    omega
  have hlost (now : Instant) :
      Whole "previews" now [.call (.listEnvironments "previews") (.error .client)] :=
    ⟨.failed .client, leads_ending_pass.2 (.inl ⟨_, rfl, rfl⟩)⟩
  have hall : ∀ env ∈ staleOnes, env.isExpired Reconcile.nextTurn = true := by decide +kernel
  have hmiddle : Whole "previews" Reconcile.nextTurn (course "previews" staleOnes staleTries) :=
    ⟨.done _, leads_ending_pass.2 (.inr ⟨staleOnes, staleTries, _,
      (List.filter_eq_self.2 hall).symm, rfl, rfl, tallied_iff.2 rfl⟩)⟩
  refine (tireless.attended _ (.done 700)).2 ⟨[_, _, _],
    .cons (hlost _) (.cons hmiddle (.cons (hlost _) .nil)), rfl, ?_⟩
  rw [hstop]

end Cleanup
end PreviewControl
