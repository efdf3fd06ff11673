import PreviewControl.Proofs.Tally
import PreviewControl.Proofs.World

/-!
# What others do during a cleanup pass

A cleanup pass selects records from its list and requests their deletion later, by name. A request
does not say which version of the record it means, so it is served whatever others have put in the
place of the record since.
-/
namespace PreviewControl

open Pass

/-! ## Requests by name -/

namespace Instant

theorem before_iff {a b : Instant} : a.before b = true ↔
    a.seconds < b.seconds ∨ a.seconds = b.seconds ∧ a.nanos < b.nanos := by
  simp [before]

/-- What is before a time is before every later one. -/
theorem before_of_not_before {a b c : Instant} (h : a.before b = true)
    (later : c.before b = false) : a.before c = true := by
  have hc : ¬(c.seconds < b.seconds ∨ c.seconds = b.seconds ∧ c.nanos < b.nanos) :=
    fun hc => Bool.eq_false_iff.1 later (before_iff.2 hc)
  have ha := before_iff.1 h
  exact before_iff.2 (by omega)

end Instant

theorem Environment.isExpired_later {env : Environment} {now moment : Instant}
    (h : env.isExpired now = true) (later : moment.before now = false) :
    env.isExpired moment = true := by
  obtain ⟨unpinned, staying, expiry, hexpiry, past⟩ := isExpired_iff.1 h
  exact isExpired_iff.2
    ⟨unpinned, staying, expiry, hexpiry, Instant.before_of_not_before past later⟩

namespace Store

variable {s : Store} {key : RecordKey} {stored : Environment}

/-- What others leave under a key: another record or none. -/
def leave (s : Store) (key : RecordKey) : Option Environment → Store
  | some env => s.putRecord key env
  | none => s.eraseRecord key

theorem record?_leave (s : Store) (key k : RecordKey) (left : Option Environment) :
    (s.leave key left).record? k = if k = key then left else s.record? k := by
  cases left with
  | none => exact record?_eraseRecord ..
  | some env => exact record?_putRecord ..

/-- A request for deletion leaves nothing as it was but what is being deleted and still held. -/
theorem deleteRecord_keeps_iff (there : s.record? key = some stored) :
    (s.deleteRecord key).record? key = some stored ↔
      stored.metadata.isDeleting = true ∧ stored.metadata.heldBy ≠ [] := by
  unfold deleteRecord
  simp only [there]
  split
  · next hfree =>
    rw [record?_eraseRecord, if_pos rfl]
    exact iff_of_false nofun fun h => h.2 (List.isEmpty_iff.1 hfree)
  · next hheld =>
    split
    · next hdeleting => exact iff_of_true there ⟨hdeleting, mt List.isEmpty_iff.2 hheld⟩
    · next hstaying =>
      rw [record?_revise, if_pos rfl]
      refine iff_of_false (fun h => hstaying ?_) fun h => hstaying h.1
      rw [← Option.some.inj h]
      rfl

/-- The request for the deletion of a record takes effect on nothing but what is to be deleted. -/
def Spares (s : Store) (name ns : String) (moment : Instant) : Prop :=
  ∀ stored, s.record? ⟨ns, name⟩ = some stored → stored.isExpired moment = false →
    (s.serve (.deleteEnvironment name ns)).2.record? ⟨ns, name⟩ = some stored

end Store

/-! ## Interleavings -/

/-- A cleanup pass that has got its list, the cluster, and what others have left there since, the
latest first. -/
structure Interim where
  sweep : Sweep
  store : Store
  log : List (RecordKey × Option Environment) := []

namespace Interim

/-- Others leave something under a key. -/
def written (x : Interim) (key : RecordKey) (left : Option Environment) : Interim :=
  { x with store := x.store.leave key left, log := (key, left) :: x.log }

/-- One step of the pass or of others. -/
inductive Step (x : Interim) : Interim → Prop where
  | call {c : Call} {answer : c.Answer} {store : Store}
      (asks : x.sweep.pass.Asks x.sweep.trace c) (served : x.store.Served c answer store) :
    Step x { x with sweep := x.sweep.after (.call c answer), store := store }
  | note {d : Deed} {rest : Pass Cleanup.Summary} (quiet : ∀ c answer, d ≠ .call c answer)
      (leads : x.sweep.pass.Leads (x.sweep.trace ++ [d]) rest) :
    Step x { x with sweep := x.sweep.after d }
  /-- Others put any record under a key, or remove the one that is there. -/
  | write (key : RecordKey) (left : Option Environment)
      (own : ∀ env, left = some env → env.key = key) :
    Step x (x.written key left)
  /-- Anything but the records may change at any time. -/
  | drift {store : Store} (same : store.records = x.store.records) :
    Step x { x with store := store }

/-- The list has just come, from a cluster in which every record has a key of its own. -/
structure Start (x : Interim) : Prop where
  keyed : ∀ r ∈ x.store.records, r.2.key = r.1
  distinct : (x.store.records.map (·.1)).Nodup
  listed : x.sweep.trace =
    [.call (.listEnvironments x.sweep.ns) (.ok (x.store.recordsIn x.sweep.ns))]
  unwritten : x.log = []

/-- The states that a run can come to. -/
inductive Reachable : Interim → Prop where
  | start {x : Interim} (h : Start x) : Reachable x
  | step {x y : Interim} (h : Reachable x) (s : Step x y) : Reachable y

/-- What stands in the place of a listed record: what others have left there last, or else the
record itself. -/
def inPlaceOf (x : Interim) (env : Environment) : Option Environment :=
  (x.log.lookup env.key).getD (some env)

/-- The deletion of the record has been requested. -/
def Requested (x : Interim) (env : Environment) : Prop :=
  ∃ answer, .call (.deleteEnvironment env.name env.key.ns) answer ∈ x.sweep.trace

/-- The records of the list have different keys, and those whose deletion has not been requested
yet are left to others. -/
structure Followed (x : Interim) (listed : List Environment) : Prop where
  begun : ∃ t, x.sweep.trace = .call (.listEnvironments x.sweep.ns) (.ok listed) :: t
  distinct : (listed.map Environment.key).Nodup
  pending : ∀ env ∈ listed, ¬x.Requested env → x.store.record? env.key = x.inPlaceOf env

variable {x y : Interim} {listed : List Environment}

theorem Start.followed (h : x.Start) : x.Followed (x.store.recordsIn x.sweep.ns) := by
  have hkey : ∀ r ∈ x.store.records.filter (·.1.ns == x.sweep.ns), r.2.key = r.1 :=
    fun r hr => h.keyed r (List.mem_of_mem_filter hr)
  refine ⟨⟨[], h.listed⟩, ?_, fun env henv _ => ?_⟩
  · rw [Store.recordsIn, List.map_map, List.map_congr_left (g := (·.1)) hkey]
    exact h.distinct.sublist (List.filter_sublist.map _)
  · obtain ⟨r, hr, rfl⟩ := List.mem_map.1 henv
    rw [inPlaceOf, h.unwritten, hkey r hr]
    exact lookup_of_mem h.distinct (List.mem_of_mem_filter hr)

/-- No request but the one for its deletion changes a record of the list. -/
theorem recordKey?_of_asks {c : Call} {env : Environment} {t : List Deed} {s : Sweep}
    (asks : s.pass.Asks t c) (other : c ≠ .deleteEnvironment env.name env.key.ns) :
    c.recordKey? ≠ some env.key := by
  cases Cleanup.makes_pass s.ns s.now t c asks with
  | list => exact nofun
  | delete name ns =>
    intro heq
    have hkey := Option.some.inj heq
    exact other (congrArg₂ Call.deleteEnvironment (congrArg RecordKey.name hkey)
      (congrArg RecordKey.ns hkey))

theorem Followed.step (h : x.Followed listed) (s : Step x y) : y.Followed listed := by
  obtain ⟨⟨t, ht⟩, hdistinct, hpending⟩ := h
  have hbegun : ∀ d, ∃ u, x.sweep.trace ++ [d] =
      .call (.listEnvironments x.sweep.ns) (.ok listed) :: u :=
    fun d => ⟨t ++ [d], congrArg (· ++ [d]) ht⟩
  have hearlier : ∀ {d : Deed} {env : Environment},
      (¬∃ answer, .call (.deleteEnvironment env.name env.key.ns) answer ∈ x.sweep.trace ++ [d]) →
        ¬x.Requested env :=
    fun hnew ⟨answer, hmem⟩ => hnew ⟨answer, List.mem_append_left _ hmem⟩
  cases s with
  | @call c answer store asks served =>
    refine ⟨hbegun _, hdistinct, fun env henv hnew => ?_⟩
    have hother : c ≠ .deleteEnvironment env.name env.key.ns := by
      rintro rfl
      exact hnew ⟨answer, List.mem_append_right _ List.mem_cons_self⟩
    exact (served.record?_of_ne (recordKey?_of_asks asks hother)).trans
      (hpending env henv (hearlier hnew))
  | note quiet leads =>
    exact ⟨hbegun _, hdistinct, fun env henv hnew => hpending env henv (hearlier hnew)⟩
  | write key left own =>
    refine ⟨⟨t, ht⟩, hdistinct, fun env henv hnew => ?_⟩
    show (x.store.leave key left).record? env.key = (List.lookup _ (_ :: _)).getD _
    rw [Store.record?_leave, lookup_cons_if]
    split
    · rfl
    · exact hpending env henv hnew
  | drift same =>
    refine ⟨⟨t, ht⟩, hdistinct, fun env henv hnew => ?_⟩
    show List.lookup _ _ = _
    rw [same]
    exact hpending env henv hnew

theorem Reachable.followed (h : x.Reachable) : ∃ listed, x.Followed listed := by
  induction h with
  | start h => exact ⟨_, h.followed⟩
  | step _ s ih => exact ih.imp fun _ hx => hx.step s

/-- The deletion of a record is requested once. -/
theorem Followed.not_requested {tried : List Cleanup.Attempt} {env : Environment}
    {rest : List Environment} (h : x.Followed listed)
    (due : tried.map Prod.fst ++ env :: rest = listed.filter fun env => env.isExpired x.sweep.now)
    (trace : x.sweep.trace = Cleanup.course x.sweep.ns listed tried) : ¬x.Requested env := by
  rintro ⟨answer, hmem⟩
  rw [trace] at hmem
  rcases List.mem_append.1 ((List.mem_cons.1 hmem).resolve_left nofun) with hmem | hmem
  · obtain ⟨_, _, hm⟩ := List.mem_map.1 hmem
    cases hm
  · obtain ⟨a, ha, hdeed⟩ := List.mem_flatMap.1 hmem
    have hkey : a.1.key = env.key := by
      rcases List.mem_cons.1 hdeed with heq | hdeed
      · injection heq with heq
        injection heq with hname hns
        exact (congrArg₂ RecordKey.mk hns hname).symm
      · cases List.mem_singleton.1 hdeed
    have hdistinct : ((tried.map Prod.fst ++ env :: rest).map Environment.key).Nodup := by
      rw [due]
      exact h.distinct.sublist (List.filter_sublist.map _)
    rw [List.map_append, List.nodup_append] at hdistinct
    exact hdistinct.2.2 _ (List.mem_map_of_mem (List.mem_map_of_mem ha)) _ List.mem_cons_self hkey

/-- A request of a cleanup pass takes effect on a record that is not to be deleted in one case only:
others have left that record under the name since the list has come, and it is not being held back
in its deletion already. -/
theorem spares_iff {name ns : String} {moment : Instant} (reachable : x.Reachable)
    (asks : x.sweep.pass.Asks x.sweep.trace (.deleteEnvironment name ns))
    (later : moment.before x.sweep.now = false) :
    x.store.Spares name ns moment ↔ ∀ left, x.log.lookup ⟨ns, name⟩ = some (some left) →
      left.isExpired moment = false →
        left.metadata.isDeleting = true ∧ left.metadata.heldBy ≠ [] := by
  obtain ⟨listed, hx⟩ := reachable.followed
  obtain ⟨t, ht⟩ := hx.begun
  obtain ⟨htrace, _⟩ | ⟨envs, tried, env, rest, hdue, htrace, hc⟩ := Cleanup.asks_pass.1 asks
  · rw [ht] at htrace
    cases htrace
  · obtain ⟨rfl, rfl⟩ := Call.deleteEnvironment.inj hc
    obtain rfl : listed = envs := by
      rw [ht] at htrace
      injection htrace with hlist
      injection hlist with _ hanswer
      exact Except.ok.inj hanswer
    have hmem : env ∈ listed.filter fun env => env.isExpired x.sweep.now :=
      hdue ▸ List.mem_append_right _ List.mem_cons_self
    obtain ⟨hlisted, hexpired⟩ := List.mem_filter.1 hmem
    have hplace : x.store.record? env.key = (x.log.lookup env.key).getD (some env) :=
      hx.pending env hlisted (hx.not_requested hdue htrace)
    constructor
    · intro hspares left hleft hunexpired
      have there : x.store.record? env.key = some left := by
        rw [hplace, show x.log.lookup env.key = some (some left) from hleft, Option.getD_some]
      exact (Store.deleteRecord_keeps_iff there).1 (hspares left there hunexpired)
    · intro hothers stored there hunexpired
      refine (Store.deleteRecord_keeps_iff there).2 (hothers stored ?_ hunexpired)
      have there : x.store.record? env.key = some stored := there
      rw [hplace] at there
      cases hlog : x.log.lookup env.key with
      | none =>
        -- Nothing has happened to the record, so that it is still to be deleted.
        rw [hlog, Option.getD_none] at there
        rw [← Option.some.inj there, Environment.isExpired_later hexpired later] at hunexpired
        cases hunexpired
      | some left =>
        rw [hlog, Option.getD_some] at there
        exact hlog.trans (congrArg some there)

/-! ## A record that is exempted in between -/

/-- All measurements of a pass can be taken at once. -/
theorem Reachable.noted {t : List Deed} {rest : Pass Cleanup.Summary} (h : x.Reachable)
    (quiet : ∀ d ∈ t, ∀ c answer, d ≠ .call c answer)
    (leads : x.sweep.pass.Leads (x.sweep.trace ++ t) rest) :
    Reachable { x with sweep := { x.sweep with trace := x.sweep.trace ++ t } } := by
  induction t generalizing x with
  | nil =>
    rw [List.append_nil]
    exact h
  | cons d t ih =>
    rw [List.append_cons] at leads ⊢
    obtain ⟨hd, ht⟩ := List.forall_mem_cons.1 quiet
    obtain ⟨q, hq, _⟩ := leads.split
    exact ih (x := { x with sweep := x.sweep.after d }) (h.step (.note hd hq)) ht leads

/-- A pass that has got the list with the stale record and is about to request its deletion. -/
def underway : Interim where
  sweep := ⟨"previews", Reconcile.nextTurn, Cleanup.course "previews" [stale] []⟩
  store := outlived

theorem asks_underway :
    underway.sweep.pass.Asks underway.sweep.trace (.deleteEnvironment "shop" "previews") := by
  have hall : ∀ env ∈ [stale], env.isExpired Reconcile.nextTurn = true := by decide +kernel
  exact Cleanup.asks_pass.2
    (.inr ⟨[stale], [], stale, [], (List.filter_eq_self.2 hall).symm, rfl, rfl⟩)

theorem reachable_underway : underway.Reachable := by
  obtain ⟨_, leads⟩ := asks_underway
  have start : Start { sweep := ⟨"previews", Reconcile.nextTurn,
      [.call (.listEnvironments "previews") (.ok [stale])]⟩, store := outlived } := by
    refine ⟨?_, ?_, rfl, rfl⟩
    · exact fun r hr => List.mem_singleton.1 hr ▸ rfl
    · exact List.pairwise_singleton ..
  refine (Reachable.start start).noted (t := (Cleanup.phaseCounts [stale]).map .measurement)
    (fun d hd c answer => ?_) leads
  obtain ⟨m, _, rfl⟩ := List.mem_map.1 hd
  exact nofun

/-- Others exempt the stale record. -/
def exempted : Environment :=
  Store.bump (Store.withMarks (some [(Environment.pinLabel, "true")]) none stale)

/-- Others create a new record in the place of the stale one. -/
def successor : Environment :=
  { Reconcile.newcomer with metadata := { Reconcile.newcomer.metadata with uid := some "u-6" } }

/-- The pass is about to request the deletion of what stands under the name of the stale record, and
that is not to be deleted. -/
def Strikes (x : Interim) : Prop :=
  x.Reachable ∧ x.sweep.pass.Asks x.sweep.trace (.deleteEnvironment "shop" "previews") ∧
    ¬x.store.Spares "shop" "previews" x.sweep.now

theorem strikes_written {x : Interim} {left : Environment} (reachable : x.Reachable)
    (sweep : x.sweep = underway.sweep) (own : left.key = stale.key)
    (unexpired : left.isExpired Reconcile.nextTurn = false)
    (staying : left.metadata.isDeleting = false) : (x.written stale.key (some left)).Strikes := by
  refine ⟨reachable.step (.write _ _ fun env henv => Option.some.inj henv ▸ own), ?_,
    fun spares => ?_⟩
  · show x.sweep.pass.Asks x.sweep.trace _
    rw [sweep]
    exact asks_underway
  · have there : (x.written stale.key (some left)).store.record? stale.key = some left :=
      (Store.record?_leave ..).trans (if_pos rfl)
    have unexpired' : left.isExpired x.sweep.now = false := by
      rw [sweep]
      exact unexpired
    have hkept := (Store.deleteRecord_keeps_iff there).1 (spares left there unexpired')
    rw [staying] at hkept
    cases hkept.1

/-- After the list others exempt the stale record, or they remove it and create another one. In both
cases the request of the pass still takes effect. -/
theorem not_always_spared : (underway.written stale.key (some exempted)).Strikes ∧
    ((underway.written stale.key none).written stale.key (some successor)).Strikes :=
  ⟨strikes_written reachable_underway rfl rfl (by decide +kernel) rfl,
    strikes_written (reachable_underway.step (.write _ none fun _ henv => by cases henv)) rfl rfl
      (by decide +kernel) rfl⟩

/-- As long as others do nothing, the request spares whatever is not to be deleted. -/
theorem spares_iff_underway : underway.store.Spares "shop" "previews" Reconcile.nextTurn := by
  have later : Reconcile.nextTurn.before underway.sweep.now = false := by decide +kernel
  refine (spares_iff reachable_underway asks_underway later).2 fun left hleft => ?_
  cases hleft

end Interim
end PreviewControl
