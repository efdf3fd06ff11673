import Mathlib.Data.List.Basic
import PreviewControl.Proofs.DeletionGuard
import PreviewControl.Proofs.World

/-!
# The custody of a record

What stays true of a stored record and of all passes over it, whatever else happens. A record that
was read with the finalizer stays in the cluster until a pass has asked for its release, and the
namespace that a pass puts children into is the one that the record names from then on.
-/
namespace PreviewControl

open Reconcile Pass

/-- This record is stored, and the finalizer holds it. -/
def Holds (r : Option Environment) (uid : Option String) : Prop :=
  ∃ stored, r = some stored ∧ stored.metadata.uid = uid ∧ stored.hasFinalizer = true

/-- One of the passes has asked for the release of this record. -/
def Released (es : List Episode) (uid : Option String) : Prop :=
  ∃ e ∈ es, ∃ env, e.Read env ∧ env.metadata.uid = uid ∧ e.LetsGo

/-- The trace of a pass over the record under a key is one of the pass, and it is about this record
only: a newer version that a write answers with is the same record. -/
structure Episode.Sound (k : RecordKey) (e : Episode) : Prop where
  key : e.key = k
  leads : ∃ rest, e.pass.Leads e.trace rest
  named : ∀ env, e.Read env → env.key = k
  answered : ∀ env, e.Read env → ∀ old status updated,
    .call (.patchStatus old status) (.ok updated) ∈ e.trace →
      updated.key = k ∧ updated.metadata.uid = env.metadata.uid

/-- What is true of the record that is stored under a key, and of the passes over it. -/
structure Custody (k : RecordKey) (r : Option Environment) (es : List Episode) : Prop where
  keyed : ∀ env, r = some env → env.key = k
  sound : ∀ e ∈ es, e.Sound k
  held : ∀ e ∈ es, ∀ env, e.Read env → env.hasFinalizer = true →
    Holds r env.metadata.uid ∨ Released es env.metadata.uid
  noted : ∀ e ∈ es, ∀ env space, e.Read env → e.Into env space → ∀ stored, r = some stored →
    stored.metadata.uid = env.metadata.uid → stored.known.ns = some space
  /-- The latest pass still sees the record that it has read. -/
  current : ∀ e older env, es = e :: older → e.Read env → env.hasFinalizer = true → ¬e.LetsGo →
    ∃ stored, r = some stored ∧ stored.metadata.uid = env.metadata.uid ∧
      stored.hasFinalizer = true ∧ (e.trace.length = 1 ∨ env.metadata.isDeleting = true →
        stored.known.ns = env.known.ns)

/-! ## Traces that grow -/

namespace Episode

variable {e : Episode} {d : Deed} {env : Environment} {space : String}

@[simp] theorem after_pass : (e.after d).pass = e.pass := rfl
@[simp] theorem after_key : (e.after d).key = e.key := rfl
@[simp] theorem after_trace : (e.after d).trace = e.trace ++ [d] := rfl

theorem trace_ne_nil (h : e.Read env) : e.trace ≠ [] := by
  obtain ⟨ns, t, _, ht⟩ := h
  rw [ht]
  exact List.cons_ne_nil _ _

theorem read_unique {env' : Environment} (h : e.Read env) (h' : e.Read env') : env = env' := by
  obtain ⟨ns, t, _, ht⟩ := h
  obtain ⟨ns', t', _, ht'⟩ := h'
  rw [ht] at ht'
  injection ht' with hr
  exact (read_inj.1 hr).2

theorem read_after (begun : e.trace ≠ []) : (e.after d).Read env ↔ e.Read env := by
  constructor
  · rintro ⟨ns, t, place, ht⟩
    cases he : e.trace with
    | nil => exact absurd he begun
    | cons d' u =>
      rw [after_trace, he, List.cons_append] at ht
      injection ht with hd
      exact ⟨ns, u, place, he.trans (hd ▸ rfl)⟩
  · rintro ⟨ns, t, place, ht⟩
    exact ⟨ns, t ++ [d], place, by rw [after_trace, ht]; rfl⟩

theorem letsGo_after (h : e.LetsGo) : (e.after d).LetsGo := by
  obtain ⟨latest, answer, hm⟩ := h
  exact ⟨latest, answer, List.mem_append_left _ hm⟩

/-- A pass comes to put children into a namespace right after the record was read, or when the
status of first contact has been written. -/
theorem into_after (begun : e.trace ≠ []) (h : (e.after d).Into env space) :
    e.Into env space ∨ ∃ status updated, e.trace.length = 1 ∧ status.ns = some space ∧
      d = .call (.patchStatus env status) (.ok updated) := by
  obtain ⟨ns, t, u, latest, status, ht, entered, hs⟩ := h
  rw [after_trace] at ht
  rcases u.eq_nil_or_concat' with rfl | ⟨u', d', rfl⟩
  · cases entered with
    | known =>
      have ht' : e.trace ++ [d] = [] ++ [Reconcile.read e.notice ns env] := ht
      exact absurd (List.append_inj' ht' rfl).1 begun
    | accepted unrecorded made =>
      have ht' : e.trace ++ [d] = [Reconcile.read e.notice ns env] ++
          [.call (.patchStatus env status) (.ok latest)] := ht
      obtain ⟨he, hd⟩ := List.append_inj' ht' rfl
      refine .inr ⟨status, latest, by rw [he]; rfl, ?_, List.singleton_inj.1 hd⟩
      have hn := Status.accepted_ns made
      rw [← hs, spaceOf, hn]
      rfl
  · have ht' : e.trace ++ [d] = (Reconcile.read e.notice ns env :: (t ++ u')) ++ [d'] := by
      rw [ht, List.cons_append, List.append_assoc]
      rfl
    exact .inl ⟨ns, t, u', latest, status, (List.append_inj' ht' rfl).1, entered, hs⟩

theorem Sound.after {k : RecordKey} {rest : Pass Requeue} (h : e.Sound k) (begun : e.trace ≠ [])
    (leads : e.pass.Leads (e.trace ++ [d]) rest)
    (fresh : ∀ env, e.Read env → ∀ old status updated,
      d = .call (.patchStatus old status) (.ok updated) →
        updated.key = k ∧ updated.metadata.uid = env.metadata.uid) : (e.after d).Sound k where
  key := h.key
  leads := ⟨rest, leads⟩
  named := fun env hr => h.named env ((read_after begun).1 hr)
  answered := by
    intro env hr old status updated hd
    have hr' := (read_after begun).1 hr
    rcases List.mem_append.1 hd with hd | hd
    · exact h.answered env hr' old status updated hd
    · exact fresh env hr' old status updated (List.mem_singleton.1 hd).symm

/-- The record and the status that a pass works with once it puts children in place. -/
theorem Sound.entered {k : RecordKey} (h : e.Sound k) {latest : Environment} {status : Status}
    {ns : String} {t u : List Deed} (place : e.notice.ns = some ns)
    (ht : e.trace = Reconcile.read e.notice ns env :: (t ++ u))
    (entered : Entered e.config env e.now t latest status) :
    e.Read env ∧ e.Into env (spaceOf latest status) ∧ latest.key = k ∧
      latest.metadata.uid = env.metadata.uid := by
  have hr : e.Read env := ⟨ns, t ++ u, place, ht⟩
  refine ⟨hr, ⟨ns, t, u, latest, status, ht, entered, rfl⟩, ?_⟩
  cases entered with
  | known => exact ⟨h.named env hr, rfl⟩
  | accepted =>
    refine h.answered env hr env status latest ?_
    rw [ht]
    exact List.mem_cons_of_mem _ (List.mem_append_left _ (List.mem_singleton_self _))

/-- The release is only asked for by a pass that has read the record as being deleted. -/
theorem Sound.deleting {k : RecordKey} (h : e.Sound k) (hr : e.Read env) (hl : e.LetsGo) :
    env.metadata.isDeleting = true := by
  obtain ⟨latest, answer, hm⟩ := hl
  obtain ⟨t, u, ht⟩ := List.append_of_mem hm
  obtain ⟨rest, leads⟩ := h.leads
  rw [ht] at leads
  obtain ⟨ns, env', v, place, deleting, _, hv, _⟩ := (letGo_of_asks leads.asks).clearing
  have hr' : e.Read env' := ⟨ns, v ++ .call (.removeFinalizer latest) answer :: u, place, by
    rw [ht, hv]
    rfl⟩
  rw [read_unique hr hr']
  exact deleting

/-- A child is applied only for a record that was read as held and staying, with a spec that can be
acted on, and into the namespace that the pass has come to. -/
theorem Sound.apply {k : RecordKey} (h : e.Sound k) {t u : List Deed} {m : Manifest}
    (ht : e.trace = t ++ u) (asks : e.pass.Asks t (.apply m)) :
    ∃ env latest space, e.Read env ∧ env.hasFinalizer = true ∧ env.metadata.isDeleting = false ∧
      env.spec.validate e.notice.anyName = .ok () ∧ e.Into env space ∧
      latest.metadata.uid = env.metadata.uid ∧ m ∈ Child.parts e.config latest space := by
  obtain ⟨ns, env, t', v, latest, status, place, rfl, held, staying, valid, entered, part⟩ :=
    part_of_asks asks
  have ht' : e.trace = Reconcile.read e.notice ns env :: (t' ++ (v ++ u)) := by
    rw [ht, List.cons_append, List.append_assoc]
  obtain ⟨hr, hi, _, hu⟩ := h.entered place ht' entered
  exact ⟨env, latest, _, hr, held, staying, valid, hi, hu, part⟩

end Episode

theorem released_after {e : Episode} {older : List Episode} {d : Deed} {uid : Option String}
    (begun : e.trace ≠ []) (h : Released (e :: older) uid) : Released (e.after d :: older) uid := by
  obtain ⟨f, hf, env, hr, hu, hl⟩ := h
  rcases List.mem_cons.1 hf with rfl | hf
  · exact ⟨_, List.mem_cons_self .., env, (Episode.read_after begun).2 hr, hu,
      Episode.letsGo_after hl⟩
  · exact ⟨f, List.mem_cons_of_mem _ hf, env, hr, hu, hl⟩

namespace Custody

variable {k : RecordKey} {r : Option Environment} {es older : List Episode} {e : Episode}
  {d : Deed} {stored edited : Environment}

/-! ## What others do -/

theorem start (keyed : ∀ env, r = some env → env.key = k) : Custody k r [] where
  keyed := keyed
  sound := fun _ h => absurd h List.not_mem_nil
  held := fun _ h => absurd h List.not_mem_nil
  noted := fun _ h => absurd h List.not_mem_nil
  current := fun _ _ _ h => by cases h

/-- A change that keeps the record, the finalizer and the namespace keeps everything. -/
theorem edit (h : Custody k (some stored) es) (hk : edited.key = stored.key)
    (hu : edited.metadata.uid = stored.metadata.uid)
    (hf : stored.hasFinalizer = true → edited.hasFinalizer = true)
    (hn : edited.known.ns = stored.known.ns) : Custody k (some edited) es where
  keyed := by
    intro env he
    obtain rfl := Option.some.inj he
    exact hk.trans (h.keyed stored rfl)
  sound := h.sound
  held := by
    intro f hm env hr held
    rcases h.held f hm env hr held with ⟨_, hs, hi, hh⟩ | hl
    · obtain rfl := Option.some.inj hs
      exact .inl ⟨edited, rfl, hu.trans hi, hf hh⟩
    · exact .inr hl
  noted := by
    intro f hm env space hr hi _ hs huid
    obtain rfl := Option.some.inj hs
    rw [hn]
    exact h.noted f hm env space hr hi stored rfl (hu.symm.trans huid)
  current := by
    intro f older env he hr held hl
    obtain ⟨_, hs, hi, hh, hns⟩ := h.current f older env he hr held hl
    obtain rfl := Option.some.inj hs
    exact ⟨edited, rfl, hu.trans hi, hf hh, fun hd => hn.trans (hns hd)⟩

/-- Without the finalizer nobody relies on the record any more. -/
theorem vanish (h : Custody k (some stored) es) (free : stored.hasFinalizer = false) :
    Custody k none es where
  keyed := fun _ he => by cases he
  sound := h.sound
  held := by
    intro f hm env hr held
    rcases h.held f hm env hr held with ⟨_, hs, _, hh⟩ | hl
    · obtain rfl := Option.some.inj hs
      rw [free] at hh
      cases hh
    · exact .inr hl
  noted := fun _ _ _ _ _ _ _ he => by cases he
  current := by
    intro f older env he hr held hl
    obtain ⟨_, hs, _, hh, _⟩ := h.current f older env he hr held hl
    obtain rfl := Option.some.inj hs
    rw [free] at hh
    cases hh

theorem create (h : Custody k none es) (hk : stored.key = k)
    (unseen : ∀ e ∈ es, ∀ old, e.Read old → old.metadata.uid ≠ stored.metadata.uid) :
    Custody k (some stored) es where
  keyed := by
    intro env he
    obtain rfl := Option.some.inj he
    exact hk
  sound := h.sound
  held := by
    intro f hm env hr held
    rcases h.held f hm env hr held with ⟨_, hs, _⟩ | hl
    · cases hs
    · exact .inr hl
  noted := by
    intro f hm env space hr _ _ hs huid
    obtain rfl := Option.some.inj hs
    exact absurd huid.symm (unseen f hm env hr)
  current := by
    intro f older env he hr held hl
    obtain ⟨_, hs, _⟩ := h.current f older env he hr held hl
    cases hs

/-! ## What passes do -/

/-- A pass that has read nothing takes its place before the others, or instead of one that has not
read anything either. -/
theorem unread (h : Custody k r es) (among : ∀ f ∈ older, f ∈ es)
    (others : ∀ f ∈ es, f ∈ older ∨ f.trace = []) (sound : e.Sound k)
    (blank : ∀ env, ¬e.Read env) : Custody k r (e :: older) where
  keyed := h.keyed
  sound := List.forall_mem_cons.2 ⟨sound, fun f hm => h.sound f (among f hm)⟩
  held := by
    intro f hm env hr held
    rcases List.mem_cons.1 hm with rfl | hm
    · exact absurd hr (blank env)
    · rcases h.held f (among f hm) env hr held with hs | ⟨g, hg, env', hr', hl⟩
      · exact .inl hs
      · rcases others g hg with hg | hg
        · exact .inr ⟨g, List.mem_cons_of_mem _ hg, env', hr', hl⟩
        · exact absurd hg (Episode.trace_ne_nil hr')
  noted := by
    intro f hm env space hr
    rcases List.mem_cons.1 hm with rfl | hm
    · exact absurd hr (blank env)
    · exact h.noted f (among f hm) env space hr
  current := by
    intro f older' env he hr
    obtain ⟨rfl, _⟩ := List.cons.inj he
    exact absurd hr (blank env)

theorem begin (h : Custody k r es) (hk : e.key = k) (unbegun : e.trace = []) :
    Custody k r (e :: es) := by
  have blank : ∀ env, ¬e.Read env := fun _ hr => Episode.trace_ne_nil hr unbegun
  refine h.unread (fun _ hm => hm) (fun _ hm => .inl hm) ?_ blank
  exact {
    key := hk
    leads := ⟨e.pass, by rw [unbegun]; exact .start _⟩
    named := fun env hr => absurd hr (blank env)
    answered := fun env hr => absurd hr (blank env) }

/-- What a call of this pass may make of the stored record while the pass has not asked for its
release: the same record, with a namespace that is newly entered at most. -/
inductive Kept (e : Episode) : Option Environment → Option Environment → Prop where
  | none : Kept e none none
  | some {before after : Environment} (key : after.key = before.key)
      (uid : after.metadata.uid = before.metadata.uid)
      (held : before.hasFinalizer = true → after.hasFinalizer = true)
      (ns : after.known.ns = before.known.ns ∨
        (before.known.ns = .none ∧ ∀ env, e.Read env → env.metadata.isDeleting = false)) :
    Kept e (some before) (some after)

theorem Kept.refl (e : Episode) (r : Option Environment) : Kept e r r := by
  cases r with
  | none => exact .none
  | some env => exact .some rfl rfl id (.inl rfl)

theorem held_after (h : Custody k r (e :: older)) (begun : e.trace ≠ []) :
    ∀ f ∈ e.after d :: older, ∀ env, f.Read env → env.hasFinalizer = true →
      Holds r env.metadata.uid ∨ Released (e.after d :: older) env.metadata.uid := by
  intro f hm env hr held
  have hf : Holds r env.metadata.uid ∨ Released (e :: older) env.metadata.uid := by
    rcases List.mem_cons.1 hm with rfl | hm
    · exact h.held e (List.mem_cons_self ..) env ((Episode.read_after begun).1 hr) held
    · exact h.held f (List.mem_cons_of_mem _ hm) env hr held
  exact hf.imp_right (released_after begun)

/-- What a pass does after it has read the record and before it asks for its release. -/
theorem grow {r' : Option Environment} {rest : Pass Requeue} (h : Custody k r (e :: older))
    (kept : Kept e r r') (begun : e.trace ≠ []) (leads : e.pass.Leads (e.trace ++ [d]) rest)
    (fresh : ∀ env, e.Read env → ∀ old status updated,
      d = .call (.patchStatus old status) (.ok updated) →
        updated.key = k ∧ updated.metadata.uid = env.metadata.uid ∧
          ∀ stored, r' = some stored → stored.known.ns = status.ns) :
    Custody k r' (e.after d :: older) where
  keyed := by
    intro env he
    cases kept with
    | none => cases he
    | some key =>
      obtain rfl := Option.some.inj he
      exact key.trans (h.keyed _ rfl)
  sound := by
    obtain ⟨he, hes⟩ := List.forall_mem_cons.1 h.sound
    refine List.forall_mem_cons.2 ⟨he.after begun leads ?_, hes⟩
    intro env hr old status updated hd
    obtain ⟨hk, hu, _⟩ := fresh env hr old status updated hd
    exact ⟨hk, hu⟩
  held := by
    intro f hm env hr held
    rcases h.held_after begun f hm env hr held with ⟨before, hs, hi, hh⟩ | hl
    · cases kept with
      | none => cases hs
      | some key uid held =>
        obtain rfl := Option.some.inj hs
        exact .inl ⟨_, rfl, uid.trans hi, held hh⟩
    · exact .inr hl
  noted := by
    intro f hm env space hr hi stored hs huid
    cases kept with
    | none => cases hs
    | @some before after key uid held ns =>
      obtain rfl := Option.some.inj hs
      have old : ∀ g ∈ e :: older, g.Read env → g.Into env space →
          after.known.ns = some space := by
        intro g hg hgr hgi
        have hb := h.noted g hg env space hgr hgi _ rfl (uid.symm.trans huid)
        rcases ns with ns | ⟨ns, _⟩
        · exact ns.trans hb
        · rw [ns] at hb
          cases hb
      rcases List.mem_cons.1 hm with rfl | hm
      · have hr' := (Episode.read_after begun).1 hr
        rcases Episode.into_after begun hi with hi | ⟨status, updated, _, hst, rfl⟩
        · exact old e (List.mem_cons_self ..) hr' hi
        · exact ((fresh env hr' env status updated rfl).2.2 _ rfl).trans hst
      · exact old f (List.mem_cons_of_mem _ hm) hr hi
  current := by
    intro f older' env he hr held hl
    obtain ⟨rfl, rfl⟩ := List.cons.inj he
    have hr' := (Episode.read_after begun).1 hr
    have hl' : ¬e.LetsGo := fun hg => hl (Episode.letsGo_after hg)
    obtain ⟨before, hs, hi, hh, hns⟩ := h.current e older env rfl hr' held hl'
    cases kept with
    | none => cases hs
    | some key uid held' ns =>
      obtain rfl := Option.some.inj hs
      refine ⟨_, rfl, uid.trans hi, held' hh, fun hd => ?_⟩
      have hd : env.metadata.isDeleting = true := by
        rcases hd with hd | hd
        · rw [Episode.after_trace, List.length_append, List.length_singleton] at hd
          have := List.length_pos_iff.2 begun
          omega
        · exact hd
      rcases ns with ns | ⟨_, ns⟩
      · exact ns.trans (hns (.inr hd))
      · have := ns env hr'
        rw [hd] at this
        cases this

/-- An event or a measurement changes nothing. -/
theorem note {rest : Pass Requeue} (h : Custody k r (e :: older))
    (quiet : ∀ c answer, d ≠ .call c answer) (leads : e.pass.Leads (e.trace ++ [d]) rest) :
    Custody k r (e.after d :: older) := by
  by_cases begun : e.trace = []
  · have blank : ∀ env, ¬(e.after d).Read env := by
      rintro env ⟨ns, t, _, ht⟩
      rw [Episode.after_trace, begun] at ht
      injection ht with hd
      exact quiet _ _ hd
    refine h.unread (fun f hm => List.mem_cons_of_mem _ hm) (fun f hm => ?_) ?_ blank
    · rcases List.mem_cons.1 hm with rfl | hm
      · exact .inr begun
      · exact .inl hm
    · exact {
        key := (h.sound e (List.mem_cons_self ..)).key
        leads := ⟨rest, leads⟩
        named := fun env hr => absurd hr (blank env)
        answered := fun env hr => absurd hr (blank env) }
  · refine h.grow (.refl e r) begun leads fun _ _ _ _ _ hd => ?_
    exact absurd hd (quiet _ _)

/-- The first thing that a pass does is to read the record as it is stored. -/
theorem first {ns : String} {answer : Except Failure (Option Environment)} {rest : Pass Requeue}
    (h : Custody k r (e :: older)) (unbegun : e.trace = []) (place : e.notice.ns = some ns)
    (leads : e.pass.Leads [.call (.getEnvironment e.notice.anyName ns) answer] rest)
    (seen : ∀ env, answer = .ok (some env) → r = some env) :
    Custody k r (e.after (.call (.getEnvironment e.notice.anyName ns) answer) :: older) := by
  have htrace : (e.after (.call (.getEnvironment e.notice.anyName ns) answer)).trace =
      [.call (.getEnvironment e.notice.anyName ns) answer] := by
    rw [Episode.after_trace, unbegun, List.nil_append]
  have hread : ∀ env, (e.after (.call (.getEnvironment e.notice.anyName ns) answer)).Read env →
      r = some env := by
    rintro env ⟨ns', t, _, ht⟩
    rw [htrace] at ht
    injection ht with hd
    unfold Reconcile.read at hd
    injection hd with hc ha
    injection hc with _ hn
    subst hn
    exact seen env ha
  exact {
    keyed := h.keyed
    sound := by
      obtain ⟨he, hes⟩ := List.forall_mem_cons.1 h.sound
      refine List.forall_mem_cons.2 ⟨{
        key := he.key
        leads := ⟨rest, by rw [htrace]; exact leads⟩
        named := fun env hr => h.keyed env (hread env hr)
        answered := ?_ }, hes⟩
      intro env hr old status updated hd
      rw [htrace, List.mem_singleton] at hd
      cases hd
    held := by
      intro f hm env hr held
      rcases List.mem_cons.1 hm with rfl | hm
      · exact .inl ⟨env, hread env hr, rfl, held⟩
      · rcases h.held f (List.mem_cons_of_mem _ hm) env hr held with hs | ⟨g, hg, env', hg', hu, hl⟩
        · exact .inl hs
        · rcases List.mem_cons.1 hg with rfl | hg
          · exact absurd unbegun (Episode.trace_ne_nil hg')
          · exact .inr ⟨g, List.mem_cons_of_mem _ hg, env', hg', hu, hl⟩
    noted := by
      intro f hm env space hr hi stored hs huid
      rcases List.mem_cons.1 hm with rfl | hm
      · have he := hread env hr
        rw [hs] at he
        obtain rfl := Option.some.inj he
        obtain ⟨ns', t, u, latest, status, ht, entered, rfl⟩ := hi
        rw [htrace] at ht
        injection ht with _ ht
        obtain ⟨rfl, _⟩ := List.append_eq_nil_iff.1 ht.symm
        cases entered with
        | known recorded =>
          obtain ⟨n, hn⟩ := Option.isSome_iff_exists.1 recorded
          rw [spaceOf, hn]
          rfl
      · exact h.noted f (List.mem_cons_of_mem _ hm) env space hr hi stored hs huid
    current := by
      intro f older' env he hr held hl
      obtain ⟨rfl, rfl⟩ := List.cons.inj he
      exact ⟨env, hread env hr, rfl, held, fun _ => rfl⟩ }

/-- The pass that asks for the release of a record answers for it from then on. -/
theorem release {r' : Option Environment} {latest : Environment} {answer : Except Failure Unit}
    {rest : Pass Requeue} (h : Custody k r (e :: older))
    (asks : e.pass.Asks e.trace (.removeFinalizer latest))
    (leads : e.pass.Leads (e.trace ++ [.call (.removeFinalizer latest) answer]) rest)
    (left : ∀ after, r' = some after → ∃ before, r = some before ∧ after.key = before.key ∧
      after.metadata.uid = before.metadata.uid ∧ after.known.ns = before.known.ns) :
    Custody k r' (e.after (.call (.removeFinalizer latest) answer) :: older) := by
  obtain ⟨ns, env₀, u, place, deleting, held₀, ht, hc⟩ := (letGo_of_asks asks).clearing
  have hr₀ : e.Read env₀ := ⟨ns, u, place, ht⟩
  have begun : e.trace ≠ [] := Episode.trace_ne_nil hr₀
  have hl₀ : ¬e.LetsGo := by
    rintro ⟨latest', answer', hm⟩
    rw [ht] at hm
    rcases List.mem_cons.1 hm with hm | hm
    · cases hm
    · cases hc _ hm
  have hafter : (e.after (.call (.removeFinalizer latest) answer)).LetsGo :=
    ⟨latest, answer, List.mem_append_right _ (List.mem_singleton_self _)⟩
  exact {
    keyed := by
      intro env he
      obtain ⟨before, hb, hk, _⟩ := left env he
      exact hk.trans (h.keyed before hb)
    sound := by
      obtain ⟨he, hes⟩ := List.forall_mem_cons.1 h.sound
      refine List.forall_mem_cons.2 ⟨he.after begun leads ?_, hes⟩
      intro env hr old status updated hd
      cases hd
    held := by
      intro f hm env hr held
      rcases h.held_after begun f hm env hr held with ⟨before, hs, hi, _⟩ | hl
      · obtain ⟨stored, hs', hi', _⟩ := h.current e older env₀ rfl hr₀ held₀ hl₀
        rw [hs] at hs'
        obtain rfl := Option.some.inj hs'
        exact .inr ⟨_, List.mem_cons_self .., env₀, (Episode.read_after begun).2 hr₀,
          hi'.symm.trans hi, hafter⟩
      · exact .inr hl
    noted := by
      intro f hm env space hr hi stored hs huid
      obtain ⟨before, hb, _, hu, hn⟩ := left stored hs
      rw [hn]
      rcases List.mem_cons.1 hm with rfl | hm
      · have hr' := (Episode.read_after begun).1 hr
        rcases Episode.into_after begun hi with hi | ⟨status, updated, _, _, hd⟩
        · exact h.noted e (List.mem_cons_self ..) env space hr' hi before hb (hu.symm.trans huid)
        · cases hd
      · exact h.noted f (List.mem_cons_of_mem _ hm) env space hr hi before hb (hu.symm.trans huid)
    current := by
      intro f older' env he _ _ hl
      obtain ⟨rfl, rfl⟩ := List.cons.inj he
      exact absurd hafter hl }

/-! ## Whatever a pass calls -/

/-- As long as the deletion of a record has not been requested, its release is not asked for. -/
theorem not_letsGo (h : Custody k r (e :: older)) {env : Environment} (hr : e.Read env)
    (staying : env.metadata.isDeleting = false) : ¬e.LetsGo := by
  intro hl
  have deleting := (h.sound e (List.mem_cons_self ..)).deleting hr hl
  rw [staying] at deleting
  cases deleting

/-- A status is written to the record that was read, which is still there; it names the namespace
that is recorded already, or the first one. -/
theorem patches (h : Custody k r (e :: older)) {old : Environment} {status : Status}
    (asks : e.pass.Asks e.trace (.patchStatus old status)) :
    ∃ env stored, e.Read env ∧ old.key = k ∧ r = some stored ∧
      stored.metadata.uid = env.metadata.uid ∧
      (status.ns = stored.known.ns ∨
        (stored.known.ns = none ∧ env.metadata.isDeleting = false)) := by
  have sound := h.sound e (List.mem_cons_self ..)
  have turn := turn_of_asks asks
  generalize ht : e.trace = t at turn
  generalize hc : Call.patchStatus old status = c at turn
  cases turn with
  | read | hold | letGo => cases hc
  | clear _ _ _ _ _ _ turn =>
    subst hc
    obtain ⟨_, hc⟩ | ⟨_, _, _, hc⟩ := Child.asks_removeOwned (Child.asks_remove.1 turn) <;> cases hc
  | @refuse ns env status' place staying held same =>
    injection hc with ho hs
    subst ho hs
    have hr : e.Read old := ⟨ns, [], place, ht⟩
    obtain ⟨stored, hs, hu, _, hn⟩ := h.current e older old rfl hr held (h.not_letsGo hr staying)
    exact ⟨old, stored, hr, sound.named old hr, hs, hu,
      .inl (same.trans (hn (.inl (by rw [ht]; rfl))).symm)⟩
  | @mark ns env place deleting held =>
    injection hc with ho hs
    subst ho hs
    have hr : e.Read old := ⟨ns, [], place, ht⟩
    have hl : ¬e.LetsGo := by
      rintro ⟨latest, answer, hm⟩
      rw [ht, List.mem_singleton] at hm
      cases hm
    obtain ⟨stored, hs, hu, _, hn⟩ := h.current e older old rfl hr held hl
    exact ⟨old, stored, hr, sound.named old hr, hs, hu, .inl (hn (.inr deleting)).symm⟩
  | @converge ns env t' c' place staying held valid turn =>
    have hr : e.Read env := ⟨ns, t', place, ht⟩
    obtain ⟨stored, hs, hu, _, hn⟩ := h.current e older env rfl hr held (h.not_letsGo hr staying)
    subst hc
    cases turn with
    | tend _ upkeep => cases upkeep
    | accept unrecorded =>
      have hn := hn (.inl (by rw [ht]; rfl))
      exact ⟨old, stored, hr, sound.named old hr, hs, hu, .inr ⟨hn.trans unrecorded, staying⟩⟩
    | write hent same =>
      obtain ⟨_, hi, hk, _⟩ := sound.entered place ht hent
      have hns := h.noted e (List.mem_cons_self ..) env _ hr hi stored hs hu
      exact ⟨env, stored, hr, hk, hs, hu, .inl (same.trans hns.symm)⟩

variable {s store : Store} {c : Call} {answer : c.Answer}

private theorem call_quiet (h : Custody k (s.record? k) (e :: older)) (begun : e.trace ≠ [])
    (asks : e.pass.Asks e.trace c) (served : s.Served c answer store)
    (quiet : c.recordKey? = none) :
    Custody k (store.record? k) (e.after (.call c answer) :: older) := by
  obtain ⟨next, leads⟩ := asks
  rw [served.record?_of_ne (by simp [quiet])]
  refine h.grow (.refl e _) begun (leads.snoc answer) ?_
  intro env _ old status updated hd
  injection hd with hc _
  rw [hc] at quiet
  cases quiet

private theorem call_patch {old : Environment} {status : Status}
    {answer : Call.Answer (.patchStatus old status)} (h : Custody k (s.record? k) (e :: older))
    (asks : e.pass.Asks e.trace (.patchStatus old status))
    (served : s.Served (.patchStatus old status) answer store) :
    Custody k (store.record? k) (e.after (.call (.patchStatus old status) answer) :: older) := by
  obtain ⟨env, stored, hr, hk, hs, hu, hn⟩ := h.patches asks
  obtain ⟨next, leads⟩ := asks
  have leads' := leads.snoc answer
  have begun := Episode.trace_ne_nil hr
  -- Whether the write lands or not, and whether its answer comes back or not.
  have kept : Custody.Kept e (s.record? k)
      (some (Store.bump { stored with status := some status })) := by
    rw [hs]
    refine .some rfl rfl id ?_
    rcases hn with hn | ⟨hn, staying⟩
    · exact .inl hn
    · refine .inr ⟨hn, fun env' hr' => ?_⟩
      rw [Episode.read_unique hr' hr]
      exact staying
  have lost (e' : Failure) (ha : answer = .error e') : ∀ env, e.Read env →
      ∀ old' status' updated, Deed.call (.patchStatus old status) answer =
        .call (.patchStatus old' status') (.ok updated) → updated.key = k ∧
          updated.metadata.uid = env.metadata.uid ∧
          ∀ r, store.record? k = some r → r.known.ns = status'.ns := by
    intro _ _ old' status' updated hd
    injection hd with hc hd
    subst ha
    injection hc with ho hs
    subst ho hs
    cases hd
  rcases Store.serve_patchStatus s old status with ⟨stored', hs', hans, hrec⟩ | ⟨e', hans, hsame⟩
  · rw [hk] at hs' hrec
    rw [hs] at hs'
    obtain rfl := Option.some.inj hs'
    cases served with
    | failed e' => exact h.grow (.refl e _) begun leads' (lost e' rfl)
    | lost e' =>
      have hl := lost e' rfl
      rw [hrec] at hl ⊢
      exact h.grow kept begun leads' hl
    | answered =>
      rw [hrec]
      refine h.grow kept begun leads' ?_
      intro env' hr' old' status' updated hd
      injection hd with hc hd
      injection hc with ho hst
      subst ho hst
      rw [hans] at hd
      injection hd with hd
      subst hd
      rw [Episode.read_unique hr' hr]
      refine ⟨h.keyed stored hs, hu, fun r hr => ?_⟩
      obtain rfl := Option.some.inj hr
      rfl
  · have hsame' : store.record? k = s.record? k ∧ ∃ e', answer = .error e' := by
      cases served with
      | answered => exact ⟨by rw [hsame], e', hans⟩
      | lost e'' => exact ⟨by rw [hsame], e'', rfl⟩
      | failed e'' => exact ⟨rfl, e'', rfl⟩
    obtain ⟨hrec, e'', ha⟩ := hsame'
    have hl := lost e'' ha
    rw [hrec] at hl ⊢
    exact h.grow (.refl e _) begun leads' hl

private theorem call_hold {env : Environment} {answer : Call.Answer (.addFinalizer env)}
    (h : Custody k (s.record? k) (e :: older)) (hk : env.key = k) (begun : e.trace ≠ [])
    (asks : e.pass.Asks e.trace (.addFinalizer env))
    (served : s.Served (.addFinalizer env) answer store) :
    Custody k (store.record? k) (e.after (.call (.addFinalizer env) answer) :: older) := by
  obtain ⟨next, leads⟩ := asks
  have kept : Custody.Kept e (s.record? k) (store.record? k) := by
    rcases Store.serve_addFinalizer s env with ⟨stored, hs, hrec⟩ | hsame
    · rw [hk] at hs hrec
      cases served with
      | failed => exact .refl e _
      | answered | lost =>
        rw [hs, hrec]
        refine .some rfl rfl (fun _ => ?_) (.inl rfl)
        simp
    · cases served with
      | failed => exact .refl e _
      | answered | lost =>
        rw [hsame]
        exact .refl e _
  refine h.grow kept begun (leads.snoc answer) ?_
  intro _ _ old status updated hd
  injection hd with hc _
  cases hc

private theorem call_release {latest : Environment} {answer : Call.Answer (.removeFinalizer latest)}
    (h : Custody k (s.record? k) (e :: older)) (hk : latest.key = k)
    (asks : e.pass.Asks e.trace (.removeFinalizer latest))
    (served : s.Served (.removeFinalizer latest) answer store) :
    Custody k (store.record? k) (e.after (.call (.removeFinalizer latest) answer) :: older) := by
  obtain ⟨next, leads⟩ := id asks
  refine h.release asks (leads.snoc answer) ?_
  intro after ha
  have same (hr : store.record? k = s.record? k) : ∃ before, s.record? k = some before ∧
      after.key = before.key ∧ after.metadata.uid = before.metadata.uid ∧
      after.known.ns = before.known.ns := ⟨after, hr ▸ ha, rfl, rfl, rfl⟩
  rcases Store.serve_removeFinalizer s latest with ⟨stored, hs, hrec⟩ | hsame
  · rw [hk] at hs hrec
    cases served with
    | failed => exact same rfl
    | answered | lost =>
      rcases hrec with hrec | ⟨rest, hrec⟩
      · rw [hrec] at ha
        cases ha
      · rw [hrec] at ha
        obtain rfl := Option.some.inj ha
        exact ⟨stored, hs, rfl, rfl, rfl⟩
  · cases served with
    | failed => exact same rfl
    | answered | lost => exact same (by rw [hsame])

/-- Custody is kept by every call of the latest pass, whatever comes of it, and the call writes to
no other record. -/
theorem call (h : Custody k (s.record? k) (e :: older)) (asks : e.pass.Asks e.trace c)
    (served : s.Served c answer store) :
    Custody k (store.record? k) (e.after (.call c answer) :: older) ∧
      (c.recordKey? = none ∨ c.recordKey? = some k) := by
  have sound := h.sound e (List.mem_cons_self ..)
  have turn := turn_of_asks asks
  generalize ht : e.trace = t at turn
  have quiet (hne : t ≠ []) (hq : c.recordKey? = none) :
      Custody k (store.record? k) (e.after (.call c answer) :: older) ∧
        (c.recordKey? = none ∨ c.recordKey? = some k) :=
    ⟨h.call_quiet (ht ▸ hne) asks served hq, .inl hq⟩
  have patch (old : Environment) (status : Status) (hc : c = .patchStatus old status) :
      Custody k (store.record? k) (e.after (.call c answer) :: older) ∧
        (c.recordKey? = none ∨ c.recordKey? = some k) := by
    subst hc
    obtain ⟨_, _, _, hk, _⟩ := h.patches asks
    exact ⟨h.call_patch asks served, .inr (congrArg some hk)⟩
  cases turn with
  | @read ns place =>
    refine ⟨?_, .inl rfl⟩
    obtain ⟨next, leads⟩ := asks
    have leads' := leads.snoc answer
    rw [ht, List.nil_append] at leads'
    have hkey : (⟨ns, e.notice.anyName⟩ : RecordKey) = k := by
      rw [← sound.key, Episode.key, place]
      rfl
    have hstore : store.record? k = s.record? k := served.record?_of_ne nofun
    rw [hstore]
    refine h.first ht place leads' fun env ha => ?_
    cases served with
    | answered =>
      injection ha with ha
      rw [← hkey]
      exact ha
    | lost | failed => cases ha
  | @hold ns env place staying free =>
    have hr : e.Read env := ⟨ns, [], place, ht⟩
    have hk := sound.named env hr
    exact ⟨h.call_hold hk (Episode.trace_ne_nil hr) asks served, .inr (congrArg some hk)⟩
  | refuse => exact patch _ _ rfl
  | mark => exact patch _ _ rfl
  | converge _ _ _ _ turn =>
    cases turn with
    | accept => exact patch _ _ rfl
    | write => exact patch _ _ rfl
    | price => exact quiet (List.cons_ne_nil _ _) rfl
    | tend _ upkeep => exact quiet (List.cons_ne_nil _ _) (by cases upkeep <;> rfl)
  | clear _ _ _ _ _ _ turn =>
    refine quiet (List.cons_ne_nil _ _) ?_
    rcases Child.asks_removeOwned (Child.asks_remove.1 turn) with ⟨_, rfl⟩ | ⟨_, _, _, rfl⟩ <;> rfl
  | @letGo ns env latest mark u place deleting held marked cleared =>
    have hr : e.Read env := ⟨ns, mark ++ u, place, ht⟩
    have hk : latest.key = k := by
      cases marked with
      | already | unwritten => exact sound.named env hr
      | written =>
        refine (sound.answered env hr env (env.known.terminating e.now) latest ?_).1
        rw [ht]
        exact List.mem_cons_of_mem _ (List.mem_cons_self ..)
    exact ⟨h.call_release hk asks served, .inr (congrArg some hk)⟩

end Custody

/-! ## The cleanup -/

namespace Cleanup

/-- The calls of the cleanup. -/
inductive Chore : Call → Prop where
  | list (ns : String) : Chore (.listEnvironments ns)
  | delete (name ns : String) : Chore (.deleteEnvironment name ns)

theorem makes_measureAll (ms : List Measurement) : (measureAll ms).Makes fun _ => False := by
  induction ms with
  | nil => exact makes_done ()
  | cons m ms ih => exact makes_bind (makes_measure _) fun _ => ih

theorem makes_expireAll (sum : Summary) (envs : List Environment) :
    (expireAll sum envs).Makes Chore := by
  induction envs generalizing sum with
  | nil => exact makes_done sum
  | cons env envs ih =>
    refine makes_bind (makes_bind (makes_inquire (.delete ..)) fun answer => ?_) ih
    cases answer with
    | ok => exact makes_bind (makes_measure _) fun _ => makes_done _
    | error e => exact makes_bind (makes_measure _) fun _ => makes_done _

theorem makes_pass (ns : String) (now : Instant) : (pass ns now).Makes Chore := by
  refine makes_bind (makes_request (.list ns)) fun envs => ?_
  exact makes_bind ((makes_measureAll _).mono fun _ => False.elim) fun _ => makes_expireAll _ _

end Cleanup

/-! ## Runs -/

namespace World

variable {w w' : World} {k : RecordKey}

/-- A cleanup pass does nothing to records but to request their deletion. -/
theorem makes_sweep (s : Sweep) :
    s.pass.Makes fun c => c.recordKey? = none ∨ ∃ name ns, c = .deleteEnvironment name ns := by
  refine (Cleanup.makes_pass s.ns s.now).mono fun c hc => ?_
  cases hc with
  | list => exact .inl rfl
  | delete name ns => exact .inr ⟨name, ns, rfl⟩

private theorem custody_deleteRecord {s : Store} {es : List Episode} (key : RecordKey)
    (h : Custody k (s.record? k) es) : Custody k ((s.deleteRecord key).record? k) es := by
  by_cases hk : key = k
  · subst hk
    cases hs : s.record? key with
    | none =>
      have hd : s.deleteRecord key = s := by
        unfold Store.deleteRecord
        rw [hs]
      rw [hd]
      exact h
    | some stored =>
      rw [hs] at h
      rcases Store.record?_deleteRecord hs with ⟨hd, free⟩ | ⟨after, hd, hk, hu, hf, hn⟩
      · rw [hd]
        exact h.vanish free
      · rw [hd]
        exact h.edit hk hu (fun hh => hf.trans hh) (by rw [hn])
  · rw [Store.record?_deleteRecord_of_ne hk]
    exact h

private theorem custody_served {s store : Store} {es : List Episode} {c : Call}
    {answer : c.Answer} (served : s.Served c answer store)
    (hc : c.recordKey? = none ∨ ∃ name ns, c = .deleteEnvironment name ns)
    (h : Custody k (s.record? k) es) : Custody k (store.record? k) es := by
  rcases hc with hq | ⟨name, ns, rfl⟩
  · rw [served.record?_of_ne (by simp [hq])]
    exact h
  · cases served with
    | answered | lost => exact custody_deleteRecord ⟨ns, name⟩ h
    | failed => exact h

/-- One step keeps the custody of every record. -/
theorem custody_step (h : ∀ k, Custody k (w.store.record? k) (w.passes k)) (step : w.Step w')
    (k : RecordKey) : Custody k (w'.store.record? k) (w'.passes k) := by
  cases step with
  | begin e unbegun =>
    by_cases hk : k = e.key
    · subst hk
      simp only [Function.update_self]
      exact (h e.key).begin rfl unbegun
    · simp only [Function.update_of_ne hk]
      exact h k
  | @call k' e older c answer store latest asks served =>
    have hc := h k'
    rw [latest] at hc
    obtain ⟨hown, hkey⟩ := hc.call asks served
    by_cases hk : k = k'
    · subst hk
      simp only [Function.update_self]
      exact hown
    · simp only [Function.update_of_ne hk]
      rw [served.record?_of_ne]
      · exact h k
      · rcases hkey with hkey | hkey
        · simp [hkey]
        · rw [hkey]
          exact fun he => hk (Option.some.inj he).symm
  | @note k' e older d rest latest quiet leads =>
    by_cases hk : k = k'
    · subst hk
      simp only [Function.update_self]
      have hc := h k
      rw [latest] at hc
      exact hc.note quiet leads
    · simp only [Function.update_of_ne hk]
      exact h k
  | sweepBegin | sweepNote => exact h k
  | sweepCall among asks served => exact custody_served served (makes_sweep _ _ _ asks) (h k)
  | @edit k' env edited there edit =>
    simp only [Store.record?_putRecord]
    split
    · next hk =>
      subst hk
      have hc := h k
      rw [there] at hc
      exact hc.edit edit.key edit.uid edit.held edit.ns
    · exact h k
  | delete key => exact custody_deleteRecord key (h k)
  | @vanish k' env there free =>
    simp only [Store.record?_eraseRecord]
    split
    · next hk =>
      subst hk
      have hc := h k
      rw [there] at hc
      exact hc.vanish free
    · exact h k
  | @create env absent unseen =>
    simp only [Store.record?_putRecord]
    split
    · next hk =>
      subst hk
      have hc := h env.key
      rw [absent] at hc
      exact hc.create rfl unseen
    · exact h k
  | drift same =>
    simp only [Store.record?, same]
    exact h k

theorem Reachable.custody (h : w.Reachable) (k : RecordKey) :
    Custody k (w.store.record? k) (w.passes k) := by
  induction h generalizing k with
  | start hs =>
    rw [hs.passes]
    exact .start (hs.keyed k)
  | step _ step ih => exact custody_step ih step k

end World
end PreviewControl
