import Mathlib.Data.Fintype.EquivFin
import Mathlib.Data.Finset.Dedup
import PreviewControl.Proofs.Provenance
import PreviewControl.Proofs.World

/-!
# A record that others write too

A record on a server, one pass after the other over it, and others who may write it between any two
calls. The server gives the record a new version with every write, and it accepts a write only if
that is based on the version that is stored. What others write is a parameter.
-/
namespace PreviewControl

open Reconcile

def Environment.version? (env : Environment) : Option String := env.metadata.resourceVersion

/-- The record with other finalizers and another version. -/
def Environment.refinalized (env : Environment) (version : String) (finalizers : List String) :
    Environment :=
  restated (Store.withFinalizers env finalizers) (some version) env.status

/-- What is left of a record after a write; one that is being deleted and that nothing holds any
more goes away. -/
def Environment.remnant? (env : Environment) : Option Environment :=
  if env.metadata.isDeleting && env.metadata.heldBy.isEmpty then none else some env

namespace Contest

/-- What happens around a record. -/
inductive Entry where
  /-- A pass begins. Nothing more is heard of the one before. -/
  | began
  /-- The server answers a call. -/
  | answered (d : Deed)
  /-- A call fails without effect. -/
  | failed (c : Call)
  /-- A write is accepted, but its answer gets lost. -/
  | lost (c : Call)
  /-- The pass reports or measures something. -/
  | noted (d : Deed)
  /-- Others write the record. -/
  | others

/-- The record has changed since the pass was last told of it: others have written it, or a write of
the pass has lost its answer. The latest entry comes first. -/
def stirred : List Entry → Bool
  | [] | .began :: _ => false
  | .others :: _ | .lost _ :: _ => true
  | .answered d :: log => d.told?.isNone && stirred log
  | .failed _ :: log | .noted _ :: log => stirred log

/-- The server has refused a write of the pass because it was based on an old version. -/
def conflicted : List Entry → Bool
  | [] | .began :: _ => false
  | .answered d :: log => d.isConflict || conflicted log
  | .failed _ :: log | .lost _ :: log | .noted _ :: log | .others :: log => conflicted log

end Contest

/-- A record on a server, with the pass that is at work on it and all that has happened. -/
structure Contest where
  stored : Option Environment
  /-- The versions that the server has given out. -/
  given : List String
  pass : Episode
  log : List Contest.Entry

namespace Contest

/-- How the server answers a call, and what is stored after that. -/
inductive Serves (x : Contest) : (c : Call) → c.Answer → Option Environment → Prop where
  | read {name ns : String} (about : x.pass.key = ⟨ns, name⟩) :
    Serves x (.getEnvironment name ns) (.ok x.stored) x.stored
  | aside {c : Call} {answer : c.Answer} (aside : c.isAside = true) : Serves x c answer x.stored
  | status {env cur : Environment} {status : Status} {v : String} (about : env.key = x.pass.key)
      (there : x.stored = some cur) (current : env.version? = cur.version?) (fresh : v ∉ x.given) :
    -- A status is merged into the one that is stored.
    Serves x (.patchStatus env status)
      (.ok (restated cur (some v) (some (status.mergedInto cur.known))))
      (some (restated cur (some v) (some (status.mergedInto cur.known))))
  | hold {env cur : Environment} {v : String} (about : env.key = x.pass.key)
      (there : x.stored = some cur) (current : env.version? = cur.version?) (fresh : v ∉ x.given) :
    -- The finalizers are sent as a whole, made from those that were read.
    Serves x (.addFinalizer env) (.ok ()) (some (cur.refinalized v
      (env.metadata.heldBy ++ [Environment.cleanupFinalizer])))
  | letGo {env cur : Environment} {v : String} (about : env.key = x.pass.key)
      (there : x.stored = some cur) (current : env.version? = cur.version?) (fresh : v ∉ x.given) :
    Serves x (.removeFinalizer env) (.ok ()) (cur.refinalized v
      (env.metadata.heldBy.filter (· != Environment.cleanupFinalizer))).remnant?
  | conflict {c : Call} {env cur : Environment} {e : Failure} (basis : c.basis? = some env)
      (there : x.stored = some cur) (outdated : env.version? ≠ cur.version?)
      (kind : e.isConflict = true) : Serves x c (.error e) x.stored
  | missing {c : Call} {env : Environment} {e : Failure} (basis : c.basis? = some env)
      (gone : x.stored = none) (kind : e.isConflict = false) : Serves x c (.error e) x.stored

/-- The record is stored anew, or is gone. -/
def put (x : Contest) (stored : Option Environment) : Contest :=
  { x with
    stored := stored
    given := (stored.bind (·.version?)).toList ++ x.given }

/-- The pass has done something more. -/
def go (x : Contest) (d : Deed) (entry : Entry) : Contest :=
  { x with pass := x.pass.after d, log := entry :: x.log }

/-- A version of the record that the server has not given out before. -/
structure Fresh (x : Contest) (env : Environment) : Prop where
  keyed : env.key = x.pass.key
  versioned : ∃ v, env.version? = some v ∧ v ∉ x.given

/-- One step of the pass, of the server or of others. -/
inductive Step (others : Option Environment → Option Environment → Prop) (x : Contest) :
    Contest → Prop where
  | begin (e : Episode) (unbegun : e.trace = []) (about : e.key = x.pass.key) :
    Step others x { x with pass := e, log := .began :: x.log }
  | answer {c : Call} {answer : c.Answer} {stored : Option Environment}
      (asks : x.pass.pass.Asks x.pass.trace c) (serves : x.Serves c answer stored) :
    Step others x ((x.put stored).go (.call c answer) (.answered (.call c answer)))
  | fail {c : Call} (e : Failure) (asks : x.pass.pass.Asks x.pass.trace c) :
    Step others x (x.go (.call c (.error e)) (.failed c))
  | lose {c : Call} {reply : c.Reply} {stored : Option Environment} (e : Failure)
      (asks : x.pass.pass.Asks x.pass.trace c) (writes : c.basis?.isSome = true)
      (serves : x.Serves c (.ok reply) stored) :
    Step others x ((x.put stored).go (.call c (.error e)) (.lost c))
  | note {d : Deed} {rest : Pass Requeue} (quiet : ∀ c answer, d ≠ .call c answer)
      (leads : x.pass.pass.Leads (x.pass.trace ++ [d]) rest) :
    Step others x (x.go d (.noted d))
  | others {stored : Option Environment} (may : others x.stored stored)
      (fresh : ∀ env, stored = some env → x.Fresh env) :
    Step others x { x.put stored with log := .others :: x.log }

/-- The record is stored under its key and with a version, and nothing has happened yet. -/
structure Start (x : Contest) : Prop where
  keyed : ∀ env, x.stored = some env → env.key = x.pass.key
  versioned : ∀ env, x.stored = some env → ∃ v ∈ x.given, env.version? = some v
  unbegun : x.pass.trace = []
  log : x.log = []

inductive Reachable (others : Option Environment → Option Environment → Prop) : Contest → Prop where
  | start {x : Contest} (h : Start x) : Reachable others x
  | step {x x' : Contest} (h : Reachable others x) (s : Step others x x') : Reachable others x'

/-! ## What the operator knows -/

/-- What the pass has been told is true: unless the record has been stirred since, it is stored as
the pass knows it. -/
structure Coherent (x : Contest) : Prop where
  keyed : ∀ env, x.stored = some env → env.key = x.pass.key
  versioned : ∀ env, x.stored = some env → ∃ v ∈ x.given, env.version? = some v
  told : ∀ env, newest? x.pass.trace = some env →
    env.key = x.pass.key ∧ ∃ v ∈ x.given, env.version? = some v
  faithful : ∀ d ∈ x.pass.trace, d.Faithful
  unchanged : ∀ env, newest? x.pass.trace = some env →
    (∀ d ∈ x.pass.trace, d.isFinalizing = false) → stirred x.log = false → x.stored = some env
  moved : ∀ env cur, newest? x.pass.trace = some env → stirred x.log = true →
    x.stored = some cur → env.version? ≠ cur.version?
  conflicts : conflicted x.log = true → stirred x.log = true ∧
    ∃ d e, .call d (.error e) ∈ x.pass.trace ∧ d.basis?.isSome = true

variable {others : Option Environment → Option Environment → Prop} {x x' : Contest} {c : Call}
  {env cur : Environment}

@[simp] theorem put_pass (stored : Option Environment) : (x.put stored).pass = x.pass := rfl
@[simp] theorem put_log (stored : Option Environment) : (x.put stored).log = x.log := rfl
@[simp] theorem put_stored (stored : Option Environment) : (x.put stored).stored = stored := rfl

theorem mem_given_put {stored : Option Environment} {v : String} (h : v ∈ x.given) :
    v ∈ (x.put stored).given := List.mem_append_right _ h

theorem versioned_put {v : String} (h : env.version? = some v) : v ∈ (x.put (some env)).given := by
  refine List.mem_append_left _ ?_
  rw [Option.bind_some, h]
  exact List.mem_singleton_self v

theorem Start.coherent (h : Start x) : x.Coherent where
  keyed := h.keyed
  versioned := h.versioned
  told env henv := by
    rw [h.unbegun] at henv
    cases henv
  faithful d hd := by
    rw [h.unbegun] at hd
    cases hd
  unchanged env henv := by
    rw [h.unbegun] at henv
    cases henv
  moved env cur henv := by
    rw [h.unbegun] at henv
    cases henv
  conflicts hc := by
    rw [h.log] at hc
    cases hc

/-- A write that the pass asks for is based on the newest version that it knows. -/
theorem basis_of_asks (asks : x.pass.pass.Asks x.pass.trace c) (basis : c.basis? = some env) :
    newest? x.pass.trace = some env := newest?_of_asks asks basis

/-- A write is based on the version that is stored exactly if the record has not been stirred. -/
theorem Coherent.current_iff (h : x.Coherent) (asks : x.pass.pass.Asks x.pass.trace c)
    (basis : c.basis? = some env) (there : x.stored = some cur) :
    env.version? = cur.version? ↔ stirred x.log = false := by
  have hnewest := basis_of_asks asks basis
  constructor
  · intro heq
    cases hs : stirred x.log with
    | false => rfl
    | true => exact absurd heq (h.moved env cur hnewest hs there)
  · intro hs
    have hstored := h.unchanged env hnewest
      (fun d hd => not_isFinalizing_of_asks (by rw [basis]; rfl) asks hd) hs
    rw [there] at hstored
    rw [Option.some.inj hstored]

/-- A write that is based on the stored version is based on the stored record. -/
theorem Coherent.stored_of_current (h : x.Coherent) (asks : x.pass.pass.Asks x.pass.trace c)
    (basis : c.basis? = some env) (there : x.stored = some cur)
    (current : env.version? = cur.version?) : env = cur := by
  have hs := (h.current_iff asks basis there).1 current
  have hstored := h.unchanged env (basis_of_asks asks basis)
    (fun d hd => not_isFinalizing_of_asks (by rw [basis]; rfl) asks hd) hs
  exact Option.some.inj (hstored.symm.trans there)

/-! ## What a step keeps -/

theorem go_trace (d : Deed) (entry : Entry) :
    (x.go d entry).pass.trace = x.pass.trace ++ [d] := rfl

private theorem newest?_go {d : Deed} (h : d.told? = none) (entry : Entry) :
    newest? (x.go d entry).pass.trace = newest? x.pass.trace :=
  newest?_append fun _ hd => List.mem_singleton.1 hd ▸ h

private theorem faithful_go (h : x.Coherent) {d : Deed} (hd : d.Faithful) (entry : Entry) :
    ∀ d' ∈ (x.go d entry).pass.trace, d'.Faithful := by
  intro d' hd'
  rcases List.mem_append.1 hd' with hd' | hd'
  · exact h.faithful d' hd'
  · rw [List.mem_singleton.1 hd']
    exact hd

private theorem stirred_answered {d : Deed} (h : d.told? = none) (log : List Entry) :
    stirred (.answered d :: log) = stirred log := by
  rw [stirred, h]
  rfl

/-- What neither changes the record nor tells of it leaves the pass as well informed as before. -/
private theorem Coherent.go_untold (h : x.Coherent) {d : Deed} {entry : Entry}
    (untold : d.told? = none) (faithful : d.Faithful)
    (same : stirred (entry :: x.log) = stirred x.log)
    (conflict : conflicted (entry :: x.log) = true → conflicted x.log = true ∨
      (stirred x.log = true ∧ ∃ c e, d = .call c (.error e) ∧ c.basis?.isSome = true)) :
    (x.go d entry).Coherent where
  keyed := h.keyed
  versioned := h.versioned
  told env henv := h.told env ((newest?_go untold entry).symm.trans henv)
  faithful := faithful_go h faithful entry
  unchanged env henv hfin hs :=
    h.unchanged env ((newest?_go untold entry).symm.trans henv)
      (fun d' hd' => hfin d' (List.mem_append_left _ hd')) (same.symm.trans hs)
  moved env cur henv hs :=
    h.moved env cur ((newest?_go untold entry).symm.trans henv) (same.symm.trans hs)
  conflicts hc := by
    rcases conflict hc with hc | ⟨hs, c, e, rfl, hbasis⟩
    · obtain ⟨hs, d', e, hd', hbasis⟩ := h.conflicts hc
      exact ⟨same.trans hs, d', e, List.mem_append_left _ hd', hbasis⟩
    · exact ⟨same.trans hs, c, e, List.mem_append_right _ (List.mem_singleton_self _), hbasis⟩

/-- A new version that the pass is not told of differs from all that it knows. -/
private theorem Coherent.renew (h : x.Coherent) {stored : Option Environment}
    (fresh : ∀ env, stored = some env → x.Fresh env) (hstored : x'.stored = stored)
    (hgiven : x'.given = (x.put stored).given) (hkey : x'.pass.key = x.pass.key)
    (hnewest : newest? x'.pass.trace = newest? x.pass.trace)
    (faithful : ∀ d ∈ x'.pass.trace, d.Faithful)
    (unaware : stirred x'.log = true ∨ ∃ d ∈ x'.pass.trace, d.isFinalizing = true)
    (conflicts : conflicted x'.log = true → stirred x'.log = true ∧
      ∃ d e, .call d (.error e) ∈ x'.pass.trace ∧ d.basis?.isSome = true) : x'.Coherent where
  keyed env henv := hkey ▸ (fresh env (hstored.symm.trans henv)).keyed
  versioned env henv := by
    have hstored := hstored.symm.trans henv
    obtain ⟨v, hv, _⟩ := (fresh env hstored).versioned
    rw [hgiven, hstored]
    exact ⟨v, versioned_put hv, hv⟩
  told env henv := by
    obtain ⟨hk, v, hv, hversion⟩ := h.told env (hnewest.symm.trans henv)
    rw [hgiven, hkey]
    exact ⟨hk, v, mem_given_put hv, hversion⟩
  faithful := faithful
  unchanged env henv hfin hs := by
    rcases unaware with hs' | ⟨d, hd, hf⟩
    · rw [hs] at hs'
      cases hs'
    · rw [hfin d hd] at hf
      cases hf
  moved env cur henv _ hcur heq := by
    obtain ⟨_, v, hv, hversion⟩ := h.told env (hnewest.symm.trans henv)
    obtain ⟨w, hw, hnew⟩ := (fresh cur (hstored.symm.trans hcur)).versioned
    rw [hversion, hw] at heq
    exact hnew (Option.some.inj heq ▸ hv)
  conflicts := conflicts

/-- What an accepted write leaves is a version that is new. -/
theorem Serves.fresh (h : x.Coherent) {reply : c.Reply} {stored : Option Environment}
    (serves : x.Serves c (.ok reply) stored) (writes : c.basis?.isSome = true) :
    ∀ env, stored = some env → x.Fresh env := by
  intro env henv
  cases serves with
  | read => cases writes
  | aside aside =>
    rw [Call.basis?_of_isAside aside] at writes
    cases writes
  | @status old cur status v about there current fresh =>
    cases henv
    exact ⟨h.keyed cur there, v, rfl, fresh⟩
  | @hold old cur v about there current fresh =>
    cases henv
    exact ⟨h.keyed cur there, v, rfl, fresh⟩
  | @letGo old cur v about there current fresh =>
    unfold Environment.remnant? at henv
    split at henv
    · cases henv
    · cases henv
      exact ⟨h.keyed cur there, v, rfl, fresh⟩

/-- An accepted write finds the record as the pass knows it. -/
theorem Serves.stored (h : x.Coherent) (asks : x.pass.pass.Asks x.pass.trace c) {reply : c.Reply}
    {stored : Option Environment} (serves : x.Serves c (.ok reply) stored)
    (basis : c.basis? = some env) : x.stored = some env := by
  have found {old cur : Environment} (hold : c.basis? = some old) (there : x.stored = some cur)
      (current : old.version? = cur.version?) : x.stored = some env := by
    have heq := h.stored_of_current asks hold there current
    rw [there, ← heq, ← hold, basis]
  cases serves with
  | read => cases basis
  | aside aside =>
    rw [Call.basis?_of_isAside aside] at basis
    cases basis
  | status _ there current => exact found rfl there current
  | hold _ there current => exact found rfl there current
  | letGo _ there current => exact found rfl there current

/-- Where the server has refused a write as outdated, all that the pass can still write is refused.
-/
theorem Coherent.not_conflicted (h : x.Coherent)
    (asks : x.pass.pass.Asks x.pass.trace c) {reply : c.Reply} {stored : Option Environment}
    (serves : x.Serves c (.ok reply) stored) (writes : c.basis?.isSome = true) :
    conflicted x.log = false := by
  obtain ⟨env, basis⟩ := Option.isSome_iff_exists.1 writes
  have there := serves.stored h asks basis
  have hs := (h.current_iff asks basis there).1 rfl
  cases hc : conflicted x.log with
  | false => rfl
  | true =>
    rw [(h.conflicts hc).1] at hs
    cases hs

/-- A pass that has just been told of the record knows it as it is stored. -/
private theorem coherent_of_told {d : Deed} (there : x.stored = some env)
    (keyed : env.key = x.pass.key) (versioned : ∃ v ∈ x.given, env.version? = some v)
    (told : d.told? = some env) (faithful : ∀ d' ∈ x.pass.trace ++ [d], d'.Faithful)
    (calm : conflicted (.answered d :: x.log) = false) : (x.go d (.answered d)).Coherent := by
  have hnewest : newest? (x.go d (.answered d)).pass.trace = some env := by
    rw [go_trace, newest?_snoc, told]
    rfl
  have hs : stirred (x.go d (.answered d)).log = false := by
    show (d.told?.isNone && stirred x.log) = false
    rw [told]
    rfl
  have known {env' : Environment} (h : newest? (x.go d (.answered d)).pass.trace = some env') :
      env = env' := Option.some.inj (hnewest.symm.trans h)
  have stored {env' : Environment} (h : x.stored = some env') : env = env' :=
    Option.some.inj (there.symm.trans h)
  exact {
    keyed := fun env' h => stored h ▸ keyed
    versioned := fun env' h => stored h ▸ versioned
    told := fun env' h => known h ▸ ⟨keyed, versioned⟩
    faithful := faithful
    unchanged := fun env' h _ _ => known h ▸ there
    moved := fun env' cur _ hs' => by
      rw [hs] at hs'
      cases hs'
    conflicts := fun hc => by
      have hc : conflicted (.answered d :: x.log) = true := hc
      rw [calm] at hc
      cases hc }

/-- What is stored again as it was changes nothing. -/
private theorem Coherent.put_stored (h : x.Coherent) : (x.put x.stored).Coherent where
  keyed := h.keyed
  versioned env henv := by
    obtain ⟨v, hv, hversion⟩ := h.versioned env henv
    exact ⟨v, mem_given_put hv, hversion⟩
  told env henv := by
    obtain ⟨hk, v, hv, hversion⟩ := h.told env henv
    exact ⟨hk, v, mem_given_put hv, hversion⟩
  faithful := h.faithful
  unchanged := h.unchanged
  moved := h.moved
  conflicts := h.conflicts

private theorem Coherent.read (h : x.Coherent) {name ns : String}
    (asks : x.pass.pass.Asks x.pass.trace (.getEnvironment name ns)) {d : Deed}
    (hd : d = .call (.getEnvironment name ns) (.ok x.stored)) :
    ((x.put x.stored).go d (.answered d)).Coherent := by
  have hfirst := first_of_asks_read asks
  have calm : conflicted x.log = false := by
    cases hc : conflicted x.log with
    | false => rfl
    | true =>
      obtain ⟨_, d', e, hmem, _⟩ := h.conflicts hc
      rw [hfirst] at hmem
      cases hmem
  rcases Option.eq_none_or_eq_some x.stored with hs | ⟨cur, hs⟩
  · have untold : d.told? = none := hd ▸ hs
    subst hd
    exact h.put_stored.go_untold untold trivial (stirred_answered untold _) .inl
  · have told : d.told? = some cur := hd ▸ hs
    obtain ⟨v, hv, hversion⟩ := h.versioned cur hs
    subst hd
    refine coherent_of_told (x := x.put x.stored) hs (h.keyed cur hs)
      ⟨v, mem_given_put hv, hversion⟩ told ?_ calm
    rw [put_pass, hfirst]
    intro d' hd'
    rw [List.mem_singleton.1 hd']
    trivial

private theorem Coherent.write (h : x.Coherent) {old : Environment} {status : Status} {v : String}
    (asks : x.pass.pass.Asks x.pass.trace (.patchStatus old status)) (there : x.stored = some old)
    {after : Environment}
    (hafter : after = restated old (some v) (some (status.mergedInto old.known)))
    (serves : x.Serves (.patchStatus old status) (.ok after) (some after)) {d : Deed}
    (hd : d = .call (.patchStatus old status) (.ok after)) :
    ((x.put (some after)).go d (.answered d)).Coherent := by
  have calm := h.not_conflicted asks serves rfl
  subst hafter hd
  refine coherent_of_told (x := x.put (some (restated old (some v) _))) rfl
    (h.keyed old there) ⟨v, versioned_put rfl, rfl⟩ rfl ?_ calm
  intro d' hd'
  rcases List.mem_append.1 hd' with hd' | hd'
  · exact h.faithful d' hd'
  · rw [List.mem_singleton.1 hd']
    exact ⟨some v, rfl⟩

/-- After a change of the finalizers the pass knows the record no longer, and it writes no more. -/
private theorem Coherent.finalize (h : x.Coherent) {reply : c.Reply} {stored : Option Environment}
    (asks : x.pass.pass.Asks x.pass.trace c) (serves : x.Serves c (.ok reply) stored)
    (writes : c.basis?.isSome = true) {d : Deed} (hd : d = .call c (.ok reply))
    (untold : d.told? = none) (finalizing : d.isFinalizing = true) :
    ((x.put stored).go d (.answered d)).Coherent := by
  have calm := h.not_conflicted asks serves writes
  refine h.renew (serves.fresh h writes) rfl rfl rfl (newest?_go untold _) ?_
    (.inr ⟨d, List.mem_append_right _ (List.mem_singleton_self d), finalizing⟩) fun hc => ?_
  · refine faithful_go h ?_ (.answered d)
    subst hd
    cases c with
    | patchStatus => cases untold
    | _ => trivial
  · subst hd
    have hc : conflicted x.log = true := hc
    rw [calm] at hc
    cases hc

private theorem Coherent.answer (h : x.Coherent) {answer : c.Answer} {stored : Option Environment}
    (asks : x.pass.pass.Asks x.pass.trace c) (serves : x.Serves c answer stored) :
    ((x.put stored).go (.call c answer) (.answered (.call c answer))).Coherent := by
  have served := serves
  cases serves with
  | read => exact h.read asks rfl
  | aside aside =>
    have untold := Deed.told?_of_isAside (d := .call c answer) aside
    refine h.put_stored.go_untold untold (Deed.faithful_of_isAside aside)
      (stirred_answered untold _) fun hc => .inl ?_
    have quiet := Deed.not_isConflict_of_isAside (d := .call c answer) aside
    rw [conflicted, quiet, Bool.false_or] at hc
    exact hc
  | status _ there current =>
    obtain rfl := h.stored_of_current asks rfl there current
    exact h.write asks there rfl served rfl
  | hold => exact h.finalize asks served rfl rfl rfl rfl
  | letGo => exact h.finalize asks served rfl rfl rfl rfl
  | @conflict _ env cur e basis there outdated kind =>
    have untold : (Deed.call c (.error e)).told? = none := by cases c <;> rfl
    refine h.put_stored.go_untold untold ?_ (stirred_answered untold _) fun _ =>
      .inr ⟨?_, c, e, rfl, by rw [basis]; rfl⟩
    · cases c <;> trivial
    · refine Bool.of_not_eq_false fun hs => ?_
      exact outdated ((h.current_iff asks basis there).2 hs)
  | @missing _ env e basis gone kind =>
    have untold : (Deed.call c (.error e)).told? = none := by cases c <;> rfl
    refine h.put_stored.go_untold untold ?_ (stirred_answered untold _) fun hc => .inl ?_
    · cases c <;> trivial
    · rw [conflicted, Deed.isConflict, kind, Bool.and_false, Bool.false_or] at hc
      exact hc

private theorem Coherent.lose (h : x.Coherent) {reply : c.Reply} {stored : Option Environment}
    (serves : x.Serves c (.ok reply) stored) (writes : c.basis?.isSome = true) (e : Failure) :
    ((x.put stored).go (.call c (.error e)) (.lost c)).Coherent := by
  have untold : (Deed.call c (.error e)).told? = none := by cases c <;> rfl
  refine h.renew (serves.fresh h writes) rfl rfl rfl (newest?_go untold _) ?_ (.inl rfl)
    fun hc => ⟨rfl, ?_⟩
  · refine faithful_go h ?_ (.lost c)
    cases c <;> trivial
  · obtain ⟨_, d, e', hd, hbasis⟩ := h.conflicts hc
    exact ⟨d, e', List.mem_append_left _ hd, hbasis⟩

theorem Coherent.step (h : x.Coherent) (s : Step others x x') : x'.Coherent := by
  cases s with
  | begin e unbegun about =>
    have hnone {env : Environment} : newest? e.trace ≠ some env := by
      rw [unbegun]
      exact fun h => nomatch h
    exact {
      keyed := fun env henv => about ▸ h.keyed env henv
      versioned := h.versioned
      told := fun env henv => absurd henv hnone
      faithful := fun d hd => absurd (unbegun ▸ hd) List.not_mem_nil
      unchanged := fun env henv => absurd henv hnone
      moved := fun env cur henv => absurd henv hnone
      conflicts := fun hc => nomatch hc }
  | answer asks serves => exact h.answer asks serves
  | @fail c e asks =>
    have untold : (Deed.call c (.error e)).told? = none := by cases c <;> rfl
    refine h.go_untold untold ?_ rfl .inl
    cases c <;> trivial
  | lose e asks writes serves => exact h.lose serves writes e
  | @note d rest quiet leads =>
    cases d with
    | call c answer => exact absurd rfl (quiet c answer)
    | event | measurement => exact h.go_untold rfl trivial rfl .inl
  | others may fresh =>
    refine h.renew fresh rfl rfl rfl rfl h.faithful (.inl rfl) fun hc => ⟨rfl, ?_⟩
    exact (h.conflicts hc).2

theorem Reachable.coherent (h : x.Reachable others) : x.Coherent := by
  induction h with
  | start h => exact h.coherent
  | step _ s ih => exact ih.step s

/-! ## Servers -/

/-- The server has an answer to every write. -/
theorem exists_serves (h : x.Coherent) (asks : x.pass.pass.Asks x.pass.trace c)
    (basis : c.basis? = some env) : ∃ answer stored, x.Serves c answer stored := by
  have about := (h.told env (basis_of_asks asks basis)).1
  cases there : x.stored with
  | none => exact ⟨.error .client, _, .missing basis there rfl⟩
  | some cur =>
    by_cases current : env.version? = cur.version?
    · obtain ⟨v, fresh⟩ := Infinite.exists_notMem_finset x.given.toFinset
      have fresh : v ∉ x.given := fun hv => fresh (List.mem_toFinset.2 hv)
      cases c with
      | patchStatus old status =>
        obtain rfl : old = env := Option.some.inj basis
        exact ⟨_, _, .status about there current fresh⟩
      | addFinalizer old =>
        obtain rfl : old = env := Option.some.inj basis
        exact ⟨_, _, .hold about there current fresh⟩
      | removeFinalizer old =>
        obtain rfl : old = env := Option.some.inj basis
        exact ⟨_, _, .letGo about there current fresh⟩
      | _ => cases basis
    · exact ⟨.error (.rejected 409 "Conflict" ""), _, .conflict basis there current rfl⟩

private theorem serve_of_refused {s : Store} {e : Failure} (basis : c.basis? = some env)
    (h : s.current env = .error e) : s.serve c = (.error e, s) := by
  cases c with
  | patchStatus old status =>
    obtain rfl : old = env := Option.some.inj basis
    simp only [Store.serve, h]
  | addFinalizer old | removeFinalizer old =>
    obtain rfl : old = env := Option.some.inj basis
    simp only [Store.serve, Store.write, h]
    rfl
  | _ => cases basis

/-- The cluster in memory answers writes as such a server does, as long as the number it gives to a
version is new. It does not merge statuses, which makes no difference to one that covers the status
that is stored. -/
theorem serves_store {s : Store} (h : x.Coherent) (asks : x.pass.pass.Asks x.pass.trace c)
    (basis : c.basis? = some env) (same : s.record? x.pass.key = x.stored)
    (covers : ∀ status, c = .patchStatus env status → status.Covers env.known)
    (fresh : ∀ cur v, x.stored = some cur → (Store.bump cur).version? = some v → v ∉ x.given) :
    x.Serves c (s.serve c).1 ((s.serve c).2.record? x.pass.key) := by
  have about := (h.told env (basis_of_asks asks basis)).1
  cases there : x.stored with
  | none =>
    have hcurrent : s.current env =
        .error (.rejected 404 "NotFound" (env.name ++ " not found")) := by
      rw [Store.current, about, same, there]
    rw [serve_of_refused basis hcurrent, same]
    exact .missing basis there rfl
  | some cur =>
    by_cases current : env.version? = cur.version?
    · obtain rfl := h.stored_of_current asks basis there current
      have hrecord : s.record? env.key = some env := by rw [about, same, there]
      have hcurrent := Store.current_self hrecord
      have hfresh := fresh env _ there rfl
      rw [← about]
      cases c with
      | patchStatus old status =>
        obtain rfl : old = env := Option.some.inj basis
        simp only [Store.serve, hcurrent, Store.record?_putRecord, if_true]
        have hserves := @Serves.status x old old status _ about there rfl hfresh
        rw [(covers status rfl).mergedInto_eq] at hserves
        exact hserves
      | addFinalizer old =>
        obtain rfl : old = env := Option.some.inj basis
        simp only [Store.serve, Store.write, hcurrent, Except.map, Store.answerWrite,
          Store.record?_revise, if_true]
        exact @Serves.hold x old old _ about there rfl hfresh
      | removeFinalizer old =>
        obtain rfl : old = env := Option.some.inj basis
        simp only [Store.serve, Store.write, hcurrent, Except.map, Store.answerWrite,
          Store.record?_settle, if_true]
        exact @Serves.letGo x old old _ about there rfl hfresh
      | _ => cases basis
    · have hcurrent : s.current env =
          .error (.rejected 409 "Conflict" (env.name ++ " has been modified")) := by
        have hne : (cur.metadata.resourceVersion == env.metadata.resourceVersion) = false :=
          beq_eq_false_iff_ne.2 fun heq => current heq.symm
        rw [Store.current, about, same, there]
        simp only [hne, Bool.false_eq_true, if_false]
      rw [serve_of_refused basis hcurrent, same]
      exact .conflict basis there current rfl

/-! ## No lost updates -/

/-- All that others have written into a record is there as before, the finalizers of others in their
order. -/
structure Kept (before after : Environment) : Prop where
  spec : after.spec = before.spec
  metadata : { after.metadata with
      resourceVersion := before.metadata.resourceVersion
      finalizers := before.metadata.finalizers } = before.metadata
  foreign : after.metadata.heldBy.filter (· != Environment.cleanupFinalizer) =
    before.metadata.heldBy.filter (· != Environment.cleanupFinalizer)

/-- What a write makes of the record on which it is based: a status that is computed from it, or the
cleanup finalizer added or taken away. A record goes away only if it is being deleted and no
finalizer of others holds it. -/
inductive Revises (e : Episode) (env : Environment) : Call → Option Environment → Prop where
  | status {current status : Status} {after : Environment} (kept : Kept env after)
      (carries : Carries e.config e.now env current)
      (computed : Computed e.config e.notice.anyName e.now env current status)
      (written : after.status = some (status.mergedInto env.known))
      (same : after.metadata.finalizers = env.metadata.finalizers) :
    Revises e env (.patchStatus env status) (some after)
  | hold {after : Environment} (kept : Kept env after) (same : after.status = env.status)
      (held : after.hasFinalizer = true) : Revises e env (.addFinalizer env) (some after)
  | letGo {after : Environment} (kept : Kept env after) (same : after.status = env.status)
      (free : after.hasFinalizer = false) : Revises e env (.removeFinalizer env) (some after)
  | gone (deleting : env.metadata.isDeleting = true)
      (free : ∀ f ∈ env.metadata.heldBy, f = Environment.cleanupFinalizer) :
    Revises e env (.removeFinalizer env) none

private theorem kept_restated (env : Environment) (v : Option String) (status : Option Status) :
    Kept env (restated env v status) := ⟨rfl, rfl, rfl⟩

private theorem kept_refinalized (env : Environment) (v : String) {finalizers : List String}
    (h : finalizers.filter (· != Environment.cleanupFinalizer) =
      env.metadata.heldBy.filter (· != Environment.cleanupFinalizer)) :
    Kept env (env.refinalized v finalizers) := ⟨rfl, rfl, h⟩

theorem Serves.revises (h : x.Coherent) (asks : x.pass.pass.Asks x.pass.trace c)
    {reply : c.Reply} {stored : Option Environment} (serves : x.Serves c (.ok reply) stored)
    (basis : c.basis? = some env) : Revises x.pass env c stored := by
  have there := serves.stored h asks basis
  cases serves with
  | read => cases basis
  | aside aside =>
    rw [Call.basis?_of_isAside aside] at basis
    cases basis
  | @status old cur status v _ hcur =>
    cases basis
    obtain rfl := Option.some.inj (hcur.symm.trans there)
    obtain ⟨current, carries, computed⟩ := computed_of_asks h.faithful asks
    exact .status (kept_restated cur (some v) _) carries computed rfl rfl
  | @hold old cur v _ hcur =>
    cases basis
    obtain rfl := Option.some.inj (hcur.symm.trans there)
    refine .hold (kept_refinalized cur v ?_) rfl ?_
    · rw [List.filter_append]
      simp
    · simp [Environment.refinalized, Environment.hasFinalizer, restated, Store.withFinalizers,
        Metadata.heldBy]
  | @letGo old cur v _ hcur =>
    cases basis
    obtain rfl := Option.some.inj (hcur.symm.trans there)
    unfold Environment.remnant?
    split
    · next hgone =>
      obtain ⟨hdeleting, hempty⟩ := Bool.and_eq_true_iff.1 hgone
      have hempty : cur.metadata.heldBy.filter (· != Environment.cleanupFinalizer) = [] :=
        List.isEmpty_iff.1 hempty
      refine .gone hdeleting fun f hf => ?_
      have := List.filter_eq_nil_iff.1 hempty f hf
      simpa using this
    · refine .letGo (kept_refinalized cur v ?_) rfl ?_
      · rw [List.filter_filter]
        simp
      · simp [Environment.refinalized, Environment.hasFinalizer, restated, Store.withFinalizers,
          Metadata.heldBy]

/-- A write that is refused changes nothing. -/
theorem Serves.kept {e : Failure} {stored : Option Environment}
    (serves : x.Serves c (.error e) stored) : stored = x.stored := by
  cases serves <;> rfl

end Contest
end PreviewControl
