import Mathlib.Logic.Function.Basic
import PreviewControl.Cleanup
import PreviewControl.Proofs.Course
import PreviewControl.Proofs.StoreLaws

/-!
# The operator and others at work

All that can happen to a cluster: passes over records, each with its own configuration, notice and
time, cleanup passes, and what others do. A pass may be cut short after any call, and any call may
fail, with or without its effect. No two passes over one record go on at the same time, because the
runtime takes up a record only when the pass before has ended; passes over different records and
cleanup passes are interleaved at will.
-/
namespace PreviewControl

open Reconcile (Requeue)

/-- A pass over a record that has begun, and what has happened in it so far. -/
structure Episode where
  config : Config
  notice : Metadata
  now : Instant
  trace : List Deed := []

namespace Episode

def pass (e : Episode) : Pass Requeue := Reconcile.pass e.config e.notice e.now

/-- Where the record is stored that the pass is about. -/
def key (e : Episode) : RecordKey := ⟨e.notice.ns.getD "", e.notice.anyName⟩

def after (e : Episode) (d : Deed) : Episode := { e with trace := e.trace ++ [d] }

/-- The pass has read this record. -/
def Read (e : Episode) (env : Environment) : Prop :=
  ∃ ns t, e.notice.ns = some ns ∧ e.trace = Reconcile.read e.notice ns env :: t

/-- The pass has come to put children of the record into this namespace. -/
def Into (e : Episode) (env : Environment) (space : String) : Prop :=
  ∃ ns t u latest status, e.trace = Reconcile.read e.notice ns env :: (t ++ u) ∧
    Reconcile.Entered e.config env e.now t latest status ∧
    Reconcile.spaceOf latest status = space

/-- The pass has asked for the release of the record. -/
def LetsGo (e : Episode) : Prop := ∃ latest answer, .call (.removeFinalizer latest) answer ∈ e.trace

end Episode

/-- A cleanup pass that has begun, and what has happened in it so far. -/
structure Sweep where
  ns : String
  now : Instant
  trace : List Deed := []

namespace Sweep

def pass (s : Sweep) : Pass Cleanup.Summary := Cleanup.pass s.ns s.now

def after (s : Sweep) (d : Deed) : Sweep := { s with trace := s.trace ++ [d] }

end Sweep

/-- A cluster with an operator at work on it. -/
structure World where
  store : Store
  /-- The passes over each record so far, the latest first. Only this one can go on. -/
  passes : RecordKey → List Episode
  sweeps : List Sweep

namespace World

/-- What others may make of a record: anything, as long as it stays this record, keeps the finalizer
and keeps the namespace that is recorded in its status. -/
structure Edit (before after : Environment) : Prop where
  key : after.key = before.key
  uid : after.metadata.uid = before.metadata.uid
  held : before.hasFinalizer = true → after.hasFinalizer = true
  ns : after.known.ns = before.known.ns

/-- One step of the operator or of others. -/
inductive Step (w : World) : World → Prop where
  | begin (e : Episode) (unbegun : e.trace = []) :
    Step w { w with passes := Function.update w.passes e.key (e :: w.passes e.key) }
  | call {k : RecordKey} {e : Episode} {older : List Episode} {c : Call} {answer : c.Answer}
      {store : Store} (latest : w.passes k = e :: older) (asks : e.pass.Asks e.trace c)
      (served : w.store.Served c answer store) :
    Step w { w with
      store := store
      passes := Function.update w.passes k (e.after (.call c answer) :: older) }
  | note {k : RecordKey} {e : Episode} {older : List Episode} {d : Deed} {rest : Pass Requeue}
      (latest : w.passes k = e :: older) (quiet : ∀ c answer, d ≠ .call c answer)
      (leads : e.pass.Leads (e.trace ++ [d]) rest) :
    Step w { w with passes := Function.update w.passes k (e.after d :: older) }
  | sweepBegin (s : Sweep) (unbegun : s.trace = []) : Step w { w with sweeps := s :: w.sweeps }
  | sweepCall {before after : List Sweep} {s : Sweep} {c : Call} {answer : c.Answer}
      {store : Store} (among : w.sweeps = before ++ s :: after) (asks : s.pass.Asks s.trace c)
      (served : w.store.Served c answer store) :
    Step w { w with
      store := store
      sweeps := before ++ s.after (.call c answer) :: after }
  | sweepNote {before after : List Sweep} {s : Sweep} {d : Deed} {rest : Pass Cleanup.Summary}
      (among : w.sweeps = before ++ s :: after) (quiet : ∀ c answer, d ≠ .call c answer)
      (leads : s.pass.Leads (s.trace ++ [d]) rest) :
    Step w { w with sweeps := before ++ s.after d :: after }
  | edit {k : RecordKey} {env edited : Environment} (there : w.store.record? k = some env)
      (edit : Edit env edited) : Step w { w with store := w.store.putRecord k edited }
  | delete (k : RecordKey) : Step w { w with store := w.store.deleteRecord k }
  /-- A record that the finalizer does not hold goes away. -/
  | vanish {k : RecordKey} {env : Environment} (there : w.store.record? k = some env)
      (free : env.hasFinalizer = false) : Step w { w with store := w.store.eraseRecord k }
  /-- A new record has an identity that no record before it had. -/
  | create {env : Environment} (absent : w.store.record? env.key = none)
      (unseen : ∀ e ∈ w.passes env.key, ∀ old, e.Read old → old.metadata.uid ≠ env.metadata.uid) :
    Step w { w with store := w.store.putRecord env.key env }
  /-- Anything but the records may change at any time. -/
  | drift {store : Store} (same : store.records = w.store.records) :
    Step w { w with store := store }

/-- Every record is stored under its own key, and the operator has not begun. -/
structure Start (w : World) : Prop where
  keyed : ∀ k env, w.store.record? k = some env → env.key = k
  passes : ∀ k, w.passes k = []
  sweeps : w.sweeps = []

/-- The states that a run can come to. -/
inductive Reachable : World → Prop where
  | start {w : World} (h : Start w) : Reachable w
  | step {w w' : World} (h : Reachable w) (s : Step w w') : Reachable w'

/-- A trace with answers that the cluster can give, and the cluster after it. -/
inductive Serves : Store → List Deed → Store → Prop where
  | nil {s : Store} : Serves s [] s
  | call {s s' s'' : Store} {c : Call} {answer : c.Answer} {t : List Deed}
      (served : s.Served c answer s') (rest : Serves s' t s'') :
    Serves s (.call c answer :: t) s''
  | quiet {s s' : Store} {d : Deed} {t : List Deed} (quiet : ∀ c answer, d ≠ .call c answer)
      (rest : Serves s t s') :
    Serves s (d :: t) s'

/-- The latest pass over a record can go on in any way in which the cluster can answer it. -/
theorem Reachable.go {w : World} {k : RecordKey} {e : Episode} {older : List Episode}
    {t : List Deed} {rest : Pass Requeue} {store : Store} (h : w.Reachable)
    (latest : w.passes k = e :: older) (leads : e.pass.Leads (e.trace ++ t) rest)
    (serves : Serves w.store t store) :
    Reachable { w with
      store := store
      passes := Function.update w.passes k ({ e with trace := e.trace ++ t } :: older) } := by
  induction t generalizing w e with
  | nil =>
    cases serves
    rw [List.append_nil, ← latest, Function.update_eq_self]
    exact h
  | cons d t ih =>
    rw [List.append_cons] at leads ⊢
    have next {store' : Store} (hs : w.Step { w with
          store := store'
          passes := Function.update w.passes k (e.after d :: older) })
        (hrest : Serves store' t store) :=
      ih (h.step hs) (e := e.after d) (Function.update_self ..) leads hrest
    simp only [Function.update_idem] at next
    cases serves with
    | call served hrest =>
      have asks := Pass.Leads.asks (List.append_assoc .. ▸ leads)
      exact next (.call latest asks served) hrest
    | quiet quiet hrest =>
      obtain ⟨q, hq, _⟩ := leads.split
      exact next (.note latest quiet hq) hrest

end World
end PreviewControl
