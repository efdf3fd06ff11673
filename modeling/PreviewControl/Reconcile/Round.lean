import PreviewControl.Cleanup
import PreviewControl.Reconcile

/-!
# Rounds over all records

Rounds over all records of an installation: a pass over each of them, then a cleanup pass. A round
says how long to wait for the next one.
-/
namespace PreviewControl.Reconcile

/-- When a record is looked at again, whatever has come of the pass over it. -/
def Requeue.ofOutcome : Pass.Outcome Requeue → Requeue
  | .done requeue => requeue
  | .failed e => afterFailure e
  | .overflow => .onChange

/-- The seconds until the first of some records is to be looked at again: at least one, and at most
`longest`, because a change is only noticed by looking. -/
def pause (longest : Nat) (requeues : List Requeue) : Nat :=
  requeues.foldl (fun soonest requeue => match requeue with
    | .after seconds => min soonest (max seconds 1)
    | .onChange => soonest) (max longest 1)

variable {m : Type → Type} [Monad m]

/-- One round. The result is the number of seconds until the next one. -/
def round (h : Pass.Handler m) (clock : m Instant) (config : Config) : m Nat := do
  let listed ← h.answer (.listEnvironments config.controlNamespace)
  let envs : List Environment := listed.toOption.getD []
  let requeues ← envs.mapM fun env => do
    return Requeue.ofOutcome (← (pass config env.metadata (← clock)).run h)
  let _ ← (Cleanup.pass config.controlNamespace (← clock)).run h
  return pause (min config.requeueSeconds config.cleanupSeconds) requeues

end PreviewControl.Reconcile
