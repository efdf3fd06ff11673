import PreviewControl.Cluster.Pass

/-!
# Cleanup of expired records

The cleanup of expired records: one pass lists the records and requests the deletion of every one
that has expired, whether or not the other requests succeed. The removal itself is left to the
finalizer.
-/
namespace PreviewControl

/-- A record is to be deleted: its expiry is past, it is not exempt, and it is not being deleted
already. -/
def Environment.isExpired (env : Environment) (now : Instant) : Bool :=
  !env.metadata.isDeleting && !env.isPinned && env.expiresAt?.any (·.before now)

namespace Cleanup

structure Summary where
  scanned : Nat := 0
  expired : Nat := 0
  deleted : Nat := 0
  failed : Nat := 0
deriving DecidableEq, Repr, Inhabited

def phaseCount (envs : List Environment) (phase : Option Phase) : Measurement :=
  .phaseCount phase (envs.countP fun env => env.phase? == phase)

def phaseCounts (envs : List Environment) : List Measurement :=
  Phase.all.map (fun p => phaseCount envs (some p)) ++ [phaseCount envs none]

def measureAll : List Measurement → Pass Unit
  | [] => return
  | m :: ms => do
    Pass.measure m
    measureAll ms

def expire (env : Environment) (sum : Summary) : Pass Summary := do
  match ← Pass.inquire (.deleteEnvironment env.name (env.metadata.ns.getD "")) with
  | .ok () =>
    Pass.measure .expiryRequested
    return { sum with expired := sum.expired + 1, deleted := sum.deleted + 1 }
  | .error e =>
    Pass.measure (.expiryFailed e.isRetryable)
    return { sum with expired := sum.expired + 1, failed := sum.failed + 1 }

def expireAll (sum : Summary) : List Environment → Pass Summary
  | [] => return sum
  | env :: envs => do expireAll (← expire env sum) envs

def pass (ns : String) (now : Instant) : Pass Summary := do
  let envs ← Pass.request (.listEnvironments ns)
  measureAll (phaseCounts envs)
  expireAll { scanned := List.length (α := Environment) envs }
    (List.filter (fun env => Environment.isExpired env now) envs)

end Cleanup
end PreviewControl
