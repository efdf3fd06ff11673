import PreviewControl.Cleanup
import PreviewControl.Cluster.Simulation

/-!
# The cleanup loop

The cleanup loop: one pass at once and then one at every tick of a timer, until it is cancelled. A
pass that fails changes nothing about the next one; a tick that is served late moves all later ones.
-/
namespace PreviewControl.Cleanup

variable {m : Type → Type} [Monad m]

/-- The loop from the time `clock` on, with the next tick due at `due`. A pass that starts at a time
gives the time at which it ends. The result is the time at which the loop and its canceller have
both come to an end. -/
def loop (interval cancelled : Nat) (positive : 0 < interval) (pass : Nat → m Nat)
    (due clock : Nat) : m Nat :=
  -- A tick that comes due during a pass is served when the pass ends.
  let served := max due clock
  if _h : served < cancelled then do
    let finished ← pass served
    loop interval cancelled positive pass (served + interval) finished
  else pure (max cancelled clock)
-- The next tick is due later than this one, which is before the cancellation.
termination_by cancelled - due
decreasing_by omega

/-- One pass of the loop over a cluster in memory: it judges expiry by the time at which it starts,
on a clock that counts from `origin`. -/
def scheduledPass (ns : String) (origin : Instant) (start : Nat) : StateM Simulation Nat := do
  let now := (origin.add? start).getD origin
  modify fun s => { s with store := { s.store with now := now } }
  let _ ← Simulation.follow (pass ns now)
  return ((← get).store.now.seconds - origin.seconds).toNat

/-- The loop over a cluster in memory. A timer without an interval cannot be made. -/
def schedule? (ns : String) (interval cancelled : Nat) (store : Store) :
    Option (Nat × List Happening × Store) :=
  if h : 0 < interval then
    let (stopped, after) := Id.run
      ((loop interval cancelled h (scheduledPass ns store.now) 0 0).run ⟨store, []⟩)
    some (stopped, after.happenings.reverse,
      { after.store with now := store.now }.advance stopped)
  else none

end PreviewControl.Cleanup
