import PreviewControl.Cluster.Pass
import PreviewControl.Cluster.Store

/-!
# Passes over a cluster in memory

Passes over a cluster in memory, with a record of everything that happens: the calls with their
answers and times, the events and the measurements.
-/
namespace PreviewControl

inductive Happening where
  | call (start : Instant) (c : Call) (answer : c.Answer)
  | event (event : Event)
  | measurement (measurement : Measurement)

/-- A cluster in memory and what has happened, the latest first. -/
structure Simulation where
  store : Store
  happenings : List Happening := []

namespace Simulation

def handler : Pass.Handler (StateM Simulation) where
  answer c := do
    let s ← get
    let (answer, store) := s.store.answer c
    set { s with store := store, happenings := .call s.store.now c answer :: s.happenings }
    return answer
  publish event := modify fun s => { s with happenings := .event event :: s.happenings }
  record m := modify fun s => { s with happenings := .measurement m :: s.happenings }

def follow {α : Type} (p : Pass α) : StateM Simulation (Pass.Outcome α) := p.run handler

/-- What a pass over a cluster comes to: its outcome, what happened in order, and the cluster after
it. -/
def observe {α : Type} (p : Pass α) (store : Store) :
    Pass.Outcome α × List Happening × Store :=
  let (outcome, after) := Id.run ((follow p).run ⟨store, []⟩)
  (outcome, after.happenings.reverse, after.store)

end Simulation
end PreviewControl
