import PreviewControl.Cluster.Call

/-!
# Metrics

The series that measurements belong to: the name of an instrument and a label. Durations are counted
by their number, counters are summed, and of a gauge the last value stands.
-/
namespace PreviewControl

namespace Measurement

def instrument : Measurement → String
  | passEnded _ => "preview_reconcile_duration_seconds"
  | passFailed _ => "preview_reconcile_errors_total"
  | phaseCount .. => "preview_environments_total"
  | expiryRequested => "preview_cleanup_deletions_total"
  | expiryFailed _ => "preview_cleanup_failures_total"

def label : Measurement → String
  | passEnded succeeded => if succeeded then "result=success" else "result=error"
  | passFailed retryable => if retryable then "error_type=transient" else "error_type=permanent"
  | phaseCount phase _ => "phase=" ++ (phase.map Phase.name).getD "None"
  | expiryRequested => ""
  | expiryFailed retryable => if retryable then "retryable=true" else "retryable=false"

def update (before : Nat) : Measurement → Nat
  | phaseCount _ count => count
  | _ => before + 1

end Measurement

/-- The values of all series, by instrument and label. -/
abbrev Metrics := List ((String × String) × Nat)

namespace Metrics

def value (ms : Metrics) (series : String × String) : Nat := (ms.lookup series).getD 0

def enter (ms : Metrics) (m : Measurement) : Metrics :=
  let series := (m.instrument, m.label)
  if (ms.lookup series).isSome then
    ms.map fun s => if s.1 = series then (s.1, m.update s.2) else s
  else ms ++ [(series, m.update 0)]

/-- The values after measurements, in the order in which the series appear. -/
def ofMeasurements (ms : List Measurement) : Metrics := ms.foldl enter []

def labels (ms : Metrics) (instrument : String) : List (String × Nat) :=
  (ms.filter (·.1.1 == instrument)).map fun s => (s.1.2, s.2)

end Metrics
end PreviewControl
