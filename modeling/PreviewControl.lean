import PreviewControl.Text.Blank
import PreviewControl.Text.LetterCase
import PreviewControl.Text.Quoted
import PreviewControl.Numeric.Decimal
import PreviewControl.Json.Reader
import PreviewControl.Json.Printer
import PreviewControl.Time.Rfc3339
import PreviewControl.Json.Decode
import PreviewControl.Object.Form.Pod
import PreviewControl.Digest.Sha256
import PreviewControl.Failure
import PreviewControl.Environment.Ownership
import PreviewControl.Cost
import PreviewControl.Health
import PreviewControl.Child.Ingress
import PreviewControl.Child.Descriptor
import PreviewControl.Reconcile
import PreviewControl.Cleanup
import PreviewControl.Settings.Arguments
import PreviewControl.Startup.Wait
import PreviewControl.Definition
import PreviewControl.Cleanup.Schedule
import PreviewControl.Metrics
import PreviewControl.Http.Client
import PreviewControl.Http.Script
import PreviewControl.Startup.Install
import PreviewControl.Config.Codec
import PreviewControl.CommandLine
import PreviewControl.Reconcile.Round
import PreviewControl.Http.Gateway
import PreviewControl.Main
import PreviewControl.Cluster.Trace
import PreviewControl.Proofs.Upkeep
import PreviewControl.Proofs.Course
import PreviewControl.Proofs.DeletionGuard
import PreviewControl.Proofs.StoreLaws
import PreviewControl.Proofs.World
import PreviewControl.Proofs.Custody
import PreviewControl.Proofs.CreationGuard
import PreviewControl.Proofs.Orphans
import PreviewControl.Proofs.Quiescence
import PreviewControl.Proofs.Contention
import PreviewControl.Proofs.Updates
import PreviewControl.Proofs.Lifetimes
import PreviewControl.Proofs.Undisturbed
import PreviewControl.Proofs.Handback
import PreviewControl.Proofs.Placement
import PreviewControl.Proofs.Leftovers
import PreviewControl.Proofs.Convergence
import PreviewControl.Proofs.Revision
import PreviewControl.Proofs.Verdicts
import PreviewControl.Proofs.Attempts
import PreviewControl.Proofs.Readiness
import PreviewControl.Proofs.Separation
import PreviewControl.Proofs.RoundTrip
import PreviewControl.Proofs.MergePatch
import PreviewControl.Proofs.StatusPatch
import PreviewControl.Proofs.Belongings
import PreviewControl.Proofs.Expiry
import PreviewControl.Proofs.Tally
import PreviewControl.Proofs.Interim
import PreviewControl.Proofs.Flapping
import PreviewControl.Proofs.Reach
import PreviewControl.Proofs.Rounding
import PreviewControl.Proofs.NumeralText
import PreviewControl.Proofs.Printing
import PreviewControl.Proofs.QuantityText
import PreviewControl.Proofs.Doubling
import PreviewControl.Proofs.Routing
import PreviewControl.Proofs.TtlText
import PreviewControl.Proofs.Naming
import PreviewControl.Proofs.Agreement
import PreviewControl.Proofs.Announcements
import PreviewControl.Proofs.Vigil
import PreviewControl.Proofs.Polling
import PreviewControl.Proofs.Precedence
import PreviewControl.Proofs.Onset
import PreviewControl.Proofs.LabelValues
import PreviewControl.Proofs.Summation
