import Pulse.Ingest.GapFree
import Pulse.Ingest.Closed
import Pulse.Dispatch.ExactlyOnce
import Pulse.Dispatch.DeliveredFinal
import Pulse.Evaluate.Idempotency
import Pulse.Evaluate.Cooldown
import Pulse.Main.Isolation
import Pulse.Main.Lifetimes
import Pulse.Api.Agreement
import Pulse.Dispatch.Abandoned
import Pulse.Dispatch.AuditTrail
import Pulse.Dispatch.CrashSafe
import Pulse.Dispatch.Due
import Pulse.Api.Window
import Pulse.Main.Cursor
import Pulse.Api.Rules
import Pulse.Evaluate.Total
import Pulse.Evaluate.LookAhead
import Pulse.Evaluate.Fires
import Pulse.Main.RulesInForce
import Pulse.Evaluate.MacdHistory
import Pulse.Evaluate.Scale
import Pulse.Evaluate.Crossings
import Pulse.Evaluate.Mirror
import Pulse.Evaluate.Touch
import Pulse.Evaluate.Reach
import Pulse.Ingest.Shapes
import Pulse.Ingest.Malformed
import Pulse.Api.Alerts
import Pulse.Evaluate.MonotoneClose
import Pulse.Main.Provenance
import Pulse.Dispatch.Drains
import Pulse.Main.Outbox
import Pulse.Main.Truthful
import Pulse.Ingest.Polled
import Pulse.Evaluate.Affine
import Pulse.Main.Chronicle
import Pulse.Main.Refines
import Pulse.Api.Admission
import Pulse.Api.Expiry
import Pulse.Evaluate.WarmUp
import Pulse.Dispatch.Accounting
