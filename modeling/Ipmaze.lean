import Ipmaze.Effects.Pool
import Ipmaze.Controller
import Ipmaze.Cluster
import Ipmaze.Rendering.Meaning
import Ipmaze.Reconcile.Phases
import Ipmaze.Reconcile.Footprint
import Ipmaze.Isolation
import Ipmaze.Reconcile.Publication
import Ipmaze.Reconcile.Round
import Ipmaze.Repair
import Ipmaze.StoredForm
import Ipmaze.CoManaged
import Ipmaze.Effects.Paths
import Ipmaze.Atomicity
import Ipmaze.Quiet
import Ipmaze.Ownership
import Ipmaze.Reconcile.Writes
import Ipmaze.ControlLoop.Machine
import Ipmaze.ControlLoop.Tracking
import Ipmaze.ControlLoop.Rounds
import Ipmaze.ControlLoop.LastSuccess
import Ipmaze.ControlLoop.LastGood
import Ipmaze.ControlLoop.StatusOrder
import Ipmaze.Data.Distinct
import Ipmaze.Extraction.Elements
import Ipmaze.Extraction.Exact
import Ipmaze.Data.IpText
import Ipmaze.Rendering.Change
import Ipmaze.Detection
import Ipmaze.Data.Failing
import Ipmaze.Effects.Raises
import Ipmaze.Rendering.Agreement
import Ipmaze.Checks
import Ipmaze.Reconcile.Stages
import Ipmaze.Effects.Turning
import Ipmaze.Collision
import Ipmaze.Attribution
import Ipmaze.Data.IpBlock
import Ipmaze.Extraction.Blocks
import Ipmaze.Data.UrlText
import Ipmaze.Addresses.UrlLaws
import Ipmaze.Addresses.Normalized
import Ipmaze.Addresses.Credentials
import Ipmaze.Data.Calendar
import Ipmaze.Data.Cron
import Ipmaze.Data.CronText
import Ipmaze.Schedules
import Ipmaze.Addresses.Pointer
import Ipmaze.Addresses.Schemeless
import Ipmaze.Addresses.PointerRoute
import Ipmaze.Reconcile.Clocks
import Ipmaze.Effects.Coupling
import Ipmaze.Addresses.Groups
import Ipmaze.Data.Regex
import Ipmaze.Data.JsonSchema
import Ipmaze.Contract.PolicySchema
import Ipmaze.Data.Runs
import Ipmaze.Contract.Agreement
import Ipmaze.Contract.StatusCidrs
import Ipmaze.Effects.Credits
import Ipmaze.Reconcile.Expenses
import Ipmaze.ControlLoop.Budget
import Ipmaze.ControlLoop.Progress
import Ipmaze.Effects.Warrants
import Ipmaze.Reconcile.Grounds
import Ipmaze.ControlLoop.Audit
import Ipmaze.Data.MergePatch
import Ipmaze.Contract.Decoding
import Ipmaze.Data.JsonMembers
import Ipmaze.Contract.Lossless
import Ipmaze.Contract.StatusPatch
import Ipmaze.Effects.Reliance
import Ipmaze.Reconcile.Confines
import Ipmaze.Confinement
import Ipmaze.Equivalence
import Ipmaze.ControlLoop.Resync
import Ipmaze.Data.Structural
import Ipmaze.Contract.CustomResource
import Ipmaze.Contract.Inclusion
import Ipmaze.Contract.Admission
import Ipmaze.Effects.Ensures
import Ipmaze.Reconcile.Declares
import Ipmaze.Firewall
import Ipmaze.Replicas
import Ipmaze.FailClosed
import Ipmaze.Refinement
import Ipmaze.Reconcile.Listing
import Ipmaze.Reconcile.Settle
