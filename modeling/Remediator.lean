import Remediator.Lib.Interleave
import Remediator.Lib.Machine
import Remediator.Lib.OrderedDict
import Remediator.Lifecycle
import Remediator.Capacity
import Remediator.Capacity.Fifo
import Remediator.Capacity.Limits
import Remediator.Capacity.Keys
import Remediator.Lib.Taking
import Remediator.Capacity.Tangles
import Remediator.Models
import Remediator.Devin.Status
import Remediator.Store
import Remediator.Audit
import Remediator.Program
import Remediator.Approvals
import Remediator.Worker.Runner
import Remediator.Worker.Pipeline
import Remediator.Worker.Stages
import Remediator.Worker.Processor
import Remediator.Worker.Outbox
import Remediator.Worker.Loop
import Remediator.Operator
import Remediator.System
import Remediator.Effects
import Remediator.Rounds.Calm
import Remediator.Rounds.CalmStages
import Remediator.Queue
import Remediator.Queue.Outsiders
import Remediator.Queue.Workers
import Remediator.Dispatch
import Remediator.Spend
import Remediator.Spend.Rules
import Remediator.Spend.Workers
import Remediator.Rounds.Deeds
import Remediator.Rounds.Ledger
import Remediator.Rounds.Decisions
import Remediator.Rounds.Clicks
import Remediator.Rounds.Labels
import Remediator.Rounds.Plain
import Remediator.Rounds.Confirmation
import Remediator.Rounds.Deliveries
import Remediator.Rounds.Guarantees
import Remediator.Spend.Evidence
import Remediator.Spend.Dispatched
import Remediator.Lib.Runs
import Remediator.Operator.Cancel
import Remediator.Verifier.Front
import Remediator.Verifier.Replay
import Remediator.Verifier.Sharing
import Remediator.Outbox.Rows
import Remediator.Outbox.Steps
import Remediator.Outbox.Fencing
import Remediator.Outbox.Bounded
import Remediator.Outbox.Delivery
import Remediator.Outbox.Once
import Remediator.Lib.RowLocks
import Remediator.Locks
import Remediator.Worker.Checks
import Remediator.Runs
import Remediator.Probes.Remote
import Remediator.Probes.Execute
import Remediator.Lib.Json
import Remediator.Lib.Paging
import Remediator.Clients.Http
import Remediator.Clients.Devin
import Remediator.Clients.Pages
import Remediator.Worker.Ordinals
import Remediator.Worker.PullRequests
import Remediator.Clients.Github
import Remediator.Worker.Outage
import Remediator.Worker.Transient
import Remediator.Worker.Polling
import Remediator.Lib.Faults
import Remediator.Worker.Brittle
import Remediator.Worker.Storage
import Remediator.Lib.TokenBucket
import Remediator.Api.RateLimit
import Remediator.Lib.Text
import Remediator.Api.BodyLimit
import Remediator.Worker.Reconcile
import Remediator.Worker.Waiting
import Remediator.Worker.Deadline
import Remediator.Lib.Pieces
import Remediator.Probes.Registry
import Remediator.Probes.Grammar
import Remediator.Probes.Load
import Remediator.Probes.Refusals
import Remediator.Probes.Policy
import Remediator.Lib.Binary64
import Remediator.Api.Signatures
import Remediator.Lib.Markup
import Remediator.Slack.Blocks
import Remediator.Slack.Links
import Remediator.Devin.Boundary
import Remediator.Github.Labels
import Remediator.Probes.Host
import Remediator.Probes.Local
import Remediator.Probes.Conduct
import Remediator.Probes.Executor
import Remediator.Probes.Evidence
import Remediator.Verifier.Egress
import Remediator.Api.Webhooks
import Remediator.Worker.Events
import Remediator.Redaction
import Remediator.Lib.Canonical
import Remediator.Lib.Schema
import Remediator.Devin.Tags
import Remediator.Devin.Triage
import Remediator.Devin.Remediation
