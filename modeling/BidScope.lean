import BidScope.Core.LTS
import BidScope.Core.Text
import BidScope.L1Domain.Types
import BidScope.Core.Dict
import BidScope.L1Domain.Deduplication
import BidScope.L1Domain.Evidence
import BidScope.L2Graph.State
import BidScope.L2Graph.Nodes
import BidScope.L2Graph.Builder
import BidScope.L2Graph.Run
import BidScope.L2Graph.Absorbing
import BidScope.L2Graph.Delivery
import BidScope.L3Runs.Executor
import BidScope.L3Runs.Attempts
import BidScope.L3Runs.Recovery
import BidScope.L3Runs.Fencing
import BidScope.L3Runs.Gate
import BidScope.Core.KeyOrder
import BidScope.L4Subscriptions.Notices
import BidScope.L4Subscriptions.RowIds
import BidScope.L4Subscriptions.SeenSet
import BidScope.L4Subscriptions.Cycle
import BidScope.L4Subscriptions.Occurrence
import BidScope.L4Subscriptions.Serial
import BidScope.L4Subscriptions.Updates
import BidScope.L5Snapshots.Importer
import BidScope.L5Snapshots.Steps
import BidScope.L5Snapshots.Imports
import BidScope.Core.Ledger
import BidScope.L5Snapshots.Contents
import BidScope.L5Snapshots.Transaction
import BidScope.L5Snapshots.Histories
import BidScope.L5Snapshots.Latest
import BidScope.Core.Like
import BidScope.L6Retrieval.Search
import BidScope.L6Retrieval.Honoured
import BidScope.L6Retrieval.Superseded
import BidScope.L2Graph.Verified
import BidScope.L2Graph.Duplicates
import BidScope.Core.Joins
import BidScope.L4Subscriptions.Views
import BidScope.L7Delivery.Rows
import BidScope.L7Delivery.Persist
import BidScope.L7Delivery.RoundTrip
import BidScope.L7Delivery.Racing
import BidScope.L2Graph.Verdicts
import BidScope.L7Delivery.Verdicts
import BidScope.L7Delivery.Fresh
import BidScope.L7Delivery.Accepted
import BidScope.L7Delivery.Rendering
import BidScope.Core.Sections
import BidScope.L8Models.DeepSeek
import BidScope.L8Models.Envelope
import BidScope.Core.FileTree
import BidScope.L9Storage.Paths
import BidScope.L9Storage.Agree
import BidScope.L9Storage.Backup
import BidScope.L9Storage.Restore
import BidScope.L9Storage.Validation
import BidScope.L9Storage.Create
import BidScope.L9Storage.RoundTrip
import BidScope.L9Storage.Dumps
import BidScope.L3Runs.Creation
import BidScope.L3Runs.Idempotent
import BidScope.L4Subscriptions.OwnRun
import BidScope.L3Runs.Appends
import BidScope.L3Runs.Stream
import BidScope.L3Runs.Lossless
import BidScope.Core.Json
import BidScope.Core.Framing
import BidScope.L10Web.Client
import BidScope.L10Web.Wire
import BidScope.L10Web.Agreement
import BidScope.L6Retrieval.Laws
import BidScope.Core.PyValue
import BidScope.Core.Regex
import BidScope.L8Models.Numerals
import BidScope.L8Models.Budgets
import BidScope.L8Models.Verifier
import BidScope.L8Models.Labels
import BidScope.Core.Links
import BidScope.L2Graph.Pipeline
import BidScope.L9Storage.Acceptance
import BidScope.L3Runs.Capacity
import BidScope.L6Retrieval.Fusion
import BidScope.L6Retrieval.Recall
import BidScope.L9Storage.Writes
import BidScope.L9Storage.Retention
import BidScope.L4Subscriptions.Failures
import BidScope.L9Storage.Staging
import BidScope.L4Subscriptions.Cron
import BidScope.L8Models.Datetimes
import BidScope.L8Models.Renderings
import BidScope.L7Delivery.Attachment
import BidScope.Core.Canonical
import BidScope.Core.Checked
import BidScope.Core.Disks
import BidScope.L9Storage.Manifests
import BidScope.L9Storage.Reparse
import BidScope.L3Runs.Reconcile
import BidScope.Core.Gains
import BidScope.L11Evaluation.Metrics
import BidScope.L11Evaluation.Ranking
import BidScope.L11Evaluation.Laws
import BidScope.L10Web.Chunks
import BidScope.L12Audit.Sanitisers
import BidScope.L12Audit.Redaction
import BidScope.L9Storage.Materializer
import BidScope.L9Storage.Staged
import BidScope.L9Storage.Materialized
import BidScope.L13Ingestion.Service
import BidScope.L13Ingestion.CursorSafety
import BidScope.Core.Reading
import BidScope.L13Ingestion.Worker
import BidScope.L13Ingestion.Client
import BidScope.L13Ingestion.Adapter
import BidScope.Core.Exposition
import BidScope.L14Observability.Metrics
import BidScope.L14Observability.Recorders
import BidScope.L14Observability.NodeDurations
