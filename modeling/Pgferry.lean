import Pgferry.Lib.Loop
import Pgferry.Lib.SqlText
import Pgferry.Lib.Exposition
import Pgferry.Wire
import Pgferry.Conn
import Pgferry.Tags
import Pgferry.Pg
import Pgferry.Pool
import Pgferry.Checkout
import Pgferry.Lending
import Pgferry.Row
import Pgferry.Fields
import Pgferry.Intercept
import Pgferry.Session.State
import Pgferry.Session.Attach
import Pgferry.Session.Attempt
import Pgferry.Scatter
import Pgferry.Snapshots
import Pgferry.Session.Pump
import Pgferry.Session.Steps
import Pgferry.Session.Frames
import Pgferry.Hygiene
import Pgferry.Parameters
import Pgferry.Accrual
import Pgferry.Status
import Pgferry.Capacity
import Pgferry.Session.Specs
import Pgferry.Session.Refine
import Pgferry.Session.Runs
import Pgferry.Session.Attempts
import Pgferry.Session.Replay
import Pgferry.System
import Pgferry.Session.Attachment
import Pgferry.Session.Cycles
import Pgferry.Session.Handles
import Pgferry.Session.Entries
import Pgferry.Session.Rows
import Pgferry.Session.Mediation
import Pgferry.Session.Truth
import Pgferry.Session.Agree
import Pgferry.Session.Checkin
import Pgferry.Session.Requests
import Pgferry.Session.Traffic
import Pgferry.Session.Order
import Pgferry.Session.Refusals
import Pgferry.Isolation
import Pgferry.Parked
import Pgferry.Statements
import Pgferry.Unnamed
import Pgferry.Unfinished
import Pgferry.Defaults
import Pgferry.Session.Tuned
import Pgferry.Noninterference
import Pgferry.Dedicated
import Pgferry.Tables
import Pgferry.Session.Mirrored
import Pgferry.Transparency
import Pgferry.Routing
import Pgferry.Health
import Pgferry.Session.Reach
import Pgferry.ReadWrite
import Pgferry.Builder
import Pgferry.Session.Hosting
import Pgferry.Session.Routed
import Pgferry.Session.Hints
import Pgferry.Proxy
import Pgferry.Failover
import Pgferry.Custody
import Pgferry.Session.Holding
import Pgferry.Session.Pinned
import Pgferry.Pinning
import Pgferry.Gauges
import Pgferry.Gather
import Pgferry.Merge
import Pgferry.Leases
import Pgferry.Session.Drain
import Pgferry.Session.Batches
import Pgferry.Session.Ledger
import Pgferry.Session.RowBooks
import Pgferry.Session.Schemas
import Pgferry.Session.Counts
import Pgferry.Session.Telemetry
import Pgferry.Session.Transactions
import Pgferry.Decoders
import Pgferry.Literals
import Pgferry.Runtime
import Pgferry.Metrics
import Pgferry.Admin
import Pgferry.Cancel
import Pgferry.Startup
import Pgferry.Server
import Pgferry.Admission
import Pgferry.Cancellation
import Pgferry.Relay
import Pgferry.Clients
import Pgferry.Authentication
