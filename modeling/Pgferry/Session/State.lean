/-
  The state of one session: the variables of `pump`, the downstream side, the shared world.

  `Core` holds what the protocol depends on; `Session` adds the shared world, the interceptor
  with its telemetry, the counters and the downstream socket. The socket takes `sendsLeft` more
  messages and then fails, so every point at which a client can go away is a value of it.

  `log` records what the session did, in order: the messages it read from the client, what it
  wrote to an upstream connection, and what it wrote to the client with the client message that
  this answers. It is a ghost variable: nothing reads it. So are `id`, `seq` (the number of
  client messages read) and `reports`.
-/
import Pgferry.Lib.Loop
import Pgferry.Pool
import Pgferry.Intercept

namespace Pgferry

open Loop

/-- Why the pump ended. `panicked` is an unwinding task, which drops its lease. -/
inductive End where
  | clientGone
  | upstreamBroken (reason : String)
  | panicked
  deriving DecidableEq, Repr

/-- One step of a session as seen from outside. -/
inductive Entry where
  /-- A message was read from the client. -/
  | recv (seq : Nat) (m : FrontendMessage)
  /-- A message of the client was written to the connection `pid`. -/
  | forwarded (pid seq : Nat) (m : FrontendMessage)
  /-- A message was written to the client: the pump's `own` or one read from the upstream. -/
  | sent (own : Bool) (o : Origin) (m : BackendMessage)
  /-- A lease of the pool of `endpoint` was taken, or put back by a detach. -/
  | attached (pid : Nat) (endpoint : String)
  | detached (pid : Nat)
  /-- The connection of `endpoint` broke, `on_upstream_error` was told `reported`. -/
  | lost (endpoint reported : String) (decision : RetryDecision)
  /-- A scatter leg for `leg` ran on the session's lease of `endpoint`. -/
  | sessionLeg (leg endpoint : String)
  /-- A cancel request for the connection `pid` was sent. -/
  | cancelled (pid : Nat)
  deriving DecidableEq, Repr

/-- name → (sql, type_oids). -/
abbrev StatementRegistry := StringMap (String × List Nat)

structure CycleTracking where
  active : Bool := false
  sql : Option String := none
  kind : CycleKind := .simple
  tag : Option String := none
  rows : Nat := 0
  droppedPending : Nat := 0
  droppedTotal : Nat := 0
  error : Option CycleError := none
  deriving DecidableEq, Repr

/-- `CycleTracking::start`. -/
def CycleTracking.start (sql : Option String) (kind : CycleKind) : CycleTracking :=
  { active := true, sql := sql, kind := kind }

/-- The report that `CycleTracking::finish` returns. -/
def CycleTracking.report (t : CycleTracking) : CycleReport where
  sql := t.sql
  kind := t.kind
  tag := t.tag
  rows := t.rows
  rowsDropped := t.droppedTotal
  error := t.error

/-- What `CycleTracking::finish` leaves: it takes the texts and keeps the counters. -/
def CycleTracking.finish (t : CycleTracking) : CycleTracking :=
  { t with active := false, sql := none, kind := .simple, tag := none, error := none }

structure SessionHooks (κ : Type) where
  interceptor : Interceptor κ
  ctx : κ
  schema : RowSchema
  cycle : CycleTracking

/-- `SessionHooks::new`. -/
def SessionHooks.new {κ : Type} (interceptor : Interceptor κ) (ctx : κ) : SessionHooks κ where
  interceptor := interceptor
  ctx := ctx
  schema := { columns := [] }
  cycle := {}

structure Core (σ : Type) where
  id : Nat
  seq : Nat
  log : List Entry
  /-- The transaction status kept on the downstream connection. -/
  downstreamStatus : TransactionStatus
  /-- `SessionInfo.attached`. -/
  attached : Bool
  lease : Option (UpstreamLease σ)
  currentEndpoint : Option String
  fedSinceRfq : Nat
  cycleIsExtended : Bool
  hygiene : Hygiene
  registry : StatementRegistry
  gucOverrides : Params
  leaseDirty : Bool
  swallowUntilSync : Bool
  draining : Bool
  ended : Option End

structure Session (σ κ : Type) extends Core σ where
  /-- How many more messages the downstream socket takes. -/
  sendsLeft : Nat
  world : World σ
  params : SessionParams
  startupParameters : Params
  hooks : Option (SessionHooks κ)
  frontend : Nat
  backend : Nat
  /-- The `on_cycle_end` calls, each with the length of `log` at the call. -/
  reports : List (Nat × CycleReport)

/-- What all sessions of a proxy share and nothing changes. -/
structure Env (σ : Type) where
  upstream : Upstream σ
  route : RouteConfig
  poolConfig : PoolConfig

variable {σ κ : Type}

def Env.transactionMode (env : Env σ) : Bool := decide (env.poolConfig.mode = .transaction)

/-- The key of the pool of an endpoint for this user and database. -/
def Env.poolKey (env : Env σ) (params : SessionParams) (endpoint : String) : PoolKey where
  route := env.route.name
  endpoint := endpoint
  user := params.user
  database := params.database

/-! ## The downstream connection -/

namespace Core

/-- The origin of an answer to the message read last. -/
def origin (c : Core σ) : Origin := .client c.id c.seq

def record (c : Core σ) (e : Entry) : Core σ := { c with log := c.log ++ [e] }

/-- Read one message from the client. -/
def recv (c : Core σ) (m : FrontendMessage) : Core σ :=
  { c with seq := c.seq + 1, log := c.log ++ [.recv (c.seq + 1) m] }

/-- The transaction status of the lease's connection, `Idle` without a lease. -/
def leaseStatus (c : Core σ) : TransactionStatus :=
  (c.lease.map fun l => l.conn.transactionStatus).getD .idle

/-- Change the connection of the lease. -/
def withConn (c : Core σ) (f : Conn σ → Conn σ) : Core σ :=
  { c with lease := c.lease.map fun l => { l with conn := f l.conn } }

/-- The query of the lease is cancelled. -/
def cancelled (c : Core σ) (u : Upstream σ) (lease : UpstreamLease σ) : Core σ :=
  { c with
    lease := some { lease with conn := lease.conn.cancel u }
    log := c.log ++ [.cancelled lease.conn.processId] }

end Core

namespace Session

/-- `downstream.send`. -/
def write (s : Session σ κ) (own : Bool) (o : Origin) (m : BackendMessage) : Session σ κ × Bool :=
  match s.sendsLeft with
  | 0 => (s, false)
  | n + 1 => ({ s with toCore := s.toCore.record (.sent own o m), sendsLeft := n }, true)

/-- Write the pump's own messages one after the other, up to the first that fails. -/
def writeAll (s : Session σ κ) : List BackendMessage → Session σ κ × Bool
  | [] => (s, true)
  | m :: ms =>
      match s.write true s.origin m with
      | (s, false) => (s, false)
      | (s, true) => s.writeAll ms

/-- Write the pump's own messages; a failure ends the session. -/
def sendAll (s : Session σ κ) (ms : List BackendMessage) : Flow (Session σ κ) End Unit :=
  match s.writeAll ms with
  | (s, true) => .next s ()
  | (s, false) => .halt s (some .clientGone)

/-! ## Hooks -/

/-- `dispatch_upstream`: the endpoint for the next attach. -/
def dispatchUpstream (env : Env σ) (s : Session σ κ) (sql : Option String) :
    Session σ κ × String :=
  let info : RoutingInfo := {
    endpoints := env.route.endpoints
    user := s.params.user
    database := s.params.database
    sql := sql }
  match s.hooks with
  | none => (s, info.defaultEndpoint)
  | some h =>
      let r := h.interceptor.upstream h.ctx info
      ({ s with hooks := some { h with ctx := r.1 } }, r.2)

/-- `dispatch_on_upstream_error`. -/
def dispatchOnUpstreamError (s : Session σ κ) (error : UpstreamError) :
    Session σ κ × RetryDecision :=
  match s.hooks with
  | none => (s, .relink)
  | some h =>
      let r := h.interceptor.onUpstreamError h.ctx error
      ({ s with hooks := some { h with ctx := r.1 } }, r.2)

/-- `dispatch_on_upstream_connected`. -/
def dispatchOnUpstreamConnected (s : Session σ κ) (endpoint : String) : Session σ κ :=
  match s.hooks with
  | none => s
  | some h =>
      { s with hooks := some { h with ctx := h.interceptor.onUpstreamConnected h.ctx endpoint } }

/-- Start the telemetry of a cycle. -/
def startCycle (s : Session σ κ) (sql : Option String) (kind : CycleKind) : Session σ κ :=
  { s with hooks := s.hooks.map fun h => { h with cycle := CycleTracking.start sql kind } }

/-- Change the telemetry of the current cycle. -/
def trackCycle (s : Session σ κ) (f : CycleTracking → CycleTracking) : Session σ κ :=
  { s with hooks := s.hooks.map fun h => { h with cycle := f h.cycle } }

/-- `h.cycle.finish()` and `on_cycle_end`. -/
def endCycle (s : Session σ κ) : Session σ κ :=
  match s.hooks with
  | none => s
  | some h =>
      { s with
        hooks := some { h with
          cycle := h.cycle.finish
          ctx := h.interceptor.onCycleEnd h.ctx h.cycle.report }
        reports := s.reports ++ [(s.log.length, h.cycle.report)] }

/-- `endCycle` when a cycle is active. -/
def endActiveCycle (s : Session σ κ) : Session σ κ :=
  match s.hooks with
  | some h => if h.cycle.active then s.endCycle else s
  | none => s

end Session

end Pgferry
