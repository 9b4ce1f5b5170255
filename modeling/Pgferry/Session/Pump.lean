/-
  The message pump of a session (`pump` of `session.rs`).

  One `Event` is one iteration of the `select!` loop: a message of the client, one of the
  upstream connection, the end of either, a cancel request or the shutdown signal. Which arm is
  ready when is the order of the events. The client arm is a chain of phases in the order of the
  source; a phase falls through, leaves the iteration or ends the session.
-/
import Pgferry.Session.Attach
import Pgferry.Scatter

namespace Pgferry

open Loop

variable {σ κ : Type}

/-! ## Messages that start a cycle -/

structure CycleInput where
  sql : String
  kind : CycleKind

/-- `cycle_input_of`. -/
def cycleInputOf : FrontendMessage → Option CycleInput
  | .query sql => some { sql := sql, kind := .simple }
  | .parse name sql _ => some { sql := sql, kind := .extended name }
  | _ => none

/-- `apply_rewrite`. -/
def applyRewrite : FrontendMessage → Option String → FrontendMessage
  | .query _, some sql => .query sql
  | .parse name _ typeOids, some sql => .parse name sql typeOids
  | m, _ => m

/-- `cycle_sql_of`. -/
def cycleSqlOf (m : FrontendMessage) : Option String := (cycleInputOf m).map CycleInput.sql

/-- `bind_statement_sql`. -/
def bindStatementSql (m : FrontendMessage) (registry : StatementRegistry) : Option String :=
  match m with
  | .bind _ statementName =>
      let name := statementName.getD ""
      if name = "" then none else (registry.lookup name).map Prod.fst
  | _ => none

/-- The protocol state after a message was read from the lease's connection. -/
def Core.track (transactionMode : Bool) (c : Core σ) : BackendMessage → Core σ
  | .readyForQuery status =>
      { c.withConn (fun conn => conn.setTransactionStatus status) with
        downstreamStatus := status
        hygiene := {}
        fedSinceRfq := 0 }
  | .parameterStatus name value =>
      { c.withConn (fun conn => conn.setServerParameter name value) with
        gucOverrides := c.gucOverrides.insert name value
        leaseDirty := c.leaseDirty || transactionMode }
  | .copyInResponse => { c with hygiene := { c.hygiene with copy := .clientOwesCopy } }
  | .copyBothResponse => { c with hygiene := { c.hygiene with copy := .clientOwesCopy } }
  | .copyOutResponse => { c with hygiene := { c.hygiene with copy := .serverStreamsCopy } }
  | _ => c

namespace Session

/-! ## The client arm -/

/-- Swallow until `Sync` after an injected error. -/
def swallowPhase (s : Session σ κ) (m : FrontendMessage) : Flow (Session σ κ) End Unit :=
  if s.swallowUntilSync then
    match m with
    | .sync =>
        ({ s with swallowUntilSync := false }.sendAll [.readyForQuery s.leaseStatus]).andThen
          fun s _ => .halt s.endCycle none
    | _ => .halt s none
  else .next s ()

/-- `Sync`, `Flush` and `Close` are answered locally while detached. `Close` forgets the name
    whatever its target is. -/
def localPhase (env : Env σ) (s : Session σ κ) (m : FrontendMessage) :
    Flow (Session σ κ) End Unit :=
  if env.transactionMode && s.lease.isNone then
    match m with
    | .sync =>
        (s.sendAll [.readyForQuery s.downstreamStatus]).andThen
          fun s _ => .halt s.endActiveCycle none
    | .flush => .halt s none
    | .close _ name =>
        ({ s with registry := s.registry.recordClose name }.sendAll [.closeComplete]).andThen
          fun s _ => .halt s none
    | _ => .next s ()
  else .next s ()

/-- `Action::Deny` from `on_query`. -/
def denyQuery (s : Session σ κ) (input : CycleInput) (info : ErrorInfo) :
    Flow (Session σ κ) End FrontendMessage :=
  let s := (s.startCycle (some input.sql) input.kind).trackCycle fun t =>
    { t with error := some (CycleError.fromInfo info) }
  (s.sendAll [.errorResponse info]).andThen fun s _ =>
    if input.kind.isExtended then .halt { s with swallowUntilSync := true } none
    else
      (s.sendAll [.readyForQuery s.leaseStatus]).andThen fun s _ => .halt s.endCycle none

/-- The telemetry of one message of a reply. -/
def trackReply (t : CycleTracking) : BackendMessage → CycleTracking
  | .dataRow _ => { t with rows := t.rows + 1 }
  | .commandComplete tag => { t with tag := some tag }
  | _ => t

/-- `Action::Reply` from `on_query`. -/
def replyQuery (s : Session σ κ) (input : CycleInput) (messages : List BackendMessage) :
    Flow (Session σ κ) End FrontendMessage :=
  let s := (s.startCycle (some input.sql) input.kind).trackCycle fun t =>
    messages.foldl trackReply t
  (s.sendAll messages).andThen fun s _ =>
    (s.sendAll [.readyForQuery s.leaseStatus]).andThen fun s _ =>
      if input.kind.isExtended then .halt { s with swallowUntilSync := true } none
      else .halt s.endCycle none

/-- Why a scatter is refused before it runs. -/
def scatterRefusal (s : Session σ κ) (kind : CycleKind) : Option ErrorInfo :=
  if kind.isExtended then
    some {
      severity := "ERROR"
      code := "0A000"
      message := "pgferry scatter: simple protocol only" }
  else if s.downstreamStatus ≠ .idle then
    some {
      severity := "ERROR"
      code := "0A000"
      message := "pgferry scatter: not allowed inside a transaction" }
  else none

/-- A failed scatter. The endpoint is forgotten also when the lease is kept. -/
def scatterFailed (s : Session σ κ) (failure : ScatterFailure) :
    Flow (Session σ κ) End FrontendMessage :=
  let s := if failure.sessionLeaseBroken then s.dropLease else s
  let s := { s with currentEndpoint := none, attached := false }.trackCycle fun t =>
    { t with error := some (CycleError.fromInfo failure.error) }
  (s.sendAll [.errorResponse failure.error, .readyForQuery .idle]).andThen fun s _ =>
    .halt { s with downstreamStatus := .idle }.endCycle none

/-- `Action::Scatter` from `on_query`. -/
def scatterQuery (env : Env σ) (s : Session σ κ) (input : CycleInput) (request : ScatterRequest)
    (t : Timing) : Flow (Session σ κ) End FrontendMessage :=
  let refusal := s.scatterRefusal input.kind
  let s := s.startCycle (some input.sql) input.kind
  match refusal with
  | some info => s.scatterFailed { error := info, sessionLeaseBroken := false }
  | none =>
      match s.executeScatter env request t with
      | (s, .panicked) => .halt s (some .panicked)
      | (s, .failed failure) => s.scatterFailed failure
      | (s, .ok rows) =>
          let s := s.trackCycle fun t =>
            { t with rows := rows, tag := some (request.tag ++ " " ++ toString rows) }
          (s.sendAll [.readyForQuery s.downstreamStatus]).andThen fun s _ =>
            .halt s.endCycle none

/-- Carry out the action of `on_query`; `cycle` is what the hook left. -/
def actOnQuery (env : Env σ) (t : Timing) (s : Session σ κ) (m : FrontendMessage)
    (input : CycleInput) (cycle : QueryCycle) : Action → Flow (Session σ κ) End FrontendMessage
  | .forward =>
      let m := applyRewrite m cycle.takeRewritten
      .next (s.startCycle (cycleSqlOf m) input.kind) m
  | .deny info => s.denyQuery input info
  | .scatter request => s.scatterQuery env input request t
  | .reply messages => s.replyQuery input messages
  | .close => .halt s (some .clientGone)

/-- The `on_query` phase: the message to go on with, possibly rewritten. -/
def queryPhase (env : Env σ) (t : Timing) (s : Session σ κ) (m : FrontendMessage) :
    Flow (Session σ κ) End FrontendMessage :=
  match cycleInputOf m with
  | none => .next s m
  | some input =>
      let s := { s with cycleIsExtended := input.kind.isExtended }
      match s.hooks with
      | none => .next s m
      | some h =>
          let r := h.interceptor.onQuery h.ctx (QueryCycle.new input.sql input.kind)
          { s with hooks := some { h with ctx := r.1 } }.actOnQuery env t m input r.2.1 r.2.2

/-- The error for a registered name with another SQL. -/
def duplicateStatement (name : String) : ErrorInfo where
  severity := "ERROR"
  code := "42P05"
  message := "prepared statement \"" ++ name ++ "\" already exists (pgferry)"

/-- A statement to record once the session is attached. -/
abbrev PendingParse := Option (String × String × List Nat)

/-- The registry phase: a registered name with the same SQL is answered locally, whatever its
    parameter types are. -/
def registryPhase (s : Session σ κ) (m : FrontendMessage) :
    Flow (Session σ κ) End PendingParse :=
  match m with
  | .parse (some name) query typeOids =>
      if name = "" then .next s none
      else
        match s.registry.lookup name with
        | none => .next s (some (name, query, typeOids))
        | some known =>
            if known.1 = query then
              (s.sendAll [.parseComplete]).andThen fun s _ => .halt s none
            else
              (s.sendAll [.errorResponse (duplicateStatement name)]).andThen fun s _ =>
                .halt { s with swallowUntilSync := true } none
  | _ => .next s none

/-- The attach phase. The new statement is recorded after the attach, which replays the
    registry. -/
def attachPhase (env : Env σ) (sqlHint : Option String) (pending : PendingParse)
    (s : Session σ κ) : Flow (Session σ κ) End Unit :=
  match s.ensureAttached env sqlHint with
  | (s, false) => .halt s (some .clientGone)
  | (s, true) =>
      match pending with
      | some (name, query, typeOids) =>
          .next { s with
            registry := s.registry.insert name (query, typeOids)
            leaseDirty := true
            attached := true } ()
      | none => .next { s with attached := true } ()

/-- The raw frontend hook. -/
def frontendPhase (s : Session σ κ) (m : FrontendMessage) :
    Flow (Session σ κ) End FrontendMessage :=
  match s.hooks with
  | none => .next s m
  | some h =>
      let r := h.interceptor.onFrontend h.ctx m
      let s := { s with hooks := some { h with ctx := r.1 } }
      match r.2.2 with
      | .forward => .next s r.2.1
      | .reply messages => (s.sendAll messages).andThen fun s _ => .halt s none
      | .deny _ => .halt s (some .clientGone)
      | .scatter _ => .halt s (some .clientGone)
      | .close => .halt s (some .clientGone)

/-- Ask the error policy about a lost connection. -/
def askLost (s : Session σ κ) (message : String) : Session σ κ × RetryDecision :=
  let reported := s.currentEndpoint.getD ""
  let asked := s.dispatchOnUpstreamError (.connectionLost reported message)
  match s.lease with
  | some lease =>
      ({ asked.1 with log := asked.1.log ++ [.lost lease.pool.endpoint reported asked.2] },
        asked.2)
  | none => asked

/-- Writing to the upstream connection failed. -/
def sendFailed (s : Session σ κ) : Flow (Session σ κ) End Unit :=
  match s.askLost "send failed" with
  | (s, .close) => .halt s (some (.upstreamBroken "upstream send failed"))
  | (s, .relink) =>
      let s := s.dropLease
      if s.hygiene.awaitingResponse || decide (0 < s.fedSinceRfq) then
        s.synthesizeUpstreamLost.andThen fun s _ =>
          let hygiene := { s.hygiene with awaitingResponse := false }
          .next { s with hygiene := hygiene, fedSinceRfq := 0, frontend := s.frontend + 1 } ()
      else .next { s with frontend := s.frontend + 1 } ()

/-- Put the message on the connection: flushed when it can trigger a response. -/
def putUpstream (env : Env σ) (s : Session σ κ) (lease : UpstreamLease σ)
    (m : FrontendMessage) : Session σ κ :=
  let conn := if m.triggersResponse then lease.conn.send env.upstream s.origin m
    else lease.conn.feed s.origin m
  { s with
    lease := some { lease with conn := conn }
    log := s.log ++ [.forwarded lease.conn.processId s.seq m]
    fedSinceRfq := s.fedSinceRfq + 1
    frontend := s.frontend + 1 }

/-- The forward phase. Without a lease the `unwrap` panics. -/
def forwardPhase (env : Env σ) (sendOk : Bool) (s : Session σ κ) (m : FrontendMessage) :
    Flow (Session σ κ) End Unit :=
  let s := if m.startsResponse then
      { s with hygiene := { s.hygiene with awaitingResponse := true } } else s
  match s.lease with
  | none => .halt s (some .panicked)
  | some lease => if sendOk then .next (s.putUpstream env lease m) () else s.sendFailed

/-- The phases behind the local answers. -/
def passPhases (env : Env σ) (t : Timing) (s : Session σ κ) (m : FrontendMessage) :
    Flow (Session σ κ) End Unit :=
  (s.queryPhase env t m).andThen fun s m' =>
    (s.registryPhase m').andThen fun s pending =>
      let sqlHint := (cycleSqlOf m).orElse fun _ => bindStatementSql m' s.registry
      (s.attachPhase env sqlHint pending).andThen fun s _ =>
        (s.frontendPhase m').andThen fun s m'' => s.forwardPhase env t.sendOk m''

/-- A message from the client. -/
def onClient (env : Env σ) (t : Timing) (s : Session σ κ) (m : FrontendMessage) :
    Flow (Session σ κ) End Unit :=
  let s := { s with toCore := s.toCore.recv m }
  if m = .terminate then .halt s (some .clientGone)
  else
    (s.swallowPhase m).andThen fun s _ =>
      (s.localPhase env m).andThen fun s _ => s.passPhases env t m

/-! ## The upstream arm -/

/-- What the pump notes about a message read from the lease's connection. -/
def trackBackend (env : Env σ) (s : Session σ κ) (m : BackendMessage) : Session σ κ :=
  { s with toCore := s.toCore.track env.transactionMode m }

/-- `adjust_tag`. A count beyond `u64` reads as 0. -/
def adjustTag (tag : String) (dropped : Nat) : String :=
  let chars := tag.toList.reverse
  match chars.dropWhile (fun ch => ch ≠ ' ') with
  | [] => tag
  | _ :: head =>
      match parseDigits (chars.takeWhile (fun ch => ch ≠ ' ')).reverse with
      | none => tag
      | some n =>
          String.ofList head.reverse ++ " " ++ toString ((if n < 2 ^ 64 then n else 0) - dropped)

/-- The row of the `on_row` phase: the row to forward, or `none` when it is dropped. A negative
    field count panics. -/
def editRow (s : Session σ κ) (h : SessionHooks κ) (row : DataRow) :
    Flow (Session σ κ) End (Option DataRow) :=
  match DataRowMut.parse row with
  | none => .halt s (some .panicked)
  | some (.error _) => .next (s.trackCycle fun t => { t with rows := t.rows + 1 }) (some row)
  | some (.ok r) =>
      let asked := h.interceptor.onRow h.ctx h.schema r
      let s := { s with hooks := some { h with ctx := asked.1 } }
      match asked.2.2 with
      | .keep =>
          .next (s.trackCycle fun t => { t with rows := t.rows + 1 })
            (some (asked.2.1.foldl RowEdit.perform r).apply)
      | .drop =>
          .next (s.trackCycle fun t =>
            { t with
              droppedTotal := t.droppedTotal + 1
              droppedPending := t.droppedPending + 1 }) none

/-- The schema, telemetry and row phase. A dropped row leaves the iteration. -/
def rowPhase (s : Session σ κ) (m : BackendMessage) : Flow (Session σ κ) End BackendMessage :=
  match s.hooks with
  | none => .next s m
  | some h =>
      match m with
      | .rowDescription fields =>
          if h.interceptor.wantsRows then
            let h := { h with schema := RowSchema.fromRowDescription fields }
            .next { s with hooks := some h } m
          else .next s m
      | .commandComplete tag =>
          let adjusted :=
            if h.interceptor.adjustCommandCounts && decide (0 < h.cycle.droppedPending) then
              adjustTag tag h.cycle.droppedPending else tag
          .next (s.trackCycle fun t => { t with tag := some tag, droppedPending := 0 })
            (.commandComplete adjusted)
      | .errorResponse info =>
          .next (s.trackCycle fun t => { t with error := some (CycleError.fromInfo info) }) m
      | .dataRow row =>
          if h.interceptor.wantsRows then
            (s.editRow h row).andThen fun s edited =>
              match edited with
              | some row => .next s (.dataRow row)
              | none => .halt s none
          else .next (s.trackCycle fun t => { t with rows := t.rows + 1 }) m
      | _ => .next s m

/-- The raw backend hook: the message to forward, or `none` when it was replaced. -/
def backendPhase (s : Session σ κ) (m : BackendMessage) :
    Flow (Session σ κ) End (Option BackendMessage) :=
  match s.hooks with
  | none => .next s (some m)
  | some h =>
      let r := h.interceptor.onBackend h.ctx m
      let s := { s with hooks := some { h with ctx := r.1 } }
      match r.2.2 with
      | .forward => .next s (some r.2.1)
      | .reply messages => (s.sendAll messages).andThen fun s _ => .next s none
      | .deny _ => .halt s (some .clientGone)
      | .scatter _ => .halt s (some .clientGone)
      | .close => .halt s (some .clientGone)

/-- The end of a cycle whose `ReadyForQuery` was forwarded. -/
def afterReady (env : Env σ) (s : Session σ κ) (status : TransactionStatus) :
    Flow (Session σ κ) End Unit :=
  let s := s.endActiveCycle
  if s.draining then .halt s (some .clientGone)
  else
    match s.detachIfIdle env status with
    | (s, true) => .next { s with leaseDirty := false, attached := false } ()
    | (s, false) => .next s ()

/-- Forward a message of the upstream to the client. `status` is the connection's. -/
def deliverBackend (env : Env σ) (s : Session σ κ) (o : Origin) (status : TransactionStatus)
    (m : BackendMessage) : Flow (Session σ κ) End Unit :=
  match s.write false o m with
  | (s, false) => .halt s (some .clientGone)
  | (s, true) =>
      let s := { s with backend := s.backend + 1 }
      if m.ready = 1 then s.afterReady env status else .next s ()

/-- A message from the lease's connection. -/
def onUpstream (env : Env σ) (s : Session σ κ) : Flow (Session σ κ) End Unit :=
  match s.lease with
  | none => .next s ()
  | some lease =>
      match lease.conn.next with
      | none => .next s ()
      | some ((o, m), conn) =>
          let s := { s with lease := some { lease with conn := conn } }.trackBackend env m
          let status := s.leaseStatus
          (s.rowPhase m).andThen fun s m =>
            (s.backendPhase m).andThen fun s forwarded =>
              match forwarded with
              | some m => s.deliverBackend env o status m
              | none => .next { s with backend := s.backend + 1 } ()

/-- The lease's connection was closed. The COPY state is kept. -/
def onUpstreamClosed (s : Session σ κ) : Flow (Session σ κ) End Unit :=
  match s.lease with
  | none => .next s ()
  | some _ =>
      match s.askLost "upstream closed unexpectedly" with
      | (s, .close) => .halt s (some (.upstreamBroken "upstream EOF"))
      | (s, .relink) =>
          let s := s.dropLease
          (if s.hygiene.awaitingResponse then s.synthesizeUpstreamLost else .next s ()).andThen
            fun s _ =>
              let hygiene := { s.hygiene with awaitingResponse := false }
              .next { s with hygiene := hygiene, fedSinceRfq := 0 } ()

/-! ## The loop -/

/-- The cancel arm. It does nothing while detached. -/
def onCancel (env : Env σ) (s : Session σ κ) : Session σ κ :=
  match s.lease with
  | some lease => { s with toCore := s.toCore.cancelled env.upstream lease }
  | none => s

/-- The shutdown arm. -/
def onShutdown (s : Session σ κ) : Flow (Session σ κ) End Unit :=
  if s.hygiene.awaitingResponse || decide (s.hygiene.copy ≠ .none) then
    .next { s with draining := true } ()
  else .halt s (some .clientGone)

end Session

/-- One iteration of the loop: the arm that is taken and what it receives. -/
inductive Event where
  | client (m : FrontendMessage) (t : Timing)
  /-- End of the client's stream, or bytes that do not decode. -/
  | clientGone
  | upstream
  | upstreamClosed
  | upstreamError (reason : String)
  | cancel
  | shutdown

namespace Session

/-- The arm of the `select!` that an event takes. -/
def arm (env : Env σ) (s : Session σ κ) : Event → Flow (Session σ κ) End Unit
  | .client m t => s.onClient env t m
  | .clientGone => .halt s (some .clientGone)
  | .upstream => s.onUpstream env
  | .upstreamClosed => s.onUpstreamClosed
  | .upstreamError reason =>
      if s.lease.isSome then .halt s (some (.upstreamBroken ("upstream error: " ++ reason)))
      else .next s ()
  | .cancel => .next (s.onCancel env) ()
  | .shutdown => s.onShutdown

/-- One iteration. A session that has ended takes no more steps. -/
def step (env : Env σ) (s : Session σ κ) (e : Event) : Session σ κ :=
  if s.ended.isSome then s
  else
    let r := (s.arm env e).close
    { r.1 with ended := r.2 }

/-! ## Start and end -/

/-- A session before its first attach. -/
def new (id sends : Nat) (world : World σ) (params : SessionParams) (startup : Params)
    (hooks : Option (SessionHooks κ)) : Session σ κ where
  id := id
  seq := 0
  log := []
  sendsLeft := sends
  downstreamStatus := .idle
  attached := false
  lease := none
  currentEndpoint := none
  fedSinceRfq := 0
  cycleIsExtended := false
  hygiene := {}
  registry := ∅
  gucOverrides := ∅
  leaseDirty := false
  swallowUntilSync := false
  draining := false
  ended := none
  world := world
  params := params
  startupParameters := startup
  hooks := hooks
  frontend := 0
  backend := 0
  reports := []

/-- `run_session_ready` up to the pump, with the pump's own initial values: `lease_dirty` is
    cleared and `current_endpoint` is the first endpoint of the route. -/
def start (env : Env σ) (s : Session σ κ) : Session σ κ :=
  if env.transactionMode then
    match s.baselineParamsRouted env with
    | (s, .ok _) => s
    | (s, .error e) =>
        { s.sendAttachFatal ("pgferry: failed to connect to upstream: " ++ e) with
          ended := some .clientGone }
  else
    match s.ensureAttached env none with
    | (s, false) => { s with ended := some .clientGone }
    | (s, true) =>
        { s with
          attached := true
          leaseDirty := false
          currentEndpoint := s.lease.map fun _ =>
            (env.route.endpoints.head?.map EndpointConfig.id).getD "" }

/-- The end of `run_session_ready`: the lease goes back through `sanitize`, is destroyed, or is
    dropped by the unwinding task. -/
def finish (env : Env σ) (s : Session σ κ) (arrived : Nat) : Session σ κ :=
  match s.ended, s.lease with
  | some .clientGone, some lease =>
      { s with lease := none, world := s.world.checkin env.upstream lease s.hygiene arrived }
  | some (.upstreamBroken _), some lease =>
      { s with lease := none, world := s.world.destroy lease }
  | some .panicked, some lease => { s with lease := none, world := s.world.abandon lease }
  | _, _ => s

end Session

end Pgferry
