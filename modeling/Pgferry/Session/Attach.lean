/-
  Attaching to an upstream connection and letting go of it (`ensure_attached`,
  `detach_if_idle`, `synthesize_upstream_lost` of `session.rs`).

  An attach routes, checks a connection out and brings it to the session's state: startup
  parameters, GUC overrides, named statements. Each failure destroys the lease and asks the
  error policy; `Relink` takes the next attempt.
-/
import Pgferry.Session.State

namespace Pgferry

open Loop

variable {σ κ : Type}

/-! ## Session state on a connection -/

/-- `StatementRegistry::record_close`, for the name that a `Close` carries. -/
def StatementRegistry.recordClose (registry : StatementRegistry) :
    Option String → StatementRegistry
  | some name => registry.erase name
  | none => registry

/-- `StatementRegistry::replay`: `Parse` every statement, then `Sync`. -/
def StatementRegistry.replay (u : Upstream σ) (registry : StatementRegistry) (c : Conn σ) :
    Except String (Conn σ) :=
  if registry.entries = [] then .ok c
  else
    ((registry.entries.foldl
      (fun c e => c.feed .proxy (.parse (some e.1) e.2.1 e.2.2)) c).send u .proxy .sync).awaitReady

/-- The GUC loop of `ensure_attached`. The flag is `lease_dirty`; an error names the override
    that failed. -/
def replayGucs (u : Upstream σ) :
    List (Σ _ : String, String) → Conn σ → Bool → Bool × Except String (Conn σ)
  | [], c, dirty => (dirty, .ok c)
  | ⟨name, value⟩ :: rest, c, dirty =>
      if c.parameter name = value then replayGucs u rest c dirty
      else
        match c.simpleQuery u (setSql name value) with
        | .error _ => (dirty, .error name)
        | .ok c => replayGucs u rest c true

/-- Why a checked-out connection could not be prepared: the message for the error policy and
    the text for the client. -/
structure PrepareError where
  message : String
  fatal : String

namespace Session

/-- Bring a fresh lease's connection to the session's state. -/
def prepare (env : Env σ) (s : Session σ κ) (conn : Conn σ) :
    Session σ κ × Except PrepareError (Conn σ) :=
  match syncStartupParameters env.upstream s.startupParameters conn with
  | .error e =>
      (s, .error {
        message := "parameter sync: " ++ e
        fatal := "pgferry: failed to prepare upstream connection: " ++ e })
  | .ok conn =>
      match replayGucs env.upstream s.gucOverrides.entries conn s.leaseDirty with
      | (dirty, .error name) =>
          ({ s with leaseDirty := dirty }, .error {
            message := "GUC replay: SET " ++ name
            fatal := "pgferry: failed to replay session state: SET " ++ name })
      | (dirty, .ok conn) =>
          match s.registry.replay env.upstream conn with
          | .error _ =>
              ({ s with leaseDirty := dirty }, .error {
                message := "prepared statement replay failed"
                fatal := "pgferry: failed to replay prepared statements" })
          | .ok conn =>
              ({ s with leaseDirty := dirty || !s.registry.entries.isEmpty }, .ok conn)

/-- `send_attach_fatal`. A failure to send is ignored. -/
def sendAttachFatal (s : Session σ κ) (message : String) : Session σ κ :=
  (s.write true s.origin
    (.errorResponse { severity := "FATAL", code := "08006", message := message })).1

/-- The attempts of `ensure_attached`. -/
def attachAttempts (env : Env σ) (sqlHint : Option String) :
    Nat → Session σ κ → Session σ κ × Bool
  | 0, s => (s.sendAttachFatal "pgferry: all upstream endpoints failed", false)
  | attempts + 1, s =>
      let routed := s.dispatchUpstream env sqlHint
      let s := routed.1
      match env.route.endpoint routed.2 with
      | none =>
          (s.sendAttachFatal ("pgferry: unknown upstream endpoint " ++ debugText routed.2), false)
      | some endpoint =>
          let key := env.poolKey s.params endpoint.id
          match s.world.checkout env.upstream key with
          | (world, .error e) =>
              let asked := { s with world := world }.dispatchOnUpstreamError
                (.connect endpoint.id e)
              match asked.2 with
              | .close =>
                  (asked.1.sendAttachFatal ("pgferry: failed to connect to upstream: " ++ e),
                    false)
              | .relink => attachAttempts env sqlHint attempts asked.1
          | (world, .ok lease) =>
              match { s with world := world }.prepare env lease.conn with
              | (s, .error e) =>
                  let asked := { s with world := s.world.destroy lease }.dispatchOnUpstreamError
                    (.connect endpoint.id e.message)
                  match asked.2 with
                  | .close => (asked.1.sendAttachFatal e.fatal, false)
                  | .relink => attachAttempts env sqlHint attempts asked.1
              | (s, .ok conn) =>
                  let s := s.dispatchOnUpstreamConnected endpoint.id
                  ({ s with
                    currentEndpoint := some endpoint.id
                    lease := some { lease with conn := conn }
                    log := s.log ++ [.attached conn.processId endpoint.id] }, true)

/-- `ensure_attached`: whether the session holds a lease afterwards. -/
def ensureAttached (env : Env σ) (s : Session σ κ) (sqlHint : Option String) :
    Session σ κ × Bool :=
  if s.lease.isSome then (s, true)
  else attachAttempts env sqlHint (max (env.route.endpoints.length * 2) 2) s

/-- The attempts of `baseline_params_routed`. -/
def baselineAttempts (env : Env σ) : Nat → Session σ κ → Session σ κ × Except String Params
  | 0, s => (s, .error "all upstream endpoints failed")
  | attempts + 1, s =>
      let routed := s.dispatchUpstream env none
      let s := routed.1
      match env.route.endpoint routed.2 with
      | none => (s, .error ("unknown upstream endpoint " ++ debugText routed.2))
      | some endpoint =>
          match s.world.baselineParams env.upstream (env.poolKey s.params endpoint.id) with
          | (world, .ok params) =>
              ({ s with world := world }.dispatchOnUpstreamConnected endpoint.id, .ok params)
          | (world, .error e) =>
              let asked := { s with world := world }.dispatchOnUpstreamError
                (.connect endpoint.id e)
              match asked.2 with
              | .close => (asked.1, .error e)
              | .relink => baselineAttempts env attempts asked.1

/-- `baseline_params_routed`. -/
def baselineParamsRouted (env : Env σ) (s : Session σ κ) : Session σ κ × Except String Params :=
  baselineAttempts env (max (env.route.endpoints.length * 2) 2) s

/-! ## Losing and releasing the connection -/

/-- The error of a cycle whose connection was lost. -/
def lostInfo : ErrorInfo :=
  { severity := "ERROR", code := "08006", message := "upstream connection lost" }

/-- The telemetry of `synthesize_upstream_lost`: the report is taken before the error is
    noted. -/
def reportLost (s : Session σ κ) : Session σ κ :=
  match s.hooks with
  | some h =>
      if h.cycle.active then
        s.endCycle.trackCycle fun t => { t with error := some (CycleError.fromInfo lostInfo) }
      else s
  | none => s

/-- `synthesize_upstream_lost`. -/
def synthesizeUpstreamLost (s : Session σ κ) : Flow (Session σ κ) End Unit :=
  (s.sendAll [.errorResponse lostInfo]).andThen fun s _ =>
    if s.cycleIsExtended then .next { s with swallowUntilSync := true } ()
    else
      (s.sendAll [.readyForQuery .idle]).andThen fun s _ =>
        .next { s with downstreamStatus := .idle }.reportLost ()

/-- Destroy the lease, if there is one, and forget the endpoint. -/
def dropLease (s : Session σ κ) : Session σ κ :=
  { s with
    world := match s.lease with
      | some lease => s.world.destroy lease
      | none => s.world
    lease := none
    currentEndpoint := none
    attached := false }

/-- `detach_if_idle`: whether a detach happened. -/
def detachIfIdle (env : Env σ) (s : Session σ κ) (status : TransactionStatus) :
    Session σ κ × Bool :=
  if !env.transactionMode then (s, false)
  else if status ≠ .idle then (s, false)
  else
    match s.lease with
    | none => (s, false)
    | some lease =>
        ({ s with
          lease := none
          world := s.world.checkinDetached env.upstream lease s.leaseDirty
          log := s.log ++ [.detached lease.conn.processId] }, true)

end Session

end Pgferry
