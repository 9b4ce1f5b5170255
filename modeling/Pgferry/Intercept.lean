/-
  The interceptor API (`intercept.rs`), the request types of `scatter.rs` that it returns, and
  the endpoints it routes to (`config.rs`).

  An interceptor is a record of its hooks over a per-session context `κ`. A hook may depend on
  anything that the context holds, the answers of a shared or external service included, so a
  theorem about all interceptors covers every sequence of answers.
-/
import Pgferry.Row

namespace Pgferry

structure UpstreamTlsConfig where
  ca : Option String := none
  insecure : Bool := false
  deriving DecidableEq, Repr

/-- The password and the TLS settings, when given, override the route's. -/
structure EndpointConfig where
  id : String
  upstream : String
  password : Option String := none
  tls : Option UpstreamTlsConfig := none
  deriving DecidableEq, Repr

structure RouteConfig where
  name : String
  endpoints : List EndpointConfig
  password : Option String := none
  tls : UpstreamTlsConfig := {}
  deriving DecidableEq, Repr

/-- `RouteConfig::endpoint`. -/
def RouteConfig.endpoint (r : RouteConfig) (id : String) : Option EndpointConfig :=
  r.endpoints.find? fun e => e.id == id

structure SessionParams where
  user : String
  database : Option String
  deriving DecidableEq, Repr

/-- How the legs' result sets compose into one. -/
inductive MergePolicy where
  | concat
  | sum
  deriving DecidableEq, Repr

structure ScatterLeg where
  endpoint : String
  sql : String
  deriving DecidableEq, Repr

structure ScatterRequest where
  legs : List ScatterLeg
  merge : MergePolicy
  tag : String
  deriving DecidableEq, Repr

inductive Action where
  | forward
  | reply (messages : List BackendMessage)
  | deny (info : ErrorInfo)
  | scatter (request : ScatterRequest)
  | close
  deriving DecidableEq, Repr

/-- Context of a routing decision. -/
structure RoutingInfo where
  endpoints : List EndpointConfig
  user : String
  database : Option String
  sql : Option String

/-- `RoutingInfo::default_endpoint`. -/
def RoutingInfo.defaultEndpoint (info : RoutingInfo) : String :=
  (info.endpoints.head?.map EndpointConfig.id).getD ""

inductive UpstreamError where
  | connect (endpoint message : String)
  | connectionLost (endpoint message : String)
  deriving DecidableEq, Repr

/-- `UpstreamError::endpoint`. -/
def UpstreamError.endpoint : UpstreamError → String
  | .connect endpoint _ => endpoint
  | .connectionLost endpoint _ => endpoint

inductive RetryDecision where
  | relink
  | close
  deriving DecidableEq, Repr

/-- Which protocol flavor started a query cycle. -/
inductive CycleKind where
  | simple
  | extended (statement : Option String)
  deriving DecidableEq, Repr

def CycleKind.isExtended : CycleKind → Bool
  | .simple => false
  | .extended _ => true

structure QueryCycle where
  sql : String
  kind : CycleKind
  rewritten : Bool
  deriving DecidableEq, Repr

/-- `QueryCycle::new`. -/
def QueryCycle.new (sql : String) (kind : CycleKind) : QueryCycle :=
  { sql := sql, kind := kind, rewritten := false }

/-- `QueryCycle::take_rewritten`. -/
def QueryCycle.takeRewritten (c : QueryCycle) : Option String :=
  if c.rewritten then some c.sql else none

structure CycleError where
  code : String
  message : String
  deriving DecidableEq, Repr

/-- `CycleError::from_info`. -/
def CycleError.fromInfo (info : ErrorInfo) : CycleError :=
  { code := info.code, message := info.message }

/-- Telemetry of a finished cycle, without its duration. -/
structure CycleReport where
  sql : Option String
  kind : CycleKind
  tag : Option String
  rows : Nat
  rowsDropped : Nat
  error : Option CycleError
  deriving DecidableEq, Repr

/-- The `Interceptor` trait. Each hook returns the new context first. `onQuery` and the raw
    hooks may change what they are given. -/
structure Interceptor (κ : Type) where
  onQuery : κ → QueryCycle → κ × QueryCycle × Action
  onFrontend : κ → FrontendMessage → κ × FrontendMessage × Action
  onBackend : κ → BackendMessage → κ × BackendMessage × Action
  onRow : κ → RowSchema → DataRowMut → κ × List RowEdit × RowAction
  wantsRows : Bool
  adjustCommandCounts : Bool
  onCycleEnd : κ → CycleReport → κ
  upstream : κ → RoutingInfo → κ × String
  onUpstreamError : κ → UpstreamError → κ × RetryDecision
  onUpstreamConnected : κ → String → κ

/-- The default body of every hook (`NoopInterceptor`). -/
def Interceptor.noop (κ : Type) : Interceptor κ where
  onQuery ctx cycle := (ctx, cycle, .forward)
  onFrontend ctx msg := (ctx, msg, .forward)
  onBackend ctx msg := (ctx, msg, .forward)
  onRow ctx _ _ := (ctx, [], .keep)
  wantsRows := false
  adjustCommandCounts := false
  onCycleEnd ctx _ := ctx
  upstream ctx info := (ctx, info.defaultEndpoint)
  onUpstreamError ctx _ := (ctx, .relink)
  onUpstreamConnected ctx _ := ctx

end Pgferry
