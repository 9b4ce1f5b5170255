/-
  What one iteration of the pump can do to the protocol state.

  `Steps env i Φ s e c` lists the outcomes of the event `e` in the session `s` with the
  interceptor `i`: one constructor for each path through the phases, with the conditions under
  which the source takes it and the resulting `Core`. Writing to the client may fail at any
  message; `Said` is a write with what follows it, or a prefix of it and the end of the session.
  `Φ` is what is known of the connections the pools hand out.

  Proved (`step_refines`): every step of the pump is one of these, keeps the interceptor and the
  startup parameters, and leaves the pools tidy when the connection it releases has `Φ`. Every
  invariant of a session is a case analysis over `Steps`.
-/
import Pgferry.Session.Pump

namespace Pgferry

open Loop

variable {σ κ : Type}

/-! ## Updates of the protocol state -/

namespace Core

/-- Append entries to the log. -/
def emit (c : Core σ) (es : List Entry) : Core σ := { c with log := c.log ++ es }

/-- The pump's own messages as answers to the message read last. -/
def answers (c : Core σ) (ms : List BackendMessage) : List Entry :=
  ms.map (Entry.sent true c.origin)

def stop (c : Core σ) (e : End) : Core σ := { c with ended := some e }

/-- Note which protocol the cycle that `m` starts uses. -/
def note (c : Core σ) (m : FrontendMessage) : Core σ :=
  match cycleInputOf m with
  | some input => { c with cycleIsExtended := input.kind.isExtended }
  | none => c

/-- Record the statement of a forwarded `Parse`; the session is attached. -/
def register (c : Core σ) : Session.PendingParse → Core σ
  | some (name, query, typeOids) =>
      { c with
        registry := c.registry.insert name (query, typeOids)
        leaseDirty := true
        attached := true }
  | none => { c with attached := true }

/-- A message that starts a response is about to be sent. -/
def await (c : Core σ) (m : FrontendMessage) : Core σ :=
  if m.startsResponse then { c with hygiene := { c.hygiene with awaitingResponse := true } } else c

/-- Put a message on the connection of `lease`. -/
def put (u : Upstream σ) (c : Core σ) (lease : UpstreamLease σ) (m : FrontendMessage) : Core σ :=
  { c with
    lease := some { lease with
      conn := if m.triggersResponse then lease.conn.send u c.origin m
        else lease.conn.feed c.origin m }
    log := c.log ++ [.forwarded lease.conn.processId c.seq m]
    fedSinceRfq := c.fedSinceRfq + 1 }

/-- No lease and no endpoint. -/
def unleased (c : Core σ) : Core σ :=
  { c with lease := none, currentEndpoint := none, attached := false }

/-- Nothing of the current cycle is left upstream. -/
def settled (c : Core σ) : Core σ :=
  { c with hygiene := { c.hygiene with awaitingResponse := false }, fedSinceRfq := 0 }

/-- The loss of the lease as the log has it. -/
def lostEntry (c : Core σ) (lease : UpstreamLease σ) (decision : RetryDecision) : Entry :=
  .lost lease.pool.endpoint (c.currentEndpoint.getD "") decision

/-- What follows a forwarded `ReadyForQuery`: the end of a draining session, or a detach. -/
def afterReady (transactionMode : Bool) (c : Core σ) : Core σ :=
  if c.draining then c.stop .clientGone
  else if transactionMode ∧ c.leaseStatus = .idle then
    match c.lease with
    | some lease =>
        { c with
          lease := none
          log := c.log ++ [.detached lease.conn.processId]
          leaseDirty := false
          attached := false }
    | none => c
  else c

/-- The next message of the lease's connection, and the state that has noted it. -/
def readNext (transactionMode : Bool) (c : Core σ) : Option (Origin × BackendMessage × Core σ) :=
  match c.lease with
  | none => none
  | some lease =>
      match lease.conn.next with
      | none => none
      | some ((o, m), conn) =>
          some (o, m,
            { c with lease := some { lease with conn := conn } }.track transactionMode m)

/-- `m` reaches the phases behind the local answers. -/
def Passes (transactionMode : Bool) (c : Core σ) (m : FrontendMessage) : Prop :=
  m ≠ .terminate ∧ c.swallowUntilSync = false ∧
    ¬ (transactionMode = true ∧ c.lease = none ∧
      (m = .sync ∨ m = .flush ∨ ∃ target name, m = .close target name))

end Core

/-- `d` is `c` after the entries `es` and the update `f`; or the client went away in between. -/
inductive Said (c : Core σ) (es : List Entry) (f : Core σ → Core σ) : Core σ → Prop
  | done : Said c es f (f (c.emit es))
  | cut (pre : List Entry) (endpoint : Option String) (attached : Bool) (h : pre <+: es) :
      Said c es f { (c.emit pre).stop .clientGone with
        currentEndpoint := endpoint, attached := attached }

/-! ## The hooks -/

/-- `on_query` answers `action`. -/
def Asks (i : Option (Interceptor κ)) (input : CycleInput) (action : Action) : Prop :=
  ∃ h ∈ i, ∃ ctx, (h.onQuery ctx (QueryCycle.new input.sql input.kind)).2.2 = action

/-- `sql` is the text of a leg of some scatter that `on_query` asks for. -/
def LegText (i : Option (Interceptor κ)) (sql : String) : Prop :=
  ∃ input request, Asks i input (.scatter request) ∧ ∃ leg ∈ request.legs, leg.sql = sql

/-- The query phase goes on with `m'`. -/
def Forwards (i : Option (Interceptor κ)) (m m' : FrontendMessage) : Prop :=
  (m' = m ∧ (i = none ∨ cycleInputOf m = none)) ∨
    ∃ input, cycleInputOf m = some input ∧ Asks i input .forward ∧ ∃ sql, m' = applyRewrite m sql

/-- `on_frontend` answers `action` and leaves `m'`. -/
def Hooked (i : Option (Interceptor κ)) (m m' : FrontendMessage) (action : Action) : Prop :=
  (i = none ∧ m' = m ∧ action = .forward) ∨
    ∃ h ∈ i, ∃ ctx, (h.onFrontend ctx m).2 = (m', action)

/-- The row phase goes on with `m'`. -/
def Shown (i : Option (Interceptor κ)) (m m' : BackendMessage) : Prop :=
  m' = m ∨ i ≠ none ∧
    ((∃ row row', m = .dataRow row ∧ m' = .dataRow row') ∨
      ∃ tag tag', m = .commandComplete tag ∧ m' = .commandComplete tag')

/-- `on_backend` answers `action` and leaves `m'`. -/
def HookedBack (i : Option (Interceptor κ)) (m m' : BackendMessage) (action : Action) : Prop :=
  (i = none ∧ m' = m ∧ action = .forward) ∨
    ∃ h ∈ i, ∃ ctx, (h.onBackend ctx m).2 = (m', action)

/-! ## Attaching and losing a connection -/

/-- `base` was brought to the session's state: `conn`, with the flag `dirty`. -/
def Prepared (u : Upstream σ) (startup : Params) (c : Core σ) (dirty₀ : Bool) (base conn : Conn σ)
    (dirty : Bool) : Prop :=
  ∃ c₁ c₂ d, syncStartupParameters u startup base = .ok c₁ ∧
    replayGucs u c.gucOverrides.entries c₁ dirty₀ = (d, .ok c₂) ∧
    c.registry.replay u c₂ = .ok conn ∧ dirty = (d || !c.registry.entries.isEmpty)

/-- The state of a session that has attached to `lease`. -/
def Core.leased (c : Core σ) (lease : UpstreamLease σ) (dirty : Bool) : Core σ :=
  { c with
    currentEndpoint := some lease.pool.endpoint
    lease := some lease
    leaseDirty := dirty
    log := c.log ++ [.attached lease.conn.processId lease.pool.endpoint] }

/-- `ensure_attached` succeeds. Failed attempts before may have raised the dirty flag. -/
inductive Attaches (env : Env σ) (Φ : PoolKey → Conn σ → Prop) (params : SessionParams)
    (startup : Params) (c : Core σ) : Core σ → Prop
  | held (lease : UpstreamLease σ) (h : c.lease = some lease) : Attaches env Φ params startup c c
  | leased (endpoint : String) (dirty₀ : Bool) (base : Conn σ) (lease : UpstreamLease σ)
      (dirty : Bool) (hnone : c.lease = none) (hdirty : c.leaseDirty = true → dirty₀ = true)
      (hpool : lease.pool = env.poolKey params endpoint) (hbase : Φ lease.pool base)
      (hprep : Prepared env.upstream startup c dirty₀ base lease.conn dirty) :
      Attaches env Φ params startup c (c.leased lease dirty)

/-- `ensure_attached` fails, with a last word to the client if it can be sent. -/
inductive AttachFails (c : Core σ) : Core σ → Prop
  | intro (dirty : Bool) (info : ErrorInfo) (es : List Entry) (hnone : c.lease = none)
      (h : es <+: c.answers [.errorResponse info]) :
      AttachFails c ({ c with leaseDirty := dirty }.emit es)

/-- The outcome of losing `lease`; `synth` is whether the cycle counts as interrupted. -/
inductive Lost (i : Option (Interceptor κ)) (c : Core σ) (lease : UpstreamLease σ)
    (reason : String) (synth : Bool) : Core σ → Prop
  | closed (hi : i ≠ none) :
      Lost i c lease reason synth
        ((c.emit [c.lostEntry lease .close]).stop (.upstreamBroken reason))
  | silent (hs : synth = false) :
      Lost i c lease reason synth (c.emit [c.lostEntry lease .relink]).unleased.settled
  | simple (d : Core σ) (hs : synth = true) (hk : c.cycleIsExtended = false)
      (h : Said (c.emit [c.lostEntry lease .relink]).unleased
        (c.answers [.errorResponse Session.lostInfo, .readyForQuery .idle])
        (fun d => { d with downstreamStatus := .idle }.settled) d) :
      Lost i c lease reason synth d
  | extended (d : Core σ) (hs : synth = true) (hk : c.cycleIsExtended = true)
      (h : Said (c.emit [c.lostEntry lease .relink]).unleased
        (c.answers [.errorResponse Session.lostInfo])
        (fun d => { d with swallowUntilSync := true }.settled) d) :
      Lost i c lease reason synth d

/-! ## Client messages -/

/-- The statement that a `Parse` defines, if it has a name. -/
def pendingParse : FrontendMessage → Session.PendingParse
  | .parse (some name) query typeOids =>
      if name = "" then none else some (name, query, typeOids)
  | _ => none

/-- What the query phase makes of `m` when it goes on: the message as `on_query`, asked in the
    session's context, has rewritten it. -/
def Session.approves (s : Session σ κ) (m : FrontendMessage) : Option FrontendMessage :=
  match cycleInputOf m, s.hooks with
  | some input, some h =>
      let r := h.interceptor.onQuery h.ctx (QueryCycle.new input.sql input.kind)
      match r.2.2 with
      | .forward => some (applyRewrite m r.2.1.takeRewritten)
      | _ => none
  | _, _ => some m

/-- `m` came through to the raw hook as `m'`: it is not answered locally, no statement of its
    name is registered, and the session is attached. -/
structure Enters (env : Env σ) (i : Option (Interceptor κ)) (Φ : PoolKey → Conn σ → Prop)
    (s : Session σ κ) (c : Core σ) (m m' : FrontendMessage) (d : Core σ) : Prop where
  passes : c.Passes env.transactionMode m
  forwards : Forwards i m m'
  approved : s.approves m = some m'
  unknown : ∀ p, pendingParse m' = some p → c.registry.lookup p.1 = none
  attaches : ∃ c₁, Attaches env Φ s.params s.startupParameters (c.note m) c₁ ∧
    d = c₁.register (pendingParse m')

/-- The state after a scatter leg ran on the session's lease. -/
def Core.ranLeg (u : Upstream σ) (c : Core σ) (lease : UpstreamLease σ) (leg : ScatterLeg) :
    Core σ :=
  { c with
    lease := some { lease with conn := (runQueryCollect u lease.conn leg.sql).conn }
    log := c.log ++ [.sessionLeg leg.endpoint lease.pool.endpoint] }

/-- The state in which the merge of a scatter starts, and whether the session's lease broke. -/
inductive Scattered (u : Upstream σ) (c : Core σ) (request : ScatterRequest) :
    Core σ → Bool → Prop
  | pooled : Scattered u c request c false
  | leg (lease : UpstreamLease σ) (leg : ScatterLeg) (hlease : c.lease = some lease)
      (hleg : leg ∈ request.legs) (hep : c.currentEndpoint = some leg.endpoint) :
      Scattered u c request (c.ranLeg u lease leg) (runQueryCollect u lease.conn leg.sql).broken

/-- `t` has what `execute_scatter` reads of `s`, at the protocol state `c`. -/
structure Session.Like (s : Session σ κ) (c : Core σ) (t : Session σ κ) : Prop where
  core : t.toCore = c
  world : t.world = s.world
  params : t.params = s.params
  startup : t.startupParameters = s.startupParameters
  sends : t.sendsLeft = s.sendsLeft

/-- Why a scatter of `s` fails at the state `c`: refused, or run and failed. -/
def ScatterFails (env : Env σ) (s : Session σ κ) (c : Core σ) (kind : CycleKind)
    (request : ScatterRequest) (t : Timing) (failure : ScatterFailure) : Prop :=
  (∃ info, s.scatterRefusal kind = some info ∧
      failure = { error := info, sessionLeaseBroken := false }) ∨
    s.scatterRefusal kind = none ∧
      ∃ s₁ s₂, s.Like c s₁ ∧ s₁.executeScatter env request t = (s₂, .failed failure)

/-- The state in which a failed scatter is reported. -/
def Core.scatterLost (c : Core σ) (broken : Bool) : Core σ :=
  { (if broken then c.unleased else c) with currentEndpoint := none, attached := false }

/-- What the pump does with a message that it does not forward. `c` has read it. -/
inductive Answered (env : Env σ) (i : Option (Interceptor κ)) (s : Session σ κ) (c : Core σ)
    (m : FrontendMessage) (t : Timing) : Core σ → Prop
  | quit (hm : m = .terminate) : Answered env i s c m t (c.stop .clientGone)
  | swallowed (hs : c.swallowUntilSync = true) (hm : m ≠ .sync) (hq : m ≠ .terminate) :
      Answered env i s c m t c
  | resumed (d : Core σ) (hs : c.swallowUntilSync = true) (hm : m = .sync)
      (h : Said { c with swallowUntilSync := false }
        (c.answers [.readyForQuery c.leaseStatus]) id d) : Answered env i s c m t d
  | localSync (d : Core σ) (hs : c.swallowUntilSync = false) (ht : env.transactionMode = true)
      (hl : c.lease = none) (hm : m = .sync)
      (h : Said c (c.answers [.readyForQuery c.downstreamStatus]) id d) :
      Answered env i s c m t d
  | localFlush (hs : c.swallowUntilSync = false) (ht : env.transactionMode = true)
      (hl : c.lease = none) (hm : m = .flush) : Answered env i s c m t c
  | localClose (d : Core σ) (target : Target) (name : Option String)
      (hs : c.swallowUntilSync = false) (ht : env.transactionMode = true) (hl : c.lease = none)
      (hm : m = .close target name)
      (h : Said { c with registry := c.registry.recordClose name }
        (c.answers [.closeComplete]) id d) : Answered env i s c m t d
  | closed (input : CycleInput) (hp : c.Passes env.transactionMode m)
      (hin : cycleInputOf m = some input) (ha : Asks i input .close) :
      Answered env i s c m t ((c.note m).stop .clientGone)
  | deniedSimple (input : CycleInput) (info : ErrorInfo) (d : Core σ)
      (hp : c.Passes env.transactionMode m) (hin : cycleInputOf m = some input)
      (ha : Asks i input (.deny info)) (hk : input.kind.isExtended = false)
      (h : Said (c.note m) (c.answers [.errorResponse info, .readyForQuery c.leaseStatus]) id d) :
      Answered env i s c m t d
  | deniedExtended (input : CycleInput) (info : ErrorInfo) (d : Core σ)
      (hp : c.Passes env.transactionMode m) (hin : cycleInputOf m = some input)
      (ha : Asks i input (.deny info)) (hk : input.kind.isExtended = true)
      (h : Said (c.note m) (c.answers [.errorResponse info])
        (fun d => { d with swallowUntilSync := true }) d) : Answered env i s c m t d
  | repliedSimple (input : CycleInput) (ms : List BackendMessage) (d : Core σ)
      (hp : c.Passes env.transactionMode m) (hin : cycleInputOf m = some input)
      (ha : Asks i input (.reply ms)) (hk : input.kind.isExtended = false)
      (h : Said (c.note m) (c.answers (ms ++ [.readyForQuery c.leaseStatus])) id d) :
      Answered env i s c m t d
  | repliedExtended (input : CycleInput) (ms : List BackendMessage) (d : Core σ)
      (hp : c.Passes env.transactionMode m) (hin : cycleInputOf m = some input)
      (ha : Asks i input (.reply ms)) (hk : input.kind.isExtended = true)
      (h : Said (c.note m) (c.answers (ms ++ [.readyForQuery c.leaseStatus]))
        (fun d => { d with swallowUntilSync := true }) d) : Answered env i s c m t d
  | scatterOk (input : CycleInput) (request : ScatterRequest) (ms : List BackendMessage)
      (c₁ d : Core σ) (hp : c.Passes env.transactionMode m) (hin : cycleInputOf m = some input)
      (ha : Asks i input (.scatter request)) (hk : input.kind.isExtended = false)
      (hd : c.downstreamStatus = .idle) (hr : Scattered env.upstream (c.note m) request c₁ false)
      (hms : ∀ x ∈ ms, x.isResult = true)
      (h : Said c₁ (c.answers (ms ++ [.readyForQuery c.downstreamStatus])) id d) :
      Answered env i s c m t d
  | scatterRefused (input : CycleInput) (request : ScatterRequest) (info : ErrorInfo)
      (d : Core σ) (hp : c.Passes env.transactionMode m) (hin : cycleInputOf m = some input)
      (ha : Asks i input (.scatter request)) (hr : s.scatterRefusal input.kind = some info)
      (h : Said ((c.note m).scatterLost false)
        (c.answers [.errorResponse info, .readyForQuery .idle])
        (fun d => { d with downstreamStatus := .idle }) d) : Answered env i s c m t d
  | scatterFailed (input : CycleInput) (request : ScatterRequest) (failure : ScatterFailure)
      (c₁ d : Core σ) (hp : c.Passes env.transactionMode m) (hin : cycleInputOf m = some input)
      (ha : Asks i input (.scatter request)) (hk : input.kind.isExtended = false)
      (hf : ScatterFails env s (c.note m) input.kind request t failure)
      (hr : Scattered env.upstream (c.note m) request c₁ failure.sessionLeaseBroken)
      (h : Said (c₁.scatterLost failure.sessionLeaseBroken)
        (c.answers [.errorResponse failure.error, .readyForQuery .idle])
        (fun d => { d with downstreamStatus := .idle }) d) : Answered env i s c m t d
  | scatterPanicked (input : CycleInput) (request : ScatterRequest) (c₁ : Core σ)
      (hp : c.Passes env.transactionMode m) (hin : cycleInputOf m = some input)
      (ha : Asks i input (.scatter request)) (hk : input.kind.isExtended = false)
      (hr : Scattered env.upstream (c.note m) request c₁ false) :
      Answered env i s c m t (c₁.stop .panicked)
  | reparsed (m' : FrontendMessage) (name query : String) (typeOids known : List Nat) (d : Core σ)
      (hp : c.Passes env.transactionMode m) (hf : Forwards i m m' ∧ s.approves m = some m')
      (hm : pendingParse m' = some (name, query, typeOids))
      (hk : c.registry.lookup name = some (query, known))
      (h : Said (c.note m) (c.answers [.parseComplete]) id d) : Answered env i s c m t d
  | duplicate (m' : FrontendMessage) (name query : String) (typeOids : List Nat)
      (known : String × List Nat) (d : Core σ)
      (hp : c.Passes env.transactionMode m) (hf : Forwards i m m')
      (hm : pendingParse m' = some (name, query, typeOids))
      (hk : c.registry.lookup name = some known) (hne : known.1 ≠ query)
      (h : Said (c.note m) (c.answers [.errorResponse (Session.duplicateStatement name)])
        (fun d => { d with swallowUntilSync := true }) d) : Answered env i s c m t d

/-! ## Steps -/

/-- The outcomes of one iteration of the pump. -/
inductive Steps (env : Env σ) (i : Option (Interceptor κ)) (Φ : PoolKey → Conn σ → Prop)
    (s : Session σ κ) : Event → Core σ → Prop
  | answered (m : FrontendMessage) (t : Timing) (d : Core σ)
      (h : Answered env i s (s.toCore.recv m) m t d) : Steps env i Φ s (.client m t) d
  | attachFailed (m m' : FrontendMessage) (t : Timing) (d : Core σ)
      (hp : (s.toCore.recv m).Passes env.transactionMode m) (hf : Forwards i m m')
      (h : AttachFails ((s.toCore.recv m).note m) d) :
      Steps env i Φ s (.client m t) (d.stop .clientGone)
  | hookReplied (m m' m'' : FrontendMessage) (t : Timing) (ms : List BackendMessage)
      (c d : Core σ) (he : Enters env i Φ s (s.toCore.recv m) m m' c)
      (hh : Hooked i m' m'' (.reply ms)) (h : Said c (c.answers ms) id d) :
      Steps env i Φ s (.client m t) d
  | hookStopped (m m' m'' : FrontendMessage) (t : Timing) (action : Action) (c : Core σ)
      (he : Enters env i Φ s (s.toCore.recv m) m m' c) (hh : Hooked i m' m'' action)
      (ha : action ≠ .forward) : Steps env i Φ s (.client m t) (c.stop .clientGone)
  | put (m m' m'' : FrontendMessage) (t : Timing) (c : Core σ) (lease : UpstreamLease σ)
      (he : Enters env i Φ s (s.toCore.recv m) m m' c) (hh : Hooked i m' m'' .forward)
      (hlease : c.lease = some lease) (hs : t.sendOk = true) :
      Steps env i Φ s (.client m t) ((c.await m'').put env.upstream lease m'')
  | sendFailed (m m' m'' : FrontendMessage) (t : Timing) (c d : Core σ)
      (lease : UpstreamLease σ) (he : Enters env i Φ s (s.toCore.recv m) m m' c)
      (hh : Hooked i m' m'' .forward) (hlease : c.lease = some lease) (hs : t.sendOk = false)
      (h : Lost i (c.await m'') lease "upstream send failed"
        ((c.await m'').hygiene.awaitingResponse || decide (0 < c.fedSinceRfq)) d) :
      Steps env i Φ s (.client m t) d
  | clientGone : Steps env i Φ s .clientGone (s.toCore.stop .clientGone)
  /-- No message is there to read, or nothing is leased. -/
  | idle (e : Event)
      (he : e = .upstream ∨ e = .upstreamClosed ∨ e = .cancel ∨ ∃ reason, e = .upstreamError reason)
      (h : e = .upstream ∨ s.lease = none) : Steps env i Φ s e s.toCore
  | rowDropped (o : Origin) (m : BackendMessage) (c : Core σ) (row : DataRow)
      (hr : s.toCore.readNext env.transactionMode = some (o, m, c)) (hm : m = .dataRow row)
      (hi : i ≠ none) : Steps env i Φ s .upstream c
  | readStopped (o : Origin) (m : BackendMessage) (c : Core σ) (e : End)
      (hr : s.toCore.readNext env.transactionMode = some (o, m, c)) (hi : i ≠ none) :
      Steps env i Φ s .upstream (c.stop e)
  | replaced (o : Origin) (m m' m'' : BackendMessage) (ms : List BackendMessage) (c d : Core σ)
      (hr : s.toCore.readNext env.transactionMode = some (o, m, c)) (hs : Shown i m m')
      (hh : HookedBack i m' m'' (.reply ms)) (h : Said c (c.answers ms) id d) :
      Steps env i Φ s .upstream d
  | passed (o : Origin) (m m' m'' : BackendMessage) (c d : Core σ)
      (hr : s.toCore.readNext env.transactionMode = some (o, m, c)) (hs : Shown i m m')
      (hh : HookedBack i m' m'' .forward)
      (h : Said c [.sent false o m'']
        (if m''.ready = 1 then Core.afterReady env.transactionMode else id) d) :
      Steps env i Φ s .upstream d
  | upstreamClosed (lease : UpstreamLease σ) (d : Core σ) (hlease : s.lease = some lease)
      (h : Lost i s.toCore lease "upstream EOF" s.hygiene.awaitingResponse d) :
      Steps env i Φ s .upstreamClosed d
  | upstreamError (reason : String) (lease : UpstreamLease σ) (hlease : s.lease = some lease) :
      Steps env i Φ s (.upstreamError reason)
        (s.toCore.stop (.upstreamBroken ("upstream error: " ++ reason)))
  | cancel (lease : UpstreamLease σ) (hlease : s.lease = some lease) :
      Steps env i Φ s .cancel (s.toCore.cancelled env.upstream lease)
  | drain : Steps env i Φ s .shutdown { s.toCore with draining := true }
  | shutdown (h : s.hygiene.awaitingResponse = false) (hc : s.hygiene.copy = .none) :
      Steps env i Φ s .shutdown (s.toCore.stop .clientGone)

end Pgferry
