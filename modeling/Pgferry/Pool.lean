/-
  The connection pools (`pool.rs`).

  A `World` holds every pool of the proxy, a clock and the outcomes of the connects still to
  come (`supply`). `checkout`, `checkin`, `checkinDetached` and `destroy` are each run without
  other pool operations in between; waiting for a permit only delays a checkout, so a checkout
  is taken when a permit is there. `sanitize` takes the number of messages that arrive before
  `CANCEL_DRAIN_TIMEOUT` fires. A server that does not answer makes an exchange fail, which is
  what `SANITIZE_TIMEOUT` and `PROBE_TIMEOUT` turn it into.

  Proved: for a property `Φ` of connections that holds of fresh ones and that a probe keeps, a
  world in which every parked connection has it (`World.Tidy`) leases only such connections
  (`Tidy.checkout`) and stays tidy when what comes back has it (`Tidy.checkinDetached`,
  `Tidy.checkin`).
-/
import Pgferry.Conn

namespace Pgferry

structure PoolKey where
  route : String
  endpoint : String
  user : String
  database : Option String
  deriving DecidableEq, Repr

inductive PoolMode where
  | session
  | transaction
  deriving DecidableEq, Repr

/-- Durations are in milliseconds. -/
structure PoolConfig where
  mode : PoolMode := .session
  maxSize : Nat := 16
  idleTimeout : Nat := 600000
  maxLifetime : Nat := 3600000
  staleAfter : Nat := 30000
  deriving Repr

inductive CopyCleanup where
  | none
  | clientOwesCopy
  | serverStreamsCopy
  deriving DecidableEq, Repr

structure Hygiene where
  awaitingResponse : Bool := false
  copy : CopyCleanup := .none
  deriving DecidableEq, Repr

structure PoolMetrics where
  checkouts : Nat := 0
  reused : Nat := 0
  created : Nat := 0
  checkedIn : Nat := 0
  dropped : Nat := 0
  probed : Nat := 0
  evicted : Nat := 0
  active : Int := 0
  waiting : Int := 0

structure Parked (σ : Type) where
  conn : Conn σ
  idleSince : Nat
  createdAt : Nat

/-- `PoolInner`. The most recently parked connection is the head of `idle`. -/
structure Pool (σ : Type) where
  config : PoolConfig
  permits : Nat
  idle : List (Parked σ)
  baselineParams : Option Params
  metrics : PoolMetrics

structure UpstreamLease (σ : Type) where
  conn : Conn σ
  createdAt : Nat
  pool : PoolKey

/-- All pools of the proxy, the clock, and the outcome of the `n`-th connect. -/
structure World (σ : Type) where
  pools : PoolKey → Pool σ
  now : Nat
  dials : Nat
  supply : PoolKey → Nat → Except String (σ × Params)

variable {σ : Type}

def Pool.new (config : PoolConfig) : Pool σ where
  config := config
  permits := max config.maxSize 1
  idle := []
  baselineParams := none
  metrics := {}

/-- Change the pool of `key`. -/
def World.modify (w : World σ) (key : PoolKey) (f : Pool σ → Pool σ) : World σ :=
  { w with pools := fun k => if k = key then f (w.pools k) else w.pools k }

/-! ## Connection hygiene helpers -/

/-- `close_cycle`. -/
def closeCycle (u : Upstream σ) (c : Conn σ) : Except String (Conn σ) :=
  (c.send u .proxy .sync).drainUntilReady

/-- `probe`: a bare `Sync` must be answered with `ReadyForQuery`. -/
def probe (u : Upstream σ) (c : Conn σ) : Except String (Conn σ) :=
  (c.send u .proxy .sync).drainUntilReady

/-- The connection when `settle` starts to drain it. -/
def settling (u : Upstream σ) (c : Conn σ) (sendCopyFail awaiting : Bool) : Conn σ :=
  let c := if sendCopyFail then
      c.send u .proxy (.copyFail "pgferry: client disconnected during COPY") else c
  if awaiting then c.cancel u else c

/-- `settle`. -/
def settle (u : Upstream σ) (c : Conn σ) (sendCopyFail awaiting : Bool) (arrived : Nat) :
    Except String (Conn σ) :=
  match (settling u c sendCopyFail awaiting).drainWithin arrived with
  | (c, true) => .ok c
  | (c, false) => closeCycle u c

/-- The first step of `sanitize`: stop what is running and close the open cycle. -/
def stopRunning (u : Upstream σ) (c : Conn σ) (hygiene : Hygiene) (arrived : Nat) :
    Except String (Conn σ) :=
  if hygiene.copy = .clientOwesCopy then settle u c true hygiene.awaitingResponse arrived
  else if hygiene.awaitingResponse then settle u c false true arrived
  else closeCycle u c

/-- The second step of `sanitize`: end a transaction that was left open. -/
def rollback (u : Upstream σ) (c : Conn σ) : Except String (Conn σ) :=
  if c.transactionStatus ≠ .idle then c.simpleQuery u "ROLLBACK" else .ok c

/-- `sanitize`. -/
def sanitize (u : Upstream σ) (c : Conn σ) (hygiene : Hygiene) (arrived : Nat) :
    Except String (Conn σ) := do
  let c ← stopRunning u c hygiene arrived
  let c ← rollback u c
  c.simpleQuery u "DISCARD ALL"

/-- `value.replace('\'', "''")`. -/
def escapeQuotes (value : String) : String :=
  String.ofList (value.toList.flatMap fun ch => if ch = '\'' then ['\'', '\''] else [ch])

/-- The text of `SET {name} = '{escaped}'`. -/
def setSql (name value : String) : String :=
  "SET " ++ name ++ " = '" ++ escapeQuotes value ++ "'"

/-- `set_parameter`. -/
def setParameter (u : Upstream σ) (c : Conn σ) (name value : String) : Except String (Conn σ) :=
  match c.simpleQuery u (setSql name value) with
  | .error e => .error e
  | .ok c => .ok (c.setServerParameter name value)

/-- `TRACKED_STARTUP_PARAMETERS`. -/
def trackedStartupParameters : List String := ["application_name", "client_encoding"]

/-- The loop of `sync_startup_parameters` over the tracked names. -/
def syncParameters (u : Upstream σ) (startup : Params) :
    List String → Conn σ → Except String (Conn σ)
  | [], c => .ok c
  | name :: names, c =>
      match startup.lookup name with
      | none => syncParameters u startup names c
      | some desired =>
          if c.parameter name = desired then syncParameters u startup names c
          else
            match setParameter u c name desired with
            | .error e => .error e
            | .ok c => syncParameters u startup names c

/-- `sync_startup_parameters`. -/
def syncStartupParameters (u : Upstream σ) (startup : Params) (c : Conn σ) :
    Except String (Conn σ) :=
  syncParameters u startup trackedStartupParameters c

/-! ## Checkout -/

/-- The loop of `checkout` over the idle stack: the connection to lease with its creation time,
    what is left on the stack, and the counters. -/
def takeIdle (u : Upstream σ) (config : PoolConfig) (now : Nat) :
    List (Parked σ) → PoolMetrics → Option (Conn σ × Nat) × List (Parked σ) × PoolMetrics
  | [], metrics => (none, [], metrics)
  | parked :: rest, metrics =>
      if config.maxLifetime < now - parked.createdAt then
        takeIdle u config now rest { metrics with evicted := metrics.evicted + 1 }
      else if config.staleAfter < now - parked.idleSince then
        match probe u parked.conn with
        | .error _ =>
            takeIdle u config now rest
              { metrics with probed := metrics.probed + 1, dropped := metrics.dropped + 1 }
        | .ok conn =>
            (some (conn, parked.createdAt), rest, { metrics with probed := metrics.probed + 1 })
      else (some (parked.conn, parked.createdAt), rest, metrics)

/-- The counters of `finish_checkout`. -/
def finishCheckout (metrics : PoolMetrics) : PoolMetrics :=
  { metrics with
    checkouts := metrics.checkouts + 1
    reused := metrics.reused + 1
    active := metrics.active + 1 }

/-- `Pool::checkout`. -/
def World.checkout (u : Upstream σ) (w : World σ) (key : PoolKey) :
    World σ × Except String (UpstreamLease σ) :=
  let pool := w.pools key
  match takeIdle u pool.config w.now pool.idle pool.metrics with
  | (some (conn, createdAt), idle, metrics) =>
      (w.modify key fun p =>
        { p with idle := idle, permits := p.permits - 1, metrics := finishCheckout metrics },
        .ok { conn := conn, createdAt := createdAt, pool := key })
  | (none, idle, metrics) =>
      match w.supply key w.dials with
      | .error e =>
          ({ w with dials := w.dials + 1 }.modify key fun p =>
            { p with idle := idle, metrics := { metrics with dropped := metrics.dropped + 1 } },
            .error e)
      | .ok (backend, parameters) =>
          ({ w with dials := w.dials + 1 }.modify key fun p =>
            { p with
              idle := idle
              permits := p.permits - 1
              metrics := finishCheckout { metrics with created := metrics.created + 1 } },
            .ok {
              conn := Conn.new w.dials backend parameters
              createdAt := w.now
              pool := key })

/-! ## Returning a lease -/

/-- Give the permit back and count the lease out. -/
def Pool.release (p : Pool σ) : Pool σ :=
  { p with permits := p.permits + 1, metrics := { p.metrics with active := p.metrics.active - 1 } }

/-- Park a clean connection, unless it is past `max_lifetime`. -/
def Pool.park (p : Pool σ) (now : Nat) (conn : Conn σ) (createdAt : Nat) : Pool σ :=
  if p.config.maxLifetime < now - createdAt then
    { p with metrics := { p.metrics with evicted := p.metrics.evicted + 1 } }
  else
    { p with
      idle := { conn := conn, idleSince := now, createdAt := createdAt } :: p.idle
      metrics := { p.metrics with checkedIn := p.metrics.checkedIn + 1 } }

/-- Close a connection that could not be cleaned. -/
def Pool.drop (p : Pool σ) : Pool σ :=
  { p with metrics := { p.metrics with dropped := p.metrics.dropped + 1 } }

/-- The `DISCARD ALL` of `checkin_detached`, run only for a dirty lease. -/
def discardIfDirty (u : Upstream σ) (c : Conn σ) (dirty : Bool) : Except String (Conn σ) :=
  if dirty then c.simpleQuery u "DISCARD ALL" else .ok c

/-- `UpstreamLease::checkin_detached`. -/
def World.checkinDetached (u : Upstream σ) (w : World σ) (lease : UpstreamLease σ)
    (dirty : Bool) : World σ :=
  w.modify lease.pool fun p =>
    match discardIfDirty u lease.conn dirty with
    | .error _ => p.release.drop
    | .ok conn =>
        { p.release with baselineParams := some conn.serverParameters }.park w.now conn
          lease.createdAt

/-- `UpstreamLease::checkin`. -/
def World.checkin (u : Upstream σ) (w : World σ) (lease : UpstreamLease σ) (hygiene : Hygiene)
    (arrived : Nat) : World σ :=
  w.modify lease.pool fun p =>
    match sanitize u lease.conn hygiene arrived with
    | .error _ => p.release.drop
    | .ok conn => p.release.park w.now conn lease.createdAt

/-- `UpstreamLease::destroy`. -/
def World.destroy (w : World σ) (lease : UpstreamLease σ) : World σ :=
  w.modify lease.pool fun p => p.release.drop

/-- `Pool::baseline_params`. -/
def World.baselineParams (u : Upstream σ) (w : World σ) (key : PoolKey) :
    World σ × Except String Params :=
  match (w.pools key).baselineParams with
  | some params => (w, .ok params)
  | none =>
      match w.checkout u key with
      | (w, .error e) => (w, .error e)
      | (w, .ok lease) => (w.checkin u lease {} 0, .ok lease.conn.serverParameters)

/-- `Pool::sweep`. -/
def Pool.sweep (p : Pool σ) (now : Nat) : Pool σ :=
  let keep := p.idle.filter fun parked =>
    !(decide (p.config.idleTimeout < now - parked.idleSince) ||
      decide (p.config.maxLifetime < now - parked.createdAt))
  { p with
    idle := keep
    metrics := { p.metrics with evicted := p.metrics.evicted + (p.idle.length - keep.length) } }

/-! ## Tidy worlds -/

/-- A liveness probe keeps `Φ`. -/
def ProbeKeeps (u : Upstream σ) (Φ : PoolKey → Conn σ → Prop) : Prop :=
  ∀ key c c', Φ key c → probe u c = .ok c' → Φ key c'

/-- Returning a connection that was only asked for its parameters keeps `Φ`. -/
def BaselineKeeps (u : Upstream σ) (Φ : PoolKey → Conn σ → Prop) : Prop :=
  ∀ key c c', Φ key c → sanitize u c {} 0 = .ok c' → Φ key c'

/-- `Φ` holds of every parked connection and of every connection still to be made. -/
structure World.Tidy (Φ : PoolKey → Conn σ → Prop) (w : World σ) : Prop where
  idle : ∀ key, ∀ p ∈ (w.pools key).idle, Φ key p.conn
  fresh : ∀ key n b ps, w.supply key n = .ok (b, ps) → ∀ pid, Φ key (Conn.new pid b ps)

theorem World.Tidy.mono {Φ Ψ : PoolKey → Conn σ → Prop} (h : ∀ key c, Φ key c → Ψ key c)
    {w : World σ} (ht : w.Tidy Φ) : w.Tidy Ψ where
  idle := fun key p hp => h key p.conn (ht.idle key p hp)
  fresh := fun key n b ps hs pid => h key _ (ht.fresh key n b ps hs pid)

theorem takeIdle_spec (u : Upstream σ) (config : PoolConfig) (now : Nat)
    (idle : List (Parked σ)) (metrics : PoolMetrics) :
    (takeIdle u config now idle metrics).2.1 ⊆ idle ∧
      ∀ conn t, (takeIdle u config now idle metrics).1 = some (conn, t) →
        ∃ p ∈ idle, conn = p.conn ∨ probe u p.conn = .ok conn := by
  fun_induction takeIdle u config now idle metrics with
  | case1 metrics => exact ⟨List.Subset.refl _, by simp⟩
  | case2 parked rest metrics _ ih =>
      refine ⟨fun x hx => List.mem_cons_of_mem _ (ih.1 hx), fun conn t h => ?_⟩
      obtain ⟨p, hp, hc⟩ := ih.2 conn t h
      exact ⟨p, List.mem_cons_of_mem _ hp, hc⟩
  | case3 parked rest metrics _ _ e _ ih =>
      refine ⟨fun x hx => List.mem_cons_of_mem _ (ih.1 hx), fun conn t h => ?_⟩
      obtain ⟨p, hp, hc⟩ := ih.2 conn t h
      exact ⟨p, List.mem_cons_of_mem _ hp, hc⟩
  | case4 parked rest metrics _ _ c hc =>
      refine ⟨List.subset_cons_self _ _, fun conn t h => ⟨parked, List.mem_cons_self, ?_⟩⟩
      cases h
      exact .inr hc
  | case5 parked rest metrics _ _ =>
      refine ⟨List.subset_cons_self _ _, fun conn t h => ⟨parked, List.mem_cons_self, ?_⟩⟩
      cases h
      exact .inl rfl

theorem World.checkout_supply (u : Upstream σ) (w : World σ) (key : PoolKey) :
    (w.checkout u key).1.supply = w.supply := by
  unfold checkout
  dsimp only
  split
  · rfl
  · split <;> rfl

namespace World.Tidy

variable {u : Upstream σ} {Φ : PoolKey → Conn σ → Prop} {w : World σ}

/-- Tidiness only looks at the idle stacks and the supply. -/
theorem modify (h : w.Tidy Φ) (key : PoolKey) {f : Pool σ → Pool σ}
    (hf : ∀ p ∈ (f (w.pools key)).idle, Φ key p.conn) : (w.modify key f).Tidy Φ where
  idle := by
    intro k p hp
    by_cases hk : k = key
    · subst hk
      simp only [World.modify, if_true] at hp
      exact hf p hp
    · simp only [World.modify, hk, if_false] at hp
      exact h.idle k p hp
  fresh := h.fresh

theorem dial (h : w.Tidy Φ) : { w with dials := w.dials + 1 }.Tidy Φ := ⟨h.idle, h.fresh⟩

theorem checkout (h : w.Tidy Φ) (hu : ProbeKeeps u Φ) (key : PoolKey) :
    (w.checkout u key).1.Tidy Φ ∧
      ∀ lease, (w.checkout u key).2 = .ok lease → lease.pool = key ∧ Φ key lease.conn := by
  obtain ⟨hsub, htake⟩ := takeIdle_spec u (w.pools key).config w.now (w.pools key).idle
    (w.pools key).metrics
  have hrest : ∀ p ∈ (takeIdle u (w.pools key).config w.now (w.pools key).idle
      (w.pools key).metrics).2.1, Φ key p.conn := fun p hp => h.idle key p (hsub hp)
  unfold World.checkout
  dsimp only
  split
  case h_1 conn createdAt idle metrics heq =>
    dsimp only
    rw [heq] at htake hrest
    obtain ⟨p, hp, hc⟩ := htake conn createdAt rfl
    refine ⟨h.modify key hrest, fun lease hl => ?_⟩
    cases hl
    refine ⟨rfl, ?_⟩
    rcases hc with hc | hc
    · exact hc ▸ h.idle key p hp
    · exact hu key _ _ (h.idle key p hp) hc
  case h_2 idle metrics heq =>
    rw [heq] at hrest
    split <;> dsimp only
    · exact ⟨h.dial.modify key hrest, fun lease hl => by cases hl⟩
    case h_2 backend parameters hs =>
      refine ⟨h.dial.modify key hrest, fun lease hl => ?_⟩
      cases hl
      exact ⟨rfl, h.fresh key _ _ _ hs _⟩

theorem destroy (h : w.Tidy Φ) (lease : UpstreamLease σ) : (w.destroy lease).Tidy Φ :=
  h.modify _ fun p hp => h.idle _ p hp

/-- What `park` puts on the stack besides what is there already. -/
theorem mem_idle_park {p : Pool σ} {now : Nat} {conn : Conn σ} {createdAt : Nat} {x : Parked σ}
    (hx : x ∈ (p.park now conn createdAt).idle) : x.conn = conn ∨ x ∈ p.idle := by
  unfold Pool.park at hx
  split at hx
  · exact .inr hx
  · rcases List.mem_cons.mp hx with rfl | hx
    · exact .inl rfl
    · exact .inr hx

theorem checkinDetached (h : w.Tidy Φ) {lease : UpstreamLease σ} {dirty : Bool}
    (hc : ∀ c, discardIfDirty u lease.conn dirty = .ok c → Φ lease.pool c) :
    (w.checkinDetached u lease dirty).Tidy Φ := by
  refine h.modify _ fun x hx => ?_
  dsimp only at hx
  split at hx
  · exact h.idle _ x hx
  case h_2 conn hd =>
    rcases mem_idle_park hx with hx | hx
    · exact hx ▸ hc conn hd
    · exact h.idle _ x hx

theorem checkin (h : w.Tidy Φ) {lease : UpstreamLease σ} {hygiene : Hygiene} {arrived : Nat}
    (hc : ∀ c, sanitize u lease.conn hygiene arrived = .ok c → Φ lease.pool c) :
    (w.checkin u lease hygiene arrived).Tidy Φ := by
  refine h.modify _ fun x hx => ?_
  split at hx
  · exact h.idle _ x hx
  case h_2 conn hd =>
    rcases mem_idle_park hx with hx | hx
    · exact hx ▸ hc conn hd
    · exact h.idle _ x hx

end World.Tidy

end Pgferry
