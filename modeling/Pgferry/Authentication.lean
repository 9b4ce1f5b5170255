/-
  As whom a client's connection is authenticated (`make_factory_for` of `session.rs`,
  `connect_parts` of `upstream.rs`).

  The downstream side trusts the startup packet; a connection to the upstream authenticates with
  the client's user and database and the password of the endpoint or the route. `who` is what a
  server was given when the connection was made; nothing that is sent afterwards changes it.
  Connections are shared between sessions, so a session must not get one that was made for
  another user or database.

  Proved: `clients_authenticated`. With any interceptor, clients that do anything, losses, routing
  and scatters, in every interleaving of the running proxy: the connection that a client's session
  holds was made by the factory that this session would make for its endpoint, so with the user and
  the database of the client's own startup packet.
  The pool of a key connects with the factory that `get_or_create` has registered, which is that of
  the session that came first (`factories_makesFor`).
-/
import Pgferry.Accrual
import Pgferry.Clients

namespace Pgferry

open Loop

variable {σ κ τ : Type}

/-! ## Connecting -/

/-- What a `ConnectFactory` closes over. -/
structure ConnectFactory where
  connstring : String
  user : String
  database : Option String
  password : Option String
  tls : UpstreamTlsConfig

/-- `make_factory_for`. -/
def makeFactoryFor (endpoint : EndpointConfig) (route : RouteConfig) (params : SessionParams) :
    ConnectFactory where
  connstring := endpoint.upstream
  user := params.user
  database := params.database
  password := endpoint.password.or route.password
  tls := endpoint.tls.getD route.tls

/-- pgwire's `Config`: what `connect_parts` may set, and the other settings of the connstring. -/
structure Config (τ : Type) where
  rest : τ
  user : Option String
  dbname : Option String
  password : Option String

/-- What `PgWireClient::connect` is given. -/
structure Identity (τ : Type) where
  config : Config τ
  tls : UpstreamTlsConfig

/-- `connect_parts` up to the connect. `parse` reads a connstring. -/
def connectParts (parse : String → Except String (Config τ)) (factory : ConnectFactory) :
    Except String (Identity τ) :=
  match parse factory.connstring with
  | .error e => .error e
  | .ok config =>
      let config := { config with user := some factory.user }
      let config := match factory.database with
        | some db => { config with dbname := some db }
        | none => config
      let config := match factory.password with
        | some password => { config with password := some password }
        | none => config
      .ok { config := config, tls := factory.tls }

theorem connectParts_spec {parse : String → Except String (Config τ)} {factory : ConnectFactory}
    {who : Identity τ} (h : connectParts parse factory = .ok who) :
    who.config.user = some factory.user ∧
      (∀ db, factory.database = some db → who.config.dbname = some db) ∧
      ∀ password, factory.password = some password → who.config.password = some password := by
  unfold connectParts at h
  split at h
  · cases h
  · cases h
    cases hdb : factory.database <;> cases hpw : factory.password <;> simp

/-- The other side of a connect. -/
structure Dialer (σ τ : Type) where
  /-- Reads a connstring. -/
  parse : String → Except String (Config τ)
  /-- `PgWireClient::connect`, for the `n`-th time. -/
  connect : Identity τ → Nat → Except String (σ × Params)
  /-- What a server was given. -/
  who : σ → Identity τ
  connect_who : ∀ id n b ps, connect id n = .ok (b, ps) → who b = id

/-- The connects of the pools, each with its factory. -/
def Dialer.supply (r : Dialer σ τ) (factories : AList (fun _ : PoolKey => ConnectFactory))
    (key : PoolKey) (n : Nat) : Except String (σ × Params) :=
  match factories.lookup key with
  | none => .error "no pool"
  | some factory =>
      match connectParts r.parse factory with
      | .error e => .error e
      | .ok id => r.connect id n

/-- The factories of the pools after calls of `get_or_create`, each for an endpoint of the route and
    a client. -/
def Env.factories (env : Env σ) (calls : List (EndpointConfig × SessionParams)) :
    AList (fun _ : PoolKey => ConnectFactory) :=
  calls.foldl (fun factories call => (getOrCreate factories (env.poolKey call.2 call.1.id)
    (makeFactoryFor call.1 env.route call.2)).1) ∅

/-! ## What a server was given -/

/-- Nothing that is sent changes `who`. -/
structure Upstream.Remembers (u : Upstream σ) (who : σ → Identity τ) : Prop where
  respond : ∀ b m, who (u.respond b m).1 = who b
  interrupt : ∀ b, who (u.interrupt b).1 = who b

/-- The identity is that of the factory of `key`. -/
def Dialer.MadeFor (r : Dialer σ τ) (route : RouteConfig) (key : PoolKey) (id : Identity τ) :
    Prop :=
  ∃ endpoint, route.endpoint key.endpoint = some endpoint ∧
    connectParts r.parse (makeFactoryFor endpoint route ⟨key.user, key.database⟩) = .ok id

/-- The factory is the one that a session makes for the pool of `key`. -/
def Env.MakesFor (env : Env σ) (key : PoolKey) (factory : ConnectFactory) : Prop :=
  ∃ endpoint, env.route.endpoint key.endpoint = some endpoint ∧
    factory = makeFactoryFor endpoint env.route ⟨key.user, key.database⟩

/-- A call registers the factory of its key, or leaves the one that is there. -/
theorem getOrCreate_makesFor {env : Env σ}
    {factories : AList (fun _ : PoolKey => ConnectFactory)}
    (h : ∀ key factory, factories.lookup key = some factory → env.MakesFor key factory)
    {endpoint : EndpointConfig} (he : env.route.endpoint endpoint.id = some endpoint)
    (params : SessionParams) :
    ∀ key factory, (getOrCreate factories (env.poolKey params endpoint.id)
      (makeFactoryFor endpoint env.route params)).1.lookup key = some factory →
      env.MakesFor key factory := by
  intro key factory hlookup
  obtain ⟨hself, hother⟩ := getOrCreate_lookup factories (env.poolKey params endpoint.id)
    (makeFactoryFor endpoint env.route params)
  by_cases hkey : key = env.poolKey params endpoint.id
  · subst hkey
    have hfactory := Option.some.inj (hself.symm.trans hlookup)
    cases hpool : factories.lookup (env.poolKey params endpoint.id) with
    | none =>
        rw [hpool] at hfactory
        exact ⟨endpoint, he, hfactory.symm⟩
    | some first =>
        rw [hpool] at hfactory
        exact hfactory ▸ h _ first hpool
  · exact h key factory ((hother key hkey).symm.trans hlookup)

/-- Whoever came first, the factory of a pool is that of its key. -/
theorem factories_makesFor (env : Env σ) {calls : List (EndpointConfig × SessionParams)}
    (hcalls : ∀ call ∈ calls, env.route.endpoint call.1.id = some call.1) :
    ∀ key factory, (env.factories calls).lookup key = some factory →
      env.MakesFor key factory := by
  have hempty : ∀ key factory,
      (∅ : AList (fun _ : PoolKey => ConnectFactory)).lookup key = some factory →
        env.MakesFor key factory := fun _ _ h => by cases h
  unfold Env.factories
  generalize (∅ : AList (fun _ : PoolKey => ConnectFactory)) = factories at hempty
  induction calls generalizing factories with
  | nil => exact hempty
  | cons call calls ih =>
      rw [List.forall_mem_cons] at hcalls
      exact ih hcalls.2 _ (getOrCreate_makesFor hempty hcalls.1 call.2)

theorem Dialer.supply_madeFor {r : Dialer σ τ} {env : Env σ} {key : PoolKey} {n : Nat}
    {b : σ} {ps : Params} {factories : AList (fun _ : PoolKey => ConnectFactory)}
    (hmakes : ∀ key factory, factories.lookup key = some factory → env.MakesFor key factory)
    (h : r.supply factories key n = .ok (b, ps)) : r.MadeFor env.route key (r.who b) := by
  unfold supply at h
  split at h
  · cases h
  case h_2 factory hfactory =>
    obtain ⟨endpoint, he, rfl⟩ := hmakes key factory hfactory
    split at h
    · cases h
    case h_2 id hid =>
      exact ⟨endpoint, he, hid.trans (congrArg Except.ok (r.connect_who id n b ps h).symm)⟩

/-- No message brings a server another identity. -/
theorem Upstream.Remembers.accrues {u : Upstream σ} {who : σ → Identity τ}
    (h : u.Remembers who) :
    Accrues u (fun b x => x = who b) (fun _ _ => False) where
  respond := fun b m _ hx => .inl (hx.trans (h.respond b m))
  interrupt := fun b _ hx => hx.trans (h.interrupt b)

/-- The identity of a connection is in `A`. -/
abbrev Conn.IsAs (who : σ → Identity τ) (A : Identity τ → Prop) (c : Conn σ) : Prop :=
  c.Limited (fun b x => x = who b) (fun _ _ => False) A

section Kept

variable {u : Upstream σ} {who : σ → Identity τ} {A : Identity τ → Prop}

theorem isAs_cleans (hwho : u.Remembers who) : Cleans u (Conn.IsAs who A) :=
  hwho.accrues.cleans fun _ _ _ h => h.elim

theorem isAs_exchanges (hwho : u.Remembers who) : Exchanges u (Conn.IsAs who A) where
  toHousekeeps := (isAs_cleans hwho).toHousekeeps
  replay := fun _ _ _ h hr => h.replay hwho.accrues (fun _ _ _ hx => hx.elim)
    (fun _ hx => hx.elim) hr

end Kept

/-! ## Sessions -/

/-- The connections of the pool of `key` were made for it. -/
def AuthenticatedPool (r : Dialer σ τ) (route : RouteConfig) (key : PoolKey) (c : Conn σ) : Prop :=
  c.IsAs r.who (r.MadeFor route key)

/-- The lease of a session is of a pool of its own user and database, and was made for it. -/
def Session.Authenticated (r : Dialer σ τ) (env : Env σ) (params : SessionParams) (c : Core σ) :
    Prop :=
  ∀ lease, c.lease = some lease → (∃ endpoint, lease.pool = env.poolKey params endpoint) ∧
    AuthenticatedPool r env.route lease.pool lease.conn

section Steps

variable {env : Env σ} {r : Dialer σ τ} {i : Option (Interceptor κ)} {s : Session σ κ}
  {c d : Core σ}

theorem taken_authenticated (hwho : env.upstream.Remembers r.who) {startup : Params}
    {p : Session.PendingParse} {params : SessionParams}
    (h : Session.Authenticated r env params c)
    (ht : Core.Taken env (AuthenticatedPool r env.route) params startup c p d) :
    Session.Authenticated r env params d := by
  intro lease hl
  cases ht with
  | held l hs hd =>
      cases hd.symm.trans hl
      exact h lease hs
  | leased endpoint dirty₀ base l dirty hnone hdirty hpool hbase hprep hd =>
      cases hd.symm.trans hl
      exact ⟨⟨endpoint, hpool⟩, (isAs_exchanges hwho).prepared hbase hprep⟩

theorem steps_authenticated (hwho : env.upstream.Remembers r.who) {e : Event}
    (h : Session.Authenticated r env s.params s.toCore)
    (hstep : Steps env i (AuthenticatedPool r env.route) s e d) :
    Session.Authenticated r env s.params d := by
  have hnone : d.lease = none → Session.Authenticated r env s.params d := by
    intro hl lease hlease
    rw [hl] at hlease
    cases hlease
  -- a lease whose connection took one more message, or gave one
  have hsame : ∀ {lease : UpstreamLease σ} {conn : Conn σ}, s.lease = some lease →
      d.lease = some { lease with conn := conn } →
      (AuthenticatedPool r env.route lease.pool lease.conn →
        AuthenticatedPool r env.route lease.pool conn) →
      Session.Authenticated r env s.params d := by
    intro lease conn hs hd hconn l hl
    cases hd.symm.trans hl
    obtain ⟨hpool, hmade⟩ := h lease hs
    exact ⟨hpool, hconn hmade⟩
  have hrecv : ∀ m, Session.Authenticated r env s.params (s.toCore.recv m) := fun _ => h
  cases Core.steps_handles hstep with
  | same hl hc =>
      intro lease hlease
      exact h lease (hl.symm.trans hlease)
  | closedName _ _ _ _ _ _ hl => exact hnone hl
  | dropped hl => exact hnone hl
  | detached _ _ _ _ _ hl => exact hnone hl
  | leg sql t lease request leg he hs ht hb hl hc =>
      exact hsame hs hl fun hmade => hmade.collect hwho.accrues fun _ hx => hx.elim
  | entered m m' t c he hent hl hc =>
      have htaken := taken_authenticated hwho (hrecv m) (Core.enters_taken hent)
      rcases hl with hl | hl
      · intro lease hlease
        exact htaken lease (hl.symm.trans hlease)
      · exact hnone hl
  | put m m' m'' t c lease he hent hh hlease hl hc =>
      have htaken := taken_authenticated hwho (hrecv m) (Core.enters_taken hent)
      intro l hd
      cases hl.symm.trans hd
      obtain ⟨hpool, hmade⟩ := htaken lease hlease
      refine ⟨hpool, ?_⟩
      show AuthenticatedPool r env.route lease.pool (if m''.triggersResponse then _ else _)
      split
      · exact hmade.send hwho.accrues c.origin fun _ hx => hx.elim
      · exact hmade.feed c.origin fun _ hx => hx.elim
  | read o m c he hr hl hc =>
      obtain ⟨lease, rest, hs, hin, -, -, hc'⟩ := Core.readNext_spec hr
      refine hsame hs (hl.trans hc') fun hmade => ?_
      cases m <;> exact hmade.congr rfl rfl
  | cancelled he hl hc =>
      intro lease hd
      rw [hl] at hd
      obtain ⟨old, hold, rfl⟩ := Option.map_eq_some_iff.mp hd
      obtain ⟨hpool, hmade⟩ := h old hold
      exact ⟨hpool, hmade.cancel hwho.accrues⟩

/-- What a session detaches was made for its pool. -/
theorem authenticated_releases (hwho : env.upstream.Remembers r.who)
    (h : Session.Authenticated r env s.params s.toCore) :
    Session.Releases env i (AuthenticatedPool r env.route) s := by
  intro o m m' m'' c lease conn hr _ _ _ _ _ hlease hd
  obtain ⟨old, rest, hs, hin, -, -, hc⟩ := Core.readNext_spec hr
  cases hc.symm.trans hlease
  have hmade := (h old hs).2
  refine (isAs_exchanges hwho).discardIfDirty ?_ hd
  cases m <;> exact hmade.congr rfl rfl

theorem authenticated_probe (hwho : env.upstream.Remembers r.who) :
    ProbeKeeps env.upstream (AuthenticatedPool r env.route) :=
  fun _ c c' hc hp => (isAs_exchanges hwho).sync c c' hc hp

theorem authenticated_leg (hwho : env.upstream.Remembers r.who) (startup : Params) (sql : String) :
    LegKeeps env.upstream (AuthenticatedPool r env.route) startup sql := by
  intro key base c c' hbase hsync _ hd
  have hx := isAs_exchanges (A := r.MadeFor env.route key) hwho
  refine hx.discardIfDirty ?_ hd
  exact (hx.syncParameters hbase hsync).collect hwho.accrues fun _ hx => hx.elim

theorem step_authenticated (hwho : env.upstream.Remembers r.who)
    (ht : s.world.Tidy (AuthenticatedPool r env.route))
    (h : Session.Authenticated r env s.params s.toCore) (e : Event) :
    (s.step env e).world.Tidy (AuthenticatedPool r env.route) ∧
      Session.Authenticated r env (s.step env e).params (s.step env e).toCore := by
  by_cases he : s.ended = none
  · obtain ⟨hsteps, hkept⟩ := Session.step_refines (e := e) (authenticated_probe hwho)
      (fun sql _ => authenticated_leg hwho _ sql) ht he fun _ => authenticated_releases hwho h
    exact ⟨hkept.tidy, hkept.params ▸ steps_authenticated hwho h hsteps⟩
  · rw [Session.step_ended he]
    exact ⟨ht, h⟩

theorem start_authenticated (hwho : env.upstream.Remembers r.who) (l : Launch σ κ)
    (ht : l.world.Tidy (AuthenticatedPool r env.route)) :
    (l.new.start env).world.Tidy (AuthenticatedPool r env.route) ∧
      Session.Authenticated r env (l.new.start env).params
        (l.new.start env).toCore := by
  obtain ⟨hkept, hstart⟩ : l.new.Kept (AuthenticatedPool r env.route)
      (l.new.start env) ∧ _ :=
    Session.start_spec (authenticated_probe hwho)
      (fun key c c' hc hs => (isAs_cleans hwho).sanitize hc hs) ht
  refine ⟨hkept.tidy, ?_⟩
  rw [hkept.params]
  generalize (l.new.start env).toCore = d at hstart
  have hnew : l.new.lease = none := rfl
  intro lease hlease
  cases hstart with
  | detached => cases hnew.symm.trans hlease
  | refused => cases hnew.symm.trans hlease
  | attached c₁ _ hatt =>
      change c₁.lease = some lease at hlease
      cases hatt with
      | held l hl => cases hnew.symm.trans hl
      | leased endpoint dirty₀ base l dirty hnone hdirty hpool hbase hprep =>
          cases hlease
          exact ⟨⟨endpoint, hpool⟩, (isAs_exchanges hwho).prepared hbase hprep⟩

end Steps

/-! ## All sessions -/

namespace System

structure Authentic (env : Env σ) (r : Dialer σ τ) (y : System σ κ) : Prop where
  tidy : y.world.Tidy (AuthenticatedPool r env.route)
  sessions : ∀ s ∈ y.sessions, Session.Authenticated r env s.params s.toCore

variable {env : Env σ} {r : Dialer σ τ} {y : System σ κ}

/-- One session acts. -/
theorem Authentic.onSession (h : y.Authentic env r) (n : Nat)
    {f : Session σ κ → Session σ κ}
    (hf : ∀ s : Session σ κ, s.world.Tidy (AuthenticatedPool r env.route) →
      Session.Authenticated r env s.params s.toCore →
      (f s).world.Tidy (AuthenticatedPool r env.route) ∧
        Session.Authenticated r env (f s).params (f s).toCore) :
    (y.onSession n f).Authentic env r := by
  cases hs : y.sessions[n]? with
  | none =>
      rw [onSession_none f hs]
      exact h
  | some s =>
      obtain ⟨htidy, hauth⟩ := hf { s with world := y.world } h.tidy
        (h.sessions s (List.mem_of_getElem? hs))
      rw [onSession_some f hs]
      refine ⟨htidy, fun s' hmem => ?_⟩
      rcases List.mem_or_eq_of_mem_set hmem with hold | rfl
      · exact h.sessions s' hold
      · exact hauth

theorem authentic_act (hwho : env.upstream.Remembers r.who) (h : y.Authentic env r)
    (a : Act σ κ) : (y.act env a).Authentic env r := by
  cases a with
  | connect l =>
      obtain ⟨htidy, hauth⟩ := start_authenticated hwho (y.accept l) h.tidy
      refine ⟨htidy, fun s hmem => ?_⟩
      rcases List.mem_append.mp hmem with hold | hnew
      · exact h.sessions s hold
      · cases List.mem_singleton.mp hnew
        exact hauth
  | event n e => exact h.onSession n fun s ht hs => step_authenticated hwho ht hs e
  | finish n arrived =>
      show (y.onSession n fun s => s.finish env arrived).Authentic env r
      refine h.onSession n fun s ht hs => ⟨?_, ?_⟩
      · exact Session.finish_tidy ht fun lease conn _ hlease hsan =>
          (isAs_cleans hwho).sanitize (hs lease hlease).2 hsan
      · rcases s.finish_core env arrived with hcore | hcore
        · rw [hcore]
          unfold Session.finish
          split <;> exact hs
        · rw [hcore]
          intro lease hlease
          cases hlease
  | tick elapsed => exact ⟨⟨h.tidy.idle, h.tidy.fresh⟩, h.sessions⟩
  | sweep key =>
      have hsweep : (y.world.modify key fun p => p.sweep y.world.now).Tidy
          (AuthenticatedPool r env.route) :=
        h.tidy.modify key fun p hp => h.tidy.idle key p (List.mem_of_mem_filter hp)
      exact ⟨hsweep, h.sessions⟩

end System

/-- The connections of a client that is being served are authenticated as this client. -/
theorem clients_authenticated (p : ProxyShared σ κ) (r : Dialer σ τ) (world : World σ)
    (as : List (ServerAct σ)) (hwho : p.env.upstream.Remembers r.who)
    (hempty : ∀ key, (world.pools key).idle = [])
    (calls : List (EndpointConfig × SessionParams))
    (hcalls : ∀ call ∈ calls, p.env.route.endpoint call.1.id = some call.1)
    (hsupply : world.supply = r.supply (p.env.factories calls)) :
    let y := run (Server.act p) (Server.init p world) as
    ∀ (t : Nat) (task : ClientTask) n, y.tasks[t]? = some task → task.stage.session = some n →
      ∃ s c, y.system.sessions[n]? = some s ∧ task.client = some c ∧
        ∀ lease, s.lease = some lease → ∃ endpoint ∈ p.env.route.endpoints,
          endpoint.id = lease.pool.endpoint ∧
          connectParts r.parse (makeFactoryFor endpoint p.env.route c.packet.params) =
            .ok (r.who lease.conn.backend) ∧
          (r.who lease.conn.backend).config.user = some c.packet.params.user ∧
          ∀ db, c.packet.params.database = some db →
            (r.who lease.conn.backend).config.dbname = some db := by
  intro y t task n htask hn
  have hinit : (System.init world : System σ κ).Authentic p.env r := by
    refine ⟨⟨fun key conn hconn => ?_, fun key n b ps hs pid => ⟨?_, List.forall_mem_nil _⟩⟩,
      List.forall_mem_nil _⟩
    · change conn ∈ (world.pools key).idle at hconn
      rw [hempty key] at hconn
      cases hconn
    · rintro x rfl
      change world.supply key n = _ at hs
      rw [hsupply] at hs
      exact Dialer.supply_madeFor (factories_makesFor p.env hcalls) hs
  have hstep : ∀ (y : System σ κ) (a : Act σ κ), y.Authentic p.env r → True →
      (y.act p.env a).Authentic p.env r := fun y a h _ => System.authentic_act hwho h a
  have h : y.system.Authentic p.env r := by
    rw [Server.system_run p (Server.init p world) as]
    exact run_inv hstep _ _ hinit (along_true _ _)
  obtain ⟨s, c, hs, hc, hparams, -⟩ := (Server.owned_run p world as).served t task htask n hn
  refine ⟨s, c, hs, hc, fun lease hlease => ?_⟩
  obtain ⟨⟨id, hpool⟩, hmade⟩ := h.sessions s (List.mem_of_getElem? hs) lease hlease
  obtain ⟨endpoint, hendpoint, hconnect⟩ := hmade.backend _ rfl
  rw [hpool, hparams] at hendpoint hconnect
  have hspec := connectParts_spec hconnect
  refine ⟨endpoint, List.mem_of_find?_eq_some hendpoint, ?_, hconnect, hspec.1, hspec.2.1⟩
  rw [hpool]
  exact beq_iff_eq.mp (List.find?_some (p := fun e : EndpointConfig => e.id == id) hendpoint)

namespace Sample

/-- The server of the small deployment, which remembers what it was given. -/
def knownServer : Upstream (Pg × Identity Unit) where
  respond b m := ((((env .transaction).upstream.respond b.1 m).1, b.2),
    ((env .transaction).upstream.respond b.1 m).2)
  interrupt b := ((((env .transaction).upstream.interrupt b.1).1, b.2),
    ((env .transaction).upstream.interrupt b.1).2)
  owed b := (env .transaction).upstream.owed b.1
  copying b := (env .transaction).upstream.copying b.1

def known : ProxyShared (Pg × Identity Unit) Unit where
  env := { env .transaction with upstream := knownServer }
  interceptor := none
  ctx := ()
  adminDatabase := none
  maxClientConn := 2

/-- A connstring sets nothing of its own, and every connect succeeds. -/
def dialer : Dialer (Pg × Identity Unit) Unit where
  parse _ := .ok ⟨(), none, none, none⟩
  connect id _ := .ok ((Pg.fresh .sample, id), Dialect.sample.defaults)
  who := Prod.snd
  connect_who := fun _ _ _ _ h => by cases h; rfl

/-- The pools that two users get. -/
def knownPools : List (EndpointConfig × SessionParams) :=
  known.env.route.endpoints.flatMap fun endpoint =>
    [(endpoint, ⟨"u", none⟩), (endpoint, ⟨"v", some "d"⟩)]

def knownWorld : World (Pg × Identity Unit) where
  pools _ := Pool.new known.env.poolConfig
  now := 0
  dials := 0
  supply := dialer.supply (known.env.factories knownPools)

/-- Two users, and a query of the second one. -/
def twoUsers : List (ServerAct (Pg × Identity Unit)) :=
  [.acquire, .accept, .acquire, .accept,
    .first 0 (.startup ⟨3, 0, [⟨"user", "u"⟩].toAList⟩) "10.0.0.1:9" ⟨1, [7]⟩,
    .first 1 (.startup ⟨3, 0, [⟨"user", "v"⟩, ⟨"database", "d"⟩].toAList⟩) "10.0.0.1:8" ⟨2, [8]⟩,
    .start 0 100, .start 1 100, .event 1 (client (.query "SELECT 1"))]

end Sample

theorem clients_authenticated_two :
    let y := run (Server.act Sample.known) (Server.init Sample.known Sample.knownWorld)
      Sample.twoUsers
    ∃ s lease, y.system.sessions[1]? = some s ∧ s.lease = some lease ∧
      lease.conn.backend.2.config.user = some "v" := by
  intro y
  have hstate : ∃ task c s lease, y.tasks[1]? = some task ∧ task.stage.session = some 1 ∧
      task.client = some c ∧ c.packet.params.user = "v" ∧ y.system.sessions[1]? = some s ∧
      s.lease = some lease := ⟨_, _, _, _, rfl, rfl, rfl, rfl, rfl, rfl⟩
  obtain ⟨task, c, s, lease, htask, hn, hc, huser, hs, hlease⟩ := hstate
  obtain ⟨s', c', hs', hc', hleases⟩ := clients_authenticated Sample.known Sample.dialer
    Sample.knownWorld Sample.twoUsers ⟨fun _ _ => rfl, fun _ => rfl⟩ (fun _ => rfl)
    Sample.knownPools (by decide) rfl 1 task 1 htask hn
  cases hs.symm.trans hs'
  cases hc.symm.trans hc'
  obtain ⟨_, -, -, -, hwho, -⟩ := hleases lease hlease
  exact ⟨s, lease, hs, hlease, huser ▸ hwho⟩

end Pgferry
