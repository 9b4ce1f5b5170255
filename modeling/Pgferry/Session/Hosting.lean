/-
  Attaches that succeed.

  An attach sets the session's parameters on a pooled connection and replays its statements. The
  texts come from the client, so a server may refuse them; `Settable` and `Preparable` say that it
  does not, on a connection at rest that has none of the statements yet.

  Proved: `ensureAttached_ok`. When every connect succeeds and the server takes the session's
  parameters and statements, the first attempt attaches and the error policy is not asked;
  `baselineParamsRouted_ok` for the start of a session in transaction mode.
-/
import Pgferry.Routing
import Pgferry.Statements

namespace Pgferry

open Loop Loop.Flow

variable {σ κ : Type}

/-! ## What the server takes -/

section Server

variable (u : Upstream σ) (status : σ → TransactionStatus) (named : σ → String → Prop)

/-- Outside a transaction the server carries out `SET name = 'value'`, and `simple_query` takes
    the answer. -/
def Upstream.Settable (name value : String) : Prop :=
  ∀ b, u.owed b = 0 → u.copying b = false → status b = .idle →
    (∀ x ∈ (u.respond b (.query (setSql name value))).2, u.fails x = false) ∧
      u.owed (u.respond b (.query (setSql name value))).1 = 0

/-- Outside a transaction the server takes a `Parse` of the text under a name that is free. -/
def Upstream.Preparable (query : String) (typeOids : List Nat) : Prop :=
  ∀ b name, u.owed b = 0 → u.copying b = false → status b = .idle → ¬ named b name →
    (∀ x ∈ (u.respond b (.parse (some name) query typeOids)).2, x.isError = false) ∧
      u.copying (u.respond b (.parse (some name) query typeOids)).1 = false

/-- A `Sync` outside a copy is answered at once and raises no error. -/
def Upstream.Syncs : Prop :=
  ∀ b, u.owed b = 0 → u.copying b = false →
    (∀ x ∈ (u.respond b .sync).2, x.isError = false) ∧ u.owed (u.respond b .sync).1 = 0

/-- A pooled connection is outside a transaction and has no named statement. -/
def CleanPool (key : PoolKey) (c : Conn σ) : Prop :=
  IdlePool u status key c ∧ BarePool u named NamesStatement key c

end Server

section Replies

variable {u : Upstream σ} {status : σ → TransactionStatus} {named : σ → String → Prop}
  {c : Conn σ} {key : PoolKey}

/-- An inbox with a `ReadyForQuery` and no message that fails the exchange can be read. -/
theorem Conn.readReply_ok {fails : BackendMessage → Bool} {xs : List (Origin × BackendMessage)}
    (hclean : ∀ x ∈ xs, fails x.2 = false) (hready : queuedReadies xs ≠ 0) (c : Conn σ) :
    ∃ c', readReply fails xs c = .ok c' := by
  induction xs generalizing c with
  | nil => exact absurd rfl hready
  | cons x xs ih =>
      obtain ⟨o, m⟩ := x
      have hrest := ih fun y hy => hclean y (List.mem_cons_of_mem _ hy)
      rw [queuedReadies_cons] at hready
      by_cases hm : m.ready = 0
      · rw [readReply_cons hm, hclean _ List.mem_cons_self]
        exact hrest (by simpa [hm] using hready) _
      · cases m with
        | readyForQuery st => exact ⟨_, rfl⟩
        | _ => exact absurd rfl hm

theorem Conn.set_ok (hu : u.InOrder) (h : c.AtRest u status) {name value : String}
    (hset : u.Settable status name value) :
    ∃ c', c.simpleQuery u (setSql name value) = .ok c' := by
  obtain ⟨hclean, howed⟩ := hset c.backend h.quiet.owed h.quiet.copying h.server
  have hbal := hu.respond_owed c.backend (.query (setSql name value))
  have hin : (c.send u .proxy (.query (setSql name value))).inbox =
      (u.respond c.backend (.query (setSql name value))).2.map fun x => (Origin.proxy, x) := by
    rw [send_inbox, h.quiet.outbox, h.quiet.inbox]
    rfl
  refine readReply_ok (fun x hx => ?_) ?_ _
  · rw [hin] at hx
    obtain ⟨y, hy, rfl⟩ := List.mem_map.mp hx
    exact hclean y hy
  · rw [hin, queuedReadies_tag]
    have hquiet := h.quiet.owed
    simp only [FrontendMessage.cycles] at hbal
    omega

end Replies

/-! ## Preparing a connection -/

section Prepare

variable {u : Upstream σ} {status : σ → TransactionStatus} {named : σ → String → Prop}
  {c : Conn σ} {key : PoolKey} (hu : u.InOrder) (hr : u.Reports status) (hn : u.Names named)

include hr hn

/-- The server after a batch of `Parse` messages whose names are free and different. -/
theorem answer_parses (hu : u.InOrder) (es : List (Σ _ : String, String × List Nat))
    (hnodup : (es.map Sigma.fst).Nodup)
    (hprep : ∀ e ∈ es, u.Preparable status named e.2.1 e.2.2) (b : σ) (howed : u.owed b = 0)
    (hcopy : u.copying b = false) (hidle : status b = .idle) (hfree : ∀ e ∈ es, ¬ named b e.1) :
    (∀ x ∈ (u.answer b (es.map fun e =>
        (Origin.proxy, .parse (some e.1) e.2.1 e.2.2))).2, x.2.isError = false) ∧
      u.owed (u.answer b (es.map fun e =>
        (Origin.proxy, .parse (some e.1) e.2.1 e.2.2))).1 = 0 ∧
      u.copying (u.answer b (es.map fun e =>
        (Origin.proxy, .parse (some e.1) e.2.1 e.2.2))).1 = false := by
  induction es generalizing b with
  | nil => exact ⟨nofun, howed, hcopy⟩
  | cons e es ih =>
      obtain ⟨hnot, hnodup⟩ := List.nodup_cons.mp hnodup
      obtain ⟨hclean, hcopy₁⟩ := hprep e List.mem_cons_self b e.1 howed hcopy hidle
        (hfree e List.mem_cons_self)
      have howed₁ := hu.respond_owed b (.parse (some e.1) e.2.1 e.2.2)
      simp only [FrontendMessage.cycles] at howed₁
      obtain ⟨h1, h2⟩ := ih hnodup (fun f hf => hprep f (List.mem_cons_of_mem _ hf))
        (u.respond b (.parse (some e.1) e.2.1 e.2.2)).1 (by omega) hcopy₁
        (hr.housekeeping b _ (.inr (.inl ⟨_, _, _, rfl⟩)) hidle) (by
          intro f hf hname
          rcases hn.accrues.respond b _ f.1 hname with hname | ⟨q, t, hname⟩
          · exact hfree f (List.mem_cons_of_mem _ hf) hname
          · simp only [pendingParse] at hname
            split at hname
            · cases hname
            · have hsame : e.1 = f.1 := congrArg Prod.fst (Option.some.inj hname)
              exact hnot (hsame ▸ List.mem_map_of_mem hf))
      refine ⟨fun x hx => ?_, h2⟩
      rcases List.mem_append.mp hx with hx | hx
      · obtain ⟨y, hy, rfl⟩ := List.mem_map.mp hx
        exact hclean y hy
      · exact h1 x hx

include hu

theorem replay_ok (hsync : u.Syncs) (h : CleanPool u status named key c)
    {registry : StatementRegistry}
    (hreg : ∀ e ∈ registry.entries, u.Preparable status named e.2.1 e.2.2) :
    ∃ c', registry.replay u c = .ok c' := by
  unfold StatementRegistry.replay
  split
  · exact ⟨c, rfl⟩
  obtain ⟨hb, hout⟩ := Conn.feedParses_spec registry.entries c
  rw [h.1.quiet.outbox, List.nil_append] at hout
  obtain ⟨hclean, howed, hcopy⟩ := answer_parses hr hn hu registry.entries registry.nodupKeys hreg
    c.backend h.1.quiet.owed h.1.quiet.copying h.1.server fun e _ hname => h.2.2.backend e.1 hname
  have hin : (registry.entries.foldl
      (fun c e => c.feed .proxy (.parse (some e.1) e.2.1 e.2.2)) c).inbox = [] := by
    have hfed : ∀ (es : List (Σ _ : String, String × List Nat)) (c : Conn σ),
        (es.foldl (fun c e => c.feed .proxy (.parse (some e.1) e.2.1 e.2.2)) c).inbox =
          c.inbox := by
      intro es
      induction es with
      | nil => exact fun _ => rfl
      | cons e es ih => exact fun c => ih _
    rw [hfed, h.1.quiet.inbox]
  refine Conn.readReply_ok (fun x hx => ?_) ?_ _
  · rw [Conn.send_inbox, hin, hb, hout, List.nil_append] at hx
    rcases List.mem_append.mp hx with hx | hx
    · exact hclean x hx
    · obtain ⟨y, hy, rfl⟩ := List.mem_map.mp hx
      exact (hsync _ howed hcopy).1 y hy
  · have hbal := hu.respond_owed (u.answer c.backend (registry.entries.map fun e =>
      (Origin.proxy, .parse (some e.1) e.2.1 e.2.2))).1 .sync
    rw [howed, (hsync _ howed hcopy).2] at hbal
    rw [Conn.send_inbox, hb, hout, queuedReadies_append, queuedReadies_append, queuedReadies_tag]
    simp only [FrontendMessage.cycles] at hbal
    omega

theorem clean_housekeeps : Housekeeps u (CleanPool u status named key) where
  set c c' name value h hq :=
    have hrest := (Conn.idle_exchanges hu hr).set c c' name value h.1 hq
    ⟨hrest, hrest.quiet, hn.cleans.set c c' name value h.2.2 hq⟩
  cached c name value h :=
    have hrest := (Conn.idle_exchanges hu hr).cached c name value h.1
    ⟨hrest, hrest.quiet, hn.cleans.cached c name value h.2.2⟩
  discard c c' h hq :=
    have hrest := (Conn.idle_exchanges hu hr).discard c c' h.1 hq
    ⟨hrest, hrest.quiet, hn.cleans.discard c c' h.2.2 hq⟩
  sync c c' h hq :=
    have hrest := (Conn.idle_exchanges hu hr).sync c c' h.1 hq
    ⟨hrest, hrest.quiet, hn.cleans.sync c c' h.2.2 hq⟩

theorem clean_probe : ProbeKeeps u (CleanPool u status named) :=
  fun _ c c' h hp => (clean_housekeeps hu hr hn).sync c c' h hp

theorem syncParameters_ok {startup : Params} (names : List String)
    (hset : ∀ name ∈ names, ∀ value, startup.lookup name = some value →
      u.Settable status name value) (c : Conn σ) (h : CleanPool u status named key c) :
    ∃ c', syncParameters u startup names c = .ok c' := by
  induction names generalizing c with
  | nil => exact ⟨c, rfl⟩
  | cons name names ih =>
      have hrest := ih fun n hm => hset n (List.mem_cons_of_mem _ hm)
      rw [syncParameters]
      split
      case h_1 => exact hrest c h
      case h_2 desired hlook =>
        split
        · exact hrest c h
        · obtain ⟨c₁, hq⟩ := Conn.set_ok hu h.1 (hset name List.mem_cons_self desired hlook)
          have hdone : setParameter u c name desired =
              .ok (c₁.setServerParameter name desired) := by
            rw [setParameter, hq]
          rw [hdone]
          exact hrest _ ((clean_housekeeps hu hr hn).setParameter h hdone)

theorem replayGucs_ok (gucs : List (Σ _ : String, String))
    (hset : ∀ g ∈ gucs, u.Settable status g.1 g.2) (c : Conn σ) (dirty : Bool)
    (h : CleanPool u status named key c) :
    ∃ dirty' c', replayGucs u gucs c dirty = (dirty', .ok c') := by
  induction gucs generalizing c dirty with
  | nil => exact ⟨dirty, c, rfl⟩
  | cons g gucs ih =>
      have hrest := ih fun x hx => hset x (List.mem_cons_of_mem _ hx)
      rw [replayGucs]
      split
      · exact hrest c dirty h
      · obtain ⟨c₁, hq⟩ := Conn.set_ok hu h.1 (hset g List.mem_cons_self)
        rw [hq]
        exact hrest c₁ true ((clean_housekeeps hu hr hn).set c c₁ g.1 g.2 h hq)

end Prepare

/-! ## Connects -/

namespace World

variable {u : Upstream σ} {w : World σ}

/-- Every connect succeeds. -/
def Supplies (w : World σ) : Prop := ∀ key n, ∃ r, w.supply key n = .ok r

theorem checkout_ok (h : w.Supplies) (key : PoolKey) :
    ∃ w' lease, w.checkout u key = (w', .ok lease) := by
  unfold checkout
  dsimp only
  split
  · exact ⟨_, _, rfl⟩
  · obtain ⟨r, hr⟩ := h key w.dials
    rw [hr]
    exact ⟨_, _, rfl⟩

theorem baselineParams_ok (h : w.Supplies) (key : PoolKey) :
    ∃ w' params, w.baselineParams u key = (w', .ok params) ∧ w'.supply = w.supply := by
  unfold baselineParams
  split
  · exact ⟨w, _, rfl, rfl⟩
  · obtain ⟨w', lease, hc⟩ := checkout_ok (u := u) h key
    have hsupply := checkout_supply u w key
    rw [hc] at hsupply ⊢
    exact ⟨_, _, rfl, hsupply⟩

end World

theorem RouteConfig.endpoint_known {r : RouteConfig} {e : EndpointConfig}
    (h : e ∈ r.endpoints) : ∃ e', r.endpoint e.id = some e' := by
  unfold RouteConfig.endpoint
  cases hf : r.endpoints.find? fun x => x.id == e.id with
  | some e' => exact ⟨e', rfl⟩
  | none => simpa using List.find?_eq_none.mp hf e h

namespace Session

/-- Every connect of the session succeeds, and the state of its interceptor has `P`. -/
structure Sound (P : κ → Prop) (s : Session σ κ) : Prop where
  supplies : s.world.Supplies
  state : ∀ h ∈ s.hooks, P h.ctx

/-- The session has no interceptor, or one that only routes. -/
def Routed (P : κ → Prop) (s : Session σ κ) : Prop := ∀ i ∈ s.interceptor, i.Routes P

/-- The server takes what an attach of the session puts on a connection. -/
structure Welcome (u : Upstream σ) (status : σ → TransactionStatus)
    (named : σ → String → Prop) (s : Session σ κ) : Prop where
  startup : ∀ name ∈ trackedStartupParameters, ∀ value,
    s.startupParameters.lookup name = some value → u.Settable status name value
  gucs : ∀ g ∈ s.gucOverrides.entries, u.Settable status g.1 g.2
  statements : ∀ e ∈ s.registry.entries, u.Preparable status named e.2.1 e.2.2

section Hooks

variable {P : κ → Prop} {s : Session σ κ} {env : Env σ}

/-- The routing hook names an endpoint of the route. -/
theorem dispatchUpstream_ok (hroute : env.route.endpoints ≠ []) (hi : s.Routed P)
    (hs : s.Sound P) (sql : Option String) :
    (s.dispatchUpstream env sql).1.Sound P ∧
      ∃ e, env.route.endpoint (s.dispatchUpstream env sql).2 = some e := by
  unfold dispatchUpstream
  cases hh : s.hooks with
  | none =>
      obtain ⟨e, he, hid⟩ := RoutingInfo.defaultEndpoint_known (show
        (⟨env.route.endpoints, s.params.user, s.params.database, sql⟩ : RoutingInfo).endpoints ≠ []
        from hroute)
      have hknown := RouteConfig.endpoint_known he
      rw [← hid] at hknown
      exact ⟨hs, hknown⟩
  | some h =>
      have hroutes : h.interceptor.Routes P := hi _ (by simp [interceptor, hh])
      obtain ⟨e, he, hid⟩ := hroutes.known h.ctx
        ⟨env.route.endpoints, s.params.user, s.params.database, sql⟩ hroute
      have hknown := RouteConfig.endpoint_known he
      rw [← hid] at hknown
      refine ⟨⟨hs.supplies, ?_⟩, hknown⟩
      intro h' hmem
      cases hmem
      exact hroutes.upstream _ _ (hs.state h hh)

theorem dispatchOnUpstreamConnected_ok (hi : s.Routed P) (hs : s.Sound P)
    (endpoint : String) : (s.dispatchOnUpstreamConnected endpoint).Sound P := by
  unfold dispatchOnUpstreamConnected
  cases hh : s.hooks with
  | none => exact hs
  | some h =>
      have hroutes : h.interceptor.Routes P := hi _ (by simp [interceptor, hh])
      refine ⟨hs.supplies, fun h' hmem => ?_⟩
      cases hmem
      exact hroutes.connected _ _ (hs.state h hh)

end Hooks

theorem Routed.beside {P : κ → Prop} {s s' : Session σ κ} {c : Core σ} (h : s.Routed P)
    (hb : s.Beside c s') : s'.Routed P := by
  unfold Routed
  rw [hb.interceptor]
  exact h

theorem prepare_hooks (env : Env σ) (s : Session σ κ) (conn : Conn σ) :
    (s.prepare env conn).1.hooks = s.hooks := by
  unfold prepare
  split
  · rfl
  · split
    · rfl
    · split <;> rfl

section Attach

variable {env : Env σ} {status : σ → TransactionStatus} {named : σ → String → Prop}
  {s : Session σ κ} {P : κ → Prop}
  (hu : env.upstream.InOrder) (hr : env.upstream.Reports status)
  (hn : env.upstream.Names named) (hsync : env.upstream.Syncs)

include hu hr hn hsync

theorem prepare_ok (hw : s.Welcome env.upstream status named) {key : PoolKey}
    {conn : Conn σ} (h : CleanPool env.upstream status named key conn) :
    ∃ s' conn', s.prepare env conn = (s', .ok conn') := by
  have hkeeps : Housekeeps env.upstream (CleanPool env.upstream status named key) :=
    clean_housekeeps hu hr hn
  obtain ⟨c₁, h₁⟩ := syncParameters_ok hu hr hn _ hw.startup conn h
  have hclean₁ := hkeeps.syncParameters h h₁
  obtain ⟨dirty, c₂, h₂⟩ :=
    replayGucs_ok hu hr hn s.gucOverrides.entries hw.gucs c₁ s.leaseDirty hclean₁
  obtain ⟨c₃, h₃⟩ := replay_ok hu hr hn hsync (hkeeps.replayGucs hclean₁ h₂) hw.statements
  unfold prepare syncStartupParameters
  rw [h₁]
  dsimp only
  rw [h₂]
  dsimp only
  rw [h₃]
  exact ⟨_, _, rfl⟩

/-- The first attempt attaches. -/
theorem attachAttempts_ok (hroute : env.route.endpoints ≠ []) (hi : s.Routed P)
    (hs : s.Sound P) (ht : s.world.Tidy (CleanPool env.upstream status named))
    (hw : s.Welcome env.upstream status named) (sqlHint : Option String) (n : Nat) :
    (attachAttempts env sqlHint (n + 1) s).2 = true ∧
      (attachAttempts env sqlHint (n + 1) s).1.Sound P := by
  have hb := dispatchUpstream_beside env s sqlHint
  obtain ⟨hs₁, endpoint, hknown⟩ := dispatchUpstream_ok hroute hi hs sqlHint
  have hi₁ := hi.beside hb
  rw [attachAttempts]
  dsimp only
  rw [hknown]
  generalize (s.dispatchUpstream env sqlHint).1 = s₁ at hb hs₁ hi₁
  obtain ⟨world, lease, hc⟩ := World.checkout_ok (u := env.upstream) hs₁.supplies
    (env.poolKey s₁.params endpoint.id)
  have hsupply := World.checkout_supply env.upstream s₁.world (env.poolKey s₁.params endpoint.id)
  obtain ⟨_, hlease⟩ := (hb.world ▸ ht : s₁.world.Tidy _).checkout (clean_probe hu hr hn)
    (env.poolKey s₁.params endpoint.id)
  rw [hc] at hsupply hlease
  have hw₁ : { s₁ with world := world }.Welcome env.upstream status named :=
    ⟨hb.startup ▸ hw.startup, hb.core ▸ hw.gucs, hb.core ▸ hw.statements⟩
  obtain ⟨s₂, conn, hp⟩ := prepare_ok hu hr hn hsync hw₁ (hlease lease rfl).2
  obtain ⟨_, _, hb₂, _⟩ := prepare_spec env { s₁ with world := world } lease.conn
  have hhooks := prepare_hooks env { s₁ with world := world } lease.conn
  dsimp only
  rw [hc]
  dsimp only
  rw [hp] at hb₂ hhooks ⊢
  have hs₂ : s₂.Sound P := by
    refine ⟨?_, hhooks ▸ hs₁.state⟩
    rw [World.Supplies, hb₂.world]
    exact hsupply ▸ hs₁.supplies
  have hi₂ : s₂.Routed P := (show Routed P { s₁ with world := world } from hi₁).beside hb₂
  obtain ⟨hsupplies, hstate⟩ := dispatchOnUpstreamConnected_ok hi₂ hs₂ endpoint.id
  exact ⟨rfl, hsupplies, hstate⟩

theorem ensureAttached_ok (hroute : env.route.endpoints ≠ []) (hi : s.Routed P)
    (hs : s.Sound P) (ht : s.world.Tidy (CleanPool env.upstream status named))
    (hw : s.lease = none → s.Welcome env.upstream status named) (sqlHint : Option String) :
    (s.ensureAttached env sqlHint).2 = true ∧ (s.ensureAttached env sqlHint).1.Sound P := by
  unfold ensureAttached
  cases hl : s.lease with
  | some lease => exact ⟨rfl, hs⟩
  | none =>
      obtain ⟨n, hn'⟩ : ∃ n, max (env.route.endpoints.length * 2) 2 = n + 1 :=
        ⟨max (env.route.endpoints.length * 2) 2 - 1, by omega⟩
      rw [hn']
      exact attachAttempts_ok hu hr hn hsync hroute hi hs ht (hw hl) sqlHint n

omit hu hr hn hsync in
/-- The start of a session in transaction mode. -/
theorem baselineParamsRouted_ok (hroute : env.route.endpoints ≠ []) (hi : s.Routed P)
    (hs : s.Sound P) :
    ∃ s' params, s.baselineParamsRouted env = (s', .ok params) ∧ s'.Sound P ∧
      s'.toCore = s.toCore := by
  obtain ⟨n, hn'⟩ : ∃ n, max (env.route.endpoints.length * 2) 2 = n + 1 :=
    ⟨max (env.route.endpoints.length * 2) 2 - 1, by omega⟩
  have hb := dispatchUpstream_beside env s none
  obtain ⟨hs₁, endpoint, hknown⟩ := dispatchUpstream_ok hroute hi hs none
  have hi₁ := hi.beside hb
  unfold baselineParamsRouted
  rw [hn', baselineAttempts]
  dsimp only
  rw [hknown]
  generalize (s.dispatchUpstream env none).1 = s₁ at hb hs₁ hi₁
  obtain ⟨world, params, hc, hsupply⟩ := World.baselineParams_ok (u := env.upstream)
    hs₁.supplies (env.poolKey s₁.params endpoint.id)
  dsimp only
  rw [hc]
  have hs₂ : Sound P { s₁ with world := world } :=
    ⟨by rw [World.Supplies, hsupply]; exact hs₁.supplies, hs₁.state⟩
  have hi₂ : Routed P { s₁ with world := world } := hi₁
  exact ⟨_, _, rfl, dispatchOnUpstreamConnected_ok hi₂ hs₂ endpoint.id,
    (dispatchOnUpstreamConnected_beside _ endpoint.id).core.trans hb.core⟩

end Attach

end Session

end Pgferry
