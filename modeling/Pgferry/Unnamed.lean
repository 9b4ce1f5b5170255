/-
  The unnamed statement.

  The registry holds named statements only, and a `Parse` of the unnamed statement does not raise
  `lease_dirty`. In transaction mode a clean detach therefore leaves the unnamed statement on the
  connection, and a `Bind` of the next session that gets it is resolved against it.

  `unnamed` reads the SQL of the unnamed statement off a server. A server `Listens` when it
  processes the next extended message, rather than to skip it up to a `Sync`.

  Proved: `unnamed_private`. When no session detaches clean from a connection with an unnamed
  statement, and session ends drain in time, the unnamed statement that the server of a lease has
  is the one of the latest `Parse` that its session has forwarded, and parked connections have
  none; for any number of one-cycle sessions and every interleaving.
-/
import Pgferry.Statements

namespace Pgferry

open Loop

variable {σ κ : Type}

/-- The text of a `Parse` of the unnamed statement. -/
def unnamedParse : FrontendMessage → Option String
  | .parse name query _ => if name.getD "" = "" then some query else none
  | _ => none

theorem unnamedParse_ne_none {name : Option String} {query : String} {typeOids : List Nat} :
    unnamedParse (.parse name query typeOids) ≠ none ↔ name.getD "" = "" := by
  simp [unnamedParse]

/-- The server processes the next `Parse`: it neither skips to a `Sync` nor copies. -/
def Upstream.Listens (u : Upstream σ) (b : σ) : Prop :=
  u.copying b = false ∧ ∀ name query typeOids, (u.respond b (.parse name query typeOids)).2 ≠ []

/-- `unnamed` is the unnamed statement of a server. A `Parse` of it that is not skipped replaces
    it, or drops it if the text is rejected. -/
structure Upstream.Unnamed (u : Upstream σ) (unnamed : σ → Option String) : Prop where
  prepares : u.Prepares (fun b query => unnamed b = some query)
    (fun m query => unnamedParse m = some query)
  replaces : ∀ b m query x, unnamedParse m = some query → u.Listens b →
    unnamed (u.respond b m).1 = some x → x = query

/-- A pooled connection is quiet and has no unnamed statement. -/
abbrev PrivatePool (u : Upstream σ) (unnamed : σ → Option String) : PoolKey → Conn σ → Prop :=
  BarePool u (fun b query => unnamed b = some query) (fun m query => unnamedParse m = some query)

/-- A connection that was brought to a session's state: only named statements are replayed. -/
theorem private_prepared {u : Upstream σ} {unnamed : σ → Option String} {c : Conn σ}
    {key : PoolKey} (hu : u.InOrder) (hn : u.Unnamed unnamed) {startup : Params} {k : Core σ}
    {dirty₀ dirty : Bool} {base : Conn σ} (hk : "" ∉ k.registry)
    (hbase : PrivatePool u unnamed key base) (h : Prepared u startup k dirty₀ base c dirty) :
    PrivatePool u unnamed key c := by
  refine ⟨prepared_quiet hu hbase.1 h, ?_⟩
  refine hn.prepares.cleans.preparedWith (fun c₂ h₂ hr => ?_) hbase.2 h
  refine Conn.Limited.replay hn.prepares.accrues h₂ (fun e he x hx => ?_) nofun hr
  have hne : e.1 ≠ "" := fun h => hk (h ▸ AList.mem_keys.mpr (List.mem_map_of_mem he))
  have hx' : (if e.1 = "" then some e.2.1 else none) = some x := hx
  rw [if_neg hne] at hx'
  cases hx'

/-! ## The connection of a lease -/

namespace Conn

/-- The unnamed statement of the server, now and once it has caught up, is `latest`. -/
structure Resolves (u : Upstream σ) (unnamed : σ → Option String) (latest : Option String)
    (c : Conn σ) : Prop where
  caughtUp : ∀ query, unnamed (c.caughtUp u) = some query → latest = some query
  backend : (∀ m ∈ c.outbox, unnamedParse m.2 = none) →
    ∀ query, unnamed c.backend = some query → latest = some query

section Resolves

variable {u : Upstream σ} {unnamed : σ → Option String} {latest : Option String} {c c' : Conn σ}
  {key : PoolKey}

theorem Resolves.congr (h : c.Resolves u unnamed latest) (hb : c'.backend = c.backend)
    (ho : c'.outbox = c.outbox) : c'.Resolves u unnamed latest := by
  refine ⟨?_, by rw [hb, ho]; exact h.backend⟩
  unfold Conn.caughtUp
  rw [hb, ho]
  exact h.caughtUp

/-- Nothing is there to be resolved against. -/
theorem private_resolves (h : PrivatePool u unnamed key c) : c.Resolves u unnamed latest := by
  have hnone : ∀ query, unnamed c.backend = some query → latest = some query :=
    fun query hq => (h.2.backend query hq).elim
  refine ⟨?_, fun _ => hnone⟩
  rw [caughtUp_of_nil h.1.outbox]
  exact hnone

/-- One more message: a `Parse` that the server processes is the latest from now on. -/
theorem Resolves.put (hn : u.Unnamed unnamed) (h : c.Resolves u unnamed latest) (o : Origin)
    {m : FrontendMessage} (hm : unnamedParse m ≠ none →
      u.Listens (c.caughtUp u) ∨ unnamed (c.caughtUp u) = none) :
    (if m.triggersResponse then c.send u o m else c.feed o m).Resolves u unnamed
      ((unnamedParse m).or latest) := by
  have hnext : ∀ query, unnamed (u.respond (c.caughtUp u) m).1 = some query →
      (unnamedParse m).or latest = some query := by
    intro query hq
    cases hp : unnamedParse m with
    | none =>
        rcases hn.prepares.accrues.respond _ m query hq with hq | hq
        · exact h.caughtUp query hq
        · cases hp.symm.trans hq
    | some x =>
        suffices hx : query = x by rw [hx]; rfl
        rcases hm (by rw [hp]; nofun) with hl | hnone
        · exact hn.replaces _ m x query hp hl hq
        · rcases hn.prepares.accrues.respond _ m query hq with hq | hq
          · cases hnone.symm.trans hq
          · cases hp.symm.trans hq
            rfl
  refine ⟨by rw [put_caughtUp]; exact hnext, ?_⟩
  split
  · have hb : (c.send u o m).backend = (u.respond (c.caughtUp u) m).1 := send_backend u c o m
    exact fun _ => hb ▸ hnext
  · intro hout query hq
    have hp : unnamedParse m = none := hout (o, m) (List.mem_append_right _ List.mem_cons_self)
    rw [hp]
    exact h.backend (fun n hn => hout n (List.mem_append_left _ hn)) query hq

/-- A leg on the connection. -/
theorem Resolves.collect (hn : u.Unnamed unnamed) (h : c.Resolves u unnamed latest) {sql : String}
    (hb : (runQueryCollect u c sql).broken = false) :
    (runQueryCollect u c sql).conn.Resolves u unnamed latest := by
  have hsend := Resolves.put hn h .proxy (m := .query sql) fun hne => absurd rfl hne
  obtain ⟨_, _, _, _, _, _, _, hout, hback, _⟩ := collectReply_spec hb
  exact hsend.congr hback hout

/-- A cancel request may fail the batch, so that fed messages are skipped. -/
theorem Resolves.cancel (hn : u.Unnamed unnamed) (h : c.Resolves u unnamed latest)
    (hout : ∀ m ∈ c.outbox, unnamedParse m.2 = none) :
    (c.cancel u).Resolves u unnamed latest := by
  have hback : ∀ query, unnamed (u.interrupt c.backend).1 = some query → latest = some query :=
    fun query hq => h.backend hout query (hn.prepares.accrues.interrupt _ query hq)
  refine ⟨fun query hq => ?_, fun _ => hback⟩
  rcases hn.prepares.accrues.answer c.outbox _ hq with hq | ⟨m, hm, hq⟩
  · exact hback query hq
  · cases (hout m hm).symm.trans hq

end Resolves

end Conn

/-! ## The session -/

theorem Forwards.unnamed {i : Option (Interceptor κ)} {m m' : FrontendMessage}
    (h : Forwards i m m') : unnamedParse m' ≠ none → unnamedParse m ≠ none := by
  rcases h with ⟨rfl, _⟩ | ⟨_, _, _, sql, rfl⟩
  · exact fun h => h
  · cases m with
    | parse name query typeOids =>
        cases sql with
        | none => exact fun h => h
        | some sql => exact fun h => unnamedParse_ne_none.mpr (unnamedParse_ne_none.mp h)
    | _ => cases sql <;> exact fun h => h

/-- What an iteration has to respect: a `Parse` of the unnamed statement finds the server
    listening, no cancel request overtakes one that was fed, and a clean detach leaves none
    behind. More than needed: a skipped `Parse` does no harm when no `Bind` of it follows. -/
def Session.Considerate (env : Env σ) (unnamed : σ → Option String) (s : Session σ κ) :
    Event → Prop
  | .client m _ => unnamedParse m ≠ none → ∀ lease ∈ s.lease,
      env.upstream.Listens (lease.conn.caughtUp env.upstream)
  | .cancel => ∀ lease ∈ s.lease, ∀ m ∈ lease.conn.outbox, unnamedParse m.2 = none
  | .upstream => env.transactionMode = true → ∀ r ∈ s.toCore.readNext env.transactionMode,
      r.2.1.ready = 1 → r.2.2.leaseStatus = .idle → r.2.2.leaseDirty = false →
      ∀ lease ∈ r.2.2.lease, unnamed lease.conn.backend = none
  | _ => True

/-- The conditions of the one-cycle clients and of the unnamed statement. -/
def Session.Neat (env : Env σ) (unnamed : σ → Option String) (s : Session σ κ) (e : Event) :
    Prop :=
  s.OneCycle env.upstream e ∧ s.Considerate env unnamed e

namespace Core

/-- The text of the latest `Parse` of the unnamed statement that was forwarded. -/
def latestUnnamed (c : Core σ) : Option String := (c.forwards.filterMap unnamedParse).getLast?

/-- The unnamed statement that a lease has is the session's own. -/
structure Private (u : Upstream σ) (unnamed : σ → Option String) (c : Core σ) : Prop where
  calm : c.Calm u
  own : ∀ lease, c.lease = some lease → lease.conn.Resolves u unnamed c.latestUnnamed
  names : "" ∉ c.registry

section Steps

variable {env : Env σ} {i : Option (Interceptor κ)} {s : Session σ κ} {c d : Core σ}
  {unnamed : σ → Option String}

theorem latestUnnamed_append {fs : List FrontendMessage} {m : FrontendMessage}
    (h : d.forwards = fs ++ [m]) :
    d.latestUnnamed = (unnamedParse m).or (fs.filterMap unnamedParse).getLast? := by
  unfold latestUnnamed
  rw [h, List.filterMap_append]
  cases hm : unnamedParse m with
  | none => simp [hm]
  | some x => simp [hm]

theorem register_names (h : "" ∉ c.registry) (m : FrontendMessage) :
    "" ∉ (c.register (pendingParse m)).registry := by
  cases hp : pendingParse m with
  | none => exact h
  | some p =>
      intro hmem
      rcases (AList.mem_insert _).mp hmem with h' | h'
      · exact (parse_of_pendingParse hp).1 h'.symm
      · exact h h'

theorem recordClose_names {registry : StatementRegistry} (h : "" ∉ registry)
    (name : Option String) : "" ∉ registry.recordClose name := by
  cases name with
  | none => exact h
  | some name => exact fun hmem => h (AList.mem_erase.mp hmem).2

theorem register_forwards (c : Core σ) (p : Session.PendingParse) :
    (c.register p).forwards = c.forwards := by
  cases p <;> rfl

theorem private_of_none (hd : d.lease = none) (hcalm : d.Calm env.upstream)
    (hnames : "" ∉ d.registry) : d.Private env.upstream unnamed :=
  ⟨hcalm, fun lease hl => (by rw [hd] at hl; cases hl), hnames⟩

/-- The session on its way to the raw hook. -/
theorem enters_private {m m' : FrontendMessage} (hu : env.upstream.InOrder)
    (hn : env.upstream.Unnamed unnamed) (hs : s.toCore.Private env.upstream unnamed)
    (hm : unnamedParse m' ≠ none → ∀ lease ∈ s.lease,
      env.upstream.Listens (lease.conn.caughtUp env.upstream))
    (h : Enters env i (PrivatePool env.upstream unnamed) s (s.toCore.recv m) m m' c) :
    (∀ lease, c.lease = some lease →
      lease.conn.Resolves env.upstream unnamed s.toCore.latestUnnamed ∧
        (unnamedParse m' ≠ none → env.upstream.Listens (lease.conn.caughtUp env.upstream) ∨
          unnamed (lease.conn.caughtUp env.upstream) = none)) ∧
      "" ∉ c.registry ∧ c.forwards = s.toCore.forwards := by
  have hrecv : (s.toCore.recv m).forwards = s.toCore.forwards :=
    congrArg (·.2.2.2) (s.toCore.recv_carried m)
  cases enters_taken h with
  | held lease hl hl' hc =>
      have hreg : c.registry = _ := congrArg (·.2.1) hc
      have hfor : c.forwards = _ := congrArg (·.2.2.2) hc
      refine ⟨fun l hcl => ?_, ?_, hfor.trans ((register_forwards _ _).trans hrecv)⟩
      · cases hl'.symm.trans hcl
        exact ⟨hs.own _ hl, fun hne => .inl (hm hne _ hl)⟩
      · rw [hreg]
        exact register_names (c := s.toCore.recv m) hs.names m'
  | leased endpoint dirty₀ base lease dirty _ _ _ hbase hprep hl' hc =>
      have hreg : c.registry = _ := congrArg (·.2.1) hc
      have hfor : c.forwards = _ := congrArg (·.2.2.2) hc
      refine ⟨fun l hcl => ?_, ?_, hfor.trans ((register_forwards _ _).trans hrecv)⟩
      · cases hl'.symm.trans hcl
        have hconn := private_prepared hu hn hs.names hbase hprep
        refine ⟨Conn.private_resolves hconn, fun _ => .inr ?_⟩
        rw [Conn.caughtUp_of_nil hconn.1.outbox]
        exact Option.eq_none_iff_forall_ne_some.mpr fun query => hconn.2.backend query
      · rw [hreg]
        exact register_names (c := { s.toCore.recv m with leaseDirty := dirty }) hs.names m'

theorem readNext_private {tm : Bool} {o : Origin} {m : BackendMessage}
    (h : c.readNext tm = some (o, m, d)) {u : Upstream σ} {latest : Option String}
    (hc : ∀ lease, c.lease = some lease → lease.conn.Resolves u unnamed latest) :
    ∀ lease, d.lease = some lease → lease.conn.Resolves u unnamed latest := by
  obtain ⟨lease, rest, hl, _, _, _, hd⟩ := readNext_spec h
  intro l hl'
  cases hd.symm.trans hl'
  exact (hc lease hl).congr (by cases m <;> rfl) (by cases m <;> rfl)

theorem steps_private {e : Event} (hu : env.upstream.InOrder) (hn : env.upstream.Unnamed unnamed)
    (hp : Steady i) (hs : s.toCore.Private env.upstream unnamed) (hok : s.Neat env unnamed e)
    (h : Steps env i (PrivatePool env.upstream unnamed) s e d) :
    d.Private env.upstream unnamed := by
  have hcalm : d.Calm env.upstream :=
    steps_calm hu hp hs.calm hok.1 (h.mono fun _ _ hc => hc.1)
  have hlatest : d.forwards = s.toCore.forwards → d.latestUnnamed = s.toCore.latestUnnamed :=
    fun hf => by unfold latestUnnamed; rw [hf]
  have hsame : d.carried.2 = s.toCore.carried.2 →
      "" ∉ d.registry ∧ d.latestUnnamed = s.toCore.latestUnnamed := by
    intro hc
    have hr : d.registry = s.registry := congrArg Prod.fst hc
    exact ⟨hr ▸ hs.names, hlatest (congrArg (·.2.2) hc)⟩
  -- A `ParameterStatus` changes the GUC overrides, a read nothing else of what is carried.
  have hread : ∀ {o m c}, s.toCore.readNext env.transactionMode = some (o, m, c) →
      c.registry = s.registry ∧ c.forwards = s.toCore.forwards := by
    intro o m c hr
    obtain ⟨_, _, _, _, hf, _, _⟩ := readNext_spec hr
    unfold forwards
    rw [hf.log]
    exact ⟨hf.registry, rfl⟩
  cases steps_handles h with
  | same hl hc =>
      obtain ⟨hnames, hlat⟩ := hsame (congrArg Prod.snd hc)
      exact ⟨hcalm, fun lease h => hlat ▸ hs.own lease (hl ▸ h), hnames⟩
  | closedName target name t _ _ _ hl hc =>
      have hr : d.registry = s.registry.recordClose name := congrArg (·.2.1) hc
      exact private_of_none hl hcalm (hr ▸ recordClose_names hs.names name)
  | dropped hl _ hc => exact private_of_none hl hcalm (hsame hc).1
  | leg sql t lease request leg _ hsl _ hb hl hc =>
      obtain ⟨hnames, hlat⟩ := hsame (congrArg Prod.snd hc)
      refine ⟨hcalm, fun l hl' => ?_, hnames⟩
      cases hl.symm.trans hl'
      rw [hlat]
      exact (hs.own lease hsl).collect hn hb
  | entered m m' t c he hent hl hc =>
      subst he
      obtain ⟨hown, hnames, hfor⟩ := enters_private hu hn hs
        (fun hne => hok.2 (hent.forwards.unnamed hne)) hent
      have hr : d.registry = c.registry := congrArg (·.2.1) hc
      have hf : d.forwards = c.forwards := congrArg (·.2.2.2) hc
      rcases hl with hl | hl
      · refine ⟨hcalm, fun lease h => ?_, hr ▸ hnames⟩
        rw [hlatest (hf.trans hfor)]
        exact (hown lease (hl ▸ h)).1
      · exact private_of_none hl hcalm (hr ▸ hnames)
  | put m m' m'' t c lease he hent hh hlease hl hc =>
      subst he
      obtain rfl := hh.steady hp
      obtain ⟨hown, hnames, hfor⟩ := enters_private hu hn hs
        (fun hne => hok.2 (hent.forwards.unnamed hne)) hent
      have hr : d.registry = c.registry := congrArg (·.2.1) hc
      have hf : d.forwards = c.forwards ++ [m''] := congrArg (·.2.2.2) hc
      refine ⟨hcalm, fun l hl' => ?_, hr ▸ hnames⟩
      cases hl.symm.trans hl'
      rw [latestUnnamed_append (hf.trans (by rw [hfor]))]
      obtain ⟨hres, hlisten⟩ := hown lease hlease
      exact hres.put hn c.origin hlisten
  | read o m c _ hr hl hc =>
      obtain ⟨hreg, hfor⟩ := hread hr
      have hr' : d.registry = c.registry := congrArg (·.2.1) hc
      have hf : d.forwards = c.forwards := congrArg (·.2.2.2) hc
      refine ⟨hcalm, fun lease h => ?_, by rw [hr', hreg]; exact hs.names⟩
      rw [hlatest (hf.trans hfor)]
      exact readNext_private hr hs.own lease (hl ▸ h)
  | detached o m c _ hr hl hc =>
      have hr' : d.registry = c.registry := congrArg (·.2.1) hc
      exact private_of_none hl hcalm (by rw [hr', (hread hr).1]; exact hs.names)
  | cancelled he hl hc =>
      subst he
      obtain ⟨hnames, hlat⟩ := hsame (congrArg Prod.snd hc)
      refine ⟨hcalm, fun l hl' => ?_, hnames⟩
      rw [hl] at hl'
      obtain ⟨lease, hlease, rfl⟩ := Option.map_eq_some_iff.mp hl'
      rw [hlat]
      exact (hs.own lease hlease).cancel hn (hok.2 lease hlease)

/-- What such a session detaches has no unnamed statement. -/
theorem private_releases (hu : env.upstream.InOrder) (hn : env.upstream.Unnamed unnamed)
    (hp : Steady i) (hs : s.toCore.Private env.upstream unnamed)
    (hok : s.Considerate env unnamed .upstream) :
    Session.Releases env i (PrivatePool env.upstream unnamed) s := by
  intro o m m' m'' c lease conn hr hshown hh hm ht hidle hlease hd
  have hready : m.ready = 1 := hshown.ready.symm.trans (hh.steady hp hm)
  have hq := (readNext_calm hr hs.calm).2 hready lease hlease
  unfold discardIfDirty at hd
  split at hd
  case isTrue => exact bare_discarded hu hn.prepares hq hd
  case isFalse hdirty =>
    cases hd
    have hnone := hok ht _ hr hready hidle (Bool.not_eq_true _ ▸ hdirty) lease hlease
    refine ⟨hq, fun query hquery => ?_, fun n hmem => ?_⟩
    · cases hnone.symm.trans hquery
    · rw [hq.outbox] at hmem
      cases hmem

theorem private_stable {startup : Params} (hu : env.upstream.InOrder)
    (hn : env.upstream.Unnamed unnamed) (hp : Steady i) :
    Session.Stable env i startup (PrivatePool env.upstream unnamed) (Session.Neat env unnamed)
      (Private env.upstream unnamed) where
  probe := bare_probe hu hn.prepares
  leg := fun sql _ => bare_leg hu hn.prepares startup sql
  releases := fun _ hs _ hok => private_releases hu hn hp hs.inv hok.2
  step := fun _ _ _ hs _ hok h => steps_private hu hn hp hs.inv hok h

end Steps

end Core

section Systems

variable {env : Env σ} {unnamed : σ → Option String} (hu : env.upstream.InOrder)
  (hn : env.upstream.Unnamed unnamed)

include hu hn

theorem Launch.start_private {l : Launch σ κ}
    (ht : l.world.Tidy (PrivatePool env.upstream unnamed)) :
    Session.Holds l.interceptor l.startup (PrivatePool env.upstream unnamed)
      (Core.Private env.upstream unnamed) (l.new.start env) := by
  obtain ⟨hk, hstart⟩ : l.new.Kept (PrivatePool env.upstream unnamed) (l.new.start env) ∧ _ :=
    Session.start_spec (bare_probe hu hn.prepares) (bare_baseline hu hn.prepares) ht
  refine ⟨⟨(l.start_calm hu (ht.mono fun _ _ hc => hc.1)).inv, fun lease hl => ?_, ?_⟩, hk.tidy,
    hk.interceptor, hk.startup⟩
  · obtain ⟨_, _, _, hbase, hprep⟩ :=
      l.start_leases (bare_probe hu hn.prepares) (bare_baseline hu hn.prepares) ht hl
    exact Conn.private_resolves (private_prepared hu hn (AList.notMem_empty "") hbase hprep)
  · have hnew : "" ∉ l.new.registry := AList.notMem_empty ""
    generalize (l.new.start env).toCore = d at hstart
    cases hstart with
    | detached => exact hnew
    | refused => exact hnew
    | attached c₁ _ h => cases h <;> exact hnew

theorem Session.finish_private {s : Session σ κ} {arrived : Nat}
    (hc : s.toCore.Private env.upstream unnamed)
    (ht : s.world.Tidy (PrivatePool env.upstream unnamed))
    (he : s.EndsInTime env.upstream arrived) :
    (s.finish env arrived).world.Tidy (PrivatePool env.upstream unnamed) ∧
      (s.finish env arrived).toCore.Private env.upstream unnamed := by
  refine ⟨finish_tidy ht fun lease conn hend hlease hsan => ?_, ?_⟩
  · exact bare_sanitize hu hn.prepares (hc.calm.tame lease hlease) (he hend lease hlease) hsan
  · rcases s.finish_core env arrived with h | h <;> rw [h]
    · exact hc
    · exact Core.private_of_none rfl (Core.calm_of_none rfl) hc.names

theorem System.private_keeps :
    System.Keeps (κ := κ) env (PrivatePool env.upstream unnamed)
      (fun l => Steady l.interceptor) (Session.Neat env unnamed)
      (Session.EndsInTime env.upstream) (fun _ => Core.Private env.upstream unnamed) where
  anywhere := fun _ _ _ h => h
  start := fun l _ ht => l.start_private hu hn ht
  stable := fun _ hl => Core.private_stable hu hn hl
  finish := fun _ _ _ hc ht he => Session.finish_private hu hn hc ht he

end Systems

/-! ## The sample server -/

namespace Pg

variable {d : Dialect} {x : String}

/-- The text of the unnamed statement. -/
def unnamed (b : Pg) : Option String := (b.statements.lookup "").map Prod.fst

theorem execute_unnamed (b : Pg) (e : Effect) (h : (execute d b e).1.unnamed = some x) :
    b.unnamed = some x := by
  unfold execute at h
  split at h
  · exact h
  · cases e with
    | discardAll =>
        dsimp only at h
        split at h
        · exact h
        · cases h
    | _ => exact h

/-- A `Parse` of the unnamed statement leaves the new one or none. -/
theorem parse_unnamed (b : Pg) {name : Option String} (hname : name.getD "" = "") (query : String)
    (typeOids : List Nat) :
    (extended d b (.parse name query typeOids)).1.unnamed =
      if d.effect query = .reject then none else some query := by
  unfold extended
  dsimp only
  rw [hname]
  split
  · show ((b.statements.erase "").lookup "").map Prod.fst = none
    rw [AList.lookup_erase]
    rfl
  · rw [if_neg (fun h => h.1 rfl)]
    show (((b.release "").statements.insert "" (query, typeOids)).lookup "").map Prod.fst = _
    rw [AList.lookup_insert]
    rfl

/-- A `Parse` of a named statement leaves the unnamed one alone. -/
theorem parse_named (b : Pg) {name : Option String} (hname : name.getD "" ≠ "") (query : String)
    (typeOids : List Nat) :
    (extended d b (.parse name query typeOids)).1.unnamed = b.unnamed := by
  have hrel : (b.release (name.getD "")).statements = b.statements := if_neg hname
  unfold extended
  dsimp only
  split
  · exact congrArg (fun s => (AList.lookup "" s).map Prod.fst) hrel
  · split
    · exact congrArg (fun s => (AList.lookup "" s).map Prod.fst) hrel
    · show (((b.release _).statements.insert (name.getD "") (query, typeOids)).lookup "").map
        Prod.fst = _
      rw [AList.lookup_insert_ne hname.symm, hrel]
      rfl

theorem extended_unnamed (b : Pg) (m : FrontendMessage)
    (h : (extended d b m).1.unnamed = some x) : b.unnamed = some x ∨ unnamedParse m = some x := by
  cases m with
  | parse name query typeOids =>
      by_cases hname : name.getD "" = ""
      · rw [parse_unnamed b hname] at h
        split at h
        · cases h
        · exact .inr ((if_pos hname).trans h)
      · rw [parse_named b hname] at h
        exact .inl h
  | bind portal stmt =>
      simp only [extended] at h
      split at h <;> exact .inl h
  | describe target stmt =>
      cases target <;> simp only [extended] at h <;> split at h <;> exact .inl h
  | execute portal =>
      unfold extended at h
      dsimp only at h
      split at h
      · exact .inl h
      · exact .inl (execute_unnamed b _ h)
  | close target stmt =>
      cases target with
      | statement =>
          have h' : ((b.statements.erase (stmt.getD "")).lookup "").map Prod.fst = some x := h
          by_cases hstmt : stmt.getD "" = ""
          · rw [hstmt, AList.lookup_erase] at h'
            cases h'
          · rw [AList.lookup_erase_ne (Ne.symm hstmt)] at h'
            exact .inl h'
      | portal => exact .inl h
  | _ => exact .inl h

theorem process_unnamed (b : Pg) (m : FrontendMessage) (h : (process d b m).1.unnamed = some x) :
    b.unnamed = some x ∨ unnamedParse m = some x := by
  unfold process at h
  split at h
  · dsimp only at h
    split at h
    · exact .inl h
    · have hb := execute_unnamed _ _ h
      exact .inl hb
  · exact .inl h
  · split at h
    · exact .inl h
    · exact extended_unnamed b _ h

theorem respond_unnamed (b : Pg) (m : FrontendMessage) (h : (respond d b m).1.unnamed = some x) :
    b.unnamed = some x ∨ unnamedParse m = some x := by
  unfold respond at h
  split at h
  · split at h
    · exact .inl h
    · exact .inl h
    · exact .inl h
    · exact .inl h
    · dsimp only at h
      split at h
      · exact .inl h
      · exact process_unnamed b.failed _ h
  · exact process_unnamed b m h

/-- A server listens unless it copies or skips. -/
theorem listens_iff (b : Pg) : (pg d).Listens b ↔ b.copying = false ∧ b.skipping = false := by
  have hresp : b.copying = false → ∀ name query typeOids,
      (pg d).respond b (.parse name query typeOids) =
        if b.skipping then (b, []) else extended d b (.parse name query typeOids) := by
    intro hcopy name query typeOids
    show respond d b _ = _
    unfold respond
    rw [if_neg (by rw [hcopy]; nofun)]
    rfl
  refine ⟨fun ⟨hcopy, h⟩ => ⟨hcopy, ?_⟩,
    fun ⟨hcopy, hskip⟩ => ⟨hcopy, fun name query typeOids => ?_⟩⟩
  · by_contra hskip
    refine h none "" [] ?_
    rw [hresp hcopy, if_pos (Bool.not_eq_false _ ▸ hskip)]
  · rw [hresp hcopy, if_neg (by rw [hskip]; nofun)]
    unfold extended
    dsimp only
    split
    · nofun
    · split <;> nofun

end Pg

theorem pg_unnamed {d : Dialect} (hd : d.effect "DISCARD ALL" = .discardAll) :
    (pg d).Unnamed Pg.unnamed where
  prepares :=
    { accrues :=
        { respond := fun b m x h => Pg.respond_unnamed b m h
          interrupt := by
            intro b x h
            have h' : (Pg.interrupt b).1.unnamed = some x := h
            unfold Pg.interrupt at h'
            split at h' <;> exact h' }
      parse := by
        intro m x hm
        cases m <;> first
          | exact ⟨_, _, _, rfl⟩
          | cases hm
      discard := by
        intro b h x hx
        have hempty := Pg.discard_statements hd b h
        have hx' : (Pg.respond d b (.query "DISCARD ALL")).1.unnamed = some x := hx
        unfold Pg.unnamed at hx'
        rw [hempty] at hx'
        cases hx' }
  replaces := by
    intro b m query x hm hl hx
    obtain ⟨hcopy, hskip⟩ := (Pg.listens_iff b).mp hl
    cases m with
    | parse name q typeOids =>
        have hname : name.getD "" = "" := unnamedParse_ne_none.mp (by rw [hm]; nofun)
        have hq : q = query := Option.some.inj ((if_pos hname).symm.trans hm)
        have hx' : (Pg.respond d b (.parse name q typeOids)).1.unnamed = some x := hx
        unfold Pg.respond at hx'
        rw [if_neg (by rw [hcopy]; nofun)] at hx'
        unfold Pg.process at hx'
        dsimp only at hx'
        rw [if_neg (by rw [hskip]; nofun), Pg.parse_unnamed b hname] at hx'
        split at hx'
        · cases hx'
        · exact (Option.some.inj hx').symm.trans hq
    | _ => cases hm

/-- Any number of sessions in any interleaving. The server processes a `Bind` or `Describe` of the
    unnamed statement in the state in which it has caught up with what was sent before. -/
theorem unnamed_private (env : Env σ) (unnamed : σ → Option String) (world : World σ)
    (acts : List (Act σ κ)) (hu : env.upstream.InOrder) (hn : env.upstream.Unnamed unnamed)
    (hworld : world.Tidy (PrivatePool env.upstream unnamed))
    (hrun : Along (System.act env) (System.Within (fun l => Steady l.interceptor)
      (Session.Neat env unnamed) (Session.EndsInTime env.upstream)) (System.init world) acts) :
    (∀ (n : Nat) (s : Session σ κ) (lease : UpstreamLease σ) (query : String),
      (run (System.act env) (System.init world) acts).sessions[n]? = some s →
      s.lease = some lease → unnamed (lease.conn.caughtUp env.upstream) = some query →
      s.toCore.latestUnnamed = some query) ∧
    ∀ key, ∀ p ∈ ((run (System.act env) (System.init world) acts).world.pools key).idle,
      unnamed (p.conn.caughtUp env.upstream) = none := by
  have h := (System.private_keeps hu hn).run world acts hworld hrun
  refine ⟨fun n s lease query hs hl hq => ?_, fun key p hp => ?_⟩
  · obtain ⟨hinv, _⟩ := h.sessions n s hs
    exact (hinv.own lease hl).caughtUp query hq
  · have hpool : PrivatePool env.upstream unnamed key p.conn := h.tidy.idle key p hp
    rw [Conn.caughtUp_of_nil hpool.1.outbox]
    exact Option.eq_none_iff_forall_ne_some.mpr fun query => hpool.2.backend query

namespace Sample

instance (mode : PoolMode) (b : Pg) : Decidable ((env mode).upstream.Listens b) :=
  decidable_of_iff _ (Pg.listens_iff b).symm

instance (mode : PoolMode) (s : Session Pg Unit) :
    ∀ e, Decidable (s.Considerate (env mode) Pg.unnamed e)
  | .client _ _ => inferInstanceAs (Decidable (_ → ∀ _ ∈ _, _))
  | .cancel => inferInstanceAs (Decidable (∀ _ ∈ _, _))
  | .upstream => inferInstanceAs (Decidable (_ → ∀ _ ∈ _, _))
  | .clientGone | .upstreamClosed | .upstreamError _ | .shutdown => isTrue trivial

instance (mode : PoolMode) (s : Session Pg Unit) (e : Event) :
    Decidable (s.Neat (env mode) Pg.unnamed e) :=
  inferInstanceAs (Decidable (_ ∧ _))

theorem world_private (mode : PoolMode) :
    (world mode).Tidy (PrivatePool (env mode).upstream Pg.unnamed) where
  idle := nofun
  fresh := by
    intro key n b ps h pid
    cases h
    exact ⟨Conn.new_quiet rfl rfl, nofun, nofun⟩

end Sample

open Sample

/-- The first client has also prepared a named statement, so its detach discards. The second one
    binds what it has parsed itself. -/
theorem unnamed_private_shared :
    ¬ ∃ (n : Nat) (s : Session Pg Unit) (lease : UpstreamLease Pg) (query : String),
      (system ([connect, connect] ++
        turns 0 ([client (.parse (some "s") "SELECT 1" []),
          client (.parse none "SELECT 2" []), client .sync] ++ reads 3) ++
        turns 1 [client (.parse none "SELECT 3" []),
          client (.bind none none), client .sync])).sessions[n]? = some s ∧
      s.lease = some lease ∧ (lease.conn.caughtUp (pg .sample)).unnamed = some query ∧
      s.toCore.latestUnnamed ≠ some query := by
  rintro ⟨n, s, lease, query, hs, hlease, hquery, hne⟩
  refine hne ((unnamed_private (env .transaction) Pg.unnamed (world .transaction) _
    (pg_inOrder _) (pg_unnamed rfl) (world_private .transaction) ?_).1 n s lease query hs
    hlease hquery)
  exact (Along.mono (fun _ _ h => System.Within.mono
      (fun _ hl => by rw [Launch.Plain.interceptor hl]; exact passive_none.steady)
      (fun _ _ h => h) (fun _ _ h => h) h) _ _
      (by decide : Along _ (System.Within Launch.Plain (Session.Neat _ Pg.unnamed)
        (Session.EndsInTime _)) _ _))

/-- One client parses the unnamed statement and is detached; the next one, which has parsed
    nothing, binds it with success. -/
theorem unnamed_leaks :
    ∃ s ∈ (system ([connect, connect] ++
        turns 0 ([client (.parse none "SELECT 1" []), client .sync] ++
          reads 2) ++
        turns 1 ([client (.bind none none), client .sync] ++
          reads 1))).sessions[1]?,
      (∃ lease ∈ s.lease, (lease.conn.caughtUp (pg .sample)).unnamed = some "SELECT 1") ∧
        s.toCore.latestUnnamed = none ∧ .sent false (.client 1 1) .bindComplete ∈ s.log := by
  decide

end Pgferry
