/-
  The SQL that reaches an upstream.

  A text gets to a server in a message that the pump forwards, in the replay of the registry at an
  attach, in a scatter leg, or in one of the proxy's own statements. `on_query` is asked once for
  every `Query` and `Parse` that is neither swallowed nor answered locally, and the rest of the
  iteration works on the message as the hook has left it.

  `received` reads off a server the messages that it was sent. The pools are shared, so the texts
  that the other sessions send are a parameter (`Base`).

  Proved: `sql_mediated`. With an `on_frontend` that leaves messages alone, every text that a
  server of the session's lease or of the pools was sent, or that was fed to it, is one of the
  others', one of the proxy's own, the text of a scatter leg, or was forwarded by `on_query` in
  this run; so is every text of the registry, that is of every replay to come.
-/
import Pgferry.Accrual
import Pgferry.Session.Entries
import Pgferry.Session.Handles

namespace Pgferry

open Loop

variable {σ κ : Type}

/-- `received` lists the messages that a server was sent. -/
structure Upstream.Records (u : Upstream σ) (received : σ → List FrontendMessage) : Prop where
  respond : ∀ b m, received (u.respond b m).1 = received b ++ [m]
  interrupt : ∀ b, received (u.interrupt b).1 = received b

/-- The server in the state `b` was sent the text `sql`. -/
def Heard (received : σ → List FrontendMessage) (b : σ) (sql : String) : Prop :=
  ∃ m ∈ received b, cycleSqlOf m = some sql

/-- Every text that the connection's server was or will be sent is in `A`. -/
def SpokenPool (received : σ → List FrontendMessage) (A : String → Prop) (_ : PoolKey)
    (c : Conn σ) : Prop :=
  c.Limited (Heard received) (fun m sql => cycleSqlOf m = some sql) A

theorem Upstream.Records.accrues {u : Upstream σ} {received : σ → List FrontendMessage}
    (h : u.Records received) :
    Accrues u (Heard received) fun m sql => cycleSqlOf m = some sql where
  respond := by
    rintro b m sql ⟨n, hn, hsql⟩
    rw [h.respond] at hn
    rcases List.mem_append.mp hn with hn | hn
    · exact .inl ⟨n, hn, hsql⟩
    · cases List.mem_singleton.mp hn
      exact .inr hsql
  interrupt := by
    rintro b sql ⟨n, hn, hsql⟩
    exact ⟨n, h.interrupt b ▸ hn, hsql⟩

/-- The texts that the proxy sends for itself. -/
def OwnText (sql : String) : Prop :=
  sql = "ROLLBACK" ∨ sql = "DISCARD ALL" ∨ ∃ name value, sql = setSql name value

theorem FrontendMessage.Upkeep.ownText {m : FrontendMessage} (h : m.Upkeep) {sql : String}
    (hsql : cycleSqlOf m = some sql) : OwnText sql := by
  cases h with
  | sync => cases hsql
  | copyFail => cases hsql
  | rollback => cases hsql; exact .inl rfl
  | discard => cases hsql; exact .inr (.inl rfl)
  | set name value => cases hsql; exact .inr (.inr ⟨name, value, rfl⟩)

/-- `on_query` is asked about `m` and lets it pass as `m'`. -/
def Session.LetsPass (env : Env σ) (s : Session σ κ) (m m' : FrontendMessage) : Prop :=
  s.ended = none ∧ (s.toCore.recv m).Passes env.transactionMode m ∧ s.approves m = some m'

/-- At some point of the run `on_query` let a message with the text `sql` pass. -/
def Launch.Approved (env : Env σ) (l : Launch σ κ) (ms : List (Move σ)) (sql : String) : Prop :=
  ∃ ms₁ m t ms₂ m', ms = ms₁ ++ .own (.client m t) :: ms₂ ∧
    (l.after env ms₁).LetsPass env m m' ∧ cycleSqlOf m' = some sql

namespace Core

/-- The texts of the lease's connection are in `A` and those of the registry in `R`. -/
structure Spoken (received : σ → List FrontendMessage) (A R : String → Prop) (c : Core σ) :
    Prop where
  lease : ∀ lease, c.lease = some lease → SpokenPool received A lease.pool lease.conn
  registry : ∀ name p, c.registry.lookup name = some p → R p.1

section Steps

variable {received : σ → List FrontendMessage} {A R : String → Prop} {env : Env σ}
  {i : Option (Interceptor κ)} {s : Session σ κ} {c d : Core σ}

theorem pendingParse_text {m : FrontendMessage} {name query : String} {typeOids : List Nat}
    (h : pendingParse m = some (name, query, typeOids)) : cycleSqlOf m = some query := by
  obtain ⟨-, rfl⟩ := parse_of_pendingParse h
  rfl

theorem recordClose_lookup {registry : StatementRegistry} {name : Option String} {n : String}
    {p : String × List Nat} (h : (registry.recordClose name).lookup n = some p) :
    registry.lookup n = some p := by
  cases name with
  | none => exact h
  | some name =>
      have h' : (registry.erase name).lookup n = some p := h
      by_cases hn : n = name
      · subst hn
        rw [AList.lookup_erase] at h'
        cases h'
      · rwa [AList.lookup_erase_ne hn] at h'

/-- What is registered on the way to the raw hook. -/
theorem register_spoken {m' : FrontendMessage}
    (h : ∀ name p, c.registry.lookup name = some p → R p.1)
    (hm : ∀ sql, cycleSqlOf m' = some sql → R sql) :
    ∀ name p, (c.register (pendingParse m')).registry.lookup name = some p → R p.1 := by
  intro name p hp
  cases hpend : pendingParse m' with
  | none =>
      rw [hpend] at hp
      exact h name p hp
  | some q =>
      obtain ⟨n, query, typeOids⟩ := q
      rw [hpend] at hp
      have hp' : (c.registry.insert n (query, typeOids)).lookup name = some p := hp
      by_cases hn : name = n
      · subst hn
        rw [AList.lookup_insert] at hp'
        cases hp'
        exact hm query (pendingParse_text hpend)
      · rw [AList.lookup_insert_ne hn] at hp'
        exact h name p hp'

/-- What is sent and what is kept of the texts: nothing but `A` and `R`. -/
structure Texts (env : Env σ) (i : Option (Interceptor κ)) (received : σ → List FrontendMessage)
    (A R : String → Prop) : Prop where
  records : env.upstream.Records received
  unmodified : ∀ h ∈ i, ∀ ctx m, (h.onFrontend ctx m).2.1 = m
  own : ∀ sql, OwnText sql → A sql
  legs : ∀ sql, LegText i sql → A sql
  kept : ∀ sql, R sql → A sql

theorem Texts.cleans (h : Texts env i received A R) :
    Cleans env.upstream (Conn.Limited (Heard received) (fun m sql => cycleSqlOf m = some sql) A) :=
  h.records.accrues.cleans fun _ hm sql hsql => h.own sql (hm.ownText hsql)

theorem Texts.hooked (h : Texts env i received A R) {m m' : FrontendMessage} {action : Action}
    (hh : Hooked i m m' action) : m' = m := by
  rcases hh with ⟨_, rfl, _⟩ | ⟨k, hk, ctx, heq⟩
  · rfl
  · exact (congrArg Prod.fst heq).symm.trans (h.unmodified k hk ctx m)

/-- A registry whose texts are in `R` can be replayed. -/
theorem Texts.prepared (h : Texts env i received A R)
    (hreg : ∀ name p, c.registry.lookup name = some p → R p.1) {startup : Params}
    {dirty₀ dirty : Bool} {base conn : Conn σ} {key : PoolKey}
    (hbase : SpokenPool received A key base)
    (hp : Prepared env.upstream startup c dirty₀ base conn dirty) :
    SpokenPool received A key conn := by
  refine h.cleans.preparedWith (fun c₂ h₂ hr => ?_) hbase hp
  refine Conn.Limited.replay h.records.accrues h₂ (fun e he sql hsql => ?_) nofun hr
  cases hsql
  exact h.kept _ (hreg e.1 e.2 (AList.mem_lookup_iff.mpr he))

/-- The session on its way to the raw hook. -/
theorem enters_spoken {m m' : FrontendMessage} (ht : Texts env i received A R)
    (hs : s.toCore.Spoken received A R)
    (hm : ∀ sql, cycleSqlOf m' = some sql → R sql)
    (h : Enters env i (SpokenPool received A) s (s.toCore.recv m) m m' c) :
    c.Spoken received A R := by
  cases enters_taken h with
  | held lease hl hl' hc =>
      refine ⟨fun l hcl => ?_, ?_⟩
      · cases hl'.symm.trans hcl
        exact hs.lease _ hl
      · have hreg : c.registry = _ := congrArg (·.2.1) hc
        rw [hreg]
        exact register_spoken hs.registry hm
  | leased endpoint dirty₀ base lease dirty _ _ _ hbase hprep hl' hc =>
      refine ⟨fun l hcl => ?_, ?_⟩
      · cases hl'.symm.trans hcl
        exact ht.prepared hs.registry hbase hprep
      · have hreg : c.registry = _ := congrArg (·.2.1) hc
        rw [hreg]
        exact register_spoken (c := { s.toCore.recv m with leaseDirty := dirty }) hs.registry hm

theorem readNext_spoken {tm : Bool} {o : Origin} {m : BackendMessage}
    (h : c.readNext tm = some (o, m, d)) (hc : c.Spoken received A R) : d.Spoken received A R := by
  obtain ⟨lease, rest, hl, _, hf, _, hd⟩ := readNext_spec h
  refine ⟨fun l hl' => ?_, by rw [hf.registry]; exact hc.registry⟩
  cases hd.symm.trans hl'
  exact (hc.lease lease hl).congr (by cases m <;> rfl) (by cases m <;> rfl)

/-- What `on_query` lets pass in this iteration is in `R`. -/
def Approving (env : Env σ) (R : String → Prop) (s : Session σ κ) (e : Event) : Prop :=
  ∀ m t m', e = .client m t → s.LetsPass env m m' → ∀ sql, cycleSqlOf m' = some sql → R sql

theorem steps_spoken {e : Event} (ht : Texts env i received A R)
    (hs : s.toCore.Spoken received A R) (he : s.ended = none) (hok : Approving env R s e)
    (h : Steps env i (SpokenPool received A) s e d) : d.Spoken received A R := by
  have hpass : ∀ {m m' t c}, e = .client m t → Enters env i (SpokenPool received A) s
      (s.toCore.recv m) m m' c → ∀ sql, cycleSqlOf m' = some sql → R sql :=
    fun he' hent => hok _ _ _ he' ⟨he, hent.passes, hent.approved⟩
  have hreg : d.carried = s.toCore.carried → ∀ name p, d.registry.lookup name = some p → R p.1 := by
    intro hc
    have hr : d.registry = s.registry := congrArg (·.2.1) hc
    rw [hr]
    exact hs.registry
  have hnone : d.lease = none → ∀ lease, d.lease = some lease →
      SpokenPool received A lease.pool lease.conn := fun hn lease hl => by rw [hn] at hl; cases hl
  cases steps_handles h with
  | same hl hc => exact ⟨fun lease h => hs.lease lease (hl ▸ h), hreg hc⟩
  | closedName target name t _ _ _ hl hc =>
      have hr : d.registry = s.registry.recordClose name := congrArg (·.2.1) hc
      exact ⟨hnone hl, fun n p hp => hs.registry n p (recordClose_lookup (hr ▸ hp))⟩
  | dropped hl _ hc =>
      have hr : d.registry = s.registry := congrArg Prod.fst hc
      exact ⟨hnone hl, hr ▸ hs.registry⟩
  | leg sql t lease request leg _ hsl hleg hb hl hc =>
      refine ⟨fun l hl' => ?_, hreg hc⟩
      cases hl.symm.trans hl'
      refine Conn.Limited.collect ht.records.accrues (hs.lease lease hsl) fun x hx => ?_
      cases hx
      exact ht.legs _ hleg
  | entered m m' t c he' hent hl hc =>
      have hc' := enters_spoken ht hs (hpass he' hent) hent
      have hr : d.registry = c.registry := congrArg (·.2.1) hc
      refine ⟨?_, hr ▸ hc'.registry⟩
      rcases hl with hl | hl
      · exact fun lease h => hc'.lease lease (hl ▸ h)
      · exact hnone hl
  | put m m' m'' t c lease he' hent hh hlease hl hc =>
      have hc' := enters_spoken ht hs (hpass he' hent) hent
      have hr : d.registry = c.registry := congrArg (·.2.1) hc
      refine ⟨fun l hl' => ?_, hr ▸ hc'.registry⟩
      cases hl.symm.trans hl'
      obtain rfl := ht.hooked hh
      have hm : ∀ sql, cycleSqlOf m'' = some sql → A sql :=
        fun sql hsql => ht.kept sql (hpass he' hent sql hsql)
      have hconn := hc'.lease lease hlease
      show Conn.Limited _ _ A (if _ then _ else _)
      split
      · exact hconn.send ht.records.accrues _ hm
      · exact hconn.feed _ hm
  | read o m c _ hread hl hc =>
      have hc' := readNext_spoken hread hs
      have hr : d.registry = c.registry := congrArg (·.2.1) hc
      exact ⟨fun l hl' => hc'.lease l (hl ▸ hl'), hr ▸ hc'.registry⟩
  | detached o m c _ hread hl hc =>
      have hr : d.registry = c.registry := congrArg (·.2.1) hc
      exact ⟨hnone hl, hr ▸ (readNext_spoken hread hs).registry⟩
  | cancelled _ hl hc =>
      refine ⟨fun l hl' => ?_, hreg hc⟩
      rw [hl] at hl'
      obtain ⟨lease, hlease, rfl⟩ := Option.map_eq_some_iff.mp hl'
      exact (hs.lease lease hlease).cancel ht.records.accrues

theorem spoken_stable {startup : Params} (ht : Texts env i received A R) :
    Session.Stable env i startup (SpokenPool received A) (Approving env R)
      (Spoken received A R) where
  probe := fun _ c c' h hp => ht.cleans.sync c c' h hp
  leg := by
    intro sql hsql key base c c' hbase hsync hb hd
    have hleg : SpokenPool received A key (runQueryCollect env.upstream c sql).conn := by
      refine Conn.Limited.collect ht.records.accrues (ht.cleans.syncParameters hbase hsync)
        fun x hx => ?_
      cases hx
      exact ht.legs _ hsql
    exact ht.cleans.discardIfDirty hleg hd
  releases := by
    intro s hs _ _ o m m' m'' c lease conn hread _ _ _ _ _ hlease hd
    have hc : c.Spoken received A R := readNext_spoken hread hs.inv
    exact ht.cleans.discardIfDirty (hc.lease lease hlease) hd
  step := fun s e c hs he hok h => steps_spoken ht hs.inv he hok h

end Steps

end Core

section Run

variable {received : σ → List FrontendMessage} {A R : String → Prop} {env : Env σ}
  {l : Launch σ κ}

theorem Launch.start_spoken (ht : Core.Texts env l.interceptor received A R)
    (hw : l.world.Tidy (SpokenPool received A)) :
    Session.Holds l.interceptor l.startup (SpokenPool received A) (Core.Spoken received A R)
      (l.new.start env) := by
  obtain ⟨hk, hstart⟩ : l.new.Kept (SpokenPool received A) (l.new.start env) ∧ _ :=
    Session.start_spec (fun _ c c' h hp => ht.cleans.sync c c' h hp)
      (fun _ c c' h hs => ht.cleans.sanitize h hs) hw
  refine ⟨?_, hk.tidy, hk.interceptor, hk.startup⟩
  have hnew : l.new.toCore.Spoken received A R := ⟨nofun, nofun⟩
  generalize (l.new.start env).toCore = d at hstart
  cases hstart with
  | detached => exact hnew
  | refused => exact ⟨hnew.lease, hnew.registry⟩
  | attached c₁ _ h =>
      cases h with
      | held lease hl => cases hl
      | leased endpoint dirty₀ base lease dirty _ _ _ hbase hprep =>
          refine ⟨fun l' hl => ?_, hnew.registry⟩
          cases hl
          exact ht.prepared hnew.registry hbase hprep

end Run

/-- Where a text may come from: another session, the proxy, a leg of this session's scatters, or
    a message that `on_query` let pass. -/
def Launch.Accounted (env : Env σ) (l : Launch σ κ) (ms : List (Move σ)) (Base : String → Prop)
    (sql : String) : Prop :=
  Base sql ∨ OwnText sql ∨ LegText l.interceptor sql ∨ l.Approved env ms sql

/-- Every text is accounted for: on the lease, in the pools, also after the session's end, in the
    registry, and in what was forwarded. -/
theorem sql_mediated (env : Env σ) (received : σ → List FrontendMessage) (l : Launch σ κ)
    (ms : List (Move σ)) (Base : String → Prop) (hrec : env.upstream.Records received)
    (hfront : ∀ h ∈ l.interceptor, ∀ ctx m, (h.onFrontend ctx m).2.1 = m)
    (hworld : l.world.Tidy (SpokenPool received Base))
    (hrun : l.Runs env (SpokenPool received (l.Accounted env ms Base)) (fun _ _ => True) ms) :
    (∀ lease, (l.after env ms).lease = some lease →
      SpokenPool received (l.Accounted env ms Base) lease.pool lease.conn) ∧
    (l.after env ms).world.Tidy (SpokenPool received (l.Accounted env ms Base)) ∧
    (∀ arrived, ((l.after env ms).finish env arrived).world.Tidy
      (SpokenPool received (l.Accounted env ms Base))) ∧
    (∀ name p, (l.after env ms).registry.lookup name = some p → l.Approved env ms p.1) ∧
    ∀ pid seq m, .forwarded pid seq m ∈ (l.after env ms).log →
      ∃ ms₁ m₀ t ms₂, ms = ms₁ ++ .own (.client m₀ t) :: ms₂ ∧
        seq = (l.after env ms₁).seq + 1 ∧ (l.after env ms₁).LetsPass env m₀ m := by
  have ht : Core.Texts env l.interceptor received (l.Accounted env ms Base) (l.Approved env ms) :=
    ⟨hrec, hfront, fun _ h => .inr (.inl h), fun _ h => .inr (.inr (.inl h)),
      fun _ h => .inr (.inr (.inr h))⟩
  have hrun' : l.Runs env (SpokenPool received (l.Accounted env ms Base))
      (Core.Approving env (l.Approved env ms)) ms := by
    refine Along.positions hrun fun ms₁ m ms₂ hms hok => ?_
    cases m with
    | others world => exact hok
    | own e =>
        rintro _ m t m' rfl hpass sql hsql
        exact ⟨ms₁, m, t, ms₂, m', hms, hpass, hsql⟩
  have hworld' : l.world.Tidy (SpokenPool received (l.Accounted env ms Base)) :=
    ⟨fun key p hp => (hworld.idle key p hp).mono fun _ h => .inl h,
      fun key n b ps hs pid => (hworld.fresh key n b ps hs pid).mono fun _ h => .inl h⟩
  have hs := Launch.holds (Core.spoken_stable ht) (l.start_spoken ht hworld') hrun'
  refine ⟨hs.inv.lease, hs.tidy, fun arrived => ?_, hs.inv.registry, fun pid seq m hm => ?_⟩
  · exact Session.finish_tidy hs.tidy fun lease conn _ hl hsan =>
      ht.cleans.sanitize (hs.inv.lease lease hl) hsan
  · have hentries := Launch.log_rule (l := l) (Q := fun ms x => ∀ pid seq m,
        x = .forwarded pid seq m → ∃ ms₁ m₀ t ms₂, ms = ms₁ ++ .own (.client m₀ t) :: ms₂ ∧
          seq = (l.after env ms₁).seq + 1 ∧ (l.after env ms₁).LetsPass env m₀ m) ?_ ?_ ?_ hrun
    · exact hentries _ hm pid seq m rfl
    · intro x hx pid seq m heq
      rcases l.start_logged x hx with ⟨pid', endpoint, rfl⟩ | ⟨o, info, rfl⟩ <;> cases heq
    · intro ms₀ mv x hx pid seq m heq
      obtain ⟨ms₁, m₀, t, ms₂, hms, h⟩ := hx pid seq m heq
      exact ⟨ms₁, m₀, t, ms₂ ++ [mv], by rw [hms, List.append_assoc]; rfl, h⟩
    · intro ms₀ e _ he
      have hsteps : Steps env _ _ _ e ((l.after env ms₀).step env e).toCore :=
        Session.step_steps he
      obtain ⟨es, hes, hlogged⟩ := Core.steps_logged hsteps
      refine ⟨es, hes, fun x hx pid seq m heq => ?_⟩
      subst heq
      have hlog := hlogged _ hx
      rw [l.after_interceptor ms₀] at hlog
      cases hlog with
      | forwarded _ m₀ m' _ t he' hp ha hh =>
          cases ht.hooked hh
          exact ⟨ms₀, m₀, t, [], by rw [he'], rfl, he, hp, ha⟩

/-- The server with a record of the messages it was sent. -/
def Upstream.recorded (u : Upstream σ) : Upstream (σ × List FrontendMessage) where
  respond b m := (((u.respond b.1 m).1, b.2 ++ [m]), (u.respond b.1 m).2)
  interrupt b := (((u.interrupt b.1).1, b.2), (u.interrupt b.1).2)
  owed b := u.owed b.1
  copying b := u.copying b.1
  unexpected := u.unexpected

theorem Upstream.recorded_records (u : Upstream σ) : u.recorded.Records Prod.snd :=
  ⟨fun _ _ => rfl, fun _ => rfl⟩

namespace Sample

def recordedEnv (mode : PoolMode) : Env (Pg × List FrontendMessage) where
  upstream := (env mode).upstream.recorded
  route := (env mode).route
  poolConfig := (env mode).poolConfig

/-- An interceptor that denies the query `text`, and no other. -/
def denyingOn (text : String) : Interceptor Unit :=
  { Interceptor.noop Unit with
    onQuery := fun ctx cycle => (ctx, cycle, if cycle.sql = text then
      .deny { severity := "ERROR", code := "42501", message := "denied" } else .forward) }

def recordedLaunch (mode : PoolMode) (i : Interceptor Unit) :
    Launch (Pg × List FrontendMessage) Unit where
  id := 0
  sends := 100
  world := { pools := fun _ => Pool.new { mode := mode }, now := 0, dials := 0,
             supply := fun _ _ => .ok ((Pg.fresh .sample, []), Dialect.sample.defaults) }
  params := { user := "u", database := none }
  startup := ∅
  hooks := some (SessionHooks.new i ())

/-- Fresh servers were sent nothing. -/
theorem recordedLaunch_unspoken (mode : PoolMode) (i : Interceptor Unit) :
    (recordedLaunch mode i).world.Tidy (SpokenPool Prod.snd fun _ => False) where
  idle := nofun
  fresh := by
    intro key n b ps h pid
    cases h
    exact ⟨fun _ ⟨_, hm, _⟩ => absurd hm List.not_mem_nil, nofun⟩

end Sample

/-- A prepared statement, a denied query, and a replay. -/
theorem sql_mediated_denied :
    let l := Sample.recordedLaunch .transaction (Sample.denyingOn "DROP TABLE t")
    let ms := (Sample.prepare ++ [Sample.client (.query "DROP TABLE t"),
      Sample.client (.bind none (some "s"))]).map Move.own
    let s := l.after (Sample.recordedEnv .transaction) ms
    (s.lease.isSome = true ∧ s.registry.lookup "s" = some ("SELECT 1", [])) ∧
    ∀ lease, s.lease = some lease → SpokenPool Prod.snd
      (l.Accounted (Sample.recordedEnv .transaction) ms fun _ => False) lease.pool lease.conn := by
  refine ⟨by decide, (sql_mediated (Sample.recordedEnv .transaction) Prod.snd
    (Sample.recordedLaunch .transaction (Sample.denyingOn "DROP TABLE t")) _ (fun _ => False)
    (Upstream.recorded_records _) ?_ (Sample.recordedLaunch_unspoken _ _)
    (Session.along_own (Along.positions (along_true _ _) fun _ _ _ _ _ _ => trivial))).1⟩
  rintro h hmem ctx m
  cases hmem
  rfl

end Pgferry
