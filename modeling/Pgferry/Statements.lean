/-
  Statements and the pools.

  A detach skips `DISCARD ALL` unless `lease_dirty` is set. The flag is raised when a named `Parse`
  is forwarded and when an attach replays the registry, so a connection with a named statement is
  never detached clean. A dirty detach is only as good as the reply that it reads: on a connection
  whose replies are shifted by one (a session end whose drain was late) the answer to `DISCARD ALL`
  is not the one that is read, and the statement stays.

  `acc b x` reads `x` off a server, something that only a `Parse` brings (`adds`). A connection is
  `Bare` when its server has nothing of the kind.

  Proved: `parked_nameless`. When session ends drain in time, no parked connection has a named
  statement that a `Parse` created, for any number of one-cycle sessions and every interleaving.
-/
import Pgferry.Accrual
import Pgferry.Parked

namespace Pgferry

open Loop

variable {σ κ α : Type}

/-! ## Pooled connections -/

/-- What `Parse` messages bring to a server, and `DISCARD ALL` drops if it succeeds. -/
structure Upstream.Prepares (u : Upstream σ) (acc : σ → α → Prop)
    (adds : FrontendMessage → α → Prop) : Prop where
  accrues : Accrues u acc adds
  parse : ∀ m x, adds m x → ∃ name query typeOids, m = .parse name query typeOids
  discard : ∀ b, (∀ x ∈ (u.respond b (.query "DISCARD ALL")).2, x.isError = false) →
    ∀ x, ¬ acc (u.respond b (.query "DISCARD ALL")).1 x

/-- The server has nothing of the kind, nor will have once it has processed what was fed. -/
def Conn.Bare (acc : σ → α → Prop) (adds : FrontendMessage → α → Prop) (c : Conn σ) : Prop :=
  c.Limited acc adds fun _ => False

def BarePool (u : Upstream σ) (acc : σ → α → Prop) (adds : FrontendMessage → α → Prop)
    (_ : PoolKey) (c : Conn σ) : Prop :=
  c.Quiet u ∧ c.Bare acc adds

section Pools

variable {u : Upstream σ} {acc : σ → α → Prop} {adds : FrontendMessage → α → Prop}
  {c c' : Conn σ} {key : PoolKey} (hu : u.InOrder) (hn : u.Prepares acc adds)

include hn

theorem Upstream.Prepares.upkeep {m : FrontendMessage} (h : m.Upkeep) {x : α} (hx : adds m x) :
    False := by
  obtain ⟨name, query, typeOids, rfl⟩ := hn.parse m x hx
  cases h

theorem Upstream.Prepares.cleans : Cleans u (Conn.Bare acc adds) :=
  hn.accrues.cleans fun _ hm _ hx => hn.upkeep hm hx

/-- A leg brings nothing. -/
theorem Upstream.Prepares.collect (h : c.Bare acc adds) (sql : String) :
    (runQueryCollect u c sql).conn.Bare acc adds := by
  refine Conn.Limited.collect hn.accrues h fun x hx => ?_
  obtain ⟨name, query, typeOids, hm⟩ := hn.parse _ x hx
  cases hm

include hu

/-- A `DISCARD ALL` that succeeds on a quiet connection. -/
theorem bare_discarded (h : c.Quiet u) (hd : c.simpleQuery u "DISCARD ALL" = .ok c') :
    BarePool u acc adds key c' := by
  have hq := Conn.simpleQuery_quiet hu h hd
  obtain ⟨hb, hclean⟩ := Conn.simpleQuery_clean hu h hd
  refine ⟨hq, fun x hx => ?_, fun m hm => ?_⟩
  · rw [hb] at hx
    exact hn.discard _ hclean x hx
  · rw [hq.outbox] at hm
    cases hm

theorem bare_probe : ProbeKeeps u (BarePool u acc adds) :=
  fun _ c c' h hp => ⟨(quiet_exchanges hu).sync c c' h.1 hp, hn.cleans.sync c c' h.2 hp⟩

theorem bare_baseline : BaselineKeeps u (BarePool u acc adds) :=
  fun key c c' h hs => ⟨quiet_baseline hu key c c' h.1 hs, hn.cleans.sanitize h.2 hs⟩

theorem bare_leg (startup : Params) (sql : String) :
    LegKeeps u (BarePool u acc adds) startup sql := by
  intro key base c c' hbase hsync hb hd
  refine ⟨quiet_leg hu startup sql key base c c' hbase.1 hsync hb hd, ?_⟩
  exact hn.cleans.discardIfDirty (hn.collect (hn.cleans.syncParameters hbase.2 hsync) sql) hd

/-- What a session end returns, if the drain was in time. -/
theorem bare_sanitize {hygiene : Hygiene} {arrived : Nat} (ht : c.Tame u)
    (hd : c.pending u ≠ 0 → drainsInTime u c hygiene arrived = true)
    (hs : sanitize u c hygiene arrived = .ok c') : BarePool u acc adds key c' := by
  obtain ⟨c₂, hq, -, hdiscard⟩ := sanitize_discards hu ht hd hs
  exact bare_discarded hu hn hq hdiscard

end Pools

/-! ## The flag of a session -/

namespace Core

/-- A lease whose flag is down is bare. -/
def Flags (acc : σ → α → Prop) (adds : FrontendMessage → α → Prop) (c : Core σ) : Prop :=
  ∀ lease, c.lease = some lease → c.leaseDirty = false → lease.conn.Bare acc adds

section Steps

variable {env : Env σ} {i : Option (Interceptor κ)} {s : Session σ κ} {c d : Core σ}
  {acc : σ → α → Prop} {adds : FrontendMessage → α → Prop}

theorem flags_of_none (h : c.lease = none) : c.Flags acc adds :=
  fun lease hl => by rw [h] at hl; cases hl

theorem Flags.congr (h : c.Flags acc adds) (hl : d.lease = c.lease) (hc : d.carried = c.carried) :
    d.Flags acc adds := by
  have hdirty : d.leaseDirty = c.leaseDirty := congrArg Prod.fst hc
  exact fun lease hlease hd => h lease (hl ▸ hlease) (hdirty ▸ hd)

theorem readNext_flags {tm : Bool} {o : Origin} {m : BackendMessage}
    (h : c.readNext tm = some (o, m, d)) (hc : c.Flags acc adds) : d.Flags acc adds := by
  obtain ⟨lease, rest, hl, _, _, hd, hdl⟩ := readNext_spec h
  intro l hl' hdirty
  cases hdl.symm.trans hl'
  have hdown : c.leaseDirty = false := by
    rw [hd] at hdirty
    have hbefore := track_dirty tm _ m hdirty
    exact hbefore
  exact (hc lease hl hdown).congr (by cases m <;> rfl) (by cases m <;> rfl)

/-- Before the raw hook: a lease whose flag is down is bare, and the message defines no named
    statement. -/
theorem enters_flags {m m' : FrontendMessage} (hn : env.upstream.Prepares acc adds)
    (hs : s.toCore.Flags acc adds)
    (h : Enters env i (BarePool env.upstream acc adds) s (s.toCore.recv m) m m' c) :
    c.Flags acc adds ∧ (c.leaseDirty = false → pendingParse m' = none) := by
  cases enters_taken h with
  | held lease hl hl' hc =>
      refine ⟨fun l hcl hd => ?_, fun hd => (register_clean hc hd).2⟩
      cases hl'.symm.trans hcl
      exact hs _ hl (register_clean hc hd).1
  | leased endpoint dirty₀ base lease dirty _ _ _ hbase hprep hl' hc =>
      refine ⟨fun l hcl hd => ?_, fun hd => (register_clean hc hd).2⟩
      cases hl'.symm.trans hcl
      -- The flag is down, so the registry was empty and nothing was replayed.
      have hempty := prepared_clean hprep (register_clean hc hd).1
      refine hn.cleans.preparedWith (fun c₂ h₂ hr => ?_) hbase.2 hprep
      unfold StatementRegistry.replay at hr
      rw [if_pos hempty] at hr
      cases hr
      exact h₂

theorem steps_flags {e : Event} (hn : env.upstream.Prepares acc adds) (hp : Steady i)
    (hadds : ∀ m x, adds m x → pendingParse m ≠ none) (hs : s.toCore.Flags acc adds)
    (h : Steps env i (BarePool env.upstream acc adds) s e d) : d.Flags acc adds := by
  cases steps_handles h with
  | same hl hc => exact hs.congr hl hc
  | closedName target name t _ _ _ hl hc => exact flags_of_none hl
  | dropped hl _ _ => exact flags_of_none hl
  | leg sql t lease request leg _ hsl _ _ hl hc =>
      have hdirty : d.leaseDirty = s.leaseDirty := congrArg Prod.fst hc
      intro l hl' hd
      cases hl.symm.trans hl'
      exact hn.collect (hs lease hsl (hdirty ▸ hd)) leg.sql
  | entered m m' t c _ hent hl hc =>
      rcases hl with hl | hl
      · exact (enters_flags hn hs hent).1.congr hl hc
      · exact flags_of_none hl
  | put m m' m'' t c lease _ hent hh hlease hl hc =>
      have hdirty : d.leaseDirty = c.leaseDirty := congrArg Prod.fst hc
      obtain rfl := hh.steady hp
      obtain ⟨hflags, hdown⟩ := enters_flags hn hs hent
      intro l hl' hd
      cases hl.symm.trans hl'
      rw [hdirty] at hd
      have hconn := hflags lease hlease hd
      have hm : ∀ x, adds m'' x → False := fun x hx => hadds m'' x hx (hdown hd)
      show Conn.Limited acc adds _ (if _ then _ else _)
      split
      · exact hconn.send hn.accrues _ hm
      · exact hconn.feed _ hm
  | read o m c _ hread hl hc => exact (readNext_flags hread hs).congr hl hc
  | detached o m c _ _ hl _ => exact flags_of_none hl
  | cancelled _ hl hc =>
      have hdirty : d.leaseDirty = s.leaseDirty := congrArg Prod.fst hc
      intro l hl' hd
      rw [hl] at hl'
      obtain ⟨lease, hlease, rfl⟩ := Option.map_eq_some_iff.mp hl'
      exact (hs lease hlease (hdirty ▸ hd)).cancel hn.accrues

end Steps

/-- The flag of a calm session. -/
structure Flagged (u : Upstream σ) (acc : σ → α → Prop) (adds : FrontendMessage → α → Prop)
    (c : Core σ) : Prop where
  calm : c.Calm u
  flags : c.Flags acc adds

section Stable

variable {env : Env σ} {i : Option (Interceptor κ)} {acc : σ → α → Prop}
  {adds : FrontendMessage → α → Prop} (hu : env.upstream.InOrder)
  (hn : env.upstream.Prepares acc adds)

include hu hn

/-- What such a session detaches is bare, with or without a `DISCARD ALL`. -/
theorem flagged_releases {s : Session σ κ} (hp : Steady i)
    (hs : s.toCore.Flagged env.upstream acc adds) :
    Session.Releases env i (BarePool env.upstream acc adds) s := by
  intro o m m' m'' c lease conn hr hshown hh hm _ _ hlease hd
  have hq := (readNext_calm hr hs.calm).2 (hshown.ready.symm.trans (hh.steady hp hm)) lease hlease
  unfold discardIfDirty at hd
  split at hd
  case isTrue => exact bare_discarded hu hn hq hd
  case isFalse hdirty =>
    cases hd
    exact ⟨hq, readNext_flags hr hs.flags lease hlease (Bool.not_eq_true _ ▸ hdirty)⟩

theorem flagged_stable {startup : Params} (hp : Steady i)
    (hadds : ∀ m x, adds m x → pendingParse m ≠ none) :
    Session.Stable env i startup (BarePool env.upstream acc adds)
      (Session.OneCycle env.upstream) (Flagged env.upstream acc adds) where
  probe := bare_probe hu hn
  leg := fun sql _ => bare_leg hu hn startup sql
  releases := fun _ hs _ _ => flagged_releases hu hn hp hs.inv
  step := fun _ _ _ hs _ hone h =>
    ⟨steps_calm hu hp hs.inv.calm hone (h.mono fun _ _ hc => hc.1),
      steps_flags hn hp hadds hs.inv.flags h⟩

end Stable

end Core

section Systems

variable {env : Env σ} {acc : σ → α → Prop} {adds : FrontendMessage → α → Prop}
  (hu : env.upstream.InOrder) (hn : env.upstream.Prepares acc adds)

include hu hn

/-- The lease with which the pump starts is bare: nothing is replayed yet. -/
theorem Launch.start_bare {l : Launch σ κ} (ht : l.world.Tidy (BarePool env.upstream acc adds))
    {lease : UpstreamLease σ} (hlease : (l.new.start env).lease = some lease) :
    lease.conn.Bare acc adds := by
  obtain ⟨_, _, _, hbase, hprep⟩ :=
    l.start_leases (bare_probe hu hn) (bare_baseline hu hn) ht hlease
  refine hn.cleans.preparedWith (fun c₂ h₂ hr => ?_) hbase.2 hprep
  cases hr
  exact h₂

theorem Launch.start_flagged {l : Launch σ κ}
    (ht : l.world.Tidy (BarePool env.upstream acc adds)) :
    Session.Holds l.interceptor l.startup (BarePool env.upstream acc adds)
      (Core.Flagged env.upstream acc adds) (l.new.start env) := by
  obtain ⟨hk, _⟩ : l.new.Kept (BarePool env.upstream acc adds) (l.new.start env) ∧ _ :=
    Session.start_spec (bare_probe hu hn) (bare_baseline hu hn) ht
  exact ⟨⟨(l.start_calm hu (ht.mono fun _ _ hc => hc.1)).inv,
    fun lease hl _ => l.start_bare hu hn ht hl⟩, hk.tidy, hk.interceptor, hk.startup⟩

theorem Session.finish_flagged {s : Session σ κ} {arrived : Nat}
    (hc : s.toCore.Flagged env.upstream acc adds)
    (ht : s.world.Tidy (BarePool env.upstream acc adds))
    (he : s.EndsInTime env.upstream arrived) :
    (s.finish env arrived).world.Tidy (BarePool env.upstream acc adds) ∧
      (s.finish env arrived).toCore.Flagged env.upstream acc adds := by
  refine ⟨finish_tidy ht fun lease conn hend hlease hsan => ?_, ?_⟩
  · exact bare_sanitize hu hn (hc.calm.tame lease hlease) (he hend lease hlease) hsan
  · rcases s.finish_core env arrived with h | h <;> rw [h]
    · exact hc
    · exact ⟨Core.calm_of_none rfl, Core.flags_of_none rfl⟩

theorem System.flagged_keeps (hadds : ∀ m x, adds m x → pendingParse m ≠ none) :
    System.Keeps (κ := κ) env (BarePool env.upstream acc adds)
      (fun l => Steady l.interceptor) (Session.OneCycle env.upstream)
      (Session.EndsInTime env.upstream) (fun _ => Core.Flagged env.upstream acc adds) where
  anywhere := fun _ _ _ h => h
  start := fun l _ ht => l.start_flagged hu hn ht
  stable := fun _ hl => Core.flagged_stable hu hn hl hadds
  finish := fun _ _ _ hc ht he => Session.finish_flagged hu hn hc ht he

end Systems

/-! ## Named statements -/

/-- A `Parse` of the named statement `name`. -/
def NamesStatement (m : FrontendMessage) (name : String) : Prop :=
  ∃ query typeOids, pendingParse m = some (name, query, typeOids)

/-- `named` lists the statements that `Parse` messages have created. -/
abbrev Upstream.Names (u : Upstream σ) (named : σ → String → Prop) : Prop :=
  u.Prepares named NamesStatement

/-! ## The sample server -/

namespace Pg

variable {d : Dialect} {name : String}

theorem execute_statements (b : Pg) (e : Effect) (h : name ∈ (execute d b e).1.statements) :
    name ∈ b.statements := by
  unfold execute at h
  split at h
  · exact h
  · cases e with
    | discardAll =>
        dsimp only at h
        split at h
        · exact h
        · exact absurd h (AList.notMem_empty name)
    | _ => exact h

theorem release_statements (b : Pg) (key : String) (h : name ∈ (b.release key).statements) :
    name ∈ b.statements := by
  have h' : name ∈ if key = "" then b.statements.erase key else b.statements := h
  split at h'
  · exact (AList.mem_erase.mp h').2
  · exact h'

theorem extended_statements (b : Pg) (m : FrontendMessage) (hname : name ≠ "")
    (h : name ∈ (extended d b m).1.statements) : name ∈ b.statements ∨ NamesStatement m name := by
  cases m with
  | parse stmt query typeOids =>
      unfold extended at h
      dsimp only at h
      split at h
      · exact .inl (release_statements b _ h)
      · split at h
        · exact .inl (release_statements b _ h)
        · rcases (AList.mem_insert _).mp h with rfl | h
          · cases stmt with
            | none => exact absurd rfl hname
            | some n => exact .inr ⟨query, typeOids, if_neg hname⟩
          · exact .inl (release_statements b _ h)
  | bind portal stmt =>
      simp only [extended] at h
      split at h <;> exact .inl h
  | describe target stmt =>
      cases target <;> simp only [extended] at h <;> split at h <;> exact .inl h
  | execute portal =>
      unfold extended at h
      dsimp only at h
      split at h
      · exact .inl h
      · exact .inl (execute_statements b _ h)
  | close target stmt =>
      cases target with
      | statement => exact .inl (AList.mem_erase.mp h).2
      | portal => exact .inl h
  | _ => exact .inl h

theorem process_statements (b : Pg) (m : FrontendMessage) (hname : name ≠ "")
    (h : name ∈ (process d b m).1.statements) : name ∈ b.statements ∨ NamesStatement m name := by
  unfold process at h
  split at h
  · dsimp only at h
    split at h
    · exact .inl h
    · have hb := execute_statements _ _ h
      exact .inl hb
  · exact .inl h
  · split at h
    · exact .inl h
    · exact extended_statements b _ hname h

theorem respond_statements (b : Pg) (m : FrontendMessage) (hname : name ≠ "")
    (h : name ∈ (respond d b m).1.statements) : name ∈ b.statements ∨ NamesStatement m name := by
  unfold respond at h
  split at h
  · split at h
    · exact .inl h
    · exact .inl h
    · exact .inl h
    · exact .inl h
    · dsimp only at h
      split at h
      · exact .inl h
      · exact process_statements b.failed _ hname h
  · exact process_statements b m hname h

/-- A `DISCARD ALL` that is answered without an error has dropped every statement. -/
theorem discard_statements (hd : d.effect "DISCARD ALL" = .discardAll) (b : Pg)
    (h : ∀ x ∈ (respond d b (.query "DISCARD ALL")).2, x.isError = false) :
    (respond d b (.query "DISCARD ALL")).1.statements = ∅ := by
  unfold respond at h ⊢
  split at h
  case isTrue => exact absurd (h _ List.mem_cons_self) (by decide)
  case isFalse hcopy =>
    rw [if_neg hcopy]
    simp only [process, execute, hd] at h ⊢
    by_cases hidle : b.status = .idle
    · simp [hidle]
    · cases hst : b.status <;> simp [hst, error, BackendMessage.isError] at h hidle

/-- The named statements. -/
def named (b : Pg) (name : String) : Prop := name ≠ "" ∧ name ∈ b.statements

instance (b : Pg) (name : String) : Decidable (b.named name) :=
  inferInstanceAs (Decidable (_ ∧ _))

end Pg

theorem pg_names {d : Dialect} (hd : d.effect "DISCARD ALL" = .discardAll) :
    (pg d).Names Pg.named where
  accrues :=
    { respond := fun b m name h =>
        (Pg.respond_statements b m h.1 h.2).imp (fun hb => ⟨h.1, hb⟩) fun hm => hm
      interrupt := by
        rintro b name ⟨hname, h⟩
        refine ⟨hname, ?_⟩
        have h' : name ∈ (Pg.interrupt b).1.statements := h
        unfold Pg.interrupt at h'
        split at h' <;> exact h' }
  parse := by
    rintro m name ⟨query, typeOids, hm⟩
    cases m <;> first
      | exact ⟨_, _, _, rfl⟩
      | cases hm
  discard := by
    rintro b h name ⟨_, hmem⟩
    have hempty := Pg.discard_statements hd b h
    have hmem' : name ∈ (Pg.respond d b (.query "DISCARD ALL")).1.statements := hmem
    rw [hempty] at hmem'
    exact AList.notMem_empty name hmem'

open Sample

/-- The servers of the small deployment start without statements. -/
theorem Sample.world_bare (mode : PoolMode) :
    (world mode).Tidy (BarePool (env mode).upstream Pg.named NamesStatement) where
  idle := nofun
  fresh := by
    intro key n b ps h pid
    cases h
    exact ⟨Conn.new_quiet rfl rfl, fun name hn => AList.notMem_empty name hn.2, nofun⟩

/-- Any number of sessions in any interleaving. -/
theorem parked_nameless (env : Env σ) (named : σ → String → Prop) (world : World σ)
    (acts : List (Act σ κ)) (hu : env.upstream.InOrder) (hn : env.upstream.Names named)
    (hworld : world.Tidy (BarePool env.upstream named NamesStatement))
    (hrun : Along (System.act env) (System.Within (fun l => Steady l.interceptor)
      (Session.OneCycle env.upstream) (Session.EndsInTime env.upstream)) (System.init world)
      acts) :
    ∀ key, ∀ p ∈ ((run (System.act env) (System.init world) acts).world.pools key).idle,
      ∀ name, ¬ named (env.upstream.answer p.conn.backend p.conn.outbox).1 name := by
  have hadds : ∀ m name, NamesStatement m name → pendingParse m ≠ none := by
    rintro m name ⟨query, typeOids, hm⟩ hnone
    cases hm.symm.trans hnone
  have h := (System.flagged_keeps hu hn hadds).run world acts hworld hrun
  intro key p hp name hname
  obtain ⟨_, hbare⟩ : BarePool env.upstream named NamesStatement key p.conn := h.tidy.idle key p hp
  rcases hn.accrues.answer _ _ hname with hb | ⟨m, hm, hadd⟩
  · exact hbare.backend name hb
  · exact hbare.outbox m hm name hadd

/-- A client that prepares a statement, detaches, uses it again and leaves. -/
theorem parked_nameless_prepared :
    ¬ ∃ key, ∃ p ∈ ((system ([connect] ++
        turns 0 ([client (.parse (some "s") "SELECT 1" []), client .sync] ++
          reads 2 ++ [client (.bind none (some "s")),
            client (.execute none), client .sync, .clientGone]) ++
        [.finish 0 3])).world.pools key).idle,
      ∃ name, Pg.named ((pg .sample).answer p.conn.backend p.conn.outbox).1 name := by
  rintro ⟨key, p, hp, name, hname⟩
  refine parked_nameless (env .transaction) Pg.named (world .transaction) _
    (pg_inOrder _) (pg_names rfl) (world_bare .transaction) ?_ key p hp name hname
  exact
    (Along.mono (fun _ _ h => System.Within.mono
      (fun _ hl => by rw [Launch.Plain.interceptor hl]; exact passive_none.steady)
      (fun _ _ h => h) (fun _ _ h => h) h) _ _
      (by decide : Along _ (System.Within Launch.Plain (Session.OneCycle _)
        (Session.EndsInTime _)) _ _))

/-- Two late drains leave a connection whose answers are read two cycles late. The third session
    prepares a statement, opens a transaction and is detached inside it; the `DISCARD ALL` fails
    there, and what `simple_query` reads is the answer to the `DISCARD ALL` of the first session. -/
theorem parked_named :
    ∃ p ∈ ((system ([connect, connect, connect] ++
        turns 0 [client (.query "SELECT 1"), .clientGone] ++ [.finish 0 0] ++
        turns 1 [client (.query "SELECT 1"), .clientGone] ++ [.finish 1 0] ++
        turns 2 ([client (.parse (some "s") "BEGIN" []),
          client (.bind none (some "s")), client (.execute none),
          client .sync] ++ reads 1))).world.pools ⟨"main", "a", "u", none⟩).idle,
      Pg.named ((pg .sample).answer p.conn.backend p.conn.outbox).1 "s" := by
  decide

end Pgferry
