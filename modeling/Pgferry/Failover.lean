/-
  What clients can do to the health of the endpoints.

  An attach replays the session's parameters and named statements, and reports any failure of it
  as a failed connect of the endpoint. A named `Parse` is recorded when it is forwarded, before
  the server has answered, so a statement that the server rejects is replayed at every attach
  from then on: each attempt fails, two of them mark an endpoint dead for all sessions, and the
  session is ended. A startup parameter that the server rejects does the same at the start.

  Proved: `clients_spare_endpoints`. When the server takes what detached sessions would put on a
  connection, one-cycle clients report no failure to the router, no endpoint leaves `Alive` and no
  session is ended by a failed attach, for any number of sessions and every interleaving.
-/
import Pgferry.Parked
import Pgferry.Proxy
import Pgferry.Session.Routed

namespace Pgferry

open Loop

variable {σ : Type}

/-- The session has no interceptor or the router, and the server takes its startup parameters. -/
structure Launch.Served (u : Upstream σ) (status : σ → TransactionStatus)
    (l : Launch σ RouterState) : Prop where
  router : ∀ i ∈ l.interceptor, i = failoverRouter
  startup : ∀ name ∈ trackedStartupParameters, ∀ value,
    l.startup.lookup name = some value → u.Settable status name value

/-- When a detached session gets a message of its client, the server takes the parameters that
    the session has set and the statements that it has prepared. Sufficient: asked in every state
    at rest, not only in that of the connection which the pool gives out. -/
def Session.Replays {κ : Type} (u : Upstream σ) (status : σ → TransactionStatus)
    (named : σ → String → Prop) (s : Session σ κ) : Event → Prop
  | .client _ _ => s.lease = none →
      (∀ g ∈ s.gucOverrides.entries, u.Settable status g.1 g.2) ∧
        ∀ e ∈ s.registry.entries, u.Preparable status named e.2.1 e.2.2
  | _ => True

/-- One cycle at a time, no upstream failure, and a replay that the server takes. -/
structure Session.Serves (u : Upstream σ) (status : σ → TransactionStatus)
    (named : σ → String → Prop) (s : Session σ RouterState) (e : Event) : Prop where
  oneCycle : s.OneCycle u e
  noFailure : s.NoFailure e
  replays : s.Replays u status named e

theorem Session.Replays.welcome {κ : Type} {u : Upstream σ} {status : σ → TransactionStatus}
    {named : σ → String → Prop} {s : Session σ κ} {e : Event} (h : s.Replays u status named e)
    (hstart : ∀ name ∈ trackedStartupParameters, ∀ value,
      s.startupParameters.lookup name = some value → u.Settable status name value) :
    s.WelcomeAt u status named e := by
  cases e with
  | client m t => exact fun hlease => ⟨hstart, (h hlease).1, (h hlease).2⟩
  | _ => trivial

theorem Launch.Served.routed {u : Upstream σ} {status : σ → TransactionStatus}
    {l : Launch σ RouterState} (h : l.Served u status) {s : Session σ RouterState}
    (hs : s.interceptor = l.interceptor) : s.Routed RouterState.Unharmed := by
  intro i hi
  rw [hs] at hi
  rw [h.router i hi]
  exact failoverRouter_routes

theorem Launch.Served.passive {u : Upstream σ} {status : σ → TransactionStatus}
    {l : Launch σ RouterState} (h : l.Served u status) : Passive l.interceptor := by
  intro i hi ctx
  rw [h.router i hi]
  exact ⟨fun _ => rfl, fun _ => rfl⟩

theorem Launch.Served.opensNone {u : Upstream σ} {status : σ → TransactionStatus}
    {l : Launch σ RouterState} (h : l.Served u status) : l.OpensNone u status := by
  refine ⟨h.passive, ?_⟩
  rintro sql ⟨input, request, ⟨i, hi, ctx, hq⟩, _⟩
  rw [h.router i hi] at hq
  have hforward : Action.forward = .scatter request := hq
  cases hforward

/-! ## Acts -/

namespace Proxy

/-- The act ends a session with `send_attach_fatal`. -/
def refuses {κ : Type} (env : Env σ) (y : Proxy σ κ) : Act σ κ → Bool
  | .connect l => ((y.handed.accept (l.handed y.state)).new.start env).ended.isSome
  | .event n e =>
      match y.handed.sessions[n]? with
      | some s => s.ended.isNone && { s with world := y.system.world }.refused env e
      | none => false
  | _ => false

/-- The act reports no failure, leaves every endpoint alive and ends no session for want of a
    connection. -/
structure Spares (env : Env σ) (y : Proxy σ RouterState) (a : Act σ RouterState) : Prop where
  unharmed : (y.act env a).state.Unharmed
  attached : y.refuses env a = false

/-- The invariant: the pools are clean and no failure was ever reported. -/
structure Intact (u : Upstream σ) (status : σ → TransactionStatus) (named : σ → String → Prop)
    (y : Proxy σ RouterState) : Prop where
  holds : y.system.Holds (CleanPool u status named) (Launch.Served u status)
    fun _ c => c.Truthful u status ∧ c.Flagged u named NamesStatement
  supplies : y.system.world.Supplies
  unharmed : y.state.Unharmed

/-- The state that a session hands back. -/
theorem returned_unharmed {y : System σ RouterState} {n : Nat} {s : Session σ RouterState}
    {state : RouterState} (hs : y.sessions[n]? = some s) (hsound : s.Sound RouterState.Unharmed)
    (h : state.Unharmed) : (returned y state (some n)).Unharmed := by
  unfold returned
  rw [Option.bind_some, hs, Option.bind_some]
  cases hh : s.hooks with
  | none => exact h
  | some k => exact hsound.state k hh

section Acts

variable {env : Env σ} {status : σ → TransactionStatus} {named : σ → String → Prop}
  {y : Proxy σ RouterState}

/-- A session that is handed an unharmed state is sound. -/
theorem handed_sound (hw : y.system.world.Supplies) (hr : y.state.Unharmed)
    {n : Nat} {s : Session σ RouterState} (hs : y.handed.sessions[n]? = some s) :
    { s with world := y.system.world }.Sound RouterState.Unharmed := by
  refine ⟨hw, fun k hk => ?_⟩
  have hs' : (y.system.sessions.map fun s => s.handed y.state)[n]? = some s := hs
  rw [List.getElem?_map] at hs'
  obtain ⟨s₀, _, rfl⟩ := Option.map_eq_some_iff.mp hs'
  obtain ⟨k₀, _, rfl⟩ := Option.map_eq_some_iff.mp hk
  exact hr

theorem keeps (hu : env.upstream.InOrder) (hr : env.upstream.Reports status)
    (hn : env.upstream.Names named) :
    System.Keeps env (CleanPool env.upstream status named) (Launch.Served env.upstream status)
      (Session.Serves env.upstream status named) (Session.EndsInTime env.upstream)
      (fun _ c => c.Truthful env.upstream status ∧
        c.Flagged env.upstream named NamesStatement) := by
  have hboth := (System.truthful_keeps (κ := RouterState) hu hr).and
    (System.flagged_keeps hu hn fun m x ⟨q, t, h⟩ => by rw [h]; nofun)
  exact hboth.restrict (fun _ _ _ h => ⟨h.router, h.startup⟩)
    (fun _ h => ⟨h.opensNone, h.passive.steady⟩) (fun _ _ h => h.oneCycle)

variable (hu : env.upstream.InOrder) (hr : env.upstream.Reports status)
  (hn : env.upstream.Names named) (hsync : env.upstream.Syncs)
  (hroute : env.route.endpoints ≠ [])

include hu hr hn hsync hroute

theorem connect_spares (hy : y.Intact env.upstream status named) {l : Launch σ RouterState}
    (hl : (l.handed y.state).Served env.upstream status) :
    ((y.handed.accept (l.handed y.state)).new.start env).Sound RouterState.Unharmed ∧
      ((y.handed.accept (l.handed y.state)).new.start env).ended = none := by
  refine Session.start_sound hu hr hn hsync hroute (hl.routed rfl) ⟨hy.supplies, fun k hk => ?_⟩
    hy.holds.tidy ⟨hl.startup, nofun, nofun⟩ rfl
  obtain ⟨k₀, _, rfl⟩ := Option.map_eq_some_iff.mp hk
  exact hy.unharmed

theorem event_spares (hy : y.Intact env.upstream status named) {n : Nat} {e : Event}
    {s : Session σ RouterState} (hs : y.handed.sessions[n]? = some s)
    (hok : s.ended = none →
      { s with world := y.system.world }.Serves env.upstream status named e) :
    ({ s with world := y.system.world }.step env e).Sound RouterState.Unharmed ∧
      (s.ended = none → { s with world := y.system.world }.refused env e = false) := by
  have hsound := handed_sound hy.supplies hy.unharmed hs
  by_cases hend : s.ended = none
  · obtain ⟨_, l, hl, _, hint, hstart⟩ := (handed_holds hy.holds).sessions n s hs
    have hstep := Session.step_sound hu hr hn hsync hroute
      (s := { s with world := y.system.world }) (hl.routed hint) hsound hy.holds.tidy
      (hok hend).noFailure ((hok hend).replays.welcome (hstart ▸ hl.startup)) hend
    exact ⟨hstep.1, fun _ => hstep.2⟩
  · rw [Session.step_ended (s := { s with world := y.system.world }) hend]
    exact ⟨hsound, fun h => absurd h hend⟩

theorem spares_act (a : Act σ RouterState) (hy : y.Intact env.upstream status named)
    (ha : y.Within (Launch.Served env.upstream status)
      (Session.Serves env.upstream status named) (Session.EndsInTime env.upstream) a) :
    y.Spares env a ∧ (y.act env a).Intact env.upstream status named := by
  have hholds := holds_act (keeps hu hr hn) y a hy.holds ha
  suffices h : (y.act env a).state.Unharmed ∧ (y.act env a).system.world.Supplies ∧
      y.refuses env a = false from ⟨⟨h.1, h.2.2⟩, hholds, h.2.1, h.1⟩
  cases a with
  | connect l =>
      obtain ⟨hsound, hend⟩ := connect_spares hu hr hn hsync hroute hy ha
      refine ⟨returned_unharmed ?_ hsound hy.unharmed, hsound.supplies, ?_⟩
      · exact List.getElem?_concat_length
      · rw [refuses, hend]
        rfl
  | event n e =>
      cases hs : y.handed.sessions[n]? with
      | none =>
          have hact : y.handed.act env (.event n e) = y.handed :=
            System.onSession_none (fun s => s.step env e) hs
          refine ⟨?_, ?_, by rw [refuses, hs]⟩
          · show (returned (y.handed.act env (.event n e)) y.state (some n)).Unharmed
            rw [hact, returned, Option.bind_some, hs]
            exact hy.unharmed
          · show (y.handed.act env (.event n e)).world.Supplies
            rw [hact]
            exact hy.supplies
      | some s =>
          obtain ⟨hsound, hattached⟩ := event_spares hu hr hn hsync hroute hy hs (ha s hs)
          have hact := System.onSession_some (fun s => s.step env e) hs
          refine ⟨returned_unharmed ?_ hsound hy.unharmed, ?_, ?_⟩
          · show (y.handed.onSession n fun s => s.step env e).sessions[n]? = _
            rw [hact]
            exact List.getElem?_set_self (List.getElem?_eq_some_iff.mp hs).1
          · show (y.handed.onSession n fun s => s.step env e).world.Supplies
            rw [hact]
            exact hsound.supplies
          · rw [refuses, hs]
            dsimp only
            cases hend : s.ended with
            | none =>
                rw [Option.isNone_none, Bool.true_and]
                exact hattached hend
            | some r => rfl
  | finish n arrived =>
      refine ⟨hy.unharmed, ?_, rfl⟩
      show (y.handed.onSession n fun s => s.finish env arrived).world.Supplies
      cases hs : y.handed.sessions[n]? with
      | none =>
          rw [System.onSession_none _ hs]
          exact hy.supplies
      | some s =>
          rw [System.onSession_some _ hs]
          exact (Session.finish_sound (handed_sound hy.supplies hy.unharmed hs) arrived).supplies
  | tick elapsed => exact ⟨hy.unharmed, hy.supplies, rfl⟩
  | sweep key => exact ⟨hy.unharmed, hy.supplies, rfl⟩

end Acts

end Proxy

/-- Any number of sessions in any interleaving, with the router or without an interceptor. -/
theorem clients_spare_endpoints (env : Env σ) (status : σ → TransactionStatus)
    (named : σ → String → Prop) (world : World σ) (clock : Nat → Nat)
    (acts : List (Act σ RouterState)) (hu : env.upstream.InOrder)
    (hr : env.upstream.Reports status) (hn : env.upstream.Names named)
    (hsync : env.upstream.Syncs) (hroute : env.route.endpoints ≠ [])
    (hworld : world.Tidy (CleanPool env.upstream status named)) (hsupply : world.Supplies)
    (hrun : Along (Proxy.act env) (Proxy.Within (Launch.Served env.upstream status)
      (Session.Serves env.upstream status named) (Session.EndsInTime env.upstream))
      (Proxy.init world (.fromEndpoints env.route.endpoints clock)) acts) :
    Along (Proxy.act env) (Proxy.Spares env)
      (Proxy.init world (.fromEndpoints env.route.endpoints clock)) acts := by
  have hinit : (Proxy.init world (.fromEndpoints env.route.endpoints clock)).Intact env.upstream
      status named :=
    ⟨⟨hworld, fun _ _ h => by cases h⟩, hsupply, RouterState.fromEndpoints_unharmed _ _⟩
  exact Along.of_inv (fun y a hy ha => Proxy.spares_act hu hr hn hsync hroute a hy ha) _ acts
    hinit hrun

/-! ## The sample server -/

theorem pg_syncs (d : Dialect) : (pg d).Syncs := by
  intro b _ hcopy
  have hcopy' : b.copying = false := hcopy
  have hsync : (pg d).respond b .sync =
      ({ b with skipping := false }, [.readyForQuery b.status]) := by
    simp [pg, Pg.respond, hcopy', Pg.process]
  rw [hsync]
  refine ⟨fun x hx => ?_, by simp [pg, hcopy']⟩
  cases List.mem_singleton.mp hx
  rfl

/-- The statement succeeds outside a transaction. -/
def Effect.succeeds : Effect → Bool
  | .rows | .begin | .commit | .set _ _ => true
  | .discardAll | .copyIn | .fail | .reject => false

theorem pg_settable {d : Dialect} {name value : String}
    (h : (d.effect (setSql name value)).succeeds = true) :
    (pg d).Settable Pg.status name value := by
  intro b _ hcopy hidle
  have hcopy' : b.copying = false := hcopy
  generalize he : d.effect (setSql name value) = e at h
  cases e <;> simp [Effect.succeeds] at h <;>
    simp [pg, Pg.respond, hcopy', Pg.process, he, Pg.execute, hidle, Upstream.fails,
      BackendMessage.isError, BackendMessage.isForeign]

theorem pg_preparable {d : Dialect} {query : String} (h : d.effect query ≠ .reject)
    (typeOids : List Nat) : (pg d).Preparable Pg.status Pg.named query typeOids := by
  intro b name _ hcopy _ hfree
  have hcopy' : b.copying = false := hcopy
  have hfree' : ¬ (name ≠ "" ∧ name ∈ (b.release name).statements) := by
    rintro ⟨hname, hmem⟩
    rw [Pg.release, if_neg hname] at hmem
    exact hfree ⟨hname, hmem⟩
  have hrespond : (pg d).respond b (.parse (some name) query typeOids) =
      if b.skipping then (b, []) else Pg.extended d b (.parse (some name) query typeOids) := by
    simp [pg, Pg.respond, hcopy', Pg.process]
  have hextended : Pg.extended d b (.parse (some name) query typeOids) =
      ({ b.release name with
          statements := (b.release name).statements.insert name (query, typeOids) },
        [.parseComplete]) := by
    unfold Pg.extended
    dsimp only
    rw [Option.getD_some, if_neg h, if_neg hfree']
  rw [hrespond, hextended]
  split
  · exact ⟨List.forall_mem_nil _, hcopy⟩
  · refine ⟨fun x hx => ?_, hcopy⟩
    cases List.mem_singleton.mp hx
    rfl

namespace Sample

/-- The small deployment with the router. -/
def failover (mode : PoolMode) (acts : List (Act Pg RouterState)) : Proxy Pg RouterState :=
  run (Proxy.act (env mode))
    (Proxy.init (world mode) (.fromEndpoints (env mode).route.endpoints fun _ => 0)) acts

/-- A client connects; `routed` says whether there is a router. -/
def enter (mode : PoolMode) (routed : Bool) : Act Pg RouterState :=
  .connect {
    id := 0
    sends := 100
    world := world mode
    params := { user := "u", database := none }
    startup := ∅
    hooks := if routed then
        some (SessionHooks.new failoverRouter (.fromEndpoints [] fun _ => 0))
      else none }

/-- What the server of the small deployment takes, as a check of the texts. -/
def welcomes (s : Session Pg RouterState) : Event → Prop
  | .client _ _ => s.lease.isNone = true →
      (∀ g ∈ s.gucOverrides.entries, (Dialect.sample.effect (setSql g.1 g.2)).succeeds = true) ∧
        ∀ e ∈ s.registry.entries, Dialect.sample.effect e.2.1 ≠ .reject
  | _ => True

instance (s : Session Pg RouterState) : ∀ e, Decidable (welcomes s e)
  | .client _ _ => inferInstanceAs (Decidable (_ → _))
  | .clientGone | .upstream | .upstreamClosed | .upstreamError _ | .cancel | .shutdown =>
      isTrue trivial

/-- A client that prepares a statement and sets a parameter. -/
def tidyClient : List Event :=
  prepare ++ [client (.query "SET application_name = 'a'")] ++ reads 3 ++
    [client (.bind none (some "s")), client .sync] ++ reads 2

/-- A client that prepares a statement with a typing error in it. -/
def typo : List Event :=
  [client (.parse (some "s") "SELEC 1" []), client .sync] ++ reads 2

end Sample

open Sample

/-- Both kinds of sessions on one connection: statements and parameters are replayed. -/
theorem clients_spare_endpoints_replay :
    Along (Proxy.act (env .transaction)) (Proxy.Spares (env .transaction))
      (Proxy.init (world .transaction)
        (.fromEndpoints (env .transaction).route.endpoints fun _ => 0))
      (enter .transaction true :: enter .transaction false ::
        (tidyClient.map (.event 0) ++ tidyClient.map (.event 1))) := by
  have hserved : ∀ routed ok ends y, Proxy.Within (Launch.Served (pg .sample) Pg.status) ok ends y
      (enter .transaction routed) := by
    intro routed ok ends y
    refine ⟨fun i hi => ?_, fun name _ value h => ?_⟩
    · cases routed <;> simp [Launch.interceptor, Launch.handed, SessionHooks.new] at hi
      exact hi.symm
    · rw [show (Launch.handed _ y.state).startup = ∅ from rfl, AList.lookup_empty] at h
      cases h
  refine clients_spare_endpoints (env .transaction) Pg.status Pg.named
    (world .transaction) _ _ (pg_inOrder _) (pg_reports Dialect.sample_standard)
    (pg_names (by decide)) (pg_syncs _) (by decide)
    ((world_idle .transaction).and (world_bare .transaction))
    (fun _ _ => ⟨_, rfl⟩) ⟨hserved true _ _ _, hserved false _ _ _, ?_⟩
  refine Along.mono (fun y a h => System.Within.mono (fun _ hl => False.elim hl)
    (fun s e hok => ?_) (fun _ _ h => h) h) _ _ (by decide : Along _ (Proxy.Within
      (fun _ => False) (fun s e => s.OneCycle (pg .sample) e ∧ s.NoFailure e ∧ welcomes s e)
      (Session.EndsInTime (pg .sample))) _ _)
  refine ⟨hok.1, hok.2.1, ?_⟩
  cases e with
  | client m t =>
      intro hlease
      obtain ⟨hgucs, hreg⟩ := hok.2.2 (Option.isNone_iff_eq_none.mpr hlease)
      exact ⟨fun g hg => pg_settable (hgucs g hg), fun x hx => pg_preparable (hreg x hx) _⟩
  | _ => trivial

/-- A client prepares a statement that the server rejects. At its next message every attempt to
    attach fails: with the router both endpoints are dead, for all sessions, and with or without
    it the session is ended. -/
theorem clients_fail_endpoints :
    Along (Proxy.act (env .transaction)) (Proxy.Within (fun _ => True)
        (fun s e => s.OneCycle (pg .sample) e ∧ s.NoFailure e) (fun _ _ => True))
      (Proxy.init (world .transaction)
        (.fromEndpoints (env .transaction).route.endpoints fun _ => 0))
      (enter .transaction true :: (typo ++ [client (.query "SELECT 1")]).map
        (.event 0)) ∧
    ¬ (failover .transaction
        (enter .transaction true :: typo.map (.event 0))).Spares
        (env .transaction) (.event 0 (client (.query "SELECT 1"))) ∧
    (∀ id ∈ ["a", "b"], (failover .transaction (enter .transaction true ::
        (typo ++ [client (.query "SELECT 1")]).map (.event 0))).state.group.isAlive 0
          id = false) ∧
    (failover .transaction
        (enter .transaction false :: typo.map (.event 0))).refuses
        (env .transaction) (.event 0 (client (.query "SELECT 1"))) = true := by
  refine ⟨by decide, fun h => ?_, by decide, by decide⟩
  exact absurd h.unharmed.errors (by decide)

end Pgferry
