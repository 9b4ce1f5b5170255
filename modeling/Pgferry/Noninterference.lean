/-
  Parameters and the other sessions.

  In transaction mode sessions share connections. What parameters a session finds on the connection
  that it gets should be its own business: those it has seen reported to it and those of its startup
  message, over the initial values of the server. The same goes for the parameters that a new client
  is told.

  This fails when a connection goes back with the startup parameters of a session on it. The attach
  sets them without raising `lease_dirty`, so a session that changes nothing else leaves them behind
  (`Core.Restores`, `Fair`).

  Proved: `parameters_isolated`. In transaction mode, after any two histories in which no session
  leaves its startup parameters behind, a session finds the same parameters and a new client is told
  the same.
-/
import Pgferry.Parked
import Pgferry.Session.Tuned

namespace Pgferry

open Loop

variable {σ κ : Type} {values initial : σ → Values} {defaults : PoolKey → Values}

/-- The raw hooks keep the kinds of messages, and who scatters asks for the initial values. -/
structure Fair (defaults : PoolKey → Values) (i : Option (Interceptor κ)) (startup : Params) :
    Prop where
  steady : Steady i
  asks : (∃ sql, LegText i sql) → ∀ key, AsksDefaults startup (defaults key)

/-! ## Shared pools -/

namespace System

/-- The pools hold neutral connections and were told neutral parameters. -/
structure Neutral (u : Upstream σ) (values initial : σ → Values) (defaults : PoolKey → Values)
    (y : System σ κ) : Prop where
  tidy : y.world.Tidy (NeutralPool u values initial defaults)
  snaps : y.world.Snaps (NeutralPool u values initial defaults)
  sessions : ∀ s ∈ y.sessions, Fair defaults s.interceptor s.startupParameters ∧
    s.toCore.Tuned u values initial defaults s.startupParameters

section Acts

variable {env : Env σ} (htx : env.transactionMode = true) (hu : env.upstream.InOrder)
  (hp : env.upstream.Parameters values) (hr : env.upstream.Resets values initial)

/-- One session acts. -/
theorem Neutral.onSession {u : Upstream σ} {y : System σ κ}
    (hy : y.Neutral u values initial defaults) (n : Nat) {f : Session σ κ → Session σ κ}
    (hf : ∀ s, y.sessions[n]? = some s →
      (f { s with world := y.world }).world.Tidy (NeutralPool u values initial defaults) ∧
      (f { s with world := y.world }).world.Snaps (NeutralPool u values initial defaults) ∧
      (f { s with world := y.world }).interceptor = s.interceptor ∧
      (f { s with world := y.world }).startupParameters = s.startupParameters ∧
      (f { s with world := y.world }).toCore.Tuned u values initial defaults
        s.startupParameters) :
    (y.onSession n f).Neutral u values initial defaults := by
  cases hs : y.sessions[n]? with
  | none => rwa [onSession_none f hs]
  | some s =>
      obtain ⟨htidy, hsnaps, hint, hstart, htuned⟩ := hf s hs
      obtain ⟨hfair, -⟩ := hy.sessions s (List.mem_of_getElem? hs)
      rw [onSession_some f hs]
      refine ⟨htidy, hsnaps, fun t ht => ?_⟩
      rcases List.mem_or_eq_of_mem_set ht with ht | rfl
      · exact hy.sessions t ht
      · rw [hint, hstart]
        exact ⟨hfair, htuned⟩

include hu hp hr

theorem finish_tuned {s : Session σ κ} {arrived : Nat}
    (hc : s.toCore.Tuned env.upstream values initial defaults s.startupParameters)
    (ht : s.world.Tidy (NeutralPool env.upstream values initial defaults))
    (he : s.EndsInTime env.upstream arrived) :
    (s.finish env arrived).world.Tidy (NeutralPool env.upstream values initial defaults) ∧
      (s.finish env arrived).toCore.Tuned env.upstream values initial defaults
        s.startupParameters := by
  refine ⟨Session.finish_tidy ht fun lease conn hend hlease hsan => ?_, ?_⟩
  · have hlease' := hc.tunes lease hlease
    exact neutral_sanitize hu hp hr (hc.calm.tame lease hlease) hlease'.current hlease'.home
      (he hend lease hlease) hsan
  · rcases s.finish_core env arrived with h | h <;> rw [h]
    · exact hc
    · exact ⟨Core.calm_of_none rfl, Core.tunes_of_none rfl⟩

include htx

/-- A session starts without a lease. -/
theorem start_tuned {l : Launch σ κ}
    (ht : l.world.Tidy (NeutralPool env.upstream values initial defaults)) (startup : Params) :
    (l.new.start env).toCore.Tuned env.upstream values initial defaults startup := by
  obtain ⟨-, hstart⟩ : l.new.Kept (NeutralPool env.upstream values initial defaults)
      (l.new.start env) ∧ _ :=
    Session.start_spec (neutral_probe hu hp hr) (neutral_baseline hu hp hr) ht
  have hnone : (l.new.start env).lease = none := by
    generalize (l.new.start env).toCore = c at hstart
    cases hstart with
    | detached _ => rfl
    | refused dirty info es _ => rfl
    | attached c₁ hmode _ => exact absurd (hmode.symm.trans htx) (by decide)
  exact ⟨Core.calm_of_none hnone, Core.tunes_of_none hnone⟩

theorem Neutral.act (y : System σ κ) (a : Act σ κ)
    (hy : y.Neutral env.upstream values initial defaults)
    (ha : Within (fun l => Fair defaults l.interceptor l.startup)
      (Core.Restores env.upstream defaults) (Session.EndsInTime env.upstream) y a) :
    (y.act env a).Neutral env.upstream values initial defaults := by
  cases a with
  | connect l =>
      obtain ⟨hkept, -⟩ : (y.accept l).new.Kept (NeutralPool env.upstream values initial defaults)
          ((y.accept l).new.start env) ∧ _ :=
        Session.start_spec (neutral_probe hu hp hr) (neutral_baseline hu hp hr) hy.tidy
      refine ⟨hkept.tidy, hkept.snaps hy.snaps, fun s hs => ?_⟩
      rcases List.mem_append.mp hs with hs | hs
      · exact hy.sessions s hs
      · rw [List.mem_singleton.mp hs, hkept.interceptor, hkept.startup]
        exact ⟨ha, start_tuned htx hu hp hr (l := y.accept l) hy.tidy _⟩
  | event n e =>
      show (y.onSession n fun s => s.step env e).Neutral env.upstream values initial defaults
      refine hy.onSession n fun s hs => ?_
      obtain ⟨hfair, htuned⟩ := hy.sessions s (List.mem_of_getElem? hs)
      have hstable : Session.Stable env s.interceptor s.startupParameters _ _ _ :=
        Core.tuned_stable htx hu hp hr hfair.steady hfair.asks
      have hholds : Session.Holds s.interceptor s.startupParameters _ _
          { s with world := y.world } := ⟨htuned, hy.tidy, rfl, rfl⟩
      have hmove := hstable.move { s with world := y.world } (.own e) hholds (ha s hs)
      refine ⟨hmove.tidy, ?_, hmove.interceptor, hmove.startup, hmove.inv⟩
      by_cases hlive : s.ended = none
      · exact (hstable.steps hholds hlive (ha s hs hlive)).2.snaps hy.snaps
      · rw [Session.step_ended (s := { s with world := y.world }) hlive]
        exact hy.snaps
  | finish n arrived =>
      show (y.onSession n fun s => s.finish env arrived).Neutral env.upstream values initial
        defaults
      refine hy.onSession n fun s hs => ?_
      obtain ⟨hfair, htuned⟩ := hy.sessions s (List.mem_of_getElem? hs)
      obtain ⟨htidy, hdone⟩ := finish_tuned (s := { s with world := y.world }) hu hp hr htuned
        hy.tidy (ha s hs)
      refine ⟨htidy, hy.snaps.congr (Session.finish_snapshots env _ arrived), ?_, ?_, hdone⟩
      · unfold Session.finish
        split <;> rfl
      · unfold Session.finish
        split <;> rfl
  | tick elapsed => exact ⟨⟨hy.tidy.idle, hy.tidy.fresh⟩, hy.snaps, hy.sessions⟩
  | sweep key =>
      have hswept : (y.world.modify key fun p => p.sweep y.world.now).Tidy
          (NeutralPool env.upstream values initial defaults) :=
        hy.tidy.modify key fun p hp => hy.tidy.idle key p (List.mem_of_mem_filter hp)
      have hkept : (y.world.modify key fun p => p.sweep y.world.now).snapshots =
          y.world.snapshots := World.modify_snapshots y.world key _ fun _ => rfl
      exact ⟨hswept, hy.snaps.congr hkept, hy.sessions⟩

end Acts

end System

/-! ## What a session finds -/

/-- The parameters of a connection that a session gets, on the server and in the cache, and those
    that a new client is told, are the same in both worlds, for the same pool, startup parameters
    and reports to the session. -/
structure World.Alike (κ : Type) (env : Env σ) (values : σ → Values) (w₁ w₂ : World σ) :
    Prop where
  attached : ∀ (s₁ s₂ : Session σ κ) (hint₁ hint₂ : Option String)
    (lease₁ lease₂ : UpstreamLease σ),
    s₁.world = w₁ → s₂.world = w₂ → s₁.lease = none → s₂.lease = none →
    s₁.startupParameters = s₂.startupParameters → s₁.gucOverrides = s₂.gucOverrides →
    (s₁.ensureAttached env hint₁).2 = true → (s₁.ensureAttached env hint₁).1.lease = some lease₁ →
    (s₂.ensureAttached env hint₂).2 = true → (s₂.ensureAttached env hint₂).1.lease = some lease₂ →
    lease₁.pool = lease₂.pool →
    lease₁.conn.parameter = lease₂.conn.parameter ∧
      values lease₁.conn.backend = values lease₂.conn.backend
  told : ∀ key params₁ params₂, (w₁.baselineParams env.upstream key).2 = .ok params₁ →
    (w₂.baselineParams env.upstream key).2 = .ok params₂ → valuesIn params₁ = valuesIn params₂

section Finds

variable {env : Env σ} (hu : env.upstream.InOrder) (hp : env.upstream.Parameters values)
  (hr : env.upstream.Resets values initial)

include hu hp hr

/-- What the session finds is what it brings, over the initial values. -/
theorem attached_inForce {s : Session σ κ} {sqlHint : Option String} {lease : UpstreamLease σ}
    (ht : s.world.Tidy (NeutralPool env.upstream values initial defaults)) (hfree : s.lease = none)
    (hattached : (s.ensureAttached env sqlHint).2 = true)
    (hlease : (s.ensureAttached env sqlHint).1.lease = some lease) :
    lease.conn.parameter = inForce s.gucOverrides s.startupParameters (defaults lease.pool) ∧
      values lease.conn.backend = lease.conn.parameter := by
  have hprobe : ProbeKeeps env.upstream (NeutralPool env.upstream values initial defaults) :=
    neutral_probe hu hp hr
  obtain ⟨lease', hacquires⟩ := Session.ensureAttached_acquires hfree hattached
  cases hacquires.held.symm.trans hlease
  obtain ⟨w, base, hreturns, hout, _, _, hprep⟩ := hacquires.world
  have hbase : NeutralPool env.upstream values initial defaults lease.pool base :=
    (((hreturns.tidy hprobe ht).checkout hprobe lease.pool).2 _ (by rw [hout])).2
  obtain ⟨hlevel, hvalues⟩ := prepared_level hu hp hbase.level hprep
  refine ⟨?_, hlevel.cached.symm⟩
  rw [hvalues, hbase.parameters]

/-- What a new client is told are the initial values. -/
theorem baselineParams_defaults {w : World σ}
    (ht : w.Tidy (NeutralPool env.upstream values initial defaults))
    (hs : w.Snaps (NeutralPool env.upstream values initial defaults)) {key : PoolKey}
    {params : Params} (h : (w.baselineParams env.upstream key).2 = .ok params) :
    valuesIn params = defaults key := by
  unfold World.baselineParams at h
  split at h
  case h_1 taken hsnap =>
    cases h
    obtain ⟨c, hc, rfl⟩ := hs key params hsnap
    exact hc.parameters
  case h_2 =>
    have hout := (ht.checkout (neutral_probe hu hp hr) key).2
    split at h
    case h_1 => cases h
    case h_2 w' lease heq =>
      cases h
      rw [heq] at hout
      exact (hout lease rfl).2.parameters

/-- Neutral pools are alike. -/
theorem World.alike_of_neutral {w₁ w₂ : World σ}
    (ht₁ : w₁.Tidy (NeutralPool env.upstream values initial defaults))
    (ht₂ : w₂.Tidy (NeutralPool env.upstream values initial defaults))
    (hs₁ : w₁.Snaps (NeutralPool env.upstream values initial defaults))
    (hs₂ : w₂.Snaps (NeutralPool env.upstream values initial defaults)) :
    w₁.Alike κ env values w₂ where
  attached := by
    rintro s₁ s₂ hint₁ hint₂ lease₁ lease₂ rfl rfl hfree₁ hfree₂ hstartup hgucs hok₁ hlease₁ hok₂
      hlease₂ hpool
    obtain ⟨hvalues₁, hserver₁⟩ := attached_inForce hu hp hr ht₁ hfree₁ hok₁ hlease₁
    obtain ⟨hvalues₂, hserver₂⟩ := attached_inForce hu hp hr ht₂ hfree₂ hok₂ hlease₂
    have hsame : lease₁.conn.parameter = lease₂.conn.parameter := by
      rw [hvalues₁, hvalues₂, hstartup, hgucs, hpool]
    exact ⟨hsame, by rw [hserver₁, hserver₂, hsame]⟩
  told := by
    intro key params₁ params₂ h₁ h₂
    rw [baselineParams_defaults hu hp hr ht₁ hs₁ h₁, baselineParams_defaults hu hp hr ht₂ hs₂ h₂]

end Finds

/-- Any two histories of sessions in transaction mode, from the same servers. -/
theorem parameters_isolated (env : Env σ) (values initial : σ → Values)
    (defaults : PoolKey → Values) (world : World σ) (acts₁ acts₂ : List (Act σ κ))
    (htx : env.transactionMode = true) (hu : env.upstream.InOrder)
    (hp : env.upstream.Parameters values) (hr : env.upstream.Resets values initial)
    (hworld : world.Tidy (NeutralPool env.upstream values initial defaults))
    (htold : world.Snaps (NeutralPool env.upstream values initial defaults))
    (hrun₁ : Along (System.act env) (System.Within
      (fun l => Fair defaults l.interceptor l.startup) (Core.Restores env.upstream defaults)
      (Session.EndsInTime env.upstream)) (System.init world) acts₁)
    (hrun₂ : Along (System.act env) (System.Within
      (fun l => Fair defaults l.interceptor l.startup) (Core.Restores env.upstream defaults)
      (Session.EndsInTime env.upstream)) (System.init world) acts₂) :
    World.Alike κ env values (run (System.act env) (System.init world) acts₁).world
      (run (System.act env) (System.init world) acts₂).world := by
  have hinit : (System.init world : System σ κ).Neutral env.upstream values initial defaults :=
    ⟨hworld, htold, List.forall_mem_nil _⟩
  have h₁ := run_inv (System.Neutral.act htx hu hp hr) _ acts₁ hinit hrun₁
  have h₂ := run_inv (System.Neutral.act htx hu hp hr) _ acts₂ hinit hrun₂
  exact World.alike_of_neutral hu hp hr h₁.tidy h₂.tidy h₁.snaps h₂.snaps

/-! ## A server that forgets

  It keeps parameters like `parameterServer`, starts without any and drops them at `DISCARD ALL`. -/

def resettingServer : Upstream Params where
  respond params
    | .query sql =>
        if sql = "DISCARD ALL" then
          (∅, params.keys.map (fun name => .parameterStatus name "") ++
            [.commandComplete "DISCARD ALL", .readyForQuery .idle])
        else parameterServer.respond params (.query sql)
    | m => parameterServer.respond params m
  interrupt params := (params, [])
  owed _ := 0
  copying _ := false

theorem setSql_ne_discard (name value : String) : setSql name value ≠ "DISCARD ALL" := by
  intro h
  have hset := decodeSet_setSql name value
  have hnone : decodeSet "DISCARD ALL" = none := by decide
  rw [h, hnone] at hset
  cases hset

/-- All else is up to `parameterServer`. -/
theorem resettingServer_query (params : Params) {sql : String} (h : sql ≠ "DISCARD ALL") :
    resettingServer.respond params (.query sql) = parameterServer.respond params (.query sql) := by
  unfold resettingServer
  exact if_neg h

/-- Reports that clear some parameters. -/
theorem reported_cleared (names : List String) (v : Values) :
    reported v (names.map fun name => .parameterStatus name "") =
      fun n => if n ∈ names then "" else v n := by
  induction names generalizing v with
  | nil => rfl
  | cons name names ih =>
      rw [List.map_cons, reported_cons, ih]
      funext n
      by_cases hmem : n ∈ names
      · rw [if_pos hmem, if_pos (List.mem_cons_of_mem _ hmem)]
      · rw [if_neg hmem]
        by_cases hn : n = name
        · rw [hn, if_pos List.mem_cons_self]
          exact Function.update_self _ _ _
        · rw [if_neg fun h => (List.mem_cons.mp h).elim hn hmem]
          exact Function.update_of_ne hn _ _

/-- What `DISCARD ALL` reports. -/
theorem discard_reported (params : Params) :
    reported (valuesIn params) (resettingServer.respond params (.query "DISCARD ALL")).2 =
      valuesIn ∅ := by
  show reported _ (params.keys.map _ ++ _) = _
  rw [reported_append, reported_cleared]
  funext n
  show (if n ∈ params.keys then "" else valuesIn params n) = ""
  split
  case isTrue => rfl
  case isFalse hn =>
    unfold valuesIn
    rw [AList.lookup_eq_none.mpr fun hmem => hn (AList.mem_keys.mp hmem)]
    rfl

theorem discard_readies (params : Params) :
    readies (params.keys.map fun name => BackendMessage.parameterStatus name "") = 0 := by
  refine readies_eq_zero fun m hm => ?_
  obtain ⟨name, -, rfl⟩ := List.mem_map.mp hm
  rfl

theorem resettingServer_inOrder : resettingServer.InOrder where
  respond_owed params m := by
    cases m with
    | query sql =>
        unfold resettingServer
        dsimp only
        split
        · show 0 + readies (_ ++ _) = _
          rw [readies_append, discard_readies]
          rfl
        · exact parameterServer_inOrder.respond_owed params (.query sql)
    | _ => rfl
  respond_last params m hm := by
    cases m with
    | query sql =>
        unfold resettingServer
        dsimp only
        split
        · show readies (List.dropLast (_ ++ _)) = 0
          rw [List.dropLast_append_of_ne_nil (List.cons_ne_nil _ _), readies_append,
            discard_readies]
          rfl
        · exact parameterServer_inOrder.respond_last params (.query sql) hm
    | _ => rfl
  respond_ready _ _ _ _ := rfl
  stray_copy params m hm _ := by
    cases m with
    | copyData | copyDone | copyFail => exact ⟨rfl, rfl⟩
    | _ => cases hm
  interrupt_owed _ := rfl
  interrupt_last _ := rfl
  interrupt_ready _ h := absurd rfl h
  interrupt_idle _ _ _ := ⟨rfl, rfl⟩

theorem resettingServer_parameters : resettingServer.Parameters valuesIn where
  announced params m := by
    cases m with
    | query sql =>
        by_cases hsql : sql = "DISCARD ALL"
        · subst hsql
          exact (discard_reported params).symm
        · rw [resettingServer_query params hsql]
          exact parameterServer_parameters.announced params (.query sql)
    | _ => rfl
  set params name value := by
    rw [resettingServer_query params (setSql_ne_discard name value)]
    exact parameterServer_parameters.set params name value
  parse _ _ _ _ := rfl
  sync _ := rfl

theorem resettingServer_resets : resettingServer.Resets valuesIn (fun _ => valuesIn ∅) where
  respond _ _ := rfl
  interrupt _ := rfl
  interrupted _ := rfl
  discard _ _ _ := rfl

namespace Sample

def resettingEnv : Env Params := { Sample.env .transaction with upstream := resettingServer }

/-- Every connect meets a server without parameters. -/
def resettingWorld : World Params where
  pools _ := Pool.new { mode := .transaction }
  now := 0
  dials := 0
  supply _ _ := .ok (∅, ∅)

theorem resettingWorld_neutral : resettingWorld.Tidy
    (NeutralPool resettingServer valuesIn (fun _ => valuesIn ∅) fun _ => valuesIn ∅) where
  idle := by simp [resettingWorld, Pool.new]
  fresh := by
    intro key n b params h pid
    cases h
    exact ⟨⟨Conn.new_quiet rfl rfl, rfl⟩, Conn.home_of_eq rfl, rfl⟩

theorem resettingWorld_snaps : resettingWorld.Snaps
    (NeutralPool resettingServer valuesIn (fun _ => valuesIn ∅) fun _ => valuesIn ∅) := by
  intro key params h
  cases h

/-- A client with the startup parameters `startup` connects. -/
def arrives (startup : Params) (i : Option (Interceptor Unit)) : Act Params Unit :=
  .connect {
    id := 0
    sends := 100
    world := resettingWorld
    params := { user := "u", database := none }
    startup := startup
    hooks := i.map fun i => SessionHooks.new i () }

/-- The pools after the acts. -/
def poolsAfter (acts : List (Act Params Unit)) : World Params :=
  (run (System.act resettingEnv) (System.init resettingWorld) acts).world

/-- The client that calls itself `a` sets a parameter and commits. -/
def sets : List (Act Params Unit) :=
  [arrives ((∅ : Params).insert "application_name" "a") none] ++
    ([client (.query (setSql "DateStyle" "ISO"))] ++ reads 3).map (.event 0)

end Sample

/-- A client that is detached with a `DISCARD ALL` leaves no trace. -/
theorem parameters_isolated_set :
    World.Alike Unit Sample.resettingEnv valuesIn (Sample.poolsAfter Sample.sets)
      (Sample.poolsAfter []) := by
  have hlegs : ∀ sql, ¬ LegText (none : Option (Interceptor Unit)) sql := by
    rintro sql ⟨input, request, ⟨h, hh, _⟩, _⟩
    cases hh
  refine parameters_isolated Sample.resettingEnv valuesIn (fun _ => valuesIn ∅)
    (fun _ => valuesIn ∅) Sample.resettingWorld Sample.sets [] rfl resettingServer_inOrder
    resettingServer_parameters resettingServer_resets Sample.resettingWorld_neutral
    Sample.resettingWorld_snaps ?_ trivial
  refine Along.mono (fun _ _ h => System.Within.mono (fun l hl => ?_) (fun s e hs => ?_)
    (fun _ _ h => h) h) _ _
    (by decide +kernel : Along (System.act Sample.resettingEnv) (System.Within Launch.Plain
      (fun s e => s.hooks.isNone = true ∧ s.OneCycle resettingServer e ∧
        s.LeavesDefaults (fun _ => valuesIn ∅) e) (Session.EndsInTime resettingServer))
      (System.init Sample.resettingWorld) Sample.sets)
  · rw [Launch.Plain.interceptor hl]
    exact ⟨passive_none.steady, fun h => absurd h.choose_spec (hlegs _)⟩
  · obtain ⟨hhooks, hcycle, hleaves⟩ := hs
    have hnone : s.interceptor = none := by
      rw [Session.interceptor, Option.isNone_iff_eq_none.mp hhooks]
      rfl
    refine ⟨hcycle, ?_, hleaves⟩
    cases e with
    | client m t =>
        cases m with
        | query text =>
            intro lease _ _ sql h
            rw [hnone] at h
            exact absurd h (hlegs sql)
        | _ => trivial
    | _ => trivial

/-- The value of `name` that a new client is told. -/
def World.tells (u : Upstream σ) (w : World σ) (key : PoolKey) (name : String) : Option String :=
  match (w.baselineParams u key).2 with
  | .ok params => some (valuesIn params name)
  | .error _ => none

theorem World.Alike.tells_eq {env : Env σ} {w₁ w₂ : World σ} (h : w₁.Alike κ env values w₂)
    {key : PoolKey} {name a b : String} (h₁ : w₁.tells env.upstream key name = some a)
    (h₂ : w₂.tells env.upstream key name = some b) : a = b := by
  unfold World.tells at h₁ h₂
  cases hp₁ : (w₁.baselineParams env.upstream key).2 with
  | error e =>
      rw [hp₁] at h₁
      cases h₁
  | ok params₁ =>
      cases hp₂ : (w₂.baselineParams env.upstream key).2 with
      | error e =>
          rw [hp₂] at h₂
          cases h₂
      | ok params₂ =>
          rw [hp₁] at h₁
          rw [hp₂] at h₂
          have hsame := congrFun (h.told key params₁ params₂ hp₁ hp₂) name
          rw [← Option.some.inj h₁, ← Option.some.inj h₂]
          exact hsame

namespace Sample

/-- The client that calls itself `a` asks one query. -/
def asks : List (Act Params Unit) :=
  [arrives ((∅ : Params).insert "application_name" "a") none] ++
    ([client (.query "SELECT 1")] ++ reads 2).map (.event 0)

/-- The query of the client that calls itself `a` is scattered. -/
def scatters : List (Act Params Unit) :=
  [arrives ((∅ : Params).insert "application_name" "a") (some (scattering "SELECT 1"))] ++
    [client (.query "SELECT 1")].map (.event 0)

/-- A scatter within a batch: one leg runs on the session's own connection and sets a parameter
    there. -/
def setsInLeg : List (Act Params Unit) :=
  [arrives ∅ (some (scattering (setSql "DateStyle" "ISO")))] ++
    ([client (.bind none none), client (.query "SELECT 1"), client .sync] ++ reads 1).map
      (.event 0)

end Sample

/-- What a session leaves behind: its startup parameters after a query and after a scatter, and what
    a leg has set on its own connection. -/
theorem parameters_interfere :
    ¬ World.Alike Unit Sample.resettingEnv valuesIn (Sample.poolsAfter Sample.asks)
        (Sample.poolsAfter []) ∧
      ¬ World.Alike Unit Sample.resettingEnv valuesIn (Sample.poolsAfter Sample.scatters)
        (Sample.poolsAfter []) ∧
      ¬ World.Alike Unit Sample.resettingEnv valuesIn (Sample.poolsAfter Sample.setsInLeg)
        (Sample.poolsAfter []) := by
  refine ⟨fun h => ?_, fun h => ?_, fun h => ?_⟩
  · have hleft : (Sample.poolsAfter Sample.asks).tells resettingServer ⟨"main", "a", "u", none⟩
        "application_name" = some "a" := by decide +kernel
    exact absurd (h.tells_eq hleft (b := "") (by decide +kernel)) (by decide)
  · have hleft : (Sample.poolsAfter Sample.scatters).tells resettingServer ⟨"main", "a", "u", none⟩
        "application_name" = some "a" := by decide +kernel
    exact absurd (h.tells_eq hleft (b := "") (by decide +kernel)) (by decide)
  · have hleft : (Sample.poolsAfter Sample.setsInLeg).tells resettingServer
        ⟨"main", "a", "u", none⟩ "DateStyle" = some "ISO" := by decide +kernel
    exact absurd (h.tells_eq hleft (b := "") (by decide +kernel)) (by decide)

end Pgferry
