/-
  Runs of one session among others.

  A session takes its own iterations; between two of them the other sessions change the pools.
  A `Move` is either. What the others do is unknown except that the pools stay tidy (the rely
  condition `Within`), so a theorem about all runs of moves covers every interleaving.

  Proved: `Stable.run`, the rule for invariants of a session. It asks for one case analysis over
  `Steps` and for what the session itself puts back into the pools; `start_spec` gives the states
  in which the pump starts.
-/
import Pgferry.Pg
import Pgferry.Session.Refine

namespace Pgferry

open Loop Loop.Flow

variable {σ κ : Type}

/-- One step of the proxy as a session sees it. -/
inductive Move (σ : Type) where
  | own (e : Event)
  /-- The other sessions have left the pools as `world`. -/
  | others (world : World σ)

namespace Session

def move (env : Env σ) (s : Session σ κ) : Move σ → Session σ κ
  | .own e => s.step env e
  | .others world => { s with world := world }

/-- The side condition of a run: the others keep the pools tidy and every iteration of the live
    session meets `ok` in the state in which it is taken. -/
def Within (Φ : PoolKey → Conn σ → Prop) (ok : Session σ κ → Event → Prop) (s : Session σ κ) :
    Move σ → Prop
  | .own e => s.ended = none → ok s e
  | .others world => world.Tidy Φ

/-- The session `s` has the interceptor `i` and the startup parameters `startup`, its pools are
    tidy and its protocol state has `Inv`. -/
structure Holds (i : Option (Interceptor κ)) (startup : Params) (Φ : PoolKey → Conn σ → Prop)
    (Inv : Core σ → Prop) (s : Session σ κ) : Prop where
  inv : Inv s.toCore
  tidy : s.world.Tidy Φ
  interceptor : s.interceptor = i
  startup : s.startupParameters = startup

/-- `Inv` is kept by every iteration that meets `ok`, and what is released has `Φ`. -/
structure Stable (env : Env σ) (i : Option (Interceptor κ)) (startup : Params)
    (Φ : PoolKey → Conn σ → Prop) (ok : Session σ κ → Event → Prop) (Inv : Core σ → Prop) :
    Prop where
  probe : ProbeKeeps env.upstream Φ
  leg : ∀ sql, LegText i sql → LegKeeps env.upstream Φ startup sql
  releases : ∀ s, Holds i startup Φ Inv s → s.ended = none → ok s .upstream →
    Releases env i Φ s
  step : ∀ s e c, Holds i startup Φ Inv s → s.ended = none → ok s e → Steps env i Φ s e c → Inv c

section Stable

variable {env : Env σ} {i : Option (Interceptor κ)} {startup : Params}
  {Φ : PoolKey → Conn σ → Prop} {ok : Session σ κ → Event → Prop} {Inv : Core σ → Prop}

/-- An ended session stays as it is. -/
theorem step_ended {s : Session σ κ} {e : Event} (h : s.ended ≠ none) : s.step env e = s := by
  unfold step
  cases he : s.ended with
  | none => exact absurd he h
  | some r => rfl

/-- An iteration of the live session is one of `Steps`. -/
theorem Stable.steps (hst : Stable env i startup Φ ok Inv) {s : Session σ κ} {e : Event}
    (hs : Holds i startup Φ Inv s) (he : s.ended = none) (hok : ok s e) :
    Steps env i Φ s e (s.step env e).toCore ∧ s.Kept Φ (s.step env e) := by
  have hr := step_refines (e := e) hst.probe
    (by rw [hs.interceptor, hs.startup]; exact hst.leg) hs.tidy he (by
    rintro rfl
    rw [hs.interceptor]
    exact hst.releases s hs he hok)
  rw [hs.interceptor] at hr
  exact hr

theorem Stable.move (hst : Stable env i startup Φ ok Inv) (s : Session σ κ) (m : Move σ)
    (hs : Holds i startup Φ Inv s) (hm : Within Φ ok s m) :
    Holds i startup Φ Inv (s.move env m) := by
  cases m with
  | others world => exact ⟨hs.inv, hm, hs.interceptor, hs.startup⟩
  | own e =>
      by_cases he : s.ended = none
      · obtain ⟨hsteps, hk⟩ := hst.steps hs he (hm he)
        exact ⟨hst.step s e _ hs he (hm he) hsteps, hk.tidy,
          hk.interceptor.trans hs.interceptor, hk.startup.trans hs.startup⟩
      · rw [Session.move, step_ended he]
        exact hs

/-- The invariant rule for runs of one session among others. -/
theorem Stable.run (hst : Stable env i startup Φ ok Inv) (s : Session σ κ) (ms : List (Move σ))
    (hs : Holds i startup Φ Inv s) (ha : Along (Session.move env) (Within Φ ok) s ms) :
    Holds i startup Φ Inv (Loop.run (Session.move env) s ms) :=
  run_inv hst.move s ms hs ha

/-- A run of the session alone. -/
theorem along_own {s : Session σ κ} {es : List Event}
    (h : Along (Session.step env) (fun s e => s.ended = none → ok s e) s es) :
    Along (Session.move env) (Within Φ ok) s (es.map .own) := by
  induction es generalizing s with
  | nil => trivial
  | cons e es ih => exact ⟨h.1, ih h.2⟩

end Stable

/-! ## The start of a session -/

/-- The protocol states in which the pump starts, from `c`. -/
inductive Starts (env : Env σ) (Φ : PoolKey → Conn σ → Prop) (params : SessionParams)
    (startup : Params) (c : Core σ) : Core σ → Prop
  | detached (ht : env.transactionMode = true) : Starts env Φ params startup c c
  | refused (dirty : Bool) (info : ErrorInfo) (es : List Entry)
      (h : es <+: c.answers [.errorResponse info]) :
      Starts env Φ params startup c (({ c with leaseDirty := dirty }.emit es).stop .clientGone)
  | attached (c₁ : Core σ) (ht : env.transactionMode = false)
      (h : Attaches env Φ params startup c c₁) :
      Starts env Φ params startup c
        { c₁ with
          attached := true
          leaseDirty := false
          currentEndpoint := c₁.lease.map fun _ =>
            (env.route.endpoints.head?.map EndpointConfig.id).getD "" }

section Start

variable {env : Env σ} {Φ : PoolKey → Conn σ → Prop} {s : Session σ κ}

theorem baselineParams_tidy {u : Upstream σ} {w : World σ} (hu : ProbeKeeps u Φ)
    (hb : BaselineKeeps u Φ) (ht : w.Tidy Φ) (key : PoolKey) :
    (w.baselineParams u key).1.Tidy Φ := by
  unfold World.baselineParams
  split
  · exact ht
  · obtain ⟨htidy, hlease⟩ := ht.checkout hu key
    split
    case h_1 heq =>
      rw [heq] at htidy
      exact htidy
    case h_2 w' lease heq =>
      rw [heq] at htidy hlease
      obtain ⟨hpool, hc⟩ := hlease lease rfl
      exact htidy.checkin fun c h => hb _ _ _ (hpool ▸ hc) h

theorem baselineAttempts_spec (hu : ProbeKeeps env.upstream Φ)
    (hb : BaselineKeeps env.upstream Φ) (n : Nat) (s : Session σ κ) (ht : s.world.Tidy Φ) :
    s.Kept Φ (baselineAttempts env n s).1 ∧ (baselineAttempts env n s).1.toCore = s.toCore := by
  induction n generalizing s with
  | zero => exact ⟨.refl ht, rfl⟩
  | succ n ih =>
      have hroute := dispatchUpstream_beside env s none
      have hk := hroute.kept ht
      rw [baselineAttempts]
      generalize hs₁ : (s.dispatchUpstream env none).1 = s₁ at hroute hk
      dsimp only
      split
      case h_1 => exact ⟨hk, hroute.core⟩
      case h_2 endpoint _ =>
        have hk₁ : s.Kept Φ { s₁ with
            world :=
              (s₁.world.baselineParams env.upstream (env.poolKey s₁.params endpoint.id)).1 } :=
          ⟨hk.params, hk.startup, hk.interceptor, baselineParams_tidy hu hb hk.tidy _,
            fun hs => (hk.snaps hs).congr (s₁.world.baselineParams_snapshots _)⟩
        split
        case h_1 world params heq =>
          rw [heq] at hk₁
          have hcon := dispatchOnUpstreamConnected_beside { s₁ with world := world } endpoint.id
          exact ⟨hk₁.trans (hcon.kept hk₁.tidy), hcon.core.trans hroute.core⟩
        case h_2 world e heq =>
          rw [heq] at hk₁
          have hask := (dispatchOnUpstreamError_beside { s₁ with world := world }
            (.connect endpoint.id e)).1
          have hk₂ := hk₁.trans (hask.kept hk₁.tidy)
          have hc₂ := hask.core.trans hroute.core
          split
          · exact ⟨hk₂, hc₂⟩
          · obtain ⟨h1, h2⟩ := ih _ hk₂.tidy
            exact ⟨hk₂.trans h1, h2.trans hc₂⟩

theorem start_spec (hu : ProbeKeeps env.upstream Φ) (hb : BaselineKeeps env.upstream Φ)
    (ht : s.world.Tidy Φ) :
    s.Kept Φ (s.start env) ∧
      Starts env Φ s.params s.startupParameters s.toCore (s.start env).toCore := by
  unfold start
  split
  case isTrue hmode =>
    obtain ⟨hk, hc⟩ := baselineAttempts_spec hu hb (max (env.route.endpoints.length * 2) 2) s ht
    unfold baselineParamsRouted
    split
    case h_1 s₁ _ heq =>
      rw [heq] at hk hc
      exact ⟨hk, show Starts _ _ _ _ _ s₁.toCore from hc ▸ .detached hmode⟩
    case h_2 s₁ e heq =>
      rw [heq] at hk hc
      obtain ⟨info, es, hes, hf⟩ :=
        sendAttachFatal_spec s₁ ("pgferry: failed to connect to upstream: " ++ e)
      have hk₁ := hk.trans (hf.kept hk.tidy)
      refine ⟨⟨hk₁.params, hk₁.startup, hk₁.interceptor, hk₁.tidy, hk₁.snaps⟩, ?_⟩
      have hc₁ : s₁.toCore = s.toCore := hc
      have : { (s₁.sendAttachFatal ("pgferry: failed to connect to upstream: " ++ e)) with
          ended := some .clientGone }.toCore = (s.toCore.emit es).stop .clientGone := by
        show Core.stop _ _ = _
        rw [hf.core, hc₁]
      rw [this]
      rw [hc₁] at hes
      exact .refused s.leaseDirty info es hes
  case isFalse hmode =>
    have hspec := ensureAttached_spec hu none s ht
    split
    case h_1 s₁ heq =>
      rw [heq] at hspec
      refine ⟨⟨hspec.kept.params, hspec.kept.startup, hspec.kept.interceptor, hspec.kept.tidy,
        hspec.kept.snaps⟩, ?_⟩
      show Starts _ _ _ _ _ (s₁.toCore.stop .clientGone)
      have hf : AttachFails s.toCore s₁.toCore := hspec.fails rfl
      generalize s₁.toCore = d at hf
      cases hf with
      | intro dirty info es _ hes => exact .refused dirty info es hes
    case h_2 s₁ heq =>
      rw [heq] at hspec
      refine ⟨⟨hspec.kept.params, hspec.kept.startup, hspec.kept.interceptor, hspec.kept.tidy,
        hspec.kept.snaps⟩, ?_⟩
      exact .attached s₁.toCore (by simpa using hmode) (hspec.attaches rfl)

end Start

end Session

/-- The end of a session keeps the pools tidy when what `sanitize` returns has `Φ`. -/
theorem Session.finish_tidy {env : Env σ} {Φ : PoolKey → Conn σ → Prop} {s : Session σ κ}
    {arrived : Nat} (ht : s.world.Tidy Φ)
    (hc : ∀ lease conn, s.ended = some .clientGone → s.lease = some lease →
      sanitize env.upstream lease.conn s.hygiene arrived = .ok conn → Φ lease.pool conn) :
    (s.finish env arrived).world.Tidy Φ := by
  unfold Session.finish
  split
  case h_1 lease hend hlease =>
    exact ht.checkin fun conn hsan => hc lease conn hend hlease hsan
  case h_2 => exact ht.destroy _
  case h_3 => exact ht.abandon _
  case h_4 => exact ht

theorem Session.finish_snapshots (env : Env σ) (s : Session σ κ) (arrived : Nat) :
    (s.finish env arrived).world.snapshots = s.world.snapshots := by
  unfold Session.finish
  split
  · exact World.checkin_snapshots _ _ _ _
  · exact World.destroy_snapshots _ _
  · exact World.abandon_snapshots _ _
  · rfl

/-- The end takes the lease from a session and nothing else. -/
theorem Session.finish_core (env : Env σ) (s : Session σ κ) (arrived : Nat) :
    (s.finish env arrived).toCore = s.toCore ∨
      (s.finish env arrived).toCore = { s.toCore with lease := none } := by
  unfold Session.finish
  split
  · exact .inr rfl
  · exact .inr rfl
  · exact .inr rfl
  · exact .inl rfl

/-! ## Runs from the start -/

/-- What a session is started with. -/
structure Launch (σ κ : Type) where
  id : Nat
  sends : Nat
  world : World σ
  params : SessionParams
  startup : Params
  hooks : Option (SessionHooks κ)

namespace Launch

/-- The session before its initial attach. -/
def new (l : Launch σ κ) : Session σ κ :=
  Session.new l.id l.sends l.world l.params l.startup l.hooks

def interceptor (l : Launch σ κ) : Option (Interceptor κ) := l.hooks.map SessionHooks.interceptor

/-- The session after its start and the moves `ms`. -/
def after (env : Env σ) (l : Launch σ κ) (ms : List (Move σ)) : Session σ κ :=
  run (Session.move env) (l.new.start env) ms

/-- Every move of the run meets its side condition. -/
def Runs (env : Env σ) (l : Launch σ κ) (Φ : PoolKey → Conn σ → Prop)
    (ok : Session σ κ → Event → Prop) (ms : List (Move σ)) : Prop :=
  Along (Session.move env) (Session.Within Φ ok) (l.new.start env) ms

theorem Runs.mono {env : Env σ} {l : Launch σ κ} {Φ : PoolKey → Conn σ → Prop}
    {ok ok' : Session σ κ → Event → Prop} {ms : List (Move σ)} (h : ∀ s e, ok s e → ok' s e)
    (hrun : l.Runs env Φ ok ms) : l.Runs env Φ ok' ms := by
  refine Along.mono (fun s m hm => ?_) _ _ hrun
  cases m with
  | own e => exact fun he => h s e (hm he)
  | others world => exact hm

/-- The rule for invariants, from the start of the session. -/
theorem holds {env : Env σ} {l : Launch σ κ} {Φ : PoolKey → Conn σ → Prop}
    {ok : Session σ κ → Event → Prop} {Inv : Core σ → Prop} {ms : List (Move σ)}
    (hst : Session.Stable env l.interceptor l.startup Φ ok Inv)
    (hstart : Session.Holds l.interceptor l.startup Φ Inv (l.new.start env))
    (hrun : l.Runs env Φ ok ms) :
    Session.Holds l.interceptor l.startup Φ Inv (l.after env ms) :=
  hst.run _ ms hstart hrun

/-- A lease with which the pump starts was prepared for a session that carries nothing yet. -/
theorem start_leases {env : Env σ} {l : Launch σ κ} {Φ : PoolKey → Conn σ → Prop}
    (hp : ProbeKeeps env.upstream Φ) (hb : BaselineKeeps env.upstream Φ) (ht : l.world.Tidy Φ)
    {lease : UpstreamLease σ} (hlease : (l.new.start env).lease = some lease) :
    ∃ base dirty₀ dirty, Φ lease.pool base ∧
      Prepared env.upstream l.startup l.new.toCore dirty₀ base lease.conn dirty := by
  obtain ⟨_, hstart⟩ : l.new.Kept Φ (l.new.start env) ∧ _ := Session.start_spec hp hb ht
  have hnone : l.new.lease = none := rfl
  generalize (l.new.start env).toCore = d at hstart hlease
  cases hstart with
  | detached | refused => cases hnone.symm.trans hlease
  | attached c₁ _ h =>
      have hlease' : c₁.lease = some lease := hlease
      cases h with
      | held _ hl => cases hl
      | leased endpoint dirty₀ base _ dirty _ _ _ hbase hprep =>
          cases hlease'
          exact ⟨base, dirty₀, dirty, hbase, hprep⟩

end Launch

/-! ## A small deployment

  Two endpoints `a` and `b` of one route, for the concrete runs. -/

namespace Sample

def env (mode : PoolMode) : Env Pg where
  upstream := pg .sample
  route := {
    name := "main"
    endpoints := [
      { id := "a", upstream := "host-a:5432" }, { id := "b", upstream := "host-b:5432" }] }
  poolConfig := { mode := mode }

/-- Every connect succeeds. -/
def world (mode : PoolMode) : World Pg where
  pools _ := Pool.new { mode := mode }
  now := 0
  dials := 0
  supply _ _ := .ok (Pg.fresh .sample, Dialect.sample.defaults)

/-- A session of a patient client. -/
def launch (mode : PoolMode) (i : Option (Interceptor Unit)) : Launch Pg Unit where
  id := 0
  sends := 100
  world := world mode
  params := { user := "u", database := none }
  startup := ∅
  hooks := i.map fun i => SessionHooks.new i ()

/-- The session after its start and the events `es`. -/
def after (mode : PoolMode) (i : Option (Interceptor Unit)) (es : List Event) : Session Pg Unit :=
  (launch mode i).after (env mode) (es.map .own)

/-- The client sends `m`, which reaches the upstream if it is forwarded. -/
def client (m : FrontendMessage) : Event := .client m {}

/-- The client sends `m` and writing it to the upstream fails. -/
def clientCut (m : FrontendMessage) : Event := .client m { sendOk := false }

/-- Read `n` messages of the upstream. -/
def reads (n : Nat) : List Event := List.replicate n .upstream

/-- The client prepares the statement `s`. -/
def prepare : List Event :=
  [client (.parse (some "s") "SELECT 1" []), client .sync] ++ reads 2

/-- An interceptor that answers `action` to every query. -/
def onQuery (action : Action) : Interceptor Unit :=
  { Interceptor.noop Unit with onQuery := fun ctx cycle => (ctx, cycle, action) }

/-- An interceptor that sends the query `text`, and no other, to the endpoints `a` and `b`. -/
def scatteringOn (text : String) : Interceptor Unit :=
  { Interceptor.noop Unit with
    onQuery := fun ctx cycle => (ctx, cycle, if cycle.sql = text then
      .scatter { legs := [⟨"a", "SELECT 1"⟩, ⟨"b", "SELECT 1"⟩], merge := .concat, tag := "SELECT" }
      else .forward) }

end Sample

end Pgferry
