/-
  What the attempts of `ensure_attached` take and leave.

  Proved: an attempt that fails leaves the session as it was, up to the dirty flag and what the
  hooks know, and every pool with its permits and its gauge (`Spared`); so an attach is all or
  nothing (`attach_all_or_nothing`).
-/
import Pgferry.Lending
import Pgferry.Session.Runs

namespace Pgferry

variable {σ κ : Type}

namespace Session

/-! ## What an attempt changes -/

/-- A failed attempt leaves the session as it was, up to the dirty flag and the hooks, and gives
    back what it took out of the pools. -/
structure Spared (u : Upstream σ) (s s' : Session σ κ) : Prop where
  core : ∃ dirty, s'.toCore = { s.toCore with leaseDirty := dirty }
  sendsLeft : s'.sendsLeft = s.sendsLeft
  params : s'.params = s.params
  startup : s'.startupParameters = s.startupParameters
  returns : World.Returns u s.world s'.world

theorem Spared.trans {u : Upstream σ} {s s' s'' : Session σ κ} (h : s.Spared u s')
    (h' : s'.Spared u s'') : s.Spared u s'' where
  core := by
    obtain ⟨_, hc⟩ := h.core
    obtain ⟨dirty, hc'⟩ := h'.core
    exact ⟨dirty, by rw [hc', hc]⟩
  sendsLeft := h'.sendsLeft.trans h.sendsLeft
  params := h'.params.trans h.params
  startup := h'.startup.trans h.startup
  returns := h.returns.trans h'.returns

/-- A hook is told something. -/
theorem spared_hooks (u : Upstream σ) (s : Session σ κ) (hooks : Option (SessionHooks κ)) :
    s.Spared u { s with hooks := hooks } :=
  ⟨⟨s.leaseDirty, rfl⟩, rfl, rfl, rfl, .refl _⟩

theorem dispatchUpstream_spared (env : Env σ) (s : Session σ κ) (sqlHint : Option String) :
    s.Spared env.upstream (s.dispatchUpstream env sqlHint).1 := by
  unfold dispatchUpstream
  split
  · exact spared_hooks env.upstream s s.hooks
  · exact spared_hooks env.upstream s _

theorem dispatchOnUpstreamError_spared (u : Upstream σ) (s : Session σ κ) (error : UpstreamError) :
    s.Spared u (s.dispatchOnUpstreamError error).1 := by
  unfold dispatchOnUpstreamError
  split
  · exact spared_hooks u s s.hooks
  · exact spared_hooks u s _

/-- The pool could not connect. -/
theorem refused_spared {u : Upstream σ} {t : Session σ κ} {key : PoolKey} {world : World σ}
    {e : String} (h : t.world.checkout u key = (world, .error e)) :
    t.Spared u { t with world := world } := by
  refine ⟨⟨t.leaseDirty, rfl⟩, rfl, rfl, rfl, ?_⟩
  refine .refused key e (by rw [h]) ?_
  rw [h]
  exact .refl _

/-- The connection could not be prepared. -/
theorem destroyed_spared {u : Upstream σ} {t : Session σ κ} {key : PoolKey} {world : World σ}
    {lease : UpstreamLease σ} (h : t.world.checkout u key = (world, .ok lease)) (dirty : Bool) :
    t.Spared u { t with world := world.destroy lease, leaseDirty := dirty } := by
  refine ⟨⟨dirty, rfl⟩, rfl, rfl, rfl, ?_⟩
  refine .destroyed key lease (by rw [h]) ?_
  rw [h]
  exact .refl _

/-- What an attempt comes to. -/
inductive Tried (env : Env σ) (s : Session σ κ) : Attempt σ κ → Prop where
  | attached (t : Session σ κ) (endpoint : EndpointConfig) (lease : UpstreamLease σ)
      (conn : Conn σ) (dirty : Bool) (hspared : s.Spared env.upstream t)
      (hmem : endpoint ∈ env.route.endpoints)
      (hlease : (t.world.checkout env.upstream (env.poolKey t.params endpoint.id)).2 = .ok lease)
      (hprep : ∃ dirty₀ dirty₁, Prepared env.upstream t.startupParameters t.toCore dirty₀
        lease.conn conn dirty₁) :
      Tried env s (.attached (Session.attachedTo
        { t with
          world := (t.world.checkout env.upstream (env.poolKey t.params endpoint.id)).1
          leaseDirty := dirty } endpoint.id lease conn))
  | retry (t : Session σ κ) (hspared : s.Spared env.upstream t) : Tried env s (.retry t)
  | fatal (t : Session σ κ) (message : String) (hspared : s.Spared env.upstream t) :
      Tried env s (.fatal t message)

theorem afterFailure_tried {env : Env σ} {s t : Session σ κ} (h : s.Spared env.upstream t)
    (error : UpstreamError) (message : String) : Tried env s (t.afterFailure error message) := by
  have hasked := h.trans (dispatchOnUpstreamError_spared env.upstream t error)
  unfold afterFailure
  split
  · exact .fatal _ _ hasked
  · exact .retry _ hasked

theorem attempt_tried (env : Env σ) (sqlHint : Option String) (s : Session σ κ) :
    Tried env s (s.attempt env sqlHint) := by
  have hrouted := dispatchUpstream_spared env s sqlHint
  have htries := attempt_tries env sqlHint s
  generalize (s.dispatchUpstream env sqlHint).1 = t at hrouted htries
  generalize s.attempt env sqlHint = outcome at htries
  cases htries with
  | unknown message => exact .fatal _ _ hrouted
  | refused _ world _ _ _ _ hout =>
      exact afterFailure_tried (hrouted.trans (refused_spared hout)) _ _
  | unprepared _ world lease t' e message error _ hout hprep =>
      -- the lease is destroyed
      obtain ⟨dirty, hdirty⟩ := prepare_dirty env { t with world := world } lease.conn
      rw [hprep] at hdirty
      dsimp only at hdirty
      subst hdirty
      exact afterFailure_tried (hrouted.trans (destroyed_spared hout dirty)) _ _
  | attached endpoint world lease t' conn hmem hout hprep =>
      obtain ⟨dirty, hdirty⟩ := prepare_dirty env { t with world := world } lease.conn
      obtain ⟨dirty₁, -, -, hready⟩ := prepare_spec env { t with world := world } lease.conn
      rw [hprep] at hdirty hready
      dsimp only at hdirty
      subst hdirty
      have h : Tried env s _ := .attached t endpoint lease conn dirty hrouted hmem (by rw [hout])
        ⟨_, dirty₁, hready conn rfl⟩
      rw [hout] at h
      exact h

/-! ## All or nothing -/

/-- The session `s` has become `s'` by taking `lease`. -/
structure Acquires (env : Env σ) (s : Session σ κ) (lease : UpstreamLease σ) (s' : Session σ κ) :
    Prop where
  held : s'.lease = some lease
  /-- The lease and the current endpoint denote the same endpoint. -/
  endpoint : ∃ endpoint ∈ env.route.endpoints, s'.currentEndpoint = some endpoint.id ∧
    lease.pool = env.poolKey s.params endpoint.id ∧
    s'.log = s.log ++ [.attached lease.conn.processId endpoint.id]
  /-- The lease is the last checkout, of a connection that has been prepared since; those before
      it came to nothing. -/
  world : ∃ w base, World.Returns env.upstream s.world w ∧
    w.checkout env.upstream lease.pool = (s'.world, .ok { lease with conn := base }) ∧
    ∃ dirty₀ dirty, Prepared env.upstream s.startupParameters s.toCore dirty₀ base lease.conn dirty
  lends : s.world.Lends s'.world [lease]

/-- What `send_attach_fatal` puts on the wire: one message, if the client can still be reached. -/
def fatalNotice (s : Session σ κ) (message : String) : List Entry :=
  if s.sendsLeft = 0 then []
  else [.sent true s.origin
    (.errorResponse { severity := "FATAL", code := "08006", message := message })]

/-- The session `s` has become `s'` without getting a lease. -/
structure Refused (env : Env σ) (s s' : Session σ κ) : Prop where
  held : s'.lease = none
  endpoint : s'.currentEndpoint = s.currentEndpoint
  fatal : ∃ message, s'.log = s.log ++ s.fatalNotice message
  world : World.Returns env.upstream s.world s'.world
  lends : s.world.Lends s'.world []

variable {env : Env σ} {s t : Session σ κ}

theorem sendAttachFatal_refused (h : s.Spared env.upstream t) (hfree : s.lease = none)
    (message : String) : s.Refused env (t.sendAttachFatal message) := by
  obtain ⟨dirty, hcore⟩ := h.core
  have hsends := h.sendsLeft
  have hkeeps : (t.sendAttachFatal message).lease = t.lease ∧
      (t.sendAttachFatal message).currentEndpoint = t.currentEndpoint ∧
      (t.sendAttachFatal message).log = t.log ++ t.fatalNotice message ∧
      (t.sendAttachFatal message).world = t.world := by
    unfold sendAttachFatal write fatalNotice
    cases t.sendsLeft with
    | zero => exact ⟨rfl, rfl, (List.append_nil _).symm, rfl⟩
    | succ n => exact ⟨rfl, rfl, rfl, rfl⟩
  obtain ⟨hlease, hendpoint, hlog, hworld⟩ := hkeeps
  have hnotice : t.fatalNotice message = s.fatalNotice message := by
    unfold fatalNotice Core.origin
    rw [hsends, hcore]
  refine ⟨?_, ?_, ⟨message, ?_⟩, ?_, ?_⟩
  · rw [hlease, hcore]
    exact hfree
  · rw [hendpoint, hcore]
  · rw [hlog, hnotice, hcore]
  · rw [hworld]
    exact h.returns
  · rw [hworld]
    exact h.returns.lends

theorem checkout_pool {u : Upstream σ} {w : World σ} {key : PoolKey} {lease : UpstreamLease σ}
    (h : (w.checkout u key).2 = .ok lease) : lease.pool = key :=
  (World.Tidy.checkout (Φ := fun _ _ => True) ⟨fun _ _ _ => trivial, fun _ _ _ _ _ _ => trivial⟩
    (fun _ _ _ _ _ => trivial) key).2 lease h |>.1

theorem attachedTo_acquires {endpoint : EndpointConfig} {lease : UpstreamLease σ} {conn : Conn σ}
    {dirty : Bool} (h : s.Spared env.upstream t) (hmem : endpoint ∈ env.route.endpoints)
    (hlease : (t.world.checkout env.upstream (env.poolKey t.params endpoint.id)).2 = .ok lease)
    (hprep : ∃ dirty₀ dirty₁, Prepared env.upstream t.startupParameters t.toCore dirty₀
      lease.conn conn dirty₁) :
    s.Acquires env { lease with conn := conn }
      (Session.attachedTo
        { t with
          world := (t.world.checkout env.upstream (env.poolKey t.params endpoint.id)).1
          leaseDirty := dirty } endpoint.id lease conn) := by
  obtain ⟨_, hcore⟩ := h.core
  have hkey : env.poolKey t.params endpoint.id = env.poolKey s.params endpoint.id := by
    rw [h.params]
  have hpool := checkout_pool hlease
  have hout := World.Lends.checkout env.upstream t.world (env.poolKey t.params endpoint.id)
  rw [hlease] at hout
  generalize hw : t.world.checkout env.upstream (env.poolKey t.params endpoint.id) = out
    at hlease hout ⊢
  obtain ⟨world, result⟩ := out
  dsimp only at hlease hout ⊢
  subst hlease
  have hconnected := dispatchOnUpstreamConnected_beside
    { t with world := world, leaseDirty := dirty } endpoint.id
  rw [h.startup, hcore] at hprep
  refine ⟨rfl, ⟨endpoint, hmem, rfl, hpool.trans hkey, ?_⟩,
    ⟨t.world, lease.conn, h.returns, ?_, hprep⟩, ?_⟩
  · have hlog : t.log = s.log := by rw [hcore]
    have hsame := congrArg Core.log hconnected.core
    exact congrArg (· ++ [.attached conn.processId endpoint.id]) (hsame.trans hlog)
  · simp only [attachedTo, hconnected.world]
    exact (congrArg (t.world.checkout env.upstream) hpool).trans hw
  · simp only [attachedTo, hconnected.world]
    -- the counts see the pool of a lease only
    exact h.returns.lends.trans ⟨hout.active, hout.permits, hout.idle⟩

/-- The attempts from a session that failed ones have left. -/
theorem attachAttempts_outcome (hfree : s.lease = none) (sqlHint : Option String) (n : Nat)
    (t : Session σ κ) (h : s.Spared env.upstream t) :
    ((attachAttempts env sqlHint n t).2 = true ∧
        ∃ lease, s.Acquires env lease (attachAttempts env sqlHint n t).1) ∨
      (attachAttempts env sqlHint n t).2 = false ∧
        s.Refused env (attachAttempts env sqlHint n t).1 := by
  refine attachAttempts_rule (P := s.Spared env.upstream)
    (Q := fun t' ok => (ok = true ∧ ∃ lease, s.Acquires env lease t') ∨
      ok = false ∧ s.Refused env t') (fun t h => ?_)
    (fun t message h => .inr ⟨rfl, sendAttachFatal_refused h hfree message⟩) n t h
  have htried := attempt_tried env sqlHint t
  generalize t.attempt env sqlHint = outcome at htried
  cases htried with
  | attached t' endpoint lease conn dirty hspared hmem hlease hprep =>
      exact .inl ⟨rfl, _, attachedTo_acquires (h.trans hspared) hmem hlease hprep⟩
  | retry t' hspared => exact h.trans hspared
  | fatal t' message hspared =>
      exact .inr ⟨rfl, sendAttachFatal_refused (h.trans hspared) hfree message⟩

theorem ensureAttached_free (hfree : s.lease = none) (sqlHint : Option String) :
    s.ensureAttached env sqlHint =
      attachAttempts env sqlHint (max (env.route.endpoints.length * 2) 2) s := by
  unfold ensureAttached
  rw [hfree]
  rfl

/-- An attach that succeeds takes a lease. -/
theorem ensureAttached_acquires (hfree : s.lease = none) {sqlHint : Option String}
    (h : (s.ensureAttached env sqlHint).2 = true) :
    ∃ lease, s.Acquires env lease (s.ensureAttached env sqlHint).1 := by
  rw [ensureAttached_free hfree] at h ⊢
  rcases attachAttempts_outcome hfree sqlHint (max (env.route.endpoints.length * 2) 2) s
    (spared_hooks env.upstream s s.hooks) with hdone | hfailed
  · exact hdone.2
  · rw [h] at hfailed
    exact absurd hfailed.1 (by decide)

end Session

/-- For every route, interceptor and server, and whatever fails: without a lease
    `ensure_attached` either returns true with one lease or returns false with none and one FATAL;
    the checkouts of the attempts that failed came to nothing. -/
theorem attach_all_or_nothing (env : Env σ) (s : Session σ κ) (sqlHint : Option String)
    (hfree : s.lease = none) :
    ((s.ensureAttached env sqlHint).2 = true ∧
        ∃ lease, s.Acquires env lease (s.ensureAttached env sqlHint).1) ∨
      (s.ensureAttached env sqlHint).2 = false ∧
        s.Refused env (s.ensureAttached env sqlHint).1 := by
  rw [Session.ensureAttached_free hfree]
  exact Session.attachAttempts_outcome hfree sqlHint _ s
    (Session.spared_hooks env.upstream s s.hooks)

/-- A session whose pools fail to connect `n` times. -/
def Sample.refused (n : Nat) : Session Pg Unit :=
  let world := { Sample.world .transaction with
    supply := fun _ dial => if dial < n then .error "refused" else .ok (Pg.fresh .sample, ∅) }
  { Sample.launch .transaction none with world := world }.new

/-- Two connects fail: the third attempt gets the lease. All four fail: there is none. -/
theorem attach_all_or_nothing_refused :
    (∃ lease, (Sample.refused 2).Acquires (Sample.env .transaction) lease
        ((Sample.refused 2).ensureAttached (Sample.env .transaction) none).1) ∧
      (Sample.refused 4).Refused (Sample.env .transaction)
        ((Sample.refused 4).ensureAttached (Sample.env .transaction) none).1 := by
  constructor
  · rcases attach_all_or_nothing (Sample.env .transaction) (Sample.refused 2) none rfl with h | h
    · exact h.2
    · exact absurd h.1 (by decide)
  · rcases attach_all_or_nothing (Sample.env .transaction) (Sample.refused 4) none rfl with h | h
    · exact absurd h.1 (by decide)
    · exact h.2

end Pgferry
