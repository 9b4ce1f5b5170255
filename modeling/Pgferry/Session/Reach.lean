/-
  Failover reaches an endpoint that accepts.

  `ensure_attached` makes two attempts for each endpoint of the route. An attempt that fails is
  reported to the router, which counts it against the endpoint: the second failure in a row takes
  the endpoint out of the choice, for longer than the attach lasts. So each endpoint that does not
  accept uses up at most two attempts (`debt`), and one is left for the endpoint that does.

  Proved: a failed attempt lowers the sum of the debts (`reportFailure_debts`, `attempt_seeks`);
  the attach ends with a lease (`failover_reaches`).
-/
import Mathlib.Algebra.Order.BigOperators.Group.List
import Mathlib.Algebra.Order.Ring.Nat
import Pgferry.Health
import Pgferry.Session.Attempts

namespace Pgferry

variable {σ : Type}

/-! ## Failures to come -/

/-- How many more failures an endpoint with this entry can have before it is out of the choice
    for the rest of an attach that began at `start`. -/
def debt (start : Nat) : Option Health → Nat
  | none => 2
  | some (.alive 0) => 2
  | some (.alive (_ + 1)) => 1
  | some (.dead since) => if start ≤ since then 0 else 1

theorem debt_le (start : Nat) (health : Option Health) : debt start health ≤ 2 := by
  unfold debt
  split <;> (try split) <;> omega

namespace EndpointGroup

/-- The debts of the endpoints other than `id`. -/
def debts (g : EndpointGroup) (start : Nat) (id : String) (endpoints : List EndpointConfig) : Nat :=
  ((endpoints.filter fun e => e.id ≠ id).map fun e => debt start (g.inner.lookup e.id)).sum

/-- There are two attempts more than the others can use up. -/
theorem debts_lt (g : EndpointGroup) (start : Nat) {e : EndpointConfig}
    {endpoints : List EndpointConfig} (h : e ∈ endpoints) :
    g.debts start e.id endpoints + 2 ≤ endpoints.length * 2 := by
  have hfewer : (endpoints.filter fun e' => e'.id ≠ e.id).length < endpoints.length :=
    List.length_filter_lt_length_iff_exists.mpr ⟨e, h, by simp⟩
  have hsum := List.sum_le_card_nsmul
    ((endpoints.filter fun e' => e'.id ≠ e.id).map fun e => debt start (g.inner.lookup e.id)) 2
    (by
      intro d hd
      obtain ⟨e', -, rfl⟩ := List.mem_map.mp hd
      exact debt_le start _)
  rw [List.length_map, Nat.nsmul_eq_mul] at hsum
  unfold debts
  omega

theorem reportFailure_other (g : EndpointGroup) (now : Nat) {id other : String} (h : id ≠ other) :
    (g.reportFailure now other).inner.lookup id = g.inner.lookup id :=
  AList.lookup_insert_ne h

/-- A failure of an endpoint that was in the choice pays one of its debts. -/
theorem reportFailure_debt {g : EndpointGroup} {start now later : Nat} {id : String}
    (hthreshold : g.failureThreshold = defaultFailureThreshold) (halive : g.isAlive now id = true)
    (hstart : start ≤ now) (hend : now < start + g.reviveAfter) (hlater : start ≤ later) :
    debt start ((g.reportFailure later id).inner.lookup id) < debt start (g.inner.lookup id) := by
  unfold reportFailure
  rw [AList.lookup_insert, hthreshold]
  unfold isAlive at halive
  cases he : g.inner.lookup id with
  | none => exact Nat.lt_succ_self 1
  | some health =>
      rw [he] at halive
      cases health with
      | alive failures =>
          cases failures with
          | zero => exact Nat.lt_succ_self 1
          | succ failures =>
              show debt start (some (if 2 ≤ failures + 1 + 1 then _ else _)) < 1
              rw [if_pos (by omega)]
              simp only [debt, if_pos hlater, Nat.lt_one_iff]
      | dead since =>
          -- the entry has revived, so its clock started before the attach
          have hrevived : g.reviveAfter ≤ now - since := of_decide_eq_true halive
          simp only [Option.getD_some, debt, if_pos hlater]
          rw [if_neg (by omega)]
          omega

theorem reportFailure_debts {g : EndpointGroup} {start now later : Nat} {id : String}
    {endpoints : List EndpointConfig} {failed : EndpointConfig}
    (hthreshold : g.failureThreshold = defaultFailureThreshold)
    (halive : g.isAlive now failed.id = true) (hstart : start ≤ now)
    (hend : now < start + g.reviveAfter) (hlater : start ≤ later) (hmem : failed ∈ endpoints)
    (hother : failed.id ≠ id) :
    (g.reportFailure later failed.id).debts start id endpoints < g.debts start id endpoints := by
  have hown := reportFailure_debt hthreshold halive hstart hend hlater
  refine List.sum_lt_sum _ _ (fun e _ => ?_) ⟨failed, ?_, hown⟩
  · by_cases he : e.id = failed.id
    · rw [he]
      exact hown.le
    · rw [reportFailure_other g later he]
  · exact List.mem_filter.mpr ⟨hmem, decide_eq_true hother⟩

/-- An endpoint without new failures stays in the choice. -/
theorem isAlive_later {g g' : EndpointGroup} {id : String} {start now : Nat}
    (hentry : g'.inner.lookup id = g.inner.lookup id) (hrevive : g'.reviveAfter = g.reviveAfter)
    (hstart : start ≤ now) (h : g.isAlive start id = true) : g'.isAlive now id = true := by
  unfold isAlive at h ⊢
  rw [hentry, hrevive]
  split at h
  · rfl
  · rfl
  · exact decide_eq_true (by have := of_decide_eq_true h; omega)

/-- With an endpoint in the choice, the first of the choice is selected. -/
theorem selectFirstAlive_chosen {g : EndpointGroup} {now : Nat} (info : RoutingInfo)
    {e : EndpointConfig} (hmem : e ∈ info.endpoints) (h : g.isAlive now e.id = true) :
    ∃ e' ∈ info.endpoints, g.selectFirstAlive now info = some e'.id ∧
      g.isAlive now e'.id = true := by
  cases hselect : g.selectFirstAlive now info with
  | none => exact absurd h (selectFirstAlive_none.mp hselect e hmem)
  | some id =>
      obtain ⟨before, e', rest, hsplit, rfl, halive, -⟩ := selectFirstAlive_some.mp hselect
      refine ⟨e', ?_, rfl, halive⟩
      rw [hsplit]
      exact List.mem_append_right before List.mem_cons_self

end EndpointGroup

/-! ## One attempt -/

variable {κ : Type}

theorem replayGucs_result (u : Upstream σ) (gucs : List (Σ _ : String, String)) (c : Conn σ)
    (dirty dirty' : Bool) : (replayGucs u gucs c dirty).2 = (replayGucs u gucs c dirty').2 := by
  induction gucs generalizing c dirty dirty' with
  | nil => rfl
  | cons guc gucs ih =>
      rw [replayGucs, replayGucs]
      split
      · exact ih c dirty dirty'
      · split
        · rfl
        · exact ih _ true true

namespace Session

/-- Whether a connection can be prepared depends on the state that is replayed. -/
theorem prepare_result (env : Env σ) {s t : Session σ κ}
    (hstartup : t.startupParameters = s.startupParameters)
    (hgucs : t.gucOverrides = s.gucOverrides) (hregistry : t.registry = s.registry)
    (conn : Conn σ) : (t.prepare env conn).2 = (s.prepare env conn).2 := by
  unfold prepare
  rw [hstartup, hgucs, hregistry]
  cases syncStartupParameters env.upstream s.startupParameters conn with
  | error e => rfl
  | ok conn =>
      dsimp only
      have hflag := replayGucs_result env.upstream s.gucOverrides.entries conn t.leaseDirty
        s.leaseDirty
      generalize replayGucs env.upstream s.gucOverrides.entries conn t.leaseDirty = r at hflag ⊢
      generalize replayGucs env.upstream s.gucOverrides.entries conn s.leaseDirty = r' at hflag ⊢
      obtain ⟨dirty, result⟩ := r
      obtain ⟨dirty', result'⟩ := r'
      dsimp only at hflag
      subst hflag
      cases result with
      | error name => rfl
      | ok conn =>
          dsimp only
          cases s.registry.replay env.upstream conn with
          | error e => rfl
          | ok conn => rfl

/-- An attempt on the endpoint `id` succeeds when the pools are as in `w`. -/
def Opens (env : Env σ) (s : Session σ κ) (w : World σ) (id : String) : Prop :=
  ∃ lease conn, (w.checkout env.upstream (env.poolKey s.params id)).2 = .ok lease ∧
    (s.prepare env lease.conn).2 = .ok conn

theorem Opens.spared {env : Env σ} {s t : Session σ κ} {w : World σ} {id : String}
    (h : s.Opens env w id) (hspared : s.Spared env.upstream t) : t.Opens env w id := by
  obtain ⟨lease, conn, hlease, hprep⟩ := h
  obtain ⟨dirty, hcore⟩ := hspared.core
  refine ⟨lease, conn, hspared.params ▸ hlease, ?_⟩
  rw [prepare_result env hspared.startup (by rw [hcore]) (by rw [hcore])]
  exact hprep

/-- Every attempt of an attach on the endpoint `id` succeeds: whatever failed attempts on the
    others have done to the pools. -/
def Accepts (env : Env σ) (s : Session σ κ) (id : String) : Prop :=
  ∀ w, World.Returns env.upstream s.world w →
    w.pools (env.poolKey s.params id) = s.world.pools (env.poolKey s.params id) → s.Opens env w id

/-- An attempt on `endpoint` attaches, or it is reported as a failure of that endpoint and leaves
    the other pools alone. -/
theorem attempt_found {env : Env σ} {sqlHint : Option String} {s t : Session σ κ}
    {endpoint : EndpointConfig} (hroute : s.dispatchUpstream env sqlHint = (t, endpoint.id))
    (hfound : env.route.endpoint endpoint.id = some endpoint) :
    (∃ s', s.attempt env sqlHint = .attached s') ∨
      ∃ t' error message, s.attempt env sqlHint = t'.afterFailure error message ∧
        error.endpoint = endpoint.id ∧ t.Spared env.upstream t' ∧ t'.hooks = t.hooks ∧
        (∀ key, key ≠ env.poolKey t.params endpoint.id → t'.world.pools key = t.world.pools key) ∧
        ¬ t.Opens env t.world endpoint.id := by
  unfold attempt
  rw [hroute]
  dsimp only
  rw [hfound]
  dsimp only
  have hother : ∀ key, key ≠ env.poolKey t.params endpoint.id →
      (t.world.checkout env.upstream (env.poolKey t.params endpoint.id)).1.pools key =
        t.world.pools key := fun key => World.checkout_other env.upstream t.world
  cases hout : t.world.checkout env.upstream (env.poolKey t.params endpoint.id) with
  | mk world result =>
  rw [hout] at hother
  cases result with
  | error e =>
      refine .inr ⟨{ t with world := world }, .connect endpoint.id e, _, rfl, rfl, ?_, rfl, hother,
        ?_⟩
      · exact refused_spared hout
      · rintro ⟨lease, conn, hlease, -⟩
        rw [hout] at hlease
        cases hlease
  | ok lease =>
      obtain ⟨dirty, hflag⟩ := prepare_dirty env { t with world := world } lease.conn
      have hsame : (prepare env { t with world := world } lease.conn).2 =
          (t.prepare env lease.conn).2 :=
        prepare_result (s := t) (t := { t with world := world }) env rfl rfl rfl lease.conn
      dsimp only
      generalize prepare env { t with world := world } lease.conn = prepared at hflag hsame ⊢
      obtain ⟨t', e | conn⟩ := prepared
      · dsimp only at hflag hsame ⊢
        subst hflag
        refine .inr ⟨{ t with world := world.destroy lease, leaseDirty := dirty },
          .connect endpoint.id e.message, _, rfl, rfl, ?_, rfl, fun key hkey => ?_, ?_⟩
        · exact destroyed_spared hout dirty
        · rw [← hother key hkey]
          have hpool := checkout_pool (congrArg Prod.snd hout)
          show (world.destroy lease).pools key = world.pools key
          unfold World.destroy
          exact World.modify_other world _ (hpool ▸ hkey)
        · rintro ⟨lease', conn, hlease, hprep⟩
          rw [hout] at hlease
          cases hlease
          rw [hprep] at hsame
          cases hsame
      · exact .inl ⟨_, rfl⟩

/-! ## The attach -/

/-- The session `t` after `spent` failed attempts of an attach that `s` began with the router in
    the state `r₀`: none of them was on the endpoint `id`. -/
structure Seeks (env : Env σ) (s : Session σ RouterState) (r₀ : RouterState) (id : String)
    (spent : Nat) (t : Session σ RouterState) (r : RouterState) : Prop where
  spared : s.Spared env.upstream t
  pool : t.world.pools (env.poolKey s.params id) = s.world.pools (env.poolKey s.params id)
  hooks : ∃ h, t.hooks = some h ∧ h.interceptor = failoverRouter ∧ h.ctx = r
  threshold : r.group.failureThreshold = defaultFailureThreshold
  revive : r.group.reviveAfter = r₀.group.reviveAfter
  entry : r.group.inner.lookup id = r₀.group.inner.lookup id
  clock : r.clock = r₀.clock
  calls : r.calls = r₀.calls + 2 * spent

section Seeks

variable {env : Env σ} {s t : Session σ RouterState} {r₀ r : RouterState} {e : EndpointConfig}
  {spent : Nat}

/-- The router names an endpoint of the route that is in the choice. -/
theorem Seeks.routes (h : Seeks env s r₀ e.id spent t r) (sqlHint : Option String)
    (hmem : e ∈ env.route.endpoints) (halive : r₀.group.isAlive r₀.now e.id = true)
    (hstart : r₀.now ≤ r.now) :
    ∃ hk endpoint, t.hooks = some hk ∧ hk.interceptor = failoverRouter ∧
      hk.ctx = r ∧ env.route.endpoint endpoint.id = some endpoint ∧
      r.group.isAlive r.now endpoint.id = true ∧
      t.dispatchUpstream env sqlHint =
        ({ t with hooks := some { hk with ctx := { r with calls := r.calls + 1 } } },
          endpoint.id) := by
  obtain ⟨hk, hhooks, hrouter, hctx⟩ := h.hooks
  have hnow := EndpointGroup.isAlive_later h.entry h.revive hstart halive
  obtain ⟨e', hmem', hselect, halive'⟩ := EndpointGroup.selectFirstAlive_chosen
    { endpoints := env.route.endpoints, user := t.params.user, database := t.params.database,
      sql := sqlHint } hmem hnow
  obtain ⟨endpoint, hfound⟩ := Option.isSome_iff_exists.mp
    (List.find?_isSome.mpr ⟨e', hmem', BEq.rfl⟩ : (env.route.endpoint e'.id).isSome)
  have hid : endpoint.id = e'.id := by
    have hfirst := List.find?_some (p := fun e : EndpointConfig => e.id == e'.id) hfound
    exact eq_of_beq hfirst
  refine ⟨hk, endpoint, hhooks, hrouter, hctx, hid ▸ hfound, hid ▸ halive', ?_⟩
  unfold dispatchUpstream
  rw [hhooks]
  dsimp only
  rw [hrouter, hctx]
  show (_, (r.group.selectFirstAlive r.now _).getD _) = _
  rw [hselect, hid]
  rfl

/-- An attempt attaches, or it fails on another endpoint and lowers the debts. -/
theorem attempt_seeks (h : Seeks env s r₀ e.id spent t r) (sqlHint : Option String)
    (hmem : e ∈ env.route.endpoints) (halive : r₀.group.isAlive r₀.now e.id = true)
    (haccepts : s.Accepts env e.id)
    (hclock : ∀ i, r.calls ≤ i → i < r.calls + 2 →
      r₀.now ≤ r₀.clock i ∧ r₀.clock i < r₀.now + r₀.group.reviveAfter) :
    (∃ t', t.attempt env sqlHint = .attached t') ∨
      ∃ t' r', t.attempt env sqlHint = .retry t' ∧ Seeks env s r₀ e.id (spent + 1) t' r' ∧
        r'.group.debts r₀.now e.id env.route.endpoints <
          r.group.debts r₀.now e.id env.route.endpoints := by
  have hnow := hclock r.calls (Nat.le_refl _) (by omega)
  have hlater := hclock (r.calls + 1) (by omega) (by omega)
  rw [← h.clock] at hnow hlater
  obtain ⟨hk, endpoint, -, hrouter, hctx, hfound, hchosen, hroute⟩ :=
    h.routes sqlHint hmem halive hnow.1
  have hrouted : s.Spared env.upstream
      { t with hooks := some { hk with ctx := { r with calls := r.calls + 1 } } } :=
    h.spared.trans (spared_hooks env.upstream t _)
  rcases attempt_found hroute hfound with hattached | ⟨t', error, message, heq, herror, hspared,
    hhooks, hother, hclosed⟩
  · exact .inl hattached
  · -- the endpoint that failed is not `e`
    have hne : endpoint.id ≠ e.id := by
      intro hid
      rw [hid] at hclosed
      exact hclosed ((haccepts t.world h.spared.returns h.pool).spared hrouted)
    have hafter : t'.afterFailure error message = .retry
        { t' with hooks := some { hk with ctx :=
          { r with
            group := r.group.reportFailure (r.clock (r.calls + 1)) endpoint.id
            calls := r.calls + 1 + 1
            errors := r.errors ++ [error] } } } := by
      unfold afterFailure dispatchOnUpstreamError
      rw [hhooks]
      dsimp only
      rw [hrouter, ← herror]
      rfl
    refine .inr ⟨_, _, heq.trans hafter, ⟨?_, ?_, ⟨_, rfl, hrouter, rfl⟩, ?_, ?_, ?_, ?_, ?_⟩, ?_⟩
    · exact (hrouted.trans hspared).trans (spared_hooks env.upstream t' _)
    · have hkey : env.poolKey s.params e.id ≠ env.poolKey t.params endpoint.id :=
        fun hsame => hne (congrArg PoolKey.endpoint hsame).symm
      exact (hother _ hkey).trans h.pool
    · exact h.threshold
    · exact h.revive
    · exact (EndpointGroup.reportFailure_other r.group _ (Ne.symm hne)).trans h.entry
    · exact h.clock
    · have := h.calls
      dsimp only
      omega
    · exact EndpointGroup.reportFailure_debts h.threshold hchosen hnow.1 (h.revive ▸ hnow.2)
        hlater.1 (List.mem_of_find?_eq_some hfound) hne

/-- With more attempts left than debts the attach succeeds. -/
theorem attachAttempts_reaches (sqlHint : Option String) (hmem : e ∈ env.route.endpoints)
    (halive : r₀.group.isAlive r₀.now e.id = true) (haccepts : s.Accepts env e.id) (n : Nat)
    (hclock : ∀ i, r₀.calls ≤ i → i < r₀.calls + 2 * n →
      r₀.now ≤ r₀.clock i ∧ r₀.clock i < r₀.now + r₀.group.reviveAfter)
    (left : Nat) (hleft : spent + left = n) (h : Seeks env s r₀ e.id spent t r)
    (hdebts : r.group.debts r₀.now e.id env.route.endpoints < left) :
    (attachAttempts env sqlHint left t).2 = true := by
  induction left generalizing spent t r with
  | zero => omega
  | succ left ih =>
      have hcalls := h.calls
      rw [attachAttempts_succ]
      rcases attempt_seeks h sqlHint hmem halive haccepts
        (fun i hlow hhigh => hclock i (by omega) (by omega)) with
        ⟨t', hattached⟩ | ⟨t', r', hretry, hseeks, hlower⟩
      · rw [hattached]
      · rw [hretry]
        exact ih (by omega) hseeks (by omega)

end Seeks

end Session

/-- For every route with the default router, every health and whatever fails elsewhere: when an
    endpoint in the choice accepts and the attach takes less than `revive_after`, it ends with a
    lease and without an error. -/
theorem failover_reaches (env : Env σ) (s : Session σ RouterState) (sqlHint : Option String)
    (h : SessionHooks RouterState) (inner : StringMap Health) (e : EndpointConfig)
    (hfree : s.lease = none) (hhooks : s.hooks = some h) (hrouter : h.interceptor = failoverRouter)
    (hgroup : h.ctx.group = { EndpointGroup.fromEndpoints env.route.endpoints with inner := inner })
    (hmem : e ∈ env.route.endpoints) (halive : h.ctx.group.isAlive h.ctx.now e.id = true)
    (haccepts : s.Accepts env e.id)
    (hclock : ∀ i, h.ctx.calls ≤ i →
      i < h.ctx.calls + 2 * max (env.route.endpoints.length * 2) 2 →
      h.ctx.now ≤ h.ctx.clock i ∧ h.ctx.clock i < h.ctx.now + h.ctx.group.reviveAfter) :
    (s.ensureAttached env sqlHint).2 = true ∧
      ∃ lease, s.Acquires env lease (s.ensureAttached env sqlHint).1 := by
  have hseeks : Session.Seeks env s h.ctx e.id 0 s h.ctx :=
    ⟨Session.spared_hooks env.upstream s s.hooks, rfl, ⟨h, hhooks, hrouter, rfl⟩,
      by rw [hgroup]; rfl, rfl, rfl, rfl, rfl⟩
  have hdebts := h.ctx.group.debts_lt h.ctx.now hmem
  have htrue : (s.ensureAttached env sqlHint).2 = true := by
    rw [Session.ensureAttached_free hfree]
    exact Session.attachAttempts_reaches sqlHint hmem halive haccepts _ hclock _ (Nat.zero_add _)
      hseeks (by omega)
  exact ⟨htrue, Session.ensureAttached_acquires hfree htrue⟩

/-- Connects to `a` fail, connects to `b` succeed. -/
def Sample.halfDown : Session Pg RouterState :=
  Session.new 0 100
    { Sample.world .transaction with
      supply := fun key _ =>
        if key.endpoint = "a" then .error "refused" else .ok (Pg.fresh .sample, ∅) }
    { user := "u", database := none } ∅
    (some (.new failoverRouter
      (.fromEndpoints (Sample.env .transaction).route.endpoints fun _ => 0)))

theorem Sample.halfDown_accepts :
    Sample.halfDown.Accepts (Sample.env .transaction) "b" := by
  intro w hreturns hpool
  have hconnects : w.Connects (Sample.env .transaction).upstream
      ((Sample.env .transaction).poolKey Sample.halfDown.params "b") :=
    World.checkout_connects (by rw [hpool]; nofun)
  have hmade := (hconnects.made (Pg.fresh .sample) ∅ (by rw [hreturns.supply]; rfl)).1
  exact ⟨_, _, hmade, rfl⟩

/-- The two attempts on `a` fail, the third is on `b`. -/
theorem failover_reaches_half :
    ∃ lease, Sample.halfDown.Acquires (Sample.env .transaction) lease
      (Sample.halfDown.ensureAttached (Sample.env .transaction) none).1 :=
  (failover_reaches (Sample.env .transaction) Sample.halfDown none _ _
    { id := "b", upstream := "host-b:5432" } rfl rfl rfl rfl (by decide) (by decide)
    Sample.halfDown_accepts (fun _ _ _ => ⟨Nat.le_refl 0, (by decide : 0 < defaultReviveAfter)⟩)).2

end Pgferry
