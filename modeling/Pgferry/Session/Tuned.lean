/-
  The parameters of the connection that a session holds.

  The cache of the connection follows the server throughout. While `lease_dirty` is down it has the
  values of the attach: the tracked startup parameters over the initial values of the server. A
  `ParameterStatus` raises the flag when the pump reads it; the reply loop of a scatter leg on the
  session's own lease does not (`LegsSilent` asks for legs without such a message). A connection
  that is detached with the flag down is not cleaned, so the startup parameters stay on it
  (`LeavesDefaults`).

  Proved: `steps_tunes`, every step of a session keeps this; and `tuned_stable`, what a session with
  one cycle open at a time puts back is neutral.
-/
import Pgferry.Defaults
import Pgferry.Session.Cycles
import Pgferry.Session.Handles

namespace Pgferry

variable {σ κ : Type}

/-- The cache follows the server, and with the flag down it has the values of the attach. -/
structure UpstreamLease.Tuned (values initial : σ → Values) (defaults : PoolKey → Values)
    (startup : Params) (dirty : Bool) (lease : UpstreamLease σ) : Prop where
  current : lease.conn.Current values
  home : lease.conn.Home initial (defaults lease.pool)
  clean : dirty = false → lease.conn.parameter = inForce ∅ startup (defaults lease.pool)

/-- The lease of a session, if it has one. -/
def Core.Tunes (values initial : σ → Values) (defaults : PoolKey → Values) (startup : Params)
    (c : Core σ) : Prop :=
  ∀ lease, c.lease = some lease → lease.Tuned values initial defaults startup c.leaseDirty

/-- While the flag is down, the server answers no leg that would run on the session's lease with a
    report. -/
def Session.LegsSilent (u : Upstream σ) (s : Session σ κ) : Event → Prop
  | .client (.query _) _ => ∀ lease ∈ s.lease, s.leaseDirty = false →
      ∀ sql, LegText s.interceptor sql → ∀ x ∈ (lease.conn.send u .proxy (.query sql)).inbox,
        ∀ name value, x.2 ≠ .parameterStatus name value
  | _ => True

/-- A `ReadyForQuery` that is read with the flag down finds a session whose startup parameters are
    the initial values. -/
def Session.LeavesDefaults (defaults : PoolKey → Values) (s : Session σ κ) : Event → Prop
  | .upstream => ∀ lease ∈ s.lease, ∀ x ∈ lease.conn.inbox.head?, x.2.ready = 1 →
      s.leaseDirty = false → AsksDefaults s.startupParameters (defaults lease.pool)
  | _ => True

instance (defaults : PoolKey → Values) (s : Session σ κ) :
    ∀ e, Decidable (s.LeavesDefaults defaults e)
  | .upstream => inferInstanceAs (Decidable (∀ _ ∈ _, _))
  | .client _ _ | .clientGone | .upstreamClosed | .upstreamError _ | .cancel | .shutdown =>
      isTrue trivial

namespace Core

variable {env : Env σ} {i : Option (Interceptor κ)} {s : Session σ κ} {c d : Core σ}
  {values initial : σ → Values} {defaults : PoolKey → Values} {startup : Params}

theorem tunes_of_none (h : c.lease = none) : c.Tunes values initial defaults startup := by
  intro lease hl
  rw [h] at hl
  cases hl

theorem Tunes.congr (h : c.Tunes values initial defaults startup) (hl : d.lease = c.lease)
    (hc : d.carried = c.carried) : d.Tunes values initial defaults startup := by
  have hdirty : d.leaseDirty = c.leaseDirty := congrArg Prod.fst hc
  intro lease hlease
  rw [hdirty]
  exact h lease (hl ▸ hlease)

/-- A replay of overrides that leaves the flag down has set nothing. -/
theorem replayGucs_clean {u : Upstream σ} {gucs : List (Σ _ : String, String)} {c c' : Conn σ}
    {dirty : Bool} (h : replayGucs u gucs c dirty = (false, .ok c')) : c' = c := by
  induction gucs generalizing c dirty with
  | nil =>
      cases h
      rfl
  | cons guc gucs ih =>
      obtain ⟨name, value⟩ := guc
      rw [replayGucs] at h
      split at h
      · exact ih h
      · split at h
        case h_1 => cases h
        case h_2 c₁ _ =>
          have hdirty := Session.replayGucs_dirty u gucs c₁
          rw [h] at hdirty
          cases hdirty

section Attach

variable {u : Upstream σ} (hu : u.InOrder) (hp : u.Parameters values)
  (hr : u.Resets values initial)

include hu hp hr

/-- A lease that the session has just taken. -/
theorem prepared_tuned {dirty₀ dirty : Bool} {base : Conn σ} {lease : UpstreamLease σ}
    (hbase : NeutralPool u values initial defaults lease.pool base)
    (h : Prepared u startup c dirty₀ base lease.conn dirty) :
    lease.Tuned values initial defaults startup dirty := by
  have hlevel := (prepared_level hu hp hbase.level h).1
  have hhome := (home_cleans hr (defaults lease.pool)).preparedWith
    (fun c₂ h₂ hreplay => h₂.replay hr.accrues (fun _ _ _ hx => hx.elim) (fun _ hx => hx.elim)
      hreplay) hbase.home h
  refine ⟨hlevel.current, hhome, fun hclean => ?_⟩
  -- the flag is down: no override was set and no statement was replayed
  obtain ⟨c₁, c₂, d, hsync, hgucs, hreplay, hdirty⟩ := h
  rw [hclean] at hdirty
  obtain ⟨hd, hempty⟩ := Bool.or_eq_false_iff.mp hdirty.symm
  rw [hd] at hgucs
  cases replayGucs_clean hgucs
  have hnone : c.registry.entries = [] := by simpa using hempty
  unfold StatementRegistry.replay at hreplay
  rw [if_pos hnone] at hreplay
  cases hreplay
  rw [(syncStartupParameters_level hu hp hbase.level hsync).2, hbase.parameters]

end Attach

/-- With the flag down after a message, it was down before and the message was no report. -/
theorem track_clean {m : BackendMessage} (h : (c.track true m).leaseDirty = false) :
    c.leaseDirty = false ∧ ∀ name value, m ≠ .parameterStatus name value := by
  cases m <;> first
    | exact ⟨h, by simp⟩
    | (unfold track at h
       simp at h)

theorem readNext_tunes {o : Origin} {m : BackendMessage}
    (h : c.readNext true = some (o, m, d)) (hc : c.Tunes values initial defaults startup) :
    d.Tunes values initial defaults startup := by
  obtain ⟨lease, rest, hl, hin, _, hd, hdl⟩ := readNext_spec h
  have hlease := hc lease hl
  intro l hl'
  cases hdl.symm.trans hl'
  refine ⟨?_, ?_, fun hclean => ?_⟩
  · have hcurrent := hlease.current
    unfold Conn.Current at hcurrent ⊢
    rw [hin] at hcurrent
    cases m with
    | parameterStatus name value =>
        refine Eq.trans ?_ hcurrent
        show reported (Conn.setServerParameter _ name value).parameter _ = _
        rw [Conn.setServerParameter_parameter]
        rfl
    | _ => exact hcurrent
  · exact hlease.home.congr (by cases m <;> rfl) (by cases m <;> rfl)
  · rw [hd] at hclean
    obtain ⟨hdown, hother⟩ := track_clean hclean
    refine Eq.trans ?_ (hlease.clean hdown)
    cases m with
    | parameterStatus name value => exact absurd rfl (hother name value)
    | _ => rfl

section Steps

variable (hu : env.upstream.InOrder) (hp : env.upstream.Parameters values)
  (hr : env.upstream.Resets values initial)

include hu hp hr

/-- Before the raw hook. -/
theorem enters_tunes {m m' : FrontendMessage}
    (hs : s.toCore.Tunes values initial defaults s.startupParameters)
    (h : Enters env i (NeutralPool env.upstream values initial defaults) s (s.toCore.recv m) m m'
      c) :
    c.Tunes values initial defaults s.startupParameters := by
  cases enters_taken h with
  | held lease hl hl' hc =>
      intro l hcl
      cases hl'.symm.trans hcl
      have hlease := hs _ hl
      exact ⟨hlease.current, hlease.home, fun hd => hlease.clean (register_clean hc hd).1⟩
  | leased endpoint dirty₀ base lease dirty _ _ _ hbase hprep hl' hc =>
      intro l hcl
      cases hl'.symm.trans hcl
      have hlease := prepared_tuned hu hp hr hbase hprep
      exact ⟨hlease.current, hlease.home, fun hd => hlease.clean (register_clean hc hd).1⟩

theorem steps_tunes {e : Event} (htx : env.transactionMode = true) (hi : s.interceptor = i)
    (hs : s.toCore.Tunes values initial defaults s.startupParameters)
    (hsilent : s.LegsSilent env.upstream e)
    (h : Steps env i (NeutralPool env.upstream values initial defaults) s e d) :
    d.Tunes values initial defaults s.startupParameters := by
  cases steps_handles h with
  | same hl hc => exact hs.congr hl hc
  | closedName target name t _ _ _ hl hc => exact tunes_of_none hl
  | dropped hl _ _ => exact tunes_of_none hl
  | leg sql t lease request leg he hsl ht _ hl hc =>
      have hdirty : d.leaseDirty = s.leaseDirty := congrArg Prod.fst hc
      have hlease := hs lease hsl
      subst he
      intro l hl'
      cases hl.symm.trans hl'
      refine ⟨hlease.current.collect hp leg.sql,
        Conn.Limited.collect hr.accrues hlease.home fun _ hx => hx.elim, fun hd => ?_⟩
      rw [hdirty] at hd
      have hclean := Conn.collect_clean (hsilent lease hsl hd leg.sql (hi ▸ ht))
      exact (Conn.collect_silent hclean).trans (hlease.clean hd)
  | entered m m' t c _ hent hl hc =>
      rcases hl with hl | hl
      · exact (enters_tunes hu hp hr hs hent).congr hl hc
      · exact tunes_of_none hl
  | put m m' m'' t c lease _ hent hh hlease hl hc =>
      have hdirty : d.leaseDirty = c.leaseDirty := congrArg Prod.fst hc
      have hconn := enters_tunes hu hp hr hs hent lease hlease
      intro l hl'
      cases hl.symm.trans hl'
      rw [hdirty]
      split
      · exact ⟨hconn.current.send hp _ _, hconn.home.send hr.accrues _ fun _ hx => hx.elim,
          hconn.clean⟩
      · exact ⟨hconn.current, hconn.home.feed _ fun _ hx => hx.elim, hconn.clean⟩
  | read o m c _ hread hl hc =>
      rw [htx] at hread
      exact (readNext_tunes hread hs).congr hl hc
  | detached o m c _ _ hl _ => exact tunes_of_none hl
  | cancelled _ hl hc =>
      have hdirty : d.leaseDirty = s.leaseDirty := congrArg Prod.fst hc
      intro l hl'
      rw [hl] at hl'
      obtain ⟨lease, hlease, rfl⟩ := Option.map_eq_some_iff.mp hl'
      have hconn := hs lease hlease
      rw [hdirty]
      exact ⟨hconn.current.cancel hr, hconn.home.cancel hr.accrues, hconn.clean⟩

end Steps

/-- A calm session with such a lease. -/
structure Tuned (u : Upstream σ) (values initial : σ → Values) (defaults : PoolKey → Values)
    (startup : Params) (c : Core σ) : Prop where
  calm : c.Calm u
  tunes : c.Tunes values initial defaults startup

/-- One cycle at a time, no report of a leg on the own lease, and no clean detach of startup
    parameters that are not the initial values. -/
structure Restores (u : Upstream σ) (defaults : PoolKey → Values) (s : Session σ κ) (e : Event) :
    Prop where
  oneCycle : s.OneCycle u e
  silent : s.LegsSilent u e
  leaves : s.LeavesDefaults defaults e

section Stable

variable (htx : env.transactionMode = true) (hu : env.upstream.InOrder)
  (hp : env.upstream.Parameters values) (hr : env.upstream.Resets values initial)

include htx hu hp hr

theorem tuned_releases (hsteady : Steady i)
    (hs : s.toCore.Tuned env.upstream values initial defaults s.startupParameters)
    (hleaves : s.LeavesDefaults defaults .upstream) :
    Session.Releases env i (NeutralPool env.upstream values initial defaults) s := by
  intro o m m' m'' c lease conn hread hshown hh hm _ _ hlease hd
  have hready : m.ready = 1 := hshown.ready.symm.trans (hh.steady hsteady hm)
  have hquiet := (readNext_calm hread hs.calm).2 hready lease hlease
  rw [htx] at hread
  have htuned := readNext_tunes hread hs.tunes lease hlease
  refine neutral_detached hu hp hr hquiet htuned.current htuned.home (fun hclean => ?_) hd
  -- a detach without `DISCARD ALL`: the values of the attach are the initial ones
  obtain ⟨before, rest, hl, hin, _, htrack, hdl⟩ := readNext_spec hread
  cases hdl.symm.trans hlease
  have hdown : s.leaseDirty = false := by
    rw [htrack] at hclean
    exact (track_clean hclean).1
  have hasks := hleaves before hl (o, m) (by rw [hin]; rfl) hready hdown
  exact (htuned.clean hclean).trans hasks.inForce

theorem tuned_stable {startup : Params} (hsteady : Steady i)
    (hasks : (∃ sql, LegText i sql) → ∀ key, AsksDefaults startup (defaults key)) :
    Session.Stable env i startup (NeutralPool env.upstream values initial defaults)
      (Restores env.upstream defaults) (Tuned env.upstream values initial defaults startup) where
  probe := neutral_probe hu hp hr
  leg := fun sql ht => neutral_leg hu hp hr (hasks ⟨sql, ht⟩) sql
  releases := by
    intro s hs _ hok
    refine tuned_releases htx hu hp hr hsteady ?_ hok.leaves
    rw [hs.startup]
    exact hs.inv
  step := by
    intro s e c hs _ hok h
    have hcalm := steps_calm hu hsteady hs.inv.calm hok.oneCycle
      (h.mono fun _ _ hc => hc.level.quiet)
    refine ⟨hcalm, ?_⟩
    obtain rfl := hs.startup
    exact steps_tunes hu hp hr htx hs.interceptor hs.inv.tunes hok.silent h

end Stable

end Core

end Pgferry
