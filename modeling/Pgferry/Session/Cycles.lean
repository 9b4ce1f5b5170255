/-
  Sessions whose client runs one cycle at a time.

  A client that waits for the `ReadyForQuery` of a `Query` or `Sync` before it sends anything
  but COPY messages (`OneCycle`) never has two cycles open on its lease. With raw hooks that
  pass every message on (`Passive`) and an upstream that is `InOrder`, the lease's connection is
  then `Tame` in every state, and `awaiting_response` is set whenever a `ReadyForQuery` is
  pending (`Calm`). A detach releases a quiet connection.

  Proved: `calm_stable`, all this is kept by every step of a session among others.
-/
import Pgferry.Hygiene
import Pgferry.Session.Frames
import Pgferry.Session.Runs

namespace Pgferry

open Loop

variable {σ κ : Type}

/-! ## Hooks -/

/-- The raw hooks pass every message on unchanged. -/
def Passive (i : Option (Interceptor κ)) : Prop :=
  ∀ h ∈ i, ∀ ctx, (∀ m, (h.onFrontend ctx m).2 = (m, .forward)) ∧
    ∀ m, (h.onBackend ctx m).2 = (m, .forward)

section Hooks

variable {i : Option (Interceptor κ)}

theorem passive_none : Passive (none : Option (Interceptor κ)) := nofun

theorem Hooked.passive {m m' : FrontendMessage} {action : Action} (h : Hooked i m m' action)
    (hp : Passive i) : m' = m ∧ action = .forward := by
  rcases h with ⟨_, rfl, rfl⟩ | ⟨k, hk, ctx, heq⟩
  · exact ⟨rfl, rfl⟩
  · rw [(hp k hk ctx).1 m] at heq
    cases heq
    exact ⟨rfl, rfl⟩

theorem HookedBack.passive {m m' : BackendMessage} {action : Action} (h : HookedBack i m m' action)
    (hp : Passive i) : m' = m ∧ action = .forward := by
  rcases h with ⟨_, rfl, rfl⟩ | ⟨k, hk, ctx, heq⟩
  · exact ⟨rfl, rfl⟩
  · rw [(hp k hk ctx).2 m] at heq
    cases heq
    exact ⟨rfl, rfl⟩

/-- `on_frontend` does not modify messages and `on_backend` makes no `ReadyForQuery` out of
    another message. Both may also answer in place of the server. -/
def Steady (i : Option (Interceptor κ)) : Prop :=
  ∀ h ∈ i, ∀ ctx, (∀ m, (h.onFrontend ctx m).2.1 = m) ∧
    ∀ m, (h.onBackend ctx m).2.1.ready = 1 → m.ready = 1

theorem Passive.steady (hp : Passive i) : Steady i := by
  refine fun h hi ctx => ⟨fun m => ?_, fun m hm => ?_⟩
  · rw [(hp h hi ctx).1 m]
  · rwa [(hp h hi ctx).2 m] at hm

theorem Hooked.steady {m m' : FrontendMessage} {action : Action} (h : Hooked i m m' action)
    (hp : Steady i) : m' = m := by
  rcases h with ⟨_, rfl, _⟩ | ⟨k, hk, ctx, heq⟩
  · rfl
  · exact (congrArg Prod.fst heq).symm.trans ((hp k hk ctx).1 m)

theorem HookedBack.steady {m m' : BackendMessage} {action : Action} (h : HookedBack i m m' action)
    (hp : Steady i) (hm : m'.ready = 1) : m.ready = 1 := by
  rcases h with ⟨_, rfl, _⟩ | ⟨k, hk, ctx, heq⟩
  · exact hm
  · refine (hp k hk ctx).2 m ?_
    rwa [heq]

/-- The raw hooks do not answer in place of the server. -/
def Mute (i : Option (Interceptor κ)) : Prop :=
  ∀ h ∈ i, ∀ ctx, (∀ m ms, (h.onFrontend ctx m).2.2 ≠ .reply ms) ∧
    ∀ m ms, (h.onBackend ctx m).2.2 ≠ .reply ms

theorem Passive.mute (hp : Passive i) : Mute i := by
  refine fun h hi ctx => ⟨fun m ms => ?_, fun m ms => ?_⟩
  · rw [(hp h hi ctx).1 m]
    nofun
  · rw [(hp h hi ctx).2 m]
    nofun

theorem Hooked.mute {m m' : FrontendMessage} {ms : List BackendMessage}
    (h : Hooked i m m' (.reply ms)) (hp : Mute i) : False := by
  rcases h with ⟨_, _, h⟩ | ⟨k, hk, ctx, heq⟩
  · cases h
  · exact (hp k hk ctx).1 m ms (congrArg Prod.snd heq)

theorem HookedBack.mute {m m' : BackendMessage} {ms : List BackendMessage}
    (h : HookedBack i m m' (.reply ms)) (hp : Mute i) : False := by
  rcases h with ⟨_, _, h⟩ | ⟨k, hk, ctx, heq⟩
  · cases h
  · exact (hp k hk ctx).2 m ms (congrArg Prod.snd heq)

theorem Shown.ready {m m' : BackendMessage} (h : Shown i m m') : m'.ready = m.ready := by
  rcases h with rfl | ⟨_, ⟨_, _, rfl, rfl⟩ | ⟨_, _, rfl, rfl⟩⟩ <;> rfl

/-- A rewrite changes the SQL of a message and nothing else. -/
theorem Forwards.kind {m m' : FrontendMessage} (h : Forwards i m m') :
    m'.cycles = m.cycles ∧ m'.isCopy = m.isCopy ∧ m'.triggersResponse = m.triggersResponse ∧
      m'.startsResponse = m.startsResponse := by
  rcases h with ⟨rfl, _⟩ | ⟨_, _, _, sql, rfl⟩
  · exact ⟨rfl, rfl, rfl, rfl⟩
  · cases m <;> cases sql <;> exact ⟨rfl, rfl, rfl, rfl⟩

end Hooks

/-! ## Events -/

def Event.isQuery : Event → Bool
  | .client (.query _) _ => true
  | _ => false

/-- The event is a `Sync` of the client. -/
def Event.isSync : Event → Bool
  | .client .sync _ => true
  | _ => false

/-! ## The invariant -/

namespace Core

/-- The lease's connection is tame, and a pending `ReadyForQuery` is awaited. -/
structure Calm (u : Upstream σ) (c : Core σ) : Prop where
  tame : ∀ lease, c.lease = some lease → lease.conn.Tame u
  awaiting : ∀ lease, c.lease = some lease → lease.conn.pending u ≠ 0 →
    c.hygiene.awaitingResponse = true

/-- `ReadyForQuery` messages that are pending on the lease. -/
def outstanding (u : Upstream σ) (c : Core σ) : Nat :=
  match c.lease with
  | some lease => lease.conn.pending u
  | none => 0

theorem outstanding_some {u : Upstream σ} {c : Core σ} {lease : UpstreamLease σ}
    (h : c.lease = some lease) : c.outstanding u = lease.conn.pending u := by
  rw [outstanding, h]

theorem outstanding_none {u : Upstream σ} {c : Core σ} (h : c.lease = none) :
    c.outstanding u = 0 := by
  rw [outstanding, h]

theorem outstanding_congr {u : Upstream σ} {c d : Core σ} (h : d.lease = c.lease) :
    d.outstanding u = c.outstanding u := by
  rw [outstanding, outstanding, h]

end Core

/-- The client sends nothing but COPY messages while a cycle is open. More than results on
    pooling need: it also excludes pipelining whose answers are all read before a detach. -/
def Session.OneCycle (u : Upstream σ) (s : Session σ κ) : Event → Prop
  | .client m _ => m.isCopy = true ∨ s.toCore.outstanding u = 0
  | _ => True

instance (u : Upstream σ) (s : Session σ κ) : ∀ e, Decidable (s.OneCycle u e)
  | .client _ _ => inferInstanceAs (Decidable (_ ∨ _))
  | .clientGone | .upstream | .upstreamClosed | .upstreamError _ | .cancel | .shutdown =>
      isTrue trivial

namespace Conn

variable {u : Upstream σ}

theorem noted_tame {c : Conn σ} (h : c.Tame u) (m : BackendMessage) : (c.noted m).Tame u := by
  cases m <;> exact ⟨h.balanced, h.pending_le, h.last, h.outbox, h.copying⟩

theorem noted_quiet {c : Conn σ} (h : c.Quiet u) (m : BackendMessage) : (c.noted m).Quiet u := by
  cases m <;> exact ⟨h.outbox, h.inbox, h.owed, h.copying, h.settled⟩

theorem noted_pending (c : Conn σ) (m : BackendMessage) : (c.noted m).pending u = c.pending u := by
  cases m <;> rfl

/-- Forwarding a message on a tame connection. -/
theorem put_tame (hu : u.InOrder) {c : Conn σ} (h : c.Tame u) (o : Origin) {m : FrontendMessage}
    (hone : m.isCopy = true ∨ c.pending u = 0) :
    (if m.triggersResponse then c.send u o m else c.feed o m).Tame u ∧
      (if m.triggersResponse then c.send u o m else c.feed o m).pending u =
        c.pending u + m.cycles := by
  split
  case isTrue =>
    refine ⟨?_, send_pending hu c o m⟩
    rcases hone with hcopy | hp
    · exact send_copy_tame hu h o hcopy
    · exact send_tame hu h hp o m
  case isFalse hm =>
    have hp := hone.resolve_left fun hcopy =>
      hm (FrontendMessage.triggersResponse_of_isCopy hcopy)
    refine ⟨feed_tame h hp o ?_, feed_pending u c o m⟩
    by_contra hcyc
    exact hm (FrontendMessage.triggersResponse_of_cycles hcyc)

end Conn

namespace Core

variable {u : Upstream σ} {c d : Core σ}

theorem calm_of_none (h : c.lease = none) : c.Calm u :=
  ⟨fun lease hl => (by rw [h] at hl; cases hl), fun lease hl => (by rw [h] at hl; cases hl)⟩

theorem calm_of_quiet {lease : UpstreamLease σ} (h : c.lease = some lease)
    (hq : lease.conn.Quiet u) : c.Calm u := by
  refine ⟨fun l hl => ?_, fun l hl hne => ?_⟩ <;> rw [h] at hl <;> cases hl
  · exact hq.tame
  · exact absurd hq.pending hne

theorem Calm.congr (h : c.Calm u) (hl : d.lease = c.lease)
    (ha : c.hygiene.awaitingResponse = true → d.hygiene.awaitingResponse = true) : d.Calm u :=
  ⟨fun lease he => h.tame lease (hl ▸ he), fun lease he hne => ha (h.awaiting lease (hl ▸ he) hne)⟩

section Steps

variable {env : Env σ} {i : Option (Interceptor κ)} {s : Session σ κ}
  (hu : env.upstream.InOrder)

include hu

theorem answered_calm {m : FrontendMessage} {t : Timing} (h : Answered env i s c m t d)
    (hc : c.Calm env.upstream) (hone : m.isCopy = true ∨ c.outstanding env.upstream = 0) :
    d.Calm env.upstream := by
  obtain ⟨hf, hl⟩ := answered_frame h
  cases hl with
  | same hl => exact hc.congr hl (by rw [hf.hygiene]; exact fun h => h)
  | dropped _ _ _ hl => exact calm_of_none hl
  | ran _ sql lease leg hm hlease hb hl =>
      subst hm
      have hfree := hone.resolve_left (by simp [FrontendMessage.isCopy])
      rw [outstanding_some hlease] at hfree
      exact calm_of_quiet hl (Conn.runQueryCollect_quiet hu (hc.tame lease hlease) hfree hb)

theorem attaches_calm {params : SessionParams} {startup : Params}
    (h : Attaches env (QuietPool env.upstream) params startup c d) (hc : c.Calm env.upstream) :
    d.Calm env.upstream ∧ d.outstanding env.upstream = c.outstanding env.upstream := by
  cases h with
  | held => exact ⟨hc, rfl⟩
  | leased endpoint dirty₀ base lease dirty hnone hdirty hpool hbase hprep =>
      have hq := prepared_quiet hu hbase hprep
      refine ⟨calm_of_quiet rfl hq, ?_⟩
      rw [outstanding_none hnone]
      exact hq.pending

theorem enters_calm {m m' : FrontendMessage}
    (h : Enters env i (QuietPool env.upstream) s c m m' d) (hc : c.Calm env.upstream) :
    d.Calm env.upstream ∧ d.outstanding env.upstream = c.outstanding env.upstream := by
  obtain ⟨b, hb⟩ := c.note_eq m
  obtain ⟨c₁, hatt, rfl⟩ := h.attaches
  obtain ⟨_, _, hr⟩ := c₁.register_eq (pendingParse m')
  rw [hb] at hatt
  rw [hr]
  obtain ⟨h1, h2⟩ := attaches_calm hu hatt (hc.congr rfl fun h => h)
  exact ⟨h1.congr rfl fun h => h, h2⟩

theorem put_calm {lease : UpstreamLease σ} {m : FrontendMessage} (hc : c.Calm env.upstream)
    (hlease : c.lease = some lease) (hone : m.isCopy = true ∨ c.outstanding env.upstream = 0) :
    ((c.await m).put env.upstream lease m).Calm env.upstream := by
  rw [await_eq]
  obtain ⟨htame, hpend⟩ := Conn.put_tame hu (hc.tame lease hlease) c.origin
    (hone.imp (fun h => h) fun h => (outstanding_some hlease).symm.trans h)
  refine ⟨fun l hl => ?_, fun l hl hne => ?_⟩ <;> cases hl
  · exact htame
  · refine Bool.or_eq_true_iff.mpr ?_
    by_cases hcyc : m.cycles = 0
    · refine .inl (hc.awaiting lease hlease ?_)
      rw [hcyc] at hpend
      exact fun h => hne (hpend.trans h)
    · exact .inr (FrontendMessage.startsResponse_of_cycles hcyc)

end Steps

theorem lost_calm {i : Option (Interceptor κ)} {lease : UpstreamLease σ} {reason : String}
    {synth : Bool} (h : Lost i c lease reason synth d) (hc : c.Calm u) : d.Calm u := by
  cases h with
  | closed => exact hc.congr rfl fun h => h
  | silent => exact calm_of_none rfl
  | simple _ _ _ h => cases h <;> exact calm_of_none rfl
  | extended _ _ _ h => cases h <;> exact calm_of_none rfl

theorem track_awaiting (tm : Bool) (c : Core σ) (m : BackendMessage) (hm : m.ready = 0) :
    (c.track tm m).hygiene.awaitingResponse = c.hygiene.awaitingResponse := by
  cases m <;> first
    | rfl
    | cases hm

theorem readNext_calm {tm : Bool} {o : Origin} {m : BackendMessage}
    (h : c.readNext tm = some (o, m, d)) (hc : c.Calm u) :
    d.Calm u ∧ (m.ready = 1 → ∀ lease, d.lease = some lease → lease.conn.Quiet u) := by
  obtain ⟨lease, rest, hlease, hin, _, htrack, hd⟩ := readNext_spec h
  have ht := hc.tame lease hlease
  obtain ⟨htake, hpend⟩ := Conn.take_tame ht hin
  have hquiet : m.ready = 1 → ∀ l, d.lease = some l → l.conn.Quiet u := by
    intro hm l hl
    rw [hd] at hl
    cases hl
    exact Conn.noted_quiet (Conn.take_quiet ht hin hm) m
  refine ⟨?_, hquiet⟩
  by_cases hm : m.ready = 1
  · exact calm_of_quiet hd (hquiet hm _ hd)
  · have hm0 : m.ready = 0 := by have := m.ready_le_one; omega
    refine ⟨fun l hl => ?_, fun l hl hne => ?_⟩ <;> rw [hd] at hl <;> cases hl
    · exact Conn.noted_tame htake m
    · rw [Conn.noted_pending] at hne
      rw [htrack, track_awaiting _ _ _ hm0]
      exact hc.awaiting lease hlease fun h => hne (Nat.add_eq_zero_iff.mp (hpend.trans h)).1

theorem afterReady_calm {tm : Bool} (hc : c.Calm u) : (c.afterReady tm).Calm u := by
  unfold afterReady
  split
  · exact hc.congr rfl fun h => h
  · split
    · split
      · exact calm_of_none rfl
      · exact hc
    · exact hc

theorem steps_calm {env : Env σ} {i : Option (Interceptor κ)} {s : Session σ κ} {e : Event}
    (hu : env.upstream.InOrder) (hp : Steady i) (hc : s.toCore.Calm env.upstream)
    (hone : s.OneCycle env.upstream e)
    (h : Steps env i (QuietPool env.upstream) s e d) : d.Calm env.upstream := by
  have hrecv : ∀ m, (s.toCore.recv m).Calm env.upstream := fun m => hc.congr rfl fun h => h
  cases h with
  | answered m t _ h => exact answered_calm hu h (hrecv m) hone
  | attachFailed m m' t d' _ _ h =>
      obtain ⟨_, _, _, _, hnone, -, rfl⟩ := attachFails_noted h
      exact calm_of_none hnone
  | hookReplied m m' m'' t ms c _ hent hh h =>
      have hc₁ := (enters_calm hu hent (hrecv m)).1
      cases h <;> exact hc₁.congr rfl fun h => h
  | hookStopped m m' m'' t action c hent =>
      exact (enters_calm hu hent (hrecv m)).1.congr rfl fun h => h
  | put m m' m'' t c lease hent hh hlease =>
      obtain ⟨hc₁, hout⟩ := enters_calm hu hent (hrecv m)
      obtain rfl := hh.steady hp
      refine put_calm hu hc₁ hlease ?_
      rw [hent.forwards.kind.2.1]
      exact hone.imp (fun h => h) hout.trans
  | sendFailed m m' m'' t c _ lease hent hh hlease hs h =>
      obtain ⟨hc₁, _⟩ := enters_calm hu hent (hrecv m)
      rw [await_eq] at h
      exact lost_calm h (hc₁.congr rfl fun ha => Bool.or_eq_true_iff.mpr (.inl ha))
  | clientGone => exact hc.congr rfl fun h => h
  | idle => exact hc
  | rowDropped o m _ row hr => exact (readNext_calm hr hc).1
  | readStopped o m c e hr => exact (readNext_calm hr hc).1.congr rfl fun h => h
  | replaced o m m' m'' ms c _ hr hs hh h =>
      have hc₁ := (readNext_calm hr hc).1
      cases h <;> exact hc₁.congr rfl fun h => h
  | passed o m m' m'' c _ hr hs hh h =>
      have hc₁ := (readNext_calm hr hc).1
      cases h with
      | done =>
          split
          · exact afterReady_calm (hc₁.congr rfl fun h => h)
          · exact hc₁.congr rfl fun h => h
      | cut => exact hc₁.congr rfl fun h => h
  | upstreamClosed lease _ hlease h => exact lost_calm h hc
  | upstreamError => exact hc.congr rfl fun h => h
  | cancel lease hlease =>
      refine ⟨fun l hl => ?_, fun l hl hne => ?_⟩ <;> cases hl
      · exact Conn.cancel_tame hu (hc.tame lease hlease)
      · exact hc.awaiting lease hlease (by rwa [Conn.cancel_pending hu] at hne)
  | drain => exact hc.congr rfl fun h => h
  | shutdown => exact hc.congr rfl fun h => h

/-- What such a session detaches is quiet. -/
theorem calm_releases {env : Env σ} {i : Option (Interceptor κ)} {s : Session σ κ}
    (hu : env.upstream.InOrder) (hp : Steady i) (hc : s.toCore.Calm env.upstream) :
    Session.Releases env i (QuietPool env.upstream) s := by
  intro o m m' m'' c lease conn hr hs hh hm _ _ hlease hd
  exact discardIfDirty_quiet hu
    ((readNext_calm hr hc).2 (hs.ready.symm.trans (hh.steady hp hm)) lease hlease) hd

theorem calm_stable {env : Env σ} {i : Option (Interceptor κ)} {startup : Params}
    (hu : env.upstream.InOrder) (hp : Steady i) :
    Session.Stable env i startup (QuietPool env.upstream) (Session.OneCycle env.upstream)
      (Calm env.upstream) where
  probe := quiet_probe hu
  leg := fun sql _ => quiet_leg hu startup sql
  releases := fun _ hs _ _ => calm_releases hu hp hs.inv
  step := fun _ _ _ hs _ hone h => steps_calm hu hp hs.inv hone h

end Core

/-- The start of a session over quiet pools. -/
theorem Launch.start_quiet {env : Env σ} (l : Launch σ κ) (hu : env.upstream.InOrder)
    (ht : l.world.Tidy (QuietPool env.upstream)) :
    l.new.Kept (QuietPool env.upstream) (l.new.start env) ∧
      Session.Starts env (QuietPool env.upstream) l.params l.startup l.new.toCore
        (l.new.start env).toCore :=
  Session.start_spec (quiet_probe hu) (quiet_baseline hu) ht

/-- The pump starts calm. -/
theorem Launch.start_calm {env : Env σ} {l : Launch σ κ} (hu : env.upstream.InOrder)
    (ht : l.world.Tidy (QuietPool env.upstream)) :
    Session.Holds l.interceptor l.startup (QuietPool env.upstream) (Core.Calm env.upstream)
      (l.new.start env) := by
  obtain ⟨hk, hstart⟩ := l.start_quiet hu ht
  refine ⟨?_, hk.tidy, hk.interceptor, hk.startup⟩
  have hnone : l.new.lease = none := rfl
  generalize (l.new.start env).toCore = d at hstart
  cases hstart with
  | detached => exact Core.calm_of_none hnone
  | refused => exact Core.calm_of_none hnone
  | attached c₁ _ h =>
      exact (Core.attaches_calm hu h (Core.calm_of_none hnone)).1.congr rfl fun h => h

/-- The pools of the small deployment are empty and its servers start quiet. -/
theorem Sample.world_quiet (mode : PoolMode) :
    (Sample.world mode).Tidy (QuietPool (Sample.env mode).upstream) where
  idle := nofun
  fresh := by
    intro key n b ps h pid
    cases h
    exact Conn.new_quiet rfl rfl

end Pgferry
