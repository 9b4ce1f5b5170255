/-
  The transaction status of a session's server.

  With clients that have one cycle open at a time, a `ReadyForQuery` that waits on the lease
  carries the status that the server is in (`Truthful`). So the status byte that `detach_if_idle`
  looks at is the server's, and what a detach releases is outside a transaction.

  Proved: `truthful_stable`, all this is kept by every step of a session among others whose
  pooled connections are outside transactions, as long as the legs of its scatters open none.
-/
import Pgferry.Status
import Pgferry.Session.Cycles
import Pgferry.Session.Handles

namespace Pgferry

variable {σ κ : Type}

/-- The legs that the interceptor may ask for open no transaction. -/
def LegsOpenNone (u : Upstream σ) (status : σ → TransactionStatus) (i : Option (Interceptor κ)) :
    Prop :=
  ∀ sql, LegText i sql → OpensNone u status sql

theorem legsOpenNone_none (u : Upstream σ) (status : σ → TransactionStatus) :
    LegsOpenNone u status (none : Option (Interceptor κ)) := by
  rintro sql ⟨input, request, ⟨h, hmem, _⟩, _⟩
  cases hmem

namespace Core

/-- The session is calm and the `ReadyForQuery` on its lease, if any, is true. -/
structure Truthful (u : Upstream σ) (status : σ → TransactionStatus) (c : Core σ) : Prop where
  calm : c.Calm u
  honest : ∀ lease, c.lease = some lease → lease.conn.Honest status

variable {u : Upstream σ} {status : σ → TransactionStatus} {c d : Core σ}

theorem truthful_of_none (h : c.lease = none) : c.Truthful u status :=
  ⟨calm_of_none h, fun lease hl => by rw [h] at hl; cases hl⟩

/-- What was leased is at rest. -/
theorem taken_honest {env : Env σ} {params : SessionParams} {startup : Params}
    {p : Session.PendingParse} (hu : env.upstream.InOrder) (hr : env.upstream.Reports status)
    (h : Taken env (IdlePool env.upstream status) params startup c p d)
    (hc : ∀ lease, c.lease = some lease → lease.conn.Honest status) :
    ∀ lease, d.lease = some lease → lease.conn.Honest status := by
  intro lease hlease
  cases h with
  | held l hs hl => exact hc lease (hs.trans (hl.symm.trans hlease))
  | leased endpoint dirty₀ base l dirty _ _ _ hbase hprep hl =>
      cases hl.symm.trans hlease
      exact ((Conn.idle_exchanges hu hr).prepared hbase hprep).quiet.honest

theorem readNext_honest {tm : Bool} {o : Origin} {m : BackendMessage}
    (h : c.readNext tm = some (o, m, d))
    (hc : ∀ lease, c.lease = some lease → lease.conn.Honest status) :
    ∀ lease, d.lease = some lease → lease.conn.Honest status := by
  intro l hl
  obtain ⟨lease, rest, hlease, hin, _, _, hd⟩ := readNext_spec h
  cases hd.symm.trans hl
  exact ((hc lease hlease).take hin).noted m

theorem steps_honest {env : Env σ} {i : Option (Interceptor κ)} {s : Session σ κ} {e : Event}
    (hu : env.upstream.InOrder) (hr : env.upstream.Reports status) (hp : Passive i)
    (hc : s.toCore.Truthful env.upstream status) (hone : s.OneCycle env.upstream e)
    (h : Steps env i (IdlePool env.upstream status) s e d) :
    ∀ lease, d.lease = some lease → lease.conn.Honest status := by
  have hnone : d.lease = none → ∀ lease, d.lease = some lease → lease.conn.Honest status :=
    fun h lease hl => by rw [h] at hl; cases hl
  cases steps_handles h with
  | same hl => exact fun lease he => hc.honest lease (hl ▸ he)
  | closedName _ _ _ _ _ _ hl => exact hnone hl
  | dropped hl => exact hnone hl
  | leg sql t lease request leg he hs ht hb hl =>
      intro l hl'
      cases hl.symm.trans hl'
      subst he
      have hfree := hone.resolve_left nofun
      rw [outstanding_some hs] at hfree
      exact (Conn.runQueryCollect_quiet hu (hc.calm.tame lease hs) hfree hb).honest
  | entered m m' t c he hent hl =>
      rcases hl with hl | hl
      · exact fun lease he => taken_honest hu hr (enters_taken hent) hc.honest lease (hl ▸ he)
      · exact hnone hl
  | put m m' m'' t c lease he hent hh hlease hl =>
      intro l hl'
      cases hl.symm.trans hl'
      subst he
      obtain ⟨rfl, _⟩ := hh.passive hp
      obtain ⟨hcalm, hout⟩ := enters_calm hu (hent.mono fun _ _ h => Conn.AtRest.quiet h)
        (hc.calm.congr rfl fun h => h)
      refine Conn.put_honest hu hr (hcalm.tame lease hlease)
        (taken_honest hu hr (enters_taken hent) hc.honest lease hlease) c.origin ?_
      rw [hent.forwards.kind.2.1, ← outstanding_some hlease]
      exact hone.imp (fun h => h) hout.trans
  | read o m c he hr' hl =>
      exact fun lease he => readNext_honest hr' hc.honest lease (hl ▸ he)
  | detached _ _ _ _ _ hl => exact hnone hl
  | cancelled _ hl =>
      intro l hl'
      rw [hl] at hl'
      obtain ⟨lease, hlease, rfl⟩ := Option.map_eq_some_iff.mp hl'
      exact Conn.cancel_honest hr (hc.calm.tame lease hlease) (hc.honest lease hlease)

theorem steps_truthful {env : Env σ} {i : Option (Interceptor κ)} {s : Session σ κ} {e : Event}
    (hu : env.upstream.InOrder) (hr : env.upstream.Reports status) (hp : Passive i)
    (hc : s.toCore.Truthful env.upstream status) (hone : s.OneCycle env.upstream e)
    (h : Steps env i (IdlePool env.upstream status) s e d) : d.Truthful env.upstream status :=
  ⟨steps_calm hu hp.steady hc.calm hone (h.mono fun _ _ h => Conn.AtRest.quiet h),
    steps_honest hu hr hp hc hone h⟩

/-- What such a session detaches is outside a transaction. -/
theorem truthful_releases {env : Env σ} {i : Option (Interceptor κ)} {s : Session σ κ}
    (hu : env.upstream.InOrder) (hr : env.upstream.Reports status) (hp : Passive i)
    (hc : s.toCore.Truthful env.upstream status) :
    Session.Releases env i (IdlePool env.upstream status) s := by
  intro o m m' m'' c lease conn hread hs hh hm _ hidle hlease hd
  obtain ⟨rfl, _⟩ := hh.passive hp
  have hready : m.ready = 1 := hs.ready.symm.trans hm
  have hquiet := (readNext_calm hread hc.calm).2 hready lease hlease
  refine (Conn.idle_exchanges hu hr).discardIfDirty ⟨hquiet, ?_, ?_⟩ hd
  · simpa [leaseStatus, hlease] using hidle
  · obtain ⟨l, rest, hl, hin, _, _, hc'⟩ := readNext_spec hread
    cases hc'.symm.trans hlease
    cases m with
    | readyForQuery st =>
        have hst := hc.honest l hl o st (hin ▸ List.mem_cons_self)
        have hidle' : st = .idle := by
          simpa [leaseStatus, hlease, Conn.noted, Conn.setTransactionStatus] using hidle
        show status l.conn.backend = .idle
        rw [← hst, hidle']
    | _ => cases hready

theorem truthful_stable {env : Env σ} {i : Option (Interceptor κ)} {startup : Params}
    (hu : env.upstream.InOrder) (hr : env.upstream.Reports status) (hp : Passive i)
    (hlegs : LegsOpenNone env.upstream status i) :
    Session.Stable env i startup (IdlePool env.upstream status)
      (Session.OneCycle env.upstream) (Truthful env.upstream status) where
  probe := idle_probe hu hr
  leg := fun sql ht => idle_leg hu hr startup (hlegs sql ht)
  releases := fun _ hs _ _ => truthful_releases hu hr hp hs.inv
  step := fun _ _ _ hs _ hone h => steps_truthful hu hr hp hs.inv hone h

end Core

/-- A session starts on a connection at rest, or on none. -/
theorem Launch.start_atRest {env : Env σ} {l : Launch σ κ} {status : σ → TransactionStatus}
    (hu : env.upstream.InOrder) (hr : env.upstream.Reports status)
    (ht : l.world.Tidy (IdlePool env.upstream status)) :
    ∀ lease, (l.new.start env).lease = some lease → lease.conn.AtRest env.upstream status := by
  intro lease hlease
  obtain ⟨_, _, _, hbase, hprep⟩ :=
    l.start_leases (idle_probe hu hr) (idle_baseline hu hr) ht hlease
  exact (Conn.idle_exchanges hu hr).prepared hbase hprep

theorem Launch.start_truthful {env : Env σ} {l : Launch σ κ} {status : σ → TransactionStatus}
    (hu : env.upstream.InOrder) (hr : env.upstream.Reports status)
    (ht : l.world.Tidy (IdlePool env.upstream status)) :
    Session.Holds l.interceptor l.startup (IdlePool env.upstream status)
      (Core.Truthful env.upstream status) (l.new.start env) := by
  obtain ⟨hk, _⟩ : l.new.Kept (IdlePool env.upstream status) (l.new.start env) ∧ _ :=
    Session.start_spec (idle_probe hu hr) (idle_baseline hu hr) ht
  exact ⟨⟨(l.start_calm hu (ht.mono fun _ _ hc => hc.quiet)).inv,
    fun lease hl => (l.start_atRest hu hr ht lease hl).quiet.honest⟩, hk.tidy, hk.interceptor,
    hk.startup⟩

/-- The servers of the small deployment start outside a transaction. -/
theorem Sample.world_idle (mode : PoolMode) :
    (Sample.world mode).Tidy (IdlePool (Sample.env mode).upstream Pg.status) where
  idle := nofun
  fresh := by
    intro key n b ps h pid
    cases h
    exact ⟨Conn.new_quiet rfl rfl, rfl, rfl⟩

end Pgferry
