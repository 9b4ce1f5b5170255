/-
  Sessions that share a pool do not see each other's traffic.

  A lease goes back to its pool when the pump has read a `ReadyForQuery` with status idle, or when
  the session ends. Nothing counts the cycles that are still open on it then: a client that
  pipelines two queries has its connection detached after the first answer, and the second one
  is read by the next session.

  Proved: `pools_isolate`. With clients that have one cycle open at a time, and with session ends
  whose drain sees the open cycle's `ReadyForQuery` in time, every parked connection is quiet and
  every client gets replies to its own messages only, for any number of sessions and every
  interleaving.
-/
import Pgferry.System
import Pgferry.Session.Traffic

namespace Pgferry

open Loop

variable {σ κ : Type}

namespace Core

/-- The session `n` is calm and all its traffic is its own. -/
structure Isolated (u : Upstream σ) (n : Nat) (c : Core σ) : Prop where
  id : c.id = n
  calm : c.Calm u
  mine : c.Mine u

theorem steps_isolated {env : Env σ} {i : Option (Interceptor κ)} {s : Session σ κ} {e : Event}
    {d : Core σ} {n : Nat} (hu : env.upstream.InOrder) (hp : Steady i) (hm : Mute i)
    (hc : s.toCore.Isolated env.upstream n) (hone : s.OneCycle env.upstream e)
    (h : Steps env i (QuietPool env.upstream) s e d) : d.Isolated env.upstream n := by
  obtain ⟨hid, hseq⟩ := steps_position h
  have hflows := steps_flows hu hm (by
    rintro _ sql t lease leg rfl hlease hb
    have hfree := hone.resolve_left nofun
    rw [outstanding_some hlease] at hfree
    exact (Conn.runQueryCollect_quiet hu (hc.calm.tame lease hlease) hfree hb).tags) h
  exact ⟨hid.trans hc.id, steps_calm hu hp hc.calm hone h, hc.mine.step hflows hid hseq⟩

theorem isolated_stable {env : Env σ} {i : Option (Interceptor κ)} {startup : Params} (n : Nat)
    (hu : env.upstream.InOrder) (hp : Steady i) (hm : Mute i) :
    Session.Stable env i startup (QuietPool env.upstream) (Session.OneCycle env.upstream)
      (Isolated env.upstream n) where
  probe := quiet_probe hu
  leg := fun sql _ => quiet_leg hu startup sql
  releases := fun _ hs _ _ => calm_releases hu hp hs.inv.calm
  step := fun _ _ _ hs _ hone h => steps_isolated hu hp hm hs.inv hone h

/-- Without a lease there is no traffic. -/
theorem Isolated.unleased {u : Upstream σ} {n : Nat} {c : Core σ} (h : c.Isolated u n) :
    { c with lease := none }.Isolated u n :=
  ⟨h.id, calm_of_none rfl, h.mine.sent, fun _ ho => absurd ho List.not_mem_nil⟩

end Core

theorem Launch.start_isolated {env : Env σ} {l : Launch σ κ} (hu : env.upstream.InOrder)
    (ht : l.world.Tidy (QuietPool env.upstream)) :
    Session.Holds l.interceptor l.startup (QuietPool env.upstream)
      (Core.Isolated env.upstream l.id) (l.new.start env) := by
  have hcalm := l.start_calm hu ht
  obtain ⟨hflows, hid⟩ := l.start_flows hu ht
  have hnew : l.new.toCore.Mine env.upstream :=
    ⟨fun _ h => absurd h List.not_mem_nil, fun _ h => absurd h List.not_mem_nil⟩
  exact ⟨⟨hid, hcalm.inv, hnew.step hflows hid (Nat.zero_le _)⟩, hcalm.tidy, hcalm.interceptor,
    hcalm.startup⟩

/-- When the session ends with a cycle open, the drain of `settle` meets its `ReadyForQuery`. -/
def Session.EndsInTime (u : Upstream σ) (s : Session σ κ) (arrived : Nat) : Prop :=
  s.ended = some .clientGone → ∀ lease ∈ s.lease, lease.conn.pending u ≠ 0 →
    drainsInTime u lease.conn s.hygiene arrived = true

instance (u : Upstream σ) (s : Session σ κ) (arrived : Nat) : Decidable (s.EndsInTime u arrived) :=
  inferInstanceAs (Decidable (_ → _))

theorem Session.finish_isolated {env : Env σ} {s : Session σ κ} {n arrived : Nat}
    (hu : env.upstream.InOrder) (hc : s.toCore.Isolated env.upstream n)
    (ht : s.world.Tidy (QuietPool env.upstream)) (he : s.EndsInTime env.upstream arrived) :
    (s.finish env arrived).world.Tidy (QuietPool env.upstream) ∧
      (s.finish env arrived).toCore.Isolated env.upstream n := by
  refine ⟨finish_tidy ht fun lease conn hend hlease hsan => ?_, ?_⟩
  · exact sanitize_quiet hu (hc.calm.tame lease hlease) (he hend lease hlease) hsan
  · rcases s.finish_core env arrived with h | h <;> rw [h]
    · exact hc
    · exact hc.unleased

/-- The sessions have no interceptor. -/
def Launch.Plain (l : Launch σ κ) : Prop := l.hooks.isNone = true

instance (l : Launch σ κ) : Decidable l.Plain := inferInstanceAs (Decidable (_ = _))

theorem Launch.Plain.interceptor {l : Launch σ κ} (h : l.Plain) : l.interceptor = none := by
  rw [Launch.interceptor, Option.isNone_iff_eq_none.mp h]
  rfl

theorem Launch.Plain.passive {l : Launch σ κ} (h : l.Plain) : Passive l.interceptor := by
  rw [h.interceptor]
  exact passive_none

theorem System.isolated_keeps {env : Env σ} (hu : env.upstream.InOrder) :
    System.Keeps (κ := κ) env (QuietPool env.upstream) Launch.Plain
      (Session.OneCycle env.upstream) (Session.EndsInTime env.upstream)
      (Core.Isolated env.upstream) where
  anywhere := fun _ _ _ h => h
  start := fun l _ ht => l.start_isolated hu ht
  stable := fun l hl => Core.isolated_stable l.id hu hl.passive.steady hl.passive.mute
  finish := fun _ _ _ hc ht he => Session.finish_isolated hu hc ht he

/-- Parked connections are quiet, and every reply that a client got, or that is on its way to it,
    answers one of its own messages. -/
structure System.Isolates (u : Upstream σ) (y : System σ κ) : Prop where
  parked : ∀ key, ∀ p ∈ (y.world.pools key).idle, p.conn.Quiet u
  own : ∀ (n : Nat) (s : Session σ κ), y.sessions[n]? = some s → s.id = n ∧ s.toCore.Mine u

theorem System.Isolates.replies_own {u : Upstream σ} {y : System σ κ} (h : y.Isolates u)
    (n : Nat) : ∀ s ∈ y.sessions[n]?, ∀ o ∈ replies s.log, s.toCore.Owns o :=
  fun s hs => (h.own n s hs).2.sent

/-- Any number of sessions without interceptors, in any interleaving. -/
theorem pools_isolate (env : Env σ) (world : World σ) (acts : List (Act σ κ))
    (hu : env.upstream.InOrder) (hworld : world.Tidy (QuietPool env.upstream))
    (hrun : Along (System.act env) (System.Within Launch.Plain (Session.OneCycle env.upstream)
      (Session.EndsInTime env.upstream)) (System.init world) acts) :
    (run (System.act env) (System.init world) acts).Isolates env.upstream := by
  have h := (System.isolated_keeps hu).run world acts hworld hrun
  exact ⟨h.tidy.idle, fun n s hs => ⟨(h.sessions n s hs).1.id, (h.sessions n s hs).1.mine⟩⟩

namespace Sample

/-- The proxy of the small deployment after the acts, in transaction mode. -/
def system (acts : List (Act Pg Unit)) : System Pg Unit :=
  run (System.act (env .transaction)) (System.init (world .transaction)) acts

/-- A client without an interceptor connects. -/
def connect : Act Pg Unit := .connect (launch .transaction none)

/-- The session `n` takes the events `es`. -/
def turns (n : Nat) (es : List Event) : List (Act Pg Unit) := es.map (.event n)

end Sample

open Sample

/-- Two clients on one connection, one after the other. The second leaves before its answer was
    read. -/
theorem pools_isolate_shared :
    (system ([connect, connect] ++
      turns 0 ([client (.query "SELECT 1")] ++ reads 2) ++
      turns 1 [client (.query "SELECT 2"), .clientGone] ++
      [.finish 1 2])).Isolates (env .transaction).upstream :=
  pools_isolate (env .transaction) (world .transaction) _ (pg_inOrder _)
    (world_quiet .transaction) (by decide)

/-- A client that pipelines two queries: its connection is parked with the second one's answer
    on it, and the next session reads it. -/
theorem pools_leak :
    ¬ (system ([connect, connect] ++
        turns 0 ([client (.query "SELECT 1"), client (.query "SELECT 2")] ++
          reads 2))).Isolates (env .transaction).upstream ∧
      ¬ (system ([connect, connect] ++
        turns 0 ([client (.query "SELECT 1"), client (.query "SELECT 2")] ++
          reads 2) ++
        turns 1 ([client (.query "SELECT 3")] ++ reads 1))).Isolates
        (env .transaction).upstream := by
  refine ⟨fun h => ?_, fun h => ?_⟩
  · exact absurd (h.parked ⟨"main", "a", "u", none⟩) (by decide)
  · exact absurd (h.replies_own 1) (by decide)

end Pgferry
