/-
  The end of a session: `sanitize` and the response cycles of the connection it checks in.

  `settle` drains the client's unfinished cycle for `CANCEL_DRAIN_TIMEOUT` and sends a `Sync` of
  its own when the timeout fires. If the `ReadyForQuery` of the cycle is still to come then, the
  exchanges that follow each consume the one before theirs, and one is left for the next session.

  Proved: `checkin_exact`, for a client with one cycle open at most this is the only way: the
  connection is checked in with every `ReadyForQuery` consumed exactly when nothing was pending
  or the drain met it in time.
-/
import Pgferry.Session.Cycles

namespace Pgferry

open Loop

variable {σ κ : Type}

theorem drainsInTime_pending {u : Upstream σ} (hu : u.InOrder) {c : Conn σ} {h : Hygiene}
    {arrived : Nat} (hd : drainsInTime u c h arrived = true) : c.pending u ≠ 0 := by
  have hsettling : ∀ sendCopyFail awaiting,
      (settling u c sendCopyFail awaiting).pending u = c.pending u := by
    intro sendCopyFail awaiting
    cases sendCopyFail <;> cases awaiting <;>
      simp [settling, Conn.cancel_pending hu, Conn.send_pending hu, FrontendMessage.cycles]
  unfold drainsInTime at hd
  have hin := (drainWithin_spec arrived
    (settling u c (decide (h.copy = .clientOwesCopy)) h.awaitingResponse)).2.2.2.2
    (Bool.and_eq_true_iff.mp hd).2
  rw [← hsettling (decide (h.copy = .clientOwesCopy)) h.awaitingResponse]
  unfold Conn.pending
  omega

/-- `sanitize` on a connection with at most one cycle open. -/
theorem sanitize_exact {u : Upstream σ} (hu : u.InOrder) {c c' : Conn σ} {h : Hygiene}
    {arrived : Nat} (ht : c.Tame u) (hs : sanitize u c h arrived = .ok c') :
    c'.consumed = c'.elicited ↔ (c.pending u ≠ 0 → drainsInTime u c h arrived = true) := by
  have hbal := sanitize_balance hs
  have hb := ht.balanced
  have hle := ht.pending_le
  have hpos : drainsInTime u c h arrived = true → c.pending u ≠ 0 := drainsInTime_pending hu
  unfold Conn.Balanced at hb
  cases hd : drainsInTime u c h arrived with
  | true =>
      have := hpos hd
      simp only [hd, if_true] at hbal
      simp only [implies_true, iff_true]
      omega
  | false =>
      simp only [hd, Bool.false_eq_true, if_false] at hbal
      simp only [Bool.false_eq_true, imp_false, not_not]
      omega

/-- The end of a session whose client has at most one cycle open, at any point of any run. -/
theorem checkin_exact (env : Env σ) (l : Launch σ κ) (ms : List (Move σ)) (arrived : Nat)
    (lease : UpstreamLease σ) (conn : Conn σ) (hu : env.upstream.InOrder)
    (hpassive : Passive l.interceptor) (hworld : l.world.Tidy (QuietPool env.upstream))
    (hrun : l.Runs env (QuietPool env.upstream) (Session.OneCycle env.upstream) ms)
    (hlease : (l.after env ms).lease = some lease)
    (hsan : sanitize env.upstream lease.conn (l.after env ms).hygiene arrived = .ok conn) :
    conn.consumed = conn.elicited ↔ (lease.conn.pending env.upstream ≠ 0 →
      drainsInTime env.upstream lease.conn (l.after env ms).hygiene arrived = true) := by
  have hcalm := Launch.holds (Core.calm_stable hu hpassive.steady)
    (Launch.start_calm hu hworld) hrun
  exact sanitize_exact hu (hcalm.inv.tame lease hlease) hsan

open Sample

/-- `checkin` of the small deployment: what `sanitize` makes of the lease after the events `es`,
    as the `ReadyForQuery` messages consumed and elicited. -/
def Sample.checkin (es : List Event) (arrived : Nat) : Option (Nat × Nat) :=
  ((after .session none es).lease.bind fun lease =>
    (sanitize (env .session).upstream lease.conn (after .session none es).hygiene
      arrived).toOption).map fun conn => (conn.consumed, conn.elicited)

theorem Sample.checkin_spec {es : List Event} {arrived consumed elicited : Nat}
    (h : checkin es arrived = some (consumed, elicited)) :
    ∃ lease conn, (after .session none es).lease = some lease ∧
      sanitize (env .session).upstream lease.conn (after .session none es).hygiene
        arrived = .ok conn ∧ conn.consumed = consumed ∧ conn.elicited = elicited := by
  obtain ⟨conn, hconn, heq⟩ := Option.map_eq_some_iff.mp h
  obtain ⟨lease, hlease, hs⟩ := Option.bind_eq_some_iff.mp hconn
  cases heq
  refine ⟨lease, conn, hlease, ?_, rfl, rfl⟩
  revert hs
  cases sanitize (env .session).upstream lease.conn
      (after .session none es).hygiene arrived with
  | error e => exact nofun
  | ok c => exact fun hs => congrArg Except.ok (Option.some.inj hs)

/-- A client that leaves before its query is answered, with the answer there in time. -/
theorem checkin_exact_in_time :
    ∃ lease conn, (after .session none [client (.query "SELECT 1")]).lease =
        some lease ∧
      sanitize (env .session).upstream lease.conn
        (after .session none [client (.query "SELECT 1")]).hygiene 2 = .ok conn ∧
      lease.conn.pending (env .session).upstream = 1 ∧ conn.consumed = conn.elicited := by
  obtain ⟨lease, conn, hlease, hsan, _⟩ := checkin_spec
    (by decide : checkin [client (.query "SELECT 1")] 2 = some (2, 2))
  have htime : ∀ lease ∈ (after .session none [client (.query "SELECT 1")]).lease,
      lease.conn.pending (env .session).upstream = 1 ∧
      drainsInTime (env .session).upstream lease.conn
        (after .session none [client (.query "SELECT 1")]).hygiene 2 = true := by decide
  exact ⟨lease, conn, hlease, hsan, (htime lease hlease).1, (checkin_exact (env .session)
    (launch .session none) [.own (client (.query "SELECT 1"))] 2 lease conn
    (pg_inOrder _) passive_none (world_quiet .session)
    (Session.along_own (by decide : Along (Session.step (env .session)) _ _ [_]))
    hlease hsan).mpr fun _ => (htime lease hlease).2⟩

/-- A client that leaves before its query is answered, with a drain that times out first: the
    connection is checked in with a `ReadyForQuery` still to be read. -/
theorem checkin_shifted :
    ¬ ∀ lease conn, (after .session none [client (.query "SELECT 1")]).lease =
        some lease →
      sanitize (env .session).upstream lease.conn
        (after .session none [client (.query "SELECT 1")]).hygiene 0 = .ok conn →
      conn.consumed = conn.elicited := by
  obtain ⟨lease, conn, hlease, hsan, hc, he⟩ := checkin_spec
    (by decide : checkin [client (.query "SELECT 1")] 0 = some (2, 3))
  intro h
  have := h lease conn hlease hsan
  omega

end Pgferry
