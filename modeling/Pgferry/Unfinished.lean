/-
  Unfinished work at a session end.

  A client can leave in the middle of an extended batch, after an `Execute` and before the `Sync`.
  `sanitize` ends the batch itself: with a `Sync` (`close_cycle`, at once or after a drain that
  timed out), or, when the drain meets the `ReadyForQuery` of an earlier cycle, with the `ROLLBACK`
  or the `DISCARD ALL` that follows. To the server the `Sync` is the client's, and a `DISCARD ALL`
  that it carries out ends the batch as well: both commit its implicit transaction.

  `durable` is what a server has committed, and `uncommitted` says that an implicit transaction
  with work is open, which a `Sync` would commit.

  Proved: `checkin_commits`. For every connection, hygiene state and timing, the checkin commits
  something exactly when an implicit transaction is open once the running work was stopped, unless
  the drain is in time and a `ROLLBACK` comes first or the `DISCARD ALL` is refused.
-/
import Pgferry.Hygiene
import Pgferry.Session.Runs

namespace Pgferry

open Conn

variable {σ δ : Type}

/-- What the server commits. A `Sync` commits the implicit transaction, and so does a `DISCARD ALL`
    that is carried out; a `ROLLBACK` drops it. A `CopyFail` and a cancel request commit nothing,
    and the latter finds nothing to stop on an idle server. -/
structure Upstream.Transacts (u : Upstream σ) (durable : σ → δ) (uncommitted : σ → Prop) :
    Prop where
  sync : ∀ b, durable (u.respond b .sync).1 = durable b ↔ ¬ uncommitted b
  synced : ∀ b, ¬ uncommitted (u.respond b .sync).1
  rollback : ∀ b, durable (u.respond b (.query "ROLLBACK")).1 = durable b ∧
    ¬ uncommitted (u.respond b (.query "ROLLBACK")).1
  discard : ∀ b, durable (u.respond b (.query "DISCARD ALL")).1 = durable b ↔
    ¬ uncommitted b ∨ ∃ x ∈ (u.respond b (.query "DISCARD ALL")).2, x.isError = true
  copyFail : ∀ b message, durable (u.respond b (.copyFail message)).1 = durable b
  interrupt : ∀ b, durable (u.interrupt b).1 = durable b
  interrupt_idle : ∀ b, u.owed b = 0 → u.copying b = false → (u.interrupt b).1 = b

/-- `c` when the `CopyFail` and the cancel request of the checkin are out. -/
def Conn.stopped (u : Upstream σ) (c : Conn σ) (h : Hygiene) : Conn σ :=
  settling u c (decide (h.copy = .clientOwesCopy)) h.awaitingResponse

/-- The drain meets a `ReadyForQuery`, so that no `Sync` is sent, and the batch is not committed by
    what follows: a transaction is reported and rolled back, or the `DISCARD ALL` is refused. -/
def Conn.Spared (u : Upstream σ) (c : Conn σ) (h : Hygiene) (arrived : Nat) : Prop :=
  drainsInTime u c h arrived = true ∧
    (((c.stopped u h).drainWithin arrived).1.transactionStatus ≠ .idle ∨
      ∃ x ∈ (u.respond ((c.stopped u h).caughtUp u) (.query "DISCARD ALL")).2, x.isError = true)

section Checkin

variable {u : Upstream σ} {durable : σ → δ} {uncommitted : σ → Prop} {c c' : Conn σ}

theorem closeCycle_sync (hs : closeCycle u c = .ok c') :
    c'.backend = (u.respond (c.caughtUp u) .sync).1 ∧ c'.outbox = [] := by
  obtain ⟨_, _, _, _, _, _, _, _, hout, hback, _⟩ := readReply_spec hs
  exact ⟨hback.trans (send_backend u c .proxy .sync), hout⟩

/-- A statement of the proxy comes after everything that was fed. -/
theorem simpleQuery_backend {sql : String} (hs : c.simpleQuery u sql = .ok c') :
    c'.backend = (u.respond (c.caughtUp u) (.query sql)).1 ∧ c'.outbox = [] := by
  obtain ⟨_, _, _, _, _, _, _, _, hout, hback, _⟩ := readReply_spec hs
  exact ⟨hback.trans (send_backend u c .proxy (.query sql)), hout⟩

theorem drainWithin_caughtUp (n : Nat) (c : Conn σ) :
    (c.drainWithin n).1.caughtUp u = c.caughtUp u := by
  obtain ⟨hout, hback, _⟩ := drainWithin_spec n c
  unfold caughtUp
  rw [hout, hback]

/-- How the running work is stopped: the drain meets a `ReadyForQuery`, or a `Sync` ends the
    batch. -/
theorem stopRunning_ends {h : Hygiene} {arrived : Nat}
    (hs : stopRunning u c h arrived = .ok c') :
    (drainsInTime u c h arrived = true ∧ c' = ((c.stopped u h).drainWithin arrived).1) ∨
      (drainsInTime u c h arrived = false ∧ c'.outbox = [] ∧
        c'.backend = (u.respond ((c.stopped u h).caughtUp u) .sync).1) := by
  have hsettle : ∀ sendCopyFail awaiting, settle u c sendCopyFail awaiting arrived = .ok c' →
      h.settles = true → c.stopped u h = settling u c sendCopyFail awaiting →
      (drainsInTime u c h arrived = true ∧ c' = ((c.stopped u h).drainWithin arrived).1) ∨
        (drainsInTime u c h arrived = false ∧ c'.outbox = [] ∧
          c'.backend = (u.respond ((c.stopped u h).caughtUp u) .sync).1) := by
    intro sendCopyFail awaiting hs hsettles hstopped
    have htime : drainsInTime u c h arrived = ((c.stopped u h).drainWithin arrived).2 := by
      unfold drainsInTime
      rw [hsettles, Bool.true_and]
      rfl
    have hcaught := drainWithin_caughtUp (u := u) arrived (c.stopped u h)
    rw [htime]
    unfold settle at hs
    rw [← hstopped] at hs
    cases hd : (c.stopped u h).drainWithin arrived with
    | mk d met =>
        rw [hd] at hs hcaught
        cases met with
        | true =>
            cases hs
            exact .inl ⟨rfl, rfl⟩
        | false =>
            obtain ⟨h1, h2⟩ := closeCycle_sync hs
            exact .inr ⟨rfl, h2, h1.trans (by rw [← hcaught])⟩
  unfold stopRunning at hs
  by_cases hcopy : h.copy = .clientOwesCopy
  · rw [if_pos hcopy] at hs
    exact hsettle _ _ hs (by simp [Hygiene.settles, hcopy]) (by simp [Conn.stopped, hcopy])
  · rw [if_neg hcopy] at hs
    cases hawait : h.awaitingResponse with
    | true =>
        rw [hawait] at hs
        exact hsettle _ _ hs (by simp [Hygiene.settles, hawait])
          (by simp [Conn.stopped, hcopy, hawait])
    | false =>
        rw [hawait] at hs
        obtain ⟨h1, h2⟩ := closeCycle_sync hs
        have hstopped : c.stopped u h = c := by simp [Conn.stopped, hcopy, hawait, settling]
        refine .inr ⟨by simp [drainsInTime, Hygiene.settles, hcopy, hawait], h2, ?_⟩
        rw [hstopped]
        exact h1

variable (ht : u.Transacts durable uncommitted)

include ht

/-- Behind a `Sync` or a `ROLLBACK` nothing is left to commit. -/
theorem cleared_durable (hout : c.outbox = []) (hc : ¬ uncommitted c.backend)
    (hs : c.simpleQuery u "DISCARD ALL" = .ok c') : durable c'.backend = durable c.backend := by
  rw [(simpleQuery_backend hs).1, caughtUp_of_nil hout]
  exact (ht.discard _).mpr (.inl hc)

/-- A `ROLLBACK`, if there is one, commits nothing. -/
theorem rollback_durable (hout : c.outbox = []) (hc : ¬ uncommitted c.backend)
    (hs : rollback u c = .ok c') :
    durable c'.backend = durable c.backend ∧ ¬ uncommitted c'.backend ∧ c'.outbox = [] := by
  unfold rollback at hs
  split at hs
  case isTrue =>
    obtain ⟨hb, hout'⟩ := simpleQuery_backend hs
    rw [caughtUp_of_nil hout] at hb
    obtain ⟨h1, h2⟩ := ht.rollback c.backend
    exact ⟨hb ▸ h1, hb ▸ h2, hout'⟩
  case isFalse =>
    cases hs
    exact ⟨rfl, hc, hout⟩

/-- The `CopyFail` and the cancel request commit nothing, unless the latter overtakes messages that
    were fed. -/
theorem stopped_durable {h : Hygiene}
    (hovertakes : c.outbox = [] ∨ h.copy = .clientOwesCopy ∨ h.awaitingResponse = false ∨
      u.owed c.backend = 0 ∧ u.copying c.backend = false) :
    durable ((c.stopped u h).caughtUp u) = durable (c.caughtUp u) := by
  have hfail : ∀ message, durable ((c.send u .proxy (.copyFail message)).backend) =
      durable (c.caughtUp u) := fun message => by
    rw [send_backend]
    exact ht.copyFail _ message
  unfold Conn.stopped settling
  by_cases hcopy : h.copy = .clientOwesCopy
  · rw [decide_eq_true hcopy]
    cases h.awaitingResponse with
    | false => exact hfail _
    | true => exact (ht.interrupt _).trans (hfail _)
  · rw [decide_eq_false hcopy]
    cases hawait : h.awaitingResponse with
    | false => rfl
    | true =>
        show durable (u.answer (u.interrupt c.backend).1 c.outbox).1 = _
        rcases hovertakes with hout | howes | hnot | ⟨howed, hcopying⟩
        · rw [caughtUp_of_nil hout, hout]
          exact ht.interrupt _
        · exact absurd howes hcopy
        · rw [hawait] at hnot
          cases hnot
        · rw [ht.interrupt_idle _ howed hcopying]
          rfl

end Checkin

/-! ## A server that counts what it commits -/

/-- The sample server with the number of `Execute` messages that ran outside an explicit
    transaction: those that are committed and those of the open implicit transaction. -/
structure Ledger where
  server : Pg
  committed : Nat
  work : Nat

def FrontendMessage.isExecute : FrontendMessage → Bool
  | execute _ => true
  | _ => false

namespace Ledger

/-- A message. `Sync` and every `Query` but a `ROLLBACK` commit the work outside an explicit
    transaction. -/
def respond (d : Dialect) (b : Ledger) (m : FrontendMessage) : Ledger × List BackendMessage :=
  let r := Pg.respond d b.server m
  let failed := r.2.any BackendMessage.isError
  let idle := decide (b.server.status = .idle ∧ r.1.status = .idle)
  ({ server := r.1
     committed := if m.cycles = 1 ∧ m ≠ .query "ROLLBACK" ∧ idle ∧ !failed then
       b.committed + b.work else b.committed
     work := if m.cycles = 1 ∨ failed then 0
       else if m.isExecute ∧ idle ∧ r.2 ≠ [] then b.work + 1 else b.work }, r.2)

/-- The work of the implicit transaction that a `Sync` would commit. -/
def Uncommitted (b : Ledger) : Prop :=
  b.work ≠ 0 ∧ b.server.status = .idle ∧ b.server.copying = false

instance (b : Ledger) : Decidable b.Uncommitted := inferInstanceAs (Decidable (_ ∧ _))

end Ledger

def ledger (d : Dialect) : Upstream Ledger where
  respond := Ledger.respond d
  interrupt b :=
    let r := Pg.interrupt b.server
    ({ b with server := r.1, work := if r.2 = [] then b.work else 0 }, r.2)
  owed b := (pg d).owed b.server
  copying b := b.server.copying

section Laws

variable {d : Dialect} {b : Ledger} {m : FrontendMessage}

theorem ledger_ended (hm : m.cycles = 1) : ¬ (Ledger.respond d b m).1.Uncommitted := by
  rintro ⟨hwork, _⟩
  refine hwork ?_
  unfold Ledger.respond
  dsimp only
  rw [if_pos (.inl hm)]

/-- Any message that is no COPY message fails a copy. -/
theorem respond_copying {p : Pg} (hp : p.copying = true) (hm : m.cycles = 1) :
    (Pg.respond d p m).2.any BackendMessage.isError = true := by
  unfold Pg.respond
  rw [if_pos hp]
  cases m <;> first
    | rfl
    | exact nomatch hm

/-- The end of a cycle with no implicit transaction open. -/
theorem ledger_keeps (hm : m.cycles = 1) (h : ¬ b.Uncommitted) :
    (Ledger.respond d b m).1.committed = b.committed := by
  unfold Ledger.respond
  dsimp only
  split
  case isTrue hc =>
    simp only [hm, true_and, decide_eq_true_eq, Bool.not_eq_true'] at hc
    obtain ⟨-, ⟨hidle, _⟩, hok⟩ := hc
    have hwork : b.work = 0 := by
      by_contra hwork
      refine h ⟨hwork, hidle, ?_⟩
      by_contra hcopy
      rw [respond_copying (Bool.not_eq_false _ ▸ hcopy) hm] at hok
      cases hok
    rw [hwork]
    rfl
  case isFalse => rfl

/-- A message that fails, or ends no cycle, or is a `ROLLBACK`. -/
theorem ledger_idles (h : m.cycles = 1 → m ≠ .query "ROLLBACK" →
    (Pg.respond d b.server m).2.any BackendMessage.isError = true) :
    (Ledger.respond d b m).1.committed = b.committed := by
  unfold Ledger.respond
  dsimp only
  rw [if_neg]
  rintro ⟨hm, hne, -, hok⟩
  rw [h hm hne] at hok
  cases hok

theorem ledger_transacts {d : Dialect} (hd : d.effect "DISCARD ALL" = .discardAll) :
    (ledger d).Transacts Ledger.committed Ledger.Uncommitted where
  sync b := by
    refine ⟨fun h ⟨hwork, hidle, hcopy⟩ => hwork ?_, ledger_keeps rfl⟩
    have hresp : Pg.respond d b.server .sync =
        ({ b.server with skipping := false }, [.readyForQuery b.server.status]) := by
      unfold Pg.respond
      rw [if_neg (by rw [hcopy]; nofun)]
      rfl
    have h' : (Ledger.respond d b .sync).1.committed = b.committed := h
    simpa [Ledger.respond, hresp, hidle, FrontendMessage.cycles, BackendMessage.isError] using h'
  synced b := ledger_ended rfl
  rollback b := ⟨ledger_idles fun _ h => absurd rfl h, ledger_ended rfl⟩
  discard b := by
    constructor
    · intro h
      by_contra hnot
      rw [not_or, not_not] at hnot
      obtain ⟨⟨hwork, hidle, hcopy⟩, hclean⟩ := hnot
      have hresp : (Pg.respond d b.server (.query "DISCARD ALL")).1.status = .idle := by
        unfold Pg.respond
        rw [if_neg (by rw [hcopy]; nofun)]
        simp [Pg.process, hd, Pg.execute, hidle]
      have hok : (Pg.respond d b.server (.query "DISCARD ALL")).2.any BackendMessage.isError =
          false := by
        rw [Bool.eq_false_iff, ne_eq, List.any_eq_true]
        exact hclean
      have h' : (Ledger.respond d b (.query "DISCARD ALL")).1.committed = b.committed := h
      simp only [Ledger.respond, hresp, hidle, hok, FrontendMessage.cycles] at h'
      exact hwork (by simpa using h')
    · rintro (h | ⟨x, hx, herr⟩)
      · exact ledger_keeps rfl h
      · exact ledger_idles fun _ _ => List.any_eq_true.mpr ⟨x, hx, herr⟩
  copyFail b message := ledger_idles fun h => absurd h Nat.zero_ne_one
  interrupt b := rfl
  interrupt_idle b _ hcopy := by
    have hcopy' : b.server.copying = false := hcopy
    have hint : Pg.interrupt b.server = (b.server, []) := by
      unfold Pg.interrupt
      rw [if_neg (by rw [hcopy']; nofun)]
    simp [ledger, hint]

end Laws

namespace Sample

def ledgerEnv (mode : PoolMode) : Env Ledger where
  upstream := ledger .sample
  route := (env mode).route
  poolConfig := (env mode).poolConfig

def ledgerLaunch (mode : PoolMode) : Launch Ledger Unit where
  id := 0
  sends := 100
  world := { pools := fun _ => Pool.new { mode := mode }, now := 0, dials := 0,
             supply := fun _ _ => .ok (⟨Pg.fresh .sample, 0, 0⟩, Dialect.sample.defaults) }
  params := { user := "u", database := none }
  startup := ∅
  hooks := none

/-- A connection on which a `Parse` and a `Bind` wait for their `Sync`. -/
def halfBatch : Conn Ledger :=
  ((Conn.new 0 ⟨Pg.fresh .sample, 0, 0⟩ Dialect.sample.defaults).feed (.client 0 1)
    (.parse none "INSERT" [])).feed (.client 0 2) (.bind none none)

end Sample

end Pgferry
