/-
  Parked connections and transactions.

  Four paths put a connection on an idle stack. `checkin` looks at the transaction status and
  rolls back, a detach happens at a `ReadyForQuery` with status idle, and a baseline probe runs
  nothing of a client. The legs of a scatter are put back as they are: a leg whose SQL opens a
  transaction leaves its connection on the stack inside it.

  Proved: `parked_idle`. When no leg opens a transaction and the session ends of one-cycle
  clients drain in time, every parked connection is outside a transaction, for the proxy and for
  its server, for any number of sessions and every interleaving.
-/
import Pgferry.Isolation
import Pgferry.Session.Truth

namespace Pgferry

open Loop

variable {σ κ : Type}

theorem System.Within.mono {admits admits' : Launch σ κ → Prop}
    {ok ok' : Session σ κ → Event → Prop} {ends ends' : Session σ κ → Nat → Prop}
    (hadmits : ∀ l, admits l → admits' l) (hok : ∀ s e, ok s e → ok' s e)
    (hends : ∀ s n, ends s n → ends' s n) {y : System σ κ} {a : Act σ κ}
    (h : Within admits ok ends y a) : Within admits' ok' ends' y a := by
  cases a with
  | connect l => exact hadmits l h
  | event n e => exact fun s hs he => hok _ e (h s hs he)
  | finish n arrived => exact fun s hs => hends _ arrived (h s hs)
  | tick => trivial
  | sweep => trivial

/-- The raw hooks of the interceptor pass messages on and its legs open no transaction. -/
def Launch.OpensNone (u : Upstream σ) (status : σ → TransactionStatus) (l : Launch σ κ) : Prop :=
  Passive l.interceptor ∧ LegsOpenNone u status l.interceptor

theorem Launch.Plain.opensNone {u : Upstream σ} {status : σ → TransactionStatus}
    {l : Launch σ κ} (h : l.Plain) : l.OpensNone u status := by
  unfold Launch.OpensNone
  rw [h.interceptor]
  exact ⟨passive_none, legsOpenNone_none u status⟩

theorem Session.finish_truthful {env : Env σ} {s : Session σ κ} {status : σ → TransactionStatus}
    {arrived : Nat} (hu : env.upstream.InOrder) (hr : env.upstream.Reports status)
    (hc : s.toCore.Truthful env.upstream status)
    (ht : s.world.Tidy (IdlePool env.upstream status)) (he : s.EndsInTime env.upstream arrived) :
    (s.finish env arrived).world.Tidy (IdlePool env.upstream status) ∧
      (s.finish env arrived).toCore.Truthful env.upstream status := by
  refine ⟨finish_tidy ht fun lease conn hend hlease hsan => ?_, ?_⟩
  · exact Conn.sanitize_atRest hu hr (hc.calm.tame lease hlease) (hc.honest lease hlease)
      (he hend lease hlease) hsan
  · rcases s.finish_core env arrived with h | h <;> rw [h]
    · exact hc
    · exact Core.truthful_of_none rfl

theorem System.truthful_keeps {env : Env σ} {status : σ → TransactionStatus}
    (hu : env.upstream.InOrder) (hr : env.upstream.Reports status) :
    System.Keeps (κ := κ) env (IdlePool env.upstream status)
      (Launch.OpensNone env.upstream status) (Session.OneCycle env.upstream)
      (Session.EndsInTime env.upstream) (fun _ => Core.Truthful env.upstream status) where
  anywhere := fun _ _ _ h => h
  start := fun l _ ht => l.start_truthful hu hr ht
  stable := fun _ hl => Core.truthful_stable hu hr hl.1 hl.2
  finish := fun _ _ _ hc ht he => Session.finish_truthful hu hr hc ht he

/-- Any number of sessions in any interleaving. -/
theorem parked_idle (env : Env σ) (status : σ → TransactionStatus) (world : World σ)
    (acts : List (Act σ κ)) (hu : env.upstream.InOrder) (hr : env.upstream.Reports status)
    (hworld : world.Tidy (IdlePool env.upstream status))
    (hrun : Along (System.act env) (System.Within (Launch.OpensNone env.upstream status)
      (Session.OneCycle env.upstream) (Session.EndsInTime env.upstream)) (System.init world)
      acts) :
    ∀ key, ∀ p ∈ ((run (System.act env) (System.init world) acts).world.pools key).idle,
      p.conn.transactionStatus = .idle ∧ status p.conn.backend = .idle := by
  have h := (System.truthful_keeps hu hr).run world acts hworld hrun
  intro key p hp
  have hrest : p.conn.AtRest env.upstream status := h.tidy.idle key p hp
  exact ⟨hrest.cached, hrest.server⟩

open Sample

/-- A client that leaves inside a transaction, and one that ends its own. -/
theorem parked_idle_left :
    ¬ ∃ key, ∃ p ∈ ((system ([connect, connect] ++
        turns 0 ([client (.query "BEGIN")] ++ reads 2 ++ [.clientGone]) ++
        [.finish 0 0] ++
        turns 1 ([client (.query "BEGIN")] ++ reads 2 ++
          [client (.query "COMMIT")] ++ reads 2))).world.pools key).idle,
      ¬ (p.conn.transactionStatus = .idle ∧ p.conn.backend.status = .idle) := by
  rintro ⟨key, p, hp, hbusy⟩
  refine hbusy (parked_idle (env .transaction) Pg.status (world .transaction) _
    (pg_inOrder _) (pg_reports Dialect.sample_standard) (world_idle .transaction) ?_ key p
    hp)
  exact
    (Along.mono (fun _ _ h => System.Within.mono (fun _ hl => Launch.Plain.opensNone hl)
      (fun _ _ h => h) (fun _ _ h => h) h) _ _
      (by decide : Along _ (System.Within Launch.Plain (Session.OneCycle _)
        (Session.EndsInTime _)) _ _))

namespace Sample

/-- An interceptor that sends every query to the endpoints `a` and `b` as `sql`. -/
def scattering (sql : String) : Interceptor Unit :=
  onQuery (.scatter { legs := [⟨"a", sql⟩, ⟨"b", sql⟩], merge := .concat, tag := "SELECT" })

end Sample

/-- A scatter whose legs open a transaction parks both connections inside it. And a session end
    whose drain is late shifts the answers on its connection, so the next session detaches at an
    answer that is not its own, inside the transaction that it has just opened. -/
theorem parked_open :
    (∃ p ∈ ((system [
        .connect (launch .transaction (some (scattering "BEGIN"))),
        .event 0 (client (.query "SELECT 1"))]).world.pools ⟨"main", "a", "u", none⟩).idle,
      p.conn.backend.status ≠ .idle) ∧
    ∃ p ∈ ((system ([connect, connect] ++
        turns 0 [client (.query "SELECT 1"), .clientGone] ++ [.finish 0 0] ++
        turns 1 ([client (.query "BEGIN")] ++ reads 3))).world.pools
          ⟨"main", "a", "u", none⟩).idle,
      p.conn.backend.status ≠ .idle := by
  decide

end Pgferry
