/-
  Which idle connection a checkout leases (`Pool::checkout` of `pool.rs`).

  The loop of `checkout` pops entries until one can be used: it is not past `max_lifetime`, and
  it was not idle for longer than `stale_after` or it passes a probe. The declarative choice is
  the topmost usable entry of the stack. Everything above it is closed, an expired entry as
  `evicted` and one that failed its probe as `dropped`.

  Proved: a checkout that no other pool operation runs into takes the topmost usable entry and
  leaves the ones below as they are; it connects exactly when there is no usable entry, and a
  failed connect leaves an empty stack and the permit (`checkout_picks`).
-/
import Pgferry.Pool

namespace Pgferry

variable {σ : Type} {u : Upstream σ} {config : PoolConfig} {now : Nat}

/-! ## Usable entries -/

namespace Parked

/-- Past `max_lifetime`. -/
def expired (config : PoolConfig) (now : Nat) (p : Parked σ) : Bool :=
  decide (config.maxLifetime < now - p.createdAt)

/-- Idle for longer than `stale_after`. -/
def stale (config : PoolConfig) (now : Nat) (p : Parked σ) : Bool :=
  decide (config.staleAfter < now - p.idleSince)

/-- The entry may be leased. -/
def Usable (u : Upstream σ) (config : PoolConfig) (now : Nat) (p : Parked σ) : Prop :=
  p.expired config now = false ∧
    (p.stale config now = false ∨ ∃ conn, probe u p.conn = .ok conn)

/-- The connection that a lease of the entry has: a stale one has been probed. -/
def Offers (u : Upstream σ) (config : PoolConfig) (now : Nat) (p : Parked σ)
    (conn : Conn σ) : Prop :=
  if p.stale config now = true then probe u p.conn = .ok conn else conn = p.conn

end Parked

/-- The counters after an entry was closed. -/
def PoolMetrics.closing (config : PoolConfig) (now : Nat) (metrics : PoolMetrics) (p : Parked σ) :
    PoolMetrics :=
  if p.expired config now then { metrics with evicted := metrics.evicted + 1 }
  else { metrics with probed := metrics.probed + 1, dropped := metrics.dropped + 1 }

/-- Each closed entry is counted once. -/
theorem closing_counts (config : PoolConfig) (now : Nat) (entries : List (Parked σ))
    (metrics : PoolMetrics) :
    (entries.foldl (PoolMetrics.closing config now) metrics).evicted =
        metrics.evicted + entries.countP (Parked.expired config now) ∧
      (entries.foldl (PoolMetrics.closing config now) metrics).dropped =
        metrics.dropped + entries.countP fun p => !p.expired config now := by
  induction entries generalizing metrics with
  | nil => exact ⟨rfl, rfl⟩
  | cons p entries ih =>
      obtain ⟨he, hd⟩ := ih (metrics.closing config now p)
      rw [List.foldl_cons, he, hd]
      unfold PoolMetrics.closing
      cases hp : p.expired config now with
      | true =>
          rw [List.countP_cons_of_pos hp, List.countP_cons_of_neg (by simp [hp])]
          exact ⟨by simp only [if_true]; omega, rfl⟩
      | false =>
          rw [List.countP_cons_of_neg (by simp [hp]), List.countP_cons_of_pos (by simp [hp])]
          refine ⟨rfl, ?_⟩
          simp only [Bool.false_eq_true, if_false]
          omega

/-! ## The loop -/

theorem takeIdle_unusable {p : Parked σ} (h : ¬ p.Usable u config now) (rest : List (Parked σ))
    (metrics : PoolMetrics) :
    takeIdle u config now (p :: rest) metrics =
      takeIdle u config now rest (metrics.closing config now p) := by
  rw [takeIdle]
  by_cases he : config.maxLifetime < now - p.createdAt
  · have hexp : p.expired config now = true := decide_eq_true he
    rw [if_pos he, PoolMetrics.closing, if_pos hexp]
  · have hexp : p.expired config now = false := decide_eq_false he
    rw [if_neg he, PoolMetrics.closing, hexp, if_neg Bool.false_ne_true]
    -- not expired and not usable: it is stale and the probe fails
    by_cases hs : config.staleAfter < now - p.idleSince
    · rw [if_pos hs]
      cases hprobe : probe u p.conn with
      | error e => rfl
      | ok conn => exact absurd ⟨hexp, .inr ⟨conn, hprobe⟩⟩ h
    · exact absurd ⟨hexp, .inl (decide_eq_false hs)⟩ h

theorem takeIdle_above {above : List (Parked σ)} (h : ∀ p ∈ above, ¬ p.Usable u config now)
    (rest : List (Parked σ)) (metrics : PoolMetrics) :
    takeIdle u config now (above ++ rest) metrics =
      takeIdle u config now rest (above.foldl (PoolMetrics.closing config now) metrics) := by
  induction above generalizing metrics with
  | nil => rfl
  | cons p above ih =>
      rw [List.cons_append, takeIdle_unusable (h p List.mem_cons_self)]
      exact ih (fun q hq => h q (List.mem_cons_of_mem _ hq)) _

/-- The counters after an entry was found usable. -/
def PoolMetrics.probing (config : PoolConfig) (now : Nat) (metrics : PoolMetrics) (p : Parked σ) :
    PoolMetrics :=
  if p.stale config now then { metrics with probed := metrics.probed + 1 } else metrics

theorem takeIdle_usable {p : Parked σ} (h : p.Usable u config now) (rest : List (Parked σ))
    (metrics : PoolMetrics) :
    ∃ conn, p.Offers u config now conn ∧
      takeIdle u config now (p :: rest) metrics =
        (some (conn, p.createdAt), rest, metrics.probing config now p) := by
  obtain ⟨hexp, hlive⟩ := h
  rw [takeIdle, if_neg (of_decide_eq_false hexp)]
  unfold Parked.Offers PoolMetrics.probing
  by_cases hs : config.staleAfter < now - p.idleSince
  · have hstale : p.stale config now = true := decide_eq_true hs
    obtain ⟨conn, hprobe⟩ : ∃ conn, probe u p.conn = .ok conn :=
      hlive.resolve_left (by rw [hstale]; nofun)
    rw [if_pos hs, hprobe, if_pos hstale]
    exact ⟨conn, by rw [if_pos hstale], rfl⟩
  · have hstale : ¬ p.stale config now = true := by simpa [Parked.stale] using hs
    rw [if_neg hs, if_neg hstale]
    exact ⟨p.conn, by rw [if_neg hstale], rfl⟩

/-! ## The checkout -/

namespace World

/-- What a checkout does that takes the entry `p`, with `above` over it and `below` under it. -/
structure Takes (u : Upstream σ) (w : World σ) (key : PoolKey) (above : List (Parked σ))
    (p : Parked σ) (below : List (Parked σ)) : Prop where
  leases : ∃ conn, p.Offers u (w.pools key).config w.now conn ∧
    (w.checkout u key).2 = .ok { conn := conn, createdAt := p.createdAt, pool := key }
  idle : ((w.checkout u key).1.pools key).idle = below
  permits : ((w.checkout u key).1.pools key).permits = (w.pools key).permits - 1
  evicted : ((w.checkout u key).1.pools key).metrics.evicted =
    (w.pools key).metrics.evicted + above.countP (Parked.expired (w.pools key).config w.now)
  dropped : ((w.checkout u key).1.pools key).metrics.dropped =
    (w.pools key).metrics.dropped +
      above.countP fun p => !p.expired (w.pools key).config w.now
  dials : (w.checkout u key).1.dials = w.dials

/-- What a checkout does that finds no usable entry: every entry is closed and the factory is
    called once. A connect that fails is counted as dropped too. -/
structure Connects (u : Upstream σ) (w : World σ) (key : PoolKey) : Prop where
  idle : ((w.checkout u key).1.pools key).idle = []
  evicted : ((w.checkout u key).1.pools key).metrics.evicted =
    (w.pools key).metrics.evicted +
      (w.pools key).idle.countP (Parked.expired (w.pools key).config w.now)
  dials : (w.checkout u key).1.dials = w.dials + 1
  made : ∀ backend parameters, w.supply key w.dials = .ok (backend, parameters) →
    (w.checkout u key).2 = .ok {
      conn := Conn.new w.dials backend parameters
      createdAt := w.now
      pool := key } ∧
    ((w.checkout u key).1.pools key).permits = (w.pools key).permits - 1 ∧
    ((w.checkout u key).1.pools key).metrics.dropped =
      (w.pools key).metrics.dropped +
        (w.pools key).idle.countP fun p => !p.expired (w.pools key).config w.now
  failed : ∀ e, w.supply key w.dials = .error e →
    (w.checkout u key).2 = .error e ∧
    ((w.checkout u key).1.pools key).permits = (w.pools key).permits ∧
    ((w.checkout u key).1.pools key).metrics.dropped =
      (w.pools key).metrics.dropped +
        ((w.pools key).idle.countP fun p => !p.expired (w.pools key).config w.now) + 1

variable {w : World σ} {key : PoolKey}

theorem modify_self (w : World σ) (key : PoolKey) (f : Pool σ → Pool σ) :
    (w.modify key f).pools key = f (w.pools key) := by
  simp [modify]

theorem modify_other (w : World σ) {key k : PoolKey} (f : Pool σ → Pool σ) (h : k ≠ key) :
    (w.modify key f).pools k = w.pools k := by
  simp [modify, h]

/-- The world after a checkout that found an idle connection. -/
theorem checkout_found {conn : Conn σ} {createdAt : Nat} {idle : List (Parked σ)}
    {metrics : PoolMetrics}
    (h : takeIdle u (w.pools key).config w.now (w.pools key).idle (w.pools key).metrics =
      (some (conn, createdAt), idle, metrics)) :
    w.checkout u key =
      (w.modify key fun p =>
        { p with idle := idle, permits := p.permits - 1, metrics := finishCheckout metrics },
        .ok { conn := conn, createdAt := createdAt, pool := key }) := by
  unfold checkout
  dsimp only
  rw [h]

/-- The world after a checkout that connected. -/
theorem checkout_made {idle : List (Parked σ)} {metrics : PoolMetrics} {backend : σ}
    {parameters : Params}
    (h : takeIdle u (w.pools key).config w.now (w.pools key).idle (w.pools key).metrics =
      (none, idle, metrics))
    (hs : w.supply key w.dials = .ok (backend, parameters)) :
    w.checkout u key =
      ({ w with dials := w.dials + 1 }.modify key fun p =>
        { p with
          idle := idle
          permits := p.permits - 1
          metrics := finishCheckout { metrics with created := metrics.created + 1 } },
        .ok { conn := Conn.new w.dials backend parameters, createdAt := w.now, pool := key }) := by
  unfold checkout
  dsimp only
  rw [h]
  dsimp only
  rw [hs]

/-- The world after a checkout whose connect failed. -/
theorem checkout_failed {idle : List (Parked σ)} {metrics : PoolMetrics} {e : String}
    (h : takeIdle u (w.pools key).config w.now (w.pools key).idle (w.pools key).metrics =
      (none, idle, metrics))
    (hs : w.supply key w.dials = .error e) :
    w.checkout u key =
      ({ w with dials := w.dials + 1 }.modify key fun p =>
        { p with idle := idle, metrics := { metrics with dropped := metrics.dropped + 1 } },
        .error e) := by
  unfold checkout
  dsimp only
  rw [h]
  dsimp only
  rw [hs]

theorem checkout_takes {above below : List (Parked σ)} {p : Parked σ}
    (hidle : (w.pools key).idle = above ++ p :: below)
    (habove : ∀ q ∈ above, ¬ q.Usable u (w.pools key).config w.now)
    (hp : p.Usable u (w.pools key).config w.now) : w.Takes u key above p below := by
  have hcounts := closing_counts (w.pools key).config w.now above (w.pools key).metrics
  obtain ⟨conn, hoffers, htake⟩ := takeIdle_usable hp below
    (above.foldl (PoolMetrics.closing (w.pools key).config w.now) (w.pools key).metrics)
  rw [← takeIdle_above habove, ← hidle] at htake
  have hcheckout := checkout_found htake
  -- a probe of the entry that is taken changes neither counter
  have hprobing : ∀ metrics : PoolMetrics,
      (metrics.probing (w.pools key).config w.now p).evicted = metrics.evicted ∧
        (metrics.probing (w.pools key).config w.now p).dropped = metrics.dropped := by
    intro metrics
    unfold PoolMetrics.probing
    split <;> exact ⟨rfl, rfl⟩
  constructor
  case leases => exact ⟨conn, hoffers, by rw [hcheckout]⟩
  case dials =>
    rw [hcheckout]
    rfl
  all_goals rw [hcheckout, modify_self]
  case evicted => exact (hprobing _).1.trans hcounts.1
  case dropped => exact (hprobing _).2.trans hcounts.2

theorem checkout_connects
    (h : ∀ p ∈ (w.pools key).idle, ¬ p.Usable u (w.pools key).config w.now) :
    w.Connects u key := by
  have hcounts := closing_counts (w.pools key).config w.now (w.pools key).idle
    (w.pools key).metrics
  have htake : takeIdle u (w.pools key).config w.now (w.pools key).idle (w.pools key).metrics =
      (none, [], (w.pools key).idle.foldl (PoolMetrics.closing (w.pools key).config w.now)
        (w.pools key).metrics) := by
    have habove := takeIdle_above h [] (w.pools key).metrics
    rw [List.append_nil] at habove
    rw [habove, takeIdle]
  cases hs : w.supply key w.dials with
  | error e =>
      have hcheckout := checkout_failed htake hs
      constructor
      case made =>
        intro backend parameters hok
        rw [hs] at hok
        cases hok
      case failed =>
        intro e' he
        cases hs.symm.trans he
        rw [hcheckout, modify_self]
        exact ⟨rfl, rfl, congrArg (· + 1) hcounts.2⟩
      case dials =>
        rw [hcheckout]
        rfl
      all_goals rw [hcheckout, modify_self]
      case evicted => exact hcounts.1
  | ok made =>
      have hcheckout := checkout_made htake hs
      constructor
      case made =>
        intro backend parameters hok
        cases hs.symm.trans hok
        rw [hcheckout, modify_self]
        exact ⟨rfl, rfl, hcounts.2⟩
      case failed =>
        intro e he
        rw [hs] at he
        cases he
      case dials =>
        rw [hcheckout]
        rfl
      all_goals rw [hcheckout, modify_self]
      case evicted => exact hcounts.1

/-- A checkout takes an entry or connects. -/
theorem checkout_cases (u : Upstream σ) (w : World σ) (key : PoolKey) :
    (∃ above p below, (w.pools key).idle = above ++ p :: below ∧
        p.Usable u (w.pools key).config w.now ∧ w.Takes u key above p below) ∨
      (∀ p ∈ (w.pools key).idle, ¬ p.Usable u (w.pools key).config w.now) ∧
        w.Connects u key := by
  classical
  cases hf : (w.pools key).idle.find? fun q =>
      decide (q.Usable u (w.pools key).config w.now) with
  | none =>
      have hnone : ∀ p ∈ (w.pools key).idle, ¬ p.Usable u (w.pools key).config w.now :=
        fun p hp husable => List.find?_eq_none.mp hf p hp (decide_eq_true husable)
      exact .inr ⟨hnone, checkout_connects hnone⟩
  | some p =>
      obtain ⟨hp, above, below, hsplit, habove⟩ := List.find?_eq_some_iff_append.mp hf
      have husable := of_decide_eq_true hp
      exact .inl ⟨above, p, below, hsplit, husable,
        checkout_takes hsplit (fun q hq => by simpa using habove q hq) husable⟩

/-- A checkout changes its own pool only. -/
theorem checkout_other (u : Upstream σ) (w : World σ) {key k : PoolKey} (hk : k ≠ key) :
    (w.checkout u key).1.pools k = w.pools k := by
  unfold checkout
  dsimp only
  split
  · dsimp only
    exact modify_other w _ hk
  · split
    · dsimp only
      exact modify_other { w with dials := w.dials + 1 } _ hk
    · dsimp only
      exact modify_other { w with dials := w.dials + 1 } _ hk

end World

/-- For every world, pool and outcome of probes and connects: a checkout takes the topmost usable
    entry, if there is one, and else connects; and it leaves the other pools alone. -/
theorem checkout_picks (u : Upstream σ) (w : World σ) (key : PoolKey) :
    (∀ above p below, (w.pools key).idle = above ++ p :: below →
        (∀ q ∈ above, ¬ q.Usable u (w.pools key).config w.now) →
        p.Usable u (w.pools key).config w.now → w.Takes u key above p below) ∧
      ((∀ p ∈ (w.pools key).idle, ¬ p.Usable u (w.pools key).config w.now) →
        w.Connects u key) ∧
      ((w.checkout u key).1.dials = w.dials + 1 ↔
        ∀ p ∈ (w.pools key).idle, ¬ p.Usable u (w.pools key).config w.now) ∧
      ∀ k, k ≠ key → (w.checkout u key).1.pools k = w.pools k := by
  refine ⟨fun above p below => World.checkout_takes, World.checkout_connects, ⟨?_, ?_⟩, ?_⟩
  · intro hdials
    rcases World.checkout_cases u w key with ⟨above, p, below, -, -, htakes⟩ | ⟨hnone, -⟩
    · have := htakes.dials
      omega
    · exact hnone
  · exact fun h => (World.checkout_connects h).dials
  · exact fun k => World.checkout_other u w

end Pgferry
