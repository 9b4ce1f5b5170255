/-
  The counters of a pool against what the pool holds.

  `active` and `waiting` are adjusted by hand when a checkout starts, gets its permit and
  finishes, and when a lease is returned or destroyed. Nothing adjusts them when a future or a
  lease is dropped. The cumulative counters are bumped on the same paths: `finish_checkout`
  counts a reuse for every checkout, and a connect that fails counts as dropped.

  Proved, for every run of a fresh pool (`Capacity.lean`): each operation changes the three
  amounts of `drift` by what it loses (`step_drift`). So the two gauges are off by the number of
  leases and waiting checkouts that were dropped (`gauges_true_iff`), and without drops the
  connections ever opened are off by the number of failed connects (`counters_balance_iff`).
-/
import Pgferry.Capacity
import Pgferry.Pg

namespace Pgferry

open Loop

variable {σ : Type}

/-! ## What the futures hold -/

namespace Task

def isLeased : Task σ → Bool
  | leased _ _ => true
  | _ => false

def isWaiting : Task σ → Bool
  | waiting => true
  | _ => false

def owns (t : Task σ) : Bool := t.conn?.isSome

end Task

section Counts

variable {tasks : List (Task σ)} {n : Nat} {t : Task σ}

theorem countP_set (p : Task σ → Bool) (h : tasks[n]? = some t) (t' : Task σ) :
    (tasks.set n t').countP p + [t].countP p = tasks.countP p + [t'].countP p := by
  have h1 := (Shared.set_perm h t').countP_eq p
  have h2 := (Shared.perm_eraseIdx h).countP_eq p
  rw [List.countP_append] at h1 h2
  omega

theorem countP_eraseIdx (p : Task σ → Bool) (h : tasks[n]? = some t) :
    (tasks.eraseIdx n).countP p + [t].countP p = tasks.countP p := by
  have h2 := (Shared.perm_eraseIdx h).countP_eq p
  rw [List.countP_append] at h2
  omega

theorem countP_one (p : Task σ → Bool) (t : Task σ) : [t].countP p = (p t).toNat := by
  rw [List.countP_singleton]
  cases p t <;> rfl

end Counts

namespace Shared

/-! ## What a run loses -/

/-- The gauges tell the truth. -/
structure GaugesTrue (y : Shared σ) : Prop where
  active : y.pool.metrics.active = y.tasks.countP Task.isLeased
  waiting : y.pool.metrics.waiting = y.tasks.countP Task.isWaiting

/-- A future with `p` is dropped. -/
def drops (p : Task σ → Bool) (y : Shared σ) : Op σ → Bool
  | .drop n => y.tasks[n]?.any p
  | _ => false

/-- A connect fails. -/
def connectFails (y : Shared σ) : Op σ → Bool
  | .connected n (.error _) =>
      match y.tasks[n]? with
      | some .connecting => true
      | _ => false
  | _ => false

/-- A connect succeeds. -/
def connects (y : Shared σ) : Op σ → Bool
  | .connected n (.ok _) =>
      match y.tasks[n]? with
      | some .connecting => true
      | _ => false
  | _ => false

/-- How far `active` and `waiting` are off, and how many of the connections that were counted as
    created are nowhere: not parked, not with a future, not counted as closed. -/
structure Drift where
  active : Int
  waiting : Int
  conns : Int
  deriving DecidableEq

def drift (y : Shared σ) : Drift where
  active := y.pool.metrics.active - y.tasks.countP Task.isLeased
  waiting := y.pool.metrics.waiting - y.tasks.countP Task.isWaiting
  conns := y.pool.metrics.created - (y.pool.idle.length + y.tasks.countP Task.owns +
    y.pool.metrics.evicted + y.pool.metrics.dropped)

/-- The pop loop counts what it leases and what it closes. -/
theorem popIdle_counts (config : PoolConfig) (now : Nat) (idle : List (Parked σ))
    (metrics : PoolMetrics) :
    (popIdle config now idle metrics).2.2.1.active =
        metrics.active + [(popIdle config now idle metrics).1].countP Task.isLeased ∧
      (popIdle config now idle metrics).2.2.1.waiting = metrics.waiting ∧
      (popIdle config now idle metrics).1.isWaiting = false ∧
      (popIdle config now idle metrics).2.2.1.created = metrics.created ∧
      (popIdle config now idle metrics).2.2.1.dropped = metrics.dropped ∧
      (popIdle config now idle metrics).2.1.length +
          [(popIdle config now idle metrics).1].countP Task.owns +
          (popIdle config now idle metrics).2.2.1.evicted = idle.length + metrics.evicted := by
  fun_induction popIdle config now idle metrics with
  | case1 metrics => exact ⟨(Int.add_zero _).symm, rfl, rfl, rfl, rfl, rfl⟩
  | case2 parked rest metrics _ r ih =>
      obtain ⟨h1, h2, h3, h4, h5, h6⟩ := ih
      refine ⟨h1, h2, h3, h4, h5, h6.trans ?_⟩
      show rest.length + (metrics.evicted + 1) = _
      rw [List.length_cons]
      omega
  | case3 parked rest metrics =>
      refine ⟨(Int.add_zero _).symm, rfl, rfl, rfl, rfl, ?_⟩
      simp [Task.owns, Task.conn?]
  | case4 parked rest metrics =>
      refine ⟨rfl, rfl, rfl, rfl, rfl, ?_⟩
      simp [Task.owns, Task.conn?, finishCheckout]

/-! ## Every operation -/

/-- What an operation loses: a lease or a waiting checkout that is dropped, a connection that a
    dropped future owned. A connect that fails is counted as dropped but was never created. -/
def loss (y : Shared σ) (op : Op σ) : Drift where
  active := (y.drops Task.isLeased op).toNat
  waiting := (y.drops Task.isWaiting op).toNat
  conns := (y.drops Task.owns op).toNat - ((y.connectFails op).toNat : Int)

def Drift.add (a b : Drift) : Drift :=
  ⟨a.active + b.active, a.waiting + b.waiting, a.conns + b.conns⟩

theorem Drift.add_zero (a : Drift) : a.add ⟨0, 0, 0⟩ = a := by
  simp [add]

section Steps

variable {u : Upstream σ} {y z : Shared σ} {n : Nat} {t : Task σ}

/-- The future `n` goes on as `t'`. -/
theorem drift_swap {t' : Task σ} {d : Drift} (ht : y.tasks[n]? = some t)
    (htasks : z.tasks = y.tasks.set n t')
    (hactive : z.pool.metrics.active - [t'].countP Task.isLeased =
      y.pool.metrics.active - [t].countP Task.isLeased + d.active)
    (hwaiting : z.pool.metrics.waiting - [t'].countP Task.isWaiting =
      y.pool.metrics.waiting - [t].countP Task.isWaiting + d.waiting)
    (hconns : (z.pool.metrics.created : Int) - (z.pool.idle.length + [t'].countP Task.owns +
        z.pool.metrics.evicted + z.pool.metrics.dropped) =
      y.pool.metrics.created - (y.pool.idle.length + [t].countP Task.owns +
        y.pool.metrics.evicted + y.pool.metrics.dropped) + d.conns) :
    z.drift = y.drift.add d := by
  have h1 := countP_set Task.isLeased ht t'
  have h2 := countP_set Task.isWaiting ht t'
  have h3 := countP_set Task.owns ht t'
  simp only [drift, Drift.add, htasks, Drift.mk.injEq]
  refine ⟨?_, ?_, ?_⟩ <;> omega

/-- The future `n` ends. -/
theorem drift_leave {d : Drift} (ht : y.tasks[n]? = some t)
    (htasks : z.tasks = y.tasks.eraseIdx n)
    (hactive : z.pool.metrics.active =
      y.pool.metrics.active - [t].countP Task.isLeased + d.active)
    (hwaiting : z.pool.metrics.waiting =
      y.pool.metrics.waiting - [t].countP Task.isWaiting + d.waiting)
    (hconns : (z.pool.metrics.created : Int) - (z.pool.idle.length +
        z.pool.metrics.evicted + z.pool.metrics.dropped) =
      y.pool.metrics.created - (y.pool.idle.length + [t].countP Task.owns +
        y.pool.metrics.evicted + y.pool.metrics.dropped) + d.conns) :
    z.drift = y.drift.add d := by
  have h1 := countP_eraseIdx Task.isLeased ht
  have h2 := countP_eraseIdx Task.isWaiting ht
  have h3 := countP_eraseIdx Task.owns ht
  simp only [drift, Drift.add, htasks, Drift.mk.injEq]
  refine ⟨?_, ?_, ?_⟩ <;> omega

/-- The future `n` runs the pop loop in `z`. -/
theorem drift_pop (ht : y.tasks[n]? = some t) (htasks : z.tasks = y.tasks)
    (hactive : z.pool.metrics.active = y.pool.metrics.active - [t].countP Task.isLeased)
    (hwaiting : z.pool.metrics.waiting = y.pool.metrics.waiting - [t].countP Task.isWaiting)
    (hconns : (z.pool.metrics.created : Int) - (z.pool.idle.length +
        z.pool.metrics.evicted + z.pool.metrics.dropped) =
      y.pool.metrics.created - (y.pool.idle.length + [t].countP Task.owns +
        y.pool.metrics.evicted + y.pool.metrics.dropped)) :
    (z.pop n).drift = y.drift := by
  obtain ⟨h1, h2, h3, h4, h5, h6⟩ := popIdle_counts z.pool.config z.now z.pool.idle z.pool.metrics
  have hwait : [(popIdle z.pool.config z.now z.pool.idle z.pool.metrics).1].countP
      Task.isWaiting = 0 := by simp [h3]
  rw [← Drift.add_zero y.drift]
  refine drift_swap ht (congrArg (List.set · n _) htasks) ?_ ?_ ?_ <;>
    simp only [pop] <;> omega

/-- The connection of the future `n` is parked, or closed as too old. -/
theorem drift_park {conn : Conn σ} {createdAt : Nat} (ht : y.tasks[n]? = some t)
    (htasks : z.tasks = y.tasks) (howns : t.owns = true)
    (hactive : z.pool.metrics.active = y.pool.metrics.active - [t].countP Task.isLeased)
    (hwaiting : z.pool.metrics.waiting = y.pool.metrics.waiting - [t].countP Task.isWaiting)
    (hconns : (z.pool.metrics.created : Int) - (z.pool.idle.length +
        z.pool.metrics.evicted + z.pool.metrics.dropped) =
      y.pool.metrics.created - (y.pool.idle.length +
        y.pool.metrics.evicted + y.pool.metrics.dropped)) :
    (z.park n conn createdAt).drift = y.drift := by
  have hone : [t].countP Task.owns = 1 := by simp [howns]
  rw [← Drift.add_zero y.drift]
  unfold Shared.park
  dsimp only
  split
  case isTrue hold =>
    refine drift_leave ht (congrArg (List.eraseIdx · n) htasks) ?_ ?_ ?_ <;>
      simp only [close, done, Pool.free, Pool.park, hold, if_true] <;> omega
  case isFalse hold =>
    refine drift_leave ht (congrArg (List.eraseIdx · n) htasks) ?_ ?_ ?_ <;>
      simp only [done, Pool.free, Pool.park, hold, if_false, List.length_cons] <;> omega

end Steps

/-- Every poll of a future moves the counters by what it loses. -/
theorem step_drift (u : Upstream σ) (y : Shared σ) (op : Op σ) :
    (y.step u op).drift = y.drift.add (y.loss op) := by
  -- An operation that finds no future in the stage it needs does nothing.
  have hidle : ∀ op, y.loss op = ⟨0, 0, 0⟩ → y.drift = y.drift.add (y.loss op) := by
    intro op h
    rw [h, Drift.add_zero]
  cases op with
  | checkout =>
      simp only [step, drift, Drift.add, loss, drops, connectFails, Task.isLeased, Task.isWaiting,
        Task.owns, Task.conn?, List.countP_append, List.countP_singleton, Option.isSome_none,
        Bool.false_eq_true, if_true, if_false, Bool.toNat_false, Drift.mk.injEq]
      refine ⟨?_, ?_, ?_⟩ <;> omega
  | acquire n =>
      rw [show y.loss (.acquire n) = ⟨0, 0, 0⟩ from rfl, Drift.add_zero]
      simp only [step]
      split
      case h_1 ht =>
        split
        · rfl
        · exact drift_pop ht rfl (Int.sub_zero _).symm rfl (by simp [Task.owns, Task.conn?])
      case h_2 => rfl
  | probed n inTime =>
      rw [show y.loss (.probed n inTime) = ⟨0, 0, 0⟩ from rfl, Drift.add_zero]
      simp only [step]
      split
      case h_1 conn createdAt ht =>
        split
        · refine drift_pop ht rfl (Int.sub_zero _).symm (Int.sub_zero _).symm ?_
          simp only [close, List.countP_singleton, Task.owns, Task.conn?, Option.isSome_some,
            if_true]
          omega
        · rw [← Drift.add_zero y.drift]
          refine drift_swap ht rfl ?_ ?_ ?_ <;>
            simp [finishCheckout, Task.isLeased, Task.isWaiting, Task.owns, Task.conn?]
      case h_2 => rfl
  | connected n outcome =>
      simp only [step]
      split
      case h_1 ht =>
        split
        · refine drift_leave ht rfl ?_ ?_ ?_ <;>
            simp [loss, drops, connectFails, ht, done, Pool.free, Pool.drop, Task.isLeased,
              Task.isWaiting, Task.owns, Task.conn?]
          omega
        · refine drift_swap ht rfl ?_ ?_ ?_ <;>
            simp [loss, drops, connectFails, finishCheckout, Task.isLeased, Task.isWaiting,
              Task.owns, Task.conn?]
          omega
      case h_2 hne =>
        refine hidle _ ?_
        cases outcome with
        | ok _ => rfl
        | error _ =>
            simp only [loss, drops, connectFails]
            rfl
  | checkin n hygiene =>
      rw [show y.loss (.checkin n hygiene) = ⟨0, 0, 0⟩ from rfl, Drift.add_zero]
      simp only [step]
      split
      case h_1 ht =>
        rw [← Drift.add_zero y.drift]
        refine drift_swap ht rfl ?_ ?_ ?_ <;>
          simp [Pool.inactive, Task.isLeased, Task.isWaiting, Task.owns, Task.conn?]
      case h_2 => rfl
  | sanitized n arrived inTime =>
      rw [show y.loss (.sanitized n arrived inTime) = ⟨0, 0, 0⟩ from rfl, Drift.add_zero]
      simp only [step]
      split
      case h_1 conn createdAt hygiene ht =>
        split
        · rw [← Drift.add_zero y.drift]
          refine drift_leave ht rfl ?_ ?_ ?_ <;>
            simp [close, done, Pool.free, Pool.drop, Task.isLeased, Task.isWaiting, Task.owns,
              Task.conn?]
          omega
        · exact drift_park ht rfl rfl (Int.sub_zero _).symm (Int.sub_zero _).symm rfl
      case h_2 => rfl
  | checkinDetached n dirty =>
      rw [show y.loss (.checkinDetached n dirty) = ⟨0, 0, 0⟩ from rfl, Drift.add_zero]
      simp only [step]
      split
      case h_1 ht =>
        split
        · rw [← Drift.add_zero y.drift]
          refine drift_swap ht rfl ?_ ?_ ?_ <;>
            simp [Pool.inactive, Task.isLeased, Task.isWaiting, Task.owns, Task.conn?]
        · exact drift_park ht rfl rfl rfl (Int.sub_zero _).symm rfl
      case h_2 => rfl
  | discarded n inTime =>
      rw [show y.loss (.discarded n inTime) = ⟨0, 0, 0⟩ from rfl, Drift.add_zero]
      simp only [step]
      split
      case h_1 conn createdAt ht =>
        split
        · rw [← Drift.add_zero y.drift]
          refine drift_leave ht rfl ?_ ?_ ?_ <;>
            simp [close, done, Pool.free, Pool.drop, Task.isLeased, Task.isWaiting, Task.owns,
              Task.conn?]
          omega
        · exact drift_park ht rfl rfl (Int.sub_zero _).symm (Int.sub_zero _).symm rfl
      case h_2 => rfl
  | destroy n =>
      rw [show y.loss (.destroy n) = ⟨0, 0, 0⟩ from rfl, Drift.add_zero]
      simp only [step]
      split
      case h_1 ht =>
        rw [← Drift.add_zero y.drift]
        refine drift_leave ht rfl ?_ ?_ ?_ <;>
          simp [close, done, Pool.free, Pool.drop, Pool.inactive, Task.isLeased, Task.isWaiting,
            Task.owns, Task.conn?]
        omega
      case h_2 => rfl
  | drop n =>
      simp only [step]
      split
      case h_1 hnone =>
        exact hidle _ (by simp [loss, drops, connectFails, hnone])
      case h_2 ht =>
        refine drift_leave ht rfl ?_ ?_ ?_ <;>
          simp [loss, drops, connectFails, ht, Task.isLeased, Task.isWaiting, Task.owns,
            Task.conn?]
      case h_3 t _ ht =>
        -- The counters stay, so each is off by what the future counted for.
        refine drift_leave ht rfl ?_ ?_ ?_ <;>
          simp only [loss, drops, connectFails, ht, done, Pool.free, Option.any_some,
            countP_one, Bool.toNat_false] <;>
          omega
  | sweep =>
      rw [show y.loss .sweep = ⟨0, 0, 0⟩ from rfl, Drift.add_zero]
      have hle := List.length_filter_le (fun parked : Parked σ =>
        !(decide (y.pool.config.idleTimeout < y.now - parked.idleSince) ||
          decide (y.pool.config.maxLifetime < y.now - parked.createdAt))) y.pool.idle
      simp only [step, drift, Pool.sweep, Drift.mk.injEq, true_and]
      omega
  | tick elapsed => exact hidle _ rfl
  | dial => exact hidle _ rfl

/-! ## The gauges -/

theorem new_drift (config : PoolConfig) (now next : Nat) :
    (new config now next : Shared σ).drift = ⟨0, 0, 0⟩ := rfl

theorem run_active (u : Upstream σ) (y : Shared σ) (ops : List (Op σ)) :
    (run (step u) y ops).drift.active =
      y.drift.active + total (step u) (fun y op => (y.loss op).active) y ops :=
  run_total (f := fun y => y.drift.active) (fun y op => by rw [step_drift]; rfl) y ops

theorem run_waiting (u : Upstream σ) (y : Shared σ) (ops : List (Op σ)) :
    (run (step u) y ops).drift.waiting =
      y.drift.waiting + total (step u) (fun y op => (y.loss op).waiting) y ops :=
  run_total (f := fun y => y.drift.waiting) (fun y op => by rw [step_drift]; rfl) y ops

theorem run_conns (u : Upstream σ) (y : Shared σ) (ops : List (Op σ)) :
    (run (step u) y ops).drift.conns =
      y.drift.conns + total (step u) (fun y op => (y.loss op).conns) y ops :=
  run_total (f := fun y => y.drift.conns) (fun y op => by rw [step_drift]; rfl) y ops

/-- A sum of `0` and `1`. -/
theorem total_toNat {u : Upstream σ} {p : Shared σ → Op σ → Bool} {y : Shared σ}
    {ops : List (Op σ)} :
    total (step u) (fun y op => ((p y op).toNat : Int)) y ops = 0 ↔
      Along (step u) (fun y op => p y op = false) y ops := by
  rw [total_eq_zero fun y op => Int.natCast_nonneg _]
  have hiff : ∀ y op, ((p y op).toNat : Int) = 0 ↔ p y op = false := by
    intro y op
    cases p y op <;> simp
  exact ⟨Along.mono (fun y op => (hiff y op).mp) y ops,
    Along.mono (fun y op => (hiff y op).mpr) y ops⟩

end Shared

/-- The gauges are right after a run if and only if no lease and no waiting checkout was dropped
    in it. -/
theorem gauges_true_iff (u : Upstream σ) (config : PoolConfig) (now next : Nat)
    (ops : List (Op σ)) :
    (run (Shared.step u) (Shared.new config now next) ops).GaugesTrue ↔
      Along (Shared.step u) (fun y op => y.drops Task.isLeased op = false)
          (Shared.new config now next) ops ∧
        Along (Shared.step u) (fun y op => y.drops Task.isWaiting op = false)
          (Shared.new config now next) ops := by
  have hactive := Shared.run_active u (Shared.new config now next) ops
  have hwaiting := Shared.run_waiting u (Shared.new config now next) ops
  rw [Shared.new_drift, Int.zero_add] at hactive hwaiting
  rw [← Shared.total_toNat, ← Shared.total_toNat]
  constructor
  · intro h
    have h1 := h.active
    have h2 := h.waiting
    refine ⟨hactive.symm.trans ?_, hwaiting.symm.trans ?_⟩ <;>
      simp only [Shared.drift] <;> omega
  · rintro ⟨h1, h2⟩
    have h1' := hactive.trans h1
    have h2' := hwaiting.trans h2
    simp only [Shared.drift] at h1' h2'
    exact ⟨by omega, by omega⟩

namespace Sample

/-- The pool of the small deployment after the operations. -/
def pool (ops : List (Op Pg)) : Shared Pg :=
  run (Shared.step (pg .sample)) (Shared.new {} 0 0) ops

/-- The future `n` calls `checkout`, finds the stack empty and connects. -/
def leases (n : Nat) : List (Op Pg) :=
  [.checkout, .acquire n, .connected n (.ok (Pg.fresh .sample, Dialect.sample.defaults))]

end Sample

open Sample

/-- Two leases, one returned, and a checkout that fails to connect. -/
theorem gauges_true_returned :
    (pool (leases 0 ++ leases 1 ++ [.checkinDetached 0 false, .checkout,
      .acquire 1, .connected 1 (.error "refused"), .checkout])).GaugesTrue :=
  (gauges_true_iff (pg .sample) {} 0 0 _).mpr (by decide)

/-- A checkout that is dropped while it waits, as `drop(futures)` of a scatter does, is counted as
    waiting for ever. A lease that is dropped is counted as active for ever. -/
theorem gauges_drift :
    ((pool [.checkout, .drop 0]).pool.metrics.waiting = 1 ∧
      (pool [.checkout, .drop 0]).tasks.length = 0) ∧
    ((pool (leases 0 ++ [.drop 0])).pool.metrics.active = 1 ∧
      (pool (leases 0 ++ [.drop 0])).tasks.length = 0) ∧
    ¬ (pool [.checkout, .drop 0]).GaugesTrue ∧
    ¬ (pool (leases 0 ++ [.drop 0])).GaugesTrue := by
  refine ⟨by decide, by decide, fun h => ?_, fun h => ?_⟩
  · exact absurd h.waiting (by decide)
  · exact absurd h.active (by decide)

/-! ## The cumulative counters -/

namespace Shared

/-- No pool operation is in progress: the futures that are left are leases. -/
def Quiescent (y : Shared σ) : Prop := ∀ t ∈ y.tasks, t.isLeased = true

instance (y : Shared σ) : Decidable y.Quiescent := inferInstanceAs (Decidable (∀ _ ∈ _, _))

/-- Every checkout is a reuse or a new connection. -/
def CheckoutsSplit (y : Shared σ) : Prop :=
  y.pool.metrics.checkouts = y.pool.metrics.reused + y.pool.metrics.created

/-- Every connection that was opened is counted once. -/
def CreatedSplit (y : Shared σ) : Prop :=
  (y.pool.metrics.created : Int) =
    y.pool.idle.length + y.pool.metrics.active + y.pool.metrics.evicted + y.pool.metrics.dropped

/-- How many checkouts are counted twice. -/
def doubled (y : Shared σ) : Int :=
  y.pool.metrics.reused + y.pool.metrics.created - y.pool.metrics.checkouts

theorem popIdle_doubled (config : PoolConfig) (now : Nat) (idle : List (Parked σ))
    (metrics : PoolMetrics) :
    ((popIdle config now idle metrics).2.2.1.reused : Int) -
        (popIdle config now idle metrics).2.2.1.checkouts = metrics.reused - metrics.checkouts ∧
      (popIdle config now idle metrics).2.2.1.created = metrics.created := by
  fun_induction popIdle config now idle metrics with
  | case1 metrics => exact ⟨rfl, rfl⟩
  | case2 parked rest metrics _ r ih => exact ih
  | case3 parked rest metrics => exact ⟨rfl, rfl⟩
  | case4 parked rest metrics =>
      refine ⟨?_, rfl⟩
      simp only [finishCheckout]
      omega

theorem pop_doubled (y : Shared σ) (n : Nat) : (y.pop n).doubled = y.doubled := by
  obtain ⟨h1, h2⟩ := popIdle_doubled y.pool.config y.now y.pool.idle y.pool.metrics
  simp only [doubled, pop]
  omega

theorem park_doubled (y : Shared σ) (n : Nat) (conn : Conn σ) (createdAt : Nat) :
    (y.park n conn createdAt).doubled = y.doubled := by
  unfold Shared.park
  dsimp only
  split
  case isTrue hold | isFalse hold =>
    simp only [doubled, close, done, Pool.free, Pool.park, hold, if_true, if_false]

/-- `finish_checkout` counts a reuse for a connection that was just created. -/
theorem step_doubled (u : Upstream σ) (y : Shared σ) (op : Op σ) :
    (y.step u op).doubled = y.doubled + (y.connects op).toNat := by
  cases op with
  | connected n outcome =>
      cases outcome with
      | error e =>
          simp only [step, connects, Bool.toNat_false]
          split <;> exact (Int.add_zero _).symm
      | ok made =>
          obtain ⟨backend, parameters⟩ := made
          simp only [step]
          split
          case h_1 ht =>
            simp only [connects, ht, doubled, finishCheckout, Bool.toNat_true]
            omega
          case h_2 hne =>
            simp only [connects]
            exact (Int.add_zero _).symm
  | acquire n =>
      refine Eq.trans ?_ (Int.add_zero _).symm
      simp only [step]
      split
      · split
        · rfl
        · exact pop_doubled _ n
      · rfl
  | probed n inTime =>
      refine Eq.trans ?_ (Int.add_zero _).symm
      simp only [step]
      split
      · split
        · exact pop_doubled _ n
        · simp only [doubled, finishCheckout]
          omega
      · rfl
  | sanitized n arrived inTime =>
      refine Eq.trans ?_ (Int.add_zero _).symm
      simp only [step]
      split
      · split
        · rfl
        · exact park_doubled _ n _ _
      · rfl
  | checkinDetached n dirty =>
      refine Eq.trans ?_ (Int.add_zero _).symm
      simp only [step]
      split
      · split
        · rfl
        · exact park_doubled _ n _ _
      · rfl
  | discarded n inTime =>
      refine Eq.trans ?_ (Int.add_zero _).symm
      simp only [step]
      split
      · split
        · rfl
        · exact park_doubled _ n _ _
      · rfl
  | checkout => exact (Int.add_zero _).symm
  | checkin n hygiene =>
      refine Eq.trans ?_ (Int.add_zero _).symm
      simp only [step]
      split <;> rfl
  | destroy n =>
      refine Eq.trans ?_ (Int.add_zero _).symm
      simp only [step]
      split <;> rfl
  | drop n =>
      refine Eq.trans ?_ (Int.add_zero _).symm
      simp only [step]
      split <;> rfl
  | sweep => exact (Int.add_zero _).symm
  | tick elapsed => exact (Int.add_zero _).symm
  | dial => exact (Int.add_zero _).symm

end Shared

/-- What is not dropped at all is not dropped with `p`. -/
theorem Shared.drops_false {p : Task σ → Bool} {y : Shared σ} {op : Op σ}
    (h : y.drops (fun _ => true) op = false) : y.drops p op = false := by
  cases op with
  | drop n =>
      simp only [Shared.drops] at h ⊢
      cases ht : y.tasks[n]? with
      | none => rfl
      | some t => rw [ht] at h; cases h
  | _ => rfl

theorem Shared.Quiescent.owns {y : Shared σ} (h : y.Quiescent) :
    y.tasks.countP Task.owns = y.tasks.countP Task.isLeased := by
  refine List.countP_congr fun t ht => ?_
  have hl := h t ht
  cases t with
  | leased conn createdAt => exact Iff.rfl
  | _ => cases hl

/-- In a run in which no future and no lease is dropped, when no pool operation is in progress:
    the checkouts are the reuses and the new connections if and only if no connect has
    succeeded, and every connection is counted once if and only if no connect has failed. -/
theorem counters_balance_iff (u : Upstream σ) (config : PoolConfig) (now next : Nat)
    (ops : List (Op σ))
    (hkept : Along (Shared.step u) (fun y op => y.drops (fun _ => true) op = false)
      (Shared.new config now next) ops)
    (hquiet : (run (Shared.step u) (Shared.new config now next) ops).Quiescent) :
    ((run (Shared.step u) (Shared.new config now next) ops).CheckoutsSplit ↔
        Along (Shared.step u) (fun y op => y.connects op = false) (Shared.new config now next)
          ops) ∧
      ((run (Shared.step u) (Shared.new config now next) ops).CreatedSplit ↔
        Along (Shared.step u) (fun y op => y.connectFails op = false)
          (Shared.new config now next) ops) := by
  have hgauges := (gauges_true_iff u config now next ops).mpr
    ⟨Along.mono (fun _ _ => Shared.drops_false) _ ops hkept,
      Along.mono (fun _ _ => Shared.drops_false) _ ops hkept⟩
  have hsame := hquiet.owns
  have hactive := hgauges.active
  constructor
  · have hdoubled := run_total (Shared.step_doubled u) (Shared.new config now next) ops
    rw [← Shared.total_toNat, Shared.CheckoutsSplit]
    have hnew : (Shared.new config now next : Shared σ).doubled = 0 := rfl
    rw [hnew, Int.zero_add, Shared.doubled] at hdoubled
    omega
  · have hloss : Along (Shared.step u) (fun y op => (y.loss op).conns =
        -((y.connectFails op).toNat : Int)) (Shared.new config now next) ops := by
      refine Along.mono (fun y op h => ?_) _ ops hkept
      show ((y.drops Task.owns op).toNat : Int) - _ = _
      rw [Shared.drops_false h]
      exact Int.zero_sub _
    have hconns := Shared.run_conns u (Shared.new config now next) ops
    rw [Shared.new_drift, Int.zero_add, total_congr _ ops hloss, total_neg] at hconns
    rw [← Shared.total_toNat, Shared.CreatedSplit]
    simp only [Shared.drift] at hconns
    omega

/-- Two leases, one returned and one destroyed, then the parked connection leased again. -/
theorem counters_balance_iff_reused :
    let ops := leases 0 ++ leases 1 ++
      [.checkinDetached 0 false, .destroy 0, .checkout, .acquire 0]
    (pool ops).CreatedSplit ∧ ¬ (pool ops).CheckoutsSplit := by
  have h := counters_balance_iff (pg .sample) {} 0 0 (leases 0 ++ leases 1 ++
    [.checkinDetached 0 false, .destroy 0, .checkout, .acquire 0]) (by decide) (by decide)
  exact ⟨h.2.mpr (by decide), fun hs => absurd (h.1.mp hs) (by decide)⟩

/-- One lease on a new connection is counted as a reuse as well. A connect that fails is counted
    as a dropped connection. No operation is in progress and nothing was dropped. -/
theorem counters_unbalanced :
    ((pool (leases 0)).Quiescent ∧
      (pool (leases 0)).pool.metrics.checkouts = 1 ∧
      (pool (leases 0)).pool.metrics.reused = 1 ∧
      (pool (leases 0)).pool.metrics.created = 1 ∧
      ¬ (pool (leases 0)).CheckoutsSplit) ∧
    ((pool [.checkout, .acquire 0, .connected 0 (.error "refused")]).Quiescent ∧
      (pool [.checkout, .acquire 0, .connected 0 (.error "refused")]).pool.metrics.dropped =
        1 ∧
      ¬ (pool [.checkout, .acquire 0, .connected 0 (.error "refused")]).CreatedSplit) := by
  refine ⟨⟨by decide, by decide, by decide, by decide, ?_⟩, by decide, by decide, ?_⟩
  · unfold Shared.CheckoutsSplit
    decide
  · unfold Shared.CreatedSplit
    decide

end Pgferry
