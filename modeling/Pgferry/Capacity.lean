/-
  One pool under concurrent checkouts and checkins (`pool.rs` at its await points).

  `Pool.lean` takes each pool operation as one step. Here a `Task` is a future that works on the
  pool: a checkout that waits for a permit, probes a popped connection or connects, a lease, or
  a checkin that cleans its connection. An `Op` is what one poll of a future does up to its next
  await point; a future can be dropped at each of them. Sweeps and the clock run in between.
  Every interleaving is a list of operations.

  `made` and `closed` list the connections this pool has opened and closed. They are ghost
  variables, and so is the number of the next connection.

  Proved: `capacity_exclusive`. In every state that a fresh pool can reach, the parked
  connections and the futures that hold a permit are at most `max(max_size, 1)`, and every
  connection that was made is in one place: on the stack, owned by one future, or closed. The
  steps of `Pool.lean` are runs of this machine (`checkout_polls` and after).
-/
import Mathlib.Data.List.Perm.Basic
import Pgferry.Hygiene

namespace Pgferry

open Loop

variable {σ : Type}

inductive Task (σ : Type) where
  /-- `checkout`, waiting for a permit. -/
  | waiting
  /-- `checkout`, probing a connection it has popped. -/
  | probing (conn : Conn σ) (createdAt : Nat)
  /-- `checkout`, connecting. -/
  | connecting
  | leased (conn : Conn σ) (createdAt : Nat)
  /-- `checkin`, in `sanitize`. -/
  | sanitizing (conn : Conn σ) (createdAt : Nat) (hygiene : Hygiene)
  /-- `checkin_detached`, in its `DISCARD ALL`. -/
  | discarding (conn : Conn σ) (createdAt : Nat)

namespace Task

/-- The connection that the future owns. -/
def conn? : Task σ → Option (Conn σ)
  | waiting => none
  | probing conn _ => some conn
  | connecting => none
  | leased conn _ => some conn
  | sanitizing conn _ _ => some conn
  | discarding conn _ => some conn

/-- The future holds a permit: it owns a connection or is connecting. -/
def holds : Task σ → Bool
  | waiting => false
  | _ => true

end Task

/-- A pool with the futures that work on it. -/
structure Shared (σ : Type) where
  pool : Pool σ
  now : Nat
  tasks : List (Task σ)
  /-- The number of the next connection of the proxy. -/
  next : Nat
  made : List Nat
  closed : List Nat

inductive Op (σ : Type) where
  /-- A call of `checkout`. -/
  | checkout
  /-- The future `n` gets a permit. -/
  | acquire (n : Nat)
  /-- The probe of `n` ends: with the answer to its `Sync`, or not in time. -/
  | probed (n : Nat) (inTime : Bool)
  | connected (n : Nat) (outcome : Except String (σ × Params))
  | checkin (n : Nat) (hygiene : Hygiene)
  | sanitized (n arrived : Nat) (inTime : Bool)
  | checkinDetached (n : Nat) (dirty : Bool)
  | discarded (n : Nat) (inTime : Bool)
  | destroy (n : Nat)
  /-- The future, or the lease, is dropped. -/
  | drop (n : Nat)
  | sweep
  | tick (elapsed : Nat)
  /-- Another pool connects. -/
  | dial

namespace Pool

/-- Give a permit back. -/
def free (p : Pool σ) : Pool σ := { p with permits := p.permits + 1 }

/-- Count a lease out. -/
def inactive (p : Pool σ) : Pool σ :=
  { p with metrics := { p.metrics with active := p.metrics.active - 1 } }

@[simp] theorem park_config (p : Pool σ) (now : Nat) (conn : Conn σ) (createdAt : Nat) :
    (p.park now conn createdAt).config = p.config := by
  unfold park
  split <;> rfl

@[simp] theorem park_permits (p : Pool σ) (now : Nat) (conn : Conn σ) (createdAt : Nat) :
    (p.park now conn createdAt).permits = p.permits := by
  unfold park
  split <;> rfl

theorem park_idle (p : Pool σ) (now : Nat) (conn : Conn σ) (createdAt : Nat) :
    (p.park now conn createdAt).idle =
      if p.config.maxLifetime < now - createdAt then p.idle
      else { conn := conn, idleSince := now, createdAt := createdAt } :: p.idle := by
  unfold park
  split <;> rfl

end Pool

namespace Shared

variable (u : Upstream σ)

def pids (idle : List (Parked σ)) : List Nat := idle.map fun p => p.conn.processId

/-- The `while let Some(parked) = pop_idle()` loop up to its next await point: the stage that
    the checkout is in then, the stack, the counters, and the connections closed on the way. -/
def popIdle (config : PoolConfig) (now : Nat) :
    List (Parked σ) → PoolMetrics → Task σ × List (Parked σ) × PoolMetrics × List Nat
  | [], metrics => (.connecting, [], metrics, [])
  | parked :: rest, metrics =>
      if config.maxLifetime < now - parked.createdAt then
        let r := popIdle config now rest { metrics with evicted := metrics.evicted + 1 }
        (r.1, r.2.1, r.2.2.1, r.2.2.2 ++ [parked.conn.processId])
      else if config.staleAfter < now - parked.idleSince then
        (.probing parked.conn parked.createdAt, rest,
          { metrics with probed := metrics.probed + 1 }, [])
      else (.leased parked.conn parked.createdAt, rest, finishCheckout metrics, [])

/-- The future `n` runs the loop. -/
def pop (y : Shared σ) (n : Nat) : Shared σ :=
  let r := popIdle y.pool.config y.now y.pool.idle y.pool.metrics
  { y with
    pool := { y.pool with idle := r.2.1, metrics := r.2.2.1 }
    tasks := y.tasks.set n r.1
    closed := r.2.2.2 ++ y.closed }

/-- The future `n` ends with the pool `p`, and its permit is free. -/
def done (y : Shared σ) (n : Nat) (p : Pool σ) : Shared σ :=
  { y with pool := p.free, tasks := y.tasks.eraseIdx n }

/-- The connection `pid` is closed. -/
def close (y : Shared σ) (pid : Nat) : Shared σ := { y with closed := pid :: y.closed }

/-- Park the connection of the future `n`, or close it when it is past `max_lifetime`. -/
def park (y : Shared σ) (n : Nat) (conn : Conn σ) (createdAt : Nat) : Shared σ :=
  let y' := y.done n (y.pool.park y.now conn createdAt)
  if y.pool.config.maxLifetime < y.now - createdAt then y'.close conn.processId else y'

/-- The end of `checkin_detached` for a clean connection. -/
def parkDetached (y : Shared σ) (n : Nat) (conn : Conn σ) (createdAt : Nat) : Shared σ :=
  { y with pool := { y.pool with baselineParams := some conn.serverParameters } }.park n conn
    createdAt

def step (y : Shared σ) : Op σ → Shared σ
  | .checkout =>
      { y with
        pool := { y.pool with
          metrics := { y.pool.metrics with waiting := y.pool.metrics.waiting + 1 } }
        tasks := y.tasks ++ [.waiting] }
  | .acquire n =>
      match y.tasks[n]? with
      | some .waiting =>
          if y.pool.permits = 0 then y
          else
            { y with
              pool := { y.pool with
                permits := y.pool.permits - 1
                metrics := { y.pool.metrics with waiting := y.pool.metrics.waiting - 1 } } }.pop n
      | _ => y
  | .probed n inTime =>
      match y.tasks[n]? with
      | some (.probing conn createdAt) =>
          match if inTime then probe u conn else .error "timeout" with
          | .error _ =>
              ({ y with
                pool := { y.pool with
                  metrics := { y.pool.metrics with dropped := y.pool.metrics.dropped + 1 } } }.close
                conn.processId).pop n
          | .ok conn =>
              { y with
                pool := { y.pool with metrics := finishCheckout y.pool.metrics }
                tasks := y.tasks.set n (.leased conn createdAt) }
      | _ => y
  | .connected n outcome =>
      match y.tasks[n]? with
      | some .connecting =>
          match outcome with
          | .error _ => { y.done n y.pool.drop with next := y.next + 1 }
          | .ok (backend, parameters) =>
              { y with
                pool := { y.pool with
                  metrics := finishCheckout
                    { y.pool.metrics with created := y.pool.metrics.created + 1 } }
                tasks := y.tasks.set n (.leased (Conn.new y.next backend parameters) y.now)
                next := y.next + 1
                made := y.next :: y.made }
      | _ => y
  | .checkin n hygiene =>
      match y.tasks[n]? with
      | some (.leased conn createdAt) =>
          { y with
            pool := y.pool.inactive
            tasks := y.tasks.set n (.sanitizing conn createdAt hygiene) }
      | _ => y
  | .sanitized n arrived inTime =>
      match y.tasks[n]? with
      | some (.sanitizing conn createdAt hygiene) =>
          match if inTime then sanitize u conn hygiene arrived else .error "timeout" with
          | .error _ => (y.done n y.pool.drop).close conn.processId
          | .ok conn => y.park n conn createdAt
      | _ => y
  | .checkinDetached n dirty =>
      match y.tasks[n]? with
      | some (.leased conn createdAt) =>
          if dirty then
            { y with
              pool := y.pool.inactive
              tasks := y.tasks.set n (.discarding conn createdAt) }
          else { y with pool := y.pool.inactive }.parkDetached n conn createdAt
      | _ => y
  | .discarded n inTime =>
      match y.tasks[n]? with
      | some (.discarding conn createdAt) =>
          match if inTime then conn.simpleQuery u "DISCARD ALL" else .error "timeout" with
          | .error _ => (y.done n y.pool.drop).close conn.processId
          | .ok conn => y.parkDetached n conn createdAt
      | _ => y
  | .destroy n =>
      match y.tasks[n]? with
      | some (.leased conn _) => (y.done n y.pool.inactive.drop).close conn.processId
      | _ => y
  | .drop n =>
      match y.tasks[n]? with
      | none => y
      | some .waiting => { y with tasks := y.tasks.eraseIdx n }
      | some t => { y.done n y.pool with
          closed := t.conn?.toList.map Conn.processId ++ y.closed }
  | .sweep =>
      { y with
        pool := y.pool.sweep y.now
        closed := pids (y.pool.idle.filter fun parked =>
          decide (y.pool.config.idleTimeout < y.now - parked.idleSince) ||
            decide (y.pool.config.maxLifetime < y.now - parked.createdAt)) ++ y.closed }
  | .tick elapsed => { y with now := y.now + elapsed }
  | .dial => { y with next := y.next + 1 }

/-- A fresh pool. -/
def new (config : PoolConfig) (now next : Nat) : Shared σ where
  pool := Pool.new config
  now := now
  tasks := []
  next := next
  made := []
  closed := []

end Shared

/-! ## Custody -/

/-- The connections that futures own. -/
def Task.pids (t : Task σ) : List Nat := t.conn?.toList.map Conn.processId

def owned (tasks : List (Task σ)) : List Nat := tasks.flatMap Task.pids

namespace Shared

/-- Every permit is free or held, parked connections and holders fit the capacity, and every
    connection that was made is in exactly one place. -/
structure Custody (config : PoolConfig) (y : Shared σ) : Prop where
  configured : y.pool.config = config
  permits : y.pool.permits + y.tasks.countP Task.holds = max config.maxSize 1
  bound : y.pool.idle.length + y.tasks.countP Task.holds ≤ max config.maxSize 1
  places : (pids y.pool.idle ++ owned y.tasks ++ y.closed).Perm y.made
  distinct : y.made.Nodup
  fresh : ∀ c ∈ y.made, c < y.next

/-- The futures `ts` become `ts'` and the others stay. The connections `new` were made. -/
structure Exchange (y z : Shared σ) (ts ts' : List (Task σ)) (new : List Nat) : Prop where
  before : ∃ rest, y.tasks.Perm (ts ++ rest) ∧ z.tasks.Perm (ts' ++ rest)
  config : z.pool.config = y.pool.config
  permits : z.pool.permits + ts'.countP Task.holds = y.pool.permits + ts.countP Task.holds
  /-- The stack shrinks by what the futures gain, or was found empty. -/
  bound : z.pool.idle.length + ts'.countP Task.holds ≤ y.pool.idle.length + ts.countP Task.holds ∨
    z.pool.idle = []
  places : (pids z.pool.idle ++ owned ts' ++ z.closed).Perm
    (new ++ (pids y.pool.idle ++ owned ts ++ y.closed))
  made : z.made = new ++ y.made
  numbers : new.Nodup ∧ (∀ c ∈ new, y.next ≤ c ∧ c < z.next) ∧ y.next ≤ z.next

theorem Custody.exchange {config : PoolConfig} {y z : Shared σ} {a b : List (Task σ)}
    {c : List Nat} (h : y.Custody config) (hx : Exchange y z a b c) : z.Custody config := by
  obtain ⟨rest, hy, hz⟩ := hx.before
  have hcy := hy.countP_eq Task.holds
  have hcz := hz.countP_eq Task.holds
  rw [List.countP_append] at hcy hcz
  have hper := h.permits
  have hbnd := h.bound
  have hxp := hx.permits
  refine ⟨hx.config.trans h.configured, by omega, ?_, ?_, ?_, ?_⟩
  · rcases hx.bound with hb | hb
    · omega
    · rw [hb, List.length_nil]
      omega
  · rw [hx.made]
    refine List.perm_iff_count.mpr fun a => ?_
    have h1 := (hy.flatMap_right Task.pids).count_eq a
    have h2 := (hz.flatMap_right Task.pids).count_eq a
    have h3 := h.places.count_eq a
    have h4 := hx.places.count_eq a
    simp only [owned, List.count_append, List.flatMap_append] at h1 h2 h3 h4 ⊢
    omega
  · rw [hx.made]
    refine List.nodup_append.mpr ⟨hx.numbers.1, h.distinct, fun c hc c' hc' => ?_⟩
    rintro rfl
    have := h.fresh c hc'
    have := (hx.numbers.2.1 c hc).1
    omega
  · rw [hx.made]
    intro c hc
    have hnext := hx.numbers.2.2
    rcases List.mem_append.mp hc with hc | hc
    · exact (hx.numbers.2.1 c hc).2
    · have := h.fresh c hc
      omega

section Tasks

variable {tasks : List (Task σ)} {n : Nat} {t : Task σ}

theorem perm_eraseIdx (h : tasks[n]? = some t) : tasks.Perm ([t] ++ tasks.eraseIdx n) := by
  obtain ⟨hn, rfl⟩ := List.getElem?_eq_some_iff.mp h
  exact (List.getElem_cons_eraseIdx_perm hn).symm

theorem set_perm (h : tasks[n]? = some t) (t' : Task σ) :
    (tasks.set n t').Perm ([t'] ++ tasks.eraseIdx n) := by
  obtain ⟨hn, _⟩ := List.getElem?_eq_some_iff.mp h
  exact List.set_perm_cons_eraseIdx hn t'

end Tasks

/-! ## The steps -/

/-- What the pop loop takes from the stack is owned or closed afterwards. -/
theorem popIdle_spec (config : PoolConfig) (now : Nat) (idle : List (Parked σ))
    (metrics : PoolMetrics) :
    (popIdle config now idle metrics).1.holds = true ∧
      ((popIdle config now idle metrics).2.1.length + 1 ≤ idle.length ∨
        (popIdle config now idle metrics).2.1 = []) ∧
      (pids (popIdle config now idle metrics).2.1 ++ (popIdle config now idle metrics).1.pids ++
        (popIdle config now idle metrics).2.2.2).Perm (pids idle) := by
  fun_induction popIdle config now idle metrics with
  | case1 metrics => exact ⟨rfl, .inr rfl, .refl _⟩
  | case2 parked rest metrics _ r ih =>
      obtain ⟨h1, h2, h3⟩ := ih
      refine ⟨h1, h2.imp (fun h => Nat.le_succ_of_le h) (fun h => h), ?_⟩
      rw [← List.append_assoc]
      exact (List.perm_append_singleton _ _).trans (h3.cons _)
  | case3 parked rest metrics =>
      refine ⟨rfl, .inl (Nat.le_refl _), ?_⟩
      simp [pids, Task.pids, Task.conn?]
  | case4 parked rest metrics =>
      refine ⟨rfl, .inl (Nat.le_refl _), ?_⟩
      simp [pids, Task.pids, Task.conn?]

section Steps

variable {config : PoolConfig} {y z : Shared σ} {n : Nat} {t : Task σ}

/-- The future `n` goes on with what it has. -/
theorem Exchange.swap {t' : Task σ} (ht : y.tasks[n]? = some t) (hpool : z.pool.idle = y.pool.idle)
    (hconfig : z.pool.config = y.pool.config) (hpermits : z.pool.permits = y.pool.permits)
    (htasks : z.tasks = y.tasks.set n t') (hholds : t'.holds = t.holds) (hpids : t'.pids = t.pids)
    (hclosed : z.closed = y.closed) (hmade : z.made = y.made) (hnext : z.next = y.next) :
    Exchange y z [t] [t'] [] where
  before := ⟨_, perm_eraseIdx ht, htasks ▸ set_perm ht t'⟩
  config := hconfig
  permits := by simp [hpermits, hholds, List.countP_cons]
  bound := .inl (by simp [hpool, hholds, List.countP_cons])
  places := by simp [hpool, owned, hpids, hclosed]
  made := hmade
  numbers := ⟨List.nodup_nil, nofun, Nat.le_of_eq hnext.symm⟩

/-- The future `n` ends; its connection is parked or closed. -/
theorem Exchange.leave (ht : y.tasks[n]? = some t) (hholds : t.holds = true)
    (hconfig : z.pool.config = y.pool.config) (hpermits : z.pool.permits = y.pool.permits + 1)
    (htasks : z.tasks = y.tasks.eraseIdx n)
    (hlength : z.pool.idle.length ≤ y.pool.idle.length + 1)
    (hplaces : (pids z.pool.idle ++ z.closed).Perm (pids y.pool.idle ++ t.pids ++ y.closed))
    (hmade : z.made = y.made) (hnext : y.next ≤ z.next) : Exchange y z [t] [] [] where
  before := ⟨_, perm_eraseIdx ht, htasks ▸ .refl _⟩
  config := hconfig
  permits := by simp [hpermits, hholds]
  bound := .inl (by simpa [hholds] using hlength)
  places := by simpa [owned] using hplaces
  made := hmade
  numbers := ⟨List.nodup_nil, nofun, hnext⟩

/-- The future `n` runs the pop loop in `z`, which has closed what `n` owned in `y`. -/
theorem Custody.pop (h : y.Custody config) (ht : y.tasks[n]? = some t)
    (hidle : z.pool.idle = y.pool.idle) (hconfig : z.pool.config = y.pool.config)
    (hpermits : z.pool.permits + 1 = y.pool.permits + [t].countP Task.holds)
    (htasks : z.tasks = y.tasks) (hclosed : z.closed = t.pids ++ y.closed)
    (hmade : z.made = y.made) (hnext : z.next = y.next) : (z.pop n).Custody config := by
  obtain ⟨hholds, hlength, hperm⟩ := popIdle_spec z.pool.config z.now z.pool.idle z.pool.metrics
  refine h.exchange (a := [t]) (b := [(popIdle z.pool.config z.now z.pool.idle
    z.pool.metrics).1]) (c := []) ⟨⟨_, perm_eraseIdx ht, ?_⟩, hconfig, ?_, ?_, ?_, hmade, ?_⟩
  · show (z.tasks.set n _).Perm _
    rw [htasks]
    exact set_perm ht _
  · show z.pool.permits + _ = _
    rw [List.countP_singleton, if_pos hholds]
    exact hpermits
  · rw [List.countP_singleton, if_pos hholds, ← hidle]
    exact hlength.imp (fun h => Nat.le_trans h (Nat.le_add_right _ _)) fun h => h
  · refine List.perm_iff_count.mpr fun a => ?_
    have h1 := hperm.count_eq a
    rw [hidle] at h1
    simp only [Shared.pop, owned, hidle, hclosed, List.flatMap_cons, List.flatMap_nil,
      List.append_nil, List.nil_append, List.count_append] at h1 ⊢
    omega
  · exact ⟨List.nodup_nil, nofun, Nat.le_of_eq hnext.symm⟩

/-- Nothing of the pool's custody changes. -/
theorem Custody.congr (h : y.Custody config) (hidle : z.pool.idle = y.pool.idle)
    (hconfig : z.pool.config = y.pool.config) (hpermits : z.pool.permits = y.pool.permits)
    (htasks : z.tasks = y.tasks) (hclosed : z.closed = y.closed) (hmade : z.made = y.made)
    (hnext : y.next ≤ z.next) : z.Custody config :=
  h.exchange (a := []) (b := []) (c := []) {
    before := ⟨_, .refl _, htasks ▸ .refl _⟩
    config := hconfig
    permits := by rw [hpermits]
    bound := .inl (by rw [hidle])
    places := by rw [hidle, hclosed]; exact .refl _
    made := hmade
    numbers := ⟨List.nodup_nil, nofun, hnext⟩ }

/-- The end of a checkin that has cleaned its connection. -/
theorem Custody.park (h : y.Custody config) (ht : y.tasks[n]? = some t) (hholds : t.holds = true)
    {conn : Conn σ} {createdAt : Nat} (hpid : t.pids = [conn.processId])
    (hidle : z.pool.idle = y.pool.idle) (hconfig : z.pool.config = y.pool.config)
    (hpermits : z.pool.permits = y.pool.permits) (htasks : z.tasks = y.tasks)
    (hclosed : z.closed = y.closed) (hmade : z.made = y.made) (hnext : z.next = y.next) :
    (z.park n conn createdAt).Custody config := by
  have hle := Nat.le_of_eq hnext.symm
  unfold Shared.park
  dsimp only
  split
  case isTrue hold =>
    refine h.exchange (Exchange.leave ht hholds ?_ ?_ ?_ ?_ ?_ hmade hle)
    · exact (Pool.park_config _ _ _ _).trans hconfig
    · exact congrArg (· + 1) ((Pool.park_permits _ _ _ _).trans hpermits)
    · exact congrArg (List.eraseIdx · n) htasks
    · simp [done, close, Pool.free, Pool.park_idle, hold, hidle]
    · simp [done, close, Pool.free, Pool.park_idle, hold, hidle, hpid, hclosed]
  case isFalse hold =>
    refine h.exchange (Exchange.leave ht hholds ?_ ?_ ?_ ?_ ?_ hmade hle)
    · exact (Pool.park_config _ _ _ _).trans hconfig
    · exact congrArg (· + 1) ((Pool.park_permits _ _ _ _).trans hpermits)
    · exact congrArg (List.eraseIdx · n) htasks
    · simp [done, Pool.free, Pool.park_idle, hold, hidle]
    · have hmid : (conn.processId :: (pids y.pool.idle ++ y.closed)).Perm
          (pids y.pool.idle ++ conn.processId :: y.closed) := List.perm_middle.symm
      simpa [done, Pool.free, Pool.park_idle, hold, hidle, hpid, hclosed, pids] using hmid

/-- The end of a future whose connection, if it has one, is closed. -/
theorem Custody.leave (h : y.Custody config) (ht : y.tasks[n]? = some t) (hholds : t.holds = true)
    (hidle : z.pool.idle = y.pool.idle) (hconfig : z.pool.config = y.pool.config)
    (hpermits : z.pool.permits = y.pool.permits + 1) (htasks : z.tasks = y.tasks.eraseIdx n)
    (hclosed : z.closed = t.pids ++ y.closed) (hmade : z.made = y.made)
    (hnext : y.next ≤ z.next) : z.Custody config :=
  h.exchange (Exchange.leave ht hholds hconfig hpermits htasks (by rw [hidle]; omega)
    (by rw [hidle, hclosed, List.append_assoc]) hmade hnext)

end Steps

/-- Every poll of a future keeps the custody. -/
theorem step_custody (u : Upstream σ) {config : PoolConfig} (y : Shared σ) (op : Op σ)
    (h : y.Custody config) : (y.step u op).Custody config := by
  cases op with
  | checkout =>
      refine h.exchange (a := []) (b := [.waiting]) (c := [])
        ⟨⟨y.tasks, .refl _, List.perm_append_singleton _ _⟩, rfl, rfl, .inl (Nat.le_refl _), ?_,
          rfl, List.nodup_nil, nofun, Nat.le_refl _⟩
      exact .refl _
  | acquire n =>
      simp only [step]
      split
      case h_1 ht =>
        split
        · exact h
        · exact h.pop ht rfl rfl (by simp [Task.holds]; omega) rfl rfl rfl rfl
      case h_2 => exact h
  | probed n inTime =>
      simp only [step]
      split
      case h_1 conn createdAt ht =>
        split
        case h_1 => exact h.pop ht rfl rfl rfl rfl rfl rfl rfl
        case h_2 conn' hp =>
          have hpid : conn'.processId = conn.processId := by
            split at hp
            · exact closeCycle_processId hp
            · cases hp
          exact h.exchange (Exchange.swap ht rfl rfl rfl rfl rfl
            (congrArg (fun n => [n]) hpid) rfl rfl rfl)
      case h_2 => exact h
  | connected n outcome =>
      simp only [step]
      split
      case h_1 ht =>
        split
        · exact h.leave ht rfl rfl rfl rfl rfl rfl rfl (Nat.le_succ _)
        · refine h.exchange (a := [.connecting]) (c := [y.next])
            ⟨⟨_, perm_eraseIdx ht, set_perm ht _⟩, rfl, rfl, .inl (Nat.le_refl _), ?_, rfl,
              List.nodup_singleton _, ?_, Nat.le_succ _⟩
          · simp [owned, Task.pids, Task.conn?, Conn.new]
          · simp
      case h_2 => exact h
  | checkin n hygiene =>
      simp only [step]
      split
      case h_1 ht =>
        exact h.exchange (Exchange.swap ht rfl rfl rfl rfl rfl rfl rfl rfl rfl)
      case h_2 => exact h
  | sanitized n arrived inTime =>
      simp only [step]
      split
      case h_1 conn createdAt hygiene ht =>
        split
        case h_1 => exact h.leave ht rfl rfl rfl rfl rfl rfl rfl (Nat.le_refl _)
        case h_2 conn' hs =>
          have hpid : conn'.processId = conn.processId := by
            split at hs
            · exact (processId_cleans u _).sanitize rfl hs
            · cases hs
          exact h.park ht rfl (congrArg (fun n => [n]) hpid.symm) rfl rfl rfl rfl rfl rfl rfl
      case h_2 => exact h
  | checkinDetached n dirty =>
      simp only [step]
      split
      case h_1 conn createdAt ht =>
        split
        · exact h.exchange (Exchange.swap ht rfl rfl rfl rfl rfl rfl rfl rfl rfl)
        · exact h.park ht rfl rfl rfl rfl rfl rfl rfl rfl rfl
      case h_2 => exact h
  | discarded n inTime =>
      simp only [step]
      split
      case h_1 conn createdAt ht =>
        split
        case h_1 => exact h.leave ht rfl rfl rfl rfl rfl rfl rfl (Nat.le_refl _)
        case h_2 conn' hs =>
          have hpid : conn'.processId = conn.processId := by
            split at hs
            · exact simpleQuery_processId hs
            · cases hs
          exact h.park ht rfl (congrArg (fun n => [n]) hpid.symm) rfl rfl rfl rfl rfl rfl rfl
      case h_2 => exact h
  | destroy n =>
      simp only [step]
      split
      case h_1 ht =>
        exact h.leave ht rfl rfl rfl rfl rfl rfl rfl (Nat.le_refl _)
      case h_2 => exact h
  | drop n =>
      simp only [step]
      split
      case h_1 => exact h
      case h_2 ht =>
        exact h.exchange (a := [.waiting]) (b := []) (c := [])
          ⟨⟨_, perm_eraseIdx ht, .refl _⟩, rfl, rfl, .inl (Nat.le_refl _), .refl _, rfl,
            List.nodup_nil, nofun, Nat.le_refl _⟩
      case h_3 t hwait ht =>
        have hholds : t.holds = true := by
          cases t with
          | waiting => exact absurd rfl hwait
          | _ => rfl
        exact h.leave ht hholds rfl rfl rfl rfl rfl rfl (Nat.le_refl _)
  | sweep =>
      refine h.exchange (a := []) (b := []) (c := [])
        ⟨⟨_, .refl _, .refl _⟩, rfl, rfl, .inl (List.length_filter_le _ _), ?_, rfl,
          List.nodup_nil, nofun, Nat.le_refl _⟩
      have hsplit := (List.filter_append_perm (fun parked : Parked σ =>
        decide (y.pool.config.idleTimeout < y.now - parked.idleSince) ||
          decide (y.pool.config.maxLifetime < y.now - parked.createdAt)) y.pool.idle).map
            fun p => p.conn.processId
      refine List.perm_iff_count.mpr fun a => ?_
      have hcount := hsplit.count_eq a
      simp only [step, Pool.sweep, pids, owned, List.map_append, List.flatMap_nil,
        List.append_nil, List.nil_append, List.count_append] at hcount ⊢
      omega
  | tick elapsed => exact h.congr rfl rfl rfl rfl rfl rfl (Nat.le_refl _)
  | dial => exact h.congr rfl rfl rfl rfl rfl rfl (Nat.le_succ _)

theorem new_custody (config : PoolConfig) (now next : Nat) :
    (new config now next : Shared σ).Custody config where
  configured := rfl
  permits := rfl
  bound := Nat.zero_le _
  places := .refl _
  distinct := List.nodup_nil
  fresh := nofun

end Shared

/-- The futures of one pool never own more connections than it has room for, and no connection
    has two places. -/
theorem capacity_exclusive (u : Upstream σ) (config : PoolConfig) (now next : Nat)
    (ops : List (Op σ)) :
    let y := run (Shared.step u) (Shared.new config now next) ops
    y.pool.idle.length + y.tasks.countP Task.holds ≤ max config.maxSize 1 ∧
      (Shared.pids y.pool.idle ++ owned y.tasks ++ y.closed).Perm y.made ∧ y.made.Nodup := by
  intro y
  have halong : Along (Shared.step u) (fun _ _ => True) (Shared.new config now next) ops :=
    along_true _ ops
  have h : y.Custody config := run_inv (fun y op h _ => Shared.step_custody u y op h) _ ops
    (Shared.new_custody config now next) halong
  exact ⟨h.bound, h.places, h.distinct⟩

/-! ## The pool operations as runs -/

/-- The pool of `key` in a world, with the futures `tasks`. -/
def World.shared (w : World σ) (key : PoolKey) (tasks : List (Task σ)) (made closed : List Nat) :
    Shared σ where
  pool := w.pools key
  now := w.now
  tasks := tasks
  next := w.dials
  made := made
  closed := closed

namespace Shared

variable {u : Upstream σ}

/-- The state after the future `n` has found `r` on the stack and owns it, or connects. -/
def found (y : Shared σ) (n : Nat) (closed : List Nat)
    (r : Option (Conn σ × Nat) × List (Parked σ) × PoolMetrics) : Shared σ :=
  { y with
    pool := { y.pool with
      idle := r.2.1
      metrics := if r.1.isSome then finishCheckout r.2.2 else r.2.2 }
    tasks := y.tasks.set n (match r.1 with
      | some (conn, createdAt) => .leased conn createdAt
      | none => .connecting)
    closed := closed }

/-- A checkout that is polled alone goes through the idle stack as `takeIdle` does. -/
theorem pop_polls (u : Upstream σ) (idle : List (Parked σ)) (y : Shared σ) (n : Nat)
    (hidle : y.pool.idle = idle) (hn : n < y.tasks.length) :
    ∃ ops closed, run (step u) (y.pop n) ops =
      y.found n closed (takeIdle u y.pool.config y.now idle y.pool.metrics) := by
  induction idle generalizing y with
  | nil => exact ⟨[], y.closed, by simp [pop, popIdle, takeIdle, hidle, found]⟩
  | cons parked rest ih =>
      by_cases hold : y.pool.config.maxLifetime < y.now - parked.createdAt
      · -- An expired connection is closed without an await.
        obtain ⟨ops, closed, hops⟩ := ih { y with
          pool := { y.pool with
            idle := rest
            metrics := { y.pool.metrics with evicted := y.pool.metrics.evicted + 1 } }
          closed := parked.conn.processId :: y.closed } rfl hn
        refine ⟨ops, closed, Eq.trans (congrArg (run (step u) · ops) ?_) (hops.trans ?_)⟩
        · simp [pop, hidle, popIdle, hold]
        · simp [takeIdle, hold, found]
      · by_cases hstale : y.pool.config.staleAfter < y.now - parked.idleSince
        · cases hp : probe u parked.conn with
          | error e =>
              obtain ⟨ops, closed, hops⟩ := ih { y with
                pool := { y.pool with
                  idle := rest
                  metrics := { y.pool.metrics with
                    probed := y.pool.metrics.probed + 1
                    dropped := y.pool.metrics.dropped + 1 } }
                tasks := y.tasks.set n (.probing parked.conn parked.createdAt)
                closed := parked.conn.processId :: y.closed } rfl (by simpa using hn)
              refine ⟨.probed n true :: ops, closed,
                Eq.trans (congrArg (run (step u) · ops) ?_) (hops.trans ?_)⟩
              · simp [pop, hidle, popIdle, hold, hstale, step, hn, hp, close]
              · simp [takeIdle, hold, hstale, hp, found]
          | ok conn =>
              refine ⟨[.probed n true], y.closed, ?_⟩
              simp [pop, hidle, popIdle, hold, hstale, step, hn, hp, takeIdle, found]
        · exact ⟨[], y.closed, by simp [pop, popIdle, takeIdle, hidle, hold, hstale, found]⟩

/-- The futures after a checkout. -/
def leases : Except String (UpstreamLease σ) → List (Task σ)
  | .ok lease => [.leased lease.conn lease.createdAt]
  | .error _ => []

/-- `World.checkout` is a checkout that is polled to its end while a permit is free. -/
theorem checkout_polls (u : Upstream σ) (w : World σ) (key : PoolKey) (tasks : List (Task σ))
    (made closed : List Nat) (hpermit : (w.pools key).permits ≠ 0) :
    ∃ ops made' closed', run (step u) (w.shared key tasks made closed) ops =
      (w.checkout u key).1.shared key (tasks ++ leases (w.checkout u key).2) made' closed' := by
  let y : Shared σ := {
    pool := { w.pools key with permits := (w.pools key).permits - 1 }
    now := w.now
    tasks := tasks ++ [.waiting]
    next := w.dials
    made := made
    closed := closed }
  obtain ⟨ops, closed', hops⟩ := pop_polls u (w.pools key).idle y tasks.length rfl
    (by simp [y])
  have hstart : run (step u) (w.shared key tasks made closed) [.checkout, .acquire tasks.length] =
      y.pop tasks.length := by
    simp [run, step, World.shared, hpermit, y]
  have hrun : ∀ more, run (step u) (w.shared key tasks made closed)
      ([.checkout, .acquire tasks.length] ++ ops ++ more) =
        run (step u) (y.found tasks.length closed' (takeIdle u (w.pools key).config w.now
          (w.pools key).idle (w.pools key).metrics)) more := by
    intro more
    rw [run_append, run_append, hstart, hops]
  have hback : (w.pools key).permits - 1 + 1 = (w.pools key).permits :=
    Nat.sub_add_cancel (Nat.pos_of_ne_zero hpermit)
  unfold World.checkout
  dsimp only
  split
  case h_1 conn createdAt idle metrics heq =>
    refine ⟨_, made, closed', (hrun []).trans ?_⟩
    simp [heq, found, y, World.shared, World.modify, leases]
  case h_2 idle metrics heq =>
    cases hdial : w.supply key w.dials with
    | error e =>
        refine ⟨_, made, closed', (hrun [.connected tasks.length (.error e)]).trans ?_⟩
        simp [heq, found, y, World.shared, World.modify, leases, run, step, done, Pool.free,
          Pool.drop, hback, List.eraseIdx_append_of_length_le]
    | ok b =>
        refine ⟨_, w.dials :: made, closed',
          (hrun [.connected tasks.length (.ok b)]).trans ?_⟩
        simp [heq, found, y, World.shared, World.modify, leases, run, step]

/-- `World.checkin` is the checkin of the lease, polled to its end. -/
theorem checkin_polls (u : Upstream σ) (w : World σ) (lease : UpstreamLease σ) (hygiene : Hygiene)
    (arrived : Nat) (tasks : List (Task σ)) (made closed : List Nat) :
    ∃ closed', run (step u)
        (w.shared lease.pool (.leased lease.conn lease.createdAt :: tasks) made closed)
        [.checkin 0 hygiene, .sanitized 0 arrived true] =
      (w.checkin u lease hygiene arrived).shared lease.pool tasks made closed' := by
  cases hs : sanitize u lease.conn hygiene arrived with
  | error e =>
      refine ⟨lease.conn.processId :: closed, ?_⟩
      simp [run, step, World.shared, hs, World.checkin, World.modify, done, close, Pool.free,
        Pool.drop, Pool.inactive, Pool.release]
  | ok conn =>
      by_cases hold : (w.pools lease.pool).config.maxLifetime < w.now - lease.createdAt
      · refine ⟨conn.processId :: closed, ?_⟩
        simp [run, step, World.shared, hs, World.checkin, World.modify, park, done, close,
          Pool.free, Pool.park, Pool.inactive, Pool.release, hold]
      · refine ⟨closed, ?_⟩
        simp [run, step, World.shared, hs, World.checkin, World.modify, park, done, Pool.free,
          Pool.park, Pool.inactive, Pool.release, hold]

theorem checkinDetached_polls (u : Upstream σ) (w : World σ) (lease : UpstreamLease σ)
    (dirty : Bool) (tasks : List (Task σ)) (made closed : List Nat) :
    ∃ ops closed', run (step u)
        (w.shared lease.pool (.leased lease.conn lease.createdAt :: tasks) made closed) ops =
      (w.checkinDetached u lease dirty).shared lease.pool tasks made closed' := by
  -- A clean lease is parked in the poll that starts the checkin.
  have hpark : ∀ conn, ∃ closed', ({ w.shared lease.pool
      (.leased lease.conn lease.createdAt :: tasks) made closed with
        pool := (w.pools lease.pool).inactive } : Shared σ).parkDetached 0 conn lease.createdAt =
      (w.modify lease.pool fun p =>
        { p.release with baselineParams := some conn.serverParameters }.park w.now conn
          lease.createdAt).shared lease.pool tasks made closed' := by
    intro conn
    by_cases hold : (w.pools lease.pool).config.maxLifetime < w.now - lease.createdAt
    · refine ⟨conn.processId :: closed, ?_⟩
      simp [World.shared, World.modify, parkDetached, park, done, close, Pool.free, Pool.park,
        Pool.inactive, Pool.release, hold]
    · refine ⟨closed, ?_⟩
      simp [World.shared, World.modify, parkDetached, park, done, Pool.free, Pool.park,
        Pool.inactive, Pool.release, hold]
  cases dirty with
  | false =>
      obtain ⟨closed', h⟩ := hpark lease.conn
      exact ⟨[.checkinDetached 0 false], closed', h⟩
  | true =>
      cases hd : lease.conn.simpleQuery u "DISCARD ALL" with
      | error e =>
          refine ⟨[.checkinDetached 0 true, .discarded 0 true],
            lease.conn.processId :: closed, ?_⟩
          simp [run, step, World.shared, hd, World.checkinDetached, discardIfDirty, World.modify,
            done, close, Pool.free, Pool.drop, Pool.inactive, Pool.release]
      | ok conn =>
          obtain ⟨closed', h⟩ := hpark conn
          refine ⟨[.checkinDetached 0 true, .discarded 0 true], closed', ?_⟩
          simp only [World.checkinDetached, discardIfDirty, if_true, hd]
          rw [← h]
          simp [run, step, World.shared, hd, parkDetached, park, done, close]

theorem destroy_polls (u : Upstream σ) (w : World σ) (lease : UpstreamLease σ)
    (tasks : List (Task σ)) (made closed : List Nat) :
    run (step u) (w.shared lease.pool (.leased lease.conn lease.createdAt :: tasks) made closed)
        [.destroy 0] =
      (w.destroy lease).shared lease.pool tasks made (lease.conn.processId :: closed) := by
  simp [run, step, World.shared, World.destroy, World.modify, done, close, Pool.free, Pool.drop,
    Pool.inactive, Pool.release]

theorem abandon_polls (u : Upstream σ) (w : World σ) (lease : UpstreamLease σ)
    (tasks : List (Task σ)) (made closed : List Nat) :
    run (step u) (w.shared lease.pool (.leased lease.conn lease.createdAt :: tasks) made closed)
        [.drop 0] =
      (w.abandon lease).shared lease.pool tasks made (lease.conn.processId :: closed) := by
  simp [run, step, World.shared, World.abandon, World.modify, done, Pool.free, Task.conn?]

end Shared

end Pgferry
