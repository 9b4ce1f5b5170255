/-
  Shared runtime state (`runtime.rs`) and the registry of live pools (`PoolManager` of `pool.rs`).

  The registry is a hash map, so the order in which it lists its pools is arbitrary; here it is the
  order of the entries of an `AList`, and what is proved holds for every order.

  Proved: `get_or_create` registers what it is given under its key when there is nothing yet, and
  leaves all else alone (`getOrCreate_lookup`).
-/
import Pgferry.Pool

namespace Pgferry

variable {σ α : Type}

/-- `SessionInfo`, with the time since `started` as the text that `SHOW CLIENTS` prints. -/
structure SessionInfo where
  pid : Int
  addr : String
  user : String
  database : String
  isAdmin : Bool
  attached : Bool
  connectedFor : String
  deriving DecidableEq, Repr

structure RuntimeState where
  sessions : List SessionInfo
  total : Nat

namespace RuntimeState

def sessionsActive (state : RuntimeState) : Nat := state.sessions.length

def sessionsTotal (state : RuntimeState) : Nat := state.total

end RuntimeState

/-- The live pools by their keys. -/
abbrev PoolManager (σ : Type) := AList (fun _ : PoolKey => Pool σ)

/-- `PoolManager::get_or_create`. `new` is what `Pool::new` makes of the configuration and the
    factory; what is registered stays. -/
def getOrCreate (pools : AList (fun _ : PoolKey => α)) (key : PoolKey) (new : α) :
    AList (fun _ : PoolKey => α) × α :=
  match pools.lookup key with
  | some pool => (pools, pool)
  | none => (pools.insert key new, new)

theorem getOrCreate_lookup (pools : AList (fun _ : PoolKey => α)) (key : PoolKey) (new : α) :
    (getOrCreate pools key new).1.lookup key = some ((pools.lookup key).getD new) ∧
      ∀ other, other ≠ key → (getOrCreate pools key new).1.lookup other = pools.lookup other := by
  unfold getOrCreate
  split
  case h_1 pool hpool => exact ⟨by rw [hpool]; rfl, fun _ _ => rfl⟩
  case h_2 hnone =>
    refine ⟨?_, fun other hne => AList.lookup_insert_ne hne⟩
    rw [hnone]
    exact AList.lookup_insert _

/-- `Pool::idle_len`. -/
def Pool.idleLen (pool : Pool σ) : Nat := pool.idle.length

end Pgferry
