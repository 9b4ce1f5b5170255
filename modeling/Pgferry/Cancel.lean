/-
  Cancel request routing (`cancel.rs`).

  A client gets a virtual `(pid, secret_key)` pair, and the router maps the pair of every live
  session to the sender of a channel with one place. The session waits at the other end. `recv`
  returns when there is a message and, from then on at once, when the sender is gone: a session
  whose entry was replaced under its own key is woken without a request.

  Proved: the operations keep the senders apart (`Separate`), and a session whose sender is in the
  router is woken by the requests that carry its key and by nothing else (`cancel_wakes`).
-/
import Mathlib.Data.List.AList
import Mathlib.Logic.Function.Basic

namespace Pgferry

/-- The virtual key of a session. -/
structure CancelKey where
  pid : Int
  secretKey : List UInt8
  deriving DecidableEq, Repr

/-- `CancelRouter`. A channel is its number, and `full` says whether its place is taken. -/
structure CancelRouter where
  sessions : AList (fun _ : CancelKey => Nat)
  full : Nat → Bool
  channels : Nat

namespace CancelRouter

def new : CancelRouter where
  sessions := ∅
  full := fun _ => false
  channels := 0

/-- `register`. A sender that was under the key before is dropped. -/
def register (r : CancelRouter) (key : CancelKey) : CancelRouter × Nat :=
  ({ sessions := r.sessions.insert key r.channels
     full := Function.update r.full r.channels false
     channels := r.channels + 1 }, r.channels)

/-- `cancel`. A message for a channel that is full is dropped. -/
def cancel (r : CancelRouter) (key : CancelKey) : CancelRouter × Bool :=
  match r.sessions.lookup key with
  | some channel => ({ r with full := Function.update r.full channel true }, true)
  | none => (r, false)

/-- `unregister`. -/
def unregister (r : CancelRouter) (key : CancelKey) : CancelRouter :=
  { r with sessions := r.sessions.erase key }

/-- Whether `recv` returns: there is a message, or the sender is gone. -/
def wakes (r : CancelRouter) (channel : Nat) : Bool :=
  r.full channel || r.sessions.entries.all fun e => e.2 != channel

/-- `recv`, once it returns. -/
def recv (r : CancelRouter) (channel : Nat) : CancelRouter :=
  { r with full := Function.update r.full channel false }

/-! ## Senders -/

/-- Every sender has a channel of its own. -/
structure Separate (r : CancelRouter) : Prop where
  below : ∀ key channel, r.sessions.lookup key = some channel → channel < r.channels
  single : ∀ key key' channel, r.sessions.lookup key = some channel →
    r.sessions.lookup key' = some channel → key = key'

theorem separate_new : new.Separate where
  below := fun _ _ h => by cases h
  single := fun _ _ _ h => by cases h

section Separate

variable {r : CancelRouter} {key key' : CancelKey} {channel : Nat}

theorem lookup_register (r : CancelRouter) (key key' : CancelKey) :
    (r.register key).1.sessions.lookup key' =
      if key' = key then some r.channels else r.sessions.lookup key' := by
  split
  case isTrue h =>
    rw [h]
    exact AList.lookup_insert _
  case isFalse h =>
    exact AList.lookup_insert_ne h

theorem lookup_unregister (r : CancelRouter) (key key' : CancelKey) :
    (r.unregister key).sessions.lookup key' =
      if key' = key then none else r.sessions.lookup key' := by
  split
  case isTrue h =>
    rw [h]
    exact AList.lookup_erase _ _
  case isFalse h =>
    exact AList.lookup_erase_ne h

theorem cancel_sessions (r : CancelRouter) (key : CancelKey) :
    (r.cancel key).1.sessions = r.sessions ∧ (r.cancel key).1.channels = r.channels := by
  unfold cancel
  split <;> exact ⟨rfl, rfl⟩

/-- A request fills the channel of its key. -/
theorem cancel_full (r : CancelRouter) (key : CancelKey) (channel : Nat) :
    (r.cancel key).1.full channel =
      (decide (r.sessions.lookup key = some channel) || r.full channel) := by
  unfold cancel
  split
  case h_1 c hc =>
    rw [hc]
    by_cases h : channel = c
    · subst h
      simp
    · simp [Function.update_of_ne h, Ne.symm h]
  case h_2 hc =>
    simp [hc]

theorem Separate.register (h : r.Separate) (key : CancelKey) : (r.register key).1.Separate := by
  have hbelow := h.below
  refine ⟨fun k c hk => ?_, fun k k' c hk hk' => ?_⟩
  · rw [lookup_register] at hk
    show c < r.channels + 1
    split at hk
    · cases hk
      omega
    · have := hbelow k c hk
      omega
  · rw [lookup_register] at hk hk'
    -- the new channel is above all others
    split at hk <;> split at hk'
    case isTrue.isTrue h1 h2 =>
      rw [h1, h2]
    case isTrue.isFalse =>
      cases hk
      have := hbelow k' _ hk'
      omega
    case isFalse.isTrue =>
      cases hk'
      have := hbelow k _ hk
      omega
    case isFalse.isFalse => exact h.single k k' c hk hk'

theorem Separate.unregister (h : r.Separate) (key : CancelKey) : (r.unregister key).Separate := by
  have hkeep : ∀ k c, (r.unregister key).sessions.lookup k = some c →
      r.sessions.lookup k = some c := by
    intro k c hk
    rw [lookup_unregister] at hk
    split at hk
    · cases hk
    · exact hk
  exact ⟨fun k c hk => h.below k c (hkeep k c hk),
    fun k k' c hk hk' => h.single k k' c (hkeep k c hk) (hkeep k' c hk')⟩

theorem Separate.cancel (h : r.Separate) (key : CancelKey) : (r.cancel key).1.Separate := by
  obtain ⟨hsessions, hchannels⟩ := r.cancel_sessions key
  constructor
  · rw [hsessions, hchannels]
    exact h.below
  · rw [hsessions]
    exact h.single

theorem Separate.recv (h : r.Separate) (channel : Nat) : (r.recv channel).Separate :=
  ⟨h.below, h.single⟩

/-! ## The owner of an entry -/

/-- A session whose sender is in the router is woken by a message only. -/
theorem wakes_of_lookup (h : r.sessions.lookup key = some channel) :
    r.wakes channel = r.full channel := by
  have hmem : (⟨key, channel⟩ : Σ _ : CancelKey, Nat) ∈ r.sessions.entries :=
    AList.mem_lookup_iff.mp h
  have hall : (r.sessions.entries.all fun e => e.2 != channel) = false := by
    rw [List.all_eq_false]
    exact ⟨_, hmem, by simp⟩
  unfold wakes
  rw [hall, Bool.or_false]

/-- A request wakes the session of its key and no other. -/
theorem cancel_wakes (h : r.Separate) (hkey : r.sessions.lookup key = some channel)
    (other : CancelKey) :
    (r.cancel other).1.wakes channel = (decide (other = key) || r.wakes channel) := by
  obtain ⟨hsessions, -⟩ := r.cancel_sessions other
  have hkey' : (r.cancel other).1.sessions.lookup key = some channel := by rw [hsessions, hkey]
  rw [wakes_of_lookup hkey', wakes_of_lookup hkey, cancel_full]
  congr 1
  refine decide_eq_decide.mpr ⟨fun hother => h.single other key channel hother hkey, ?_⟩
  rintro rfl
  exact hkey

end Separate

end CancelRouter

end Pgferry
