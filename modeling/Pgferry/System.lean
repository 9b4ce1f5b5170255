/-
  The proxy as a whole: any number of sessions over the same pools.

  A `System` is the shared world and the sessions that have connected, in order. An `Act` is one
  step of it: a client connects, one session takes an iteration of its pump, an ended session
  gives its lease back, time passes, a pool is swept. Every interleaving of the sessions is a
  list of acts.

  Proved: `Keeps.run`, what is stable for one session among others holds of every session of
  the system, and the pools stay tidy, in every run whose acts meet the side conditions.
-/
import Pgferry.Session.Runs

namespace Pgferry

open Loop

variable {σ κ : Type}

structure System (σ κ : Type) where
  world : World σ
  sessions : List (Session σ κ)

inductive Act (σ κ : Type) where
  /-- A client connects. The session gets the next number and the world as it is. -/
  | connect (l : Launch σ κ)
  | event (n : Nat) (e : Event)
  /-- The session `n` gives its lease back; `arrived` is what the drain of `settle` gets to see. -/
  | finish (n arrived : Nat)
  | tick (elapsed : Nat)
  | sweep (key : PoolKey)

namespace System

/-- Let the session `n` act on the shared world. -/
def onSession (y : System σ κ) (n : Nat) (f : Session σ κ → Session σ κ) : System σ κ :=
  match y.sessions[n]? with
  | none => y
  | some s =>
      { world := (f { s with world := y.world }).world
        sessions := y.sessions.set n (f { s with world := y.world }) }

theorem onSession_none {y : System σ κ} {n : Nat} (f : Session σ κ → Session σ κ)
    (h : y.sessions[n]? = none) : y.onSession n f = y := by
  rw [onSession, h]

theorem onSession_some {y : System σ κ} {n : Nat} {s : Session σ κ}
    (f : Session σ κ → Session σ κ) (h : y.sessions[n]? = some s) :
    y.onSession n f =
      { world := (f { s with world := y.world }).world
        sessions := y.sessions.set n (f { s with world := y.world }) } := by
  rw [onSession, h]

theorem onSession_self {y : System σ κ} {n : Nat} {s : Session σ κ}
    (f : Session σ κ → Session σ κ) (h : y.sessions[n]? = some s) :
    (y.onSession n f).sessions[n]? = some (f { s with world := y.world }) := by
  rw [onSession_some f h]
  exact List.getElem?_set_self (List.getElem?_eq_some_iff.mp h).1

theorem onSession_other {y : System σ κ} {n k : Nat} (f : Session σ κ → Session σ κ)
    (h : k ≠ n) : (y.onSession n f).sessions[k]? = y.sessions[k]? := by
  cases hs : y.sessions[n]? with
  | none => rw [onSession_none f hs]
  | some s =>
      rw [onSession_some f hs]
      exact List.getElem?_set_ne (Ne.symm h)

/-- The launch of the next session. -/
def accept (y : System σ κ) (l : Launch σ κ) : Launch σ κ :=
  { l with id := y.sessions.length, world := y.world }

def act (env : Env σ) (y : System σ κ) : Act σ κ → System σ κ
  | .connect l =>
      { world := ((y.accept l).new.start env).world
        sessions := y.sessions ++ [(y.accept l).new.start env] }
  | .event n e => y.onSession n fun s => s.step env e
  | .finish n arrived => y.onSession n fun s => s.finish env arrived
  | .tick elapsed => { y with world := { y.world with now := y.world.now + elapsed } }
  | .sweep key => { y with world := y.world.modify key fun p => p.sweep y.world.now }

/-- A system before its first client. -/
def init (world : World σ) : System σ κ where
  world := world
  sessions := []

/-! ## The rule for invariants -/

/-- The side conditions of an act: which clients connect, what a live session does, and how a
    session may end. -/
def Within (admits : Launch σ κ → Prop) (ok : Session σ κ → Event → Prop)
    (ends : Session σ κ → Nat → Prop) (y : System σ κ) : Act σ κ → Prop
  | .connect l => admits l
  | .event n e => ∀ s ∈ y.sessions[n]?, s.ended = none → ok { s with world := y.world } e
  | .finish n arrived => ∀ s ∈ y.sessions[n]?, ends { s with world := y.world } arrived
  | .tick _ => True
  | .sweep _ => True

instance (admits : Launch σ κ → Prop) (ok : Session σ κ → Event → Prop)
    (ends : Session σ κ → Nat → Prop) [∀ l, Decidable (admits l)] [∀ s e, Decidable (ok s e)]
    [∀ s n, Decidable (ends s n)] (y : System σ κ) : ∀ a, Decidable (Within admits ok ends y a)
  | .connect l => inferInstanceAs (Decidable (admits l))
  | .event _ _ => inferInstanceAs (Decidable (∀ _ ∈ _, _))
  | .finish _ _ => inferInstanceAs (Decidable (∀ _ ∈ _, _))
  | .tick _ | .sweep _ => isTrue trivial

/-- The pools are tidy, and the session `n` has `Inv n` and what it was started with. -/
structure Holds (Φ : PoolKey → Conn σ → Prop) (admits : Launch σ κ → Prop)
    (Inv : Nat → Core σ → Prop) (y : System σ κ) : Prop where
  tidy : y.world.Tidy Φ
  sessions : ∀ n s, y.sessions[n]? = some s → Inv n s.toCore ∧
    ∃ l, admits l ∧ l.id = n ∧ s.interceptor = l.interceptor ∧ s.startupParameters = l.startup

/-- `Inv` holds of a session from its start, is stable, and survives its end. -/
structure Keeps (env : Env σ) (Φ : PoolKey → Conn σ → Prop) (admits : Launch σ κ → Prop)
    (ok : Session σ κ → Event → Prop) (ends : Session σ κ → Nat → Prop)
    (Inv : Nat → Core σ → Prop) : Prop where
  /-- Who may connect does not depend on who is there. -/
  anywhere : ∀ l n w, admits l → admits { l with id := n, world := w }
  start : ∀ l, admits l → l.world.Tidy Φ →
    Session.Holds l.interceptor l.startup Φ (Inv l.id) (l.new.start env)
  stable : ∀ l, admits l → Session.Stable env l.interceptor l.startup Φ ok (Inv l.id)
  finish : ∀ n s arrived, Inv n s.toCore → s.world.Tidy Φ → ends s arrived →
    (s.finish env arrived).world.Tidy Φ ∧ Inv n (s.finish env arrived).toCore

section Rule

variable {env : Env σ} {Φ : PoolKey → Conn σ → Prop} {admits : Launch σ κ → Prop}
  {ok : Session σ κ → Event → Prop} {ends : Session σ κ → Nat → Prop}
  {Inv : Nat → Core σ → Prop}

/-- One session acts. -/
theorem Holds.onSession {y : System σ κ} (hy : y.Holds Φ admits Inv) (n : Nat)
    {f : Session σ κ → Session σ κ}
    (hf : ∀ s, y.sessions[n]? = some s → (f { s with world := y.world }).world.Tidy Φ ∧
      Inv n (f { s with world := y.world }).toCore ∧
      (f { s with world := y.world }).interceptor = s.interceptor ∧
      (f { s with world := y.world }).startupParameters = s.startupParameters) :
    (y.onSession n f).Holds Φ admits Inv := by
  unfold System.onSession
  split
  case h_1 => exact hy
  case h_2 s hs =>
    obtain ⟨htidy, hinv, hint, hstart⟩ := hf s hs
    obtain ⟨_, l, hl, hid, h1, h2⟩ := hy.sessions n s hs
    refine ⟨htidy, fun k t ht => ?_⟩
    dsimp only at ht
    rw [List.getElem?_set] at ht
    split at ht
    case isTrue hk =>
      subst hk
      split at ht
      · cases ht
        exact ⟨hinv, l, hl, hid, hint.trans h1, hstart.trans h2⟩
      · cases ht
    case isFalse => exact hy.sessions k t ht

theorem Keeps.act (hk : Keeps env Φ admits ok ends Inv) (y : System σ κ) (a : Act σ κ)
    (hy : y.Holds Φ admits Inv) (ha : Within admits ok ends y a) :
    (y.act env a).Holds Φ admits Inv := by
  cases a with
  | connect l =>
      have hl : admits (y.accept l) := hk.anywhere l _ _ ha
      have hs := hk.start (y.accept l) hl hy.tidy
      refine ⟨hs.tidy, fun n s hn => ?_⟩
      rcases Nat.lt_or_ge n y.sessions.length with hlt | hge
      · rw [System.act, List.getElem?_append_left hlt] at hn
        exact hy.sessions n s hn
      · rw [System.act, List.getElem?_append_right hge] at hn
        rw [List.getElem?_singleton] at hn
        split at hn
        · have hn' : n = y.sessions.length := by omega
          subst hn'
          cases hn
          exact ⟨hs.inv, y.accept l, hl, rfl, hs.interceptor, hs.startup⟩
        · cases hn
  | event n e =>
      show (y.onSession n fun s => s.step env e).Holds Φ admits Inv
      refine hy.onSession n fun s hs => ?_
      obtain ⟨hinv, l, hl, hid, hint, hstart⟩ := hy.sessions n s hs
      have hmove := (hk.stable l hl).move { s with world := y.world } (.own e)
        ⟨hid ▸ hinv, hy.tidy, hint, hstart⟩ (ha s hs)
      exact ⟨hmove.tidy, hid ▸ hmove.inv, hmove.interceptor.trans hint.symm,
        hmove.startup.trans hstart.symm⟩
  | finish n arrived =>
      show (y.onSession n fun s => s.finish env arrived).Holds Φ admits Inv
      refine hy.onSession n fun s hs => ?_
      obtain ⟨hinv, _⟩ := hy.sessions n s hs
      obtain ⟨h1, h2⟩ := hk.finish n { s with world := y.world } arrived hinv hy.tidy (ha s hs)
      refine ⟨h1, h2, ?_, ?_⟩
      · unfold Session.finish
        split <;> rfl
      · unfold Session.finish
        split <;> rfl
  | tick elapsed => exact ⟨⟨hy.tidy.idle, hy.tidy.fresh⟩, hy.sessions⟩
  | sweep key =>
      have hsweep : (y.world.modify key fun p => p.sweep y.world.now).Tidy Φ :=
        hy.tidy.modify key fun p hp => hy.tidy.idle key p (List.mem_of_mem_filter hp)
      exact ⟨hsweep, hy.sessions⟩

/-- The rule for invariants of a system. -/
theorem Keeps.run (hk : Keeps env Φ admits ok ends Inv) (world : World σ) (acts : List (Act σ κ))
    (hw : world.Tidy Φ) (ha : Along (System.act env) (Within admits ok ends) (init world) acts) :
    (Loop.run (System.act env) (init world) acts).Holds Φ admits Inv :=
  run_inv hk.act (init world) acts ⟨hw, fun _ _ h => by cases h⟩ ha

end Rule

end System

end Pgferry
