/-
  Sessions that share the state of their interceptor.

  An interceptor of the source is one object for all sessions (`Arc<dyn Interceptor>`); what it
  keeps for itself, such as the health of the endpoints, every session reads and writes. `Proxy`
  is a system with that state: it is handed to the session that acts, and taken from it after.

  Proved: `Keeps.and`, two invariants of a system hold together, with pools that have both
  properties; `Proxy.holds_act`, sharing the state does not disturb an invariant of the protocol
  states.
-/
import Pgferry.System
import Pgferry.Session.Handles

namespace Pgferry

open Loop

variable {σ κ : Type}

/-! ## Two invariants at once -/

section Both

variable {env : Env σ} {Φ Ψ : PoolKey → Conn σ → Prop} {ok : Session σ κ → Event → Prop}

theorem Session.Holds.imp {i : Option (Interceptor κ)} {startup : Params} {I J : Core σ → Prop}
    {s : Session σ κ} (hΦ : ∀ key c, Φ key c → Ψ key c) (hI : ∀ c, I c → J c)
    (h : Holds i startup Φ I s) : Holds i startup Ψ J s :=
  ⟨hI _ h.inv, h.tidy.mono hΦ, h.interceptor, h.startup⟩

theorem Session.Stable.and {i : Option (Interceptor κ)} {startup : Params} {I J : Core σ → Prop}
    (h : Stable env i startup Φ ok I) (h' : Stable env i startup Ψ ok J) :
    Stable env i startup (fun key c => Φ key c ∧ Ψ key c) ok (fun c => I c ∧ J c) where
  probe := fun key c c' hc hp => ⟨h.probe key c c' hc.1 hp, h'.probe key c c' hc.2 hp⟩
  leg := fun sql ht key base c c' hb hs hr hd =>
    ⟨h.leg sql ht key base c c' hb.1 hs hr hd, h'.leg sql ht key base c c' hb.2 hs hr hd⟩
  releases := fun s hs he hok o m m' m'' c lease conn hr hm hh hrdy ht hi hl hd =>
    ⟨h.releases s (hs.imp (fun _ _ hc => hc.1) fun _ hc => hc.1) he hok o m m' m'' c lease conn hr
        hm hh hrdy ht hi hl hd,
      h'.releases s (hs.imp (fun _ _ hc => hc.2) fun _ hc => hc.2) he hok o m m' m'' c lease conn
        hr hm hh hrdy ht hi hl hd⟩
  step := fun s e c hs he hok hst =>
    ⟨h.step s e c (hs.imp (fun _ _ hc => hc.1) fun _ hc => hc.1) he hok
        (hst.mono fun _ _ hc => hc.1),
      h'.step s e c (hs.imp (fun _ _ hc => hc.2) fun _ hc => hc.2) he hok
        (hst.mono fun _ _ hc => hc.2)⟩

theorem World.Tidy.and {w : World σ} (h : w.Tidy Φ) (h' : w.Tidy Ψ) :
    w.Tidy fun key c => Φ key c ∧ Ψ key c where
  idle := fun key p hp => ⟨h.idle key p hp, h'.idle key p hp⟩
  fresh := fun key n b ps hs pid => ⟨h.fresh key n b ps hs pid, h'.fresh key n b ps hs pid⟩

theorem System.Keeps.and {admits admits' : Launch σ κ → Prop} {ends : Session σ κ → Nat → Prop}
    {I J : Nat → Core σ → Prop} (h : Keeps env Φ admits ok ends I)
    (h' : Keeps env Ψ admits' ok ends J) :
    Keeps env (fun key c => Φ key c ∧ Ψ key c) (fun l => admits l ∧ admits' l) ok ends
      (fun n c => I n c ∧ J n c) where
  anywhere := fun l n w ha => ⟨h.anywhere l n w ha.1, h'.anywhere l n w ha.2⟩
  start := fun l ha ht => by
    have h₁ := h.start l ha.1 (ht.mono fun _ _ hc => hc.1)
    have h₂ := h'.start l ha.2 (ht.mono fun _ _ hc => hc.2)
    exact ⟨⟨h₁.inv, h₂.inv⟩, h₁.tidy.and h₂.tidy, h₁.interceptor, h₁.startup⟩
  stable := fun l ha => (h.stable l ha.1).and (h'.stable l ha.2)
  finish := fun n s arrived hc ht he => by
    obtain ⟨ht₁, hc₁⟩ := h.finish n s arrived hc.1 (ht.mono fun _ _ hc => hc.1) he
    obtain ⟨ht₂, hc₂⟩ := h'.finish n s arrived hc.2 (ht.mono fun _ _ hc => hc.2) he
    exact ⟨ht₁.and ht₂, hc₁, hc₂⟩

/-- Fewer clients, fewer events. -/
theorem System.Keeps.restrict {admits admits' : Launch σ κ → Prop}
    {ok' : Session σ κ → Event → Prop} {ends : Session σ κ → Nat → Prop}
    {I : Nat → Core σ → Prop} (h : Keeps env Φ admits ok ends I)
    (hanywhere : ∀ l n w, admits' l → admits' { l with id := n, world := w })
    (hl : ∀ l, admits' l → admits l) (hok : ∀ s e, ok' s e → ok s e)  :
    Keeps env Φ admits' ok' ends I where
  anywhere := hanywhere
  start := fun l ha ht => h.start l (hl l ha) ht
  stable := fun l ha =>
    have hst := h.stable l (hl l ha)
    ⟨hst.probe, hst.leg, fun s hs he ho => hst.releases s hs he (hok _ _ ho),
      fun s e c hs he ho => hst.step s e c hs he (hok _ _ ho)⟩
  finish := h.finish

end Both

/-! ## Proxy state -/

structure Proxy (σ κ : Type) where
  system : System σ κ
  state : κ

/-- Hand the state to the interceptor of a session. -/
def Session.handed (s : Session σ κ) (state : κ) : Session σ κ :=
  { s with hooks := s.hooks.map fun h => { h with ctx := state } }

def Launch.handed (l : Launch σ κ) (state : κ) : Launch σ κ :=
  { l with hooks := l.hooks.map fun h => { h with ctx := state } }

def Act.handed (state : κ) : Act σ κ → Act σ κ
  | .connect l => .connect (l.handed state)
  | a => a

/-- The session whose hooks an act may call. -/
def Act.actor (y : System σ κ) : Act σ κ → Option Nat
  | .connect _ => some y.sessions.length
  | .event n _ => some n
  | _ => none

namespace Proxy

/-- Every session sees the shared state. -/
def handed (y : Proxy σ κ) : System σ κ :=
  { y.system with sessions := y.system.sessions.map fun s => s.handed y.state }

/-- The state as the interceptor of the session `n` has left it. -/
def returned (y : System σ κ) (state : κ) (n : Option Nat) : κ :=
  ((n.bind fun n => y.sessions[n]?).bind fun s => s.hooks.map SessionHooks.ctx).getD state

def act (env : Env σ) (y : Proxy σ κ) (a : Act σ κ) : Proxy σ κ where
  system := y.handed.act env (a.handed y.state)
  state := returned (y.handed.act env (a.handed y.state)) y.state (a.actor y.handed)

def init (world : World σ) (state : κ) : Proxy σ κ where
  system := .init world
  state := state

/-- The side conditions of an act, with the shared state handed out. -/
def Within (admits : Launch σ κ → Prop) (ok : Session σ κ → Event → Prop)
    (ends : Session σ κ → Nat → Prop) (y : Proxy σ κ) (a : Act σ κ) : Prop :=
  System.Within admits ok ends y.handed (a.handed y.state)

instance (admits : Launch σ κ → Prop) (ok : Session σ κ → Event → Prop)
    (ends : Session σ κ → Nat → Prop) [∀ l, Decidable (admits l)] [∀ s e, Decidable (ok s e)]
    [∀ s n, Decidable (ends s n)] (y : Proxy σ κ) (a : Act σ κ) :
    Decidable (y.Within admits ok ends a) :=
  inferInstanceAs (Decidable (System.Within _ _ _ _ _))

/-! ## Invariants of the protocol states -/

variable {env : Env σ} {Φ : PoolKey → Conn σ → Prop} {admits : Launch σ κ → Prop}
  {ok : Session σ κ → Event → Prop} {ends : Session σ κ → Nat → Prop}
  {Inv : Nat → Core σ → Prop}

theorem handed_interceptor (s : Session σ κ) (state : κ) :
    (s.handed state).interceptor = s.interceptor := by
  cases h : s.hooks <;> simp [Session.handed, Session.interceptor, h]

theorem handed_holds {y : Proxy σ κ} (h : y.system.Holds Φ admits Inv) :
    y.handed.Holds Φ admits Inv := by
  refine ⟨h.tidy, fun n s hs => ?_⟩
  have hs' : (y.system.sessions.map fun s => s.handed y.state)[n]? = some s := hs
  rw [List.getElem?_map] at hs'
  obtain ⟨s₀, hs₀, rfl⟩ := Option.map_eq_some_iff.mp hs'
  obtain ⟨hinv, l, hl, hid, hint, hstart⟩ := h.sessions n s₀ hs₀
  exact ⟨hinv, l, hl, hid, (handed_interceptor s₀ y.state).trans hint, hstart⟩

theorem holds_act (hk : System.Keeps env Φ admits ok ends Inv) (y : Proxy σ κ) (a : Act σ κ)
    (hy : y.system.Holds Φ admits Inv) (ha : Within admits ok ends y a) :
    (y.act env a).system.Holds Φ admits Inv :=
  hk.act y.handed (a.handed y.state) (handed_holds hy) ha

end Proxy

end Pgferry
