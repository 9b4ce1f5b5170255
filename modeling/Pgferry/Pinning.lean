/-
  Transactions and connections, for all sessions at once.

  In transaction mode a connection goes from session to session. `System.held` are the
  connections that the sessions hold; each is held once and is on no idle stack (`Custody`). With
  what one session does on its own connection (`Session/Pinned`) this says that a transaction
  has its connection for itself.

  Proved: `custody_act`, every act keeps each connection in one place; `transactions_pin`, for any
  number of sessions and every interleaving: between the first message that a session forwards
  and the server's `ReadyForQuery` with status idle the session forwards to one connection, no
  other session forwards to it, and it is on no idle stack. The condition is that the drain at the
  end of a session meets the `ReadyForQuery` of a cycle that is open then.
-/
import Mathlib.Data.List.Perm.Basic
import Pgferry.Proxy
import Pgferry.Session.Pinned
import Pgferry.Parked

namespace Pgferry

open Loop

variable {σ κ : Type}

namespace System

/-! ## Who holds what -/

/-- The connections that the sessions hold. -/
def held (y : System σ κ) : List Nat := y.sessions.flatMap Session.held

def Custody (y : System σ κ) : Prop := y.world.Custody y.held

section Held

variable {env : Env σ} {y : System σ κ}

/-- One session acts, and the others hold what they held. -/
theorem Custody.onSession (hy : y.Custody) {n : Nat} {f : Session σ κ → Session σ κ}
    (hf : ∀ s, y.sessions[n]? = some s →
      Session.Guards { s with world := y.world } (f { s with world := y.world })) :
    (y.onSession n f).Custody := by
  cases hs : y.sessions[n]? with
  | none => rwa [onSession_none f hs]
  | some s =>
      obtain ⟨hlt, hget⟩ := List.getElem?_eq_some_iff.mp hs
      have hbefore : (s.held ++ (y.sessions.eraseIdx n).flatMap Session.held).Perm y.held := by
        have h := (List.getElem_cons_eraseIdx_perm hlt).flatMap_right Session.held
        rwa [hget, List.flatMap_cons] at h
      have hafter := (List.set_perm_cons_eraseIdx hlt
        (f { s with world := y.world })).flatMap_right Session.held
      rw [onSession_some f hs]
      exact (hf s hs _ (World.Custody.perm hy hbefore)).perm hafter

theorem custody_act (hy : y.Custody) {a : Act σ κ} {admits : Launch σ κ → Prop}
    {ok : Session σ κ → Event → Prop} {ends : Session σ κ → Nat → Prop}
    (hun : ∀ s ∈ y.sessions, s.Unscattered) (hok : ∀ s e, ok s e → s.NoFailure e)
    (ha : Within admits ok ends y a) : (y.act env a).Custody := by
  cases a with
  | connect l =>
      have hnew : (y.accept l).new.world.Custody ((y.accept l).new.held ++ y.held) := hy
      have hstart : ((y.accept l).new.start env).world.Custody
          (((y.accept l).new.start env).held ++ y.held) := Session.start_guards _ _ hnew
      refine hstart.perm ?_
      show ((y.sessions ++ [(y.accept l).new.start env]).flatMap Session.held).Perm _
      rw [List.flatMap_append, List.flatMap_singleton]
      exact List.perm_append_comm
  | event n e =>
      refine hy.onSession fun s hs => ?_
      have hs' : Session.Unscattered { s with world := y.world } :=
        hun s (List.mem_of_getElem? hs)
      by_cases hlive : s.ended = none
      · have hnf := hok { s with world := y.world } e (ha s hs hlive)
        exact Session.step_guards hs' hnf
      · have hstep : Session.step env { s with world := y.world } e = { s with world := y.world } :=
          Session.step_ended hlive
        rw [hstep]
        exact Session.Guards.refl _
  | finish n arrived => exact hy.onSession fun s _ => Session.finish_guards _ arrived
  | tick elapsed => exact ⟨hy.known, hy.once, hy.disjoint⟩
  | sweep key => exact World.Custody.sweep hy key _

/-- Two sessions do not hold the same connection. -/
theorem Custody.apart (hy : y.Custody) {n k pid : Nat} {s t : Session σ κ}
    (hs : y.sessions[n]? = some s) (ht : y.sessions[k]? = some t) (hnk : n ≠ k)
    (h : s.toCore.pid = some pid) : t.toCore.pid ≠ some pid := by
  intro h'
  obtain ⟨hn, rfl⟩ := List.getElem?_eq_some_iff.mp hs
  obtain ⟨hk, rfl⟩ := List.getElem?_eq_some_iff.mp ht
  have hnodup : y.held.Nodup := (hy.once ⟨"", "", "", none⟩).of_append_right
  have hpair := List.pairwise_iff_getElem.mp (List.nodup_flatMap.mp hnodup).2
  have hmem : pid ∈ y.sessions[n].held := Option.mem_toList.mpr h
  have hmem' : pid ∈ y.sessions[k].held := Option.mem_toList.mpr h'
  rcases Nat.lt_or_gt_of_ne hnk with hlt | hgt
  · exact hpair n k hn hk hlt hmem hmem'
  · exact hpair k n hk hn hgt hmem' hmem

/-- A connection that a session holds is on no idle stack. -/
theorem Custody.unparked (hy : y.Custody) {pid : Nat} {s : Session σ κ} (hs : s ∈ y.sessions)
    (h : s.toCore.pid = some pid) (key : PoolKey) : pid ∉ y.world.parked key := by
  have hheld : pid ∈ y.held := List.mem_flatMap.mpr ⟨s, hs, Option.mem_toList.mpr h⟩
  exact fun hp => (List.nodup_append.mp (hy.once key)).2.2 pid hp pid hheld rfl

end Held

/-! ## Pinned transactions -/

/-- Every session has kept to the connections it was pinned to. A live session holds the one it is
    pinned to, alone, and that is on no idle stack. -/
structure Pins (y : System σ κ) : Prop where
  kept : ∀ s ∈ y.sessions, s.toCore.pinning.ok = true
  holds : ∀ s ∈ y.sessions, s.ended = none → ∀ p ∈ s.toCore.pinning.pin,
    s.toCore.pid = some p.1 ∧ ∀ key, p.1 ∉ y.world.parked key
  alone : ∀ (n k : Nat) (s t : Session σ κ), y.sessions[n]? = some s →
    y.sessions[k]? = some t → n ≠ k → s.ended = none →
      ∀ p ∈ s.toCore.pinning.pin, t.toCore.pid ≠ some p.1

/-- What the session `k` has logged. -/
def logOf (y : System σ κ) (k : Nat) : List Entry := (y.sessions[k]?.map fun s => s.log).getD []

/-- In this act no session forwards to a connection that another live session is pinned to. -/
def Undisturbed (env : Env σ) (y : System σ κ) (a : Act σ κ) : Prop :=
  ∀ (n : Nat) (s : Session σ κ), y.sessions[n]? = some s → s.ended = none →
    ∀ p ∈ s.toCore.pinning.pin, ∀ k, k ≠ n → ∀ seq m,
      Entry.forwarded p.1 seq m ∉ ((y.act env a).logOf k).drop (y.logOf k).length

section Acts

variable {env : Env σ} {y : System σ κ}

theorem logOf_some {k : Nat} {s : Session σ κ} (h : y.sessions[k]? = some s) :
    y.logOf k = s.log := by
  rw [logOf, h]
  rfl

/-- A session that acts logs `es`, and forwards to the connection that it holds after it. The
    other sessions stay as they are. -/
theorem onSession_forwards {j : Nat} {f : Session σ κ → Session σ κ}
    (hf : ∀ s, y.sessions[j]? = some s →
      Core.Grows (fun x => ∀ pid seq m, x = .forwarded pid seq m →
        (f { s with world := y.world }).toCore.pid = some pid) s.toCore
        (f { s with world := y.world }).toCore)
    {k pid seq : Nat} {m : FrontendMessage}
    (h : Entry.forwarded pid seq m ∈ ((y.onSession j f).logOf k).drop (y.logOf k).length) :
    (∃ t, (y.onSession j f).sessions[k]? = some t ∧ t.toCore.pid = some pid) ∧
      ∀ n s, n ≠ k → y.sessions[n]? = some s → (y.onSession j f).sessions[n]? = some s := by
  cases hs : y.sessions[j]? with
  | none =>
      rw [onSession_none f hs, List.drop_length] at h
      cases h
  | some s =>
      by_cases hk : k = j
      · subst hk
        have hself := onSession_self f hs
        obtain ⟨es, hlog, hes⟩ := hf s hs
        rw [logOf_some hself, logOf_some hs, hlog, List.drop_left] at h
        exact ⟨⟨_, hself, hes _ h pid seq m rfl⟩, fun n t hn ht => (onSession_other f hn).trans ht⟩
      · have hlog : (y.onSession j f).logOf k = y.logOf k := by
          rw [logOf, logOf, onSession_other f hk]
        rw [hlog, List.drop_length] at h
        cases h

/-- What a session forwards in an act goes to the connection that it holds after it. -/
theorem forwards_held {a : Act σ κ} {admits : Launch σ κ → Prop}
    {ok : Session σ κ → Event → Prop} {ends : Session σ κ → Nat → Prop}
    (htm : env.transactionMode = true) (hok : ∀ s e, ok s e → s.NoFailure e)
    (ha : Within admits ok ends y a) {k pid seq : Nat} {m : FrontendMessage}
    (h : Entry.forwarded pid seq m ∈ ((y.act env a).logOf k).drop (y.logOf k).length) :
    (∃ t, (y.act env a).sessions[k]? = some t ∧ t.toCore.pid = some pid) ∧
      ∀ n s, n ≠ k → y.sessions[n]? = some s → (y.act env a).sessions[n]? = some s := by
  have hsame : (y.act env a).logOf k = y.logOf k → False := by
    intro heq
    rw [heq, List.drop_length] at h
    cases h
  cases a with
  | connect l =>
      -- The log of a new session has no forwarded message.
      have hnone := (Launch.start_pinned (l := y.accept l) htm).2 pid seq m
      exfalso
      rcases Nat.lt_or_ge k y.sessions.length with hlt | hge
      · exact hsame (congrArg (fun o => (Option.map _ o).getD []) (List.getElem?_append_left hlt))
      · have hmem := List.mem_of_mem_drop h
        rw [logOf, act, List.getElem?_append_right hge, List.getElem?_singleton] at hmem
        split at hmem
        · exact hnone hmem
        · cases hmem
  | event j e =>
      refine onSession_forwards (fun s hs => ?_) h
      by_cases hlive : s.ended = none
      · have hnf := hok { s with world := y.world } e (ha s hs hlive)
        have hsteps : Steps env _ (fun _ _ => True) { s with world := y.world } e _ :=
          Session.step_steps hlive
        have hgrow := Core.steps_forwards hnf hsteps
        exact hgrow
      · have hstep : Session.step env { s with world := y.world } e = { s with world := y.world } :=
          Session.step_ended hlive
        rw [hstep]
        exact .refl rfl
  | finish j arrived =>
      refine onSession_forwards (fun s hs => .refl ?_) h
      rcases Session.finish_core env { s with world := y.world } arrived with hc | hc <;> rw [hc]
  | tick elapsed => exact (hsame rfl).elim
  | sweep key => exact (hsame rfl).elim

end Acts

end System

/-! ## The invariant -/

/-- The interceptor forwards or denies. -/
def Launch.Gated (l : Launch σ κ) : Prop := Gates l.interceptor

namespace System

section Invariant

variable {env : Env σ}

theorem pinned_keeps (hu : env.upstream.InOrder) (htm : env.transactionMode = true) :
    Keeps (κ := κ) env (QuietPool env.upstream) Launch.Gated
      (fun s e => s.OneCycle env.upstream e ∧ s.NoFailure e) (Session.EndsInTime env.upstream)
      (fun n c => c.Isolated env.upstream n ∧ c.Pinned env.upstream) where
  anywhere := fun _ _ _ h => h
  start := fun l _ ht =>
    have h := l.start_isolated hu ht
    ⟨⟨h.inv, (Launch.start_pinned htm).1⟩, h.tidy, h.interceptor, h.startup⟩
  stable := fun l hl => Core.pinned_stable l.id hu hl htm
  finish := fun _ s arrived hc ht he =>
    have h := Session.finish_isolated hu hc.1 ht he
    ⟨h.1, h.2, s.finish_pinned arrived hc.2⟩

/-- Sessions that keep to their connections, and connections in one place each. -/
structure Guarded (env : Env σ) (y : System σ κ) : Prop where
  sessions : y.Holds (QuietPool env.upstream) Launch.Gated
    fun n c => c.Isolated env.upstream n ∧ c.Pinned env.upstream
  custody : y.Custody

variable {y : System σ κ}

theorem Guarded.pinned (h : y.Guarded env) {s : Session σ κ} (hs : s ∈ y.sessions) :
    s.toCore.Pinned env.upstream := by
  obtain ⟨n, hn⟩ := List.mem_iff_getElem?.mp hs
  exact (h.sessions.sessions n s hn).1.2

theorem Guarded.unscattered (h : y.Guarded env) : ∀ s ∈ y.sessions, s.Unscattered := by
  intro s hs input request ha
  obtain ⟨n, hn⟩ := List.mem_iff_getElem?.mp hs
  obtain ⟨_, l, hl, _, hint, _⟩ := h.sessions.sessions n s hn
  rw [hint] at ha
  exact hl.unscattered ⟨input, request, ha⟩

theorem Guarded.holds (h : y.Guarded env) {s : Session σ κ} (hs : s ∈ y.sessions)
    (hlive : s.ended = none) {p : Nat × Nat} (hp : p ∈ s.toCore.pinning.pin) :
    s.toCore.pid = some p.1 := by
  rw [← (h.pinned hs).live hlive, hp]
  rfl

theorem Guarded.pins (h : y.Guarded env) : y.Pins where
  kept := fun _ hs => (h.pinned hs).ok
  holds := fun _ hs hlive _ hp =>
    ⟨h.holds hs hlive hp, fun key => h.custody.unparked hs (h.holds hs hlive hp) key⟩
  alone := fun _ _ _ _ hn hk hnk hlive _ hp =>
    h.custody.apart hn hk hnk (h.holds (List.mem_of_getElem? hn) hlive hp)

theorem Guarded.act (hu : env.upstream.InOrder) (htm : env.transactionMode = true)
    (h : y.Guarded env) {a : Act σ κ}
    (ha : Within Launch.Gated (fun s e => s.OneCycle env.upstream e ∧ s.NoFailure e)
      (Session.EndsInTime env.upstream) y a) : (y.act env a).Guarded env :=
  ⟨(pinned_keeps hu htm).act y a h.sessions ha,
    custody_act h.custody h.unscattered (fun _ _ hok => hok.2) ha⟩

theorem Guarded.undisturbed (hu : env.upstream.InOrder) (htm : env.transactionMode = true)
    (h : y.Guarded env) {a : Act σ κ}
    (ha : Within Launch.Gated (fun s e => s.OneCycle env.upstream e ∧ s.NoFailure e)
      (Session.EndsInTime env.upstream) y a) : Undisturbed env y a := by
  intro n s hn hlive p hp k hk seq m hm
  obtain ⟨⟨t, ht, hpid⟩, hothers⟩ := forwards_held htm (fun _ _ hok => hok.2) ha hm
  have hheld : s.toCore.pid = some p.1 := h.holds (List.mem_of_getElem? hn) hlive hp
  exact (h.act hu htm ha).custody.apart (hothers n s (Ne.symm hk) hn) ht (Ne.symm hk) hheld hpid

end Invariant

end System

/-- Any number of sessions whose interceptors forward or deny, in any interleaving. -/
theorem transactions_pin (env : Env σ) (world : World σ) (acts : List (Act σ κ))
    (htm : env.transactionMode = true) (hu : env.upstream.InOrder)
    (hworld : world.Tidy (QuietPool env.upstream)) (hparked : world.Custody [])
    (hrun : Along (System.act env) (System.Within Launch.Gated
      (fun s e => s.OneCycle env.upstream e ∧ s.NoFailure e) (Session.EndsInTime env.upstream))
      (System.init world) acts) :
    Along (System.act env) (fun y a => (y.act env a).Pins ∧ y.Undisturbed env a)
      (System.init world) acts := by
  have hinit : (System.init world : System σ κ).Guarded env :=
    ⟨⟨hworld, fun _ _ h => by cases h⟩, hparked⟩
  refine Along.of_inv (fun y a hy ha => ?_) _ acts hinit hrun
  have hnext := hy.act hu htm ha
  exact ⟨⟨hnext.pins, hy.undisturbed hu htm ha⟩, hnext⟩

theorem Launch.Plain.gated {l : Launch σ κ} (h : l.Plain) : l.Gated := by
  unfold Launch.Gated
  rw [h.interceptor]
  exact gates_none

open Sample

theorem Sample.world_custody (mode : PoolMode) : (world mode).Custody [] where
  known := nofun
  once := fun _ => List.nodup_nil
  disjoint := fun _ _ _ => List.disjoint_nil_left _

/-- Two transactions at once on two connections, and one after them. -/
theorem transactions_pin_two :
    Along (System.act (env .transaction))
      (fun y a => (y.act (env .transaction) a).Pins ∧
        y.Undisturbed (env .transaction) a)
      (System.init (world .transaction) : System Pg Unit)
      ([connect, connect] ++
        turns 0 ([client (.query "BEGIN")] ++ reads 2) ++
        turns 1 ([client (.query "BEGIN")] ++ reads 2) ++
        turns 0 ([client (.query "COMMIT")] ++ reads 2) ++
        turns 1 ([client (.query "COMMIT")] ++ reads 2)) :=
  transactions_pin (env .transaction) (world .transaction) _ rfl (pg_inOrder _)
    (world_quiet .transaction) (world_custody .transaction)
    (Along.mono (fun _ _ h => System.Within.mono (fun _ hl => Launch.Plain.gated hl)
      (fun _ _ h => h) (fun _ _ h => h) h) _ _
      (by decide : Along _ (System.Within Launch.Plain (fun s e => Session.OneCycle _ s e ∧
        s.NoFailure e) (Session.EndsInTime _)) _ _))

/-- A session ends with a cycle open and its drain sees nothing. The next session opens a
    transaction on the connection and reads three messages. -/
def Sample.lateDrain : List (Act Pg Unit) :=
  [connect, connect, connect] ++
    turns 0 [client (.query "SELECT 1"), .clientGone] ++ [.finish 0 0] ++
    turns 1 ([client (.query "BEGIN")] ++ reads 3)

/-- The three messages answer the `DISCARD ALL` of the session before. Their `ReadyForQuery` has
    status idle, so the connection is put back inside the transaction, and the third session
    forwards its query into it. No client has two cycles open and no connection fails. -/
theorem transactions_escape :
    Along (System.act (env .transaction)) (System.Within Launch.Plain
        (fun s e => s.OneCycle (env .transaction).upstream e ∧ s.NoFailure e)
        fun _ _ => True) (System.init (world .transaction))
      (lateDrain ++ [.event 2 (client (.query "SELECT 2"))]) ∧
    (∃ s ∈ (system lateDrain).sessions[1]?, s.ended = none ∧
      Entry.forwarded 0 1 (.query "BEGIN") ∈ s.log ∧ Entry.detached 0 ∈ s.log ∧
      replies s.log = [.proxy, .proxy, .proxy] ∧ s.toCore.pinning.pin = some (0, 1)) ∧
    (∃ p ∈ ((system lateDrain).world.pools ⟨"main", "a", "u", none⟩).idle,
      p.conn.processId = 0 ∧ p.conn.backend.status ≠ .idle) ∧
    ¬ (system lateDrain).Pins ∧
    ¬ (system lateDrain).Undisturbed (env .transaction)
      (.event 2 (client (.query "SELECT 2"))) := by
  refine ⟨by decide, by decide, by decide, fun h => ?_, fun h => ?_⟩
  · have hkept : ∀ s ∈ (system lateDrain).sessions, s.toCore.pinning.ok = true :=
      h.kept
    exact absurd hkept (by decide)
  · exact h 1 _ rfl rfl (0, 1) rfl 2 (by decide) 1 (.query "SELECT 2") (by decide)

end Pgferry
