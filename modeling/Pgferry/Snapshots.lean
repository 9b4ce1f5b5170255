/-
  The snapshots of the pools.

  A pool keeps the parameters that it hands to a new client (`baseline_params`). Only
  `checkin_detached` writes them, from the connection that it puts back: the detach of a session and
  the return of the legs of a scatter. All else that is done with the pools, among it a checkout,
  the loss of a connection and the session end, leaves the snapshots alone.

  Proved: when what is put back has `Φ`, every snapshot is one of before or the cache of a
  connection with `Φ` (`Snaps.checkinDetached`, `Snaps.checkinLegs`).
-/
import Pgferry.Scatter

namespace Pgferry

variable {σ : Type} {u : Upstream σ} {Φ : PoolKey → Conn σ → Prop}

namespace World

/-- What the pools hand to new clients. -/
def snapshots (w : World σ) (key : PoolKey) : Option Params := (w.pools key).baselineParams

/-- Every snapshot is the cache of a connection with `Φ`. -/
def Snaps (Φ : PoolKey → Conn σ → Prop) (w : World σ) : Prop :=
  ∀ key params, w.snapshots key = some params → ∃ c, Φ key c ∧ c.serverParameters = params

variable {w w' : World σ}

theorem Snaps.congr (h : w.Snaps Φ) (hw : w'.snapshots = w.snapshots) : w'.Snaps Φ := by
  unfold Snaps
  rw [hw]
  exact h

/-! ## Leases -/

theorem modify_snapshots (w : World σ) (key : PoolKey) (f : Pool σ → Pool σ)
    (hf : ∀ p, (f p).baselineParams = p.baselineParams) :
    (w.modify key f).snapshots = w.snapshots := by
  funext k
  unfold snapshots modify
  dsimp only
  split
  · exact hf _
  · rfl

theorem checkout_snapshots (u : Upstream σ) (w : World σ) (key : PoolKey) :
    (w.checkout u key).1.snapshots = w.snapshots := by
  unfold checkout
  dsimp only
  split
  · dsimp only
    exact modify_snapshots w key _ fun _ => rfl
  · split
    · dsimp only
      exact modify_snapshots { w with dials := w.dials + 1 } key _ fun _ => rfl
    · dsimp only
      exact modify_snapshots { w with dials := w.dials + 1 } key _ fun _ => rfl

theorem destroy_snapshots (w : World σ) (lease : UpstreamLease σ) :
    (w.destroy lease).snapshots = w.snapshots :=
  modify_snapshots w _ _ fun _ => rfl

theorem abandon_snapshots (w : World σ) (lease : UpstreamLease σ) :
    (w.abandon lease).snapshots = w.snapshots :=
  modify_snapshots w _ _ fun _ => rfl

theorem park_baselineParams (p : Pool σ) (now : Nat) (conn : Conn σ) (createdAt : Nat) :
    (p.park now conn createdAt).baselineParams = p.baselineParams := by
  unfold Pool.park
  split <;> rfl

theorem checkin_snapshots (w : World σ) (lease : UpstreamLease σ) (hygiene : Hygiene)
    (arrived : Nat) : (w.checkin u lease hygiene arrived).snapshots = w.snapshots := by
  refine modify_snapshots w _ _ fun p => ?_
  split
  · rfl
  · exact park_baselineParams _ _ _ _

theorem baselineParams_snapshots (w : World σ) (key : PoolKey) :
    (w.baselineParams u key).1.snapshots = w.snapshots := by
  have hout := checkout_snapshots u w key
  unfold baselineParams
  split
  · rfl
  · split
    case h_1 heq =>
      rw [heq] at hout
      exact hout
    case h_2 heq =>
      rw [heq] at hout
      exact (checkin_snapshots _ _ _ _).trans hout

/-- A detach takes the snapshot of what it puts back. -/
theorem Snaps.checkinDetached (h : w.Snaps Φ) {lease : UpstreamLease σ} {dirty : Bool}
    (hc : ∀ c, discardIfDirty u lease.conn dirty = .ok c → Φ lease.pool c) :
    (w.checkinDetached u lease dirty).Snaps Φ := by
  intro key params hkey
  unfold snapshots World.checkinDetached modify at hkey
  dsimp only at hkey
  split at hkey
  case isTrue hpool =>
    split at hkey
    case h_1 => exact h key params hkey
    case h_2 conn hd =>
      rw [park_baselineParams] at hkey
      exact ⟨conn, hpool ▸ hc conn hd, Option.some.inj hkey⟩
  case isFalse => exact h key params hkey

/-! ## Scatter legs -/

theorem runLegPooled_snapshots (w : World σ) (key : PoolKey) (leg : ScatterLeg)
    (startup : Params) : (runLegPooled u w key leg startup).1.snapshots = w.snapshots := by
  have hout := checkout_snapshots u w key
  unfold runLegPooled
  split
  case h_1 heq =>
    rw [heq] at hout
    exact hout
  case h_2 heq =>
    rw [heq] at hout
    split
    · exact (destroy_snapshots _ _).trans hout
    · dsimp only
      split
      · exact (destroy_snapshots _ _).trans hout
      · exact hout

theorem runLegs_snapshots (key : ScatterLeg → PoolKey) (startup : Params)
    (legs : List ScatterLeg) (r : LegsRun σ) :
    (runLegs u key startup legs r).world.snapshots = r.world.snapshots := by
  induction legs generalizing r with
  | nil => rfl
  | cons leg legs ih =>
      have hleg := runLegPooled_snapshots (u := u) r.world (key leg) leg startup
      rw [runLegs]
      split
      · dsimp only
        split
        · exact (abandon_snapshots _ _).trans hleg
        · exact hleg
      · exact (ih _).trans hleg

theorem abortLegs_snapshots (key : ScatterLeg → PoolKey) (legs : List ScatterLeg)
    (flags : List Bool) (w : World σ) : (abortLegs u key legs flags w).snapshots = w.snapshots := by
  fun_induction abortLegs u key legs flags w with
  | case1 leg legs flags w w' lease heq ih =>
      have hout := checkout_snapshots u w (key leg)
      rw [heq] at hout
      exact ih.trans ((abandon_snapshots _ _).trans hout)
  | case2 leg legs flags w w' e heq ih =>
      have hout := checkout_snapshots u w (key leg)
      rw [heq] at hout
      exact ih.trans hout
  | case3 leg legs flags w ih => exact ih
  | case4 => rfl

theorem abandonLegs_snapshots (outcomes : List (LegOutcome σ)) (w : World σ) :
    (abandonLegs outcomes w).snapshots = w.snapshots := by
  induction outcomes generalizing w with
  | nil => rfl
  | cons o outcomes ih =>
      rw [abandonLegs]
      split
      · exact (ih _).trans (abandon_snapshots _ _)
      · exact ih w

theorem Snaps.checkinLegs (outcomes : List (LegOutcome σ)) (h : w.Snaps Φ)
    (ho : ∀ o ∈ outcomes, o.Returns u Φ) : (checkinLegs u outcomes w).Snaps Φ := by
  induction outcomes generalizing w with
  | nil => exact h
  | cons o outcomes ih =>
      have hrest : ∀ o ∈ outcomes, o.Returns u Φ := fun o hm => ho o (List.mem_cons_of_mem _ hm)
      rw [Pgferry.checkinLegs]
      split
      case h_1 lease hlease =>
        exact ih (h.checkinDetached fun c hc => ho o List.mem_cons_self lease c hlease hc) hrest
      case h_2 => exact ih h hrest

end World

end Pgferry
