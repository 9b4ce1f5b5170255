/-
  What pool operations do to the number of leases that are out.

  A pool counts its leases twice: by the permits that are left and by the gauge `active`. `Lends w
  w' leases` says that from `w` to `w'` every pool has handed out those of `leases` that are its
  own, and nothing else happened to the counts; and that nothing was parked.

  Proved: a checkout lends the lease that it returns (`Lends.checkout`), destroying a lease undoes
  the loan (`Lends.destroy`); checkouts that came to nothing lend nothing (`Returns.lends`).
-/
import Pgferry.Checkout

namespace Pgferry

variable {σ : Type}

/-! ## Leases out of a pool -/

/-- The gauge of the leases out of the pool of `key`. -/
def World.active (w : World σ) (key : PoolKey) : Int := (w.pools key).metrics.active

/-- The leases of the pool of `key`. -/
def leasesOf (key : PoolKey) (leases : List (UpstreamLease σ)) : Int :=
  (leases.countP fun lease => decide (lease.pool = key) : Nat)

@[simp] theorem leasesOf_nil (key : PoolKey) : leasesOf key ([] : List (UpstreamLease σ)) = 0 := rfl

theorem leasesOf_cons (key : PoolKey) (lease : UpstreamLease σ) (leases : List (UpstreamLease σ)) :
    leasesOf key (lease :: leases) =
      (if key = lease.pool then 1 else 0) + leasesOf key leases := by
  simp only [leasesOf, List.countP_cons, decide_eq_true_eq, eq_comm (a := key)]
  split <;> omega

theorem leasesOf_append (key : PoolKey) (l l' : List (UpstreamLease σ)) :
    leasesOf key (l ++ l') = leasesOf key l + leasesOf key l' := by
  simp only [leasesOf, List.countP_append]
  omega

theorem leasesOf_eq_zero {leases : List (UpstreamLease σ)} (h : ∀ key, leasesOf key leases = 0) :
    leases = [] := by
  cases leases with
  | nil => rfl
  | cons lease leases =>
      have h := h lease.pool
      rw [leasesOf_cons, if_pos rfl] at h
      simp only [leasesOf] at h
      omega

theorem takeIdle_active (u : Upstream σ) (config : PoolConfig) (now : Nat)
    (idle : List (Parked σ)) (metrics : PoolMetrics) :
    (takeIdle u config now idle metrics).2.2.active = metrics.active := by
  fun_induction takeIdle u config now idle metrics <;> simp_all

theorem modify_active (w : World σ) (key k : PoolKey) (f : Pool σ → Pool σ) :
    (w.modify key f).active k =
      if k = key then (f (w.pools k)).metrics.active else w.active k := by
  simp only [World.modify, World.active]
  split <;> rfl

/-- A checkout adds the lease that it returns. -/
theorem checkout_active (u : Upstream σ) (w : World σ) (key k : PoolKey) :
    (w.checkout u key).1.active k =
      w.active k + leasesOf k (w.checkout u key).2.toOption.toList := by
  have hm := takeIdle_active u (w.pools key).config w.now (w.pools key).idle (w.pools key).metrics
  unfold World.checkout
  dsimp only
  split
  case h_1 heq =>
    rw [heq] at hm
    simp only [modify_active, finishCheckout, Except.toOption, Option.toList_some, leasesOf_cons,
      leasesOf_nil]
    split
    case isTrue hk =>
      rw [hm, hk]
      rfl
    case isFalse => exact (Int.add_zero _).symm
  case h_2 heq =>
    rw [heq] at hm
    split
    · simp only [modify_active, Except.toOption, Option.toList_none, leasesOf_nil, Int.add_zero]
      split
      case isTrue hk =>
        rw [hm, hk]
        rfl
      case isFalse => rfl
    · simp only [modify_active, finishCheckout, Except.toOption, Option.toList_some,
        leasesOf_cons, leasesOf_nil]
      split
      case isTrue hk =>
        rw [hm, hk]
        rfl
      case isFalse => exact (Int.add_zero _).symm

theorem release_active (w : World σ) (lease : UpstreamLease σ) (k : PoolKey)
    (f : Pool σ → Pool σ) (hf : ∀ p, (f p).metrics.active = p.metrics.active - 1) :
    (w.modify lease.pool f).active k = w.active k - leasesOf k [lease] := by
  rw [modify_active, leasesOf_cons, leasesOf_nil]
  split
  · rw [hf]
    rfl
  · exact (Int.sub_zero _).symm

theorem park_active (p : Pool σ) (now : Nat) (conn : Conn σ) (createdAt : Nat) :
    (p.park now conn createdAt).metrics.active = p.metrics.active := by
  unfold Pool.park
  split <;> rfl

theorem destroy_active (w : World σ) (lease : UpstreamLease σ) (k : PoolKey) :
    (w.destroy lease).active k = w.active k - leasesOf k [lease] :=
  release_active w lease k _ fun _ => rfl

theorem checkinDetached_active (u : Upstream σ) (w : World σ) (lease : UpstreamLease σ)
    (dirty : Bool) (k : PoolKey) :
    (w.checkinDetached u lease dirty).active k = w.active k - leasesOf k [lease] := by
  refine release_active w lease k _ fun p => ?_
  dsimp only
  split
  · rfl
  · rw [park_active]
    rfl

/-! ## Loans -/

namespace World

/-- The pools have handed out `leases` and parked nothing. Permits count in pools that have one
    left: a checkout waits for it. -/
structure Lends (w w' : World σ) (leases : List (UpstreamLease σ)) : Prop where
  active : ∀ key, w'.active key = w.active key + leasesOf key leases
  permits : ∀ key, 0 < (w.pools key).permits →
    ((w'.pools key).permits : Int) = (w.pools key).permits - leasesOf key leases
  idle : ∀ key, (w'.pools key).idle <:+ (w.pools key).idle

/-- One permit less in the pool of `key`, and the other pools as they were. -/
theorem lent_permits {w w' : World σ} {key k : PoolKey} {conn : Conn σ} {createdAt : Nat}
    (hfree : 0 < (w.pools k).permits)
    (hkey : (w'.pools key).permits = (w.pools key).permits - 1)
    (hother : ∀ {k}, k ≠ key → w'.pools k = w.pools k) :
    ((w'.pools k).permits : Int) = (w.pools k).permits -
      leasesOf k [{ conn := conn, createdAt := createdAt, pool := key : UpstreamLease σ }] := by
  rw [leasesOf_cons, leasesOf_nil]
  by_cases hk : k = key
  · subst hk
    rw [if_pos rfl, hkey]
    omega
  · rw [if_neg hk, hother hk]
    omega

namespace Lends

variable {w w' w'' : World σ} {leases : List (UpstreamLease σ)}

theorem refl (w : World σ) : w.Lends w [] :=
  ⟨fun _ => (Int.add_zero _).symm, fun _ _ => (Int.sub_zero _).symm, fun _ => List.suffix_refl _⟩

theorem trans (h : w.Lends w' []) (h' : w'.Lends w'' leases) : w.Lends w'' leases where
  active := fun key => by rw [h'.active, h.active, leasesOf_nil, Int.add_zero]
  permits := fun key hfree => by
    have hsame := h.permits key hfree
    rw [leasesOf_nil, Int.sub_zero] at hsame
    rw [h'.permits key (by omega), hsame]
  idle := fun key => (h'.idle key).trans (h.idle key)

theorem checkout (u : Upstream σ) (w : World σ) (key : PoolKey) :
    w.Lends (w.checkout u key).1 (w.checkout u key).2.toOption.toList := by
  refine ⟨fun k => checkout_active u w key k, fun k hfree => ?_, fun k => ?_⟩
  · rcases checkout_cases u w key with ⟨_, _, _, -, -, htakes⟩ | ⟨-, hconnects⟩
    · obtain ⟨conn, -, hlease⟩ := htakes.leases
      rw [hlease]
      exact lent_permits hfree htakes.permits (checkout_other u w)
    · cases hs : w.supply key w.dials with
      | error e =>
          obtain ⟨hlease, hpermits, -⟩ := hconnects.failed e hs
          rw [hlease]
          have hsame : (((w.checkout u key).1.pools k).permits : Int) = (w.pools k).permits := by
            by_cases hk : k = key
            · rw [hk, hpermits]
            · rw [checkout_other u w hk]
          exact hsame.trans (Int.sub_zero _).symm
      | ok made =>
          obtain ⟨hlease, hpermits, -⟩ := hconnects.made made.1 made.2 hs
          rw [hlease]
          exact lent_permits hfree hpermits (checkout_other u w)
  · by_cases hk : k = key
    · subst hk
      rcases checkout_cases u w k with ⟨above, p, below, hsplit, -, htakes⟩ | ⟨-, hconnects⟩
      · rw [htakes.idle, hsplit]
        exact (List.suffix_cons p below).trans (List.suffix_append above _)
      · rw [hconnects.idle]
        exact List.nil_suffix
    · have hsame := checkout_other u w hk
      simp only [hsame, List.suffix_refl]

theorem destroy {lease : UpstreamLease σ} (h : w.Lends w' [lease]) :
    w.Lends (w'.destroy lease) [] := by
  refine ⟨fun k => ?_, fun k hfree => ?_, fun k => ?_⟩
  · rw [destroy_active, h.active, leasesOf_nil]
    omega
  · have hpermits := h.permits k hfree
    rw [leasesOf_cons, leasesOf_nil] at hpermits
    rw [leasesOf_nil]
    by_cases hk : k = lease.pool
    · rw [if_pos hk] at hpermits
      rw [World.destroy, hk, modify_self, ← hk]
      simp only [Pool.drop, Pool.release]
      omega
    · rw [if_neg hk] at hpermits
      rw [World.destroy, modify_other w' _ hk]
      omega
  · by_cases hk : k = lease.pool
    · rw [World.destroy, hk, modify_self, ← hk]
      exact h.idle k
    · rw [World.destroy, modify_other w' _ hk]
      exact h.idle k

end Lends

/-- Checkouts that came to nothing: a checkout that failed, or one whose lease was then
    destroyed. -/
inductive Returns (u : Upstream σ) : World σ → World σ → Prop where
  | refl (w : World σ) : Returns u w w
  | refused {w w' : World σ} (key : PoolKey) (e : String)
      (hrefused : (w.checkout u key).2 = .error e)
      (hrest : Returns u (w.checkout u key).1 w') : Returns u w w'
  | destroyed {w w' : World σ} (key : PoolKey) (lease : UpstreamLease σ)
      (hlease : (w.checkout u key).2 = .ok lease)
      (hrest : Returns u ((w.checkout u key).1.destroy lease) w') : Returns u w w'

namespace Returns

variable {u : Upstream σ} {w w' w'' : World σ}

theorem trans (h : Returns u w w') (h' : Returns u w' w'') : Returns u w w'' := by
  induction h with
  | refl w => exact h'
  | refused key e hrefused _ ih => exact .refused key e hrefused (ih h')
  | destroyed key lease hlease _ ih => exact .destroyed key lease hlease (ih h')

/-- Nothing is lent on balance. -/
theorem lends (h : Returns u w w') : w.Lends w' [] := by
  induction h with
  | refl w => exact .refl w
  | @refused w _ key e hrefused _ ih =>
      have hout := Lends.checkout u w key
      rw [hrefused] at hout
      exact hout.trans ih
  | @destroyed w _ key lease hlease _ ih =>
      have hout := Lends.checkout u w key
      rw [hlease] at hout
      exact Lends.trans (Lends.destroy hout) ih

/-- What a connect meets is not a matter of the pools. -/
theorem supply (h : Returns u w w') : w'.supply = w.supply := by
  induction h with
  | refl w => rfl
  | @refused w _ key e _ _ ih => exact ih.trans (checkout_supply u w key)
  | @destroyed w _ key lease _ _ ih => exact ih.trans (checkout_supply u w key)

end Returns

end World

end Pgferry
