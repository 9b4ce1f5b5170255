/-
  Who holds which connection.

  A connection has a number of its own (the dial that made it). `World.Custody w held` says that
  every connection is in one place: on one stack, once, or among the connections `held` outside of
  the pools. The list `held` is open at its end, so a fact about the operations of one session
  leaves room for what the other sessions hold.

  Proved: the pool operations keep custody (`Custody.checkout`, `Custody.checkinDetached`,
  `Custody.checkin` and after): a checkout moves a connection from a stack, or a new one, to the
  held ones, and a return moves it back or drops it.
-/
import Mathlib.Data.List.Perm.Subperm
import Pgferry.Hygiene

namespace Pgferry

variable {σ : Type}

namespace World

/-- The connections on a stack. -/
def parked (w : World σ) (key : PoolKey) : List Nat :=
  (w.pools key).idle.map fun p => p.conn.processId

structure Custody (w : World σ) (held : List Nat) : Prop where
  known : ∀ key, ∀ pid ∈ w.parked key ++ held, pid < w.dials
  once : ∀ key, (w.parked key ++ held).Nodup
  disjoint : ∀ key key', key ≠ key' → (w.parked key).Disjoint (w.parked key')

namespace Custody

variable {w w' : World σ} {held held' : List Nat}

/-- An operation on the pool of `key`: what is there and held afterwards was there or held
    before, or is `new`. -/
theorem change (h : w.Custody held) (key : PoolKey)
    (hother : ∀ k, k ≠ key → w'.parked k = w.parked k) (hdials : w.dials ≤ w'.dials)
    (new : List Nat) (hnodup : new.Nodup)
    (hnew : ∀ pid ∈ new, w.dials ≤ pid ∧ pid < w'.dials)
    (hsub : (w'.parked key ++ held').Subperm (new ++ (w.parked key ++ held))) :
    w'.Custody held' := by
  have hfresh : new.Disjoint (w.parked key ++ held) := fun pid hn ho =>
    absurd (h.known key pid ho) (Nat.not_lt.mpr (hnew pid hn).1)
  have hfrom : ∀ pid ∈ w'.parked key ++ held', pid ∈ new ∨ pid ∈ w.parked key ++ held :=
    fun pid hp => List.mem_append.mp (hsub.subset hp)
  -- Nothing of this pool, held or new, is on the stack of another one.
  have haway : ∀ k, k ≠ key → ∀ pid ∈ w.parked k, pid ∉ w'.parked key ++ held' := by
    intro k hk pid hp hq
    rcases hfrom pid hq with hq | hq
    · exact absurd (h.known k pid (List.mem_append_left _ hp)) (Nat.not_lt.mpr (hnew pid hq).1)
    · rcases List.mem_append.mp hq with hq | hq
      · exact h.disjoint k key hk hp hq
      · exact (List.nodup_append.mp (h.once k)).2.2 pid hp pid hq rfl
  have hkey : (w'.parked key ++ held').Nodup := by
    obtain ⟨l, hperm, hsublist⟩ := hsub
    refine hperm.nodup_iff.mp (List.Nodup.sublist hsublist ?_)
    exact List.nodup_append.mpr ⟨hnodup, h.once key, fun a ha b hb hab => hfresh ha (hab ▸ hb)⟩
  have hbound : ∀ pid ∈ w'.parked key ++ held', pid < w'.dials := fun pid hp =>
    (hfrom pid hp).elim (fun hn => (hnew pid hn).2) fun ho =>
      Nat.lt_of_lt_of_le (h.known key pid ho) hdials
  refine ⟨fun k pid hp => ?_, fun k => ?_, fun k k' hne pid hp hq => ?_⟩
  · by_cases hk : k = key
    · exact hbound pid (hk ▸ hp)
    · rw [hother k hk] at hp
      rcases List.mem_append.mp hp with hp | hp
      · exact Nat.lt_of_lt_of_le (h.known k pid (List.mem_append_left _ hp)) hdials
      · exact hbound pid (List.mem_append_right _ hp)
  · by_cases hk : k = key
    · exact hk ▸ hkey
    · rw [hother k hk]
      refine List.nodup_append.mpr ⟨(List.nodup_append.mp (h.once k)).1,
        (List.nodup_append.mp hkey).2.1, fun a ha b hb hab => ?_⟩
      exact haway k hk a ha (List.mem_append_right _ (hab ▸ hb))
  · by_cases hk : k = key
    · subst hk
      rw [hother k' (Ne.symm hne)] at hq
      exact haway k' (Ne.symm hne) pid hq (List.mem_append_left _ hp)
    · rw [hother k hk] at hp
      by_cases hk' : k' = key
      · subst hk'
        exact haway k hk pid hp (List.mem_append_left _ hq)
      · rw [hother k' hk'] at hq
        exact h.disjoint k k' hne hp hq

end Custody

/-- What `checkout` takes from the stack is an entry of it, and what it leaves is below that. -/
theorem takeIdle_split (u : Upstream σ) (config : PoolConfig) (now : Nat)
    (idle : List (Parked σ)) (metrics : PoolMetrics) :
    match takeIdle u config now idle metrics with
    | (none, rest, _) => rest = []
    | (some (conn, _), rest, _) =>
        ∃ above p, idle = above ++ p :: rest ∧ conn.processId = p.conn.processId := by
  fun_induction takeIdle u config now idle metrics with
  | case1 metrics => rfl
  | case2 parked rest metrics _ ih | case3 parked rest metrics _ _ e _ ih =>
      revert ih
      generalize takeIdle u config now rest _ = r
      obtain ⟨_ | ⟨conn, t⟩, rest', metrics'⟩ := r
      · exact id
      · rintro ⟨above, p, rfl, hpid⟩
        exact ⟨parked :: above, p, rfl, hpid⟩
  | case4 parked rest metrics _ _ c hc =>
      exact ⟨[], parked, rfl, (closeCycle_processId hc)⟩
  | case5 parked rest metrics _ _ => exact ⟨[], parked, rfl, rfl⟩

theorem modify_parked (w : World σ) (key : PoolKey) (f : Pool σ → Pool σ) :
    (w.modify key f).parked key = (f (w.pools key)).idle.map fun p => p.conn.processId := by
  simp [parked, modify]

theorem modify_parked_ne (w : World σ) {key k : PoolKey} (f : Pool σ → Pool σ) (h : k ≠ key) :
    (w.modify key f).parked k = w.parked k := by
  simp [parked, modify, h]

namespace Custody

variable {u : Upstream σ} {w : World σ} {held : List Nat}

/-- An operation on one pool without a connect. -/
theorem modify (h : w.Custody held) {key : PoolKey} {f : Pool σ → Pool σ} {held' : List Nat}
    (hsub : ((f (w.pools key)).idle.map (fun p => p.conn.processId) ++ held').Subperm
      (w.parked key ++ held)) : (w.modify key f).Custody held' := by
  refine h.change key (fun k hk => modify_parked_ne w f hk) (Nat.le_refl _) []
    List.nodup_nil nofun ?_
  rw [modify_parked, List.nil_append]
  exact hsub

theorem checkout (h : w.Custody held) (key : PoolKey) :
    match w.checkout u key with
    | (w', .ok lease) => w'.Custody (lease.conn.processId :: held)
    | (w', .error _) => w'.Custody held := by
  have hsplit := takeIdle_split u (w.pools key).config w.now (w.pools key).idle
    (w.pools key).metrics
  unfold World.checkout
  dsimp only
  generalize takeIdle u (w.pools key).config w.now (w.pools key).idle (w.pools key).metrics = r
    at hsplit
  obtain ⟨_ | ⟨conn, t⟩, rest, metrics⟩ := r
  · have hrest : rest = [] := hsplit
    subst hrest
    have hdial : ∀ (f : Pool σ → Pool σ) (new : List Nat), (f (w.pools key)).idle = [] →
        new ⊆ [w.dials] → new.Nodup →
        ({ w with dials := w.dials + 1 }.modify key f).Custody (new ++ held) := by
      intro f new hf hnew hnodup
      refine h.change key (fun k hk => modify_parked_ne _ f hk) (Nat.le_succ _) new hnodup
        (fun pid hp => ?_) ?_
      · rw [List.mem_singleton.mp (hnew hp)]
        exact ⟨Nat.le_refl _, Nat.lt_succ_self _⟩
      · rw [modify_parked]
        show ((f (w.pools key)).idle.map _ ++ (new ++ held)).Subperm _
        rw [hf, List.map_nil, List.nil_append]
        exact (List.Sublist.append_left (List.sublist_append_right _ _) _).subperm
    dsimp only
    cases w.supply key w.dials with
    | error e => exact hdial _ [] rfl nofun List.nodup_nil
    | ok r => exact hdial _ [w.dials] rfl (fun _ h => h) (List.nodup_singleton _)
  · obtain ⟨above, p, hidle, hpid⟩ := hsplit
    refine h.modify ?_
    dsimp only
    rw [World.parked, hidle, hpid]
    simp only [List.map_append, List.map_cons, List.append_assoc, List.cons_append]
    exact List.perm_middle.subperm.trans (List.sublist_append_right _ _).subperm

theorem park {pid : Nat} (h : w.Custody (pid :: held)) {key : PoolKey} {f : Pool σ → Pool σ}
    (hf : (f (w.pools key)).idle = (w.pools key).idle ∨
      ∃ p : Parked σ, p.conn.processId = pid ∧ (f (w.pools key)).idle = p :: (w.pools key).idle) :
    (w.modify key f).Custody held := by
  refine h.modify ?_
  rcases hf with hf | ⟨p, rfl, hf⟩ <;> rw [hf]
  · exact (List.Sublist.append_left (List.sublist_cons_self _ _) _).subperm
  · exact List.perm_middle.symm.subperm

/-- What `park` does to the stack. -/
theorem park_idle (p : Pool σ) (now : Nat) (conn : Conn σ) (createdAt : Nat) :
    (p.park now conn createdAt).idle = p.idle ∨
      ∃ x : Parked σ, x.conn = conn ∧ (p.park now conn createdAt).idle = x :: p.idle := by
  unfold Pool.park
  split
  · exact .inl rfl
  · exact .inr ⟨_, rfl, rfl⟩

theorem checkinDetached {lease : UpstreamLease σ} (h : w.Custody (lease.conn.processId :: held))
    (dirty : Bool) : (w.checkinDetached u lease dirty).Custody held := by
  refine h.park ?_
  dsimp only
  split
  case h_1 => exact .inl rfl
  case h_2 conn hd =>
    have hpid : conn.processId = lease.conn.processId :=
      (processId_exchanges u _).discardIfDirty rfl hd
    refine (park_idle _ _ _ _).imp (fun h => h) ?_
    rintro ⟨x, hx, heq⟩
    exact ⟨x, by rw [hx, hpid], heq⟩

theorem checkin {lease : UpstreamLease σ} (h : w.Custody (lease.conn.processId :: held))
    (hygiene : Hygiene) (arrived : Nat) : (w.checkin u lease hygiene arrived).Custody held := by
  refine h.park ?_
  split
  case h_1 => exact .inl rfl
  case h_2 conn hs =>
    have hpid : conn.processId = lease.conn.processId := (processId_cleans u _).sanitize rfl hs
    refine (park_idle _ _ _ _).imp (fun h => h) ?_
    rintro ⟨x, hx, heq⟩
    exact ⟨x, by rw [hx, hpid], heq⟩

theorem destroy {lease : UpstreamLease σ} (h : w.Custody (lease.conn.processId :: held)) :
    (w.destroy lease).Custody held :=
  h.park (.inl rfl)

theorem abandon {lease : UpstreamLease σ} (h : w.Custody (lease.conn.processId :: held)) :
    (w.abandon lease).Custody held :=
  h.park (.inl rfl)

theorem baselineParams (h : w.Custody held) (key : PoolKey) :
    (w.baselineParams u key).1.Custody held := by
  have hout := h.checkout (u := u) key
  unfold World.baselineParams
  split
  · exact h
  · split
    case h_1 heq =>
      rw [heq] at hout
      exact hout
    case h_2 heq =>
      rw [heq] at hout
      exact checkin hout _ _

theorem sweep (h : w.Custody held) (key : PoolKey) (now : Nat) :
    (w.modify key fun p => p.sweep now).Custody held :=
  h.modify (List.Sublist.append_right (List.filter_sublist.map _) _).subperm

/-- The order of what is held does not matter. -/
theorem perm {held' : List Nat} (h : w.Custody held) (hp : held'.Perm held) : w.Custody held' := by
  refine ⟨fun key pid hm => h.known key pid ?_, fun key => ?_, h.disjoint⟩
  · exact (List.Perm.append_left _ hp).subset hm
  · exact (List.Perm.append_left _ hp).nodup_iff.mpr (h.once key)

end Custody

end World

end Pgferry
