/-
  What the pool's own exchanges leave on a connection.

  A connection between two leases is `Quiet`. The liveness probe, the parameter sync, the replay
  of a session's state, a scatter leg and `DISCARD ALL` each run one cycle at a time, so each
  leaves a quiet connection quiet. `sanitize` starts from a connection with a cycle that may be
  unfinished, and drains it under a timeout.

  Proved: what the single exchanges keep is kept by a whole attach (`Exchanges.prepared`); they
  keep `Quiet` (`quiet_exchanges`, `quiet_leg`); the balance of `sanitize` (`sanitize_balance`),
  which consumes what it elicits, and one `ReadyForQuery` more exactly when the drain meets one
  in time; and that `sanitize` leaves a quiet connection then (`sanitize_quiet`).
-/
import Pgferry.Session.Steps

namespace Pgferry

variable {σ κ : Type} {u : Upstream σ}

/-- Nothing is outstanding on a pooled connection. -/
def QuietPool (u : Upstream σ) (_ : PoolKey) (c : Conn σ) : Prop := c.Quiet u

/-! ## Housekeeping -/

/-- What the proxy does on a connection for itself keeps `Ψ`. -/
structure Housekeeps (u : Upstream σ) (Ψ : Conn σ → Prop) : Prop where
  set : ∀ c c' name value, Ψ c → c.simpleQuery u (setSql name value) = .ok c' → Ψ c'
  cached : ∀ c name value, Ψ c → Ψ (c.setServerParameter name value)
  discard : ∀ c c', Ψ c → c.simpleQuery u "DISCARD ALL" = .ok c' → Ψ c'
  sync : ∀ c c', Ψ c → closeCycle u c = .ok c' → Ψ c'

/-- `Housekeeps`, and the replay of any registry keeps `Ψ`. -/
structure Exchanges (u : Upstream σ) (Ψ : Conn σ → Prop) : Prop extends Housekeeps u Ψ where
  replay : ∀ c c' (registry : StatementRegistry), Ψ c → registry.replay u c = .ok c' → Ψ c'

namespace Housekeeps

variable {Ψ : Conn σ → Prop} (hx : Housekeeps u Ψ)

include hx

theorem setParameter {c c' : Conn σ} {name value : String} (h : Ψ c)
    (hs : setParameter u c name value = .ok c') : Ψ c' := by
  unfold Pgferry.setParameter at hs
  split at hs
  case h_1 => cases hs
  case h_2 c₁ hq =>
    cases hs
    exact hx.cached c₁ name value (hx.set c c₁ name value h hq)

theorem syncParameters {startup : Params} {names : List String} {c c' : Conn σ} (h : Ψ c)
    (hs : syncParameters u startup names c = .ok c') : Ψ c' := by
  induction names generalizing c with
  | nil => cases hs; exact h
  | cons name names ih =>
      rw [Pgferry.syncParameters] at hs
      split at hs
      · exact ih h hs
      · split at hs
        · exact ih h hs
        · split at hs
          case h_1 => cases hs
          case h_2 c₁ hset =>
            exact ih (hx.setParameter h hset) hs

theorem replayGucs {gucs : List (Σ _ : String, String)} {c c' : Conn σ} {dirty dirty' : Bool}
    (h : Ψ c) (hr : replayGucs u gucs c dirty = (dirty', .ok c')) : Ψ c' := by
  induction gucs generalizing c dirty with
  | nil => cases hr; exact h
  | cons g gucs ih =>
      rw [Pgferry.replayGucs] at hr
      split at hr
      · exact ih h hr
      · split at hr
        case h_1 => cases hr
        case h_2 c₁ hq =>
          exact ih (hx.set c c₁ _ _ h hq) hr

/-- A connection that was brought to a session's state. -/
theorem preparedWith {startup : Params} {c : Core σ} {dirty₀ dirty : Bool} {base conn : Conn σ}
    (hreplay : ∀ c₂, Ψ c₂ → c.registry.replay u c₂ = .ok conn → Ψ conn) (hbase : Ψ base)
    (h : Prepared u startup c dirty₀ base conn dirty) : Ψ conn := by
  obtain ⟨c₁, c₂, d, h1, h2, h3, _⟩ := h
  exact hreplay c₂ (hx.replayGucs (hx.syncParameters hbase h1) h2) h3

theorem discardIfDirty {c c' : Conn σ} {dirty : Bool} (h : Ψ c)
    (hd : discardIfDirty u c dirty = .ok c') : Ψ c' := by
  unfold Pgferry.discardIfDirty at hd
  split at hd
  · exact hx.discard c c' h hd
  · cases hd
    exact h

end Housekeeps

/-- What the proxy does on a connection that it takes back keeps `Ψ`. -/
structure Cleans (u : Upstream σ) (Ψ : Conn σ → Prop) : Prop extends Housekeeps u Ψ where
  copyFail : ∀ c message, Ψ c → Ψ (c.send u .proxy (.copyFail message))
  cancel : ∀ c, Ψ c → Ψ (c.cancel u)
  drained : ∀ n c, Ψ c → Ψ (c.drainWithin n).1
  rollback : ∀ c c', Ψ c → c.simpleQuery u "ROLLBACK" = .ok c' → Ψ c'

/-- What the first two steps of `sanitize` do keeps `Ψ`. -/
structure Settles (u : Upstream σ) (Ψ : Conn σ → Prop) : Prop where
  sync : ∀ c c', Ψ c → closeCycle u c = .ok c' → Ψ c'
  copyFail : ∀ c message, Ψ c → Ψ (c.send u .proxy (.copyFail message))
  cancel : ∀ c, Ψ c → Ψ (c.cancel u)
  drained : ∀ n c, Ψ c → Ψ (c.drainWithin n).1
  rollback : ∀ c c', Ψ c → c.simpleQuery u "ROLLBACK" = .ok c' → Ψ c'

/-- The steps of a `sanitize` that succeeds. -/
theorem sanitize_ok {c c' : Conn σ} {hygiene : Hygiene} {arrived : Nat}
    (h : sanitize u c hygiene arrived = .ok c') :
    ∃ c₁ c₂, stopRunning u c hygiene arrived = .ok c₁ ∧ rollback u c₁ = .ok c₂ ∧
      c₂.simpleQuery u "DISCARD ALL" = .ok c' := by
  unfold sanitize at h
  cases h1 : stopRunning u c hygiene arrived with
  | error e => simp [h1, bind, Except.bind] at h
  | ok c₁ =>
      cases h2 : rollback u c₁ with
      | error e => simp [h1, h2, bind, Except.bind] at h
      | ok c₂ =>
          simp only [h1, h2, bind, Except.bind] at h
          exact ⟨c₁, c₂, rfl, h2, h⟩

namespace Settles

variable {Ψ : Conn σ → Prop} (hx : Settles u Ψ)

include hx

theorem settle {c c' : Conn σ} {sendCopyFail awaiting : Bool} {arrived : Nat} (h : Ψ c)
    (hs : settle u c sendCopyFail awaiting arrived = .ok c') : Ψ c' := by
  have hsettling : Ψ (settling u c sendCopyFail awaiting) := by
    cases sendCopyFail <;> cases awaiting
    · exact h
    · exact hx.cancel _ h
    · exact hx.copyFail _ _ h
    · exact hx.cancel _ (hx.copyFail _ _ h)
  have hdrained := hx.drained arrived _ hsettling
  unfold Pgferry.settle at hs
  split at hs
  case h_1 d heq =>
    rw [heq] at hdrained
    cases hs
    exact hdrained
  case h_2 d heq =>
    rw [heq] at hdrained
    exact hx.sync d c' hdrained hs

theorem stopRunning {c c' : Conn σ} {hygiene : Hygiene} {arrived : Nat} (h : Ψ c)
    (hs : stopRunning u c hygiene arrived = .ok c') : Ψ c' := by
  unfold Pgferry.stopRunning at hs
  split at hs
  · exact hx.settle h hs
  · split at hs
    · exact hx.settle h hs
    · exact hx.sync c c' h hs

theorem rolledBack {c c' : Conn σ} (h : Ψ c) (hs : Pgferry.rollback u c = .ok c') : Ψ c' := by
  unfold Pgferry.rollback at hs
  split at hs
  · exact hx.rollback c c' h hs
  · cases hs
    exact h

end Settles

theorem Cleans.sanitize {Ψ : Conn σ → Prop} (hx : Cleans u Ψ) {c c' : Conn σ} {hygiene : Hygiene}
    {arrived : Nat} (h : Ψ c) (hs : sanitize u c hygiene arrived = .ok c') : Ψ c' := by
  have hsettles : Settles u Ψ := ⟨hx.sync, hx.copyFail, hx.cancel, hx.drained, hx.rollback⟩
  obtain ⟨c₁, c₂, h1, h2, h3⟩ := sanitize_ok hs
  exact hx.discard c₂ c' (hsettles.rolledBack (hsettles.stopRunning h h1) h2) h3

theorem Exchanges.prepared {Ψ : Conn σ → Prop} (hx : Exchanges u Ψ) {startup : Params}
    {c : Core σ} {dirty₀ dirty : Bool} {base conn : Conn σ} (hbase : Ψ base)
    (h : Prepared u startup c dirty₀ base conn dirty) : Ψ conn :=
  hx.preparedWith (fun c₂ h₂ hr => hx.replay c₂ conn _ h₂ hr) hbase h

/-! ## Exchanges on a quiet connection -/

namespace Conn

/-- An exchange that an `ErrorResponse` fails and that succeeds on a tame connection has read
    everything, and no error. -/
theorem readReply_clean {fails : BackendMessage → Bool} {c c' : Conn σ} (h : c.Tame u)
    (hf : ∀ m : BackendMessage, m.isError = true → fails m = true)
    (hq : readReply fails c.inbox c = .ok c') :
    c'.backend = c.backend ∧ ∀ x ∈ c.inbox, x.2.isError = false := by
  obtain ⟨pre, o, status, rest, hx, _, _, _, _, hb, _, _, _, hpre⟩ := readReply_spec hq
  obtain ⟨hrest, _⟩ := h.ready_last hx
  refine ⟨hb, fun x hmem => ?_⟩
  rw [hx, hrest] at hmem
  rcases List.mem_append.mp hmem with hmem | hmem
  · by_contra herr
    rw [Bool.not_eq_false] at herr
    simpa [hf _ herr] using hpre x hmem
  · rw [List.mem_singleton] at hmem
    rw [hmem]
    rfl

/-- The exchange of `StatementRegistry::replay`. -/
theorem awaitReady_clean {c c' : Conn σ} (h : c.Tame u) (hq : c.awaitReady = .ok c') :
    c'.backend = c.backend ∧ ∀ x ∈ c.inbox, x.2.isError = false :=
  readReply_clean h (fun _ hm => hm) hq

/-- What a `Query` of the proxy does on a quiet connection when it succeeds. -/
theorem simpleQuery_clean (hu : u.InOrder) {c c' : Conn σ} {sql : String} (h : c.Quiet u)
    (hq : c.simpleQuery u sql = .ok c') :
    c'.backend = (u.respond c.backend (.query sql)).1 ∧
      ∀ x ∈ (u.respond c.backend (.query sql)).2, x.isError = false := by
  have hin : (c.send u .proxy (.query sql)).inbox =
      (u.respond c.backend (.query sql)).2.map fun x => (Origin.proxy, x) := by
    rw [send_inbox, h.inbox, h.outbox]
    rfl
  obtain ⟨hb, hclean⟩ := readReply_clean (send_tame hu h.tame h.pending .proxy (.query sql))
    (fun m hm => show (m.isError || u.unexpected m) = true by rw [hm, Bool.true_or]) hq
  refine ⟨by rw [hb, send_backend, h.outbox]; rfl, fun x hmem => ?_⟩
  refine hclean (Origin.proxy, x) ?_
  rw [hin]
  exact List.mem_map.mpr ⟨x, hmem, rfl⟩

/-- Feeding `Parse` messages elicits nothing. -/
theorem feedParses_tame (es : List (Σ _ : String, String × List Nat)) {c : Conn σ} (h : c.Tame u)
    (hp : c.pending u = 0) :
    (es.foldl (fun c e => c.feed .proxy (.parse (some e.1) e.2.1 e.2.2)) c).Tame u ∧
      (es.foldl (fun c e => c.feed .proxy (.parse (some e.1) e.2.1 e.2.2)) c).pending u = 0 := by
  induction es generalizing c with
  | nil => exact ⟨h, hp⟩
  | cons e es ih =>
      refine ih (feed_tame h hp .proxy rfl) ?_
      rw [feed_pending, hp]
      rfl

theorem feedParses_spec (es : List (Σ _ : String, String × List Nat)) (c : Conn σ) :
    (es.foldl (fun c e => c.feed .proxy (.parse (some e.1) e.2.1 e.2.2)) c).backend = c.backend ∧
      (es.foldl (fun c e => c.feed .proxy (.parse (some e.1) e.2.1 e.2.2)) c).outbox = c.outbox ++
        es.map fun e => (Origin.proxy, .parse (some e.1) e.2.1 e.2.2) := by
  induction es generalizing c with
  | nil => exact ⟨rfl, (List.append_nil _).symm⟩
  | cons e es ih =>
      obtain ⟨h1, h2⟩ := ih (c.feed .proxy (.parse (some e.1) e.2.1 e.2.2))
      refine ⟨h1, h2.trans ?_⟩
      simp [feed, List.append_assoc]

theorem feedParses_processId (es : List (Σ _ : String, String × List Nat)) (c : Conn σ) :
    (es.foldl (fun c e => c.feed .proxy (.parse (some e.1) e.2.1 e.2.2)) c).processId =
      c.processId := by
  induction es generalizing c with
  | nil => rfl
  | cons e es ih => exact ih _

theorem replay_quiet (hu : u.InOrder) {registry : StatementRegistry} {c c' : Conn σ}
    (h : c.Quiet u) (hr : registry.replay u c = .ok c') : c'.Quiet u := by
  unfold StatementRegistry.replay at hr
  split at hr
  · cases hr
    exact h
  · obtain ⟨ht, hp⟩ := feedParses_tame registry.entries h.tame h.pending
    exact readReply_quiet (send_tame hu ht hp .proxy _) hr

/-- The reply loop of a scatter leg consumes up to the first `ReadyForQuery` as every other. -/
theorem collectReply_spec {xs : List (Origin × BackendMessage)} {r : Collected σ}
    (h : (collectReply xs r).broken = false) :
    ∃ pre o status rest, xs = pre ++ (o, .readyForQuery status) :: rest ∧
      (collectReply xs r).conn.inbox = rest ∧
      (collectReply xs r).conn.transactionStatus = status ∧
      (collectReply xs r).conn.outbox = r.conn.outbox ∧
      (collectReply xs r).conn.backend = r.conn.backend ∧
      (collectReply xs r).conn.elicited = r.conn.elicited ∧
      (collectReply xs r).conn.consumed = r.conn.consumed + 1 := by
  fun_induction collectReply xs r with
  | case1 r => cases h
  | case2 r status o rest => exact ⟨[], _, _, _, rfl, rfl, rfl, rfl, rfl, rfl, rfl⟩
  | case3 r o name value rest ih =>
      obtain ⟨pre, o', status, rest', hx, h'⟩ := ih h
      exact ⟨_ :: pre, o', status, rest', by rw [hx]; rfl, h'⟩
  | case4 r o info rest ih =>
      obtain ⟨pre, o', status, rest', hx, h'⟩ := ih h
      exact ⟨_ :: pre, o', status, rest', by rw [hx]; rfl, h'⟩
  | case5 r o row rest ih =>
      obtain ⟨pre, o', status, rest', hx, h'⟩ := ih h
      exact ⟨_ :: pre, o', status, rest', by rw [hx]; rfl, h'⟩
  | case6 r o m rest _ _ _ _ ih =>
      obtain ⟨pre, o', status, rest', hx, h'⟩ := ih h
      exact ⟨_ :: pre, o', status, rest', by rw [hx]; rfl, h'⟩

/-- A leg on a connection with no cycle open leaves it quiet, whatever was fed before. -/
theorem runQueryCollect_quiet (hu : u.InOrder) {c : Conn σ} {sql : String} (h : c.Tame u)
    (hp : c.pending u = 0) (hb : (runQueryCollect u c sql).broken = false) :
    (runQueryCollect u c sql).conn.Quiet u := by
  have ht := send_tame hu h hp .proxy (.query sql)
  unfold runQueryCollect at hb ⊢
  obtain ⟨pre, o, status, rest, hx, e1, _, e2, e3, e4, e5⟩ := collectReply_spec hb
  obtain ⟨hrest, hout, howed, hcopy, hpend⟩ := ht.ready_last hx
  have hbal := ht.balanced
  unfold Balanced at hbal
  exact ⟨e2.trans hout, e1.trans hrest, by rw [e3]; exact howed, by rw [e3]; exact hcopy,
    by rw [e4, e5]; exact hbal.trans (by rw [hpend])⟩

end Conn

open Conn

theorem quiet_exchanges (hu : u.InOrder) : Exchanges u (Conn.Quiet u) where
  set := fun _ _ _ _ h hq => simpleQuery_quiet hu h hq
  cached := fun _ _ _ h => ⟨h.outbox, h.inbox, h.owed, h.copying, h.settled⟩
  discard := fun _ _ h hq => simpleQuery_quiet hu h hq
  sync := fun _ _ h hc => readReply_quiet (send_tame hu h.tame h.pending .proxy _) hc
  replay := fun _ _ _ h hr => replay_quiet hu h hr

theorem discardIfDirty_quiet (hu : u.InOrder) {c c' : Conn σ} {dirty : Bool} (h : c.Quiet u)
    (hd : discardIfDirty u c dirty = .ok c') : c'.Quiet u :=
  (quiet_exchanges hu).discardIfDirty h hd

theorem quiet_probe (hu : u.InOrder) : ProbeKeeps u (QuietPool u) :=
  fun _ c c' hc hp => (quiet_exchanges hu).sync c c' hc hp

theorem quiet_leg (hu : u.InOrder) (startup : Params) (sql : String) :
    LegKeeps u (QuietPool u) startup sql := by
  intro key base c c' hbase hsync hb hd
  have hc : c.Quiet u := (quiet_exchanges hu).syncParameters hbase hsync
  exact discardIfDirty_quiet hu (runQueryCollect_quiet hu hc.tame hc.pending hb) hd

theorem prepared_quiet (hu : u.InOrder) {startup : Params} {c : Core σ} {dirty₀ dirty : Bool}
    {base conn : Conn σ} (hbase : base.Quiet u) (h : Prepared u startup c dirty₀ base conn dirty) :
    conn.Quiet u :=
  (quiet_exchanges hu).prepared hbase h

/-! ## Sanitize -/

theorem drainWithin_spec (n : Nat) (c : Conn σ) :
    (drainWithin n c).1.outbox = c.outbox ∧ (drainWithin n c).1.backend = c.backend ∧
      (drainWithin n c).1.elicited = c.elicited ∧
      (drainWithin n c).1.consumed =
        c.consumed + (if (drainWithin n c).2 = true then 1 else 0) ∧
      ((drainWithin n c).2 = true → queuedReadies c.inbox ≠ 0) := by
  fun_induction drainWithin n c with
  | case1 c => simp
  | case2 c n hin => simp
  | case3 c n o status rest hin => simp [hin, BackendMessage.ready]
  | case4 n c o name value rest hin ih =>
      obtain ⟨h1, h2, h3, h4, h5⟩ := ih
      refine ⟨h1, h2, h3, h4, fun h => ?_⟩
      rw [hin, queuedReadies_cons]
      exact Nat.ne_of_gt (Nat.lt_of_lt_of_le (Nat.pos_of_ne_zero (h5 h)) (Nat.le_add_left _ _))
  | case5 n c x rest _ _ hin ih =>
      obtain ⟨h1, h2, h3, h4, h5⟩ := ih
      refine ⟨h1, h2, h3, h4, fun h => ?_⟩
      rw [hin, queuedReadies_cons]
      exact Nat.ne_of_gt (Nat.lt_of_lt_of_le (Nat.pos_of_ne_zero (h5 h)) (Nat.le_add_left _ _))

/-- An exchange that runs to the end consumes what it elicits. -/
theorem simpleQuery_balance {c c' : Conn σ} {sql : String} (h : c.simpleQuery u sql = .ok c') :
    c'.elicited + c.consumed = c.elicited + c'.consumed := by
  obtain ⟨_, _, _, _, _, _, _, _, _, _, e5, e6, _⟩ := readReply_spec h
  rw [e5, e6]
  simp only [send, flush, feed, FrontendMessage.cycles]
  omega

theorem closeCycle_balance {c c' : Conn σ} (h : closeCycle u c = .ok c') :
    c'.elicited + c.consumed = c.elicited + c'.consumed := by
  obtain ⟨_, _, _, _, _, _, _, _, _, _, e5, e6, _⟩ := readReply_spec h
  rw [e5, e6]
  simp only [send, flush, feed, FrontendMessage.cycles]
  omega

/-- `sanitize` goes through `settle`. -/
def Hygiene.settles (h : Hygiene) : Bool :=
  h.awaitingResponse || decide (h.copy = .clientOwesCopy)

/-- The drain of `settle` meets a `ReadyForQuery` among the first `arrived` messages. -/
def drainsInTime (u : Upstream σ) (c : Conn σ) (h : Hygiene) (arrived : Nat) : Bool :=
  h.settles && (drainWithin arrived
    (settling u c (decide (h.copy = .clientOwesCopy)) h.awaitingResponse)).2

theorem settling_counts (c : Conn σ) (sendCopyFail awaiting : Bool) :
    (settling u c sendCopyFail awaiting).elicited = c.elicited ∧
      (settling u c sendCopyFail awaiting).consumed = c.consumed := by
  cases sendCopyFail <;> cases awaiting <;>
    simp [settling, cancel, send, flush, feed, FrontendMessage.cycles]

theorem settle_balance {c c' : Conn σ} {sendCopyFail awaiting : Bool} {arrived : Nat}
    (h : settle u c sendCopyFail awaiting arrived = .ok c') :
    c'.elicited + c.consumed +
        (if (drainWithin arrived (settling u c sendCopyFail awaiting)).2 = true then 1 else 0) =
      c.elicited + c'.consumed := by
  obtain ⟨s1, s2⟩ := settling_counts (u := u) c sendCopyFail awaiting
  obtain ⟨_, _, d3, d4, _⟩ := drainWithin_spec arrived (settling u c sendCopyFail awaiting)
  unfold settle at h
  split at h
  case h_1 c₁ heq =>
    rw [heq] at d3 d4 ⊢
    cases h
    simp only [if_true] at d3 d4 ⊢
    omega
  case h_2 c₁ heq =>
    have := closeCycle_balance h
    rw [heq] at d3 d4 ⊢
    simp only [Bool.false_eq_true, if_false] at d3 d4 ⊢
    omega

theorem stopRunning_balance {c c' : Conn σ} {h : Hygiene} {arrived : Nat}
    (hs : stopRunning u c h arrived = .ok c') :
    c'.elicited + c.consumed + (if drainsInTime u c h arrived = true then 1 else 0) =
      c.elicited + c'.consumed := by
  obtain ⟨awaiting, copy⟩ := h
  unfold stopRunning at hs
  unfold drainsInTime Hygiene.settles
  dsimp only at hs ⊢
  by_cases hcopy : copy = .clientOwesCopy
  · rw [if_pos hcopy] at hs
    simpa [hcopy] using settle_balance hs
  · rw [if_neg hcopy] at hs
    cases awaiting with
    | true => simpa [hcopy] using settle_balance hs
    | false => simpa [hcopy] using closeCycle_balance hs

theorem rollback_balance {c c' : Conn σ} (h : rollback u c = .ok c') :
    c'.elicited + c.consumed = c.elicited + c'.consumed := by
  unfold rollback at h
  split at h
  · exact simpleQuery_balance h
  · cases h
    rfl

/-- What `sanitize` consumes beyond what it elicits itself. -/
theorem sanitize_balance {c c' : Conn σ} {h : Hygiene} {arrived : Nat}
    (hs : sanitize u c h arrived = .ok c') :
    c'.elicited + c.consumed + (if drainsInTime u c h arrived = true then 1 else 0) =
      c.elicited + c'.consumed := by
  obtain ⟨c₁, c₂, h1, h2, h3⟩ := sanitize_ok hs
  have b1 := stopRunning_balance h1
  have b2 := rollback_balance h2
  have b3 := simpleQuery_balance h3
  omega

/-! ## A drain that ends in time -/

/-- A drain takes at most the cycle that is open. -/
theorem drainWithin_tame (n : Nat) (c : Conn σ) (h : c.Tame u) :
    (drainWithin n c).1.Tame u ∧ ((drainWithin n c).2 = true → (drainWithin n c).1.Quiet u) ∧
      ((drainWithin n c).2 = false → (drainWithin n c).1.pending u = c.pending u) := by
  fun_induction drainWithin n c with
  | case1 c => exact ⟨h, nofun, fun _ => rfl⟩
  | case2 c n hin => exact ⟨h, nofun, fun _ => rfl⟩
  | case3 n c o status rest hin =>
      have hq := take_quiet h hin rfl
      have hq' : { c with
          transactionStatus := status, inbox := rest, consumed := c.consumed + 1 }.Quiet u :=
        ⟨hq.outbox, hq.inbox, hq.owed, hq.copying, hq.settled⟩
      exact ⟨hq'.tame, fun _ => hq', nofun⟩
  | case4 n c o name value rest hin ih =>
      obtain ⟨ht, hp⟩ := take_tame h hin
      have ht' : ({ c with inbox := rest }.setServerParameter name value).Tame u :=
        ⟨ht.balanced, ht.pending_le, ht.last, ht.outbox, ht.copying⟩
      obtain ⟨h1, h2, h3⟩ := ih ht'
      exact ⟨h1, h2, fun hf => (h3 hf).trans hp⟩
  | case5 n c x rest hready hparam hin ih =>
      have hx : x.2.ready = 0 := by
        obtain ⟨o, m⟩ := x
        cases m with
        | readyForQuery status => exact absurd rfl (hready o status)
        | _ => rfl
      obtain ⟨ht, hp⟩ := take_tame h hin
      rw [hx] at ht hp
      obtain ⟨h1, h2, h3⟩ := ih ht
      exact ⟨h1, h2, fun hf => (h3 hf).trans hp⟩

theorem settling_pending (hu : u.InOrder) (c : Conn σ) (sendCopyFail awaiting : Bool) :
    (settling u c sendCopyFail awaiting).pending u = c.pending u := by
  have hpend := send_pending hu c .proxy (.copyFail "pgferry: client disconnected during COPY")
  cases sendCopyFail <;> cases awaiting
  · rfl
  · exact cancel_pending hu c
  · exact hpend
  · exact (cancel_pending hu _).trans hpend

theorem settling_tame (hu : u.InOrder) {c : Conn σ} (h : c.Tame u) (sendCopyFail awaiting : Bool) :
    (settling u c sendCopyFail awaiting).Tame u ∧
      (settling u c sendCopyFail awaiting).pending u = c.pending u := by
  refine ⟨?_, settling_pending hu c sendCopyFail awaiting⟩
  have hfail := send_copy_tame hu h .proxy
    (m := .copyFail "pgferry: client disconnected during COPY") rfl
  cases sendCopyFail <;> cases awaiting
  · exact h
  · exact cancel_tame hu h
  · exact hfail
  · exact cancel_tame hu hfail

theorem closeCycle_tame (hu : u.InOrder) {c c' : Conn σ} (h : c.Tame u) (hp : c.pending u = 0)
    (hc : closeCycle u c = .ok c') : c'.Quiet u :=
  readReply_quiet (send_tame hu h hp .proxy _) hc

theorem settle_quiet (hu : u.InOrder) {c c' : Conn σ} {sendCopyFail awaiting : Bool}
    {arrived : Nat} (h : c.Tame u)
    (hp : c.pending u ≠ 0 → (drainWithin arrived (settling u c sendCopyFail awaiting)).2 = true)
    (hs : settle u c sendCopyFail awaiting arrived = .ok c') : c'.Quiet u := by
  obtain ⟨ht, hpend⟩ := settling_tame hu h sendCopyFail awaiting
  obtain ⟨h1, h2, h3⟩ := drainWithin_tame arrived _ ht
  unfold settle at hs
  split at hs
  case h_1 d heq =>
    rw [heq] at h2
    cases hs
    exact h2 rfl
  case h_2 d heq =>
    rw [heq] at h1 h3 hp
    have hzero : c.pending u = 0 := by
      by_contra hne
      cases hp hne
    exact closeCycle_tame hu h1 ((h3 rfl).trans (hpend.trans hzero)) hs

theorem stopRunning_quiet (hu : u.InOrder) {c c' : Conn σ} {h : Hygiene} {arrived : Nat}
    (ht : c.Tame u) (hd : c.pending u ≠ 0 → drainsInTime u c h arrived = true)
    (hs : stopRunning u c h arrived = .ok c') : c'.Quiet u := by
  obtain ⟨awaiting, copy⟩ := h
  unfold stopRunning at hs
  unfold drainsInTime Hygiene.settles at hd
  dsimp only at hs hd
  by_cases hcopy : copy = .clientOwesCopy
  · rw [if_pos hcopy] at hs
    exact settle_quiet hu ht (by simpa [hcopy] using hd) hs
  · rw [if_neg hcopy] at hs
    cases awaiting with
    | true => exact settle_quiet hu ht (by simpa [hcopy] using hd) hs
    | false =>
        refine closeCycle_tame hu ht ?_ (by simpa using hs)
        by_contra hne
        simp [hcopy] at hd
        exact hne hd

/-- A `sanitize` whose drain was in time ends with a `DISCARD ALL` on a quiet connection, which
    has what the steps before have kept. -/
theorem sanitize_discards (hu : u.InOrder) {c c' : Conn σ} {h : Hygiene} {arrived : Nat}
    (ht : c.Tame u) (hd : c.pending u ≠ 0 → drainsInTime u c h arrived = true)
    (hs : sanitize u c h arrived = .ok c') :
    ∃ c₂ : Conn σ, c₂.Quiet u ∧ (∀ Ψ, Settles u Ψ → Ψ c → Ψ c₂) ∧
      c₂.simpleQuery u "DISCARD ALL" = .ok c' := by
  obtain ⟨c₁, c₂, h1, h2, h3⟩ := sanitize_ok hs
  refine ⟨c₂, ?_, fun Ψ hx hc => hx.rolledBack (hx.stopRunning hc h1) h2, h3⟩
  have hq := stopRunning_quiet hu ht hd h1
  unfold rollback at h2
  split at h2
  · exact simpleQuery_quiet hu hq h2
  · cases h2
    exact hq

/-- `sanitize` leaves a quiet connection unless the cycle it has to end answers late. -/
theorem sanitize_quiet (hu : u.InOrder) {c c' : Conn σ} {h : Hygiene} {arrived : Nat}
    (ht : c.Tame u) (hd : c.pending u ≠ 0 → drainsInTime u c h arrived = true)
    (hs : sanitize u c h arrived = .ok c') : c'.Quiet u := by
  obtain ⟨c₂, hq, -, hdiscard⟩ := sanitize_discards hu ht hd hs
  exact simpleQuery_quiet hu hq hdiscard

theorem quiet_baseline (hu : u.InOrder) : BaselineKeeps u (QuietPool u) := fun _ _ _ hc hs =>
  sanitize_quiet hu hc.tame (fun h => absurd hc.pending h) hs

/-! ## Which connection it is -/

theorem readReply_processId {fails : BackendMessage → Bool} {c c' : Conn σ}
    {xs : List (Origin × BackendMessage)} (h : readReply fails xs c = .ok c') :
    c'.processId = c.processId := by
  obtain ⟨_, _, _, _, _, _, _, _, _, _, _, _, hpid, _⟩ := readReply_spec h
  exact hpid

theorem simpleQuery_processId {c c' : Conn σ} {sql : String} (h : c.simpleQuery u sql = .ok c') :
    c'.processId = c.processId := by
  have := readReply_processId h
  exact this

theorem closeCycle_processId {c c' : Conn σ} (h : closeCycle u c = .ok c') :
    c'.processId = c.processId := by
  have := readReply_processId h
  exact this

/-- The proxy's own exchanges stay on the connection `n`. -/
theorem processId_exchanges (u : Upstream σ) (n : Nat) :
    Exchanges u fun c => c.processId = n where
  set := fun _ _ _ _ h hq => (simpleQuery_processId hq).trans h
  cached := fun _ _ _ h => h
  discard := fun _ _ h hq => (simpleQuery_processId hq).trans h
  sync := fun _ _ h hc => (closeCycle_processId hc).trans h
  replay := by
    intro c c' registry h hr
    unfold StatementRegistry.replay at hr
    split at hr
    · cases hr
      exact h
    · refine (readReply_processId hr).trans (Eq.trans ?_ h)
      exact feedParses_processId registry.entries c

theorem drainWithin_processId (n : Nat) (c : Conn σ) :
    (drainWithin n c).1.processId = c.processId := by
  fun_induction drainWithin n c <;> first
    | rfl
    | assumption

theorem processId_cleans (u : Upstream σ) (n : Nat) : Cleans u fun c => c.processId = n where
  toHousekeeps := (processId_exchanges u n).toHousekeeps
  copyFail := fun _ _ h => h
  cancel := fun _ h => h
  drained := fun k c h => (drainWithin_processId k c).trans h
  rollback := fun _ _ h hq => (simpleQuery_processId hq).trans h

end Pgferry
