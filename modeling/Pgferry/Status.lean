/-
  The transaction status of a connection and that of its server.

  `Reports` is what PostgreSQL promises about the status byte: a `ReadyForQuery` carries the
  status of the server after the message it answers, and the proxy's own statements open no
  transaction. A connection is `Honest` when the `ReadyForQuery` that waits in its inbox, if any,
  still carries the status of the server.

  Proved: a connection with one cycle at a time stays honest (`put_honest`, `cancel_honest`), a
  connection that is at rest outside a transaction stays so under the proxy's own exchanges
  (`idle_exchanges`), and `pg` reports its status (`pg_reports`).
-/
import Pgferry.Hygiene
import Pgferry.Pg

namespace Pgferry

open Conn

variable {σ : Type}

/-- The messages that the proxy sends for itself. -/
def FrontendMessage.Housekeeping (m : FrontendMessage) : Prop :=
  m = .sync ∨ (∃ name query typeOids, m = .parse name query typeOids) ∨
    m = .query "DISCARD ALL" ∨ ∃ name value, m = .query (setSql name value)

/-- `status` is the transaction status of the server. -/
structure Upstream.Reports (u : Upstream σ) (status : σ → TransactionStatus) : Prop where
  respond : ∀ b m st, u.owed b + m.cycles ≤ 1 → .readyForQuery st ∈ (u.respond b m).2 →
    st = status (u.respond b m).1
  interrupt : ∀ b st, .readyForQuery st ∈ (u.interrupt b).2 → st = status (u.interrupt b).1
  stray_copy : ∀ b m, m.isCopy = true → u.copying b = false →
    status (u.respond b m).1 = status b
  interrupt_idle : ∀ b, u.owed b = 0 → u.copying b = false →
    status (u.interrupt b).1 = status b
  /-- A `ROLLBACK` that succeeds ends the transaction. -/
  rollback : ∀ b, (∀ x ∈ (u.respond b (.query "ROLLBACK")).2, x.isError = false) →
    status (u.respond b (.query "ROLLBACK")).1 = .idle
  housekeeping : ∀ b m, m.Housekeeping → status b = .idle → status (u.respond b m).1 = .idle

theorem Upstream.Reports.answer_idle {u : Upstream σ} {status : σ → TransactionStatus}
    (hr : u.Reports status) (ms : List (Origin × FrontendMessage)) (b : σ)
    (hms : ∀ x ∈ ms, x.2.Housekeeping) (hb : status b = .idle) :
    status (u.answer b ms).1 = .idle := by
  induction ms generalizing b with
  | nil => exact hb
  | cons x ms ih =>
      exact ih _ (fun y hy => hms y (List.mem_cons_of_mem _ hy))
        (hr.housekeeping b x.2 (hms x List.mem_cons_self) hb)

theorem not_mem_of_readies {ms : List BackendMessage} (h : readies ms = 0)
    (status : TransactionStatus) : BackendMessage.readyForQuery status ∉ ms := by
  induction ms with
  | nil => exact List.not_mem_nil
  | cons m ms ih =>
      rw [readies_cons] at h
      intro hmem
      rcases List.mem_cons.mp hmem with rfl | hmem
      · simp [BackendMessage.ready] at h
      · exact ih (by omega) hmem

theorem not_mem_of_queuedReadies {xs : List (Origin × BackendMessage)} (h : queuedReadies xs = 0)
    (o : Origin) (status : TransactionStatus) : (o, .readyForQuery status) ∉ xs := fun hmem =>
  not_mem_of_readies h status (List.mem_map.mpr ⟨_, hmem, rfl⟩)

/-! ## Honest connections -/

namespace Conn

variable {u : Upstream σ} {status : σ → TransactionStatus} {c : Conn σ}

/-- A `ReadyForQuery` in the inbox carries the status of the server. -/
def Honest (status : σ → TransactionStatus) (c : Conn σ) : Prop :=
  ∀ o st, (o, .readyForQuery st) ∈ c.inbox → st = status c.backend

theorem Quiet.honest (h : c.Quiet u) : c.Honest status := by
  intro o st hmem
  rw [h.inbox] at hmem
  exact absurd hmem List.not_mem_nil

theorem Honest.noted (h : c.Honest status) (m : BackendMessage) : (c.noted m).Honest status := by
  cases m <;> exact h

theorem Honest.take (h : c.Honest status) {o : Origin} {m : BackendMessage}
    {rest : List (Origin × BackendMessage)} (hin : c.inbox = (o, m) :: rest) :
    { c with inbox := rest, consumed := c.consumed + m.ready }.Honest status :=
  fun o' st hmem => h o' st (hin ▸ List.mem_cons_of_mem _ hmem)

theorem send_honest (hu : u.InOrder) (hr : u.Reports status) (hp : c.pending u = 0) (o : Origin)
    (m : FrontendMessage) : (c.send u o m).Honest status := by
  intro o' st hmem
  rw [send_inbox] at hmem
  rw [send_backend]
  have hin : queuedReadies c.inbox = 0 := by unfold pending at hp; omega
  rcases List.mem_append.mp hmem with hmem | hmem
  · exact absurd hmem (not_mem_of_queuedReadies hin o' st)
  rcases List.mem_append.mp hmem with hmem | hmem
  · exact absurd hmem (not_mem_of_queuedReadies (answer_readies_zero hu hp).1 o' st)
  · obtain ⟨x, hx, heq⟩ := List.mem_map.mp hmem
    cases heq
    exact hr.respond _ m st (owed_answer_le hu hp m) hx

theorem send_copy_honest (hu : u.InOrder) (hr : u.Reports status) (ht : c.Tame u)
    (h : c.Honest status) (o : Origin) {m : FrontendMessage} (hm : m.isCopy = true) :
    (c.send u o m).Honest status := by
  by_cases hp : c.pending u = 0
  · exact send_honest hu hr hp o m
  have hout := ht.outbox hp
  have hle := ht.pending_le
  have hcyc := FrontendMessage.cycles_of_isCopy hm
  intro o' st hmem
  rw [send_inbox, hout] at hmem
  rw [send_backend, hout]
  by_cases hq : queuedReadies c.inbox = 0
  · rcases List.mem_append.mp hmem with hmem | hmem
    · exact absurd hmem (not_mem_of_queuedReadies hq o' st)
    · obtain ⟨x, hx, heq⟩ := List.mem_map.mp hmem
      cases heq
      refine hr.respond _ m st ?_ hx
      show u.owed c.backend + m.cycles ≤ 1
      unfold pending at hle
      omega
  · -- The answer is already out, and the stray COPY message changes nothing.
    have hcopy := ht.copying hq
    have hnil : (u.respond c.backend m).2 = [] := (hu.stray_copy _ m hm hcopy).1
    have hstat : status (u.respond c.backend m).1 = status c.backend :=
      hr.stray_copy _ m hm hcopy
    rcases List.mem_append.mp hmem with hmem | hmem
    · exact (h o' st hmem).trans hstat.symm
    · have hmem' : (o', .readyForQuery st) ∈ (u.respond c.backend m).2.map fun x => (o, x) := hmem
      rw [hnil] at hmem'
      exact absurd hmem' List.not_mem_nil

/-- Forwarding a message with one cycle open at most. -/
theorem put_honest (hu : u.InOrder) (hr : u.Reports status) (ht : c.Tame u)
    (h : c.Honest status) (o : Origin) {m : FrontendMessage}
    (hone : m.isCopy = true ∨ c.pending u = 0) :
    (if m.triggersResponse then c.send u o m else c.feed o m).Honest status := by
  split
  · rcases hone with hcopy | hp
    · exact send_copy_honest hu hr ht h o hcopy
    · exact send_honest hu hr hp o m
  · exact h

theorem cancel_honest (hr : u.Reports status) (ht : c.Tame u)
    (h : c.Honest status) : (c.cancel u).Honest status := by
  intro o st hmem
  rcases List.mem_append.mp hmem with hmem | hmem
  · by_cases hq : queuedReadies c.inbox = 0
    · exact absurd hmem (not_mem_of_queuedReadies hq o st)
    · have hle := ht.pending_le
      have howed : u.owed c.backend = 0 := by unfold pending at hle; omega
      exact (h o st hmem).trans (hr.interrupt_idle _ howed (ht.copying hq)).symm
  · obtain ⟨x, hx, heq⟩ := List.mem_map.mp hmem
    cases heq
    exact hr.interrupt _ st hx

/-! ## Connections at rest outside a transaction -/

/-- Quiet, and outside a transaction for the proxy and for the server. -/
structure AtRest (u : Upstream σ) (status : σ → TransactionStatus) (c : Conn σ) : Prop where
  quiet : c.Quiet u
  cached : c.transactionStatus = .idle
  server : status c.backend = .idle

/-- An exchange of the proxy's own messages. -/
theorem exchange_atRest (hu : u.InOrder) (hr : u.Reports status) {c' : Conn σ} {m : FrontendMessage}
    {fails : BackendMessage → Bool} (ht : c.Tame u) (hp : c.pending u = 0)
    (hs : status c.backend = .idle) (hout : ∀ x ∈ c.outbox, x.2.Housekeeping) (hm : m.Housekeeping)
    (h : readReply fails (c.send u .proxy m).inbox (c.send u .proxy m) = .ok c') :
    c'.AtRest u status := by
  have hq := readReply_quiet (send_tame hu ht hp .proxy m) h
  obtain ⟨pre, o, st, rest, hx, _, _, hst, _, hb, _⟩ := readReply_spec h
  have hidle : status (c.send u .proxy m).backend = .idle := by
    rw [send_backend]
    exact hr.housekeeping _ m hm (hr.answer_idle _ _ hout hs)
  have hmem : (o, .readyForQuery st) ∈ (c.send u .proxy m).inbox :=
    hx ▸ List.mem_append_right _ List.mem_cons_self
  refine ⟨hq, ?_, by rw [hb]; exact hidle⟩
  rw [hst, send_honest hu hr hp .proxy m o st hmem, hidle]

theorem idle_exchanges (hu : u.InOrder) (hr : u.Reports status) :
    Exchanges u (AtRest u status) where
  set c c' name value h hq := by
    refine exchange_atRest hu hr h.quiet.tame h.quiet.pending h.server ?_
      (.inr (.inr (.inr ⟨name, value, rfl⟩))) hq
    simp [h.quiet.outbox]
  cached c name value h :=
    ⟨(quiet_exchanges hu).cached c name value h.quiet, h.cached, h.server⟩
  discard c c' h hq := by
    refine exchange_atRest hu hr h.quiet.tame h.quiet.pending h.server ?_
      (.inr (.inr (.inl rfl))) hq
    simp [h.quiet.outbox]
  sync c c' h hc := by
    refine exchange_atRest hu hr h.quiet.tame h.quiet.pending h.server ?_ (.inl rfl) hc
    simp [h.quiet.outbox]
  replay c c' registry h hrep := by
    unfold StatementRegistry.replay at hrep
    split at hrep
    · cases hrep
      exact h
    · obtain ⟨ht, hp⟩ := feedParses_tame registry.entries h.quiet.tame h.quiet.pending
      obtain ⟨hb, hout⟩ := feedParses_spec registry.entries c
      refine exchange_atRest hu hr ht hp (hb ▸ h.server) ?_ (.inl rfl) hrep
      rw [hout, h.quiet.outbox]
      intro x hx
      obtain ⟨e, _, rfl⟩ := List.mem_map.mp hx
      exact .inr (.inl ⟨_, _, _, rfl⟩)

/-! ## Cleaning a connection -/

theorem drainWithin_honest (n : Nat) (c : Conn σ) (h : c.Honest status)
    (hd : (drainWithin n c).2 = true) :
    (drainWithin n c).1.transactionStatus = status (drainWithin n c).1.backend := by
  fun_induction drainWithin n c with
  | case1 c => cases hd
  | case2 c n hin => cases hd
  | case3 n c o st rest hin => exact h o st (hin ▸ List.mem_cons_self)
  | case4 n c o name value rest hin ih => exact ih (h.take hin) hd
  | case5 n c x rest _ _ hin ih => exact ih (h.take (o := x.1) (m := x.2) hin) hd

theorem settling_honest (hu : u.InOrder) (hr : u.Reports status) (ht : c.Tame u)
    (h : c.Honest status) (sendCopyFail awaiting : Bool) :
    (settling u c sendCopyFail awaiting).Honest status := by
  have hfail := send_copy_honest hu hr ht h .proxy
    (m := .copyFail "pgferry: client disconnected during COPY") rfl
  have htame := send_copy_tame hu ht .proxy
    (m := .copyFail "pgferry: client disconnected during COPY") rfl
  cases sendCopyFail <;> cases awaiting
  · exact h
  · exact cancel_honest hr ht h
  · exact hfail
  · exact cancel_honest hr htame hfail

/-- A `Sync` on a connection with no cycle open reads the status of the server. -/
theorem closeCycle_honest (hu : u.InOrder) (hr : u.Reports status) {c' : Conn σ}
    (hp : c.pending u = 0) (hc : closeCycle u c = .ok c') :
    c'.transactionStatus = status c'.backend := by
  obtain ⟨pre, o, st, rest, hx, _, _, hst, _, hb, _⟩ := readReply_spec hc
  have hmem : (o, .readyForQuery st) ∈ (c.send u .proxy .sync).inbox :=
    hx ▸ List.mem_append_right _ List.mem_cons_self
  rw [hst, hb]
  exact send_honest hu hr hp .proxy .sync o st hmem

theorem settle_honest (hu : u.InOrder) (hr : u.Reports status) {c' : Conn σ}
    {sendCopyFail awaiting : Bool} {arrived : Nat} (ht : c.Tame u) (h : c.Honest status)
    (hp : c.pending u ≠ 0 → (drainWithin arrived (settling u c sendCopyFail awaiting)).2 = true)
    (hs : settle u c sendCopyFail awaiting arrived = .ok c') :
    c'.transactionStatus = status c'.backend := by
  obtain ⟨htame, hpend⟩ := settling_tame hu ht sendCopyFail awaiting
  have hdrain := drainWithin_honest arrived _ (settling_honest hu hr ht h sendCopyFail awaiting)
  obtain ⟨_, _, h3⟩ := drainWithin_tame arrived _ htame
  unfold settle at hs
  split at hs
  case h_1 d heq =>
    rw [heq] at hdrain
    cases hs
    exact hdrain rfl
  case h_2 d heq =>
    rw [heq] at h3 hp
    have hzero : c.pending u = 0 := by
      by_contra hne
      cases hp hne
    exact closeCycle_honest hu hr ((h3 rfl).trans (hpend.trans hzero)) hs

theorem stopRunning_honest (hu : u.InOrder) (hr : u.Reports status) {c' : Conn σ} {h : Hygiene}
    {arrived : Nat} (ht : c.Tame u) (hc : c.Honest status)
    (hd : c.pending u ≠ 0 → drainsInTime u c h arrived = true)
    (hs : stopRunning u c h arrived = .ok c') : c'.transactionStatus = status c'.backend := by
  obtain ⟨awaiting, copy⟩ := h
  unfold stopRunning at hs
  unfold drainsInTime Hygiene.settles at hd
  dsimp only at hs hd
  by_cases hcopy : copy = .clientOwesCopy
  · rw [if_pos hcopy] at hs
    exact settle_honest hu hr ht hc (by simpa [hcopy] using hd) hs
  · rw [if_neg hcopy] at hs
    cases awaiting with
    | true => exact settle_honest hu hr ht hc (by simpa [hcopy] using hd) hs
    | false =>
        refine closeCycle_honest hu hr ?_ (by simpa using hs)
        by_contra hne
        simp [hcopy] at hd
        exact hne hd

theorem rollback_atRest (hu : u.InOrder) (hr : u.Reports status) {c' : Conn σ} (hq : c.Quiet u)
    (hc : c.transactionStatus = status c.backend) (h : rollback u c = .ok c') :
    c'.AtRest u status := by
  unfold rollback at h
  split at h
  case isTrue =>
    obtain ⟨hb, hclean⟩ := simpleQuery_clean hu hq h
    have hidle : status c'.backend = .idle := by
      rw [hb]
      exact hr.rollback _ hclean
    obtain ⟨pre, o, st, rest, hx, _, _, hst, _, hb', _⟩ := readReply_spec h
    have hmem : (o, .readyForQuery st) ∈ (c.send u .proxy (.query "ROLLBACK")).inbox :=
      hx ▸ List.mem_append_right _ List.mem_cons_self
    refine ⟨simpleQuery_quiet hu hq h, ?_, hidle⟩
    rw [hst, send_honest hu hr hq.pending .proxy _ o st hmem, ← hb', hidle]
  case isFalse hidle =>
    cases h
    have hidle' : c.transactionStatus = .idle := not_not.mp hidle
    exact ⟨hq, hidle', hc ▸ hidle'⟩

/-- `sanitize` leaves the connection outside a transaction, unless the cycle it has to end
    answers late. -/
theorem sanitize_atRest (hu : u.InOrder) (hr : u.Reports status) {c' : Conn σ} {h : Hygiene}
    {arrived : Nat} (ht : c.Tame u) (hc : c.Honest status)
    (hd : c.pending u ≠ 0 → drainsInTime u c h arrived = true)
    (hs : sanitize u c h arrived = .ok c') : c'.AtRest u status := by
  obtain ⟨c₁, c₂, h1, h2, h3⟩ := sanitize_ok hs
  have hrest := rollback_atRest hu hr (stopRunning_quiet hu ht hd h1)
    (stopRunning_honest hu hr ht hc hd h1) h2
  exact (idle_exchanges hu hr).discard _ _ hrest h3

end Conn

/-! ## The pools -/

section Pools

variable {u : Upstream σ} {status : σ → TransactionStatus}

/-- A pooled connection is quiet and outside a transaction. -/
def IdlePool (u : Upstream σ) (status : σ → TransactionStatus) (_ : PoolKey) (c : Conn σ) : Prop :=
  c.AtRest u status

theorem idle_probe (hu : u.InOrder) (hr : u.Reports status) : ProbeKeeps u (IdlePool u status) :=
  fun _ c c' hc hp => (idle_exchanges hu hr).sync c c' hc hp

theorem idle_baseline (hu : u.InOrder) (hr : u.Reports status) :
    BaselineKeeps u (IdlePool u status) := fun _ _ _ hc hs =>
  sanitize_atRest hu hr hc.quiet.tame hc.quiet.honest (fun h => absurd hc.quiet.pending h) hs

/-- Executing `sql` outside a transaction opens none. -/
def OpensNone (u : Upstream σ) (status : σ → TransactionStatus) (sql : String) : Prop :=
  ∀ b, status b = .idle → status (u.respond b (.query sql)).1 = .idle

/-- A leg on a connection with no cycle open reads the status of the server. -/
theorem runQueryCollect_honest (hu : u.InOrder) (hr : u.Reports status) {c : Conn σ}
    {sql : String} (hp : c.pending u = 0) (hb : (runQueryCollect u c sql).broken = false) :
    (runQueryCollect u c sql).conn.transactionStatus =
      status (runQueryCollect u c sql).conn.backend := by
  unfold runQueryCollect at hb ⊢
  obtain ⟨pre, o, st, rest, hx, _, hst, _, hback, _⟩ := collectReply_spec hb
  have hmem : (o, .readyForQuery st) ∈ (c.send u .proxy (.query sql)).inbox :=
    hx ▸ List.mem_append_right _ List.mem_cons_self
  rw [hst, hback]
  exact send_honest hu hr hp .proxy _ o st hmem

/-- A leg that opens no transaction. -/
theorem runQueryCollect_atRest (hu : u.InOrder) (hr : u.Reports status) {c : Conn σ}
    {sql : String} (h : c.AtRest u status) (hsql : OpensNone u status sql)
    (hb : (runQueryCollect u c sql).broken = false) :
    (runQueryCollect u c sql).conn.AtRest u status := by
  have hq := runQueryCollect_quiet hu h.quiet.tame h.quiet.pending hb
  have hst := runQueryCollect_honest hu hr h.quiet.pending hb
  have hidle : status (runQueryCollect u c sql).conn.backend = .idle := by
    unfold runQueryCollect at hb ⊢
    obtain ⟨_, _, _, _, _, _, _, _, hback, _⟩ := collectReply_spec hb
    rw [hback, send_backend, h.quiet.outbox]
    exact hsql _ h.server
  exact ⟨hq, hst.trans hidle, hidle⟩

theorem idle_leg (hu : u.InOrder) (hr : u.Reports status) (startup : Params) {sql : String}
    (hsql : OpensNone u status sql) : LegKeeps u (IdlePool u status) startup sql := by
  intro key base c c' hbase hsync hb hd
  have hc : c.AtRest u status := (idle_exchanges hu hr).syncParameters hbase hsync
  exact (idle_exchanges hu hr).discardIfDirty (runQueryCollect_atRest hu hr hc hsql hb) hd

end Pools

/-! ## The sample server -/

/-- The proxy's own statements mean what they mean in PostgreSQL. -/
structure Dialect.Standard (d : Dialect) : Prop where
  set : ∀ name value, d.effect (setSql name value) ≠ .begin
  discard : d.effect "DISCARD ALL" ≠ .begin
  rollback : d.effect "ROLLBACK" = .commit

namespace Pg

variable {d : Dialect}

theorem execute_status {b : Pg} (hb : b.status = .idle) {e : Effect} (he : e ≠ .begin) :
    (execute d b e).1.status = .idle := by
  unfold execute
  rw [if_neg (fun h => by rw [hb] at h; cases h.1)]
  cases e <;> simp_all [failed]

theorem extended_status {b : Pg} (hb : b.status = .idle) (name : Option String) (query : String)
    (typeOids : List Nat) : (extended d b (.parse name query typeOids)).1.status = .idle := by
  unfold extended
  dsimp only
  split
  · simp [skip, failed, release, hb]
  · split
    · simp [skip, failed, release, hb]
    · exact hb

theorem process_query {b : Pg} (hb : b.status = .idle) {sql : String}
    (hsql : d.effect sql ≠ .begin) : (process d b (.query sql)).1.status = .idle := by
  unfold process
  dsimp only
  split
  · exact hb
  · exact execute_status (b := { b with skipping := false }) hb hsql

theorem process_housekeeping (hd : d.Standard) {b : Pg} (hb : b.status = .idle)
    {m : FrontendMessage} (hm : m.Housekeeping) : (process d b m).1.status = .idle := by
  rcases hm with rfl | ⟨name, query, typeOids, rfl⟩ | rfl | ⟨name, value, rfl⟩
  · exact hb
  · unfold process
    dsimp only
    split
    · exact hb
    · exact extended_status hb name query typeOids
  · exact process_query hb hd.discard
  · exact process_query hb (hd.set name value)

theorem process_ready {b : Pg} {m : FrontendMessage} {st : TransactionStatus}
    (h : .readyForQuery st ∈ (process d b m).2) : st = (process d b m).1.status := by
  have hext : ∀ m, .readyForQuery st ∉ (extended d b m).2 :=
    fun m => not_mem_of_readies (extended_readies d b m) st
  unfold process at h ⊢
  split at h
  · dsimp only at h ⊢
    split at h
    case isTrue => simp at h
    case isFalse hc =>
      rw [if_neg hc]
      rcases List.mem_append.mp h with h | h
      · exact absurd h (not_mem_of_readies (execute_readies d _ _) st)
      · simpa using h
  · simpa using h
  · split at h
    · cases h
    · exact absurd h (hext m)

theorem failed_status {b : Pg} (hb : b.status = .idle) : b.failed.status = .idle := by
  simp [failed, hb]

end Pg

theorem pg_reports {d : Dialect} (hd : d.Standard) : (pg d).Reports Pg.status where
  respond b m st hle h := by
    show st = (Pg.respond d b m).1.status
    have h' : .readyForQuery st ∈ (Pg.respond d b m).2 := h
    by_cases hb : b.copying = true
    · have hm : m.cycles = 0 := by
        have : (pg d).owed b = 1 := by simp [pg, hb]
        omega
      unfold Pg.respond at h' ⊢
      rw [if_pos hb] at h' ⊢
      cases m <;> simp_all [Pg.error, FrontendMessage.cycles]
    · unfold Pg.respond at h' ⊢
      rw [if_neg hb] at h' ⊢
      exact Pg.process_ready h'
  interrupt b st h := by
    show st = (Pg.interrupt b).1.status
    have h' : .readyForQuery st ∈ (Pg.interrupt b).2 := h
    unfold Pg.interrupt at h' ⊢
    split at h'
    · simp_all [Pg.error]
    · cases h'
  stray_copy b m hm hb := by
    have hb' : b.copying = false := hb
    show (Pg.respond d b m).1.status = b.status
    simp [Pg.respond, hb', Pg.process_copy d b hm]
  interrupt_idle b _ hb := by
    have hb' : b.copying = false := hb
    simp [pg, Pg.interrupt, hb']
  rollback b _ := by
    have hprocess : ∀ b, (Pg.process d b (.query "ROLLBACK")).1.status = .idle := by
      intro b
      simp [Pg.process, hd.rollback, Pg.execute]
    show (Pg.respond d b (.query "ROLLBACK")).1.status = .idle
    unfold Pg.respond
    split
    · exact hprocess b.failed
    · exact hprocess b
  housekeeping b m hm hb := by
    show (Pg.respond d b m).1.status = .idle
    unfold Pg.respond
    split
    · rcases hm with rfl | ⟨name, query, typeOids, rfl⟩ | rfl | ⟨name, value, rfl⟩
      · exact Pg.process_housekeeping hd (Pg.failed_status hb) (.inl rfl)
      · exact Pg.failed_status hb
      · exact Pg.process_housekeeping hd (Pg.failed_status hb) (.inr (.inr (.inl rfl)))
      · exact Pg.process_housekeeping hd (Pg.failed_status hb)
          (.inr (.inr (.inr ⟨name, value, rfl⟩)))
    · exact Pg.process_housekeeping hd hb hm

theorem pg_opensNone {d : Dialect} {sql : String} (h : d.effect sql ≠ .begin) :
    OpensNone (pg d) Pg.status sql := by
  intro b hb
  show (Pg.respond d b (.query sql)).1.status = .idle
  unfold Pg.respond
  split
  · exact Pg.process_query (Pg.failed_status hb) h
  · exact Pg.process_query hb h

theorem Dialect.sample_begin {sql : String} (h : Dialect.sample.effect sql = .begin) :
    sql = "BEGIN" := by
  simp only [Dialect.sample, List.lookup_cons, List.lookup_nil] at h
  repeat' split at h
  all_goals simp_all

theorem Dialect.sample_standard : Dialect.sample.Standard where
  set name value h := by
    have := congrArg String.toList (Dialect.sample_begin h)
    simp [setSql] at this
  discard := by decide
  rollback := by decide

end Pgferry
