/-
  A transaction of the client and the connection it runs on.

  When the connection is lost and the session goes on, the client's transaction is gone. An
  observer follows the log of a session and, after each move, the status of its server (`Note`).
  `Fate` is what it makes of them: whether the client is still owed an error for a lost
  transaction when a message is forwarded on another connection (`split`), and whether a
  `ReadyForQuery` claims a transaction that no server has been in since the loss (`misled`).

  The pump answers a loss with an error when it takes the cycle for interrupted; it does not look
  at the transaction status. A connection that is closed while the client is idle inside a
  transaction is replaced without a word, and the downstream copy of the status stays.

  Proved: `transactions_whole`, in every run whose losses are answered, or hit no transaction
  (`Covered`), nothing is split and nobody is misled.
-/
import Pgferry.Session.Agree
import Pgferry.Session.Entries

namespace Pgferry

open Loop

variable {σ κ : Type}

/-! ## What an observer sees -/

inductive Note where
  | entry (e : Entry)
  /-- The status of the session's server after a move. -/
  | server (status : TransactionStatus)

structure Fate where
  /-- The status of the last `ReadyForQuery`. -/
  status : TransactionStatus := .idle
  /-- A message was forwarded since the last `ReadyForQuery`. -/
  begun : Bool := false
  /-- A transaction was lost and the client was sent no error since. -/
  owed : Bool := false
  /-- The connection was lost and no server was in a transaction since. -/
  bare : Bool := false
  /-- A message was forwarded while an error was owed. -/
  split : Bool := false
  /-- A `ReadyForQuery` with another status than `Idle` was sent while bare. -/
  misled : Bool := false

namespace Fate

/-- The transaction of the client: it is told of one, or a cycle of its own has begun. -/
def inTransaction (f : Fate) : Bool := f.begun || decide (f.status ≠ .idle)

def entry (f : Fate) : Entry → Fate
  | .forwarded _ _ _ => { f with begun := true, split := f.split || f.owed }
  | .sent _ _ (.errorResponse _) => { f with owed := false }
  | .sent _ _ (.readyForQuery st) =>
      { f with
        status := st
        begun := false
        misled := f.misled || f.bare && decide (st ≠ .idle) }
  | .lost _ _ .relink => { f with owed := f.owed || f.inTransaction, bare := true }
  | _ => f

def note (f : Fate) : Note → Fate
  | .entry e => f.entry e
  | .server st => { f with bare := f.bare && decide (st = .idle) }

/-- No transaction was split over two connections behind the client's back, and no
    `ReadyForQuery` has claimed one that was lost. -/
def Whole (f : Fate) : Prop := f.split = false ∧ f.misled = false

instance (f : Fate) : Decidable f.Whole := inferInstanceAs (Decidable (_ ∧ _))

end Fate

def fate (notes : List Note) : Fate := notes.foldl Fate.note {}

/-- The status of the server that the session is attached to, `Idle` without one. -/
def Core.serverStatus (status : σ → TransactionStatus) (c : Core σ) : TransactionStatus :=
  (c.lease.map fun l => status l.conn.backend).getD .idle

/-- What a move adds to the log, and the server after it. -/
def Session.notes (env : Env σ) (status : σ → TransactionStatus) (s : Session σ κ) (m : Move σ) :
    List Note :=
  ((s.move env m).log.drop s.log.length).map .entry ++
    [.server ((s.move env m).toCore.serverStatus status)]

/-! ## Losses that the client learns of -/

/-- The connection may be lost in the state `c`: the pump answers with an error (`synth`), or the
    client has no transaction; and the downstream status is set to `Idle`, or is `Idle`, or is
    never read. -/
def SafeLoss (transactionMode : Bool) (f : Fate) (c : Core σ) (synth : Bool) : Prop :=
  (synth = true ∨ f.inTransaction = false) ∧
    (synth = true ∧ c.cycleIsExtended = false ∨
      (transactionMode = true → c.downstreamStatus = .idle))

instance (tm : Bool) (f : Fate) (c : Core σ) (synth : Bool) : Decidable (SafeLoss tm f c synth) :=
  inferInstanceAs (Decidable (_ ∧ _))

/-- Every loss that the move can bring about is safe. -/
def Session.Covered (env : Env σ) (p : Session σ κ × List Note) : Move σ → Prop
  | .own (.client m t) => p.1.ended = none → t.sendOk = false →
      SafeLoss env.transactionMode (fate p.2) (p.1.toCore.note m)
        (p.1.hygiene.awaitingResponse || m.startsResponse || decide (0 < p.1.fedSinceRfq))
  | .own .upstreamClosed => p.1.ended = none → p.1.lease.isSome = true →
      SafeLoss env.transactionMode (fate p.2) p.1.toCore p.1.hygiene.awaitingResponse
  | _ => True

instance (env : Env σ) (p : Session σ κ × List Note) : ∀ m, Decidable (Session.Covered env p m)
  | .own (.client _ _) => inferInstanceAs (Decidable (_ → _ → _))
  | .own .upstreamClosed => inferInstanceAs (Decidable (_ → _ → _))
  | .own .clientGone | .own .upstream | .own (.upstreamError _) | .own .cancel | .own .shutdown =>
      isTrue trivial
  | .others _ => isTrue trivial

/-! ## Entries without a loss -/

/-- A `ReadyForQuery` that the entry sends carries the status `Idle`. -/
def Entry.saysIdle : Entry → Bool
  | .sent _ _ (.readyForQuery st) => decide (st = .idle)
  | _ => true

namespace Fate

variable {f : Fate} {es : List Entry}

/-- Without a loss no error comes to be owed. -/
theorem unowed (hes : ∀ e ∈ es, e.relinks = false) (h : f.owed = false) :
    (es.foldl entry f).owed = false ∧ (es.foldl entry f).split = f.split ∧
      (es.foldl entry f).bare = f.bare := by
  induction es generalizing f with
  | nil => exact ⟨h, rfl, rfl⟩
  | cons e es ih =>
      have hstep : (f.entry e).owed = false ∧ (f.entry e).split = f.split ∧
          (f.entry e).bare = f.bare := by
        cases e with
        | forwarded pid seq m => exact ⟨h, by simp [entry, h], rfl⟩
        | sent own o m => cases m <;> exact ⟨by first | exact h | rfl, rfl, rfl⟩
        | lost endpoint reported decision =>
            cases decision with
            | relink => cases hes _ List.mem_cons_self
            | close => exact ⟨h, rfl, rfl⟩
        | _ => exact ⟨h, rfl, rfl⟩
      obtain ⟨h1, h2, h3⟩ := ih (fun x hx => hes x (List.mem_cons_of_mem _ hx)) hstep.1
      exact ⟨h1, h2.trans hstep.2.1, h3.trans hstep.2.2⟩

/-- Nobody is misled by the status `Idle`, or while the connection was not lost. -/
theorem not_misled (hes : ∀ e ∈ es, e.relinks = false)
    (h : f.bare = true → ∀ e ∈ es, e.saysIdle = true) : (es.foldl entry f).misled = f.misled := by
  induction es generalizing f with
  | nil => rfl
  | cons e es ih =>
      have hstep : (f.entry e).bare = f.bare ∧ (f.entry e).misled = f.misled := by
        cases e with
        | sent own o m =>
            cases m with
            | readyForQuery st =>
                refine ⟨rfl, ?_⟩
                cases hb : f.bare with
                | false => simp [entry, hb]
                | true =>
                    have hst : st = .idle := of_decide_eq_true (h hb _ List.mem_cons_self)
                    simp [entry, hst]
            | _ => exact ⟨rfl, rfl⟩
        | lost endpoint reported decision =>
            cases decision with
            | relink => cases hes _ List.mem_cons_self
            | close => exact ⟨rfl, rfl⟩
        | _ => exact ⟨rfl, rfl⟩
      refine (ih (fun x hx => hes x (List.mem_cons_of_mem _ hx)) fun hb x hx => ?_).trans hstep.2
      exact h (hstep.1.symm.trans hb) x (List.mem_cons_of_mem _ hx)

/-- The pump's own errors and `Idle` answers keep a fate whole. -/
theorem Whole.answers (h : f.Whole)
    (hes : ∀ e ∈ es, e.saysIdle = true ∧ ∃ own o m, e = .sent own o m) :
    (es.foldl entry f).Whole := by
  induction es generalizing f with
  | nil => exact h
  | cons e es ih =>
      refine ih ?_ fun x hx => hes x (List.mem_cons_of_mem _ hx)
      obtain ⟨hidle, own, o, m, rfl⟩ := hes e List.mem_cons_self
      cases m with
      | readyForQuery st =>
          have hst : st = .idle := of_decide_eq_true hidle
          refine ⟨h.1, ?_⟩
          simp [entry, hst, h.2]
      | _ => exact h

end Fate

namespace Core

variable {status : σ → TransactionStatus} {tm : Bool} {c d : Core σ}

/-- Every copy of the status that can be sent is `Idle`, and so is the server's. -/
structure Settled (tm : Bool) (status : σ → TransactionStatus) (c : Core σ) : Prop where
  downstream : tm = true → c.downstreamStatus = .idle
  cached : c.leaseStatus = .idle
  server : c.serverStatus status = .idle

theorem serverStatus_some {lease : UpstreamLease σ} (h : c.lease = some lease) :
    c.serverStatus status = status lease.conn.backend := by
  rw [serverStatus, h]
  rfl

theorem settled_of_none (hd : tm = true → c.downstreamStatus = .idle) (hl : c.lease = none) :
    c.Settled tm status :=
  ⟨hd, leaseStatus_none hl, by rw [serverStatus, hl]; rfl⟩

/-! ## Losing the connection -/

section Lost

variable {i : Option (Interceptor κ)} {lease : UpstreamLease σ} {reason : String} {synth : Bool}
  {f : Fate}

theorem answers_idle {c : Core σ} {ms : List BackendMessage} {pre : List Entry}
    (h : pre <+: c.answers ms) (hms : ∀ st, .readyForQuery st ∈ ms → st = .idle) :
    ∀ e ∈ pre, e.saysIdle = true ∧ ∃ own o m, e = .sent own o m := by
  intro e he
  obtain ⟨m, hm, rfl⟩ := List.mem_map.mp (h.subset he)
  refine ⟨?_, _, _, _, rfl⟩
  cases m with
  | readyForQuery st => exact decide_eq_true (hms st hm)
  | _ => rfl

/-- A safe loss leaves the fate whole, and a session that goes on settled. -/
theorem lost_fate (status : σ → TransactionStatus) (h : Lost i c lease reason synth d)
    (hw : f.Whole) (ho : f.owed = false) (hsafe : SafeLoss tm f c synth) :
    ∃ es, d.log = c.log ++ es ∧ (es.foldl Fate.entry f).Whole ∧
      (d.ended = none → (es.foldl Fate.entry f).owed = false ∧ d.Settled tm status) := by
  have hlost : (f.entry (c.lostEntry lease .relink)).Whole := hw
  -- What is said before the client goes away.
  have hcut : ∀ {ms : List BackendMessage} {pre : List Entry} {endpoint : Option String}
      {attached : Bool}, pre <+: c.answers ms →
      (∀ st, .readyForQuery st ∈ ms → st = .idle) →
      d = { ((c.emit [c.lostEntry lease .relink]).unleased.emit pre).stop .clientGone with
        currentEndpoint := endpoint, attached := attached } →
      ∃ es, d.log = c.log ++ es ∧ (es.foldl Fate.entry f).Whole ∧
        (d.ended = none → (es.foldl Fate.entry f).owed = false ∧ d.Settled tm status) := by
    rintro ms pre endpoint attached hpre hms rfl
    refine ⟨c.lostEntry lease .relink :: pre, List.append_assoc _ _ _, ?_, nofun⟩
    exact hlost.answers (answers_idle hpre hms)
  cases h with
  | closed hi => exact ⟨[c.lostEntry lease .close], rfl, hw, nofun⟩
  | silent hs =>
      refine ⟨[c.lostEntry lease .relink], rfl, hlost, fun _ => ⟨?_, ?_⟩⟩
      · have hfree : f.inTransaction = false := hsafe.1.resolve_left (by rw [hs]; nofun)
        show (f.owed || f.inTransaction) = false
        rw [ho, hfree]
        rfl
      · exact settled_of_none (hsafe.2.resolve_left (by rw [hs]; nofun)) rfl
  | simple _ hs hk h =>
      have hms : ∀ st, .readyForQuery st ∈ [BackendMessage.errorResponse Session.lostInfo,
          .readyForQuery .idle] → st = .idle := by
        intro st hst
        simpa using hst
      cases h with
      | done =>
          refine ⟨c.lostEntry lease .relink :: c.answers _, List.append_assoc _ _ _, ?_,
            fun _ => ⟨rfl, settled_of_none (fun _ => rfl) rfl⟩⟩
          exact hlost.answers (answers_idle List.prefix_rfl hms)
      | cut pre endpoint attached hpre => exact hcut hpre hms rfl
  | extended _ hs hk h =>
      have hms : ∀ st, .readyForQuery st ∈ [BackendMessage.errorResponse Session.lostInfo] →
          st = .idle := by
        intro st hst
        simp at hst
      cases h with
      | done =>
          refine ⟨c.lostEntry lease .relink :: c.answers _, List.append_assoc _ _ _, ?_,
            fun _ => ⟨rfl, settled_of_none ?_ rfl⟩⟩
          · exact hlost.answers (answers_idle List.prefix_rfl hms)
          · exact hsafe.2.resolve_left fun h => by rw [hk] at h; cases h.2
      | cut pre endpoint attached hpre => exact hcut hpre hms rfl

end Lost

/-! ## Staying settled -/

section Steps

variable {env : Env σ} {i : Option (Interceptor κ)} {s : Session σ κ} {e : Event}

/-- A `ReadyForQuery` that is read sets both copies of the status; nothing else does. -/
theorem readNext_copies {o : Origin} {m : BackendMessage} (h : c.readNext tm = some (o, m, d)) :
    m.ready = 0 ∧ d.downstreamStatus = c.downstreamStatus ∧ d.leaseStatus = c.leaseStatus ∨
      ∃ st, m = .readyForQuery st ∧ d.downstreamStatus = st ∧ d.leaseStatus = st := by
  obtain ⟨lease, rest, hlease, hin, _, htrack, hd⟩ := readNext_spec h
  by_cases hm : m.ready = 1
  · cases m with
    | readyForQuery st =>
        exact .inr ⟨st, rfl, by rw [htrack]; rfl, by rw [leaseStatus_some hd]; rfl⟩
    | _ => cases hm
  · have hm0 : m.ready = 0 := by have := m.ready_le_one; omega
    obtain ⟨h1, h2, _⟩ := track_downstream tm { c with lease := some { lease with conn :=
      { lease.conn with
        inbox := rest
        consumed := lease.conn.consumed + m.ready } } } m hm0
    refine .inl ⟨hm0, by rw [htrack, h1], ?_⟩
    rw [htrack, h2, leaseStatus_some hlease]
    rfl

/-- What is read while the server is idle says so. -/
theorem readNext_idle {u : Upstream σ} {o : Origin} {m : BackendMessage}
    (h : c.readNext tm = some (o, m, d)) (hc : c.Truthful u status) (hs : c.Settled tm status) :
    (∀ st, m = .readyForQuery st → st = .idle) ∧ (tm = true → d.downstreamStatus = .idle) ∧
      d.leaseStatus = .idle := by
  have hread : ∀ st, m = .readyForQuery st → st = .idle := by
    rintro st rfl
    obtain ⟨lease, rest, hlease, hin, _⟩ := readNext_spec h
    have hserver : status lease.conn.backend = .idle :=
      (serverStatus_some hlease).symm.trans hs.server
    exact (hc.honest lease hlease o st (hin ▸ List.mem_cons_self)).trans hserver
  rcases readNext_copies h with ⟨_, h1, h2⟩ | ⟨st, rfl, h1, h2⟩
  · exact ⟨hread, fun ht => h1.trans (hs.downstream ht), h2.trans hs.cached⟩
  · exact ⟨hread, fun _ => h1.trans (hread st rfl), h2.trans (hread st rfl)⟩

/-- The cached status of the connection stays `Idle` as long as the server does. -/
theorem steps_cached (hu : env.upstream.InOrder) (hr : env.upstream.Reports status)
    (hc : s.toCore.Truthful env.upstream status)
    (hone : s.OneCycle env.upstream e) (hs : s.toCore.Settled env.transactionMode status)
    (h : Steps env i (IdlePool env.upstream status) s e d)
    (hd : d.serverStatus status = .idle) : d.leaseStatus = .idle := by
  have htaken : ∀ {m m' : FrontendMessage} {c : Core σ},
      Enters env i (IdlePool env.upstream status) s (s.toCore.recv m) m m' c →
      c.leaseStatus = .idle :=
    fun hent => (taken_agrees hu hr (enters_taken hent)).trans hs.cached
  cases steps_handles h with
  | same hl => exact (leaseStatus_congr hl).trans hs.cached
  | closedName _ _ _ _ _ _ hl => exact leaseStatus_none hl
  | dropped hl => exact leaseStatus_none hl
  | leg sql t lease request leg he hlease ht hb hl =>
      subst he
      have hfree := hone.resolve_left nofun
      rw [outstanding_some hlease] at hfree
      rw [serverStatus_some hl] at hd
      rw [leaseStatus_some hl]
      exact (runQueryCollect_honest hu hr hfree hb).trans hd
  | entered m m' t c he hent hl =>
      rcases hl with hl | hl
      · exact (leaseStatus_congr hl).trans (htaken hent)
      · exact leaseStatus_none hl
  | put m m' m'' t c lease he hent hh hlease hl =>
      rw [leaseStatus_some hl]
      show (if m''.triggersResponse then _ else _ : Conn σ).transactionStatus = .idle
      rw [put_status, ← leaseStatus_some hlease]
      exact htaken hent
  | read o m c he hread hl =>
      exact (leaseStatus_congr hl).trans (readNext_idle hread hc hs).2.2
  | detached _ _ _ _ _ hl => exact leaseStatus_none hl
  | cancelled _ hl =>
      have hcancel : d.leaseStatus = s.leaseStatus := by
        rw [leaseStatus, leaseStatus, hl]
        cases s.lease <;> rfl
      exact hcancel.trans hs.cached

/-- `d` has sent no other status than `Idle` since `c`, and keeps the downstream copy `Idle`. -/
def SaysIdle (tm : Bool) (c d : Core σ) : Prop :=
  Grows (fun e => e.saysIdle = true) c d ∧ (tm = true → d.downstreamStatus = .idle)

/-- One write of the pump's own messages. -/
theorem said_idle {c₁ : Core σ} {ms : List BackendMessage} {f : Core σ → Core σ}
    (h : Said c₁ (c.answers ms) f d) (hlog : Grows (fun e => e.saysIdle = true) c c₁)
    (hdown : tm = true → c₁.downstreamStatus = .idle)
    (hms : ∀ st, .readyForQuery st ∈ ms → st = .idle)
    (hf : ∀ b, (f b).log = b.log ∧
      ((f b).downstreamStatus = b.downstreamStatus ∨ (f b).downstreamStatus = .idle)) :
    SaysIdle tm c d := by
  refine ⟨hlog.trans (.said h (fun e he => (answers_idle List.prefix_rfl hms e he).1) ?_), ?_⟩
  · exact .refl (hf _).1
  · intro ht
    cases h with
    | done => exact (hf _).2.elim (fun hsame => hsame.trans (hdown ht)) fun hidle => hidle
    | cut => exact hdown ht

theorem lost_idle {lease : UpstreamLease σ} {reason : String} {synth : Bool}
    (h : Lost i c lease reason synth d) (hdown : tm = true → c.downstreamStatus = .idle) :
    SaysIdle tm c d := by
  have hlost : Grows (fun e => e.saysIdle = true) c (c.emit [c.lostEntry lease .relink]).unleased :=
    .one rfl rfl
  cases h with
  | closed => exact ⟨.one rfl rfl, hdown⟩
  | silent => exact ⟨.one rfl rfl, hdown⟩
  | simple _ _ _ h => exact said_idle h hlost hdown (by simp) fun _ => ⟨rfl, .inr rfl⟩
  | extended _ _ _ h => exact said_idle h hlost hdown (by simp) fun _ => ⟨rfl, .inl rfl⟩

/-- A settled session answers with `Idle` only. -/
theorem answered_idle {m : FrontendMessage} {t : Timing} (h : Answered env i s c m t d)
    (hsup : ∀ st, Supplied i st → st = .idle)
    (hdown : env.transactionMode = true → c.downstreamStatus = .idle)
    (hcached : c.leaseStatus = .idle) : SaysIdle env.transactionMode c d := by
  have hnote : Grows (fun e => e.saysIdle = true) c (c.note m) := .refl (c.note_log m)
  have hnoted : env.transactionMode = true → (c.note m).downstreamStatus = .idle :=
    fun ht => (c.note_downstream m).trans (hdown ht)
  have hid : ∀ b : Core σ, b.log = b.log ∧
      (b.downstreamStatus = b.downstreamStatus ∨ b.downstreamStatus = .idle) :=
    fun _ => ⟨rfl, .inl rfl⟩
  have hone : ∀ st' st, .readyForQuery st ∈ [BackendMessage.readyForQuery st'] → st = st' :=
    fun st' st h => by simpa using h
  have hscattered : ∀ {request : ScatterRequest} {broken : Bool} {c₁ : Core σ},
      Scattered env.upstream (c.note m) request c₁ broken →
      Grows (fun e => e.saysIdle = true) c c₁ ∧
        (env.transactionMode = true → c₁.downstreamStatus = .idle) := by
    intro request broken c₁ hsc
    cases hsc with
    | pooled => exact ⟨hnote, hnoted⟩
    | leg => exact ⟨hnote.trans (.one rfl rfl), hnoted⟩
  have hreplied : ∀ {input : CycleInput} {ms : List BackendMessage}, Asks i input (.reply ms) →
      ∀ st, .readyForQuery st ∈ ms ++ [.readyForQuery c.leaseStatus] → st = .idle := by
    intro input ms ha st hst
    rcases List.mem_append.mp hst with hst | hst
    · exact hsup st ⟨input, ms, ha, hst⟩
    · exact (hone _ st hst).trans hcached
  have hfailed : ∀ info st, .readyForQuery st ∈ [BackendMessage.errorResponse info,
      .readyForQuery .idle] → st = .idle := by
    intro info st hst
    simpa using hst
  cases h with
  | quit | swallowed | localFlush => exact ⟨.refl rfl, hdown⟩
  | closed => exact ⟨hnote, hnoted⟩
  | resumed _ _ _ h =>
      exact said_idle h (.refl rfl) hdown (fun st hst => (hone _ st hst).trans hcached) hid
  | localSync _ _ ht _ _ h =>
      exact said_idle h (.refl rfl) hdown (fun st hst => (hone _ st hst).trans (hdown ht)) hid
  | localClose _ _ _ _ _ _ _ h => exact said_idle h (.refl rfl) hdown (by simp) hid
  | deniedSimple _ _ _ _ _ _ _ h =>
      exact said_idle h hnote hnoted (by simp [hcached]) hid
  | deniedExtended _ _ _ _ _ _ _ h =>
      exact said_idle h hnote hnoted (by simp) fun _ => ⟨rfl, .inl rfl⟩
  | repliedSimple _ _ _ _ _ ha _ h => exact said_idle h hnote hnoted (hreplied ha) hid
  | repliedExtended _ _ _ _ _ ha _ h =>
      exact said_idle h hnote hnoted (hreplied ha) fun _ => ⟨rfl, .inl rfl⟩
  | scatterOk input request ms c₁ _ _ _ _ _ hidle hsc hms h =>
      obtain ⟨h1, h2⟩ := hscattered hsc
      refine said_idle h h1 h2 (fun st hst => ?_) hid
      rcases List.mem_append.mp hst with hst | hst
      · cases hms _ hst
      · exact (hone _ st hst).trans hidle
  | scatterRefused _ _ _ _ _ _ _ _ h =>
      exact said_idle h (hnote.trans (.refl rfl)) hnoted (hfailed _) fun _ => ⟨rfl, .inr rfl⟩
  | scatterFailed _ _ failure c₁ _ _ _ _ _ _ hsc h =>
      obtain ⟨h1, h2⟩ := hscattered hsc
      refine said_idle h (h1.trans (.refl ?_)) (fun ht => ?_) (hfailed _) fun _ => ⟨rfl, .inr rfl⟩
      · cases failure.sessionLeaseBroken <;> rfl
      · rw [← h2 ht]
        cases failure.sessionLeaseBroken <;> rfl
  | scatterPanicked _ _ c₁ _ _ _ _ hsc =>
      exact ⟨(hscattered hsc).1.trans (.refl rfl), (hscattered hsc).2⟩
  | reparsed _ _ _ _ _ _ _ _ _ _ h => exact said_idle h hnote hnoted (by simp) hid
  | duplicate _ _ _ _ _ _ _ _ _ _ _ h =>
      exact said_idle h hnote hnoted (by simp) fun _ => ⟨rfl, .inl rfl⟩

theorem afterReady_downstream (tm : Bool) (c : Core σ) :
    (c.afterReady tm).downstreamStatus = c.downstreamStatus := by
  unfold afterReady
  split
  · rfl
  · split
    · split <;> rfl
    · rfl

/-- So does every step of a settled session, whatever becomes of its connection. -/
theorem steps_idle (hp : Passive i) (hsup : ∀ st, Supplied i st → st = .idle)
    (hc : s.toCore.Truthful env.upstream status)
    (hs : s.toCore.Settled env.transactionMode status) {Φ : PoolKey → Conn σ → Prop}
    (h : Steps env i Φ s e d) : SaysIdle env.transactionMode s.toCore d := by
  have hrecv : ∀ m, Grows (fun e => e.saysIdle = true) s.toCore (s.toCore.recv m) :=
    fun m => .one rfl rfl
  have hafter : ∀ {c : Core σ}, Grows (fun e => e.saysIdle = true) s.toCore c →
      SaysIdle env.transactionMode c d → SaysIdle env.transactionMode s.toCore d :=
    fun hgrow h => ⟨hgrow.trans h.1, h.2⟩
  have henter : ∀ {m m' : FrontendMessage} {c : Core σ},
      Enters env i Φ s (s.toCore.recv m) m m' c →
      Grows (fun e => e.saysIdle = true) s.toCore c ∧
        (env.transactionMode = true → c.downstreamStatus = .idle) := by
    intro m m' c hent
    have hf := enters_frame hent
    refine ⟨?_, fun ht => hf.downstreamStatus.trans (hs.downstream ht)⟩
    rcases hf.log with hlog | ⟨_, _, hlog⟩
    · exact (hrecv m).trans (.refl hlog)
    · exact (hrecv m).trans (.one hlog rfl)
  have hread : ∀ {o : Origin} {m : BackendMessage} {c : Core σ},
      s.toCore.readNext env.transactionMode = some (o, m, c) →
      Grows (fun e => e.saysIdle = true) s.toCore c := by
    intro o m c hr
    obtain ⟨_, _, _, _, hf, _⟩ := readNext_spec hr
    exact .refl hf.log
  cases h with
  | answered m t _ h => exact hafter (hrecv m) (answered_idle h hsup hs.downstream hs.cached)
  | attachFailed m m' t d' _ _ h =>
      obtain ⟨_, _, _, es, -, hes, rfl⟩ := attachFails_noted h
      refine ⟨(hrecv m).trans ⟨es, rfl, fun x hx => ?_⟩, hs.downstream⟩
      exact (answers_idle hes (by simp) x hx).1
  | hookReplied m m' m'' t ms c _ hent hh h => cases (hh.passive hp).2
  | hookStopped m m' m'' t action c hent hh ha => exact absurd (hh.passive hp).2 ha
  | put m m' m'' t c lease hent =>
      rw [awaitPut_eq]
      exact ⟨(henter hent).1.trans (.one rfl rfl), (henter hent).2⟩
  | sendFailed m m' m'' t c _ lease hent hh hlease _ h =>
      have hawait : Grows (fun e => e.saysIdle = true) c (c.await m'') := .refl (by rw [await_eq])
      refine hafter ((henter hent).1.trans hawait) (lost_idle h ?_)
      rw [await_eq]
      exact (henter hent).2
  | clientGone | idle | upstreamError | drain | shutdown => exact ⟨.refl rfl, hs.downstream⟩
  | cancel => exact ⟨.one rfl rfl, hs.downstream⟩
  | rowDropped o m _ row hr => exact ⟨hread hr, (readNext_idle hr hc hs).2.1⟩
  | readStopped o m c e hr => exact ⟨(hread hr).trans (.refl rfl), (readNext_idle hr hc hs).2.1⟩
  | replaced o m m' m'' ms c _ hr hsh hh h => cases (hh.passive hp).2
  | passed o m m' m'' c _ hr hsh hh h =>
      obtain ⟨rfl, _⟩ := hh.passive hp
      obtain ⟨hidle, hdown, _⟩ := readNext_idle hr hc hs
      have hsays : (Entry.sent false o m'').saysIdle = true := by
        cases m'' with
        | readyForQuery st =>
            rcases hsh with rfl | ⟨_, ⟨_, _, _, hrow⟩ | ⟨_, _, _, htag⟩⟩
            · exact decide_eq_true (hidle st rfl)
            · cases hrow
            · cases htag
        | _ => rfl
      refine ⟨(hread hr).trans (.said h (fun x hx => List.mem_singleton.mp hx ▸ hsays) ?_), ?_⟩
      · split
        · exact afterReady_grows (fun _ => rfl) _ _
        · exact .refl rfl
      · intro ht
        cases h with
        | done =>
            split
            · rw [afterReady_downstream]
              exact hdown ht
            · exact hdown ht
        | cut => exact hdown ht
  | upstreamClosed lease _ hlease h => exact lost_idle h hs.downstream

theorem steps_settled (hu : env.upstream.InOrder) (hr : env.upstream.Reports status)
    (hp : Passive i) (hsup : ∀ st, Supplied i st → st = .idle)
    (hc : s.toCore.Truthful env.upstream status) (hone : s.OneCycle env.upstream e)
    (hs : s.toCore.Settled env.transactionMode status)
    (h : Steps env i (IdlePool env.upstream status) s e d)
    (hd : d.serverStatus status = .idle) : d.Settled env.transactionMode status :=
  ⟨(steps_idle hp hsup hc hs h).2, steps_cached hu hr hc hone hs h hd, hd⟩

end Steps

end Core

/-! ## Runs -/

section Runs

variable {env : Env σ} {status : σ → TransactionStatus} {i : Option (Interceptor κ)}
  {startup : Params}

/-- What holds of a session and of the fate of its transactions. -/
structure Session.Undivided (env : Env σ) (status : σ → TransactionStatus)
    (i : Option (Interceptor κ)) (startup : Params) (p : Session σ κ × List Note) : Prop where
  holds : Session.Holds i startup (IdlePool env.upstream status)
    (Core.Truthful env.upstream status) p.1
  whole : (fate p.2).Whole
  owed : p.1.ended = none → (fate p.2).owed = false
  settled : p.1.ended = none → (fate p.2).bare = true →
    p.1.toCore.Settled env.transactionMode status

/-- The fate after a move, by what the move has logged. -/
theorem fate_move {s : Session σ κ} {m : Move σ} {es : List Entry}
    (h : (s.move env m).log = s.log ++ es) (status : σ → TransactionStatus) (notes : List Note) :
    fate (notes ++ s.notes env status m) =
      (es.foldl Fate.entry (fate notes)).note
        (.server ((s.move env m).toCore.serverStatus status)) := by
  unfold fate Session.notes
  rw [h, List.drop_left, List.foldl_append, List.foldl_append, List.foldl_map]
  rfl

/-- The loss of a step is a safe one in the state in which it happens. -/
theorem safeLoss_of_covered {s : Session σ κ} {notes : List Note} {e : Event} {c : Core σ}
    {synth : Bool} (hp : Passive i) (hs : s.ended = none)
    (hc : Session.Covered env (s, notes) (.own e)) (hl : Core.Loses i s e c synth) :
    SafeLoss env.transactionMode (fate notes) c synth ∧
      ∃ es, c.log = s.log ++ es ∧ es.foldl Fate.entry (fate notes) = fate notes := by
  cases hl with
  | closed hl => exact ⟨hc hs hl, [], (List.append_nil _).symm, rfl⟩
  | send m m' m'' t c ht hf hm hh =>
      obtain ⟨rfl, _⟩ := hh.passive hp
      rw [Core.await_eq, hm.kind.2.2.2]
      constructor
      · obtain ⟨h1, h2⟩ := hc hs ht
        refine ⟨h1, h2.imp (fun h => ⟨h.1, ?_⟩) fun h htm => ?_⟩
        · show c.cycleIsExtended = false
          rw [hf.cycleIsExtended, ← h.2]
          unfold Core.note
          split <;> rfl
        · exact hf.downstreamStatus.trans ((s.toCore.note_downstream m).symm.trans (h htm))
      · rcases hf.log with hlog | ⟨pid, endpoint, hlog⟩
        · exact ⟨[.recv (s.seq + 1) m], hlog, rfl⟩
        · refine ⟨[.recv (s.seq + 1) m, .attached pid endpoint], hlog.trans ?_, rfl⟩
          exact List.append_assoc _ _ _

/-- One iteration of the live session. -/
theorem Session.Undivided.step {s : Session σ κ} {notes : List Note} {e : Event}
    (hu : env.upstream.InOrder) (hr : env.upstream.Reports status) (hp : Passive i)
    (hlegs : LegsOpenNone env.upstream status i) (hsup : ∀ st, Supplied i st → st = .idle)
    (h : Undivided env status i startup (s, notes)) (hs : s.ended = none)
    (hone : s.OneCycle env.upstream e) (hc : Covered env (s, notes) (.own e)) :
    Undivided env status i startup (s.step env e, notes ++ s.notes env status (.own e)) := by
  have hstable : Session.Stable env i startup (IdlePool env.upstream status)
      (Session.OneCycle env.upstream) (Core.Truthful env.upstream status) :=
    Core.truthful_stable hu hr hp hlegs
  have hsteps := (hstable.steps h.holds hs hone).1
  have hholds := hstable.move s (.own e) h.holds fun _ => hone
  rcases Core.steps_loses hsteps with ⟨es, hlog, hes⟩ | ⟨c, lease, reason, synth, hl, hlost⟩
  · have hmove : (s.move env (.own e)).log = s.log ++ es := hlog
    have hfate := fate_move hmove status notes
    obtain ⟨ho, hsplit, hbare⟩ := Fate.unowed hes (h.owed hs)
    have hmisled := Fate.not_misled (f := fate notes) hes fun hb => by
      obtain ⟨es', hlog', hidle⟩ :=
        (Core.steps_idle hp hsup h.holds.inv (h.settled hs hb) hsteps).1
      rwa [List.append_cancel_left (hlog.symm.trans hlog')]
    refine ⟨hholds, ?_, fun _ => ?_, fun _ hb => ?_⟩
    · rw [hfate]
      exact ⟨hsplit.trans h.whole.1, hmisled.trans h.whole.2⟩
    · rw [hfate]
      exact ho
    · rw [hfate] at hb
      obtain ⟨hb, hserver⟩ := (Bool.and_eq_true _ _).mp hb
      exact Core.steps_settled hu hr hp hsup h.holds.inv hone (h.settled hs (hbare ▸ hb)) hsteps
        (of_decide_eq_true hserver)
  · obtain ⟨hsafe, es, hlog, hes⟩ := safeLoss_of_covered hp hs hc hl
    obtain ⟨es', hlog', hwhole, hnext⟩ := Core.lost_fate status hlost h.whole (h.owed hs) hsafe
    have hmove : (s.move env (.own e)).log = s.log ++ (es ++ es') := by
      rw [← List.append_assoc, ← hlog]
      exact hlog'
    have hfate := fate_move hmove status notes
    rw [List.foldl_append, hes] at hfate
    refine ⟨hholds, ?_, fun hlive => ?_, fun hlive _ => (hnext hlive).2⟩
    · rw [hfate]
      exact hwhole
    · rw [hfate]
      exact (hnext hlive).1

theorem Session.Undivided.move {p : Session σ κ × List Note} {m : Move σ}
    (hu : env.upstream.InOrder) (hr : env.upstream.Reports status) (hp : Passive i)
    (hlegs : LegsOpenNone env.upstream status i) (hsup : ∀ st, Supplied i st → st = .idle)
    (h : Undivided env status i startup p)
    (hm : Within (IdlePool env.upstream status) (OneCycle env.upstream) p.1 m)
    (hc : Covered env p m) :
    Undivided env status i startup (observe (Session.move env) (Session.notes env status) p m) := by
  obtain ⟨s, notes⟩ := p
  -- A move that logs nothing and keeps the session as it is.
  have hquiet : ∀ m : Move σ, (s.move env m).toCore = s.toCore →
      Holds i startup (IdlePool env.upstream status) (Core.Truthful env.upstream status)
        (s.move env m) →
      Undivided env status i startup (s.move env m, notes ++ s.notes env status m) := by
    intro m hcore hholds
    have hlog : (s.move env m).log = s.log ++ [] := by rw [hcore, List.append_nil]
    have hfate := fate_move hlog status notes
    refine ⟨hholds, ?_, fun hlive => ?_, fun hlive hb => ?_⟩
    · rw [hfate]
      exact h.whole
    · rw [hfate]
      exact h.owed (hcore ▸ hlive)
    · rw [hfate] at hb
      rw [hcore] at hlive ⊢
      exact h.settled hlive ((Bool.and_eq_true _ _).mp hb).1
  cases m with
  | others world =>
      exact hquiet (.others world) rfl ⟨h.holds.inv, hm, h.holds.interceptor, h.holds.startup⟩
  | own e =>
      by_cases hs : s.ended = none
      · exact h.step hu hr hp hlegs hsup hs (hm hs) hc
      · have hstep : s.move env (.own e) = s := step_ended hs
        exact hquiet (.own e) (by rw [hstep]) (by rw [hstep]; exact h.holds)

end Runs

/-- In every run whose losses are answered, or hit no transaction, no transaction is split behind
    the client's back and no `ReadyForQuery` claims a lost one. The client has one cycle open at
    a time and the pooled connections are outside transactions. -/
theorem transactions_whole (env : Env σ) (status : σ → TransactionStatus) (l : Launch σ κ)
    (ms : List (Move σ)) (hu : env.upstream.InOrder) (hr : env.upstream.Reports status)
    (hp : Passive l.interceptor) (hlegs : LegsOpenNone env.upstream status l.interceptor)
    (hsup : ∀ st, Supplied l.interceptor st → st = .idle)
    (hw : l.world.Tidy (IdlePool env.upstream status))
    (hrun : l.Runs env (IdlePool env.upstream status) (Session.OneCycle env.upstream) ms)
    (hcov : Along (observe (Session.move env) (Session.notes env status)) (Session.Covered env)
      (l.new.start env, []) ms) :
    (fate (run (observe (Session.move env) (Session.notes env status))
      (l.new.start env, []) ms).2).Whole := by
  have hstart : Session.Undivided env status l.interceptor l.startup (l.new.start env, []) :=
    ⟨l.start_truthful hu hr hw, ⟨rfl, rfl⟩, fun _ => rfl, fun _ hb => nomatch hb⟩
  have halong := (along_observe (Session.move env) (Session.notes env status)
    (l.new.start env, []) ms hrun).and hcov
  refine (run_inv (fun p m h hm => ?_) (l.new.start env, []) ms hstart halong).whole
  exact h.move hu hr hp hlegs hsup hm.1 hm.2

/-- Writing a query fails inside a transaction, and a connection is closed in the middle of one;
    both clients are told. -/
theorem transactions_whole_told :
    (fate (run (observe (Session.move (Sample.env .transaction))
        (Session.notes (Sample.env .transaction) Pg.status))
      ((Sample.launch .transaction none).new.start (Sample.env .transaction), [])
      (List.map .own [Sample.client (.query "BEGIN"), .upstream, .upstream,
        Sample.clientCut (.query "SELECT 1"), Sample.client (.query "BEGIN"), .upstream, .upstream,
        Sample.client (.query "SELECT 1"), .upstreamClosed,
        Sample.client (.query "SELECT 1")])).2).Whole := by
  refine transactions_whole (Sample.env .transaction) Pg.status (Sample.launch .transaction none)
    (List.map .own [_, _, _, _, _, _, _, _, _, _]) (pg_inOrder _)
    (pg_reports Dialect.sample_standard) passive_none (legsOpenNone_none _ _) ?_
    (Sample.world_idle .transaction) (Session.along_own ?_) ?_
  · rintro st ⟨input, ms, ⟨h, hh, _⟩, _⟩
    cases hh
  · decide
  · decide

/-- The connection is closed while the client is idle inside a transaction. In session mode its
    next statement runs on another connection; in transaction mode a `Sync` is answered with the
    status of the transaction that is gone. -/
theorem transactions_split :
    let after := fun (mode : PoolMode) (es : List Event) =>
      fate (run (observe (Session.move (Sample.env mode))
          (Session.notes (Sample.env mode) Pg.status))
        ((Sample.launch mode none).new.start (Sample.env mode), []) (es.map .own)).2
    let lost := [Sample.client (.query "BEGIN"), .upstream, .upstream, .upstreamClosed]
    (after .session (lost ++ [Sample.client (.query "SELECT 1")])).split = true ∧
      (after .transaction (lost ++ [Sample.client .sync])).misled = true := by
  decide

end Pgferry
