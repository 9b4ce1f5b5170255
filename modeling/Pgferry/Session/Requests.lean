/-
  One `ReadyForQuery` for each request.

  `tally` reads off the log what the client sent and was sent: the `Query` and `Sync` messages
  received, the `ReadyForQuery` messages written, whether an extended batch waits for its `Sync`,
  and whether every cycle during which the connection was lost was closed with exactly one
  `ErrorResponse`. The client is orderly: one cycle at a time, no `Query` inside a batch.

  Proved: `requests_answered`, for an interceptor that answers no `Parse` with a reply or a
  scatter and an upstream that is never lost, as many are answered as were received;
  `losses_answered`, the same with losses at which the recovery fits what the client has sent so
  far (`Recoverable`). The counterexamples are the ways in which it does not fit.
-/
import Pgferry.Session.Cycles

namespace Pgferry

open Loop

variable {σ κ : Type}

/-! ## The tally of a log -/

structure Tally where
  /-- `Query` and `Sync` messages received. -/
  requests : Nat := 0
  /-- `ReadyForQuery` messages sent. -/
  answered : Nat := 0
  /-- An extended batch has begun and its `Sync` is still to come. -/
  batch : Bool := false
  /-- `ErrorResponse` messages sent in the current cycle. -/
  errors : Nat := 0
  /-- The connection was lost in the current cycle. -/
  lost : Bool := false
  /-- Every cycle with a loss was closed with one `ErrorResponse`. -/
  fair : Bool := true
  deriving DecidableEq

/-- Whether a batch is open after `m`. -/
def FrontendMessage.batchAfter (m : FrontendMessage) (batch : Bool) : Bool :=
  match m with
  | .parse _ _ _ => true
  | .bind _ _ => true
  | .describe _ _ => true
  | .execute _ => true
  | .close _ _ => true
  | .sync => false
  | _ => batch

namespace Tally

/-- A cycle is open: a batch without its `Sync`, or a request without its answer. -/
def opened (t : Tally) : Bool := t.batch || decide (t.answered < t.requests)

/-- A message of the client. The first one of a cycle starts a new count of errors. -/
def recv (t : Tally) (m : FrontendMessage) : Tally :=
  let t := if t.opened then t else { t with errors := 0, lost := false }
  { t with requests := t.requests + m.cycles, batch := m.batchAfter t.batch }

def sent (t : Tally) : BackendMessage → Tally
  | .errorResponse _ => { t with errors := t.errors + 1 }
  | .readyForQuery _ =>
      { t with
        answered := t.answered + 1
        fair := t.fair && (!t.lost || decide (t.errors = 1))
        errors := 0
        lost := false }
  | _ => t

def note (t : Tally) : Entry → Tally
  | .recv _ m => t.recv m
  | .sent _ _ m => t.sent m
  | .lost _ _ .relink => { t with lost := t.lost || t.opened }
  | _ => t

end Tally

def tally (log : List Entry) : Tally := log.foldl Tally.note {}

theorem tally_append (xs ys : List Entry) : tally (xs ++ ys) = ys.foldl Tally.note (tally xs) := by
  rw [tally, tally, List.foldl_append]

theorem tally_concat (xs : List Entry) (e : Entry) : tally (xs ++ [e]) = (tally xs).note e := by
  rw [tally_append]
  rfl

namespace Tally

@[simp] theorem recv_requests (t : Tally) (m : FrontendMessage) :
    (t.recv m).requests = t.requests + m.cycles := by
  unfold recv
  split <;> rfl

@[simp] theorem recv_answered (t : Tally) (m : FrontendMessage) :
    (t.recv m).answered = t.answered := by
  unfold recv
  split <;> rfl

@[simp] theorem recv_batch (t : Tally) (m : FrontendMessage) :
    (t.recv m).batch = m.batchAfter t.batch := by
  unfold recv
  split <;> rfl

@[simp] theorem recv_fair (t : Tally) (m : FrontendMessage) : (t.recv m).fair = t.fair := by
  unfold recv
  split <;> rfl

theorem recv_lost {t : Tally} {m : FrontendMessage} (h : (t.recv m).lost = true) :
    t.lost = true ∧ (t.recv m).errors = t.errors := by
  unfold recv at h ⊢
  split
  case isTrue ho =>
    rw [if_pos ho] at h
    exact ⟨h, rfl⟩
  case isFalse ho =>
    rw [if_neg ho] at h
    cases h

/-- What the client is sent outside a lost cycle. -/
theorem sent_counts {t : Tally} (hl : t.lost = false) (m : BackendMessage) :
    (t.sent m).requests = t.requests ∧ (t.sent m).answered = t.answered + m.ready ∧
      (t.sent m).batch = t.batch ∧ (t.sent m).lost = false ∧ (t.sent m).fair = t.fair := by
  cases m <;> simp [sent, BackendMessage.ready, hl]

theorem foldl_answers {t : Tally} (hl : t.lost = false) (c : Core σ) (ms : List BackendMessage) :
    ((c.answers ms).foldl note t).requests = t.requests ∧
      ((c.answers ms).foldl note t).answered = t.answered + readies ms ∧
      ((c.answers ms).foldl note t).batch = t.batch ∧
      ((c.answers ms).foldl note t).lost = false ∧
      ((c.answers ms).foldl note t).fair = t.fair := by
  induction ms generalizing t with
  | nil => exact ⟨rfl, rfl, rfl, hl, rfl⟩
  | cons m ms ih =>
      obtain ⟨h1, h2, h3, h4, h5⟩ := sent_counts hl m
      obtain ⟨i1, i2, i3, i4, i5⟩ := ih h4
      refine ⟨i1.trans h1, ?_, i3.trans h3, i4, i5.trans h5⟩
      have hfold : (c.answers (m :: ms)).foldl note t = (c.answers ms).foldl note (t.sent m) := rfl
      rw [hfold, i2, h2, readies_cons]
      omega

end Tally

theorem readies_prefix_le {ns ms : List BackendMessage} (h : ns <+: ms) :
    readies ns ≤ readies ms := by
  obtain ⟨rest, rfl⟩ := h
  rw [readies_append]
  omega

/-! ## The invariant -/

/-- The client received at most what it asked for, and all of it when nothing is outstanding. -/
structure Core.Answers (u : Upstream σ) (c : Core σ) : Prop where
  le : (tally c.log).answered ≤ (tally c.log).requests
  eq : c.ended = none → c.outstanding u = 0 → (tally c.log).answered = (tally c.log).requests

/-- `Answers`, and every interrupted cycle was closed with one `ErrorResponse`. -/
structure Core.Recovers (u : Upstream σ) (c : Core σ) : Prop extends c.Answers u where
  fair : (tally c.log).fair = true

/-- What holds between two iterations of a live session with the tally `t`. -/
structure Core.Running (u : Upstream σ) (c : Core σ) (t : Tally) : Prop where
  count : t.requests = t.answered + c.outstanding u
  swallow : c.swallowUntilSync = true → t.batch = true
  batch : t.batch = true → t.requests = t.answered
  lost : t.lost = true → c.swallowUntilSync = true ∧ c.lease = none ∧ t.errors = 1

structure Core.Counted (u : Upstream σ) (c : Core σ) : Prop where
  calm : c.Calm u
  le : (tally c.log).answered ≤ (tally c.log).requests
  fair : (tally c.log).fair = true
  running : c.ended = none → c.Running u (tally c.log)

theorem Core.Counted.recovers {u : Upstream σ} {c : Core σ} (h : c.Counted u) : c.Recovers u := by
  refine ⟨⟨h.le, fun he ho => ?_⟩, h.fair⟩
  have := (h.running he).count
  omega

/-! ## Conditions -/

/-- `on_query` answers a `Parse` with neither a reply nor a scatter, and no reply holds a
    `ReadyForQuery` of its own. -/
def AnswersSimply (i : Option (Interceptor κ)) : Prop :=
  ∀ input action, Asks i input action →
    (∀ ms, action = .reply ms → readies ms = 0 ∧ input.kind.isExtended = false) ∧
      ∀ request, action = .scatter request → input.kind.isExtended = false

/-- One cycle at a time, and no `Query` inside a batch. -/
def Session.Orderly (u : Upstream σ) (s : Session σ κ) (e : Event) : Prop :=
  s.OneCycle u e ∧ (e.isQuery = true → (tally s.log).batch = false)

instance (u : Upstream σ) (s : Session σ κ) (e : Event) : Decidable (s.Orderly u e) :=
  inferInstanceAs (Decidable (_ ∧ _))

/-- The recovery from a loss fits the client: it answers exactly when a cycle is open, it waits
    for a `Sync` exactly when one is to come, and no error was sent in the cycle before. -/
def Core.Recoverable (c : Core σ) (synth : Bool) : Prop :=
  synth = (tally c.log).opened ∧ ((tally c.log).opened = true →
    c.cycleIsExtended = (tally c.log).batch ∧ (tally c.log).errors = 0)

instance (c : Core σ) (synth : Bool) : Decidable (c.Recoverable synth) :=
  inferInstanceAs (Decidable (_ ∧ _))

/-- Every loss of the connection is recoverable. -/
def Session.LosesWell (s : Session σ κ) : Event → Prop
  | .client m t => t.sendOk = false → ((s.toCore.recv m).note m).Recoverable
      (s.hygiene.awaitingResponse || m.startsResponse || decide (0 < s.fedSinceRfq))
  | .upstreamClosed => s.lease.isSome = true → s.toCore.Recoverable s.hygiene.awaitingResponse
  | _ => True

instance (s : Session σ κ) : ∀ e, Decidable (s.LosesWell e)
  | .client _ _ => inferInstanceAs (Decidable (_ → _))
  | .upstreamClosed => inferInstanceAs (Decidable (_ → _))
  | .clientGone | .upstream | .upstreamError _ | .cancel | .shutdown => isTrue trivial

/-! ## Steps -/

namespace Core

variable {u : Upstream σ} {c c₀ d : Core σ}

theorem Counted.of_tally {t : Tally} (ht : tally d.log = t) (hcalm : d.Calm u)
    (hle : t.answered ≤ t.requests) (hfair : t.fair = true)
    (hrun : d.ended = none → d.Running u t) : d.Counted u := by
  subst ht
  exact ⟨hcalm, hle, hfair, hrun⟩

/-- A session that ended has nothing more to answer. -/
theorem Counted.of_ended {t : Tally} (ht : tally d.log = t) (hcalm : d.Calm u)
    (hle : t.answered ≤ t.requests) (hfair : t.fair = true) (he : d.ended.isSome = true) :
    d.Counted u := by
  refine .of_tally ht hcalm hle hfair fun h => ?_
  rw [h] at he
  cases he

/-- A write outside a lost cycle that answers no more than was asked. -/
theorem Counted.said {ms : List BackendMessage} {f : Core σ → Core σ}
    (h : Said c (c₀.answers ms) f d) (hcalm : d.Calm u) (hl : (tally c.log).lost = false)
    (hle : (tally c.log).answered + readies ms ≤ (tally c.log).requests)
    (hfair : (tally c.log).fair = true)
    (hlog : (f (c.emit (c₀.answers ms))).log = c.log ++ c₀.answers ms)
    (hrun : ∀ t : Tally, t.requests = (tally c.log).requests →
      t.answered = (tally c.log).answered + readies ms → t.batch = (tally c.log).batch →
      t.lost = false → (f (c.emit (c₀.answers ms))).Running u t) : d.Counted u := by
  cases h with
  | done =>
      obtain ⟨h1, h2, h3, h4, h5⟩ := Tally.foldl_answers hl c₀ ms
      refine .of_tally (hlog ▸ tally_append _ _) hcalm ?_ (h5.trans hfair) fun _ =>
        hrun _ h1 h2 h3 h4
      rw [h1, h2]
      exact hle
  | cut pre endpoint attached hpre =>
      obtain ⟨ns, hsub, rfl⟩ := answers_of_prefix hpre
      have hns := readies_prefix_le hsub
      obtain ⟨h1, h2, _, _, h5⟩ := Tally.foldl_answers hl c₀ ns
      refine .of_tally (tally_append _ _) hcalm ?_ (h5.trans hfair) nofun
      rw [h1, h2]
      omega

section Steps

variable {env : Env σ} {i : Option (Interceptor κ)} {s : Session σ κ} {m : FrontendMessage}

theorem cycles_of_extended {input : CycleInput} (hin : cycleInputOf m = some input)
    (hk : input.kind.isExtended = true) : m.cycles = 0 ∧ ∀ b, m.batchAfter b = true := by
  cases m <;> simp only [cycleInputOf, Option.some.injEq, reduceCtorEq] at hin <;> subst hin
  · cases hk
  · exact ⟨rfl, fun _ => rfl⟩

theorem cycles_of_pendingParse {m' : FrontendMessage} {p : String × String × List Nat}
    (hf : Forwards i m m') (hm : pendingParse m' = some p) :
    m.cycles = 0 ∧ ∀ b, m.batchAfter b = true := by
  rcases hf with ⟨rfl, _⟩ | ⟨input, _, _, sql, rfl⟩
  · cases m' <;> first
      | exact ⟨rfl, fun _ => rfl⟩
      | cases hm
  · cases m <;> cases sql <;> first
      | exact ⟨rfl, fun _ => rfl⟩
      | cases hm

/-- The tally after a message that is not answered from a lost cycle. -/
theorem Running.recv (h : c.Running u (tally c.log)) (hs : c.swallowUntilSync = false)
    (m : FrontendMessage) : ((tally c.log).recv m).lost = false := by
  by_contra hl
  have := (h.lost (Tally.recv_lost (Bool.not_eq_false _ ▸ hl)).1).1
  rw [hs] at this
  cases this

/-- The counts right after a message of an orderly client. -/
theorem Running.recv_counts (h : s.toCore.Running env.upstream (tally s.log)) {t : Timing}
    (hord : s.Orderly env.upstream (.client m t)) :
    ((tally s.log).recv m).requests =
        ((tally s.log).recv m).answered + s.toCore.outstanding env.upstream + m.cycles ∧
      (((tally s.log).recv m).batch = true →
        m.cycles = 0 ∧ s.toCore.outstanding env.upstream = 0) := by
  obtain ⟨hone, hq⟩ := hord
  have hcount := h.count
  have hbatch := h.batch
  simp only [Tally.recv_requests, Tally.recv_answered, Tally.recv_batch]
  refine ⟨by omega, fun hb => ?_⟩
  have hold : (tally s.log).batch = true → s.toCore.outstanding env.upstream = 0 := by
    intro h
    have := hbatch h
    omega
  rcases hone with hcopy | hfree
  · have hm : m.batchAfter (tally s.log).batch = (tally s.log).batch := by
      cases m <;> first
        | rfl
        | cases hcopy
    exact ⟨FrontendMessage.cycles_of_isCopy hcopy, hold (hm ▸ hb)⟩
  · refine ⟨?_, hfree⟩
    cases m with
    | query sql => rw [hq rfl] at hb; cases hb
    | sync => cases hb
    | _ => rfl

/-- A local answer to a request, outside a batch. -/
theorem Counted.answer {ms : List BackendMessage} {f : Core σ → Core σ} {t : Timing}
    (hc : s.toCore.Counted env.upstream) (he : s.ended = none)
    (hord : s.Orderly env.upstream (.client m t))
    (h : Said c (c₀.answers ms) f d) (hcyc : m.cycles = 1) (hms : readies ms = 1)
    (hs : s.swallowUntilSync = false) (ht : tally c.log = (tally s.log).recv m)
    (hcalm : d.Calm env.upstream)
    (hflog : (f (c.emit (c₀.answers ms))).log = c.log ++ c₀.answers ms)
    (hfs : (f (c.emit (c₀.answers ms))).swallowUntilSync = false)
    (hfo : (f (c.emit (c₀.answers ms))).outstanding env.upstream =
      s.toCore.outstanding env.upstream) : d.Counted env.upstream := by
  have hr := hc.running he
  obtain ⟨hcount, hbatch⟩ := hr.recv_counts hord
  have hnb : ((tally s.log).recv m).batch = false := by
    by_contra hb
    have := (hbatch (Bool.not_eq_false _ ▸ hb)).1
    omega
  refine .said h hcalm (ht ▸ hr.recv hs m) ?_ ?_ hflog ?_
  · rw [ht, hms, hcount, hcyc]
    omega
  · rw [ht, Tally.recv_fair]
    exact hc.fair
  · intro t' h1 h2 h3 h4
    rw [ht] at h1 h2 h3
    refine ⟨?_, fun hsw => ?_, fun hb => ?_, fun hl => ?_⟩
    · rw [h1, h2, hfo, hcount]
      omega
    · rw [hfs] at hsw
      cases hsw
    · rw [h3, hnb] at hb
      cases hb
    · rw [h4] at hl
      cases hl

/-- A local answer to a message that is no request. -/
theorem Counted.comment {ms : List BackendMessage} {f : Core σ → Core σ} {t : Timing}
    (hc : s.toCore.Counted env.upstream) (he : s.ended = none)
    (hord : s.Orderly env.upstream (.client m t))
    (h : Said c (c₀.answers ms) f d) (hcyc : m.cycles = 0) (hms : readies ms = 0)
    (hs : s.swallowUntilSync = false) (ht : tally c.log = (tally s.log).recv m)
    (hcalm : d.Calm env.upstream)
    (hflog : (f (c.emit (c₀.answers ms))).log = c.log ++ c₀.answers ms)
    (hfs : (f (c.emit (c₀.answers ms))).swallowUntilSync = true →
      ∀ b, m.batchAfter b = true)
    (hfo : (f (c.emit (c₀.answers ms))).outstanding env.upstream =
      s.toCore.outstanding env.upstream) : d.Counted env.upstream := by
  have hr := hc.running he
  obtain ⟨hcount, hbatch⟩ := hr.recv_counts hord
  refine .said h hcalm (ht ▸ hr.recv hs m) ?_ ?_ hflog ?_
  · rw [ht, hms, hcount]
    omega
  · rw [ht, Tally.recv_fair]
    exact hc.fair
  · intro t' h1 h2 h3 h4
    rw [ht] at h1 h2 h3
    refine ⟨?_, fun hsw => ?_, fun hb => ?_, fun hl => ?_⟩
    · rw [h1, h2, hfo, hcount]
      omega
    · rw [h3, Tally.recv_batch]
      exact hfs hsw _
    · have := (hbatch (h3 ▸ hb)).2
      omega
    · rw [h4] at hl
      cases hl

theorem readies_of_isResult {ms : List BackendMessage} (h : ∀ x ∈ ms, x.isResult = true) :
    readies ms = 0 := by
  refine readies_eq_zero fun m hm => ?_
  have hresult := h m hm
  cases m <;> first
    | rfl
    | cases hresult

/-- A scatter runs with nothing outstanding and leaves nothing. -/
theorem scattered_outstanding (hu : env.upstream.InOrder) {request : ScatterRequest}
    (hc : c.Calm env.upstream) (hfree : c.outstanding env.upstream = 0)
    (h : Scattered env.upstream c request d false) : d.outstanding env.upstream = 0 := by
  generalize hb : false = broken at h
  cases h with
  | pooled => exact hfree
  | leg lease leg hlease _ _ =>
      rw [outstanding_some hlease] at hfree
      exact (Conn.runQueryCollect_quiet hu (hc.tame lease hlease) hfree hb.symm).pending

theorem scattered_tally {request : ScatterRequest} {broken : Bool}
    (h : Scattered env.upstream c request d broken) :
    tally d.log = tally c.log ∧ d.swallowUntilSync = c.swallowUntilSync := by
  cases h with
  | pooled => exact ⟨rfl, rfl⟩
  | leg => exact ⟨tally_concat _ _, rfl⟩

/-- The `Sync` that ends a swallowed batch is answered by the pump. -/
theorem counted_resumed {status : TransactionStatus} (hc : s.toCore.Counted env.upstream)
    (he : s.ended = none) (hs : s.swallowUntilSync = true) (hcalm : d.Calm env.upstream)
    (h : Said { s.toCore.recv .sync with swallowUntilSync := false }
      ((s.toCore.recv .sync).answers [.readyForQuery status]) (fun d => d) d) :
    d.Counted env.upstream := by
  have hr := hc.running he
  have hcount := hr.count
  have hbatch := hr.batch (hr.swallow hs)
  have hout : s.toCore.outstanding env.upstream = 0 := by omega
  have ht : tally (s.toCore.recv .sync).log = (tally s.log).recv .sync := tally_concat _ _
  have hfair : ((tally s.log).recv .sync).fair = true := by
    rw [Tally.recv_fair]
    exact hc.fair
  -- A loss in the batch was reported with the one error of the cycle.
  have hone : ((tally s.log).recv .sync).lost = true → ((tally s.log).recv .sync).errors = 1 := by
    intro hl
    obtain ⟨hl₀, herr⟩ := Tally.recv_lost hl
    rw [herr]
    exact (hr.lost hl₀).2.2
  have hready : tally ((s.toCore.recv .sync).log ++
      (s.toCore.recv .sync).answers [.readyForQuery status]) =
      ((tally s.log).recv .sync).sent (.readyForQuery status) := by
    rw [tally_append, ht]
    rfl
  have hfair' : (((tally s.log).recv .sync).sent (.readyForQuery status)).fair = true := by
    simp only [Tally.sent, hfair, Bool.true_and, Bool.or_eq_true, Bool.not_eq_true',
      decide_eq_true_eq]
    cases hl : ((tally s.log).recv .sync).lost with
    | false => exact .inl rfl
    | true => exact .inr (hone hl)
  have hle : (((tally s.log).recv .sync).sent (.readyForQuery status)).answered =
      (((tally s.log).recv .sync).sent (.readyForQuery status)).requests := by
    simp only [Tally.sent, Tally.recv_answered, Tally.recv_requests, FrontendMessage.cycles]
    omega
  cases h with
  | done =>
      refine .of_tally hready hcalm (Nat.le_of_eq hle) hfair' fun _ =>
        ⟨?_, (by cases ·), (by cases ·), (by cases ·)⟩
      show _ = _ + s.toCore.outstanding env.upstream
      rw [← hle, hout]
      rfl
  | cut pre endpoint attached hpre =>
      rcases List.prefix_cons_iff.mp hpre with rfl | ⟨pre', rfl, hpre'⟩
      · refine .of_ended ((congrArg tally (List.append_nil _)).trans ht) hcalm ?_ hfair rfl
        simp only [Tally.recv_answered, Tally.recv_requests]
        omega
      · cases List.prefix_nil.mp hpre'
        exact .of_ended hready hcalm (Nat.le_of_eq hle) hfair' rfl

theorem answered_counted (hu : env.upstream.InOrder) (hq : AnswersSimply i) {t : Timing}
    (hc : s.toCore.Counted env.upstream) (he : s.ended = none)
    (hord : s.Orderly env.upstream (.client m t)) (hcalm : d.Calm env.upstream)
    (h : Answered env i s (s.toCore.recv m) m t d) : d.Counted env.upstream := by
  have hr := hc.running he
  obtain ⟨hcount, hbatch⟩ := hr.recv_counts hord
  obtain ⟨hn, hnl⟩ := (s.toCore.recv m).note_frame m
  have hnlog := (s.toCore.recv m).note_log m
  have hnsw := (s.toCore.recv m).note_swallow m
  have hno : ((s.toCore.recv m).note m).outstanding env.upstream =
      s.toCore.outstanding env.upstream := outstanding_congr hnl
  have ht : tally (s.toCore.recv m).log = (tally s.log).recv m := tally_concat _ _
  have htn : tally ((s.toCore.recv m).note m).log = (tally s.log).recv m := by rw [hnlog, ht]
  have hfree : ∀ sql, m = .query sql → s.toCore.outstanding env.upstream = 0 := by
    rintro sql rfl
    exact hord.1.resolve_left (by simp [FrontendMessage.isCopy])
  have hle : (tally (s.toCore.recv m).log).answered ≤ (tally (s.toCore.recv m).log).requests := by
    rw [ht, hcount]
    omega
  have hfair : (tally (s.toCore.recv m).log).fair = true := by
    rw [ht, Tally.recv_fair]
    exact hc.fair
  cases h with
  | quit => exact .of_ended rfl hcalm hle hfair rfl
  | closed => exact .of_ended (congrArg tally hnlog) hcalm hle hfair rfl
  | swallowed hs hm _ =>
      have hb : (tally s.log).batch = true := hr.swallow hs
      have hb' : ((tally s.log).recv m).batch = true := by
        rw [Tally.recv_batch, hb]
        cases m <;> first
          | rfl
          | exact absurd rfl hm
      refine ⟨hcalm, hle, hfair, fun _ => ?_⟩
      rw [ht]
      refine ⟨?_, fun _ => hb', fun h => ?_, fun hl => ?_⟩
      · rw [hcount, (hbatch hb').1]
        rfl
      · obtain ⟨h1, h2⟩ := hbatch h
        omega
      · obtain ⟨hl₀, herr⟩ := Tally.recv_lost hl
        rw [herr]
        exact hr.lost hl₀
  | resumed _ hs hm h =>
      subst hm
      exact counted_resumed hc he hs hcalm h
  | localFlush hs _ _ hm =>
      subst hm
      refine ⟨hcalm, hle, hfair, fun _ => ?_⟩
      rw [ht]
      refine ⟨hcount, fun h => ?_, fun h => ?_, fun hl => ?_⟩
      · rw [hs] at h
        cases h
      · obtain ⟨h1, h2⟩ := hbatch h
        omega
      · rw [hr.recv hs] at hl
        cases hl
  | localSync _ hs _ _ hm h =>
      subst hm
      exact hc.answer he hord h rfl rfl hs ht hcalm rfl hs rfl
  | localClose _ _ _ hs _ _ hm h =>
      subst hm
      exact hc.comment he hord h rfl rfl hs ht hcalm rfl (fun _ _ => rfl) rfl
  | deniedSimple input info _ hp hin ha hk h =>
      obtain ⟨sql, rfl⟩ := query_of_simple hin hk
      exact hc.answer he hord h rfl rfl hp.2.1 htn hcalm rfl (hnsw.trans hp.2.1) hno
  | deniedExtended input info _ hp hin ha hk h =>
      obtain ⟨hcyc, hb⟩ := cycles_of_extended hin hk
      exact hc.comment he hord h hcyc rfl hp.2.1 htn hcalm rfl (fun _ => hb) hno
  | repliedSimple input ms _ hp hin ha hk h =>
      obtain ⟨sql, rfl⟩ := query_of_simple hin hk
      refine hc.answer he hord h rfl ?_ hp.2.1 htn hcalm rfl (hnsw.trans hp.2.1) hno
      rw [readies_append, ((hq input _ ha).1 ms rfl).1]
      rfl
  | repliedExtended input ms _ hp hin ha hk h =>
      rw [((hq input _ ha).1 ms rfl).2] at hk
      cases hk
  | reparsed m' name query typeOids known _ hp hf hm hk h =>
      obtain ⟨hcyc, hb⟩ := cycles_of_pendingParse hf.1 hm
      exact hc.comment he hord h hcyc rfl hp.2.1 htn hcalm rfl (fun _ => hb) hno
  | duplicate m' name query typeOids known _ hp hf hm hk hne h =>
      obtain ⟨hcyc, hb⟩ := cycles_of_pendingParse hf hm
      exact hc.comment he hord h hcyc rfl hp.2.1 htn hcalm rfl (fun _ => hb) hno
  | scatterOk input request ms c₁ _ hp hin ha hk hd hr hms h =>
      obtain ⟨sql, rfl⟩ := query_of_simple hin hk
      have hout := scattered_outstanding hu
        (hc.calm.congr hnl (by rw [hn.hygiene]; exact fun h => h)) (hno.trans (hfree sql rfl)) hr
      obtain ⟨htc, hsw⟩ := scattered_tally hr
      refine hc.answer he hord h rfl ?_ hp.2.1 (htc.trans htn) hcalm rfl
        (hsw.trans (hnsw.trans hp.2.1)) (hout.trans (hfree sql rfl).symm)
      rw [readies_append, readies_of_isResult hms]
      rfl
  | scatterRefused input request info _ hp hin ha hr h =>
      obtain ⟨sql, rfl⟩ := query_of_simple hin ((hq input _ ha).2 request rfl)
      exact hc.answer he hord h rfl rfl hp.2.1 htn hcalm rfl (hnsw.trans hp.2.1) hno
  | scatterFailed input request failure c₁ _ hp hin ha hk hf hr h =>
      obtain ⟨sql, rfl⟩ := query_of_simple hin hk
      obtain ⟨htc, hsw⟩ := scattered_tally hr
      have hout : (c₁.scatterLost failure.sessionLeaseBroken).outstanding env.upstream = 0 := by
        cases hb : failure.sessionLeaseBroken with
        | true => rfl
        | false =>
            rw [hb] at hr
            show c₁.outstanding env.upstream = 0
            exact scattered_outstanding hu
              (hc.calm.congr hnl (by rw [hn.hygiene]; exact fun h => h))
              (hno.trans (hfree sql rfl)) hr
      refine hc.answer he hord h rfl rfl hp.2.1 ?_ hcalm ?_ ?_ (hout.trans (hfree sql rfl).symm)
      · refine .trans ?_ (htc.trans htn)
        cases failure.sessionLeaseBroken <;> rfl
      · rfl
      · refine .trans ?_ (hsw.trans (hnsw.trans hp.2.1))
        cases failure.sessionLeaseBroken <;> rfl
  | scatterPanicked input request c₁ hp hin ha hk hr =>
      obtain ⟨htc, _⟩ := scattered_tally hr
      exact .of_ended (htc.trans (htn.trans ht.symm)) hcalm hle hfair rfl

/-- A loss after which the recovery fits the open cycle. -/
theorem lost_counted {lease : UpstreamLease σ} {reason : String} {synth : Bool}
    (h : Lost i c lease reason synth d) (hcalm : d.Calm u) (hrec : c.Recoverable synth)
    (hl : (tally c.log).lost = false)
    (hle : (tally c.log).answered ≤ (tally c.log).requests)
    (hle' : (tally c.log).requests ≤ (tally c.log).answered + 1)
    (hfair : (tally c.log).fair = true)
    (hbatch : (tally c.log).batch = true → (tally c.log).requests = (tally c.log).answered)
    (hsw : c.swallowUntilSync = true → (tally c.log).batch = true) : d.Counted u := by
  obtain ⟨hsynth, hrec⟩ := hrec
  have hrelink : tally (c.log ++ [c.lostEntry lease .relink]) =
      { tally c.log with lost := (tally c.log).opened } := by
    rw [tally_concat]
    simp only [lostEntry, Tally.note, hl, Bool.false_or]
  cases h with
  | closed =>
      exact .of_ended (tally_concat _ _) hcalm hle hfair rfl
  | silent hs =>
      have hopen : (tally c.log).opened = false := hsynth.symm.trans hs
      have hclosed : (tally c.log).batch = false ∧
          (tally c.log).requests ≤ (tally c.log).answered := by
        simpa [Tally.opened] using hopen
      refine .of_tally hrelink hcalm hle hfair fun _ => ⟨?_, fun h => ?_, fun h => ?_, fun h => ?_⟩
      · exact Nat.le_antisymm hclosed.2 hle
      · exact hsw h
      · exact hbatch h
      · rw [show (tally c.log).opened = true from h] at hopen
        cases hopen
  | simple _ hs hk h =>
      have hopen : (tally c.log).opened = true := hsynth.symm.trans hs
      obtain ⟨hext, herr⟩ := hrec hopen
      have hnb : (tally c.log).batch = false := hext.symm.trans hk
      have hone : (tally c.log).requests = (tally c.log).answered + 1 := by
        have : (tally c.log).answered < (tally c.log).requests := by
          simpa [Tally.opened, hnb] using hopen
        omega
      -- The loss, the error, the `ReadyForQuery`: the three tallies the client can be left with.
      have ht₁ := hrelink
      have ht₂ : tally ((c.log ++ [c.lostEntry lease .relink]) ++
          c.answers [.errorResponse Session.lostInfo]) =
          { tally c.log with lost := true, errors := 1 } := by
        rw [tally_append, hrelink, hopen]
        simp [answers, Tally.note, Tally.sent, herr]
      have ht₃ : tally ((c.log ++ [c.lostEntry lease .relink]) ++
          c.answers [.errorResponse Session.lostInfo, .readyForQuery .idle]) =
          { tally c.log with
            answered := (tally c.log).answered + 1, lost := false, errors := 0 } := by
        rw [tally_append, hrelink, hopen]
        simp [answers, Tally.note, Tally.sent, herr]
      cases h with
      | done =>
          refine .of_tally ht₃ hcalm (Nat.le_of_eq hone.symm) hfair fun _ =>
            ⟨hone, fun h => ?_, fun h => ?_, (by cases ·)⟩
          · exact hsw h
          · rw [show (tally c.log).batch = true from h] at hnb
            cases hnb
      | cut pre endpoint attached hpre =>
          rcases prefix_pair hpre with rfl | rfl | rfl
          · exact .of_ended ((congrArg tally (List.append_nil _)).trans ht₁) hcalm hle hfair rfl
          · exact .of_ended ht₂ hcalm hle hfair rfl
          · exact .of_ended ht₃ hcalm (Nat.le_of_eq hone.symm) hfair rfl
  | extended _ hs hk h =>
      have hopen : (tally c.log).opened = true := hsynth.symm.trans hs
      obtain ⟨hext, herr⟩ := hrec hopen
      have hb : (tally c.log).batch = true := hext.symm.trans hk
      have ht₂ : tally ((c.log ++ [c.lostEntry lease .relink]) ++
          c.answers [.errorResponse Session.lostInfo]) =
          { tally c.log with lost := true, errors := 1 } := by
        rw [tally_append, hrelink, hopen]
        simp [answers, Tally.note, Tally.sent, herr]
      cases h with
      | done =>
          exact .of_tally ht₂ hcalm hle hfair fun _ =>
            ⟨hbatch hb, fun _ => hb, fun _ => hbatch hb, fun _ => ⟨rfl, rfl, rfl⟩⟩
      | cut pre endpoint attached hpre =>
          rcases List.prefix_cons_iff.mp hpre with rfl | ⟨pre', rfl, hpre'⟩
          · exact .of_ended ((congrArg tally (List.append_nil _)).trans hrelink) hcalm hle hfair
              rfl
          · cases List.prefix_nil.mp hpre'
            exact .of_ended ht₂ hcalm hle hfair rfl

/-- Nothing is lost while a lease is held. -/
theorem Running.not_lost {lease : UpstreamLease σ} (h : c.Running u (tally c.log))
    (hlease : c.lease = some lease) : (tally c.log).lost = false := by
  by_contra hl
  have := (h.lost (Bool.not_eq_false _ ▸ hl)).2.1
  rw [hlease] at this
  cases this

/-- Reading takes one `ReadyForQuery` off what is outstanding. -/
theorem readNext_outstanding {tm : Bool} {o : Origin} {m : BackendMessage}
    (h : c.readNext tm = some (o, m, d)) (hc : c.Calm u) :
    d.outstanding u + m.ready = c.outstanding u := by
  obtain ⟨lease, rest, hlease, hin, _, _, hd⟩ := readNext_spec h
  rw [outstanding_some hlease, outstanding_some hd, Conn.noted_pending]
  exact (Conn.take_tame (hc.tame lease hlease) hin).2

theorem afterReady_counted {tm : Bool} (hc : c.Counted u) (hz : c.outstanding u = 0) :
    (c.afterReady tm).Counted u := by
  unfold afterReady
  split
  · exact ⟨hc.calm.congr rfl fun h => h, hc.le, hc.fair, nofun⟩
  · split
    · split
      · refine .of_tally (tally_concat _ _) (calm_of_none rfl) hc.le hc.fair fun he => ?_
        have hr := hc.running he
        refine ⟨hr.count.trans (by rw [hz]; rfl), hr.swallow, hr.batch, fun hl => ?_⟩
        obtain ⟨h1, _, h3⟩ := hr.lost hl
        exact ⟨h1, rfl, h3⟩
      · exact hc
    · exact hc

/-- A message of the upstream is passed on. -/
theorem passed_counted {tm : Bool} {o : Origin} {m m' : BackendMessage}
    (hc : s.toCore.Counted u) (he : s.ended = none)
    (hread : s.toCore.readNext tm = some (o, m, c)) (hm : m'.ready = m.ready)
    (h : Said c [.sent false o m'] (if m'.ready = 1 then afterReady tm else fun d => d) d) :
    d.Counted u := by
  have hr := hc.running he
  obtain ⟨lease, _, hlease, _, frame, _, hd⟩ := readNext_spec hread
  have hcalm := (readNext_calm hread hc.calm).1
  have hout := readNext_outstanding hread hc.calm
  have hl := hr.not_lost hlease
  have hcount := hr.count
  obtain ⟨h1, h2, h3, h4, h5⟩ := Tally.sent_counts hl m'
  have ht : tally (c.log ++ [.sent false o m']) = (tally s.log).sent m' := by
    rw [frame.log, tally_concat]
    rfl
  have hle : ((tally s.log).sent m').answered ≤ ((tally s.log).sent m').requests := by
    omega
  have hsent : (c.emit [.sent false o m']).Counted u := by
    refine .of_tally ht (hcalm.congr rfl fun h => h) hle (h5.trans hc.fair) fun _ =>
      ⟨?_, fun h => ?_, fun h => ?_, fun h => ?_⟩
    · show _ = _ + c.outstanding u
      omega
    · rw [h3]
      exact hr.swallow (frame.swallowUntilSync ▸ h)
    · have := hr.batch (h3 ▸ h)
      omega
    · rw [h4] at h
      cases h
  cases h with
  | done =>
      split
      case isTrue hready =>
        refine afterReady_counted hsent ?_
        show c.outstanding u = 0
        rw [outstanding_some hd]
        exact ((readNext_calm hread hc.calm).2 (hm.symm.trans hready) _ hd).pending
      case isFalse => exact hsent
  | cut pre endpoint attached hpre =>
      rcases List.prefix_cons_iff.mp hpre with rfl | ⟨pre', rfl, hpre'⟩
      · refine .of_tally ((congrArg tally ((List.append_nil _).trans frame.log)))
          (hcalm.congr rfl fun h => h) hc.le hc.fair nofun
      · cases List.prefix_nil.mp hpre'
        exact .of_tally ht (hcalm.congr rfl fun h => h) hle (h5.trans hc.fair) nofun

theorem enters_tally {Φ : PoolKey → Conn σ → Prop} {m' : FrontendMessage}
    (h : Enters env i Φ s c m m' d) : tally d.log = tally c.log := by
  rcases (enters_frame h).log with hlog | ⟨pid, endpoint, hlog⟩
  · rw [hlog]
  · rw [hlog, tally_concat]
    rfl

/-- With the message just read, at most one request is unanswered. -/
theorem Calm.orderly {t : Timing} (hc : s.toCore.Calm u) (hone : s.OneCycle u (.client m t)) :
    s.toCore.outstanding u + m.cycles ≤ 1 := by
  have hle : s.toCore.outstanding u ≤ 1 := by
    cases hlease : s.lease with
    | none => rw [outstanding_none hlease]; omega
    | some lease =>
        rw [outstanding_some hlease]
        exact (hc.tame lease hlease).pending_le
  have hm := m.cycles_le_one
  rcases hone with hcopy | hfree
  · have := FrontendMessage.cycles_of_isCopy hcopy
    omega
  · omega

/-- One iteration of an orderly session whose losses fit. -/
theorem steps_counted {e : Event} (hu : env.upstream.InOrder) (hp : Passive i)
    (hq : AnswersSimply i) (hc : s.toCore.Counted env.upstream) (he : s.ended = none)
    (hord : s.Orderly env.upstream e) (hlose : s.LosesWell e)
    (h : Steps env i (QuietPool env.upstream) s e d) : d.Counted env.upstream := by
  have hcalm := steps_calm hu hp.steady hc.calm hord.1 h
  have hr := hc.running he
  have hrecv : ∀ m, tally (s.toCore.recv m).log = (tally s.log).recv m :=
    fun m => tally_concat _ _
  cases h with
  | answered m t _ h => exact answered_counted hu hq hc he hord hcalm h
  | attachFailed m m' t d' hpass _ h =>
      obtain ⟨hcount, _⟩ := hr.recv_counts hord
      have hnlog := (s.toCore.recv m).note_log m
      generalize (s.toCore.recv m).note m = c at h hnlog
      cases h with
      | intro dirty info es hnone hes =>
          obtain ⟨ns, hpre, rfl⟩ := answers_of_prefix hes
          obtain ⟨h1, h2, _, _, h5⟩ := Tally.foldl_answers (hr.recv hpass.2.1 m) c ns
          have hz : readies ns = 0 := Nat.le_zero.mp (readies_prefix_le hpre)
          have ht : tally (c.log ++ c.answers ns) =
              (c.answers ns).foldl Tally.note ((tally s.log).recv m) := by
            rw [tally_append, hnlog, hrecv]
          refine .of_tally ht hcalm ?_ (h5.trans ?_) nofun
          · rw [h1, h2, hcount, hz]
            omega
          · rw [Tally.recv_fair]
            exact hc.fair
  | hookReplied m m' m'' t ms c _ hent hh h => cases (hh.passive hp).2
  | hookStopped m m' m'' t action c hent hh ha => exact absurd (hh.passive hp).2 ha
  | put m m' m'' t c lease hent hh hlease =>
      obtain ⟨rfl, _⟩ := hh.passive hp
      have frame := enters_frame hent
      obtain ⟨hcount, hbatch⟩ := hr.recv_counts hord
      have hsw : c.swallowUntilSync = false := frame.swallowUntilSync.trans hent.passes.2.1
      obtain ⟨hcalm₁, hout⟩ := enters_calm hu hent (hc.calm.congr rfl fun h => h)
      have hout₁ : c.outstanding env.upstream = s.toCore.outstanding env.upstream := hout
      have hone : m''.isCopy = true ∨ lease.conn.pending env.upstream = 0 := by
        rw [hent.forwards.kind.2.1, ← outstanding_some hlease, hout₁]
        exact hord.1
      have hput := (Conn.put_tame hu (hcalm₁.tame lease hlease) c.origin hone).2
      rw [← outstanding_some hlease, hout₁, hent.forwards.kind.1] at hput
      have ht : tally ((c.await m'').put env.upstream lease m'').log = (tally s.log).recv m := by
        rw [← hrecv, ← enters_tally hent, awaitPut_eq]
        exact tally_concat _ _
      rw [awaitPut_eq] at ht hcalm ⊢
      refine .of_tally ht hcalm ?_ ?_ fun _ => ⟨?_, fun h => ?_, fun h => ?_, fun h => ?_⟩
      · omega
      · rw [Tally.recv_fair]
        exact hc.fair
      · rw [hcount, Nat.add_assoc]
        exact congrArg _ hput.symm
      · rw [show c.swallowUntilSync = true from h] at hsw
        cases hsw
      · obtain ⟨h1, h2⟩ := hbatch h
        omega
      · rw [hr.recv hent.passes.2.1] at h
        cases h
  | sendFailed m m' m'' t c _ lease hent hh hlease hs h =>
      obtain ⟨rfl, _⟩ := hh.passive hp
      have frame := enters_frame hent
      obtain ⟨hcount, hbatch⟩ := hr.recv_counts hord
      have hsw : c.swallowUntilSync = false := frame.swallowUntilSync.trans hent.passes.2.1
      have ht : tally (c.await m'').log = (tally s.log).recv m := by
        rw [← hrecv, ← enters_tally hent, await_eq]
      have hle := hc.calm.orderly hord.1
      refine lost_counted h hcalm ?_ ?_ ?_ ?_ ?_ ?_ ?_
      · obtain ⟨hsynth, hext⟩ := hlose hs
        rw [note_log, hrecv] at hsynth hext
        unfold Recoverable
        rw [ht, ← hsynth, await_eq, frame.hygiene, frame.fedSinceRfq, hent.forwards.kind.2.2.2]
        refine ⟨rfl, fun ho => ?_⟩
        show c.cycleIsExtended = _ ∧ _
        rw [frame.cycleIsExtended]
        exact hext (hsynth ▸ ho)
      · rw [ht]
        exact hr.recv hent.passes.2.1 m
      · rw [ht]
        omega
      · rw [ht]
        omega
      · rw [ht, Tally.recv_fair]
        exact hc.fair
      · rw [ht]
        intro hb
        obtain ⟨h1, h2⟩ := hbatch hb
        omega
      · intro h
        rw [await_eq] at h
        rw [show c.swallowUntilSync = true from h] at hsw
        cases hsw
  | clientGone => exact ⟨hcalm, hc.le, hc.fair, nofun⟩
  | idle => exact hc
  | rowDropped o m _ row hread hm =>
      obtain ⟨lease, _, hlease, _, frame, _, _⟩ := readNext_spec hread
      have hout := readNext_outstanding hread hc.calm
      refine .of_tally (congrArg tally frame.log) hcalm hc.le hc.fair fun _ =>
        ⟨?_, fun h => hr.swallow (frame.swallowUntilSync ▸ h), hr.batch, fun h => ?_⟩
      · subst hm
        exact hr.count.trans (congrArg _ hout.symm)
      · rw [hr.not_lost hlease] at h
        cases h
  | readStopped o m c e hread =>
      obtain ⟨_, _, _, _, frame, _, _⟩ := readNext_spec hread
      exact .of_tally (congrArg tally frame.log) hcalm hc.le hc.fair nofun
  | replaced o m m' m'' ms c _ hread hs hh h => cases (hh.passive hp).2
  | passed o m m' m'' c _ hread hs hh h =>
      obtain ⟨rfl, _⟩ := hh.passive hp
      exact passed_counted hc he hread hs.ready h
  | upstreamClosed lease _ hlease h =>
      have hcount := hr.count
      have hle := hc.calm.tame lease hlease |>.pending_le
      rw [← outstanding_some hlease] at hle
      exact lost_counted h hcalm (hlose (by rw [hlease]; rfl)) (hr.not_lost hlease) hc.le
        (by omega) hc.fair hr.batch hr.swallow
  | upstreamError => exact ⟨hcalm, hc.le, hc.fair, nofun⟩
  | cancel lease hlease =>
      have ht : tally (s.toCore.cancelled env.upstream lease).log = tally s.log := tally_concat _ _
      refine .of_tally ht hcalm hc.le hc.fair fun _ => ⟨?_, hr.swallow, hr.batch, fun hl => ?_⟩
      · refine hr.count.trans (congrArg _ ?_)
        rw [outstanding_some hlease, outstanding_some rfl, Conn.cancel_pending hu]
      · cases hlease.symm.trans (hr.lost hl).2.1
  | drain => exact ⟨hcalm, hc.le, hc.fair, fun _ => ⟨hr.count, hr.swallow, hr.batch, hr.lost⟩⟩
  | shutdown => exact ⟨hcalm, hc.le, hc.fair, nofun⟩

theorem counted_stable {startup : Params} (hu : env.upstream.InOrder) (hp : Passive i)
    (hq : AnswersSimply i) :
    Session.Stable env i startup (QuietPool env.upstream)
      (fun s e => s.Orderly env.upstream e ∧ s.LosesWell e) (Counted env.upstream) where
  probe := quiet_probe hu
  leg := fun sql _ => quiet_leg hu startup sql
  releases := fun _ hs _ _ => calm_releases hu hp.steady hs.inv.calm
  step := fun _ _ _ hs he hok h => steps_counted hu hp hq hs.inv he hok.1 hok.2 h

end Steps

end Core

/-! ## Runs -/

theorem Launch.start_counted {env : Env σ} {l : Launch σ κ} (hu : env.upstream.InOrder)
    (ht : l.world.Tidy (QuietPool env.upstream)) :
    Session.Holds l.interceptor l.startup (QuietPool env.upstream) (Core.Counted env.upstream)
      (l.new.start env) := by
  have hcalm := l.start_calm hu ht
  obtain ⟨_, hstart⟩ := l.start_quiet hu ht
  refine ⟨?_, hcalm.tidy, hcalm.interceptor, hcalm.startup⟩
  have hinv := hcalm.inv
  generalize (l.new.start env).toCore = d at hstart hinv
  have hfresh : ∀ c : Core σ, c.swallowUntilSync = false → c.outstanding env.upstream = 0 →
      c.Running env.upstream {} := by
    intro c hs ho
    refine ⟨by rw [ho], fun h => ?_, nofun, nofun⟩
    rw [hs] at h
    cases h
  cases hstart with
  | detached => exact .of_tally rfl hinv (Nat.le_refl _) rfl fun _ => hfresh _ rfl rfl
  | refused dirty info es hes =>
      obtain ⟨ns, hpre, rfl⟩ := Core.answers_of_prefix hes
      obtain ⟨h1, h2, _, _, h5⟩ := Tally.foldl_answers (t := {}) rfl l.new.toCore ns
      refine .of_tally rfl hinv ?_ h5 nofun
      have hz : readies ns = 0 := Nat.le_zero.mp (readies_prefix_le hpre)
      rw [hz] at h2
      exact Nat.le_trans (Nat.le_of_eq h2) (Nat.zero_le _)
  | attached c₁ ht h =>
      obtain ⟨_, hout⟩ := Core.attaches_calm hu h (Core.calm_of_none rfl)
      cases h with
      | held lease hl => cases hl
      | leased =>
          exact .of_tally rfl hinv (Nat.le_refl _) rfl fun _ => hfresh _ rfl hout

/-- The upstream is reached and does not close. -/
def Event.Smooth : Event → Prop
  | .client _ t => t.sendOk = true
  | .upstreamClosed => False
  | .upstreamError _ => False
  | _ => True

instance : ∀ e, Decidable (Event.Smooth e)
  | .client _ _ => inferInstanceAs (Decidable (_ = _))
  | .upstreamClosed | .upstreamError _ => isFalse nofun
  | .clientGone | .upstream | .cancel | .shutdown => isTrue trivial

/-- Against an upstream that never fails, every request is answered with one `ReadyForQuery`,
    whatever `on_query` denies, replies to or scatters. -/
theorem requests_answered (env : Env σ) (l : Launch σ κ) (ms : List (Move σ))
    (hu : env.upstream.InOrder) (hworld : l.world.Tidy (QuietPool env.upstream))
    (hpassive : Passive l.interceptor) (hquery : AnswersSimply l.interceptor)
    (hrun : l.Runs env (QuietPool env.upstream)
      (fun s e => s.Orderly env.upstream e ∧ e.Smooth) ms) :
    (l.after env ms).toCore.Answers env.upstream := by
  have hrun' : l.Runs env (QuietPool env.upstream)
      (fun s e => s.Orderly env.upstream e ∧ s.LosesWell e) ms := by
    refine hrun.mono fun s e h => ⟨h.1, ?_⟩
    cases e with
    | client m t => exact fun hs => by rw [show t.sendOk = true from h.2] at hs; cases hs
    | upstreamClosed => exact h.2.elim
    | _ => trivial
  exact (Launch.holds (Core.counted_stable hu hpassive hquery) (l.start_counted hu hworld)
    hrun').inv.recovers.toAnswers

open Sample

/-- A policy that denies every query answers simply. -/
theorem AnswersSimply.deny (info : ErrorInfo) :
    AnswersSimply (some (onQuery (.deny info))) := by
  rintro input action ⟨h, hh, ctx, rfl⟩
  cases hh
  exact ⟨nofun, nofun⟩

/-- A denied batch and a denied query. -/
theorem requests_answered_denied :
    (after .session (some (onQuery (.deny Session.lostInfo)))
      [client (.parse none "SELECT 1" []), client (.bind none none),
        client .sync, client (.query "SELECT 1")]).toCore.Answers
      (env .session).upstream :=
  requests_answered (env .session) (launch .session _)
    (List.map .own [_, _, _, _]) (pg_inOrder _) (world_quiet .session)
    (by rintro h hh ctx; cases hh; exact ⟨fun _ => rfl, fun _ => rfl⟩) (.deny _)
    (Session.along_own (by decide : Along (Session.step (env .session)) _ _ [_, _, _, _]))

/-- A `Parse` that `on_query` answers with a reply, or with a scatter that is refused, gets a
    `ReadyForQuery` of its own besides the one for the `Sync` of its batch. -/
theorem requests_overanswered :
    ¬ (after .session (some (onQuery (.reply [])))
        [client (.parse none "SELECT 1" []), client .sync]).toCore.Answers
        (env .session).upstream ∧
      ¬ (after .session
        (some (onQuery (.scatter { legs := [], merge := .concat, tag := "SELECT" })))
        ([client (.parse none "SELECT 1" []), client .sync] ++
          reads 1)).toCore.Answers (env .session).upstream := by
  refine ⟨fun h => ?_, fun h => ?_⟩
  · exact absurd h.le (by decide)
  · exact absurd h.le (by decide)

/-- When every loss is recoverable, every request is answered with one `ReadyForQuery` and every
    interrupted cycle with one `ErrorResponse`. -/
theorem losses_answered (env : Env σ) (l : Launch σ κ) (ms : List (Move σ))
    (hu : env.upstream.InOrder) (hworld : l.world.Tidy (QuietPool env.upstream))
    (hpassive : Passive l.interceptor) (hquery : AnswersSimply l.interceptor)
    (hrun : l.Runs env (QuietPool env.upstream)
      (fun s e => s.Orderly env.upstream e ∧ s.LosesWell e) ms) :
    (l.after env ms).toCore.Recovers env.upstream :=
  (Launch.holds (Core.counted_stable hu hpassive hquery) (l.start_counted hu hworld)
    hrun).inv.recovers

/-- A loss behind a forwarded `Query`, and one inside an extended batch. -/
theorem losses_answered_twice :
    (after .session none
      [client (.query "SELECT 1"), .upstreamClosed,
        client (.parse none "SELECT 1" []), clientCut .flush,
        client .sync]).toCore.Recovers (env .session).upstream :=
  losses_answered (env .session) (launch .session none)
    (List.map .own [_, _, _, _, _]) (pg_inOrder _) (world_quiet .session) passive_none
    (by rintro input action ⟨h, hh, _⟩; cases hh)
    (Session.along_own
      (by decide : Along (Session.step (env .session)) _ _ [_, _, _, _, _]))

/-- After its `Sync` was forwarded, a lost batch is never answered. A lost batch without a
    `Parse` of its own, after a simple query, is answered at the loss and again at its `Sync`. -/
theorem losses_misanswered :
    ¬ (after .session none
        [client (.parse none "SELECT 1" []), client .sync,
          .upstreamClosed]).toCore.Recovers (env .session).upstream ∧
      ¬ (after .session none
        ([client (.query "SELECT 1")] ++ reads 2 ++
          [client (.bind none none), clientCut .flush,
            client .sync] ++ reads 1)).toCore.Recovers
        (env .session).upstream := by
  refine ⟨fun h => ?_, fun h => ?_⟩
  · exact absurd (h.eq (by decide) (by decide)) (by decide)
  · exact absurd h.le (by decide)

end Pgferry
