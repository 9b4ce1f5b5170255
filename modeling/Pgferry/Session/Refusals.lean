/-
  What a refused batch leaves on the upstream connection.

  The pump refuses a `Parse` that `on_query` denies or that re-uses a statement name with another
  text: it sends an `ErrorResponse`, swallows the rest of the batch and answers its `Sync`
  itself. The messages of the batch before the `Parse` have been fed to the lease by then. The
  `Sync` that would have closed them upstream never gets there.

  `Refusals` reads a log: which messages belong to refused batches that were closed this way,
  and whether one of them was executed or answered by the upstream afterwards.

  Proved: `refusals_clean`. Nothing of a refused batch is executed or answered later in every run
  in which a `Parse` is refused only when nothing of its batch is on the lease (`RefusesClean`).
-/
import Pgferry.Session.Traffic

namespace Pgferry

open Loop

variable {σ κ : Type}

/-! ## The refused batches of a log -/

structure Refusals where
  /-- The message read last. -/
  last : Option FrontendMessage := none
  /-- The messages of the batch that the last message belongs to. -/
  current : List Nat := []
  /-- A `Parse` of the current batch was refused. -/
  refused : Bool := false
  /-- The messages of the refused batches whose `Sync` the pump has answered. -/
  closed : List Nat := []
  /-- What was fed to the lease and not flushed. -/
  waiting : List Nat := []
  /-- No message of a closed batch was executed or answered by the upstream. -/
  ok : Bool := true

namespace Refusals

/-- The messages of the batch that goes on with the next message. A `Sync` ends a batch, and so
    does a `Query` unless it is skipped. -/
def opened (r : Refusals) : List Nat :=
  match r.last with
  | none => []
  | some .sync => []
  | some (.query _) => if r.refused then r.current else []
  | some _ => r.current

def isParse : FrontendMessage → Bool
  | .parse _ _ _ => true
  | _ => false

/-- A message that the pump sends itself. -/
def answer (r : Refusals) : BackendMessage → Refusals
  | .errorResponse _ => { r with refused := r.refused || r.last.any isParse }
  | .readyForQuery _ =>
      { r with
        refused := false
        closed := if r.refused ∧ r.last = some .sync then r.closed ++ r.current else r.closed }
  | _ => r

def note (r : Refusals) : Entry → Refusals
  | .recv n m => { r with last := some m, current := r.opened ++ [n] }
  | .forwarded _ n m =>
      if m.triggersResponse then
        { r with
          waiting := []
          ok := r.ok && (r.waiting ++ [n]).all fun k => !r.closed.contains k }
      else { r with waiting := r.waiting ++ [n] }
  | .sent true _ m => r.answer m
  | .sent false o _ => { r with ok := r.ok && !r.closed.contains o.seq }
  -- A scatter leg flushes what is fed on the lease.
  | .sessionLeg _ _ =>
      { r with waiting := [], ok := r.ok && r.waiting.all fun k => !r.closed.contains k }
  | .attached _ _ => { r with waiting := [] }
  | .detached _ => { r with waiting := [] }
  | .lost _ _ _ => { r with waiting := [] }
  | .cancelled _ => r

end Refusals

def refusals (log : List Entry) : Refusals := log.foldl Refusals.note {}

theorem refusals_append (xs ys : List Entry) :
    refusals (xs ++ ys) = ys.foldl Refusals.note (refusals xs) :=
  List.foldl_append

theorem refusals_concat (xs : List Entry) (e : Entry) :
    refusals (xs ++ [e]) = (refusals xs).note e :=
  refusals_append xs [e]

namespace Refusals

/-- What the pump's own messages leave alone, and what they can close. -/
structure AnswerFrame (r r' : Refusals) : Prop where
  last : r'.last = r.last
  current : r'.current = r.current
  waiting : r'.waiting = r.waiting
  ok : r'.ok = r.ok
  closed : ∀ n ∈ r'.closed, n ∈ r.closed ∨ n ∈ r.current
  /-- Only a `Sync` closes a batch. -/
  open_ : r.last ≠ some .sync → r'.closed = r.closed
  refused : r.refused = false → r.last.any isParse = false →
    r'.refused = false ∧ r'.closed = r.closed

theorem AnswerFrame.refl (r : Refusals) : AnswerFrame r r :=
  ⟨rfl, rfl, rfl, rfl, fun _ h => .inl h, fun _ => rfl, fun h _ => ⟨h, rfl⟩⟩

theorem answer_frame (r : Refusals) (m : BackendMessage) : AnswerFrame r (r.answer m) := by
  cases m with
  | errorResponse info =>
      refine ⟨rfl, rfl, rfl, rfl, fun _ h => .inl h, fun _ => rfl, fun h h' => ⟨?_, rfl⟩⟩
      simp [answer, h, h']
  | readyForQuery status =>
      refine ⟨rfl, rfl, rfl, rfl, fun n hn => ?_, fun h => ?_,
        fun h _ => ⟨rfl, by simp [answer, h]⟩⟩
      · simp only [answer] at hn
        split at hn
        · exact List.mem_append.mp hn
        · exact .inl hn
      · simp [answer, h]
  | _ => exact .refl r

theorem foldl_answers (c : Core σ) (ms : List BackendMessage) (r : Refusals) :
    AnswerFrame r ((c.answers ms).foldl note r) := by
  induction ms generalizing r with
  | nil => exact .refl r
  | cons m ms ih =>
      have h1 := r.answer_frame m
      have h2 := ih (r.answer m)
      refine ⟨h2.last.trans h1.last, h2.current.trans h1.current, h2.waiting.trans h1.waiting,
        h2.ok.trans h1.ok, fun n hn => ?_, fun h => ?_, fun h h' => ?_⟩
      · rcases h2.closed n hn with hn | hn
        · exact h1.closed n hn
        · exact .inr (h1.current ▸ hn)
      · exact (h2.open_ (by rw [h1.last]; exact h)).trans (h1.open_ h)
      · obtain ⟨e1, e2⟩ := h1.refused h h'
        obtain ⟨e3, e4⟩ := h2.refused e1 (by rw [h1.last]; exact h')
        exact ⟨e3, e4.trans e2⟩

/-- Nothing is refused any more once the pump has sent a `ReadyForQuery`. -/
theorem foldl_answers_ready (c : Core σ) (ms : List BackendMessage) (status : TransactionStatus)
    (r : Refusals) :
    ((c.answers (ms ++ [.readyForQuery status])).foldl note r).refused = false := by
  rw [Core.answers, List.map_append, List.foldl_append]
  rfl

end Refusals

/-! ## The invariant -/

namespace Core

/-- The origins of what is fed on the lease and not flushed. -/
def fed (c : Core σ) : List Origin :=
  match c.lease with
  | some lease => lease.conn.outbox.map Prod.fst
  | none => []

theorem fed_some {c : Core σ} {lease : UpstreamLease σ} (h : c.lease = some lease) :
    c.fed = lease.conn.outbox.map Prod.fst := by
  rw [fed, h]

theorem fed_congr {c d : Core σ} (h : d.lease = c.lease) : d.fed = c.fed := by
  rw [fed, fed, h]

theorem fed_subset (u : Upstream σ) (c : Core σ) : ∀ o ∈ c.fed, o ∈ c.traffic u := by
  intro o ho
  cases hl : c.lease with
  | none =>
      rw [fed, hl] at ho
      exact absurd ho List.not_mem_nil
  | some lease =>
      rw [fed_some hl] at ho
      rw [traffic_some hl]
      exact List.mem_append_right _ (List.mem_append_right _ ho)

/-- What holds of a live session whose log reads as `r`. -/
structure Apart (u : Upstream σ) (c : Core σ) (r : Refusals) : Prop where
  /-- Nothing of a closed batch is on the lease. -/
  closed : ∀ o ∈ c.traffic u, o.seq ∉ r.closed
  /-- What waits to be flushed is on the lease. -/
  waiting : ∀ n ∈ r.waiting, ∃ o ∈ c.fed, o.seq = n
  /-- While a refused batch is swallowed, nothing of it is on the lease. -/
  refused : r.refused = true →
    c.swallowUntilSync = true ∧ ∀ o ∈ c.traffic u, o.seq ∉ r.current

structure Clear (u : Upstream σ) (c : Core σ) : Prop where
  mine : c.Mine u
  ok : (refusals c.log).ok = true
  closed_le : ∀ n ∈ (refusals c.log).closed, n ≤ c.seq
  current_le : ∀ n ∈ (refusals c.log).current, n ≤ c.seq
  apart : c.ended = none → c.Apart u (refusals c.log)

/-- Without traffic, nothing of any batch is on the lease. -/
theorem apart_of_nil {u : Upstream σ} {c : Core σ} {r : Refusals} (ht : c.traffic u = [])
    (hw : r.waiting = []) (hr : r.refused = true → c.swallowUntilSync = true) : c.Apart u r := by
  refine ⟨fun o ho => ?_, fun n hn => ?_, fun h => ⟨hr h, fun o ho => ?_⟩⟩
  · exact absurd (ht ▸ ho) List.not_mem_nil
  · exact absurd (hw ▸ hn) List.not_mem_nil
  · exact absurd (ht ▸ ho) List.not_mem_nil

/-- What waits on a lease that rests. -/
theorem Apart.waiting_nil {u : Upstream σ} {c : Core σ} {r : Refusals} (h : c.Apart u r)
    (ht : c.traffic u = []) : r.waiting = [] := by
  refine List.eq_nil_iff_forall_not_mem.mpr fun n hn => ?_
  obtain ⟨o, ho, _⟩ := h.waiting n hn
  exact absurd (ht ▸ c.fed_subset u o ho) List.not_mem_nil

end Core

/-- `m` is a `Parse` that the pump refuses: `on_query` denies it, or its name is registered with
    another text. -/
def Session.Refuses (i : Option (Interceptor κ)) (s : Session σ κ) (m : FrontendMessage) : Prop :=
  (∃ input info, cycleInputOf m = some input ∧ input.kind.isExtended = true ∧
      Asks i input (.deny info)) ∨
    ∃ m' name query typeOids known, Forwards i m m' ∧
      pendingParse m' = some (name, query, typeOids) ∧
      s.registry.lookup name = some known ∧ known.1 ≠ query

/-- The pump refuses a `Parse` only when nothing of its batch is on the lease. It detaches, and
    answers a query itself, only when the lease rests. -/
structure Session.RefusesClean (env : Env σ) (s : Session σ κ) (e : Event) : Prop where
  apart : ∀ m t, e = .client m t → s.swallowUntilSync = false → s.Refuses s.interceptor m →
    ∀ o ∈ s.toCore.traffic env.upstream, o.seq ∉ (refusals s.log).opened
  legs : ∀ sql t, e = .client (.query sql) t → s.AnswersItself env s.interceptor e →
    s.toCore.Rests env.upstream
  detaches : s.DetachesClean env e

namespace Core

section Answered

variable {env : Env σ} {i : Option (Interceptor κ)} {s : Session σ κ} {d : Core σ}
  {m : FrontendMessage} {t : Timing}

/-- The state of the refusals when the answer to `m` begins. -/
theorem refusals_recv (c : Core σ) (m : FrontendMessage) :
    refusals (c.recv m).log = { refusals c.log with
      last := some m, current := (refusals c.log).opened ++ [c.seq + 1] } :=
  refusals_concat _ _

/-- Writing `ms` as the answer to `m`, to the end. -/
theorem refused_of_said {c₁ : Core σ} {ms : List BackendMessage} {f : Core σ → Core σ}
    (h : Said c₁ ((s.toCore.recv m).answers ms) f d) (hd : d.ended = none)
    (hf : ∀ e, (f e).log = e.log) :
    d = f (c₁.emit ((s.toCore.recv m).answers ms)) ∧
      refusals d.log = ((s.toCore.recv m).answers ms).foldl Refusals.note (refusals c₁.log) := by
  cases h with
  | done =>
      refine ⟨rfl, ?_⟩
      rw [hf]
      exact refusals_append _ _
  | cut => cases hd

/-- When a batch counts as refused after a local answer: it did before, or `m` is refused. -/
theorem answered_refused (h : Answered env i s (s.toCore.recv m) m t d) (hd : d.ended = none)
    (hlive : (refusals s.log).refused = true → s.swallowUntilSync = true)
    (hr : (refusals d.log).refused = true) :
    d.swallowUntilSync = true ∧
      ((refusals s.log).refused = true ∨ s.swallowUntilSync = false ∧ s.Refuses i m) := by
  -- An answer that ends with a `ReadyForQuery` leaves nothing refused.
  have hready : ∀ {c₁ : Core σ} (ms : List BackendMessage) {status : TransactionStatus}
      {f : Core σ → Core σ},
      Said c₁ ((s.toCore.recv m).answers (ms ++ [.readyForQuery status])) f d →
      (∀ e, (f e).log = e.log) → False := by
    intro c₁ ms status f h hf
    rw [(refused_of_said h hd hf).2, Refusals.foldl_answers_ready] at hr
    cases hr
  have hrecv : (refusals (s.toCore.recv m).log).refused = (refusals s.log).refused := by
    rw [refusals_recv]
  cases h with
  | quit => cases hd
  | swallowed hs => exact ⟨hs, .inl (hrecv.symm.trans hr)⟩
  | localFlush hs =>
      have hs' : s.swallowUntilSync = false := hs
      rw [hlive (hrecv.symm.trans hr)] at hs'
      cases hs'
  | closed => cases hd
  | resumed _ _ _ h => exact (hready [] h fun _ => rfl).elim
  | localSync _ _ _ _ _ h => exact (hready [] h fun _ => rfl).elim
  | localClose _ _ _ hs _ _ _ h =>
      have hs' : s.swallowUntilSync = false := hs
      rw [(refused_of_said h hd fun _ => rfl).2] at hr
      rw [hlive (hrecv.symm.trans hr)] at hs'
      cases hs'
  | deniedSimple _ _ _ _ _ _ _ h => exact (hready [_] h fun _ => rfl).elim
  | deniedExtended input info _ hp hin ha hk h =>
      obtain ⟨hd', _⟩ := refused_of_said h hd fun _ => rfl
      exact ⟨by rw [hd'], .inr ⟨hp.2.1, .inl ⟨input, info, hin, hk, ha⟩⟩⟩
  | repliedSimple _ _ _ _ _ _ _ h => exact (hready _ h fun _ => rfl).elim
  | repliedExtended _ _ _ _ _ _ _ h => exact (hready _ h fun _ => rfl).elim
  | scatterOk _ _ _ _ _ _ _ _ _ _ _ _ h => exact (hready _ h fun _ => rfl).elim
  | scatterRefused _ _ _ _ _ _ _ _ h => exact (hready [_] h fun _ => rfl).elim
  | scatterFailed _ _ _ _ _ _ _ _ _ _ _ h => exact (hready [_] h fun _ => rfl).elim
  | scatterPanicked => cases hd
  | reparsed _ _ _ _ _ _ hp _ _ _ h =>
      have hs : s.swallowUntilSync = false := hp.2.1
      rw [(refused_of_said h hd fun _ => rfl).2, note_log] at hr
      rw [hlive (hrecv.symm.trans hr)] at hs
      cases hs
  | duplicate m' name query typeOids known _ hp hf hm hk hne h =>
      obtain ⟨hd', _⟩ := refused_of_said h hd fun _ => rfl
      exact ⟨by rw [hd'], .inr ⟨hp.2.1, .inr ⟨m', name, query, typeOids, known, hf, hm, hk, hne⟩⟩⟩

theorem opened_subset (r : Refusals) : ∀ n ∈ r.opened, n ∈ r.current := by
  intro n hn
  unfold Refusals.opened at hn
  split at hn
  · exact absurd hn List.not_mem_nil
  · exact absurd hn List.not_mem_nil
  · split at hn
    · exact hn
    · exact absurd hn List.not_mem_nil
  · exact hn

/-- The message just read belongs to the current batch and is not on the lease. -/
theorem Clear.not_mem_current {u : Upstream σ} {c : Core σ} (hc : c.Clear u) {o : Origin}
    (ho : o ∈ c.traffic u) (hn : o.seq ∉ (refusals c.log).opened) :
    o.seq ∉ (refusals c.log).opened ++ [c.seq + 1] := by
  intro h
  rcases List.mem_append.mp h with h | h
  · exact hn h
  · obtain ⟨n, hle, rfl⟩ := hc.mine.coming o ho
    have := List.mem_singleton.mp h
    simp only [Origin.seq] at this
    omega

theorem answered_clear (hu : env.upstream.InOrder) (hc : s.toCore.Clear env.upstream)
    (he : s.ended = none) (hok : s.RefusesClean env (.client m t)) (hi : s.interceptor = i)
    (h : Answered env i s (s.toCore.recv m) m t d) (hmine : d.Mine env.upstream) :
    d.Clear env.upstream := by
  subst hi
  obtain ⟨legs, ms, hlog, hlegs, _⟩ := answered_log h
  obtain ⟨hf, hl⟩ := answered_frame h
  have hap := hc.apart he
  have hseq : d.seq = s.seq + 1 := hf.seq
  -- A query that the pump answers finds a lease that rests.
  have hrests : ∀ sql, m = .query sql → s.toCore.Rests env.upstream := by
    rintro sql rfl
    exact hok.legs sql t rfl ⟨nofun, d, h⟩
  have hidle : ∀ sql, m = .query sql → (refusals s.log).waiting = [] := fun sql hm =>
    hap.waiting_nil (hrests sql hm).traffic
  have hrecv := s.toCore.refusals_recv m
  have hr : refusals d.log =
      ((s.toCore.recv m).answers ms).foldl Refusals.note (refusals (s.toCore.recv m).log) := by
    rw [hlog, ← List.append_assoc, refusals_append]
    congr 1
    cases hlegs with
    | none => rw [List.append_nil]
    | one sql leg endpoint hm =>
        rw [refusals_concat, hrecv]
        simp [Refusals.note, hidle sql hm]
  have hframe := Refusals.foldl_answers (s.toCore.recv m) ms (refusals (s.toCore.recv m).log)
  rw [← hr, hrecv] at hframe
  have hcur : (refusals d.log).current = (refusals s.log).opened ++ [s.seq + 1] := hframe.current
  have hopen : ∀ n ∈ (refusals s.log).opened ++ [s.seq + 1], n ≤ d.seq := by
    intro n hn
    rcases List.mem_append.mp hn with hn | hn
    · have := hc.current_le n (opened_subset _ n hn)
      omega
    · rw [List.mem_singleton.mp hn, hseq]
  have hsub : ∀ o ∈ d.traffic env.upstream, o ∈ s.toCore.traffic env.upstream := by
    intro o ho
    cases hl with
    | same hl => exact traffic_congr (d := d) hl ▸ ho
    | dropped _ _ _ hl => exact absurd (traffic_none hl ▸ ho) List.not_mem_nil
    | ran _ sql lease leg hm hlease hb hl =>
        have hq := hrests sql hm lease hlease
        rw [traffic_some hl, (Conn.runQueryCollect_quiet hu hq.tame hq.pending hb).tags] at ho
        exact absurd ho List.not_mem_nil
  have hcurrent : (refusals s.log).refused = true → ∀ o ∈ s.toCore.traffic env.upstream,
      o.seq ∉ (refusals s.log).opened ++ [s.seq + 1] := fun hrf o ho =>
    hc.not_mem_current ho fun hn => (hap.refused hrf).2 o ho (opened_subset _ _ hn)
  refine ⟨hmine, hframe.ok.trans hc.ok, fun n hn => ?_, fun n hn => ?_,
    fun hd => ⟨fun o ho => ?_, fun n hn => ?_, fun hrf => ?_⟩⟩
  · rcases hframe.closed n hn with hn | hn
    · have := hc.closed_le n hn
      omega
    · exact hopen n hn
  · exact hopen n (hcur ▸ hn)
  · -- Only the `Sync` of a refused batch closes anything.
    by_cases hm : m = .sync
    · subst hm
      rcases answered_sync h with hs | ⟨_, hl⟩
      · cases hrf : (refusals s.log).refused with
        | true =>
            intro hn
            rcases hframe.closed _ hn with hn | hn
            · exact hap.closed o (hsub o ho) hn
            · exact hcurrent hrf o (hsub o ho) hn
        | false =>
            rw [(hframe.refused hrf rfl).2]
            exact hap.closed o (hsub o ho)
      · exact absurd (traffic_none hl ▸ hsub o ho) List.not_mem_nil
    · rw [hframe.open_ (by simpa using hm)]
      exact hap.closed o (hsub o ho)
  · rw [hframe.waiting] at hn
    cases hl with
    | same hl => exact (fed_congr (d := d) hl).symm ▸ hap.waiting n hn
    | dropped _ sql hm _ => exact absurd (hidle sql hm ▸ hn) List.not_mem_nil
    | ran _ sql lease leg hm _ _ _ => exact absurd (hidle sql hm ▸ hn) List.not_mem_nil
  · obtain ⟨hswallow, hwhy⟩ := answered_refused h hd (fun h => (hap.refused h).1) hrf
    refine ⟨hswallow, fun o ho => ?_⟩
    rw [hcur]
    rcases hwhy with hwhy | ⟨hs, hwhy⟩
    · exact hcurrent hwhy o (hsub o ho)
    · exact hc.not_mem_current (hsub o ho) (hok.apart m t rfl hs hwhy o (hsub o ho))

end Answered

section Steps

variable {env : Env σ} {i : Option (Interceptor κ)} {s : Session σ κ} {d : Core σ}

/-- The loss of a lease. -/
theorem lost_clear {u : Upstream σ} {c : Core σ} {lease : UpstreamLease σ} {reason : String}
    {synth : Bool} (h : Lost i c lease reason synth d) (hmine : d.Mine u)
    (hok : (refusals c.log).ok = true) (hclosed : ∀ n ∈ (refusals c.log).closed, n ≤ c.seq)
    (hcur : ∀ n ∈ (refusals c.log).current, n ≤ c.seq)
    (hrefused : (refusals c.log).refused = true → c.swallowUntilSync = true) : d.Clear u := by
  have hlost : ∀ decision, refusals (c.log ++ [c.lostEntry lease decision]) =
      { refusals c.log with waiting := [] } := fun decision => refusals_concat _ _
  -- What is written after the loss.
  have hsaid : ∀ {ms : List BackendMessage} {f : Core σ → Core σ},
      Said (c.emit [c.lostEntry lease .relink]).unleased (c.answers ms) f d →
      (∀ e, (f e).log = e.log ∧ (f e).seq = e.seq ∧ (f e).lease = e.lease) →
      (d.ended = none → (refusals d.log).refused = true → d.swallowUntilSync = true) →
      d.Clear u := by
    intro ms f h hf hswallow
    obtain ⟨ns, hlog, hseq, hl⟩ : ∃ ns,
        d.log = c.log ++ [c.lostEntry lease .relink] ++ c.answers ns ∧ d.seq = c.seq ∧
          d.lease = none := by
      cases h with
      | done =>
          obtain ⟨h1, h2, h3⟩ :=
            hf ((c.emit [c.lostEntry lease .relink]).unleased.emit (c.answers ms))
          exact ⟨ms, h1, h2, h3⟩
      | cut pre endpoint attached hpre =>
          obtain ⟨ns, _, rfl⟩ := answers_of_prefix hpre
          exact ⟨ns, rfl, rfl, rfl⟩
    have hframe := Refusals.foldl_answers c ns { refusals c.log with waiting := [] }
    rw [← hlost .relink, ← refusals_append, ← hlog, hlost] at hframe
    refine ⟨hmine, hframe.ok.trans hok, fun n hn => ?_, fun n hn => ?_, fun he => ?_⟩
    · rw [hseq]
      exact (hframe.closed n hn).elim (hclosed n) (hcur n)
    · rw [hseq]
      have hcur' : (refusals d.log).current = (refusals c.log).current := hframe.current
      exact hcur n (hcur' ▸ hn)
    · exact apart_of_nil (traffic_none hl) hframe.waiting (hswallow he)
  cases h with
  | closed =>
      have hr := hlost .close
      exact ⟨hmine, (congrArg Refusals.ok hr).trans hok,
        fun n hn => hclosed n ((congrArg Refusals.closed hr).subst hn),
        fun n hn => hcur n ((congrArg Refusals.current hr).subst hn), nofun⟩
  | silent =>
      have hr := hlost .relink
      exact ⟨hmine, (congrArg Refusals.ok hr).trans hok,
        fun n hn => hclosed n ((congrArg Refusals.closed hr).subst hn),
        fun n hn => hcur n ((congrArg Refusals.current hr).subst hn), fun _ =>
          apart_of_nil (traffic_none rfl) (congrArg Refusals.waiting hr) fun hrf =>
            hrefused ((congrArg Refusals.refused hr).symm.trans hrf)⟩
  | simple _ _ _ h =>
      refine hsaid h (fun _ => ⟨rfl, rfl, rfl⟩) fun hd hrf => ?_
      cases h with
      | done =>
          rw [show (settled _).log = c.log ++ [c.lostEntry lease .relink] ++ c.answers _ from rfl,
            refusals_append] at hrf
          cases hrf
      | cut => cases hd
  | extended _ _ _ h =>
      refine hsaid h (fun _ => ⟨rfl, rfl, rfl⟩) fun hd _ => ?_
      cases h with
      | done => rfl
      | cut => cases hd

/-- Attaching changes what waits at most. -/
theorem enters_refusals {Φ : PoolKey → Conn σ → Prop} {c : Core σ} {m m' : FrontendMessage}
    (h : Enters env i Φ s c m m' d) (hc : ∀ n ∈ (refusals c.log).waiting, ∃ o ∈ c.fed, o.seq = n) :
    ∃ waiting, refusals d.log = { refusals c.log with waiting := waiting } ∧
      ∀ n ∈ waiting, ∃ o ∈ d.fed, o.seq = n := by
  obtain ⟨b, hb⟩ := c.note_eq m
  obtain ⟨c₁, hatt, rfl⟩ := h.attaches
  obtain ⟨_, _, hr⟩ := c₁.register_eq (pendingParse m')
  rw [hb] at hatt
  rw [hr]
  cases hatt with
  | held => exact ⟨_, rfl, hc⟩
  | leased => exact ⟨[], refusals_concat _ _, fun _ h => absurd h List.not_mem_nil⟩

theorem put_fed {u : Upstream σ} {c : Core σ} {lease : UpstreamLease σ} {m : FrontendMessage}
    (hlease : c.lease = some lease) (hm : m.triggersResponse = false) :
    ((c.await m).put u lease m).fed = c.fed ++ [c.origin] := by
  rw [awaitPut_eq, fed_some rfl, fed_some hlease, hm]
  simp [Conn.feed]

/-- Forwarding a message of a batch that is not refused. -/
theorem put_clear {c : Core σ} {lease : UpstreamLease σ} {m m' m'' : FrontendMessage}
    (hu : env.upstream.InOrder) (hc : s.toCore.Clear env.upstream) (he : s.ended = none)
    (hent : Enters env i (QuietPool env.upstream) s (s.toCore.recv m) m m' c)
    (hlease : c.lease = some lease)
    (hmine : ((c.await m'').put env.upstream lease m'').Mine env.upstream)
    (hmem : ∀ o ∈ ((c.await m'').put env.upstream lease m'').traffic env.upstream,
      o ∈ s.toCore.traffic env.upstream ∨ o.seq = s.seq + 1) :
    ((c.await m'').put env.upstream lease m'').Clear env.upstream := by
  have hap := hc.apart he
  have hrecv := s.toCore.refusals_recv m
  have hfr := enters_frame hent
  have hseq : c.seq = s.seq + 1 := hfr.seq
  obtain ⟨waiting, hr, hw⟩ := enters_refusals hent (by rw [hrecv]; exact hap.waiting)
  rw [hrecv] at hr
  have hnew : ∀ n ∈ (refusals s.log).closed, n ≠ s.seq + 1 := by
    intro n hn
    have := hc.closed_le n hn
    omega
  -- What waits on the lease was on the lease of `s`.
  have hwait : ∀ n ∈ waiting, n ∉ (refusals s.log).closed := by
    intro n hn
    obtain ⟨o, ho, rfl⟩ := hw n hn
    have ho' := c.fed_subset env.upstream o ho
    rcases (enters_traffic hu hent).2 with ht | ht <;> rw [ht] at ho'
    · exact hap.closed o ho'
    · exact absurd ho' List.not_mem_nil
  have hnot : (refusals s.log).refused = false := by
    cases hrf : (refusals s.log).refused with
    | false => rfl
    | true =>
        have hs : s.swallowUntilSync = false := hent.passes.2.1
        rw [(hap.refused hrf).1] at hs
        cases hs
  have hall : ((waiting ++ [c.seq]).all fun k => !(refusals s.log).closed.contains k) = true := by
    refine List.all_eq_true.mpr fun n hn => ?_
    have hn' : n ∉ (refusals s.log).closed := by
      rcases List.mem_append.mp hn with hn | hn
      · exact hwait n hn
      · rw [List.mem_singleton.mp hn, hseq]
        exact fun h => hnew _ h rfl
    simpa using hn'
  have hlog : refusals (c.log ++ [.forwarded lease.conn.processId c.seq m'']) =
    { refusals s.log with
      last := some m
      current := (refusals s.log).opened ++ [s.seq + 1]
      waiting := if m''.triggersResponse then [] else waiting ++ [c.seq] } := by
    rw [refusals_concat, hr, Refusals.note]
    have hok := hc.ok
    split
    · simp only [hall, hok, Bool.and_true]
    · rfl
  have hd : refusals ((c.await m'').put env.upstream lease m'').log = _ :=
    (congrArg (fun d => refusals d.log) (c.awaitPut_eq env.upstream lease m'')).trans hlog
  have hdseq : ((c.await m'').put env.upstream lease m'').seq = s.seq + 1 := by
    rw [awaitPut_eq]
    exact hseq
  refine ⟨hmine, by rw [hd]; exact hc.ok, ?_, ?_, fun _ => ?_⟩ <;> rw [hd]
  · intro n hn
    have := hc.closed_le n hn
    omega
  · intro n hn
    rcases List.mem_append.mp hn with hn | hn
    · have := hc.current_le n (opened_subset _ n hn)
      omega
    · rw [List.mem_singleton.mp hn, hdseq]
  · refine ⟨fun o ho => ?_, fun n hn => ?_, fun hrf => ?_⟩
    · rcases hmem o ho with ho | ho
      · exact hap.closed o ho
      · exact fun h => hnew _ h ho
    · dsimp only at hn
      split at hn
      case isTrue => exact absurd hn List.not_mem_nil
      case isFalse ht =>
        rw [put_fed hlease (by simpa using ht)]
        rcases List.mem_append.mp hn with hn | hn
        · obtain ⟨o, ho, hon⟩ := hw n hn
          exact ⟨o, List.mem_append_left _ ho, hon⟩
        · exact ⟨c.origin, List.mem_append_right _ (List.mem_singleton_self _),
            (List.mem_singleton.mp hn).symm⟩
    · rw [show (refusals s.log).refused = true from hrf] at hnot
      cases hnot

/-- A step that reads no client message and adds nothing to the traffic. -/
theorem Clear.keep {u : Upstream σ} {c : Core σ} (hc : c.Clear u) (he : c.ended = none)
    (hmine : d.Mine u) (hseq : d.seq = c.seq) (hs : d.swallowUntilSync = c.swallowUntilSync)
    (hsub : ∀ o ∈ d.traffic u, o ∈ c.traffic u)
    (hr : refusals d.log = refusals c.log ∧ d.fed = c.fed ∨
      refusals d.log = { refusals c.log with waiting := [] }) : d.Clear u := by
  have hap := hc.apart he
  rcases hr with ⟨hr, hfed⟩ | hr
  · refine ⟨hmine, by rw [hr]; exact hc.ok, ?_, ?_, fun _ => ?_⟩ <;> rw [hr]
    · rw [hseq]
      exact hc.closed_le
    · rw [hseq]
      exact hc.current_le
    · refine ⟨fun o ho => hap.closed o (hsub o ho), by rw [hfed]; exact hap.waiting, fun hrf => ?_⟩
      exact ⟨hs.trans (hap.refused hrf).1, fun o ho => (hap.refused hrf).2 o (hsub o ho)⟩
  · refine ⟨hmine, by rw [hr]; exact hc.ok, ?_, ?_, fun _ => ?_⟩ <;> rw [hr]
    · rw [hseq]
      exact hc.closed_le
    · rw [hseq]
      exact hc.current_le
    · refine ⟨fun o ho => hap.closed o (hsub o ho), fun _ h => absurd h List.not_mem_nil,
        fun hrf => ?_⟩
      exact ⟨hs.trans (hap.refused hrf).1, fun o ho => (hap.refused hrf).2 o (hsub o ho)⟩

theorem readNext_fed {tm : Bool} {c : Core σ} {o : Origin} {m : BackendMessage}
    (h : c.readNext tm = some (o, m, d)) : d.fed = c.fed := by
  obtain ⟨lease, rest, hlease, _, _, _, hd⟩ := readNext_spec h
  rw [fed_some hd, fed_some hlease]
  cases m <;> rfl

theorem afterReady_refusals (tm : Bool) (c : Core σ) :
    (c.afterReady tm).swallowUntilSync = c.swallowUntilSync ∧
      (refusals (c.afterReady tm).log = refusals c.log ∧ (c.afterReady tm).fed = c.fed ∨
        refusals (c.afterReady tm).log = { refusals c.log with waiting := [] }) := by
  unfold afterReady
  split
  · exact ⟨rfl, .inl ⟨rfl, rfl⟩⟩
  · split
    · split
      · exact ⟨rfl, .inr (refusals_concat _ _)⟩
      · exact ⟨rfl, .inl ⟨rfl, rfl⟩⟩
    · exact ⟨rfl, .inl ⟨rfl, rfl⟩⟩

/-- A message of the upstream is passed on. -/
theorem passed_clear {o : Origin} {m m' : BackendMessage} {c : Core σ}
    (hc : s.toCore.Clear env.upstream) (he : s.ended = none)
    (hr : s.toCore.readNext env.transactionMode = some (o, m, c))
    (h : Said c [.sent false o m']
      (if m'.ready = 1 then afterReady env.transactionMode else fun d => d) d)
    (hmine : d.Mine env.upstream)
    (hsub : ∀ o ∈ d.traffic env.upstream, o ∈ s.toCore.traffic env.upstream) :
    d.Clear env.upstream := by
  obtain ⟨_, _, _, _, hframe, _⟩ := readNext_spec hr
  have hsent : refusals (c.log ++ [.sent false o m']) = refusals s.log := by
    have ho := (hc.apart he).closed o
      ((readNext_flows (u := env.upstream) hr).1 ▸ List.mem_cons_self)
    rw [hframe.log, refusals_concat]
    simp [Refusals.note, ho]
  have hfed := readNext_fed hr
  cases h with
  | done =>
      split at hmine
      case isTrue hm =>
        rw [if_pos hm] at hsub ⊢
        obtain ⟨h1, h2⟩ := afterReady_refusals env.transactionMode (c.emit [.sent false o m'])
        refine hc.keep he hmine ((afterReady_position _ _).2.trans hframe.seq)
          (h1.trans hframe.swallowUntilSync) hsub ?_
        refine h2.imp (fun h => ⟨h.1.trans hsent, h.2.trans hfed⟩) fun h => h.trans ?_
        rw [show (c.emit [.sent false o m']).log = c.log ++ [.sent false o m'] from rfl, hsent]
      case isFalse hm =>
        rw [if_neg hm] at hsub ⊢
        exact hc.keep he hmine hframe.seq hframe.swallowUntilSync hsub (.inl ⟨hsent, hfed⟩)
  | cut pre endpoint attached hpre =>
      refine hc.keep he hmine hframe.seq hframe.swallowUntilSync hsub (.inl ⟨?_, hfed⟩)
      rcases List.prefix_cons_iff.mp hpre with rfl | ⟨pre', rfl, h'⟩
      · exact congrArg refusals ((List.append_nil _).trans hframe.log)
      · cases List.prefix_nil.mp h'
        exact hsent

theorem steps_clear {e : Event} (hu : env.upstream.InOrder) (hp : Passive i)
    (hi : s.interceptor = i) (hc : s.toCore.Clear env.upstream) (he : s.ended = none)
    (hok : s.RefusesClean env e) (h : Steps env i (QuietPool env.upstream) s e d) :
    d.Clear env.upstream := by
  obtain ⟨hid, hseq⟩ := steps_position h
  have hflows := steps_flows hu hp.mute (by
    rintro hl sql t lease leg rfl hlease hb
    have hq := hok.legs sql t rfl (hi ▸ hl) lease hlease
    exact (Conn.runQueryCollect_quiet hu hq.tame hq.pending hb).tags) h
  have hmine := hc.mine.step hflows hid hseq
  have hap := hc.apart he
  have hsub : d.seq = s.seq → ∀ o ∈ d.traffic env.upstream, o ∈ s.toCore.traffic env.upstream := by
    intro heq o ho
    rcases hflows.mem o ho with ho | ⟨_, hlt⟩
    · exact ho
    · have hlt' : s.seq < d.seq := hlt
      omega
  cases h with
  | answered m t _ h => exact answered_clear hu hc he hok hi h hmine
  | attachFailed m m' t d' hpass _ h =>
      obtain ⟨_, _, _, _, -, hes, rfl⟩ := attachFails_noted h
      obtain ⟨ns, _, rfl⟩ := answers_of_prefix hes
      have hframe := Refusals.foldl_answers (s.toCore.recv m) ns
        (refusals (s.toCore.recv m).log)
      rw [← refusals_append, s.toCore.refusals_recv m] at hframe
      have hcur : ∀ n ∈ (refusals s.log).opened ++ [s.seq + 1], n ≤ s.seq + 1 := by
        intro n hn
        rcases List.mem_append.mp hn with hn | hn
        · have := hc.current_le n (opened_subset _ n hn)
          omega
        · exact Nat.le_of_eq (List.mem_singleton.mp hn)
      refine ⟨hmine, hframe.ok.trans hc.ok, fun n hn => ?_, fun n hn => ?_, nofun⟩
      · rcases hframe.closed n hn with hn | hn
        · exact Nat.le_succ_of_le (hc.closed_le n hn)
        · exact hcur n hn
      · exact hcur n (hframe.current.subst (motive := fun l => n ∈ l) hn)
  | hookReplied m m' m'' t ms c _ hent hh h => cases (hh.passive hp).2
  | hookStopped m m' m'' t action c hent hh ha => exact absurd (hh.passive hp).2 ha
  | put m m' m'' t c lease hent hh hlease =>
      refine put_clear hu hc he hent hlease hmine fun o ho => ?_
      refine (hflows.mem o ho).imp (fun h => h) fun h => ?_
      rw [h.1, awaitPut_eq]
      exact (enters_frame hent).seq
  | sendFailed m m' m'' t c _ lease hent hh hlease hs h =>
      obtain ⟨w, hr, _⟩ := enters_refusals hent (by rw [refusals_recv]; exact hap.waiting)
      rw [refusals_recv] at hr
      have hcseq : c.seq = s.seq + 1 := (enters_frame hent).seq
      rw [await_eq] at h
      refine lost_clear h hmine ?_ ?_ ?_ ?_ <;> dsimp only <;> rw [hr]
      · exact hc.ok
      · rw [hcseq]
        exact fun n hn => Nat.le_succ_of_le (hc.closed_le n hn)
      · rw [hcseq]
        intro n hn
        rcases List.mem_append.mp hn with hn | hn
        · exact Nat.le_succ_of_le (hc.current_le n (opened_subset _ n hn))
        · exact Nat.le_of_eq (List.mem_singleton.mp hn)
      · intro hrf
        exact (enters_frame hent).swallowUntilSync.trans (hap.refused hrf).1
  | clientGone | idle | upstreamError | drain | shutdown =>
      exact hc.keep he hmine rfl rfl (hsub rfl) (.inl ⟨rfl, fed_congr rfl⟩)
  | rowDropped o m _ row hr =>
      obtain ⟨_, _, _, _, hframe, _⟩ := readNext_spec hr
      exact hc.keep he hmine hframe.seq hframe.swallowUntilSync (hsub hframe.seq)
        (.inl ⟨by rw [hframe.log], readNext_fed hr⟩)
  | readStopped o m c e hr =>
      obtain ⟨_, _, _, _, hframe, _⟩ := readNext_spec hr
      have hfed := readNext_fed hr
      exact hc.keep he hmine hframe.seq hframe.swallowUntilSync (hsub hframe.seq)
        (.inl ⟨congrArg refusals hframe.log, hfed⟩)
  | replaced o m m' m'' ms c _ hr hs hh h => cases (hh.passive hp).2
  | passed o m m' m'' c _ hr hs hh h =>
      have hdseq : d.seq = s.seq := by
        obtain ⟨_, _, _, _, hframe, _⟩ := readNext_spec hr
        cases h with
        | done =>
            split
            · exact (afterReady_position _ _).2.trans hframe.seq
            · exact hframe.seq
        | cut => exact hframe.seq
      exact passed_clear hc he hr h hmine (hsub hdseq)
  | upstreamClosed lease _ hlease h =>
      exact lost_clear h hmine hc.ok hc.closed_le hc.current_le fun hrf => (hap.refused hrf).1
  | cancel lease hlease =>
      refine hc.keep he hmine rfl rfl (hsub rfl) (.inl ⟨refusals_concat _ _, ?_⟩)
      rw [fed, fed, hlease]
      rfl

theorem clear_stable {startup : Params} (hu : env.upstream.InOrder) (hp : Passive i) :
    Session.Stable env i startup (QuietPool env.upstream) (Session.RefusesClean env)
      (Clear env.upstream) where
  probe := quiet_probe hu
  leg := fun sql _ => quiet_leg hu startup sql
  releases := fun _ _ _ hok => hok.detaches.releases hu hp
  step := fun _ _ _ hs he hok h => steps_clear hu hp hs.interceptor hs.inv he hok h

end Steps

end Core

/-! ## Runs -/

theorem Launch.start_clear {env : Env σ} {l : Launch σ κ} (hu : env.upstream.InOrder)
    (ht : l.world.Tidy (QuietPool env.upstream)) :
    Session.Holds l.interceptor l.startup (QuietPool env.upstream) (Core.Clear env.upstream)
      (l.new.start env) := by
  obtain ⟨hk, hstart⟩ := l.start_quiet hu ht
  obtain ⟨hflows, hid⟩ := l.start_flows hu ht
  have hnew : l.new.toCore.Mine env.upstream :=
    ⟨fun _ h => absurd h List.not_mem_nil, fun _ h => absurd h List.not_mem_nil⟩
  refine ⟨?_, hk.tidy, hk.interceptor, hk.startup⟩
  have hmine := hnew.step hflows hid (Nat.zero_le _)
  generalize (l.new.start env).toCore = d at hstart hmine
  -- Nothing has been read, so nothing is refused.
  have hempty : ∀ n ∈ ([] : List Nat), n ≤ d.seq := fun _ h => absurd h List.not_mem_nil
  cases hstart with
  | detached => exact ⟨hmine, rfl, hempty, hempty, fun _ => Core.apart_of_nil rfl rfl nofun⟩
  | refused dirty info es hes =>
      obtain ⟨ns, _, rfl⟩ := Core.answers_of_prefix hes
      have hframe := Refusals.foldl_answers l.new.toCore ns {}
      exact ⟨hmine, hframe.ok, fun n hn => (hframe.closed n hn).elim (hempty n) (hempty n),
        fun n hn => hempty n (hframe.current.subst (motive := fun l => n ∈ l) hn), nofun⟩
  | attached c₁ _ h =>
      cases h with
      | held lease hl => cases hl
      | leased endpoint dirty₀ base lease dirty _ _ _ hbase hprep =>
          exact ⟨hmine, rfl, hempty, hempty, fun _ =>
            Core.apart_of_nil (prepared_quiet hu hbase hprep).tags rfl nofun⟩

/-- Nothing of a refused batch is executed or answered by the upstream after the pump has
    answered the batch's `Sync`. -/
theorem refusals_clean (env : Env σ) (l : Launch σ κ) (ms : List (Move σ))
    (hu : env.upstream.InOrder) (hworld : l.world.Tidy (QuietPool env.upstream))
    (hpassive : Passive l.interceptor)
    (hrun : l.Runs env (QuietPool env.upstream) (Session.RefusesClean env) ms) :
    (refusals (l.after env ms).log).ok = true :=
  (Launch.holds (Core.clear_stable hu hpassive) (l.start_clear hu hworld) hrun).inv.ok

/-- Without an interceptor, `m` is refused when its name is registered with another text. -/
def Session.refusesPlainly (s : Session σ κ) : Event → Bool
  | .client m _ => (pendingParse m).any fun p =>
      (s.registry.lookup p.1).any fun known => known.1 ≠ p.2.1
  | _ => false

/-- `RefusesClean` of a session without an interceptor, as a check. -/
def Session.RefusesPlainlyClean (env : Env σ) (s : Session σ κ) (e : Event) : Prop :=
  s.hooks.isNone = true ∧
    (s.refusesPlainly e = true → ∀ o ∈ s.toCore.traffic env.upstream,
      o.seq ∉ (refusals s.log).opened) ∧
    (e.isQuery = true → s.answersPlainly env e = true → s.toCore.Rests env.upstream) ∧
    s.DetachesClean env e

instance (env : Env σ) (s : Session σ κ) (e : Event) : Decidable (s.RefusesPlainlyClean env e) :=
  inferInstanceAs (Decidable (_ ∧ _))

theorem Session.RefusesPlainlyClean.refusesClean {env : Env σ} {s : Session σ κ} {e : Event}
    (h : s.RefusesPlainlyClean env e) : s.RefusesClean env e := by
  obtain ⟨hnone, hapart, hlegs, hclean⟩ := h
  have hi : s.interceptor = none := by
    rw [interceptor, Option.isNone_iff_eq_none.mp hnone]
    rfl
  refine ⟨?_, ?_, hclean⟩
  · rintro m t rfl _ hr
    refine hapart ?_
    rw [hi] at hr
    rcases hr with ⟨_, _, _, _, _, hh, _⟩ | ⟨m', name, query, typeOids, known, hf, hm, hk, hne⟩
    · cases hh
    · rcases hf with ⟨rfl, _⟩ | ⟨_, _, ⟨_, hh, _⟩, _⟩
      · simp [refusesPlainly, hm, hk, hne]
      · cases hh
  · rintro sql t rfl ha
    rw [hi] at ha
    exact hlegs rfl (answersPlainly_of_none ha)

open Sample

/-- A `Parse` that re-uses a name as the first message of its batch. -/
theorem refusals_clean_first :
    (refusals (after .session none
      (prepare ++ [client (.parse (some "s") "SELECT 2" []),
        client (.bind none (some "s")), client .sync,
        client (.query "SELECT 1")] ++ reads 2)).log).ok = true :=
  refusals_clean (env .session) (launch .session none) (List.map .own _)
    (pg_inOrder _) (world_quiet .session) passive_none
    (Launch.Runs.mono (fun _ _ h => Session.RefusesPlainlyClean.refusesClean h)
      (Session.along_own (by decide : Along (Session.step (env .session)) _ _
        (prepare ++ [client (.parse (some "s") "SELECT 2" []),
          client (.bind none (some "s")), client .sync,
          client (.query "SELECT 1")] ++ reads 2))))

/-- The `Bind` before a refused `Parse` is executed, and answered, in the next cycle: after
    42P05, and after a denial. -/
theorem refusals_left_behind :
    (refusals (after .session none
      (prepare ++ [client (.bind none (some "s")),
        client (.parse (some "s") "SELECT 2" []), client .sync,
        client (.query "SELECT 1")] ++ reads 1)).log).ok ≠ true ∧
      (refusals (after .session (some (onQuery (.deny Session.lostInfo)))
        ([client (.bind none none), client (.parse none "SELECT 1" []),
          client .sync, client .sync] ++ reads 1)).log).ok ≠ true := by
  refine ⟨by decide, by decide⟩

end Pgferry
