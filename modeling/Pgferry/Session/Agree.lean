/-
  The two copies of the transaction status.

  The status is kept on the upstream connection and on the downstream one. A forwarded
  `ReadyForQuery` sets both; the local answers read one of them or send a constant. A refused or
  failed scatter sends `Idle` and writes it to the downstream copy only, so a scatter that is
  refused because the session is inside a transaction makes the two disagree, and the next one
  passes the guard.

  Proved: `status_agrees`. In a run without upstream failures in which no scatter is refused
  inside a transaction, none runs behind messages that were forwarded since the last
  `ReadyForQuery`, and no leg opens a transaction: the two copies are always equal, a scatter is
  run only while the lease is outside a transaction, and every `ReadyForQuery` that the pump
  itself produces carries the status of the lease.
-/
import Pgferry.Session.Truth

namespace Pgferry

open Loop

variable {σ κ : Type}

/-- The upstream connection neither breaks nor closes while the session holds it. -/
def Session.NoFailure (s : Session σ κ) : Event → Prop
  | .client _ t => t.sendOk = true
  | .upstreamClosed => s.lease.isNone = true
  | .upstreamError _ => s.lease.isNone = true
  | _ => True

instance (s : Session σ κ) : ∀ e, Decidable (s.NoFailure e)
  | .client _ _ => inferInstanceAs (Decidable (_ = _))
  | .upstreamClosed | .upstreamError _ => inferInstanceAs (Decidable (_ = _))
  | .clientGone | .upstream | .cancel | .shutdown => isTrue trivial

/-- When `on_query` asks for a scatter: it is not refused while the lease is inside a
    transaction, and nothing was forwarded on the lease since the last `ReadyForQuery`. -/
def Session.ScattersWell (s : Session σ κ) : Event → Prop
  | .client m _ => ∀ input request, cycleInputOf m = some input →
      Asks s.interceptor input (.scatter request) →
      (s.scatterRefusal input.kind ≠ none → s.leaseStatus = .idle) ∧
        (s.lease ≠ none → s.fedSinceRfq = 0)
  | _ => True

/-- One cycle at a time, no upstream failure, and scatters where they belong. -/
def Session.Careful (env : Env σ) (s : Session σ κ) (e : Event) : Prop :=
  s.OneCycle env.upstream e ∧ s.NoFailure e ∧ s.ScattersWell e

/-- A `ReadyForQuery` with this status is among the messages of a `Reply`. -/
def Supplied (i : Option (Interceptor κ)) (status : TransactionStatus) : Prop :=
  ∃ input ms, Asks i input (.reply ms) ∧ .readyForQuery status ∈ ms

namespace Conn

variable {u : Upstream σ} {status : σ → TransactionStatus} {c : Conn σ}

/-- Quiet, and the cached status is the server's. -/
structure Rested (u : Upstream σ) (status : σ → TransactionStatus) (c : Conn σ) : Prop where
  quiet : c.Quiet u
  cached : c.transactionStatus = status c.backend

theorem AtRest.rested (h : c.AtRest u status) : c.Rested u status :=
  ⟨h.quiet, h.cached.trans h.server.symm⟩

theorem cancel_rested (hu : u.InOrder) (hr : u.Reports status) (h : c.Rested u status) :
    (c.cancel u).Rested u status := by
  obtain ⟨hnone, hcopy⟩ := hu.interrupt_idle _ h.quiet.owed h.quiet.copying
  have howed := hu.interrupt_owed c.backend
  rw [hnone] at howed
  refine ⟨⟨h.quiet.outbox, ?_, ?_, hcopy, h.quiet.settled⟩,
    h.cached.trans (hr.interrupt_idle _ h.quiet.owed h.quiet.copying).symm⟩
  · simp [cancel, hnone, h.quiet.inbox]
  · exact Nat.le_zero.mp (h.quiet.owed ▸ Nat.le_of_add_right_le (Nat.le_of_eq howed))

theorem runQueryCollect_rested (hu : u.InOrder) (hr : u.Reports status) {sql : String}
    (h : c.Quiet u) (hb : (runQueryCollect u c sql).broken = false) :
    (runQueryCollect u c sql).conn.Rested u status :=
  ⟨runQueryCollect_quiet hu h.tame h.pending hb, runQueryCollect_honest hu hr h.pending hb⟩

end Conn

namespace Core

/-- What `d` has sent beyond `c`: a `ReadyForQuery` of the pump's own carries the status of the
    lease, unless a `Reply` supplied it. -/
def Told (i : Option (Interceptor κ)) (c d : Core σ) : Prop :=
  ∃ es, d.log = c.log ++ es ∧ ∀ o status, .sent true o (.readyForQuery status) ∈ es →
    status = d.leaseStatus ∨ Supplied i status

/-- The copies agree, and the connection was left alone since the last `ReadyForQuery` unless
    something was fed. -/
structure Agrees (u : Upstream σ) (status : σ → TransactionStatus) (c : Core σ) : Prop where
  truthful : c.Truthful u status
  agree : c.downstreamStatus = c.leaseStatus
  rested : c.fedSinceRfq = 0 → ∀ lease, c.lease = some lease → lease.conn.Rested u status

variable {u : Upstream σ} {status : σ → TransactionStatus} {c d : Core σ}

theorem leaseStatus_some {lease : UpstreamLease σ} (h : c.lease = some lease) :
    c.leaseStatus = lease.conn.transactionStatus := by
  rw [leaseStatus, h]
  rfl

theorem leaseStatus_none (h : c.lease = none) : c.leaseStatus = .idle := by
  rw [leaseStatus, h]
  rfl

theorem leaseStatus_congr (h : d.lease = c.lease) : d.leaseStatus = c.leaseStatus := by
  rw [leaseStatus, leaseStatus, h]

theorem note_downstream (c : Core σ) (m : FrontendMessage) :
    (c.note m).downstreamStatus = c.downstreamStatus := by
  obtain ⟨b, hb⟩ := c.note_eq m
  rw [hb]

/-! ## Local answers -/

section Answered

variable {i : Option (Interceptor κ)}

/-- One write of the pump's own messages from a state whose copies agree. -/
theorem said_agrees {c₁ : Core σ} {ms : List BackendMessage} {f : Core σ → Core σ}
    {legs : List Entry} {m : FrontendMessage} (h : Said c₁ (c.answers ms) f d)
    (hlog : c₁.log = c.log ++ legs) (hlegs : Legs m legs)
    (hagree : c₁.downstreamStatus = c₁.leaseStatus)
    (hf : ∀ x, (f x).log = x.log ∧ (f x).lease = x.lease)
    (hdown : (f (c₁.emit (c.answers ms))).downstreamStatus = c₁.leaseStatus)
    (hms : ∀ st, .readyForQuery st ∈ ms → st = c₁.leaseStatus ∨ Supplied i st) :
    d.downstreamStatus = d.leaseStatus ∧ Told i c d := by
  have hentry : ∀ pre, pre <+: c.answers ms → ∀ o st,
      .sent true o (.readyForQuery st) ∈ legs ++ pre → st = c₁.leaseStatus ∨ Supplied i st := by
    intro pre hpre o st hmem
    rcases List.mem_append.mp hmem with hmem | hmem
    · cases hlegs with
      | none => cases hmem
      | one => simp at hmem
    · obtain ⟨x, hx, heq⟩ := List.mem_map.mp (hpre.subset hmem)
      cases heq
      exact hms st hx
  cases h with
  | done =>
      have hl : (f (c₁.emit (c.answers ms))).leaseStatus = c₁.leaseStatus :=
        leaseStatus_congr (hf _).2
      refine ⟨hdown.trans hl.symm, legs ++ c.answers ms, ?_, fun o st hmem => ?_⟩
      · rw [(hf _).1, emit, hlog, List.append_assoc]
      · rw [hl]
        exact hentry _ (List.prefix_refl _) o st hmem
  | cut pre endpoint attached hpre =>
      refine ⟨hagree, legs ++ pre, ?_, hentry pre hpre⟩
      show c₁.log ++ pre = _
      rw [hlog, List.append_assoc]

/-- Nothing is written. -/
theorem told_refl (hl : d.log = c.log) : Told i c d :=
  ⟨[], hl.trans (List.append_nil _).symm, fun _ _ h => absurd h List.not_mem_nil⟩

theorem Told.of_entries (es : List Entry) (h : d.log = c.log ++ es)
    (hes : ∀ o st, .sent true o (.readyForQuery st) ∉ es) : Told i c d :=
  ⟨es, h, fun o st hmem => absurd hmem (hes o st)⟩

end Answered

/-- A leg that ran on the session's lease leaves it outside a transaction. -/
theorem scattered_idle {request : ScatterRequest} {i : Option (Interceptor κ)}
    {input : CycleInput} (hu : u.InOrder) (hr : u.Reports status)
    (hlegs : LegsOpenNone u status i) (ha : Asks i input (.scatter request))
    (hidle : c.leaseStatus = .idle)
    (hrest : ∀ lease, c.lease = some lease → lease.conn.Rested u status)
    (h : Scattered u c request d false) : d.leaseStatus = .idle := by
  generalize hb : false = broken at h
  cases h with
  | pooled => exact hidle
  | leg lease leg hlease hleg _ =>
      obtain ⟨hq, hst⟩ := hrest lease hlease
      have hcached : lease.conn.transactionStatus = .idle :=
        (leaseStatus_some hlease).symm.trans hidle
      exact (runQueryCollect_atRest hu hr ⟨hq, hcached, hst ▸ hcached⟩
        (hlegs leg.sql ⟨input, request, ha, leg, hleg, rfl⟩) hb.symm).cached

section Steps

variable {env : Env σ} {i : Option (Interceptor κ)} {s : Session σ κ}

theorem answered_agrees {m : FrontendMessage} {t : Timing} (hu : env.upstream.InOrder)
    (hr : env.upstream.Reports status) (hlegs : LegsOpenNone env.upstream status i)
    (hi : s.interceptor = i) (hs : s.toCore.Agrees env.upstream status)
    (hok : s.ScattersWell (.client m t))
    (h : Answered env i s (s.toCore.recv m) m t d) :
    d.downstreamStatus = d.leaseStatus ∧ Told i (s.toCore.recv m) d := by
  subst hi
  generalize hc : s.toCore.recv m = c at h
  have hagree : c.downstreamStatus = c.leaseStatus := by rw [← hc]; exact hs.agree
  have hnl := (c.note_carried m).1
  have hnote : (c.note m).downstreamStatus = (c.note m).leaseStatus :=
    (c.note_downstream m).trans (hagree.trans (leaseStatus_congr hnl).symm)
  have hlog : (c.note m).log = c.log ++ [] := (c.note_log m).trans (List.append_nil _).symm
  have hready : ∀ {c₁ : Core σ} {st₀ : TransactionStatus} (ms : List BackendMessage),
      (∀ st, .readyForQuery st ∈ ms → Supplied s.interceptor st) → st₀ = c₁.leaseStatus →
      ∀ st, .readyForQuery st ∈ ms ++ [.readyForQuery st₀] →
        st = c₁.leaseStatus ∨ Supplied s.interceptor st := by
    intro c₁ st₀ ms hms h0 st hmem
    rcases List.mem_append.mp hmem with hmem | hmem
    · exact .inr (hms st hmem)
    · cases List.mem_singleton.mp hmem
      exact .inl h0
  -- A scatter is asked for outside a transaction: it is refused there, or not refused at all.
  have houtside : ∀ input request, cycleInputOf m = some input →
      Asks s.interceptor input (.scatter request) → c.leaseStatus = .idle ∧
      ∀ lease, (c.note m).lease = some lease → lease.conn.Rested env.upstream status := by
    intro input request hin ha
    obtain ⟨h1, h2⟩ := hok input request hin ha
    refine ⟨?_, fun lease hl => ?_⟩
    · rw [← hc]
      by_cases href : s.scatterRefusal input.kind = none
      · exact hs.agree.symm.trans (Session.scatterRefusal_none href).2
      · exact h1 href
    · rw [hnl, ← hc] at hl
      have hsl : s.lease = some lease := hl
      exact hs.rested (h2 (by rw [hsl]; nofun)) lease hsl
  cases h with
  | quit | swallowed | localFlush => exact ⟨hagree, told_refl rfl⟩
  | closed => exact ⟨hnote, told_refl (c.note_log m)⟩
  | resumed _ _ _ h =>
      exact said_agrees h (List.append_nil _).symm (.none (m := m)) hagree (fun _ => ⟨rfl, rfl⟩)
        hagree (hready [] nofun rfl)
  | localSync _ _ _ _ _ h =>
      exact said_agrees h (List.append_nil _).symm (.none (m := m)) hagree (fun _ => ⟨rfl, rfl⟩)
        hagree (hready [] nofun hagree)
  | localClose _ _ _ _ _ _ _ h =>
      exact said_agrees h (List.append_nil _).symm (.none (m := m)) hagree (fun _ => ⟨rfl, rfl⟩)
        hagree (by simp)
  | deniedSimple _ info _ _ _ _ _ h =>
      exact said_agrees h hlog (.none (m := m)) hnote (fun _ => ⟨rfl, rfl⟩) hnote
        (hready [.errorResponse info] (by simp) (leaseStatus_congr hnl).symm)
  | deniedExtended _ _ _ _ _ _ _ h =>
      exact said_agrees h hlog (.none (m := m)) hnote (fun _ => ⟨rfl, rfl⟩) hnote (by simp)
  | repliedSimple input ms _ _ _ ha _ h =>
      exact said_agrees h hlog (.none (m := m)) hnote (fun _ => ⟨rfl, rfl⟩) hnote
        (hready ms (fun st hst => ⟨input, ms, ha, hst⟩) (leaseStatus_congr hnl).symm)
  | repliedExtended input ms _ _ _ ha _ h =>
      exact said_agrees h hlog (.none (m := m)) hnote (fun _ => ⟨rfl, rfl⟩) hnote
        (hready ms (fun st hst => ⟨input, ms, ha, hst⟩) (leaseStatus_congr hnl).symm)
  | reparsed _ _ _ _ _ _ _ _ _ _ h =>
      exact said_agrees h hlog (.none (m := m)) hnote (fun _ => ⟨rfl, rfl⟩) hnote (by simp)
  | duplicate _ _ _ _ _ _ _ _ _ _ _ h =>
      exact said_agrees h hlog (.none (m := m)) hnote (fun _ => ⟨rfl, rfl⟩) hnote (by simp)
  | scatterRefused input request info _ _ hin ha _ h =>
      have hidle : (c.note m).leaseStatus = .idle :=
        (leaseStatus_congr hnl).trans (houtside input request hin ha).1
      exact said_agrees h hlog (.none (m := m)) hnote (fun _ => ⟨rfl, rfl⟩) hidle.symm
        (hready [.errorResponse info] (by simp) hidle.symm)
  | scatterOk input request ms c₁ _ _ hin ha hk hd hsc hms h =>
      obtain ⟨sql, hm⟩ := query_of_simple hin hk
      obtain ⟨legs, hlog₁, hl⟩ := scattered_log hsc hm
      obtain ⟨hidle, hrest⟩ := houtside input request hin ha
      have hidle₁ := scattered_idle hu hr hlegs ha ((leaseStatus_congr hnl).trans hidle) hrest hsc
      have hdown : c₁.downstreamStatus = .idle := by
        rw [(Session.scattered_frame hsc).2.1, note_downstream, hd]
      refine said_agrees h hlog₁ hl (hdown.trans hidle₁.symm) (fun _ => ⟨rfl, rfl⟩)
        (hdown.trans hidle₁.symm) (hready ms (fun st hst => ?_) (hd.trans hidle₁.symm))
      cases hms _ hst
  | scatterFailed input request failure c₁ _ _ hin ha hk _ hsc h =>
      obtain ⟨sql, hm⟩ := query_of_simple hin hk
      obtain ⟨legs, hlog₁, hl⟩ := scattered_log hsc hm
      obtain ⟨hidle, hrest⟩ := houtside input request hin ha
      have hdown : c₁.downstreamStatus = .idle := by
        rw [(Session.scattered_frame hsc).2.1, note_downstream, hagree, hidle]
      have hidle₁ : (c₁.scatterLost failure.sessionLeaseBroken).leaseStatus = .idle := by
        cases hb : failure.sessionLeaseBroken with
        | true => exact leaseStatus_none rfl
        | false =>
            rw [hb] at hsc
            have hran := scattered_idle hu hr hlegs ha ((leaseStatus_congr hnl).trans hidle) hrest
              hsc
            exact hran
      have hdown₁ : (c₁.scatterLost failure.sessionLeaseBroken).downstreamStatus = .idle := by
        cases failure.sessionLeaseBroken <;> exact hdown
      have hlog₂ : (c₁.scatterLost failure.sessionLeaseBroken).log = c₁.log := by
        cases failure.sessionLeaseBroken <;> rfl
      exact said_agrees h (hlog₂.trans hlog₁) hl (hdown₁.trans hidle₁.symm)
        (fun _ => ⟨rfl, rfl⟩) hidle₁.symm
        (hready [.errorResponse failure.error] (by simp) hidle₁.symm)
  | scatterPanicked input request c₁ _ hin ha hk hsc =>
      obtain ⟨sql, hm⟩ := query_of_simple hin hk
      obtain ⟨legs, hlog₁, hl⟩ := scattered_log hsc hm
      obtain ⟨hidle, hrest⟩ := houtside input request hin ha
      have hidle₁ := scattered_idle hu hr hlegs ha ((leaseStatus_congr hnl).trans hidle) hrest hsc
      have hdown : c₁.downstreamStatus = .idle := by
        rw [(Session.scattered_frame hsc).2.1, note_downstream, hagree, hidle]
      refine ⟨hdown.trans hidle₁.symm, .of_entries legs hlog₁ fun o st hmem => ?_⟩
      cases hl with
      | none => cases hmem
      | one => simp at hmem

/-! ## All steps -/

theorem track_downstream (tm : Bool) (c : Core σ) (m : BackendMessage) (hm : m.ready = 0) :
    (c.track tm m).downstreamStatus = c.downstreamStatus ∧
      (c.track tm m).leaseStatus = c.leaseStatus ∧
      (c.track tm m).fedSinceRfq = c.fedSinceRfq := by
  cases m with
  | readyForQuery => cases hm
  | parameterStatus name value =>
      refine ⟨rfl, ?_, rfl⟩
      simp only [track, withConn, leaseStatus, Option.map_map]
      rfl
  | _ => exact ⟨rfl, rfl, rfl⟩

/-- A message that is read sets both copies, or none. -/
theorem readNext_agrees {tm : Bool} {o : Origin} {m : BackendMessage}
    (h : c.readNext tm = some (o, m, d)) (hc : c.Agrees u status) :
    d.downstreamStatus = d.leaseStatus ∧
      (d.fedSinceRfq = 0 → ∀ lease, d.lease = some lease → lease.conn.Rested u status) := by
  obtain ⟨lease, rest, hlease, hin, _, htrack, hd⟩ := readNext_spec h
  by_cases hm : m.ready = 1
  · have hquiet := (readNext_calm h hc.truthful.calm).2 hm
    cases m with
    | readyForQuery st =>
        have hst := hc.truthful.honest lease hlease o st (hin ▸ List.mem_cons_self)
        refine ⟨by rw [leaseStatus_some hd, htrack]; rfl, fun _ l hl => ⟨hquiet l hl, ?_⟩⟩
        cases hd.symm.trans hl
        exact hst
    | _ => cases hm
  · have hm0 : m.ready = 0 := by have := m.ready_le_one; omega
    obtain ⟨h1, h2, h3⟩ := track_downstream tm { c with lease := some { lease with conn :=
      { lease.conn with
        inbox := rest
        consumed := lease.conn.consumed + m.ready } } } m hm0
    refine ⟨?_, fun hfed l hl => ?_⟩
    · rw [htrack, h1, h2]
      have hstatus := hc.agree.trans (leaseStatus_some hlease)
      exact hstatus
    · -- Nothing was fed, so there was nothing to read.
      rw [htrack, h3] at hfed
      have hempty := (hc.rested hfed lease hlease).quiet.inbox
      rw [hin] at hempty
      cases hempty

theorem afterReady_agrees (tm : Bool) (hc : c.downstreamStatus = c.leaseStatus) :
    (c.afterReady tm).downstreamStatus = (c.afterReady tm).leaseStatus := by
  unfold afterReady
  split
  · exact hc
  · split
    case isTrue hidle =>
      split
      · exact hc.trans (hidle.2.trans (leaseStatus_none rfl).symm)
      · exact hc
    case isFalse => exact hc

theorem afterReady_rested {tm : Bool}
    (hc : c.fedSinceRfq = 0 → ∀ lease, c.lease = some lease → lease.conn.Rested u status) :
    (c.afterReady tm).fedSinceRfq = 0 →
      ∀ lease, (c.afterReady tm).lease = some lease → lease.conn.Rested u status := by
  unfold afterReady
  split
  · exact hc
  · split
    · split
      · exact fun _ _ h => absurd h nofun
      · exact hc
    · exact hc

theorem afterReady_log (tm : Bool) (c : Core σ) : ∃ es, (c.afterReady tm).log = c.log ++ es ∧
    ∀ e ∈ es, ∀ o st, e ≠ .sent true o (.readyForQuery st) := by
  unfold afterReady
  split
  · exact ⟨[], (List.append_nil _).symm, nofun⟩
  · split
    · split
      · exact ⟨[_], rfl, by simp⟩
      · exact ⟨[], (List.append_nil _).symm, nofun⟩
    · exact ⟨[], (List.append_nil _).symm, nofun⟩

/-- The statuses of an attached connection. -/
theorem taken_agrees {p : Session.PendingParse} {params : SessionParams} {startup : Params}
    (hu : env.upstream.InOrder) (hr : env.upstream.Reports status)
    (h : Taken env (IdlePool env.upstream status) params startup c p d) :
    d.leaseStatus = c.leaseStatus := by
  cases h with
  | held lease hs hl => exact leaseStatus_congr (hl.trans hs.symm)
  | leased endpoint dirty₀ base lease dirty hnone _ _ hbase hprep hl =>
      rw [leaseStatus_some hl, leaseStatus_none hnone]
      exact ((Conn.idle_exchanges hu hr).prepared hbase hprep).cached

theorem put_status (u : Upstream σ) (conn : Conn σ) (o : Origin) (m : FrontendMessage) :
    (if m.triggersResponse then conn.send u o m else conn.feed o m).transactionStatus =
      conn.transactionStatus := by
  split <;> rfl

/-- One step: the copies stay equal and the pump's own `ReadyForQuery` messages are true. -/
theorem steps_agree {e : Event} (hu : env.upstream.InOrder) (hr : env.upstream.Reports status)
    (hp : Passive i) (hlegs : LegsOpenNone env.upstream status i) (hi : s.interceptor = i)
    (hs : s.toCore.Agrees env.upstream status) (hnf : s.NoFailure e) (hok : s.ScattersWell e)
    (h : Steps env i (IdlePool env.upstream status) s e d) :
    d.downstreamStatus = d.leaseStatus ∧ Told i s.toCore d := by
  cases h with
  | answered m t _ h =>
      obtain ⟨h1, es, hes, htold⟩ := answered_agrees hu hr hlegs hi hs hok h
      refine ⟨h1, .recv (s.seq + 1) m :: es, ?_, fun o st hmem => ?_⟩
      · rw [hes]
        exact List.append_assoc _ _ _
      · exact htold o st (by simpa using hmem)
  | attachFailed m m' t d' hpass hf h =>
      obtain ⟨_, _, _, es, -, hes, rfl⟩ := attachFails_noted h
      refine ⟨hs.agree, .of_entries (.recv (s.seq + 1) m :: es)
        (List.append_assoc _ _ _) fun o st hmem => ?_⟩
      have hmem' := hes.subset ((List.mem_cons.mp hmem).resolve_left (by simp))
      simp [answers] at hmem'
  | hookReplied m m' m'' t ms c _ hent hh h => cases (hh.passive hp).2
  | hookStopped m m' m'' t action c hent hh ha => exact absurd (hh.passive hp).2 ha
  | put m m' m'' t c lease hent hh hlease =>
      have hf := enters_frame hent
      rw [awaitPut_eq]
      refine ⟨?_, ?_⟩
      · show c.downstreamStatus = (if _ then _ else _ : Conn σ).transactionStatus
        rw [put_status, hf.downstreamStatus, ← leaseStatus_some hlease,
          taken_agrees hu hr (enters_taken hent)]
        exact hs.agree
      · rcases hf.log with hlog | ⟨pid, endpoint, hlog⟩
        · refine .of_entries ([.recv (s.seq + 1) m,
            .forwarded lease.conn.processId c.seq m'']) ?_ (by simp)
          show c.log ++ _ = _
          rw [hlog]
          exact List.append_assoc _ _ _
        · refine .of_entries ([.recv (s.seq + 1) m, .attached pid endpoint,
            .forwarded lease.conn.processId c.seq m'']) ?_ (by simp)
          show c.log ++ _ = _
          rw [hlog]
          simp [recv, List.append_assoc]
  | sendFailed m m' m'' t c _ lease hent hh hlease hsend h =>
      have hok' : t.sendOk = true := hnf
      rw [hsend] at hok'
      cases hok'
  | clientGone | idle | drain | shutdown | upstreamError => exact ⟨hs.agree, told_refl rfl⟩
  | rowDropped o m _ row hread =>
      obtain ⟨_, _, _, _, hf, _⟩ := readNext_spec hread
      exact ⟨(readNext_agrees hread hs).1, told_refl hf.log⟩
  | readStopped o m c e hread =>
      obtain ⟨_, _, _, _, hf, _⟩ := readNext_spec hread
      exact ⟨(readNext_agrees hread hs).1, told_refl hf.log⟩
  | replaced o m m' m'' ms c _ hread hsh hh h => cases (hh.passive hp).2
  | passed o m m' m'' c _ hread hsh hh h =>
      obtain ⟨_, _, _, _, hf, _⟩ := readNext_spec hread
      have hagree := (readNext_agrees hread hs).1
      cases h with
      | cut pre endpoint attached hpre =>
          refine ⟨hagree, .of_entries pre (congrArg (· ++ pre) hf.log) fun o' st hmem => ?_⟩
          simpa using hpre.subset hmem
      | done =>
          split
          · obtain ⟨es, hes, hpure⟩ := afterReady_log env.transactionMode
              (c.emit [.sent false o m''])
            refine ⟨afterReady_agrees _ hagree, .of_entries (.sent false o m'' :: es) ?_ ?_⟩
            · rw [hes, emit, hf.log]
              exact List.append_assoc _ _ _
            · intro o' st hmem
              exact hpure _ ((List.mem_cons.mp hmem).resolve_left (by simp)) o' st rfl
          · exact ⟨hagree, .of_entries ([.sent false o m'']) (congrArg (· ++ _) hf.log)
              (by simp)⟩
  | upstreamClosed lease _ hlease h =>
      have : s.lease.isNone = true := hnf
      rw [hlease] at this
      cases this
  | cancel lease hlease =>
      refine ⟨hs.agree.trans ?_, .of_entries _ rfl (by simp)⟩
      simp only [cancelled, leaseStatus, hlease]
      rfl

/-- One step: what was not fed to is at rest. -/
theorem steps_rested {e : Event} (hu : env.upstream.InOrder) (hr : env.upstream.Reports status)
    (hp : Passive i) (hs : s.toCore.Agrees env.upstream status) (hnf : s.NoFailure e)
    (h : Steps env i (IdlePool env.upstream status) s e d) (hfed : d.fedSinceRfq = 0) :
    ∀ lease, d.lease = some lease → lease.conn.Rested env.upstream status := by
  cases h with
  | answered m t _ h =>
      obtain ⟨hf, hl⟩ := answered_frame h
      have hrest := hs.rested (hf.fedSinceRfq.symm.trans hfed)
      intro lease hlease
      cases hl with
      | same hl => exact hrest lease (hl.symm.trans hlease)
      | dropped _ sql hm hl => cases hl.symm.trans hlease
      | ran _ sql l leg hm hl hb hd =>
          cases hd.symm.trans hlease
          exact Conn.runQueryCollect_rested hu hr (hrest l hl).quiet hb
  | attachFailed m m' t d' hpass hf h =>
      obtain ⟨_, _, _, _, hnone, -, rfl⟩ := attachFails_noted h
      intro lease hlease
      cases hnone.symm.trans hlease
  | hookReplied m m' m'' t ms c _ hent hh h => cases (hh.passive hp).2
  | hookStopped m m' m'' t action c hent hh ha => exact absurd (hh.passive hp).2 ha
  | put m m' m'' t c lease hent hh hlease =>
      rw [awaitPut_eq] at hfed
      cases hfed
  | sendFailed m m' m'' t c _ lease hent hh hlease hsend h =>
      have hok' : t.sendOk = true := hnf
      rw [hsend] at hok'
      cases hok'
  | clientGone | idle | drain | shutdown | upstreamError => exact hs.rested hfed
  | rowDropped o m _ row hread => exact (readNext_agrees hread hs).2 hfed
  | readStopped o m c e hread => exact (readNext_agrees hread hs).2 hfed
  | replaced o m m' m'' ms c _ hread hsh hh h => cases (hh.passive hp).2
  | passed o m m' m'' c _ hread hsh hh h =>
      have hrest := (readNext_agrees hread hs).2
      cases h with
      | cut => exact hrest hfed
      | done =>
          split at hfed
          case isTrue hready =>
            rw [if_pos hready]
            exact afterReady_rested hrest hfed
          case isFalse hready =>
            rw [if_neg hready]
            exact hrest hfed
  | upstreamClosed lease _ hlease h =>
      have hnone : s.lease.isNone = true := hnf
      rw [hlease] at hnone
      cases hnone
  | cancel lease hlease =>
      intro l hl
      cases hl
      exact Conn.cancel_rested hu hr (hs.rested hfed lease hlease)

theorem steps_agrees {e : Event} (hu : env.upstream.InOrder) (hr : env.upstream.Reports status)
    (hp : Passive i) (hlegs : LegsOpenNone env.upstream status i) (hi : s.interceptor = i)
    (hs : s.toCore.Agrees env.upstream status) (hok : s.Careful env e)
    (h : Steps env i (IdlePool env.upstream status) s e d) : d.Agrees env.upstream status where
  truthful := steps_truthful hu hr hp hs.truthful hok.1 h
  agree := (steps_agree hu hr hp hlegs hi hs hok.2.1 hok.2.2 h).1
  rested := steps_rested hu hr hp hs hok.2.1 h

theorem agrees_stable {startup : Params} (hu : env.upstream.InOrder)
    (hr : env.upstream.Reports status) (hp : Passive i)
    (hlegs : LegsOpenNone env.upstream status i) :
    Session.Stable env i startup (IdlePool env.upstream status) (Session.Careful env)
      (Agrees env.upstream status) where
  probe := idle_probe hu hr
  leg := fun sql ht => idle_leg hu hr startup (hlegs sql ht)
  releases := fun _ hs _ _ => truthful_releases hu hr hp hs.inv.truthful
  step := fun _ _ _ hs _ hok h => steps_agrees hu hr hp hlegs hs.interceptor hs.inv hok h

end Steps

end Core

theorem Launch.start_agrees {env : Env σ} {l : Launch σ κ} {status : σ → TransactionStatus}
    (hu : env.upstream.InOrder) (hr : env.upstream.Reports status)
    (ht : l.world.Tidy (IdlePool env.upstream status)) :
    Session.Holds l.interceptor l.startup (IdlePool env.upstream status)
      (Core.Agrees env.upstream status) (l.new.start env) := by
  have htruth := l.start_truthful hu hr ht
  have hrest := l.start_atRest hu hr ht
  obtain ⟨hk, hstart⟩ : l.new.Kept (IdlePool env.upstream status) (l.new.start env) ∧ _ :=
    Session.start_spec (idle_probe hu hr) (idle_baseline hu hr) ht
  have hdown : (l.new.start env).downstreamStatus = .idle := by
    generalize (l.new.start env).toCore = d at hstart
    cases hstart with
    | detached | refused => rfl
    | attached c₁ _ h => cases h <;> rfl
  refine ⟨⟨htruth.inv, hdown.trans ?_, fun _ lease hl => (hrest lease hl).rested⟩, htruth.tidy,
    htruth.interceptor, htruth.startup⟩
  cases hl : (l.new.start env).lease with
  | none => exact (Core.leaseStatus_none hl).symm
  | some lease => exact ((Core.leaseStatus_some hl).trans (hrest lease hl).cached).symm

/-- In every state the copies of the transaction status are equal, a scatter that is not refused
    finds the lease outside a transaction, and the next iteration tells the client the truth. -/
theorem status_agrees (env : Env σ) (status : σ → TransactionStatus) (l : Launch σ κ)
    (ms : List (Move σ)) (e : Event) (hu : env.upstream.InOrder)
    (hr : env.upstream.Reports status) (hworld : l.world.Tidy (IdlePool env.upstream status))
    (hpassive : Passive l.interceptor) (hlegs : LegsOpenNone env.upstream status l.interceptor)
    (hrun : l.Runs env (IdlePool env.upstream status) (Session.Careful env) (ms ++ [.own e])) :
    (l.after env ms).downstreamStatus = (l.after env ms).leaseStatus ∧
      (∀ kind, (l.after env ms).scatterRefusal kind = none →
        (l.after env ms).leaseStatus = .idle) ∧
      Core.Told l.interceptor (l.after env ms).toCore ((l.after env ms).step env e).toCore := by
  have hst : Session.Stable env l.interceptor l.startup _ _ _ :=
    Core.agrees_stable hu hr hpassive hlegs
  obtain ⟨hms, hlast, _⟩ := (along_append _ ms [.own e]).mp hrun
  have hs := Launch.holds hst (l.start_agrees hu hr hworld) hms
  refine ⟨hs.inv.agree, fun kind hnone => ?_, ?_⟩
  · exact hs.inv.agree.symm.trans (Session.scatterRefusal_none hnone).2
  · by_cases he : (l.after env ms).ended = none
    · have hok := hlast he
      exact (Core.steps_agree hu hr hpassive hlegs hs.interceptor hs.inv hok.2.1 hok.2.2
        (hst.steps hs he hok).1).2
    · rw [Session.step_ended he]
      exact Core.told_refl rfl

namespace Sample

theorem scatteringOn_legs (text : String) :
    LegsOpenNone (env .session).upstream Pg.status (some (scatteringOn text)) := by
  rintro sql ⟨input, request, ⟨h, hmem, ctx, hq⟩, leg, hleg, rfl⟩
  cases hmem
  simp only [scatteringOn] at hq
  split at hq
  · cases hq
    have hsql : leg.sql = "SELECT 1" := by
      rcases List.mem_pair.mp hleg with rfl | rfl <;> rfl
    rw [hsql]
    exact pg_opensNone (by decide)
  · cases hq

/-- `Careful` of a session with this interceptor, as a check. -/
def Careful (text : String) (s : Session Pg Unit) (e : Event) : Prop :=
  s.OneCycle (env .session).upstream e ∧ s.NoFailure e ∧
    match e with
    | .client (.query sql) _ =>
        sql = text → s.leaseStatus = .idle ∧ (s.lease.isNone = true ∨ s.fedSinceRfq = 0)
    | .client (.parse _ sql _) _ => sql ≠ text
    | _ => True

instance (text : String) (s : Session Pg Unit) : ∀ e, Decidable (Careful text s e)
  | .client (.query _) _ | .client (.parse _ _ _) _ => inferInstanceAs (Decidable (_ ∧ _ ∧ _))
  | .client .sync _ | .client .flush _ | .client (.bind _ _) _ | .client (.describe _ _) _
  | .client (.execute _) _ | .client (.close _ _) _ | .client .terminate _ | .client .copyData _
  | .client .copyDone _ | .client (.copyFail _) _ | .client .other _ | .clientGone | .upstream
  | .upstreamClosed | .upstreamError _ | .cancel | .shutdown =>
      inferInstanceAs (Decidable (_ ∧ _ ∧ True))

theorem Careful.careful {text : String} {s : Session Pg Unit} {e : Event} (h : Careful text s e)
    (hi : s.interceptor = some (scatteringOn text)) : s.Careful (env .session) e := by
  refine ⟨h.1, h.2.1, ?_⟩
  cases e with
  | client m t =>
      rintro input request hin ⟨k, hk, ctx, hq⟩
      rw [hi] at hk
      cases hk
      simp only [scatteringOn, QueryCycle.new] at hq
      split at hq
      case isTrue htext =>
        cases m <;> simp only [cycleInputOf, Option.some.injEq, reduceCtorEq] at hin
        · subst hin
          obtain ⟨hidle, hl⟩ := h.2.2 htext
          refine ⟨fun _ => hidle, fun hne => hl.resolve_left fun hn => hne ?_⟩
          exact Option.isNone_iff_eq_none.mp hn
        · subst hin
          exact absurd htext h.2.2
      case isFalse => cases hq
  | _ => trivial

theorem scatteringOn_passive (text : String) : Passive (some (scatteringOn text)) := by
  intro h hmem ctx
  cases hmem
  exact ⟨fun _ => rfl, fun _ => rfl⟩

end Sample

open Sample

/-- A scatter, a transaction, and a scatter again. -/
theorem status_agrees_scattered :
    let s := after .session (some (scatteringOn "S"))
      ([client (.query "S"), client (.query "BEGIN")] ++ reads 2 ++
        [client (.query "COMMIT")] ++ reads 2)
    s.downstreamStatus = s.leaseStatus ∧
      (∀ kind, s.scatterRefusal kind = none → s.leaseStatus = .idle) ∧
      Core.Told (some (scatteringOn "S")) s.toCore
        (s.step (env .session) (client (.query "S"))).toCore :=
  status_agrees (env .session) Pg.status
    (launch .session (some (scatteringOn "S"))) (List.map .own _) _ (pg_inOrder _)
    (pg_reports Dialect.sample_standard) (world_idle .session)
    (scatteringOn_passive _) (scatteringOn_legs _)
    (by
      refine ⟨?_, ?_, ?_, ?_, ?_, ?_, ?_, ?_, trivial⟩ <;>
        exact fun _ => Careful.careful (by decide) rfl)

/-- A scatter that is refused inside a transaction tells the client that it is over, and the
    next one is run while the transaction is open. -/
theorem status_disagrees :
    let s := after .session (some (scatteringOn "S"))
      ([client (.query "BEGIN")] ++ reads 2 ++ [client (.query "S")])
    s.lease.isSome = true ∧ s.outstanding (env .session).upstream = 0 ∧
      s.leaseStatus = .transaction ∧ s.downstreamStatus = .idle ∧
      s.log.getLast? = some (.sent true s.origin (.readyForQuery .idle)) ∧
      s.scatterRefusal .simple = none ∧
      .sent true (.client 0 3) (.commandComplete "SELECT 0") ∈
        (s.step (env .session) (client (.query "S"))).log := by
  decide

end Pgferry
