/-
  What the steps of the pump leave alone.

  Proved: reading a message changes the lease and what is tracked of it only (`readNext_spec`);
  a local answer leaves the lease alone unless it is a scatter (`answered_frame`).
-/
import Pgferry.Session.Steps

namespace Pgferry

variable {σ κ : Type}

/-- Only a `Parse` with a name defines a statement to record. -/
theorem parse_of_pendingParse {m : FrontendMessage} {name query : String} {typeOids : List Nat}
    (h : pendingParse m = some (name, query, typeOids)) :
    name ≠ "" ∧ m = .parse (some name) query typeOids := by
  cases m with
  | parse stmt sql oids =>
      cases stmt with
      | none => cases h
      | some n =>
          simp only [pendingParse] at h
          split at h <;> cases h
          exact ⟨by assumption, rfl⟩
  | _ => cases h

/-! ## Reading from the upstream -/

namespace Core

/-- `d` differs from `c` in the lease and in what is tracked of the upstream's messages. -/
structure ReadFrame (c d : Core σ) : Prop where
  id : d.id = c.id
  seq : d.seq = c.seq
  log : d.log = c.log
  attached : d.attached = c.attached
  currentEndpoint : d.currentEndpoint = c.currentEndpoint
  cycleIsExtended : d.cycleIsExtended = c.cycleIsExtended
  registry : d.registry = c.registry
  swallowUntilSync : d.swallowUntilSync = c.swallowUntilSync
  draining : d.draining = c.draining
  ended : d.ended = c.ended

theorem track_spec (transactionMode : Bool) (c : Core σ) (m : BackendMessage) :
    c.ReadFrame (c.track transactionMode m) ∧
      (c.track transactionMode m).lease =
        c.lease.map fun l => { l with conn := l.conn.noted m } := by
  cases m <;> refine ⟨⟨rfl, rfl, rfl, rfl, rfl, rfl, rfl, rfl, rfl, rfl⟩, ?_⟩ <;>
    first
    | rfl
    | exact Option.map_id'.symm

/-- Tracking a message never lowers the dirty flag. -/
theorem track_dirty (transactionMode : Bool) (c : Core σ) (m : BackendMessage)
    (h : (c.track transactionMode m).leaseDirty = false) : c.leaseDirty = false := by
  cases m <;> first
    | exact h
    | (unfold track at h
       simp at h
       exact h.1)

/-- Reading takes the first message of the inbox. -/
theorem readNext_spec {transactionMode : Bool} {c d : Core σ} {o : Origin} {m : BackendMessage}
    (h : c.readNext transactionMode = some (o, m, d)) :
    ∃ lease rest, c.lease = some lease ∧ lease.conn.inbox = (o, m) :: rest ∧
      c.ReadFrame d ∧
      d = { c with lease := some { lease with conn :=
        { lease.conn with
          inbox := rest
          consumed := lease.conn.consumed + m.ready } } }.track transactionMode m ∧
      d.lease = some { lease with conn :=
        { lease.conn with
          inbox := rest
          consumed := lease.conn.consumed + m.ready }.noted m } := by
  unfold readNext at h
  split at h
  case h_1 => cases h
  case h_2 lease hlease =>
    unfold Conn.next at h
    cases hin : lease.conn.inbox with
    | nil => simp [hin] at h
    | cons x rest =>
        simp only [hin, Option.some.injEq, Prod.mk.injEq] at h
        obtain ⟨rfl, rfl, rfl⟩ := h
        obtain ⟨⟨h1, h2, h3, h4, h5, h6, h7, h8, h9, h10⟩, hl⟩ := track_spec transactionMode
          { c with lease := some { lease with conn :=
            { lease.conn with
              inbox := rest
              consumed := lease.conn.consumed + x.2.ready } } } x.2
        exact ⟨lease, rest, hlease, hin, ⟨h1, h2, h3, h4, h5, h6, h7, h8, h9, h10⟩, rfl, hl⟩

/-! ## Updates on the way of a client message -/

theorem note_eq (c : Core σ) (m : FrontendMessage) :
    ∃ extended, c.note m = { c with cycleIsExtended := extended } := by
  unfold note
  split
  · exact ⟨_, rfl⟩
  · exact ⟨c.cycleIsExtended, rfl⟩

/-- The state after a failed attach for `m`. -/
theorem attachFails_noted {c d : Core σ} {m : FrontendMessage} (h : AttachFails (c.note m) d) :
    ∃ extended dirty info es, c.lease = none ∧ es <+: c.answers [.errorResponse info] ∧
      d = { c with cycleIsExtended := extended, leaseDirty := dirty }.emit es := by
  obtain ⟨b, hb⟩ := c.note_eq m
  rw [hb] at h
  cases h with
  | intro dirty info es hnone hes => exact ⟨b, dirty, info, es, hnone, hes, rfl⟩

theorem await_eq (c : Core σ) (m : FrontendMessage) :
    c.await m = { c with hygiene := { c.hygiene with
      awaitingResponse := c.hygiene.awaitingResponse || m.startsResponse } } := by
  unfold await
  cases h : m.startsResponse <;> simp

theorem awaitPut_eq (u : Upstream σ) (c : Core σ) (lease : UpstreamLease σ) (m : FrontendMessage) :
    (c.await m).put u lease m = { c with
      hygiene := { c.hygiene with
        awaitingResponse := c.hygiene.awaitingResponse || m.startsResponse }
      lease := some { lease with
        conn := if m.triggersResponse then lease.conn.send u c.origin m
          else lease.conn.feed c.origin m }
      log := c.log ++ [.forwarded lease.conn.processId c.seq m]
      fedSinceRfq := c.fedSinceRfq + 1 } := by
  rw [await_eq]
  rfl

theorem register_eq (c : Core σ) (p : Session.PendingParse) :
    ∃ registry dirty, c.register p =
      { c with registry := registry, leaseDirty := dirty, attached := true } := by
  cases p with
  | none => exact ⟨c.registry, c.leaseDirty, rfl⟩
  | some p => exact ⟨_, true, rfl⟩

theorem note_log (c : Core σ) (m : FrontendMessage) : (c.note m).log = c.log := by
  obtain ⟨_, hb⟩ := c.note_eq m
  rw [hb]

theorem note_swallow (c : Core σ) (m : FrontendMessage) :
    (c.note m).swallowUntilSync = c.swallowUntilSync := by
  obtain ⟨_, hb⟩ := c.note_eq m
  rw [hb]

/-- What was written before a failure is the answer to the first messages. -/
theorem answers_of_prefix {c : Core σ} {ms : List BackendMessage} {pre : List Entry}
    (h : pre <+: c.answers ms) : ∃ ns, ns <+: ms ∧ pre = c.answers ns := by
  refine ⟨ms.take pre.length, List.take_prefix _ _, ?_⟩
  rw [answers, List.map_take]
  exact List.prefix_iff_eq_take.mp h

theorem prefix_pair {x y : Entry} {pre : List Entry} (h : pre <+: [x, y]) :
    pre = [] ∨ pre = [x] ∨ pre = [x, y] := by
  rcases List.prefix_cons_iff.mp h with rfl | ⟨pre', rfl, h'⟩
  · exact .inl rfl
  · rcases List.prefix_cons_iff.mp h' with rfl | ⟨pre'', rfl, h''⟩
    · exact .inr (.inl rfl)
    · cases List.prefix_nil.mp h''
      exact .inr (.inr rfl)

/-- What a local answer leaves alone. -/
structure AnswerFrame (c d : Core σ) : Prop where
  id : d.id = c.id
  seq : d.seq = c.seq
  fedSinceRfq : d.fedSinceRfq = c.fedSinceRfq
  hygiene : d.hygiene = c.hygiene
  gucOverrides : d.gucOverrides = c.gucOverrides
  leaseDirty : d.leaseDirty = c.leaseDirty
  draining : d.draining = c.draining

theorem query_of_simple {m : FrontendMessage} {input : CycleInput}
    (hin : cycleInputOf m = some input) (hk : input.kind.isExtended = false) :
    ∃ sql, m = .query sql := by
  cases m <;> simp only [cycleInputOf, Option.some.injEq, reduceCtorEq] at hin <;> subst hin
  · exact ⟨_, rfl⟩
  · cases hk

/-- `on_query` asks for some scatter. -/
def AsksScatter (i : Option (Interceptor κ)) : Prop :=
  ∃ input request, Asks i input (.scatter request)

/-- What a local answer does to the lease: only a scatter touches it. -/
inductive LeaseAfter (env : Env σ) (i : Option (Interceptor κ)) (m : FrontendMessage)
    (c d : Core σ) : Prop
  | same (h : d.lease = c.lease)
  | dropped (hs : AsksScatter i) (sql : String) (hm : m = .query sql) (h : d.lease = none)
  | ran (hs : AsksScatter i) (sql : String) (lease : UpstreamLease σ) (leg : ScatterLeg)
      (hm : m = .query sql)
      (hlease : c.lease = some lease)
      (hb : (runQueryCollect env.upstream lease.conn leg.sql).broken = false)
      (h : d.lease = some { lease with
        conn := (runQueryCollect env.upstream lease.conn leg.sql).conn })

section Answered

variable {env : Env σ} {i : Option (Interceptor κ)} {s : Session σ κ} {c d : Core σ}
  {m : FrontendMessage}

/-- A write with an update that touches nothing of the frame. -/
theorem said_frame {c₁ : Core σ} {es : List Entry} {f : Core σ → Core σ} (h : Said c₁ es f d)
    (hc : c.AnswerFrame c₁) (hf : (c₁.emit es).AnswerFrame (f (c₁.emit es)))
    (hl : (f (c₁.emit es)).lease = c₁.lease) : c.AnswerFrame d ∧ d.lease = c₁.lease := by
  obtain ⟨h1, h2, h3, h4, h5, h6, h7⟩ := hc
  cases h with
  | done =>
      obtain ⟨f1, f2, f3, f4, f5, f6, f7⟩ := hf
      exact ⟨⟨f1.trans h1, f2.trans h2, f3.trans h3, f4.trans h4, f5.trans h5, f6.trans h6,
        f7.trans h7⟩, hl⟩
  | cut => exact ⟨⟨h1, h2, h3, h4, h5, h6, h7⟩, rfl⟩

theorem note_frame (c : Core σ) (m : FrontendMessage) :
    c.AnswerFrame (c.note m) ∧ (c.note m).lease = c.lease := by
  obtain ⟨b, hb⟩ := c.note_eq m
  rw [hb]
  exact ⟨⟨rfl, rfl, rfl, rfl, rfl, rfl, rfl⟩, rfl⟩

theorem scatterLost_frame (c : Core σ) (broken : Bool) :
    c.AnswerFrame (c.scatterLost broken) ∧
      (c.scatterLost broken).lease = if broken then none else c.lease := by
  cases broken <;> exact ⟨⟨rfl, rfl, rfl, rfl, rfl, rfl, rfl⟩, rfl⟩

theorem scattered_answerFrame {u : Upstream σ} {request : ScatterRequest} {broken : Bool}
    (h : Scattered u c request d broken) : c.AnswerFrame d := by
  cases h <;> exact ⟨rfl, rfl, rfl, rfl, rfl, rfl, rfl⟩

theorem leaseAfter_of_scattered {c₀ c₁ : Core σ} {request : ScatterRequest} {sql : String}
    (hs : AsksScatter i) (h : Scattered env.upstream c₀ request c₁ false) (hm : m = .query sql)
    (hc : c₀.lease = c.lease) (hd : d.lease = c₁.lease) : LeaseAfter env i m c d := by
  generalize hb : false = broken at h
  cases h with
  | pooled => exact .same (hd.trans hc)
  | leg lease leg hlease _ _ => exact .ran hs sql lease leg hm (hc.symm.trans hlease) hb.symm hd

theorem AnswerFrame.trans {c₁ : Core σ} (h : c.AnswerFrame c₁) (h' : c₁.AnswerFrame d) :
    c.AnswerFrame d :=
  ⟨h'.id.trans h.id, h'.seq.trans h.seq, h'.fedSinceRfq.trans h.fedSinceRfq,
    h'.hygiene.trans h.hygiene, h'.gucOverrides.trans h.gucOverrides,
    h'.leaseDirty.trans h.leaseDirty, h'.draining.trans h.draining⟩

/-- What a local answer leaves alone, and the lease after it. -/
theorem answered_frame {t : Timing} (h : Answered env i s c m t d) :
    c.AnswerFrame d ∧ LeaseAfter env i m c d := by
  have hrefl : ∀ c : Core σ, c.AnswerFrame c := fun _ => ⟨rfl, rfl, rfl, rfl, rfl, rfl, rfl⟩
  obtain ⟨hn, hnl⟩ := c.note_frame m
  -- Every answer but a scatter's is one write from `c₁`, which has the lease of `c`.
  have hsaid : ∀ {c₁ : Core σ} {es : List Entry} {f : Core σ → Core σ}, Said c₁ es f d →
      c.AnswerFrame c₁ → c₁.lease = c.lease → (c₁.emit es).AnswerFrame (f (c₁.emit es)) →
      (f (c₁.emit es)).lease = c₁.lease → c.AnswerFrame d ∧ LeaseAfter env i m c d :=
    fun h hc hl hf hfl => ⟨(said_frame h hc hf hfl).1, .same ((said_frame h hc hf hfl).2.trans hl)⟩
  cases h with
  | quit | swallowed | localFlush => exact ⟨⟨rfl, rfl, rfl, rfl, rfl, rfl, rfl⟩, .same rfl⟩
  | closed => exact ⟨hn.trans ⟨rfl, rfl, rfl, rfl, rfl, rfl, rfl⟩, .same hnl⟩
  | resumed _ _ _ h => exact hsaid h ⟨rfl, rfl, rfl, rfl, rfl, rfl, rfl⟩ rfl (hrefl _) rfl
  | localSync _ _ _ _ _ h => exact hsaid h (hrefl _) rfl (hrefl _) rfl
  | localClose _ _ _ _ _ _ _ h =>
      exact hsaid h ⟨rfl, rfl, rfl, rfl, rfl, rfl, rfl⟩ rfl (hrefl _) rfl
  | deniedSimple _ _ _ _ _ _ _ h => exact hsaid h hn hnl (hrefl _) rfl
  | repliedSimple _ _ _ _ _ _ _ h => exact hsaid h hn hnl (hrefl _) rfl
  | reparsed _ _ _ _ _ _ _ _ _ _ h => exact hsaid h hn hnl (hrefl _) rfl
  | deniedExtended _ _ _ _ _ _ _ h =>
      exact hsaid h hn hnl ⟨rfl, rfl, rfl, rfl, rfl, rfl, rfl⟩ rfl
  | repliedExtended _ _ _ _ _ _ _ h =>
      exact hsaid h hn hnl ⟨rfl, rfl, rfl, rfl, rfl, rfl, rfl⟩ rfl
  | duplicate _ _ _ _ _ _ _ _ _ _ _ h =>
      exact hsaid h hn hnl ⟨rfl, rfl, rfl, rfl, rfl, rfl, rfl⟩ rfl
  | scatterRefused _ _ _ _ _ _ _ _ h =>
      obtain ⟨hs, hsl⟩ := (c.note m).scatterLost_frame false
      exact hsaid h (hn.trans hs) (hsl.trans hnl) ⟨rfl, rfl, rfl, rfl, rfl, rfl, rfl⟩ rfl
  | scatterOk input request ms c₁ _ hp hin ha hk hd hr hms h =>
      obtain ⟨sql, hm⟩ := query_of_simple hin hk
      obtain ⟨hfr, hl⟩ := said_frame h (hn.trans (scattered_answerFrame hr)) (hrefl _) rfl
      exact ⟨hfr, leaseAfter_of_scattered ⟨input, request, ha⟩ hr hm hnl hl⟩
  | scatterFailed input request failure c₁ _ hp hin ha hk hf hr h =>
      obtain ⟨sql, hm⟩ := query_of_simple hin hk
      obtain ⟨hs, hsl⟩ := c₁.scatterLost_frame failure.sessionLeaseBroken
      obtain ⟨hfr, hl⟩ := said_frame h ((hn.trans (scattered_answerFrame hr)).trans hs)
        ⟨rfl, rfl, rfl, rfl, rfl, rfl, rfl⟩ rfl
      refine ⟨hfr, ?_⟩
      rw [hsl] at hl
      cases hb : failure.sessionLeaseBroken with
      | true => exact .dropped ⟨input, request, ha⟩ sql hm (by rw [hl, hb]; rfl)
      | false =>
          rw [hb] at hr
          exact leaseAfter_of_scattered ⟨input, request, ha⟩ hr hm hnl (by rw [hl, hb]; rfl)
  | scatterPanicked input request c₁ hp hin ha hk hr =>
      obtain ⟨sql, hm⟩ := query_of_simple hin hk
      exact ⟨(hn.trans (scattered_answerFrame hr)).trans ⟨rfl, rfl, rfl, rfl, rfl, rfl, rfl⟩,
        leaseAfter_of_scattered ⟨input, request, ha⟩ hr hm hnl rfl⟩

theorem answered_terminate {t : Timing} (h : Answered env i s c .terminate t d) :
    d = c.stop .clientGone := by
  cases h with
  | quit => rfl
  | swallowed _ _ hq => exact absurd rfl hq
  | resumed _ _ hm => cases hm
  | localSync _ _ _ _ hm => cases hm
  | localFlush _ _ _ hm => cases hm
  | localClose _ _ _ _ _ _ hm => cases hm
  | closed _ hp => exact absurd rfl hp.1
  | deniedSimple _ _ _ hp => exact absurd rfl hp.1
  | deniedExtended _ _ _ hp => exact absurd rfl hp.1
  | repliedSimple _ _ _ hp => exact absurd rfl hp.1
  | repliedExtended _ _ _ hp => exact absurd rfl hp.1
  | scatterOk _ _ _ _ _ hp => exact absurd rfl hp.1
  | scatterRefused _ _ _ _ hp => exact absurd rfl hp.1
  | scatterFailed _ _ _ _ _ hp => exact absurd rfl hp.1
  | scatterPanicked _ _ _ hp => exact absurd rfl hp.1
  | reparsed _ _ _ _ _ _ hp => exact absurd rfl hp.1
  | duplicate _ _ _ _ _ _ hp => exact absurd rfl hp.1

/-- A `Sync` is answered by the pump while it swallows, or detached. -/
theorem answered_sync {t : Timing} (h : Answered env i s c .sync t d) :
    c.swallowUntilSync = true ∨ env.transactionMode = true ∧ c.lease = none := by
  have hsync : ∀ {input}, cycleInputOf .sync ≠ some input := nofun
  have hfwd : ∀ {m' p}, Forwards i .sync m' → pendingParse m' ≠ some p := by
    rintro m' p (⟨rfl, _⟩ | ⟨input, hin, _⟩) hp
    · cases hp
    · cases hin
  cases h with
  | quit hm => cases hm
  | swallowed hs => exact .inl hs
  | resumed _ hs => exact .inl hs
  | localSync _ _ ht hl => exact .inr ⟨ht, hl⟩
  | localFlush _ ht hl => exact .inr ⟨ht, hl⟩
  | localClose _ _ _ _ ht hl => exact .inr ⟨ht, hl⟩
  | closed _ _ hin => exact absurd hin hsync
  | deniedSimple _ _ _ _ hin => exact absurd hin hsync
  | deniedExtended _ _ _ _ hin => exact absurd hin hsync
  | repliedSimple _ _ _ _ hin => exact absurd hin hsync
  | repliedExtended _ _ _ _ hin => exact absurd hin hsync
  | scatterOk _ _ _ _ _ _ hin => exact absurd hin hsync
  | scatterRefused _ _ _ _ _ hin => exact absurd hin hsync
  | scatterFailed _ _ _ _ _ _ hin => exact absurd hin hsync
  | scatterPanicked _ _ _ _ hin => exact absurd hin hsync
  | reparsed _ _ _ _ _ _ _ hf hm => exact absurd hm (hfwd hf.1)
  | duplicate _ _ _ _ _ _ _ hf hm => exact absurd hm (hfwd hf)

/-- The entries of the scatter leg that answering `m` ran on the session's lease, if any. -/
inductive Legs (m : FrontendMessage) : List Entry → Prop
  | none : Legs m []
  | one (sql leg endpoint : String) (hm : m = .query sql) : Legs m [.sessionLeg leg endpoint]

/-- What a local answer adds to the log: perhaps a scatter leg, and the pump's own messages.
    A completion is among them only when the batch was not refused before. -/
def AnswerLog (m : FrontendMessage) (c d : Core σ) : Prop :=
  ∃ legs ms, d.log = c.log ++ (legs ++ c.answers ms) ∧ Legs m legs ∧
    ((∀ x ∈ ms, x.isCompletion = false) ∨ c.swallowUntilSync = false ∧ m ≠ .sync)

/-- One write from a state that has the log of `c` and the entries `legs`. -/
theorem said_log {c₁ : Core σ} {ms : List BackendMessage} {f : Core σ → Core σ}
    {legs : List Entry} (h : Said c₁ (c.answers ms) f d) (hc : c₁.log = c.log ++ legs)
    (hf : ∀ d, (f d).log = d.log) (hlegs : Legs m legs)
    (hms : (∀ x ∈ ms, x.isCompletion = false) ∨ c.swallowUntilSync = false ∧ m ≠ .sync) :
    AnswerLog m c d := by
  cases h with
  | done => exact ⟨legs, ms, by rw [hf, emit, hc, List.append_assoc], hlegs, hms⟩
  | cut pre endpoint attached hpre =>
      obtain ⟨ns, hns, rfl⟩ := answers_of_prefix hpre
      refine ⟨legs, ns, ?_, hlegs, hms.imp (fun h x hx => h x (hns.subset hx)) fun h => h⟩
      show c₁.log ++ c.answers ns = _
      rw [hc, List.append_assoc]

theorem scattered_log {c₁ : Core σ} {request : ScatterRequest} {broken : Bool} {sql : String}
    (h : Scattered env.upstream (c.note m) request c₁ broken) (hm : m = .query sql) :
    ∃ legs, c₁.log = c.log ++ legs ∧ Legs m legs := by
  cases h with
  | pooled => exact ⟨[], by rw [note_log, List.append_nil], .none⟩
  | leg lease leg hlease _ _ =>
      refine ⟨[.sessionLeg leg.endpoint lease.pool.endpoint], ?_, .one sql _ _ hm⟩
      rw [ranLeg, note_log]

theorem answered_log {t : Timing} (h : Answered env i s c m t d) : AnswerLog m c d := by
  have hnil : c.log = c.log ++ ([] ++ c.answers []) := (List.append_nil _).symm
  have hnote : (c.note m).log = c.log ++ [] := (c.note_log m).trans (List.append_nil _).symm
  have hpass : c.Passes env.transactionMode m → ∀ input, cycleInputOf m = some input →
      c.swallowUntilSync = false ∧ m ≠ .sync := by
    intro hp input hin
    refine ⟨hp.2.1, ?_⟩
    rintro rfl
    cases hin
  have hparse : c.Passes env.transactionMode m → ∀ m' p, Forwards i m m' →
      pendingParse m' = some p → c.swallowUntilSync = false ∧ m ≠ .sync := by
    intro hp m' p hf hm
    refine ⟨hp.2.1, ?_⟩
    rintro rfl
    rcases hf with ⟨rfl, _⟩ | ⟨input, hin, _⟩
    · cases hm
    · cases hin
  have hready : ∀ status, ∀ x ∈ [BackendMessage.readyForQuery status],
      x.isCompletion = false := by
    intro status x hx
    rw [List.mem_singleton.mp hx]
    rfl
  cases h with
  | quit | swallowed | localFlush => exact ⟨[], [], hnil, .none, .inl nofun⟩
  | closed => exact ⟨[], [], (c.note_log m).trans hnil, .none, .inl nofun⟩
  | resumed _ _ _ h =>
      exact said_log h (List.append_nil _).symm (fun _ => rfl) .none (.inl (hready _))
  | localSync _ _ _ _ _ h =>
      exact said_log h (List.append_nil _).symm (fun _ => rfl) .none (.inl (hready _))
  | localClose _ _ _ hs _ _ hm h =>
      exact said_log h (List.append_nil _).symm (fun _ => rfl) .none
        (.inr ⟨hs, by rw [hm]; nofun⟩)
  | deniedSimple input _ _ hp hin _ _ h =>
      exact said_log h hnote (fun _ => rfl) .none (.inr (hpass hp _ hin))
  | deniedExtended input _ _ hp hin _ _ h =>
      exact said_log h hnote (fun _ => rfl) .none (.inr (hpass hp _ hin))
  | repliedSimple input _ _ hp hin _ _ h =>
      exact said_log h hnote (fun _ => rfl) .none (.inr (hpass hp _ hin))
  | repliedExtended input _ _ hp hin _ _ h =>
      exact said_log h hnote (fun _ => rfl) .none (.inr (hpass hp _ hin))
  | scatterOk input _ _ c₁ _ hp hin _ hk _ hr _ h =>
      obtain ⟨sql, hm⟩ := query_of_simple hin hk
      obtain ⟨legs, hl, hlegs⟩ := scattered_log hr hm
      exact said_log h hl (fun _ => rfl) hlegs (.inr (hpass hp _ hin))
  | scatterRefused input _ _ _ hp hin _ _ h =>
      exact said_log h hnote (fun _ => rfl) .none (.inr (hpass hp _ hin))
  | scatterFailed input _ failure c₁ _ hp hin _ hk _ hr h =>
      obtain ⟨sql, hm⟩ := query_of_simple hin hk
      obtain ⟨legs, hl, hlegs⟩ := scattered_log hr hm
      refine said_log h (Eq.trans ?_ hl) (fun _ => rfl) hlegs (.inr (hpass hp _ hin))
      cases failure.sessionLeaseBroken <;> rfl
  | scatterPanicked input _ c₁ hp hin _ hk hr =>
      obtain ⟨sql, hm⟩ := query_of_simple hin hk
      obtain ⟨legs, hl, hlegs⟩ := scattered_log hr hm
      exact ⟨legs, [], hl.trans (by simp [answers]), hlegs, .inl nofun⟩
  | reparsed m' _ _ _ _ _ hp hf hm _ h =>
      exact said_log h hnote (fun _ => rfl) .none (.inr (hparse hp _ _ hf.1 hm))
  | duplicate m' _ _ _ _ _ hp hf hm _ _ h =>
      exact said_log h hnote (fun _ => rfl) .none (.inr (hparse hp _ _ hf hm))

end Answered

/-! ## A message on its way to the upstream -/

/-- What the phases up to the raw hook leave alone. -/
structure EnterFrame (m : FrontendMessage) (c d : Core σ) : Prop where
  id : d.id = c.id
  seq : d.seq = c.seq
  downstreamStatus : d.downstreamStatus = c.downstreamStatus
  fedSinceRfq : d.fedSinceRfq = c.fedSinceRfq
  cycleIsExtended : d.cycleIsExtended = (c.note m).cycleIsExtended
  hygiene : d.hygiene = c.hygiene
  gucOverrides : d.gucOverrides = c.gucOverrides
  swallowUntilSync : d.swallowUntilSync = c.swallowUntilSync
  draining : d.draining = c.draining
  ended : d.ended = c.ended
  /-- A lease taken on the way is all that is logged. -/
  log : d.log = c.log ∨ ∃ pid endpoint, d.log = c.log ++ [.attached pid endpoint]

theorem enters_frame {env : Env σ} {i : Option (Interceptor κ)} {Φ : PoolKey → Conn σ → Prop}
    {s : Session σ κ} {c d : Core σ} {m m' : FrontendMessage} (h : Enters env i Φ s c m m' d) :
    c.EnterFrame m d := by
  obtain ⟨c₁, hatt, rfl⟩ := h.attaches
  obtain ⟨b, hb⟩ := c.note_eq m
  obtain ⟨registry, dirty, hr⟩ := c₁.register_eq (pendingParse m')
  rw [hr]
  rw [hb] at hatt
  cases hatt with
  | held => exact ⟨rfl, rfl, rfl, rfl, by rw [hb], rfl, rfl, rfl, rfl, rfl, .inl rfl⟩
  | leased =>
      exact ⟨rfl, rfl, rfl, rfl, by rw [hb]; rfl, rfl, rfl, rfl, rfl, rfl, .inr ⟨_, _, rfl⟩⟩

/-! ## The position in the client's stream -/

theorem said_position {c d c₁ : Core σ} {es : List Entry} {f : Core σ → Core σ}
    (h : Said c₁ es f d) (hc : c₁.id = c.id ∧ c.seq ≤ c₁.seq)
    (hf : ∀ e, (f e).id = e.id ∧ (f e).seq = e.seq) : d.id = c.id ∧ c.seq ≤ d.seq := by
  cases h with
  | done =>
      obtain ⟨h1, h2⟩ := hf (c₁.emit es)
      exact ⟨h1.trans hc.1, h2 ▸ hc.2⟩
  | cut => exact hc

theorem lost_position {c d : Core σ} {i : Option (Interceptor κ)} {lease : UpstreamLease σ}
    {reason : String} {synth : Bool} (h : Lost i c lease reason synth d) :
    d.id = c.id ∧ c.seq ≤ d.seq := by
  cases h with
  | closed => exact ⟨rfl, Nat.le_refl _⟩
  | silent => exact ⟨rfl, Nat.le_refl _⟩
  | simple _ _ _ h => exact said_position h ⟨rfl, Nat.le_refl _⟩ fun _ => ⟨rfl, rfl⟩
  | extended _ _ _ h => exact said_position h ⟨rfl, Nat.le_refl _⟩ fun _ => ⟨rfl, rfl⟩

theorem afterReady_position (tm : Bool) (c : Core σ) :
    (c.afterReady tm).id = c.id ∧ (c.afterReady tm).seq = c.seq := by
  unfold afterReady
  split
  · exact ⟨rfl, rfl⟩
  · split
    · split <;> exact ⟨rfl, rfl⟩
    · exact ⟨rfl, rfl⟩

/-- A session keeps its number and goes forward in the client's stream. -/
theorem steps_position {env : Env σ} {i : Option (Interceptor κ)} {Φ : PoolKey → Conn σ → Prop}
    {s : Session σ κ} {e : Event} {d : Core σ} (h : Steps env i Φ s e d) :
    d.id = s.id ∧ s.seq ≤ d.seq := by
  have hread : ∀ {tm : Bool} {o m c}, s.toCore.readNext tm = some (o, m, c) →
      c.id = s.id ∧ s.seq ≤ c.seq := by
    intro tm o m c hr
    obtain ⟨_, _, _, _, hf, _⟩ := readNext_spec hr
    exact ⟨hf.id, Nat.le_of_eq hf.seq.symm⟩
  have henter : ∀ {m m' c}, Enters env i Φ s (s.toCore.recv m) m m' c →
      c.id = s.id ∧ s.seq ≤ c.seq := by
    intro m m' c he
    have hf := enters_frame he
    exact ⟨hf.id, by rw [hf.seq]; exact Nat.le_succ _⟩
  cases h with
  | answered m t _ h =>
      obtain ⟨hf, _⟩ := answered_frame h
      exact ⟨hf.id, by rw [hf.seq]; exact Nat.le_succ _⟩
  | attachFailed m m' t d' _ _ h =>
      obtain ⟨_, _, _, _, -, -, rfl⟩ := attachFails_noted h
      exact ⟨rfl, Nat.le_succ _⟩
  | hookReplied m m' m'' t ms c _ hent hh h =>
      exact said_position h (henter hent) fun _ => ⟨rfl, rfl⟩
  | hookStopped m m' m'' t action c hent =>
      have hc := henter hent
      exact hc
  | put m m' m'' t c lease hent =>
      have hc := henter hent
      rw [awaitPut_eq]
      exact hc
  | sendFailed m m' m'' t c _ lease hent hh hlease hs h =>
      rw [await_eq] at h
      obtain ⟨h1, h2⟩ := lost_position h
      exact ⟨h1.trans (henter hent).1, Nat.le_trans (henter hent).2 h2⟩
  | clientGone | idle | upstreamError | cancel | drain | shutdown => exact ⟨rfl, Nat.le_refl _⟩
  | rowDropped o m _ row hr => exact hread hr
  | readStopped o m c e hr =>
      have hc := hread hr
      exact hc
  | replaced o m m' m'' ms c _ hr hs hh h => exact said_position h (hread hr) fun _ => ⟨rfl, rfl⟩
  | passed o m m' m'' c _ hr hs hh h =>
      refine said_position h (hread hr) fun e => ?_
      split
      · exact afterReady_position _ e
      · exact ⟨rfl, rfl⟩
  | upstreamClosed lease _ hlease h => exact lost_position h

end Core

end Pgferry
