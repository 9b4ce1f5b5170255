/-
  What a step does with the session's connection.

  `Steps` has a case for each path through the pump. For the invariants about a connection most
  of them are alike: the lease stays, is dropped, is taken and written to, or is read from.
  `Handles` lists these few, with what the session carries over from one connection to the next:
  the dirty flag, the statement registry, the GUC overrides and the messages that it has forwarded
  so far (`carried`).

  Proved: `steps_handles`, every step is one of them. The steps get no fewer when more is known
  of the pools (`Steps.mono`).
-/
import Pgferry.Session.Frames

namespace Pgferry

variable {σ κ : Type}

/-! ## What is known of the pools -/

section Mono

variable {env : Env σ} {i : Option (Interceptor κ)} {Φ Ψ : PoolKey → Conn σ → Prop}

theorem Attaches.mono (hΦ : ∀ key c, Φ key c → Ψ key c) {params : SessionParams}
    {startup : Params} {c d : Core σ} (h : Attaches env Φ params startup c d) :
    Attaches env Ψ params startup c d := by
  cases h with
  | held lease h => exact .held lease h
  | leased endpoint dirty₀ base lease dirty hnone hdirty hpool hbase hprep =>
      exact .leased endpoint dirty₀ base lease dirty hnone hdirty hpool (hΦ _ _ hbase) hprep

theorem Enters.mono (hΦ : ∀ key c, Φ key c → Ψ key c) {s : Session σ κ} {c d : Core σ}
    {m m' : FrontendMessage} (h : Enters env i Φ s c m m' d) : Enters env i Ψ s c m m' d where
  passes := h.passes
  forwards := h.forwards
  approved := h.approved
  unknown := h.unknown
  attaches := by
    obtain ⟨c₁, hatt, hd⟩ := h.attaches
    exact ⟨c₁, hatt.mono hΦ, hd⟩

theorem Steps.mono (hΦ : ∀ key c, Φ key c → Ψ key c) {s : Session σ κ} {e : Event} {d : Core σ}
    (h : Steps env i Φ s e d) : Steps env i Ψ s e d := by
  cases h with
  | answered m t _ h => exact .answered m t _ h
  | attachFailed m m' t d hp hf h => exact .attachFailed m m' t d hp hf h
  | hookReplied m m' m'' t ms c _ he hh h => exact .hookReplied m m' m'' t ms c _ (he.mono hΦ) hh h
  | hookStopped m m' m'' t action c he hh ha =>
      exact .hookStopped m m' m'' t action c (he.mono hΦ) hh ha
  | put m m' m'' t c lease he hh hlease hs =>
      exact .put m m' m'' t c lease (he.mono hΦ) hh hlease hs
  | sendFailed m m' m'' t c _ lease he hh hlease hs h =>
      exact .sendFailed m m' m'' t c _ lease (he.mono hΦ) hh hlease hs h
  | clientGone => exact .clientGone
  | idle e he h => exact .idle e he h
  | rowDropped o m _ row hr hm hi => exact .rowDropped o m _ row hr hm hi
  | readStopped o m c e hr hi => exact .readStopped o m c e hr hi
  | replaced o m m' m'' ms c _ hr hs hh h => exact .replaced o m m' m'' ms c _ hr hs hh h
  | passed o m m' m'' c _ hr hs hh h => exact .passed o m m' m'' c _ hr hs hh h
  | upstreamClosed lease _ hlease h => exact .upstreamClosed lease _ hlease h
  | upstreamError reason lease hlease => exact .upstreamError reason lease hlease
  | cancel lease hlease => exact .cancel lease hlease
  | drain => exact .drain
  | shutdown h hc => exact .shutdown h hc

end Mono

/-- The message of a `forwarded` entry. -/
def Entry.forwarded? : Entry → Option FrontendMessage
  | .forwarded _ _ m => some m
  | _ => none

namespace Core

/-- The messages of the client that were written to upstream connections, in order. -/
def forwards (c : Core σ) : List FrontendMessage := c.log.filterMap Entry.forwarded?

/-- What outlives the lease: the dirty flag, the registry, the GUC overrides, and what was
    forwarded. -/
def carried (c : Core σ) : Bool × StatementRegistry × Params × List FrontendMessage :=
  (c.leaseDirty, c.registry, c.gucOverrides, c.forwards)

/-- What a step does with the connection and with what the session carries. -/
inductive Handles (env : Env σ) (i : Option (Interceptor κ)) (Φ : PoolKey → Conn σ → Prop)
    (s : Session σ κ) (e : Event) (d : Core σ) : Prop
  | same (hl : d.lease = s.lease) (hc : d.carried = s.toCore.carried)
  /-- A `Close` answered while detached. -/
  | closedName (target : Target) (name : Option String) (t : Timing)
      (he : e = .client (.close target name) t) (ht : env.transactionMode = true)
      (hs : s.lease = none) (hl : d.lease = none)
      (hc : d.carried =
        (s.leaseDirty, s.registry.recordClose name, s.gucOverrides, s.toCore.forwards))
  /-- The lease is gone. A failed attach may have raised the dirty flag. -/
  | dropped (hl : d.lease = none) (hd : s.lease = none ∨ d.leaseDirty = s.leaseDirty)
      (hc : d.carried.2 = s.toCore.carried.2)
  | leg (sql : String) (t : Timing) (lease : UpstreamLease σ) (request : ScatterRequest)
      (leg : ScatterLeg) (he : e = .client (.query sql) t) (hs : s.lease = some lease)
      (ht : LegText i leg.sql)
      (hb : (runQueryCollect env.upstream lease.conn leg.sql).broken = false)
      (hl : d.lease = some { lease with
        conn := (runQueryCollect env.upstream lease.conn leg.sql).conn })
      (hc : d.carried = s.toCore.carried)
  /-- The message got to the raw hook and no further, or the connection broke then. -/
  | entered (m m' : FrontendMessage) (t : Timing) (c : Core σ) (he : e = .client m t)
      (hent : Enters env i Φ s (s.toCore.recv m) m m' c)
      (hl : d.lease = c.lease ∨ d.lease = none) (hc : d.carried = c.carried)
  | put (m m' m'' : FrontendMessage) (t : Timing) (c : Core σ) (lease : UpstreamLease σ)
      (he : e = .client m t) (hent : Enters env i Φ s (s.toCore.recv m) m m' c)
      (hh : Hooked i m' m'' .forward) (hlease : c.lease = some lease)
      (hl : d.lease = some { lease with
        conn := if m''.triggersResponse then lease.conn.send env.upstream c.origin m''
          else lease.conn.feed c.origin m'' })
      (hc : d.carried = (c.leaseDirty, c.registry, c.gucOverrides, c.forwards ++ [m'']))
  | read (o : Origin) (m : BackendMessage) (c : Core σ) (he : e = .upstream)
      (hr : s.toCore.readNext env.transactionMode = some (o, m, c)) (hl : d.lease = c.lease)
      (hc : d.carried = c.carried)
  | detached (o : Origin) (m : BackendMessage) (c : Core σ) (he : e = .upstream)
      (hr : s.toCore.readNext env.transactionMode = some (o, m, c)) (hl : d.lease = none)
      (hc : d.carried = (false, c.registry, c.gucOverrides, c.forwards))
  | cancelled (he : e = .cancel)
      (hl : d.lease = s.lease.map fun l => { l with conn := l.conn.cancel env.upstream })
      (hc : d.carried = s.toCore.carried)

section Said

variable {c d : Core σ}

theorem emit_carried {es : List Entry} (h : es.filterMap Entry.forwarded? = []) :
    (c.emit es).carried = c.carried := by
  have hf : (c.emit es).forwards = c.forwards := by
    unfold forwards emit
    rw [List.filterMap_append, h, List.append_nil]
  unfold carried
  rw [hf]
  rfl

/-- What was written before the client went away. -/
theorem cut_carried {pre es : List Entry} (hpre : pre <+: es)
    (h : es.filterMap Entry.forwarded? = []) : (c.emit pre).carried = c.carried :=
  emit_carried (List.prefix_nil.mp (h ▸ hpre.filterMap Entry.forwarded?))

theorem answers_forwarded (c : Core σ) (ms : List BackendMessage) :
    (c.answers ms).filterMap Entry.forwarded? = [] := by
  unfold answers
  rw [List.filterMap_map]
  exact List.filterMap_eq_nil_iff.mpr fun _ _ => rfl

/-- A write leaves the connection and what is carried alone, up to the update that follows. -/
theorem said_carried {es : List Entry} {f : Core σ → Core σ} (h : Said c es f d)
    (hes : es.filterMap Entry.forwarded? = [])
    (hf : (f (c.emit es)).lease = c.lease ∧ (f (c.emit es)).carried = (c.emit es).carried) :
    d.lease = c.lease ∧ d.carried = c.carried := by
  cases h with
  | done => exact ⟨hf.1, hf.2.trans (emit_carried hes)⟩
  | cut pre _ _ hpre =>
      have hcut : (c.emit pre).carried = c.carried := cut_carried hpre hes
      exact ⟨rfl, hcut⟩

theorem recv_carried (c : Core σ) (m : FrontendMessage) : (c.recv m).carried = c.carried := by
  have hf : (c.recv m).forwards = c.forwards := by
    unfold forwards recv
    rw [List.filterMap_append]
    exact List.append_nil _
  unfold carried
  rw [hf]
  rfl

theorem note_carried (c : Core σ) (m : FrontendMessage) :
    (c.note m).lease = c.lease ∧ (c.note m).carried = c.carried := by
  obtain ⟨b, hb⟩ := c.note_eq m
  rw [hb]
  exact ⟨rfl, rfl⟩

theorem lost_carried {i : Option (Interceptor κ)} {lease : UpstreamLease σ} {reason : String}
    {synth : Bool} (h : Lost i c lease reason synth d) :
    (d.lease = c.lease ∨ d.lease = none) ∧ d.carried = c.carried := by
  have hlost : ∀ decision, (c.emit [c.lostEntry lease decision]).carried = c.carried :=
    fun _ => emit_carried rfl
  cases h with
  | closed => exact ⟨.inl rfl, hlost _⟩
  | silent => exact ⟨.inr rfl, hlost _⟩
  | simple _ _ _ h =>
      obtain ⟨hl, hc⟩ := said_carried h (c.answers_forwarded _) ⟨rfl, rfl⟩
      exact ⟨.inr hl, hc.trans (hlost _)⟩
  | extended _ _ _ h =>
      obtain ⟨hl, hc⟩ := said_carried h (c.answers_forwarded _) ⟨rfl, rfl⟩
      exact ⟨.inr hl, hc.trans (hlost _)⟩

end Said

/-- How the session came to its lease in the phases before the raw hook, and what it carries
    then. -/
inductive Taken (env : Env σ) (Φ : PoolKey → Conn σ → Prop) (params : SessionParams)
    (startup : Params) (c : Core σ) (p : Session.PendingParse) (d : Core σ) : Prop
  | held (lease : UpstreamLease σ) (hs : c.lease = some lease) (hl : d.lease = some lease)
      (hc : d.carried = (c.register p).carried)
  | leased (endpoint : String) (dirty₀ : Bool) (base : Conn σ) (lease : UpstreamLease σ)
      (dirty : Bool) (hnone : c.lease = none) (hdirty : c.leaseDirty = true → dirty₀ = true)
      (hpool : lease.pool = env.poolKey params endpoint) (hbase : Φ lease.pool base)
      (hprep : Prepared env.upstream startup c dirty₀ base lease.conn dirty)
      (hl : d.lease = some lease)
      (hc : d.carried = ({ c with leaseDirty := dirty }.register p).carried)

theorem enters_taken {env : Env σ} {i : Option (Interceptor κ)} {Φ : PoolKey → Conn σ → Prop}
    {s : Session σ κ} {c d : Core σ} {m m' : FrontendMessage} (h : Enters env i Φ s c m m' d) :
    Taken env Φ s.params s.startupParameters c (pendingParse m') d := by
  obtain ⟨c₁, hatt, rfl⟩ := h.attaches
  obtain ⟨b, hb⟩ := c.note_eq m
  have hreg : ∀ c : Core σ, ∀ p, (c.register p).lease = c.lease := by
    intro c p
    cases p <;> rfl
  rw [hb] at hatt
  cases hatt with
  | held lease hs =>
      refine .held lease hs ((hreg _ _).trans hs) ?_
      cases pendingParse m' <;> rfl
  | leased endpoint dirty₀ base lease dirty hnone hdirty hpool hbase hprep =>
      refine .leased endpoint dirty₀ base lease dirty hnone hdirty hpool hbase hprep (hreg _ _) ?_
      have hf : ∀ es : List Entry, es.filterMap Entry.forwarded? = [] →
          ({ c with leaseDirty := dirty }.emit es).forwards = c.forwards :=
        fun es h => congrArg (·.2.2.2) (emit_carried h)
      have hlog := hf [.attached lease.conn.processId lease.pool.endpoint] rfl
      cases pendingParse m' with
      | none => exact congrArg (fun fs => (dirty, c.registry, c.gucOverrides, fs)) hlog
      | some p => exact congrArg (fun fs => (true, _, c.gucOverrides, fs)) hlog

/-- With the flag down no statement was registered. -/
theorem register_clean {b c : Core σ} {p : Session.PendingParse}
    (hc : c.carried = (b.register p).carried) (hd : c.leaseDirty = false) :
    b.leaseDirty = false ∧ p = none := by
  have hd' : (b.register p).leaseDirty = false := (congrArg Prod.fst hc).symm.trans hd
  cases p with
  | none => exact ⟨hd', rfl⟩
  | some p => cases hd'

/-- An attach that leaves the flag down has replayed nothing. -/
theorem prepared_clean {u : Upstream σ} {startup : Params} {c : Core σ} {dirty₀ dirty : Bool}
    {base conn : Conn σ} (h : Prepared u startup c dirty₀ base conn dirty) (hd : dirty = false) :
    c.registry.entries = [] := by
  obtain ⟨_, _, d, _, _, _, hdirty⟩ := h
  rw [hd] at hdirty
  simpa using (Bool.or_eq_false_iff.mp hdirty.symm).2

section Handles

variable {env : Env σ} {i : Option (Interceptor κ)} {Φ : PoolKey → Conn σ → Prop}
  {s : Session σ κ} {d : Core σ}

theorem scattered_handles {m : FrontendMessage} {t : Timing} {c₁ : Core σ} {input : CycleInput}
    {request : ScatterRequest} {broken : Bool} (hin : cycleInputOf m = some input)
    (ha : Asks i input (.scatter request)) (hk : input.kind.isExtended = false)
    (hr : Scattered env.upstream ((s.toCore.recv m).note m) request c₁ broken)
    (hl : d.lease = if broken then none else c₁.lease) (hc : d.carried = c₁.carried) :
    Handles env i Φ s (.client m t) d := by
  obtain ⟨hnl, hnc⟩ := (s.toCore.recv m).note_carried m
  have hnc := hnc.trans (s.toCore.recv_carried m)
  obtain ⟨sql, rfl⟩ := query_of_simple hin hk
  cases hr with
  | pooled => exact .same (hl.trans hnl) (hc.trans hnc)
  | leg lease leg hlease hleg _ =>
      have hs : s.lease = some lease := hnl.symm.trans hlease
      have hleg' : (((s.toCore.recv (.query sql)).note (.query sql)).emit
          [.sessionLeg leg.endpoint lease.pool.endpoint]).carried = s.toCore.carried :=
        (emit_carried rfl).trans hnc
      have hc' : d.carried = s.toCore.carried := hc.trans hleg'
      cases hb : (runQueryCollect env.upstream lease.conn leg.sql).broken with
      | true =>
          rw [hb] at hl
          exact .dropped hl (.inr (congrArg Prod.fst hc')) (congrArg Prod.snd hc')
      | false =>
          rw [hb] at hl
          exact .leg sql t lease request leg rfl hs ⟨input, request, ha, leg, hleg, rfl⟩ hb hl hc'

theorem answered_handles {m : FrontendMessage} {t : Timing}
    (h : Answered env i s (s.toCore.recv m) m t d) : Handles env i Φ s (.client m t) d := by
  have hrc := s.toCore.recv_carried m
  obtain ⟨hnl, hnc⟩ := (s.toCore.recv m).note_carried m
  have hnc := hnc.trans hrc
  -- Every other answer is one write from a state with the same connection.
  have hsaid : ∀ {c₁ : Core σ} {ms : List BackendMessage} {f : Core σ → Core σ},
      Said c₁ ((s.toCore.recv m).answers ms) f d →
      c₁.lease = s.lease ∧ c₁.carried = s.toCore.carried →
      (∀ b : Core σ, (f b).lease = b.lease ∧ (f b).carried = b.carried) →
      Handles env i Φ s (.client m t) d := by
    intro c₁ ms f h hc hf
    obtain ⟨h1, h2⟩ := said_carried h (answers_forwarded _ _) (hf _)
    exact .same (h1.trans hc.1) (h2.trans hc.2)
  cases h with
  | quit | swallowed | localFlush => exact .same rfl hrc
  | closed => exact .same hnl hnc
  | resumed _ _ _ h => exact hsaid h ⟨rfl, hrc⟩ fun _ => ⟨rfl, rfl⟩
  | localSync _ _ _ _ _ h => exact hsaid h ⟨rfl, hrc⟩ fun _ => ⟨rfl, rfl⟩
  | localClose _ target name hs ht hl hm h =>
      subst hm
      obtain ⟨h1, h2⟩ := said_carried h (answers_forwarded _ _) ⟨rfl, rfl⟩
      have hf : (s.toCore.recv (.close target name)).forwards = s.toCore.forwards :=
        congrArg (·.2.2.2) hrc
      refine .closedName target name t rfl ht hl (h1.trans hl) (h2.trans ?_)
      exact congrArg (fun fs => (s.leaseDirty, s.registry.recordClose name, s.gucOverrides, fs)) hf
  | deniedSimple _ _ _ _ _ _ _ h => exact hsaid h ⟨hnl, hnc⟩ fun _ => ⟨rfl, rfl⟩
  | deniedExtended _ _ _ _ _ _ _ h => exact hsaid h ⟨hnl, hnc⟩ fun _ => ⟨rfl, rfl⟩
  | repliedSimple _ _ _ _ _ _ _ h => exact hsaid h ⟨hnl, hnc⟩ fun _ => ⟨rfl, rfl⟩
  | repliedExtended _ _ _ _ _ _ _ h => exact hsaid h ⟨hnl, hnc⟩ fun _ => ⟨rfl, rfl⟩
  | reparsed _ _ _ _ _ _ _ _ _ _ h => exact hsaid h ⟨hnl, hnc⟩ fun _ => ⟨rfl, rfl⟩
  | duplicate _ _ _ _ _ _ _ _ _ _ _ h => exact hsaid h ⟨hnl, hnc⟩ fun _ => ⟨rfl, rfl⟩
  | scatterRefused _ _ _ _ _ _ _ _ h => exact hsaid h ⟨hnl, hnc⟩ fun _ => ⟨rfl, rfl⟩
  | scatterOk input request ms c₁ _ hp hin ha hk _ hr _ h =>
      obtain ⟨h1, h2⟩ := said_carried h (answers_forwarded _ _) ⟨rfl, rfl⟩
      exact scattered_handles hin ha hk hr h1 h2
  | scatterFailed input request failure c₁ _ hp hin ha hk _ hr h =>
      obtain ⟨h1, h2⟩ := said_carried h (answers_forwarded _ _) ⟨rfl, rfl⟩
      refine scattered_handles hin ha hk hr (h1.trans ?_) (h2.trans ?_)
      · cases failure.sessionLeaseBroken <;> rfl
      · cases failure.sessionLeaseBroken <;> rfl
  | scatterPanicked input request c₁ hp hin ha hk hr => exact scattered_handles hin ha hk hr rfl rfl

/-- The outcomes of a step, by what happens to the connection. -/
theorem steps_handles {e : Event} (h : Steps env i Φ s e d) : Handles env i Φ s e d := by
  cases h with
  | answered m t _ h => exact answered_handles h
  | attachFailed m m' t d' _ _ h =>
      have hrc := s.toCore.recv_carried m
      obtain ⟨_, _, _, es, hnone, hes, rfl⟩ := attachFails_noted h
      have hsilent : ((s.toCore.recv m).emit es).carried = s.toCore.carried :=
        (cut_carried hes (answers_forwarded _ _)).trans hrc
      have htail := congrArg Prod.snd hsilent
      exact .dropped hnone (.inl hnone) htail
  | hookReplied m m' m'' t ms c _ hent hh h =>
      obtain ⟨h1, h2⟩ := said_carried h (answers_forwarded _ _) ⟨rfl, rfl⟩
      exact .entered m m' t c rfl hent (.inl h1) h2
  | hookStopped m m' m'' t action c hent => exact .entered m m' t c rfl hent (.inl rfl) rfl
  | put m m' m'' t c lease hent hh hlease =>
      rw [awaitPut_eq]
      refine .put m m' m'' t c lease rfl hent hh hlease rfl ?_
      refine congrArg (fun fs => (c.leaseDirty, c.registry, c.gucOverrides, fs)) ?_
      exact List.filterMap_append
  | sendFailed m m' m'' t c _ lease hent hh hlease hs h =>
      rw [await_eq] at h
      obtain ⟨h1, h2⟩ := lost_carried h
      exact .entered m m' t c rfl hent h1 h2
  | clientGone | idle | upstreamError | drain | shutdown => exact .same rfl rfl
  | rowDropped o m _ row hr => exact .read o m d rfl hr rfl rfl
  | readStopped o m c e hr => exact .read o m c rfl hr rfl rfl
  | replaced o m m' m'' ms c _ hr hs hh h =>
      obtain ⟨h1, h2⟩ := said_carried h (answers_forwarded _ _) ⟨rfl, rfl⟩
      exact .read o m c rfl hr h1 h2
  | passed o m m' m'' c _ hr hs hh h =>
      have hsent : (c.emit [.sent false o m'']).carried = c.carried := emit_carried rfl
      cases h with
      | cut pre _ _ hpre =>
          have hcut : (c.emit pre).carried = c.carried := cut_carried hpre rfl
          exact .read o m c rfl hr rfl hcut
      | done =>
          split
          · unfold afterReady
            split
            · exact .read o m c rfl hr rfl hsent
            · split
              · split
                · refine .detached o m c rfl hr rfl ?_
                  refine congrArg (fun fs => (false, c.registry, c.gucOverrides, fs)) ?_
                  exact (List.filterMap_append.trans (List.append_nil _)).trans
                    (congrArg (·.2.2.2) hsent)
                · exact .read o m c rfl hr rfl hsent
              · exact .read o m c rfl hr rfl hsent
          · exact .read o m c rfl hr rfl hsent
  | upstreamClosed lease _ hlease h =>
      obtain ⟨h1, h2⟩ := lost_carried h
      rcases h1 with h1 | h1
      · exact .same h1 h2
      · exact .dropped h1 (.inr (congrArg Prod.fst h2)) (congrArg Prod.snd h2)
  | cancel lease hlease =>
      refine .cancelled rfl ?_ (emit_carried rfl)
      rw [hlease]
      rfl

end Handles

end Core

end Pgferry
