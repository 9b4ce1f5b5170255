/-
  The registry of a session as a mirror of its statements.

  The registry is written from the messages of the client: a named `Parse` is recorded when it is
  forwarded, a `Close` is taken out when it is answered locally. The server's verdict does not
  count, and a forwarded `Close` is not recorded. `Session.Follows` says which messages the registry
  follows nevertheless.

  Proved: a session whose client sends such messages has, step by step, the statements of a
  dedicated connection in its registry, and the registered ones on the connection that it holds
  (`steps_mirrors`).
-/
import Pgferry.Tables

namespace Pgferry

open Loop

variable {σ κ : Type}

/-! ## Interceptors that let everything pass -/

/-- The raw hooks pass every message on, and `on_query` forwards every query unchanged. -/
structure Transparent (i : Option (Interceptor κ)) : Prop where
  passive : Passive i
  forwards : ∀ h ∈ i, ∀ ctx sql kind,
    (h.onQuery ctx (QueryCycle.new sql kind)).2.2 = .forward ∧
      (h.onQuery ctx (QueryCycle.new sql kind)).2.1.takeRewritten = none

theorem transparent_none : Transparent (none : Option (Interceptor κ)) :=
  ⟨passive_none, fun _ h => by cases h⟩

section Transparent

variable {i : Option (Interceptor κ)} (ht : Transparent i)

include ht

theorem Transparent.asks {input : CycleInput} {action : Action} (h : Asks i input action) :
    action = .forward := by
  obtain ⟨k, hk, ctx, rfl⟩ := h
  exact (ht.forwards k hk ctx input.sql input.kind).1

theorem Transparent.approves {s : Session σ κ} {m m' : FrontendMessage} (hi : s.interceptor = i)
    (h : s.approves m = some m') : m' = m := by
  unfold Session.approves at h
  split at h
  case h_1 input k hin hk =>
    have hmem : k.interceptor ∈ i := by
      rw [← hi, Session.interceptor, hk]
      rfl
    obtain ⟨hact, hsame⟩ := ht.forwards _ hmem k.ctx input.sql input.kind
    dsimp only at h
    rw [hact, hsame] at h
    cases h
    cases m <;> rfl
  case h_2 =>
    cases h
    rfl

end Transparent

/-- A rewrite keeps the name of a statement. -/
theorem Forwards.named {i : Option (Interceptor κ)} {m m' : FrontendMessage}
    (h : Forwards i m m') {name query : String} {typeOids : List Nat}
    (hm : m' = .parse (some name) query typeOids) :
    ∃ text, m = .parse (some name) text typeOids := by
  rcases h with ⟨rfl, -⟩ | ⟨_, _, _, sql, rfl⟩
  · exact ⟨query, hm⟩
  · cases m with
    | parse stmt text oids => cases sql <;> cases hm <;> exact ⟨_, rfl⟩
    | _ => cases sql <;> cases hm

/-! ## Messages that the registry follows -/

/-- What the next message has to respect.

    A new named `Parse` is carried out on both sides: no message of the batch has failed, the text
    is accepted, and the server of the lease attends. A known one has the types that are registered.
    A registered statement is closed only while the session is detached, and no portal of its name
    is. Between a lost connection and the next `Sync` the registry stands still. A `Query` leaves
    prepared statements alone, and so does an `Execute`, on the connection that the session
    holds. -/
def Session.Follows (env : Env σ) (attends : σ → Prop)
    (table : σ → String → Option (String × List Nat)) (accepts : String → List Nat → Bool)
    (s : Session σ κ) : FrontendMessage → Prop
  | .parse (some name) query typeOids => name ≠ "" →
      if s.swallowUntilSync then (s.toCore.dedicated accepts).skips = true ∨ name ∈ s.registry
      else
        (s.registry.lookup name = none →
          (s.toCore.dedicated accepts).skips = false ∧ accepts query typeOids = true ∧
            ∀ lease ∈ s.lease, attends (lease.conn.caughtUp env.upstream) ∧
              env.upstream.copying (lease.conn.caughtUp env.upstream) = false) ∧
        ∀ known ∈ s.registry.lookup name, known.1 = query → known.2 = typeOids
  | .close .statement (some name) => name ∈ s.registry →
      (s.toCore.dedicated accepts).skips = s.swallowUntilSync ∧
        (s.swallowUntilSync = true ∨ env.transactionMode = true ∧ s.lease = none)
  | .close .portal (some name) => name ∈ s.registry →
      s.swallowUntilSync = true ∨ ¬ (env.transactionMode = true ∧ s.lease = none)
  | .query sql => ∀ b, table (env.upstream.respond b (.query sql)).1 = table b
  | .execute portal => s.swallowUntilSync = true ∨
      ∃ lease ∈ s.lease, table (env.upstream.respond (lease.conn.caughtUp env.upstream)
        (.execute portal)).1 = table (lease.conn.caughtUp env.upstream)
  | _ => True

/-- `Follows` for the messages of the client; no cancel request overtakes what was fed. -/
def Session.Mirrorable (env : Env σ) (attends : σ → Prop)
    (table : σ → String → Option (String × List Nat)) (accepts : String → List Nat → Bool)
    (s : Session σ κ) : Event → Prop
  | .client m _ => s.Follows env attends table accepts m
  | .cancel => ∀ lease ∈ s.lease, lease.conn.outbox = []
  | _ => True

/-! ## The mirror -/

/-- The server has the statements of `registry`. -/
structure Conn.Mirrors (u : Upstream σ) (attends : σ → Prop)
    (table : σ → String → Option (String × List Nat)) (registry : StatementRegistry)
    (c : Conn σ) : Prop where
  heeds : c.Heeds u attends
  table : table (c.caughtUp u) = fun name => registry.lookup name

namespace Core

/-- The registry has the statements of a dedicated connection, and so had it for every answer that
    the pump made up. -/
structure Tracks (accepts : String → List Nat → Bool) (c : Core σ) : Prop where
  registry : c.registry = (c.dedicated accepts).statements
  vouched : c.Vouched accepts

/-- The registry tracks the client, and the connection of the lease has what is registered. With
    the flag down that is nothing. -/
structure Mirrors (u : Upstream σ) (attends : σ → Prop)
    (table : σ → String → Option (String × List Nat)) (accepts : String → List Nat → Bool)
    (c : Core σ) : Prop where
  tracks : c.Tracks accepts
  conn : ∀ lease, c.lease = some lease → lease.conn.Mirrors u attends table c.registry
  clean : ∀ lease, c.lease = some lease → c.leaseDirty = false → c.registry.entries = []

section Tracks

variable {accepts : String → List Nat → Bool} {c d : Core σ}

theorem recv_dedicated (c : Core σ) (m : FrontendMessage) :
    (c.recv m).dedicated accepts = (c.dedicated accepts).receive accepts m := by
  unfold dedicated
  rw [← Dedicated.after_concat]
  exact congrArg (Dedicated.after accepts) (received_append c.log [.recv (c.seq + 1) m])

theorem recv_vouched (h : c.Vouched accepts) (m : FrontendMessage) : (c.recv m).Vouched accepts :=
  h.plain rfl fun x hx => by rw [List.mem_singleton] at hx; rw [hx]; rfl

/-- Other entries than messages of the client. -/
theorem Tracks.grow {es : List Entry} (h : c.Tracks accepts) (hr : d.registry = c.registry)
    (hlog : d.log = c.log ++ es) (hes : received es = [])
    (hv : Along (fun log x => log ++ [x]) (Entry.Vouched accepts) c.log es) : d.Tracks accepts := by
  refine ⟨?_, h.vouched.grow hlog hv⟩
  have hsame : d.dedicated accepts = c.dedicated accepts := by
    unfold dedicated
    rw [hlog, received_append, hes, List.append_nil]
  rw [hr, hsame]
  exact h.registry

theorem received_answers (c : Core σ) (ms : List BackendMessage) :
    received (c.answers ms) = [] := by
  unfold received answers
  rw [List.filterMap_map]
  exact List.filterMap_eq_nil_iff.mpr fun _ _ => rfl

/-- A message that does not change the statements. -/
theorem Tracks.recv (h : c.Tracks accepts) {m : FrontendMessage}
    (hm : ((c.dedicated accepts).receive accepts m).statements = (c.dedicated accepts).statements) :
    (c.recv m).Tracks accepts := by
  refine ⟨?_, recv_vouched h.vouched m⟩
  rw [recv_dedicated, hm]
  exact h.registry

end Tracks

/-- What the mirror shows of a session. -/
def seen (c : Core σ) : Option (UpstreamLease σ) × StatementRegistry × Bool × List Entry :=
  (c.lease, c.registry, c.leaseDirty, c.log)

section Mirrors

variable {u : Upstream σ} {attends : σ → Prop}
  {table : σ → String → Option (String × List Nat)} {accepts : String → List Nat → Bool}
  {c d : Core σ}

theorem Mirrors.congr (h : c.Mirrors u attends table accepts) (hs : d.seen = c.seen) :
    d.Mirrors u attends table accepts := by
  have hl : d.lease = c.lease := congrArg (·.1) hs
  have hr : d.registry = c.registry := congrArg (·.2.1) hs
  have hdirty : d.leaseDirty = c.leaseDirty := congrArg (·.2.2.1) hs
  have hlog : d.log = c.log ++ [] := (congrArg (·.2.2.2) hs).trans (List.append_nil _).symm
  refine ⟨h.tracks.grow hr hlog rfl trivial, fun lease hlease => ?_, fun lease hlease hdown => ?_⟩
  · rw [hr]
    exact h.conn lease (hl ▸ hlease)
  · rw [hr]
    exact h.clean lease (hl ▸ hlease) (hdirty ▸ hdown)

theorem Mirrors.emit {es : List Entry} (h : c.Mirrors u attends table accepts)
    (hes : received es = [])
    (hv : Along (fun log x => log ++ [x]) (Entry.Vouched accepts) c.log es) :
    (c.emit es).Mirrors u attends table accepts :=
  ⟨h.tracks.grow rfl rfl hes hv, h.conn, h.clean⟩

theorem mirrors_of_none (hl : c.lease = none) (h : c.Tracks accepts) :
    c.Mirrors u attends table accepts :=
  ⟨h, fun lease hlease => (by rw [hl] at hlease; cases hlease),
    fun lease hlease => (by rw [hl] at hlease; cases hlease)⟩

theorem Mirrors.recv (h : c.Mirrors u attends table accepts) {m : FrontendMessage}
    (hm : ((c.dedicated accepts).receive accepts m).statements =
      (c.dedicated accepts).statements) : (c.recv m).Mirrors u attends table accepts :=
  ⟨h.tracks.recv hm, h.conn, h.clean⟩

end Mirrors

/-! ## Local answers -/

section Answers

variable {env : Env σ} {i : Option (Interceptor κ)} {s : Session σ κ} {c d : Core σ}
  {attends : σ → Prop} {table : σ → String → Option (String × List Nat)}
  {accepts : String → List Nat → Bool} {m : FrontendMessage}

/-- While the pump swallows, the dedicated connection skips what would change its statements. -/
theorem swallowed_statements (hs : s.toCore.Tracks accepts)
    (hf : s.Follows env attends table accepts m) (hsw : s.swallowUntilSync = true) :
    ((s.toCore.dedicated accepts).receive accepts m).statements =
      (s.toCore.dedicated accepts).statements := by
  rcases Dedicated.receive_cases accepts (s.toCore.dedicated accepts) m with
    hsame | ⟨hskips, ⟨name, query, typeOids, hm, hnew⟩ | ⟨name, rfl, hmem⟩⟩
  · exact hsame
  · obtain ⟨hname, rfl⟩ := parse_of_pendingParse hm
    have hfol := hf hname
    rw [if_pos hsw] at hfol
    rcases hfol with hfol | hfol
    · cases hskips.symm.trans hfol
    · rw [hs.registry] at hfol
      exact absurd hfol hnew
  · rw [← hs.registry] at hmem
    cases hskips.symm.trans ((hf hmem).1.trans hsw)

/-- A `Close` that is answered while detached. -/
theorem closed_statements (hs : s.toCore.Tracks accepts) {target : Target} {name : Option String}
    (hf : s.Follows env attends table accepts (.close target name))
    (hsw : s.swallowUntilSync = false) (ht : env.transactionMode = true) (hl : s.lease = none) :
    s.registry.recordClose name =
      ((s.toCore.dedicated accepts).receive accepts (.close target name)).statements := by
  cases name with
  | none => cases target <;> exact hs.registry
  | some name =>
      by_cases hmem : name ∈ s.registry
      · cases target with
        | portal =>
            rcases hf hmem with h | h
            · cases hsw.symm.trans h
            · exact absurd ⟨ht, hl⟩ h
        | statement =>
            rw [Dedicated.receive_close ((hf hmem).1.trans hsw), ← hs.registry]
            rfl
      · refine (Dedicated.erase_unknown hmem).trans ?_
        rcases Dedicated.receive_cases accepts (s.toCore.dedicated accepts)
          (.close target (some name)) with hsame | ⟨-, ⟨_, _, _, hm, -⟩ | ⟨n, hm, hn⟩⟩
        · rw [hsame]
          exact hs.registry
        · cases hm
        · cases hm
          rw [← hs.registry] at hn
          exact absurd hn hmem

/-- One write, from a state that shows the same. -/
theorem Mirrors.said {ms : List BackendMessage} {f : Core σ → Core σ} {c₁ : Core σ}
    (hc : c.Mirrors env.upstream attends table accepts)
    (hsaid : Said c₁ (c.answers ms) f d) (hd : d.ended = none) (hc₁ : c₁.seen = c.seen)
    (hf : ∀ b : Core σ, (f b).seen = b.seen)
    (hv : Along (fun log x => log ++ [x]) (Entry.Vouched accepts) c.log (c.answers ms)) :
    d.Mirrors env.upstream attends table accepts := by
  cases hsaid with
  | cut => cases hd
  | done =>
      refine (hc.emit (received_answers c ms) hv).congr ((hf _).trans ?_)
      exact congrArg (fun x => (x.1, x.2.1, x.2.2.1, x.2.2.2 ++ c.answers ms)) hc₁

/-- Answers that are no verdict on a `Parse`. -/
theorem along_answers (c : Core σ) {ms : List BackendMessage} (log : List Entry)
    (h : ∀ x ∈ ms, (Entry.sent true c.origin x).isVerdict = false) :
    Along (fun log x => log ++ [x]) (Entry.Vouched accepts) log (c.answers ms) := by
  refine along_plain (fun x hx => ?_) log
  obtain ⟨y, hy, rfl⟩ := List.mem_map.mp hx
  exact h y hy

/-- A registered name, when it is parsed again. -/
theorem reparses_known (h : c.Tracks accepts) {name : String} {known : String × List Nat}
    (hk : c.registry.lookup name = some known) :
    name ∈ (c.dedicated accepts).statements ∧ ∀ query typeOids,
      Reparses accepts (c.recv (.parse (some name) query typeOids)).log name query typeOids known :=
  by
  rw [h.registry] at hk
  refine ⟨AList.lookup_isSome.mp (by rw [hk]; rfl), fun query typeOids => ?_⟩
  exact ⟨received c.log, received_append c.log [.recv (c.seq + 1) _], hk⟩

theorem note_seen (c : Core σ) (m : FrontendMessage) : (c.note m).seen = c.seen := by
  obtain ⟨_, hb⟩ := c.note_eq m
  rw [hb]
  rfl

theorem answered_mirrors {t : Timing} (htr : Transparent i) (hi : s.interceptor = i)
    (hs : s.toCore.Mirrors env.upstream attends table accepts)
    (hf : s.Follows env attends table accepts m)
    (h : Answered env i s (s.toCore.recv m) m t d) (hd : d.ended = none) :
    d.Mirrors env.upstream attends table accepts := by
  have hasks : ∀ {input action}, Asks i input action → action ≠ .forward → False :=
    fun ha hne => hne (htr.asks ha)
  cases h with
  | quit => cases hd
  | swallowed hsw => exact hs.recv (swallowed_statements hs.tracks hf hsw)
  | resumed _ _ hm h =>
      subst hm
      exact (hs.recv rfl).said h hd rfl (fun _ => rfl)
        (along_answers _ _ fun x hx => by rw [List.mem_singleton] at hx; rw [hx]; rfl)
  | localSync _ _ _ _ hm h =>
      subst hm
      exact (hs.recv rfl).said h hd rfl (fun _ => rfl)
        (along_answers _ _ fun x hx => by rw [List.mem_singleton] at hx; rw [hx]; rfl)
  | localFlush _ _ _ hm =>
      subst hm
      exact hs.recv rfl
  | localClose _ target name hsw ht hl hm h =>
      subst hm
      have htracks : { s.toCore.recv (.close target name) with
          registry := s.registry.recordClose name }.Tracks accepts := by
        refine ⟨?_, recv_vouched hs.tracks.vouched _⟩
        show _ = ((s.toCore.recv (.close target name)).dedicated accepts).statements
        rw [recv_dedicated]
        exact closed_statements hs.tracks hf hsw ht hl
      have hmirrors : { s.toCore.recv (.close target name) with
          registry := s.registry.recordClose name }.Mirrors env.upstream attends table accepts :=
        mirrors_of_none hl htracks
      exact hmirrors.said h hd rfl (fun _ => rfl)
        (along_answers _ _ fun x hx => by rw [List.mem_singleton] at hx; rw [hx]; rfl)
  | closed _ _ _ ha => exact (hasks ha (by simp)).elim
  | deniedSimple _ _ _ _ _ ha => exact (hasks ha (by simp)).elim
  | deniedExtended _ _ _ _ _ ha => exact (hasks ha (by simp)).elim
  | repliedSimple _ _ _ _ _ ha => exact (hasks ha (by simp)).elim
  | repliedExtended _ _ _ _ _ ha => exact (hasks ha (by simp)).elim
  | scatterOk _ _ _ _ _ _ _ ha => exact (hasks ha (by simp)).elim
  | scatterRefused _ _ _ _ _ _ ha => exact (hasks ha (by simp)).elim
  | scatterFailed _ _ _ _ _ _ _ ha => exact (hasks ha (by simp)).elim
  | scatterPanicked _ _ _ _ _ ha => exact (hasks ha (by simp)).elim
  | reparsed m' name query typeOids known _ hp happ hm hk h =>
      obtain rfl := htr.approves hi happ.2
      obtain ⟨hname, rfl⟩ := parse_of_pendingParse hm
      have hsw : s.swallowUntilSync = false := hp.2.1
      have hk' : s.registry.lookup name = some (query, known) := hk
      have htypes : known = typeOids := by
        have hfol := hf hname
        rw [if_neg (by rw [hsw]; exact Bool.false_ne_true)] at hfol
        exact hfol.2 _ hk' rfl
      subst htypes
      obtain ⟨hmem, hvouch⟩ := reparses_known hs.tracks hk'
      exact (hs.recv (Dedicated.receive_known hmem _ _)).said h hd (note_seen _ _) (fun _ => rfl)
        ⟨⟨name, query, known, hvouch query known⟩, trivial⟩
  | duplicate m' name query typeOids known _ hp hfw hm hk hne h =>
      obtain ⟨text, rfl⟩ := hfw.named (parse_of_pendingParse hm).2
      obtain ⟨hmem, hvouch⟩ := reparses_known hs.tracks hk
      exact (hs.recv (Dedicated.receive_known hmem _ _)).said h hd (note_seen _ _) (fun _ => rfl)
        ⟨fun _ => ⟨name, text, typeOids, known, hvouch text typeOids⟩, trivial⟩

end Answers

/-! ## Forwarded messages -/

section Enters

variable {env : Env σ} {i : Option (Interceptor κ)} {s : Session σ κ} {c d : Core σ}
  {attends : σ → Prop} {table : σ → String → Option (String × List Nat)}
  {accepts : String → List Nat → Bool} {m : FrontendMessage}

/-- A new statement that goes on is accepted, outside a failed batch. -/
theorem fresh_follows (hf : s.Follows env attends table accepts m)
    (hp : (s.toCore.recv m).Passes env.transactionMode m) {name query : String}
    {typeOids : List Nat} (hm : pendingParse m = some (name, query, typeOids))
    (hnew : s.registry.lookup name = none) :
    (s.toCore.dedicated accepts).skips = false ∧ accepts query typeOids = true ∧
      ∀ lease ∈ s.lease, attends (lease.conn.caughtUp env.upstream) ∧
        env.upstream.copying (lease.conn.caughtUp env.upstream) = false := by
  obtain ⟨hname, rfl⟩ := parse_of_pendingParse hm
  have hsw : s.swallowUntilSync = false := hp.2.1
  have hfol := hf hname
  rw [if_neg (by rw [hsw]; exact Bool.false_ne_true)] at hfol
  exact hfol.1 hnew

/-- A `Close` that goes on names no registered statement. -/
theorem close_follows {name : String}
    (hf : s.Follows env attends table accepts (.close .statement (some name)))
    (hp : (s.toCore.recv (.close .statement (some name))).Passes env.transactionMode
      (.close .statement (some name))) : name ∉ s.registry := by
  intro hmem
  have hsw : s.swallowUntilSync = false := hp.2.1
  rcases (hf hmem).2 with h | ⟨ht, hl⟩
  · cases hsw.symm.trans h
  · exact hp.2.2 ⟨ht, hl, .inr (.inr ⟨_, _, rfl⟩)⟩

/-- The registry and the dedicated connection record the same. -/
theorem entered_tracks (hs : s.toCore.Tracks accepts)
    (hf : s.Follows env attends table accepts m)
    (hp : (s.toCore.recv m).Passes env.transactionMode m)
    (hunknown : ∀ p, pendingParse m = some p → s.registry.lookup p.1 = none) :
    ((s.toCore.recv m).register (pendingParse m)).Tracks accepts := by
  cases hm : pendingParse m with
  | some p =>
      obtain ⟨name, query, typeOids⟩ := p
      have hnew := hunknown _ hm
      obtain ⟨hskips, haccepts, -⟩ := fresh_follows hf hp hm hnew
      refine ⟨?_, recv_vouched hs.vouched m⟩
      show s.registry.insert name (query, typeOids) =
        ((s.toCore.recv m).dedicated accepts).statements
      rw [recv_dedicated, Dedicated.receive_define hm hskips haccepts (hs.registry ▸ hnew),
        hs.registry]
  | none =>
      have hsame : ((s.toCore.dedicated accepts).receive accepts m).statements =
          (s.toCore.dedicated accepts).statements := by
        rcases Dedicated.receive_cases accepts (s.toCore.dedicated accepts) m with
          hsame | ⟨-, ⟨_, _, _, hm', -⟩ | ⟨name, rfl, hmem⟩⟩
        · exact hsame
        · cases hm.symm.trans hm'
        · rw [← hs.registry] at hmem
          exact absurd hmem (close_follows hf hp)
      exact (hs.recv hsame).grow rfl (List.append_nil _).symm rfl trivial

/-- What a message that goes on does to the table of a server that has the registered statements. -/
theorem respond_tabled (ht : env.upstream.Tables attends table accepts)
    (hs : s.toCore.Tracks accepts) (hf : s.Follows env attends table accepts m)
    (hp : (s.toCore.recv m).Passes env.transactionMode m)
    (hunknown : ∀ p, pendingParse m = some p → s.registry.lookup p.1 = none) {b : σ}
    (hb : table b = fun name => s.registry.lookup name)
    (hattends : pendingParse m ≠ none → attends b ∧ env.upstream.copying b = false)
    (hexec : ∀ portal, m = .execute portal → table (env.upstream.respond b m).1 = table b) :
    table (env.upstream.respond b m).1 =
      fun name => ((s.toCore.recv m).register (pendingParse m)).registry.lookup name := by
  cases hm : pendingParse m with
  | some p =>
      obtain ⟨name, query, typeOids⟩ := p
      have hnew := hunknown _ hm
      obtain ⟨-, haccepts, -⟩ := fresh_follows hf hp hm hnew
      obtain ⟨hb', hcopy⟩ := hattends (by rw [hm]; exact Option.some_ne_none _)
      obtain ⟨hname, rfl⟩ := parse_of_pendingParse hm
      rw [(ht.parse b name query typeOids hb' hcopy hname (by rw [hb]; exact hnew) haccepts).1, hb]
      funext n
      show _ = (s.registry.insert name (query, typeOids)).lookup n
      by_cases hn : n = name
      · subst hn
        rw [Function.update_self, AList.lookup_insert]
      · rw [Function.update_of_ne hn, AList.lookup_insert_ne hn]
  | none =>
      refine Eq.trans ?_ hb
      cases m with
      | query sql => exact hf b
      | execute portal => exact hexec portal rfl
      | parse name query typeOids =>
          refine ht.neutral b _ ?_
          cases name with
          | none => exact rfl
          | some name =>
              by_contra hname
              cases (if_neg hname).symm.trans hm
      | close target name =>
          cases target with
          | portal => exact ht.neutral b _ trivial
          | statement =>
              have hnone : name.getD "" ∉ s.registry := by
                cases name with
                | none =>
                    rw [hs.registry]
                    exact Dedicated.after_unnamed accepts _
                | some name => exact close_follows hf hp
              rcases ht.close b name with h | h
              · exact h
              · rw [h, Function.update_eq_self_iff, hb]
                exact (AList.lookup_eq_none.mpr hnone).symm
      | _ => exact ht.neutral b _ trivial

/-- Recording a statement in a state with the same registry and a longer log. -/
theorem register_tracks {c₁ : Core σ} {p : Session.PendingParse} {es : List Entry}
    (h : (c.register p).Tracks accepts) (hr : c₁.registry = c.registry)
    (hlog : c₁.log = c.log ++ es) (hes : received es = [])
    (hplain : ∀ x ∈ es, x.isVerdict = false) :
    (c₁.register p).Tracks accepts ∧ (c₁.register p).registry = (c.register p).registry := by
  have hreg : (c₁.register p).registry = (c.register p).registry := by
    cases p with
    | none => exact hr
    | some p => exact congrArg (fun registry : StatementRegistry => registry.insert p.1 p.2) hr
  refine ⟨h.grow hreg ?_ hes (along_plain hplain _), hreg⟩
  cases p <;> exact hlog

/-- With the flag down nothing was recorded. -/
theorem register_down {p : Session.PendingParse} (hd : (c.register p).leaseDirty = false)
    (hc : c.leaseDirty = false → c.registry.entries = []) :
    (c.register p).registry.entries = [] := by
  cases p with
  | none => exact hc hd
  | some p => cases hd

theorem register_lease (c : Core σ) (p : Session.PendingParse) :
    (c.register p).lease = c.lease := by
  cases p <;> rfl

theorem attaches_log {Φ : PoolKey → Conn σ → Prop} {params : SessionParams} {startup : Params}
    (h : Attaches env Φ params startup c d) : d.registry = c.registry ∧
      ∃ es, d.log = c.log ++ es ∧ received es = [] ∧ ∀ x ∈ es, x.isVerdict = false := by
  cases h with
  | held => exact ⟨rfl, [], (List.append_nil _).symm, rfl, List.forall_mem_nil _⟩
  | leased =>
      refine ⟨rfl, _, rfl, rfl, fun x hx => ?_⟩
      rw [List.mem_singleton] at hx
      rw [hx]
      rfl

/-- An `Execute` that goes on runs on the connection that the session holds. -/
theorem execute_follows {portal : Option String}
    (hf : s.Follows env attends table accepts (.execute portal))
    (hp : (s.toCore.recv (.execute portal)).Passes env.transactionMode (.execute portal)) :
    ∃ lease ∈ s.lease, table (env.upstream.respond (lease.conn.caughtUp env.upstream)
      (.execute portal)).1 = table (lease.conn.caughtUp env.upstream) := by
  have hsw : s.swallowUntilSync = false := hp.2.1
  exact hf.resolve_left (by rw [hsw]; exact Bool.false_ne_true)

/-- The session on its way to the raw hook: what is registered is what the server will have when it
    has processed the message. -/
theorem enters_mirrors {m' : FrontendMessage} (hu : env.upstream.InOrder)
    (ht : env.upstream.Tables attends table accepts) (htr : Transparent i)
    (hi : s.interceptor = i) (hs : s.toCore.Mirrors env.upstream attends table accepts)
    (hf : s.Follows env attends table accepts m)
    (h : Enters env i (BlankPool env.upstream attends table) s (s.toCore.recv m) m m' c) :
    m' = m ∧ c.Tracks accepts ∧ (c.leaseDirty = false → c.registry.entries = []) ∧
      ∀ lease, c.lease = some lease → lease.conn.Heeds env.upstream attends ∧
        table (env.upstream.respond (lease.conn.caughtUp env.upstream) m).1 =
          fun name => c.registry.lookup name := by
  obtain rfl := htr.approves hi h.approved
  have htracks := entered_tracks hs.tracks hf h.passes h.unknown
  have htabled := fun {b : σ} => respond_tabled (b := b) ht hs.tracks hf h.passes h.unknown
  obtain ⟨c₁, hatt, rfl⟩ := h.attaches
  obtain ⟨extended, hnote⟩ := (s.toCore.recv m').note_eq m'
  rw [hnote] at hatt
  obtain ⟨hr, es, hlog, hes, hplain⟩ := attaches_log hatt
  obtain ⟨hgrown, hreg⟩ := register_tracks htracks hr hlog hes hplain
  rw [hreg]
  refine ⟨rfl, hgrown, ?_⟩
  cases hatt with
  | held lease hl =>
      refine ⟨fun hd => hreg ▸ register_down hd (hs.clean lease hl), fun l hl' => ?_⟩
      cases ((register_lease _ _).symm.trans hl').symm.trans hl
      refine ⟨(hs.conn lease hl).heeds, htabled (hs.conn lease hl).table (fun hm => ?_) ?_⟩
      · obtain ⟨p, hm⟩ := Option.ne_none_iff_exists'.mp hm
        exact (fresh_follows hf h.passes hm (h.unknown p hm)).2.2 lease hl
      · rintro portal rfl
        obtain ⟨l, hmem, hkeeps⟩ := execute_follows hf h.passes
        cases hl.symm.trans hmem
        exact hkeeps
  | leased endpoint dirty₀ base lease dirty hnone hdirty hpool hbase hprep =>
      refine ⟨fun hd => hreg ▸ register_down hd fun hdown => ?_, fun l hl' => ?_⟩
      · have hempty := prepared_clean hprep hdown
        exact hempty
      · cases (register_lease _ _).symm.trans hl'
        have hnames : "" ∉ s.registry := by
          rw [hs.tracks.registry]
          exact Dedicated.after_unnamed accepts _
        obtain ⟨hquiet, hattends, htable⟩ := prepared_tabled hu ht hnames hbase hprep
        rw [Conn.caughtUp_of_nil hquiet.outbox]
        refine ⟨hquiet.heeds, htabled htable (fun _ => ⟨hattends, hquiet.copying⟩) ?_⟩
        rintro portal rfl
        obtain ⟨l, hmem, -⟩ := execute_follows hf h.passes
        cases hnone.symm.trans hmem

end Enters

/-! ## Steps -/

section Steps

variable {env : Env σ} {i : Option (Interceptor κ)} {s : Session σ κ} {c d : Core σ}
  {attends : σ → Prop} {table : σ → String → Option (String × List Nat)}
  {accepts : String → List Nat → Bool}

/-- A session that lives on after the loss of its connection has no lease. -/
theorem lost_mirrors {lease : UpstreamLease σ} {reason : String} {synth : Bool} {u : Upstream σ}
    (h : Lost i c lease reason synth d) (hd : d.ended = none) (hc : c.Tracks accepts) :
    d.Mirrors u attends table accepts := by
  have hlost : ((c.emit [c.lostEntry lease .relink]).unleased).Mirrors u attends table accepts :=
    mirrors_of_none rfl (hc.grow rfl rfl rfl
      (along_plain (fun x hx => by rw [List.mem_singleton] at hx; rw [hx]; rfl) _))
  cases h with
  | closed => cases hd
  | silent => exact hlost.congr rfl
  | simple _ _ _ h =>
      cases h with
      | cut => cases hd
      | done =>
          refine (hlost.emit (received_answers c _) (along_answers c _ ?_)).congr rfl
          simp [Entry.isVerdict, Session.lostInfo]
  | extended _ _ _ h =>
      cases h with
      | cut => cases hd
      | done =>
          refine (hlost.emit (received_answers c _) (along_answers c _ ?_)).congr rfl
          simp [Entry.isVerdict, Session.lostInfo]

theorem readNext_mirrors {tm : Bool} {o : Origin} {m : BackendMessage} {u : Upstream σ}
    (h : c.readNext tm = some (o, m, d)) (hc : c.Mirrors u attends table accepts) :
    d.Mirrors u attends table accepts := by
  obtain ⟨lease, rest, hl, hin, hframe, hd, hdl⟩ := readNext_spec h
  have hconn := hc.conn lease hl
  refine ⟨hc.tracks.grow hframe.registry (hframe.log.trans (List.append_nil _).symm) rfl trivial,
    fun l hl' => ?_, fun l hl' hdown => ?_⟩
  · cases hdl.symm.trans hl'
    rw [hframe.registry]
    refine ⟨hconn.heeds.read (by cases m <;> rfl) fun x hx => ?_, ?_⟩
    · rw [hin]
      exact List.mem_cons_of_mem _ (by cases m <;> exact hx)
    · refine Eq.trans ?_ hconn.table
      cases m <;> rfl
  · rw [hframe.registry]
    rw [hd] at hdown
    have hbefore := track_dirty tm _ m hdown
    exact hc.clean lease hl hbefore

/-- Forwarding a message. -/
theorem put_mirrors {lease : UpstreamLease σ} {m : FrontendMessage} (hu : env.upstream.InOrder)
    (ht : env.upstream.Tables attends table accepts) (hcalm : c.Calm env.upstream)
    (hc : c.Tracks accepts) (hdown : c.leaseDirty = false → c.registry.entries = [])
    (hlease : c.lease = some lease) (hheeds : lease.conn.Heeds env.upstream attends)
    (htable : table (env.upstream.respond (lease.conn.caughtUp env.upstream) m).1 =
      fun name => c.registry.lookup name)
    (hone : m.isCopy = true ∨ c.outstanding env.upstream = 0) :
    ((c.await m).put env.upstream lease m).Mirrors env.upstream attends table accepts := by
  rw [awaitPut_eq]
  have hone' : m.isCopy = true ∨ lease.conn.pending env.upstream = 0 :=
    hone.imp (fun h => h) fun h => (outstanding_some hlease).symm.trans h
  refine ⟨hc.grow rfl rfl rfl ⟨trivial, trivial⟩, fun l hl => ?_, fun _ _ hd => hdown hd⟩
  cases hl
  refine ⟨hheeds.put hu ht.attention (hcalm.tame lease hlease) c.origin hone', ?_⟩
  rw [← htable]
  exact congrArg table (Conn.put_caughtUp env.upstream lease.conn c.origin m)

theorem afterReady_mirrors {tm : Bool} {u : Upstream σ} (hc : c.Mirrors u attends table accepts)
    (hd : (c.afterReady tm).ended = none) :
    (c.afterReady tm).Mirrors u attends table accepts := by
  unfold afterReady at hd ⊢
  split
  case isTrue hdraining =>
    rw [if_pos hdraining] at hd
    cases hd
  case isFalse =>
    split
    · split
      · exact mirrors_of_none rfl (hc.tracks.grow rfl rfl rfl ⟨trivial, trivial⟩)
      · exact hc
    · exact hc

/-- Every step of a session whose client respects `Mirrorable` keeps the mirror. -/
theorem steps_mirrors {e : Event} (hu : env.upstream.InOrder)
    (ht : env.upstream.Tables attends table accepts) (htr : Transparent i)
    (hi : s.interceptor = i) (hcalm : s.toCore.Calm env.upstream)
    (hs : s.toCore.Mirrors env.upstream attends table accepts)
    (hone : s.OneCycle env.upstream e) (hok : s.Mirrorable env attends table accepts e)
    (h : Steps env i (BlankPool env.upstream attends table) s e d) (hd : d.ended = none) :
    d.Mirrors env.upstream attends table accepts := by
  cases h with
  | answered m t _ h => exact answered_mirrors htr hi hs hok h hd
  | attachFailed => cases hd
  | hookReplied m m' m'' t ms c _ hent hh => cases (hh.passive htr.passive).2
  | hookStopped => cases hd
  | put m m' m'' t c lease hent hh hlease =>
      obtain rfl := (hh.passive htr.passive).1
      obtain ⟨hc₁, hout⟩ := enters_calm hu (hent.mono fun _ _ hb => hb.quiet)
        (hcalm.congr rfl fun h => h)
      obtain ⟨rfl, htracks, hdown, hlease'⟩ := enters_mirrors hu ht htr hi hs hok hent
      obtain ⟨hheeds, htable⟩ := hlease' lease hlease
      exact put_mirrors hu ht hc₁ htracks hdown hlease hheeds htable
        (hone.imp (fun h => h) hout.trans)
  | sendFailed m m' m'' t c _ lease hent hh hlease hsend h =>
      obtain ⟨_, htracks, _⟩ := enters_mirrors hu ht htr hi hs hok hent
      rw [await_eq] at h
      exact lost_mirrors h hd (htracks.grow rfl (List.append_nil _).symm rfl trivial)
  | clientGone => cases hd
  | idle => exact hs
  | rowDropped o m _ row hr => exact readNext_mirrors hr hs
  | readStopped => cases hd
  | replaced o m m' m'' ms c _ hr hshown hh => cases (hh.passive htr.passive).2
  | passed o m m' m'' c _ hr hshown hh h =>
      cases h with
      | cut => cases hd
      | done =>
          have hsent : (c.emit [.sent false o m'']).Mirrors env.upstream attends table accepts :=
            (readNext_mirrors hr hs).emit rfl ⟨trivial, trivial⟩
          by_cases hready : m''.ready = 1
          · rw [if_pos hready] at hd ⊢
            exact afterReady_mirrors hsent hd
          · rw [if_neg hready]
            exact hsent
  | upstreamClosed lease _ hlease h => exact lost_mirrors h hd hs.tracks
  | upstreamError => cases hd
  | cancel lease hlease =>
      refine ⟨hs.tracks.grow rfl rfl rfl ⟨trivial, trivial⟩, fun l hl => ?_,
        fun l hl hdown => ?_⟩ <;> cases hl
      · have hconn := hs.conn lease hlease
        refine ⟨hconn.heeds.cancel ht.attention (hcalm.tame lease hlease), ?_⟩
        have hout : lease.conn.outbox = [] := hok lease hlease
        have hout' : (lease.conn.cancel env.upstream).outbox = [] := hout
        refine Eq.trans ?_ hconn.table
        rw [Conn.caughtUp_of_nil hout', Conn.caughtUp_of_nil hout]
        exact ht.interrupt _
      · exact hs.clean lease hlease hdown
  | drain => exact hs.congr rfl
  | shutdown => cases hd

end Steps

end Core

end Pgferry
