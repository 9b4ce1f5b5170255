/-
  Run-time parameters of a server, and what a client has cached of them.

  A server keeps a value for each parameter and reports each change in a `ParameterStatus`; the
  client applies the reports as it reads them. So the cached values, brought up to date by what is
  still in the inbox, are the server's (`Current`). On a connection at rest the two are equal
  (`Level`).

  Proved: reading and sending keep `Current`; a `SET` that succeeds changes that parameter and no
  other, on the server and in the cache (`Level.set`); the replay of statements changes none
  (`Level.replay`).
-/
import Mathlib.Logic.Function.Basic
import Pgferry.Hygiene

namespace Pgferry

variable {σ : Type}

/-- A value for each parameter, empty for one that is absent. -/
abbrev Values := String → String

/-- The values after one message to the client. -/
def reportedBy (values : Values) : BackendMessage → Values
  | .parameterStatus name value => Function.update values name value
  | _ => values

/-- The values after some messages. -/
def reported (values : Values) (ms : List BackendMessage) : Values := ms.foldl reportedBy values

@[simp] theorem reported_nil (values : Values) : reported values [] = values := rfl

@[simp] theorem reported_cons (values : Values) (m : BackendMessage) (ms : List BackendMessage) :
    reported values (m :: ms) = reported (reportedBy values m) ms := rfl

theorem reported_append (values : Values) (ms ns : List BackendMessage) :
    reported values (ms ++ ns) = reported (reported values ms) ns := List.foldl_append

/-- The parameters of a server: `values` reads them from its state. It reports every change; a
    `SET` that it accepts changes that parameter and no other; `Parse` and `Sync` change none. -/
structure Upstream.Parameters (u : Upstream σ) (values : σ → Values) : Prop where
  announced : ∀ b m, values (u.respond b m).1 = reported (values b) (u.respond b m).2
  set : ∀ b name value,
    (∀ m ∈ (u.respond b (.query (setSql name value))).2, m.isError = false) →
    readies (u.respond b (.query (setSql name value))).2 ≠ 0 →
    values (u.respond b (.query (setSql name value))).1 = Function.update (values b) name value
  parse : ∀ b name sql oids, values (u.respond b (.parse name sql oids)).1 = values b
  sync : ∀ b, values (u.respond b .sync).1 = values b

namespace Conn

variable {u : Upstream σ} {values : σ → Values} {c c' : Conn σ}

theorem setServerParameter_parameter (c : Conn σ) (name value : String) :
    (c.setServerParameter name value).parameter = Function.update c.parameter name value := by
  funext n
  unfold parameter setServerParameter
  by_cases hn : n = name
  · subst hn
    rw [AList.lookup_insert, Function.update_self]
    rfl
  · rw [AList.lookup_insert_ne hn, Function.update_of_ne hn]

/-! ## Cached values -/

/-- The cached values, with the reports that are still to be read, are the server's. -/
def Current (values : σ → Values) (c : Conn σ) : Prop :=
  reported c.parameter (c.inbox.map Prod.snd) = values c.backend

theorem answer_reported (hp : u.Parameters values) (b : σ)
    (ms : List (Origin × FrontendMessage)) :
    values (u.answer b ms).1 = reported (values b) ((u.answer b ms).2.map Prod.snd) := by
  induction ms generalizing b with
  | nil => rfl
  | cons x ms ih =>
      obtain ⟨o, m⟩ := x
      have htag : ((u.respond b m).2.map fun y => (o, y)).map Prod.snd = (u.respond b m).2 := by
        rw [List.map_map]
        exact List.map_id _
      simp only [Upstream.answer, List.map_append, reported_append, htag]
      rw [ih, hp.announced]

theorem Current.flush (hp : u.Parameters values) (h : c.Current values) :
    (c.flush u).Current values := by
  unfold Current at h
  show reported c.parameter ((c.inbox ++ (u.answer c.backend c.outbox).2).map Prod.snd) =
    values (u.answer c.backend c.outbox).1
  rw [List.map_append, reported_append, h, answer_reported hp]

theorem Current.send (hp : u.Parameters values) (h : c.Current values) (o : Origin)
    (m : FrontendMessage) : (c.send u o m).Current values :=
  Current.flush (c := c.feed o m) hp h

/-- Reading up to a `ReadyForQuery` applies the reports before it. -/
theorem readReply_reported {fails : BackendMessage → Bool} {xs : List (Origin × BackendMessage)}
    (h : readReply fails xs c = .ok c') :
    reported c'.parameter (c'.inbox.map Prod.snd) = reported c.parameter (xs.map Prod.snd) := by
  induction xs generalizing c with
  | nil => cases h
  | cons x xs ih =>
      obtain ⟨o, m⟩ := x
      by_cases hm : m.ready = 0
      · rw [readReply_cons hm] at h
        split at h
        case isTrue hf => cases h
        case isFalse hf =>
          rw [ih h]
          cases m with
          | readyForQuery status => cases hm
          | parameterStatus name value =>
              show reported (c.setServerParameter name value).parameter _ = _
              rw [setServerParameter_parameter]
              rfl
          | _ => rfl
      · cases m with
        | readyForQuery status =>
            cases h
            rfl
        | _ => exact absurd rfl hm

theorem Current.readReply {fails : BackendMessage → Bool} (h : c.Current values)
    (hr : readReply fails c.inbox c = .ok c') : c'.Current values := by
  obtain ⟨_, _, _, _, _, _, _, _, _, hb, _⟩ := readReply_spec hr
  unfold Current at h ⊢
  rw [readReply_reported hr, h, hb]

/-! ## Connections at rest -/

/-- Nothing is outstanding on the connection and the cached values are the server's. -/
structure Level (u : Upstream σ) (values : σ → Values) (c : Conn σ) : Prop where
  quiet : c.Quiet u
  cached : c.parameter = values c.backend

theorem Level.current (h : c.Level u values) : c.Current values := by
  unfold Current
  rw [h.quiet.inbox, h.cached]
  rfl

theorem Current.level (h : c.Current values) (hq : c.Quiet u) : c.Level u values := by
  unfold Current at h
  rw [hq.inbox] at h
  exact ⟨hq, h⟩

/-- A query that succeeds on a quiet connection was answered with a `ReadyForQuery`. -/
theorem simpleQuery_readies (h : c.Quiet u) {sql : String} (hq : c.simpleQuery u sql = .ok c') :
    readies (u.respond c.backend (.query sql)).2 ≠ 0 := by
  obtain ⟨pre, o, status, rest, hx, -⟩ := readReply_spec hq
  rw [send_inbox, h.inbox, h.outbox] at hx
  have hcount := congrArg queuedReadies hx
  simp only [Upstream.answer_nil, List.nil_append, queuedReadies_tag, queuedReadies_append,
    queuedReadies_cons, BackendMessage.ready] at hcount
  omega

namespace Level

theorem probe (hu : u.InOrder) (hp : u.Parameters values) (h : c.Level u values)
    (hq : Pgferry.probe u c = .ok c') : c'.Level u values :=
  ((h.current.send hp .proxy .sync).readReply hq).level
    (readReply_quiet (send_tame hu h.quiet.tame h.quiet.pending .proxy .sync) hq)

/-- A `SET` that succeeds. -/
theorem set (hu : u.InOrder) (hp : u.Parameters values) (h : c.Level u values)
    {name value : String} (hq : c.simpleQuery u (setSql name value) = .ok c') :
    c'.Level u values ∧ c'.parameter = Function.update c.parameter name value := by
  have hlevel : c'.Level u values :=
    ((h.current.send hp .proxy _).readReply hq).level (simpleQuery_quiet hu h.quiet hq)
  obtain ⟨hb, hclean⟩ := simpleQuery_clean hu h.quiet hq
  refine ⟨hlevel, ?_⟩
  rw [hlevel.cached, hb, hp.set _ _ _ hclean (simpleQuery_readies h.quiet hq), h.cached]

theorem setParameter (hu : u.InOrder) (hp : u.Parameters values) (h : c.Level u values)
    {name value : String} (hq : Pgferry.setParameter u c name value = .ok c') :
    c'.Level u values ∧ c'.parameter = Function.update c.parameter name value := by
  unfold Pgferry.setParameter at hq
  cases hs : c.simpleQuery u (setSql name value) with
  | error e =>
      rw [hs] at hq
      cases hq
  | ok c₁ =>
      rw [hs] at hq
      cases hq
      obtain ⟨hlevel, hset⟩ := h.set hu hp hs
      -- the server has reported the value already, so caching it changes nothing
      have hsame : (c₁.setServerParameter name value).parameter = c₁.parameter := by
        rw [setServerParameter_parameter, hset, Function.update_idem]
      exact ⟨⟨⟨hlevel.quiet.outbox, hlevel.quiet.inbox, hlevel.quiet.owed, hlevel.quiet.copying,
        hlevel.quiet.settled⟩, hsame.trans hlevel.cached⟩, hsame.trans hset⟩

end Level

theorem feedParses_cached (es : List (Σ _ : String, String × List Nat)) (c : Conn σ) :
    (es.foldl (fun c e => c.feed .proxy (.parse (some e.1) e.2.1 e.2.2)) c).parameter =
        c.parameter ∧
      (es.foldl (fun c e => c.feed .proxy (.parse (some e.1) e.2.1 e.2.2)) c).inbox = c.inbox := by
  induction es generalizing c with
  | nil => exact ⟨rfl, rfl⟩
  | cons e es ih => exact ih _

theorem answer_parses (hp : u.Parameters values) (es : List (Σ _ : String, String × List Nat))
    (b : σ) :
    values (u.answer b (es.map fun e => (Origin.proxy, .parse (some e.1) e.2.1 e.2.2))).1 =
      values b := by
  induction es generalizing b with
  | nil => rfl
  | cons e es ih => exact (ih _).trans (hp.parse b _ _ _)

/-- The replay of a registry. -/
theorem Level.replay (hu : u.InOrder) (hp : u.Parameters values) (h : c.Level u values)
    {registry : StatementRegistry} (hr : registry.replay u c = .ok c') :
    c'.Level u values ∧ c'.parameter = c.parameter := by
  have hquiet := replay_quiet hu h.quiet hr
  unfold StatementRegistry.replay at hr
  split at hr
  · cases hr
    exact ⟨h, rfl⟩
  · obtain ⟨hb, hout⟩ := feedParses_spec registry.entries c
    obtain ⟨hcached, hin⟩ := feedParses_cached registry.entries c
    generalize registry.entries.foldl
      (fun c e => c.feed .proxy (.parse (some e.1) e.2.1 e.2.2)) c = fed at hr hb hout hcached hin
    have hcurrent : fed.Current values := by
      have hc := h.current
      unfold Current at hc ⊢
      rw [hcached, hin, hb, hc]
    have hlevel := ((hcurrent.send hp .proxy .sync).readReply hr).level hquiet
    obtain ⟨_, _, _, _, _, _, _, _, _, hback, _⟩ := readReply_spec hr
    refine ⟨hlevel, ?_⟩
    rw [hlevel.cached, hback, send_backend, hp.sync, hout, hb, h.quiet.outbox, List.nil_append,
      answer_parses hp, h.cached]

end Conn

end Pgferry
