/-
  A session without an interceptor is a relay.

  The log of a session falls into exchanges, one for each connection that it was attached to: the
  messages of the client that it handed to the connection, how many cancel requests it sent, what it
  passed on to the client, and whether it let go of the connection at a `ReadyForQuery`. They are
  compared with a server of one's own: `Upstream.serve` is the server without the proxy, fed with
  messages and cancel requests one by one.

  What an attach sends of its own, the startup parameters, the overrides and the prepared statements
  of the session, comes before the exchange: `Brought` are the states to which it brings a quiet
  connection.

  Proved: `sessions_relay`. For any number of sessions in either pool mode and every interleaving,
  the messages handed over are messages of this client, unchanged and in order; and in every
  exchange the client got what the server answers to exactly these messages and cancel requests,
  from a state to which a quiet pooled connection was brought for this session. It got a first part
  of the answers while the exchange is open or after a loss, and all of them when the connection was
  released. Where a cancel request comes between the messages is not determined.
  Conditions are those under which pooled connections are quiet (`pools_isolate`).
-/
import Pgferry.Dedicated
import Pgferry.Isolation

namespace Pgferry

open Loop

variable {σ κ : Type}

/-! ## A server of one's own -/

/-- What reaches a server. -/
inductive Input where
  | message (m : FrontendMessage)
  | cancel

def Input.message? : Input → Option FrontendMessage
  | message m => some m
  | cancel => none

def Input.messages (ins : List Input) : List FrontendMessage := ins.filterMap Input.message?

theorem Input.messages_append (ins js : List Input) :
    Input.messages (ins ++ js) = Input.messages ins ++ Input.messages js :=
  List.filterMap_append

def Input.cancels (ins : List Input) : Nat := ins.countP fun i => i.message?.isNone

/-- The server takes one input after the other: its state, and all that it has answered. -/
def Upstream.serve (u : Upstream σ) : σ → List Input → σ × List BackendMessage
  | b, [] => (b, [])
  | b, .message m :: ins =>
      let r := u.respond b m
      let rest := u.serve r.1 ins
      (rest.1, r.2 ++ rest.2)
  | b, .cancel :: ins =>
      let r := u.interrupt b
      let rest := u.serve r.1 ins
      (rest.1, r.2 ++ rest.2)

theorem serve_append (u : Upstream σ) (b : σ) (ins js : List Input) :
    u.serve b (ins ++ js) =
      ((u.serve (u.serve b ins).1 js).1,
        (u.serve b ins).2 ++ (u.serve (u.serve b ins).1 js).2) := by
  induction ins generalizing b with
  | nil => rfl
  | cons i ins ih =>
      cases i <;> rw [List.cons_append, Upstream.serve, Upstream.serve, ih] <;>
        simp only [List.append_assoc]

/-- Messages that are handed over together. -/
theorem serve_queue (u : Upstream σ) (b : σ) (ms : List (Origin × FrontendMessage)) :
    u.serve b (ms.map fun x => .message x.2) =
      ((u.answer b ms).1, (u.answer b ms).2.map Prod.snd) := by
  induction ms generalizing b with
  | nil => rfl
  | cons x ms ih =>
      rw [List.map_cons, Upstream.serve, ih, Upstream.answer]
      simp [Function.comp_def]

theorem Input.messages_queue (ms : List (Origin × FrontendMessage)) :
    Input.messages (ms.map fun x => .message x.2) = ms.map Prod.snd := by
  unfold messages
  rw [List.filterMap_map]
  exact List.filterMap_eq_map ▸ rfl

theorem Input.cancels_queue (ms : List (Origin × FrontendMessage)) :
    Input.cancels (ms.map fun x => .message x.2) = 0 := by
  simp [cancels, message?]

/-! ## Exchanges -/

/-- What went over one connection. -/
structure Exchange where
  handed : List FrontendMessage := []
  cancels : Nat := 0
  relayed : List BackendMessage := []
  /-- The connection was detached. -/
  released : Bool := false

namespace Exchange

/-- The latest exchange comes first. -/
def note : List Exchange → Entry → List Exchange
  | xs, .attached _ _ => {} :: xs
  | x :: xs, .forwarded _ _ m => { x with handed := x.handed ++ [m] } :: xs
  | x :: xs, .cancelled _ => { x with cancels := x.cancels + 1 } :: xs
  | x :: xs, .sent false _ m => { x with relayed := x.relayed ++ [m] } :: xs
  | x :: xs, .detached _ => { x with released := true } :: xs
  | xs, _ => xs

/-- The exchange `x` is with `conn`: what was handed over has been served, up to the outbox, and
    what was answered and not relayed waits in the inbox. -/
def Follows (u : Upstream σ) (Home : σ → Prop) (x : Exchange) (conn : Conn σ) : Prop :=
  ∃ b ins, Home b ∧ u.serve b ins = (conn.backend, x.relayed ++ conn.inbox.map Prod.snd) ∧
    Input.messages ins ++ conn.outbox.map Prod.snd = x.handed ∧ Input.cancels ins = x.cancels

/-- The client got a first part of the answers; all of them, if the connection was released. -/
def Direct (u : Upstream σ) (Home : σ → Prop) (x : Exchange) : Prop :=
  ∃ b ins rest, Home b ∧ (u.serve b ins).2 = x.relayed ++ rest ∧ Input.messages ins <+: x.handed ∧
    Input.cancels ins = x.cancels ∧ (x.released = true → rest = [] ∧ Input.messages ins = x.handed)

section Follows

variable {u : Upstream σ} {Home : σ → Prop} {x : Exchange} {conn : Conn σ}

theorem Follows.direct (h : x.Follows u Home conn) (hx : x.released = false) :
    x.Direct u Home := by
  obtain ⟨b, ins, hb, hserve, hhanded, hcancels⟩ := h
  refine ⟨b, ins, _, hb, congrArg Prod.snd hserve, ⟨_, hhanded⟩, hcancels, fun hr => ?_⟩
  rw [hx] at hr
  cases hr

/-- A quiet connection has answered everything. -/
theorem Follows.release (h : x.Follows u Home conn) (hq : conn.Quiet u) :
    { x with released := true }.Direct u Home := by
  obtain ⟨b, ins, hb, hserve, hhanded, hcancels⟩ := h
  rw [hq.inbox] at hserve
  rw [hq.outbox, List.map_nil, List.append_nil] at hhanded
  exact ⟨b, ins, [], hb, congrArg Prod.snd hserve, ⟨[], by simpa using hhanded⟩, hcancels,
    fun _ => ⟨rfl, hhanded⟩⟩

theorem follows_quiet (hb : Home conn.backend) (hq : conn.Quiet u) :
    ({} : Exchange).Follows u Home conn := by
  refine ⟨conn.backend, [], hb, ?_, ?_, rfl⟩
  · rw [hq.inbox]
    rfl
  · rw [hq.outbox]
    rfl

theorem Follows.feed (h : x.Follows u Home conn) (o : Origin) (m : FrontendMessage) :
    { x with handed := x.handed ++ [m] }.Follows u Home (conn.feed o m) := by
  obtain ⟨b, ins, hb, hserve, hhanded, hcancels⟩ := h
  refine ⟨b, ins, hb, hserve, ?_, hcancels⟩
  show Input.messages ins ++ (conn.outbox ++ [(o, m)]).map Prod.snd = x.handed ++ [m]
  rw [List.map_append, ← List.append_assoc, hhanded]
  rfl

theorem Follows.flush (h : x.Follows u Home conn) : x.Follows u Home (conn.flush u) := by
  obtain ⟨b, ins, hb, hserve, hhanded, hcancels⟩ := h
  refine ⟨b, ins ++ conn.outbox.map fun x => .message x.2, hb, ?_, ?_, ?_⟩
  · rw [serve_append, hserve, serve_queue]
    show (_, _ ++ _) = (_, x.relayed ++ (conn.inbox ++ _).map Prod.snd)
    rw [List.map_append, List.append_assoc]
    rfl
  · rw [Input.messages_append, Input.messages_queue, hhanded]
    exact List.append_nil _
  · rw [Input.cancels, List.countP_append]
    exact (congrArg (_ + ·) (Input.cancels_queue conn.outbox)).trans hcancels

theorem Follows.put (h : x.Follows u Home conn) (o : Origin) (m : FrontendMessage) :
    { x with handed := x.handed ++ [m] }.Follows u Home
      (if m.triggersResponse then conn.send u o m else conn.feed o m) := by
  split
  · exact (h.feed o m).flush
  · exact h.feed o m

/-- The request comes before what is in the outbox. -/
theorem Follows.cancel (h : x.Follows u Home conn) :
    { x with cancels := x.cancels + 1 }.Follows u Home (conn.cancel u) := by
  obtain ⟨b, ins, hb, hserve, hhanded, hcancels⟩ := h
  refine ⟨b, ins ++ [.cancel], hb, ?_, ?_, ?_⟩
  · rw [serve_append, hserve]
    show ((u.interrupt conn.backend).1, _ ++ ((u.interrupt conn.backend).2 ++ [])) =
      (_, x.relayed ++ (conn.inbox ++ _).map Prod.snd)
    rw [List.map_append, List.append_assoc, List.append_nil, List.map_map]
    simp [Function.comp_def, Conn.cancel]
  · rw [Input.messages_append]
    show (Input.messages ins ++ []) ++ _ = _
    rw [List.append_nil]
    exact hhanded
  · rw [Input.cancels, List.countP_append]
    exact congrArg (· + 1) hcancels

/-- The first message of the inbox is passed on. -/
theorem Follows.take (h : x.Follows u Home conn) {o : Origin} {m : BackendMessage}
    {rest : List (Origin × BackendMessage)} (hin : conn.inbox = (o, m) :: rest) (n : Nat) :
    { x with relayed := x.relayed ++ [m] }.Follows u Home
      ({ conn with inbox := rest, consumed := n }.noted m) := by
  obtain ⟨b, ins, hb, hserve, hhanded, hcancels⟩ := h
  have hnoted : ∀ c : Conn σ, (c.noted m).backend = c.backend ∧ (c.noted m).inbox = c.inbox ∧
      (c.noted m).outbox = c.outbox := by
    intro c
    cases m <;> exact ⟨rfl, rfl, rfl⟩
  obtain ⟨h1, h2, h3⟩ := hnoted { conn with inbox := rest, consumed := n }
  refine ⟨b, ins, hb, ?_, ?_, hcancels⟩
  · rw [h1, h2, hserve, hin]
    simp
  · rw [h3]
    exact hhanded

end Follows

end Exchange

/-- The exchanges of a log. -/
def exchanges (log : List Entry) : List Exchange := log.foldl Exchange.note []

/-- Entries that belong to no exchange. -/
def Entry.aside : Entry → Bool
  | .recv _ _ => true
  | .sent own _ _ => own
  | .lost _ _ _ => true
  | .sessionLeg _ _ => true
  | _ => false

theorem exchanges_aside (log : List Entry) {es : List Entry} (h : ∀ e ∈ es, e.aside = true) :
    exchanges (log ++ es) = exchanges log := by
  unfold exchanges
  rw [List.foldl_append]
  generalize log.foldl Exchange.note [] = xs
  induction es generalizing xs with
  | nil => rfl
  | cons e es ih =>
      have he : Exchange.note xs e = xs := by
        have := h e List.mem_cons_self
        cases e with
        | recv | lost | sessionLeg => cases xs <;> rfl
        | sent own _ _ =>
            cases own with
            | true => cases xs <;> rfl
            | false => cases this
        | _ => cases this
      rw [List.foldl_cons, he]
      exact ih (fun e' he' => h e' (List.mem_cons_of_mem _ he')) xs

theorem exchanges_snoc (log : List Entry) (e : Entry) :
    exchanges (log ++ [e]) = Exchange.note (exchanges log) e := by
  unfold exchanges
  rw [List.foldl_append]
  rfl

/-! ## The invariant of a session -/

/-- `b` is the state of a server behind a quiet connection that was brought to the state of the
    session: its startup parameters, its overrides and its prepared statements. -/
def Session.Brings (u : Upstream σ) (s : Session σ κ) (b : σ) : Prop :=
  ∃ (dirty₀ dirty : Bool) (base conn : Conn σ), base.Quiet u ∧
    Prepared u s.startupParameters s.toCore dirty₀ base conn dirty ∧ conn.backend = b

/-- The session `n` brought a quiet connection to `b` at some time of the run. -/
def Brought (env : Env σ) (world : World σ) (acts : List (Act σ κ)) (n : Nat) (b : σ) : Prop :=
  ∃ pre s, pre <+: acts ∧ (run (System.act env) (System.init world) pre).sessions[n]? = some s ∧
    s.Brings env.upstream b

namespace Core

structure Relays (u : Upstream σ) (Home : σ → Prop) (c : Core σ) : Prop where
  direct : ∀ x ∈ exchanges c.log, x.Direct u Home
  handed : c.forwards = (exchanges c.log).reverse.flatMap Exchange.handed
  mine : c.forwards.Sublist (received c.log)
  current : c.ended = none → ∀ lease, c.lease = some lease → ∃ x xs, exchanges c.log = x :: xs ∧
    x.released = false ∧ x.Follows u Home lease.conn

section Steps

variable {u : Upstream σ} {Home : σ → Prop} {c d : Core σ}

theorem aside_forwarded {es : List Entry} (h : ∀ e ∈ es, e.aside = true) :
    es.filterMap Entry.forwarded? = [] := by
  refine List.filterMap_eq_nil_iff.mpr fun e he => ?_
  have := h e he
  cases e with
  | forwarded => cases this
  | _ => rfl

theorem answers_aside (c : Core σ) (ms : List BackendMessage) :
    ∀ e ∈ c.answers ms, e.aside = true := by
  intro e he
  obtain ⟨_, -, rfl⟩ := List.mem_map.mp he
  rfl

/-- A step that is no part of an exchange. -/
theorem Relays.aside (h : c.Relays u Home) {es : List Entry} (hlog : d.log = c.log ++ es)
    (hes : ∀ e ∈ es, e.aside = true)
    (hlease : d.ended = none → d.lease = none ∨ c.ended = none ∧ d.lease = c.lease) :
    d.Relays u Home := by
  have hx : exchanges d.log = exchanges c.log := by rw [hlog, exchanges_aside _ hes]
  have hf : d.forwards = c.forwards := by
    unfold forwards
    rw [hlog, List.filterMap_append, aside_forwarded hes, List.append_nil]
  refine ⟨hx ▸ h.direct, ?_, ?_, fun hend lease hl => ?_⟩
  · rw [hf, hx]
    exact h.handed
  · rw [hf, hlog, received_append]
    exact h.mine.trans (List.sublist_append_left _ _)
  · rw [hx]
    rcases hlease hend with hnone | ⟨hlive, hsame⟩
    · rw [hnone] at hl
      cases hl
    · exact h.current hlive lease (hsame.symm.trans hl)

theorem Relays.still (h : c.Relays u Home) (hlog : d.log = c.log)
    (hlease : d.ended = none → d.lease = none ∨ c.ended = none ∧ d.lease = c.lease) :
    d.Relays u Home :=
  h.aside (hlog.trans (List.append_nil _).symm) (List.forall_mem_nil _) hlease

/-- The pump writes messages of its own. -/
theorem Relays.said {es : List Entry} {f : Core σ → Core σ} (h : c.Relays u Home)
    (hsaid : Said c es f d) (hes : ∀ e ∈ es, e.aside = true)
    (hlog : (f (c.emit es)).log = (c.emit es).log)
    (hlease : (f (c.emit es)).ended = none → (f (c.emit es)).lease = none ∨
      c.ended = none ∧ (f (c.emit es)).lease = c.lease) : d.Relays u Home := by
  cases hsaid with
  | done => exact h.aside hlog hes hlease
  | cut pre _ _ hpre =>
      exact h.aside rfl (fun e he => hes e (hpre.subset he)) fun hend => by cases hend

theorem Relays.lost {i : Option (Interceptor κ)} {lease : UpstreamLease σ} {reason : String}
    {synth : Bool} (h : c.Relays u Home) (hlost : Lost i c lease reason synth d) :
    d.Relays u Home := by
  have hentry : ∀ decision, ∀ e ∈ [c.lostEntry lease decision], e.aside = true := by
    intro decision e he
    rw [List.mem_singleton.mp he]
    rfl
  have hgone : (c.emit [c.lostEntry lease .relink]).unleased.Relays u Home :=
    h.aside rfl (hentry _) fun _ => .inl rfl
  cases hlost with
  | closed => exact h.aside rfl (hentry _) fun hend => by cases hend
  | silent => exact h.aside rfl (hentry _) fun _ => .inl rfl
  | simple _ _ _ hsaid => exact hgone.said hsaid (c.answers_aside _) rfl fun _ => .inl rfl
  | extended _ _ _ hsaid => exact hgone.said hsaid (c.answers_aside _) rfl fun _ => .inl rfl

/-- An entry belongs to an exchange: the latest one becomes `x`. -/
theorem Relays.note (h : c.Relays u Home) {e : Entry} {x : Exchange} {xs : List Exchange}
    (hlog : d.log = c.log ++ [e]) (hx : Exchange.note (exchanges c.log) e = x :: xs)
    (hxs : xs <:+ exchanges c.log)
    (hhanded : (x :: xs).reverse.flatMap Exchange.handed =
      (exchanges c.log).reverse.flatMap Exchange.handed ++ e.forwarded?.toList)
    (hmine : (c.forwards ++ e.forwarded?.toList).Sublist (received c.log))
    (hdirect : x.Direct u Home) (hcurrent : d.ended = none → ∀ lease, d.lease = some lease →
      x.released = false ∧ x.Follows u Home lease.conn) : d.Relays u Home := by
  have hx' : exchanges d.log = x :: xs := by rw [hlog, exchanges_snoc, hx]
  have hf : d.forwards = c.forwards ++ e.forwarded?.toList := by
    unfold forwards
    rw [hlog, List.filterMap_append]
    cases he : e.forwarded? <;> simp [he]
  refine ⟨?_, ?_, ?_, fun hend lease hl => ⟨x, xs, hx', hcurrent hend lease hl⟩⟩
  · rw [hx']
    exact List.forall_mem_cons.mpr ⟨hdirect, fun y hy => h.direct y (hxs.subset hy)⟩
  · rw [hf, hx', hhanded, h.handed]
  · rw [hf, hlog, received_append]
    exact hmine.trans (List.sublist_append_left _ _)

/-- An entry that hands nothing over. -/
theorem Relays.noteSilent (h : c.Relays u Home) {e : Entry} {x x' : Exchange}
    {xs : List Exchange} (hx : exchanges c.log = x :: xs) (hlog : d.log = c.log ++ [e])
    (hnote : Exchange.note (x :: xs) e = x' :: xs) (hsilent : e.forwarded? = none)
    (hhanded : x'.handed = x.handed) (hdirect : x'.Direct u Home)
    (hcurrent : d.ended = none → ∀ lease, d.lease = some lease →
      x'.released = false ∧ x'.Follows u Home lease.conn) : d.Relays u Home := by
  refine h.note hlog (hx ▸ hnote) (hx ▸ List.suffix_cons _ _) ?_ ?_ hdirect hcurrent
  · rw [hx, hsilent]
    simp [hhanded]
  · rw [hsilent]
    exact (List.append_nil _).symm ▸ h.mine

/-- A quiet connection is taken, and an exchange opens. -/
theorem Relays.leased (h : c.Relays u Home) (lease : UpstreamLease σ) (dirty : Bool)
    (hq : lease.conn.Quiet u) (hb : Home lease.conn.backend) :
    (c.leased lease dirty).Relays u Home := by
  have hfresh : ({} : Exchange).Follows u Home lease.conn := Exchange.follows_quiet hb hq
  refine h.note (x := {}) rfl rfl (List.suffix_refl _) ?_ ?_ (hfresh.direct rfl) fun _ l hl => ?_
  · simp [Entry.forwarded?]
  · exact (List.append_nil _).symm ▸ h.mine
  · cases hl
    exact ⟨rfl, hfresh⟩

/-- A message is handed over. -/
theorem Relays.put (h : c.Relays u Home) (hlive : c.ended = none) {lease : UpstreamLease σ}
    (hlease : c.lease = some lease) {m : FrontendMessage}
    (hsub : (c.forwards ++ [m]).Sublist (received c.log)) :
    ((c.await m).put u lease m).Relays u Home := by
  obtain ⟨x, xs, hx, hrel, hfollows⟩ := h.current hlive lease hlease
  have hnext := hfollows.put c.origin m
  rw [awaitPut_eq]
  refine h.note (x := { x with handed := x.handed ++ [m] }) rfl (hx ▸ rfl)
    (hx ▸ List.suffix_cons _ xs) ?_ hsub (hnext.direct hrel) fun _ l hl => ?_
  · rw [hx]
    simp [Entry.forwarded?]
  · cases hl
    exact ⟨hrel, hnext⟩

/-- The connection is released, and the exchange is complete. -/
theorem Relays.detached (h : c.Relays u Home) (hlive : c.ended = none) {lease : UpstreamLease σ}
    (hlease : c.lease = some lease) (hq : lease.conn.Quiet u) :
    { c with
      lease := none
      log := c.log ++ [Entry.detached lease.conn.processId]
      leaseDirty := false
      attached := false }.Relays u Home := by
  obtain ⟨x, xs, hx, -, hfollows⟩ := h.current hlive lease hlease
  exact h.noteSilent hx rfl rfl rfl rfl (hfollows.release hq) fun _ _ hl => by cases hl

end Steps

end Core

section Reading

variable {u : Upstream σ} {Home : σ → Prop} {c d : Core σ}

/-- A message is read and passed on, or the client went away before it. -/
theorem relays_passed (h : c.Relays u Home) (hlive : c.ended = none) (hcalm : c.Calm u)
    {transactionMode : Bool} {o : Origin} {m : BackendMessage} {c₁ : Core σ}
    (hread : c.readNext transactionMode = some (o, m, c₁))
    (hsaid : Said c₁ [.sent false o m]
      (if m.ready = 1 then Core.afterReady transactionMode else id) d) : d.Relays u Home := by
  obtain ⟨lease, rest, hlease, hin, hframe, -, hlease₁⟩ := Core.readNext_spec hread
  obtain ⟨x, xs, hx, hrel, hfollows⟩ := h.current hlive lease hlease
  have hnext := hfollows.take hin (lease.conn.consumed + m.ready)
  -- the state in which the message is with the client
  have hsent : (c₁.emit [.sent false o m]).Relays u Home := by
    have hlog : (c₁.emit [.sent false o m]).log = c.log ++ [.sent false o m] := by
      show c₁.log ++ _ = _
      rw [hframe.log]
    refine h.noteSilent hx hlog rfl rfl rfl (hnext.direct hrel) fun _ l hl => ?_
    cases hlease₁.symm.trans hl
    exact ⟨hrel, hnext⟩
  cases hsaid with
  | cut pre _ _ hpre =>
      rcases List.prefix_cons_iff.mp hpre with rfl | ⟨_, rfl, hnil⟩
      · exact h.still ((List.append_nil _).trans hframe.log) fun hend => by cases hend
      · cases List.prefix_nil.mp hnil
        exact hsent.still rfl fun hend => by cases hend
  | done =>
      split
      case isTrue hready =>
        have hquiet := (Core.readNext_calm hread hcalm).2 hready
        have hlive₁ : (c₁.emit [.sent false o m]).ended = none := hframe.ended.trans hlive
        unfold Core.afterReady
        split
        · exact hsent.still rfl fun hend => by cases hend
        · split
          · split
            case h_1 l hl =>
              exact hsent.detached hlive₁ hl (hquiet l hl)
            case h_2 => exact hsent
          · exact hsent
      case isFalse => exact hsent

end Reading

/-! ## Steps of a session -/

section Plain

variable {env : Env σ} {s : Session σ κ} {Home : σ → Prop}

/-- The session has a connection, or takes one that is quiet. -/
theorem attaches_relays (hu : env.upstream.InOrder) {params : SessionParams} {startup : Params}
    {c d : Core σ} (h : c.Relays env.upstream Home) (hlive : c.ended = none)
    (hhome : ∀ dirty₀ dirty base conn, base.Quiet env.upstream →
      Prepared env.upstream startup c dirty₀ base conn dirty → Home conn.backend)
    (hatt : Attaches env (QuietPool env.upstream) params startup c d) :
    d.Relays env.upstream Home ∧ d.ended = none ∧ d.forwards = c.forwards ∧
      received d.log = received c.log := by
  cases hatt with
  | held => exact ⟨h, hlive, rfl, rfl⟩
  | leased endpoint dirty₀ base lease dirty hnone hdirty hpool hbase hprep =>
      refine ⟨h.leased lease dirty (prepared_quiet hu hbase hprep)
        (hhome dirty₀ dirty base lease.conn hbase hprep), hlive, ?_, ?_⟩
      · show (c.log ++ [_]).filterMap _ = _
        rw [List.filterMap_append]
        exact List.append_nil _
      · show received (c.log ++ [_]) = _
        rw [received_append]
        exact List.append_nil _

/-- The phases up to the raw hook: what is read, and the connection that is taken. -/
theorem enters_relays (hu : env.upstream.InOrder) {m m' : FrontendMessage} {c : Core σ}
    (h : s.toCore.Relays env.upstream Home) (hlive : s.ended = none)
    (hhome : ∀ b, s.Brings env.upstream b → Home b)
    (hent : Enters env (none : Option (Interceptor κ)) (QuietPool env.upstream) s
      (s.toCore.recv m) m m' c) :
    c.Relays env.upstream Home ∧
      (s.toCore.forwards ++ [m]).Sublist (received c.log) ∧ c.forwards = s.toCore.forwards ∧
      m' = m ∧ c.ended = none := by
  have hm : m' = m := by
    rcases hent.forwards with ⟨rfl, -⟩ | ⟨_, _, ⟨_, hmem, _⟩, _⟩
    · rfl
    · cases hmem
  have hlog : received (s.toCore.recv m).log = received s.log ++ [m] := received_append _ _
  have hfw : (s.toCore.recv m).forwards = s.toCore.forwards :=
    congrArg (·.2.2.2) (s.toCore.recv_carried m)
  have hrecv : (s.toCore.recv m).Relays env.upstream Home :=
    h.aside rfl (by simp [Entry.aside]) fun _ => .inr ⟨hlive, rfl⟩
  obtain ⟨c₁, hatt, rfl⟩ := hent.attaches
  obtain ⟨b, hb⟩ := (s.toCore.recv m).note_eq m
  obtain ⟨registry, dirty, hr⟩ := c₁.register_eq (pendingParse m')
  rw [hb] at hatt
  have hnote : { s.toCore.recv m with cycleIsExtended := b }.Relays env.upstream Home :=
    hrecv.still rfl fun _ => .inr ⟨hlive, rfl⟩
  obtain ⟨hrel, hend, hforwards, hreceived⟩ := attaches_relays hu hnote hlive
    (fun dirty₀ dirty base conn hq hprep => hhome _ ⟨dirty₀, dirty, base, conn, hq, hprep, rfl⟩)
    hatt
  rw [hr]
  refine ⟨hrel.still rfl fun _ => .inr ⟨hend, rfl⟩, ?_, hforwards.trans hfw, hm, hend⟩
  show (s.toCore.forwards ++ [m]).Sublist (received c₁.log)
  rw [hreceived]
  exact hlog ▸ h.mine.append (List.Sublist.refl [m])

theorem steps_relays (hu : env.upstream.InOrder) {e : Event} {d : Core σ}
    (h : s.toCore.Relays env.upstream Home) (hlive : s.ended = none)
    (hcalm : s.toCore.Calm env.upstream) (hhome : ∀ b, s.Brings env.upstream b → Home b)
    (hstep : Steps env (none : Option (Interceptor κ)) (QuietPool env.upstream) s e d) :
    d.Relays env.upstream Home := by
  have hnever : ¬ Core.AsksScatter (none : Option (Interceptor κ)) := by
    rintro ⟨_, _, _, hmem, _⟩
    cases hmem
  have hhook : ∀ {m m' : FrontendMessage} {action : Action},
      Hooked (none : Option (Interceptor κ)) m m' action → m' = m ∧ action = .forward :=
    fun hh => hh.passive passive_none
  cases hstep with
  | answered m t _ hans =>
      obtain ⟨legs, ms, hlog, hlegs, -⟩ := Core.answered_log hans
      have hlease : d.lease = s.lease := by
        cases (Core.answered_frame hans).2 with
        | same h => exact h
        | dropped hs => exact absurd hs hnever
        | ran hs => exact absurd hs hnever
      have haside : ∀ e ∈ .recv (s.seq + 1) m :: (legs ++ (s.toCore.recv m).answers ms),
          e.aside = true := by
        refine List.forall_mem_cons.mpr ⟨rfl, List.forall_mem_append.mpr
          ⟨?_, Core.answers_aside _ _⟩⟩
        cases hlegs <;> simp [Entry.aside]
      refine h.aside (hlog.trans ?_) haside fun _ => .inr ⟨hlive, hlease⟩
      show (s.log ++ [_]) ++ _ = _
      rw [List.append_assoc]
      rfl
  | attachFailed m m' t d hp hf hfail =>
      obtain ⟨b, hb⟩ := (s.toCore.recv m).note_eq m
      rw [hb] at hfail
      cases hfail with
      | intro dirty info es hnone hes =>
          refine h.aside (List.append_assoc _ _ _) (List.forall_mem_append.mpr ⟨?_, ?_⟩)
            fun hend => by cases hend
          · simp [Entry.aside]
          · exact fun e he => Core.answers_aside _ _ e (hes.subset he)
  | hookReplied m m' m'' t ms c d he hh => cases (hhook hh).2
  | hookStopped m m' m'' t action c he hh ha => exact absurd (hhook hh).2 ha
  | put m m' m'' t c lease he hh hlease hs =>
      obtain ⟨hrel, hsub, hf, rfl, hend⟩ := enters_relays hu h hlive hhome he
      obtain ⟨rfl, -⟩ := hhook hh
      exact hrel.put hend hlease (hf.symm ▸ hsub)
  | sendFailed m m' m'' t c _ lease he hh hlease hs hlost =>
      obtain ⟨hrel, -, -, -, hend⟩ := enters_relays hu h hlive hhome he
      have hawait : (c.await m'').Relays env.upstream Home := by
        rw [Core.await_eq]
        exact hrel.still rfl fun _ => .inr ⟨hend, rfl⟩
      exact hawait.lost hlost
  | clientGone | upstreamError | shutdown =>
      exact h.still rfl fun hend => by cases hend
  | idle => exact h
  | rowDropped _ _ _ _ _ _ hi => exact absurd rfl hi
  | readStopped _ _ _ _ _ hi => exact absurd rfl hi
  | replaced o m m' m'' ms c _ hr hs hh => cases (hh.passive passive_none).2
  | passed o m m' m'' c _ hr hs hh hsaid =>
      obtain ⟨rfl, -⟩ := hh.passive passive_none
      rcases hs with rfl | ⟨hi, -⟩
      · exact relays_passed h hlive hcalm hr hsaid
      · exact absurd rfl hi
  | upstreamClosed lease _ hlease hlost => exact h.lost hlost
  | cancel lease hlease =>
      obtain ⟨x, xs, hx, hrel, hfollows⟩ := h.current hlive lease hlease
      have hnext := hfollows.cancel
      refine h.noteSilent hx rfl rfl rfl rfl (hnext.direct hrel) fun _ l hl => ?_
      cases hl
      exact ⟨hrel, hnext⟩
  | drain =>
      exact h.still rfl fun _ => .inr ⟨hlive, rfl⟩

theorem start_relays (hu : env.upstream.InOrder) {l : Launch σ κ}
    (ht : l.world.Tidy (QuietPool env.upstream))
    (hhome : ∀ b, (l.new.start env).Brings env.upstream b → Home b) :
    (l.new.start env).toCore.Relays env.upstream Home := by
  obtain ⟨hkept, hstart⟩ := l.start_quiet hu ht
  have hnew : l.new.toCore.Relays env.upstream Home :=
    ⟨List.forall_mem_nil _, rfl, List.Sublist.refl _, fun _ _ hl => by cases hl⟩
  have hlive : l.new.ended = none := rfl
  unfold Session.Brings at hhome
  rw [hkept.startup] at hhome
  generalize (l.new.start env).toCore = d at hstart hhome
  cases hstart with
  | detached => exact hnew
  | refused dirty info es hes =>
      exact hnew.aside rfl (fun e he => Core.answers_aside _ _ e (hes.subset he))
        fun hend => by cases hend
  | attached c₁ ht hatt =>
      -- an attach leaves what it has replayed
      have hsame : c₁.gucOverrides = l.new.gucOverrides ∧ c₁.registry = l.new.registry := by
        cases hatt <;> exact ⟨rfl, rfl⟩
      obtain ⟨hrel, hend, -⟩ := attaches_relays hu hnew hlive
        (fun dirty₀ dirty base conn hq hprep => hhome _ ⟨dirty₀, dirty, base, conn, hq, by
          unfold Prepared at hprep ⊢
          rw [← hsame.1, ← hsame.2] at hprep
          exact hprep, rfl⟩) hatt
      exact hrel.still rfl fun _ => .inr ⟨hend, rfl⟩

end Plain

/-! ## Sessions -/

namespace System

variable {env : Env σ} {y : System σ κ} {a : Act σ κ}

/-- What every session can bring a quiet connection to is in `Home`. -/
def Brings (u : Upstream σ) (Home : Nat → σ → Prop) (y : System σ κ) : Prop :=
  ∀ (n : Nat) (s : Session σ κ), y.sessions[n]? = some s → ∀ b, s.Brings u b → Home n b

def Relays (u : Upstream σ) (Home : Nat → σ → Prop) (y : System σ κ) : Prop :=
  ∀ (n : Nat) (s : Session σ κ), y.sessions[n]? = some s → s.toCore.Relays u (Home n)

/-- One session acts. -/
theorem Relays.onSession {u : Upstream σ} {Home : Nat → σ → Prop} (h : y.Relays u Home) (n : Nat)
    {f : Session σ κ → Session σ κ} (hf : ∀ s, y.sessions[n]? = some s →
      (f { s with world := y.world }).toCore.Relays u (Home n)) :
    (y.onSession n f).Relays u Home := by
  intro k s hs
  by_cases hk : k = n
  · subst hk
    cases hold : y.sessions[k]? with
    | none =>
        rw [onSession_none f hold] at hs
        exact h k s hs
    | some s₀ =>
        cases (onSession_self f hold).symm.trans hs
        exact hf s₀ hold
  · exact h k s ((onSession_other f hk).symm.trans hs)

theorem Relays.act (hu : env.upstream.InOrder) {Home : Nat → σ → Prop}
    (h : y.Relays env.upstream Home)
    (hy : y.Holds (QuietPool env.upstream) Launch.Plain (Core.Isolated env.upstream))
    (ha : Within Launch.Plain (Session.OneCycle env.upstream) (Session.EndsInTime env.upstream) y a)
    (hbefore : y.Brings env.upstream Home) (hafter : (y.act env a).Brings env.upstream Home) :
    (y.act env a).Relays env.upstream Home := by
  cases a with
  | connect l =>
      intro n s hs
      rcases Nat.lt_trichotomy n y.sessions.length with hlt | rfl | hgt
      · exact h n s ((List.getElem?_append_left hlt).symm.trans hs)
      · cases List.getElem?_concat_length.symm.trans hs
        exact start_relays hu (l := y.accept l) hy.tidy (hafter _ _ hs)
      · have hlength : (y.sessions ++ [(y.accept l).new.start env]).length ≤ n := by
          rw [List.length_append]
          exact hgt
        cases (List.getElem?_eq_none hlength).symm.trans hs
  | event n e =>
      refine h.onSession n fun s hs => ?_
      obtain ⟨hinv, l, hl, hid, hint, hstart⟩ := hy.sessions n s hs
      by_cases hlive : s.ended = none
      · have hst := (isolated_keeps hu).stable l hl
        obtain ⟨hsteps, -⟩ := hst.steps (s := { s with world := y.world })
          ⟨hid ▸ hinv, hy.tidy, hint, hstart⟩ hlive (ha s hs hlive)
        rw [hl.interceptor] at hsteps
        exact steps_relays (s := { s with world := y.world }) hu (h n s hs) hlive hinv.calm
          (hbefore n s hs) hsteps
      · rw [Session.step_ended (s := { s with world := y.world }) hlive]
        exact h n s hs
  | finish n arrived =>
      refine h.onSession n fun s hs => ?_
      rcases Session.finish_core env { s with world := y.world } arrived with hcore | hcore <;>
        rw [hcore]
      · exact h n s hs
      · exact (h n s hs).still rfl fun _ => .inl rfl
  | tick => exact h
  | sweep => exact h

/-- What the sessions of a run relay; every state of the run is one at some time of it. -/
theorem relays_run (hu : env.upstream.InOrder) {world : World σ} (acts : List (Act σ κ))
    (hworld : world.Tidy (QuietPool env.upstream))
    (hrun : Along (System.act env) (Within Launch.Plain (Session.OneCycle env.upstream)
      (Session.EndsInTime env.upstream)) (init world) acts) :
    (run (System.act env) (init world) acts).Relays env.upstream (Brought env world acts) := by
  have hbrings : ∀ pre, pre <+: acts →
      (run (System.act env) (init world) pre).Brings env.upstream (Brought env world acts) :=
    fun pre hpre _ s hs _ hb => ⟨pre, s, hpre, hs, hb⟩
  have hall : Along (System.act env) (fun y a => y.Holds (QuietPool env.upstream) Launch.Plain
      (Core.Isolated env.upstream) ∧ Within Launch.Plain (Session.OneCycle env.upstream)
      (Session.EndsInTime env.upstream) y a ∧ y.Brings env.upstream (Brought env world acts) ∧
      (y.act env a).Brings env.upstream (Brought env world acts)) (init world) acts := by
    refine hrun.positions fun pre a rest heq ha => ?_
    have hpre : Along _ _ (init world) pre :=
      ((along_append _ pre (a :: rest)).mp (heq ▸ hrun)).1
    have hnext := hbrings (pre ++ [a]) ⟨rest, by rw [heq, List.append_assoc]; rfl⟩
    rw [run_append] at hnext
    exact ⟨(isolated_keeps hu).run world pre hworld hpre, ha, hbrings pre ⟨a :: rest, heq.symm⟩,
      hnext⟩
  refine run_inv ?_ _ acts (fun _ _ hs => by cases hs) hall
  rintro y a h ⟨hy, ha, hbefore, hafter⟩
  exact h.act hu hy ha hbefore hafter

end System

/-- Every exchange of every session is one with a server of its own. -/
theorem sessions_relay (env : Env σ) (world : World σ) (acts : List (Act σ κ))
    (hu : env.upstream.InOrder) (hworld : world.Tidy (QuietPool env.upstream))
    (hrun : Along (System.act env) (System.Within Launch.Plain (Session.OneCycle env.upstream)
      (Session.EndsInTime env.upstream)) (System.init world) acts) :
    ∀ (n : Nat) s, (run (System.act env) (System.init world) acts).sessions[n]? = some s →
      ((exchanges s.log).reverse.flatMap Exchange.handed).Sublist (received s.log) ∧
      (∀ x ∈ exchanges s.log, x.Direct env.upstream (Brought env world acts n)) ∧
      (s.ended = none → ∀ lease, s.lease = some lease → ∃ x xs, exchanges s.log = x :: xs ∧
        x.Follows env.upstream (Brought env world acts n) lease.conn) := by
  intro n s hs
  have hr := System.relays_run hu acts hworld hrun n s hs
  refine ⟨hr.handed ▸ hr.mine, hr.direct, fun hlive lease hlease => ?_⟩
  obtain ⟨x, xs, hx, -, hfollows⟩ := hr.current hlive lease hlease
  exact ⟨x, xs, hx, hfollows⟩

open Sample

/-- Two clients take turns on one connection; the second has a cycle open and cancels it. -/
def Sample.takeTurns : List (Act Pg Unit) :=
  [connect, connect] ++
    turns 0 ([client (.query "SELECT 1")] ++ reads 2) ++
    turns 1 [client (.query "SELECT 2"), .upstream, .cancel]

theorem sessions_relay_turns :
    ∃ s t, (system takeTurns).sessions = [s, t] ∧
      (exchanges s.log).map Exchange.released = [true] ∧
      (exchanges t.log).map Exchange.handed = [[.query "SELECT 2"]] ∧
      (exchanges t.log).map Exchange.cancels = [1] ∧
      (∀ x ∈ exchanges s.log, x.Direct (env .transaction).upstream
        (Brought (env .transaction) (world .transaction) takeTurns 0)) ∧
      ∀ x ∈ exchanges t.log, x.Direct (env .transaction).upstream
        (Brought (env .transaction) (world .transaction) takeTurns 1) := by
  have h := sessions_relay (env .transaction) (world .transaction) takeTurns
    (pg_inOrder _) (world_quiet .transaction) (by decide)
  exact ⟨_, _, rfl, by decide, by decide, by decide, (h 0 _ rfl).2.1, (h 1 _ rfl).2.1⟩

end Pgferry
