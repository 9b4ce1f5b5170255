/-
  Upstream servers and the proxy's connections to them.

  An `Upstream` is the server side of a connection: it processes the frontend messages in the
  order in which they arrive and answers each with a list of backend messages. Nothing of the
  server is fixed beyond that. Its state may hold the outcome of every choice it makes later, so
  a theorem about all upstreams covers every server and every resolution of its choices.
  `InOrder` is what the proxy relies on: the server owes one `ReadyForQuery` for each `Query`
  and each `Sync` and sends it as the last message of an answer. The client library is part of
  that side as well: `unexpected` are the messages on which its `simple_query` gives up.

  A `Conn` is a `PgWireClient` with the server behind it. `outbox` holds the messages that were
  fed but not flushed. A flush hands them to the server at once and queues the answers in
  `inbox`; the time a message spends on the way is the time until it is read from `inbox`, so
  every interleaving of replies with other events is an order of reads. Each message carries the
  client message it answers (`Origin`), `elicited` and `consumed` count the `ReadyForQuery`
  messages that were asked for and read, and `running` is what a cancel request hits. All this
  is bookkeeping of the model only.

  Proved: `Balanced` (what was elicited is consumed, still queued, or owed) is kept by every
  operation, and a connection that is `Quiet` stays so under the exchanges the pool runs
  (`readReply_quiet`, `simpleQuery_quiet`).
-/
import Pgferry.Wire

namespace Pgferry

/-- The client message (by session and position in its stream) that a message answers, or the
    proxy's own traffic. -/
inductive Origin where
  | client (session seq : Nat)
  | proxy
  deriving DecidableEq, Repr

/-! ## The server -/

structure Upstream (σ : Type) where
  /-- Process one frontend message. -/
  respond : σ → FrontendMessage → σ × List BackendMessage
  /-- Process a cancel request that arrived on a side connection. -/
  interrupt : σ → σ × List BackendMessage
  /-- `ReadyForQuery` messages still to come for what was processed. -/
  owed : σ → Nat
  /-- The server is inside COPY-in and reads COPY messages. -/
  copying : σ → Bool
  /-- The messages that the handler of pgwire's `simple_query` does not take. -/
  unexpected : BackendMessage → Bool := BackendMessage.isForeign

namespace Upstream

variable {σ : Type}

/-- A message that fails a `simple_query`. -/
def fails (u : Upstream σ) (m : BackendMessage) : Bool := m.isError || u.unexpected m

/-- Process the messages in order. -/
def answer (u : Upstream σ) :
    σ → List (Origin × FrontendMessage) → σ × List (Origin × BackendMessage)
  | b, [] => (b, [])
  | b, (o, m) :: ms =>
      let r := u.respond b m
      let rest := u.answer r.1 ms
      (rest.1, r.2.map (fun x => (o, x)) ++ rest.2)

/-- The server answers each `Query` and each `Sync` with exactly one `ReadyForQuery`, which ends
    the answer when no other cycle is open. A COPY-in command is answered when the copy ends;
    COPY messages outside a copy and a cancel of an idle server have no effect. -/
structure InOrder (u : Upstream σ) : Prop where
  respond_owed : ∀ b m, u.owed (u.respond b m).1 + readies (u.respond b m).2 = u.owed b + m.cycles
  respond_last : ∀ b m, u.owed b + m.cycles ≤ 1 → readies (u.respond b m).2.dropLast = 0
  respond_ready : ∀ b m, u.owed b + m.cycles ≤ 1 → readies (u.respond b m).2 ≠ 0 →
    u.copying (u.respond b m).1 = false
  stray_copy : ∀ b m, m.isCopy = true → u.copying b = false →
    (u.respond b m).2 = [] ∧ u.copying (u.respond b m).1 = false
  interrupt_owed : ∀ b, u.owed (u.interrupt b).1 + readies (u.interrupt b).2 = u.owed b
  interrupt_last : ∀ b, readies (u.interrupt b).2.dropLast = 0
  interrupt_ready : ∀ b, readies (u.interrupt b).2 ≠ 0 → u.copying (u.interrupt b).1 = false
  interrupt_idle : ∀ b, u.owed b = 0 → u.copying b = false →
    (u.interrupt b).2 = [] ∧ u.copying (u.interrupt b).1 = false

@[simp] theorem answer_nil (u : Upstream σ) (b : σ) : u.answer b [] = (b, []) := rfl

theorem answer_append (u : Upstream σ) (b : σ) (ms ns : List (Origin × FrontendMessage)) :
    u.answer b (ms ++ ns) =
      ((u.answer (u.answer b ms).1 ns).1,
        (u.answer b ms).2 ++ (u.answer (u.answer b ms).1 ns).2) := by
  induction ms generalizing b with
  | nil => simp
  | cons x ms ih =>
      obtain ⟨o, m⟩ := x
      simp only [List.cons_append, answer]
      rw [ih]
      simp [List.append_assoc]

theorem answer_singleton (u : Upstream σ) (b : σ) (o : Origin) (m : FrontendMessage) :
    u.answer b [(o, m)] =
      ((u.respond b m).1, (u.respond b m).2.map (fun x => (o, x))) := by
  simp [answer]

end Upstream

/-- `ReadyForQuery` messages in a queue of tagged messages. -/
def queuedReadies (xs : List (Origin × BackendMessage)) : Nat := readies (xs.map Prod.snd)

/-- `ReadyForQuery` messages that the messages of a queue elicit. -/
def queuedCycles (xs : List (Origin × FrontendMessage)) : Nat :=
  (xs.map fun x => x.2.cycles).sum

@[simp] theorem queuedReadies_nil : queuedReadies [] = 0 := rfl

@[simp] theorem queuedReadies_cons (x : Origin × BackendMessage)
    (xs : List (Origin × BackendMessage)) :
    queuedReadies (x :: xs) = x.2.ready + queuedReadies xs := by simp [queuedReadies]

@[simp] theorem queuedReadies_append (xs ys : List (Origin × BackendMessage)) :
    queuedReadies (xs ++ ys) = queuedReadies xs + queuedReadies ys := by
  simp [queuedReadies]

@[simp] theorem queuedReadies_tag (o : Origin) (ms : List BackendMessage) :
    queuedReadies (ms.map fun m => (o, m)) = readies ms := by
  simp [queuedReadies, Function.comp_def]

@[simp] theorem queuedCycles_nil : queuedCycles [] = 0 := rfl

@[simp] theorem queuedCycles_cons (x : Origin × FrontendMessage)
    (xs : List (Origin × FrontendMessage)) :
    queuedCycles (x :: xs) = x.2.cycles + queuedCycles xs := by simp [queuedCycles]

@[simp] theorem queuedCycles_append (xs ys : List (Origin × FrontendMessage)) :
    queuedCycles (xs ++ ys) = queuedCycles xs + queuedCycles ys := by
  simp [queuedCycles]

theorem Upstream.InOrder.answer_owed {σ : Type} {u : Upstream σ} (h : u.InOrder) (b : σ)
    (ms : List (Origin × FrontendMessage)) :
    u.owed (u.answer b ms).1 + queuedReadies (u.answer b ms).2 = u.owed b + queuedCycles ms := by
  induction ms generalizing b with
  | nil => simp
  | cons x ms ih =>
      obtain ⟨o, m⟩ := x
      have h1 := h.respond_owed b m
      have h2 := ih (u.respond b m).1
      simp only [Upstream.answer, queuedReadies_append, queuedReadies_tag, queuedCycles_cons]
      omega

/-! ## Connections -/

/-- A `PgWireClient` and the server behind it. -/
structure Conn (σ : Type) where
  processId : Nat
  transactionStatus : TransactionStatus
  serverParameters : Params
  outbox : List (Origin × FrontendMessage)
  inbox : List (Origin × BackendMessage)
  backend : σ
  elicited : Nat
  consumed : Nat
  /-- The message that the server processed last. -/
  running : Origin

namespace Conn

variable {σ : Type}

/-- A connection right after its startup handshake. -/
def new (processId : Nat) (backend : σ) (parameters : Params) : Conn σ where
  processId := processId
  transactionStatus := .idle
  serverParameters := parameters
  outbox := []
  inbox := []
  backend := backend
  elicited := 0
  consumed := 0
  running := .proxy

/-- `feed`: queue a message without flushing. -/
def feed (c : Conn σ) (o : Origin) (m : FrontendMessage) : Conn σ :=
  { c with outbox := c.outbox ++ [(o, m)], elicited := c.elicited + m.cycles }

def flush (u : Upstream σ) (c : Conn σ) : Conn σ :=
  { c with
    outbox := []
    inbox := c.inbox ++ (u.answer c.backend c.outbox).2
    backend := (u.answer c.backend c.outbox).1
    running := (c.outbox.getLast?.map Prod.fst).getD c.running }

/-- `send`: feed and flush. -/
def send (u : Upstream σ) (c : Conn σ) (o : Origin) (m : FrontendMessage) : Conn σ :=
  (c.feed o m).flush u

/-- `cancel`: the request travels on a side connection and interrupts what is running. -/
def cancel (u : Upstream σ) (c : Conn σ) : Conn σ :=
  { c with
    inbox := c.inbox ++ (u.interrupt c.backend).2.map (fun m => (c.running, m))
    backend := (u.interrupt c.backend).1 }

/-- `next`: take the first message of the inbox. -/
def next (c : Conn σ) : Option ((Origin × BackendMessage) × Conn σ) :=
  match c.inbox with
  | [] => none
  | x :: rest => some (x, { c with inbox := rest, consumed := c.consumed + x.2.ready })

def setTransactionStatus (c : Conn σ) (status : TransactionStatus) : Conn σ :=
  { c with transactionStatus := status }

def setServerParameter (c : Conn σ) (name value : String) : Conn σ :=
  { c with serverParameters := c.serverParameters.insert name value }

/-- What the pump caches of a message on the connection it read it from. -/
def noted (c : Conn σ) : BackendMessage → Conn σ
  | .readyForQuery status => c.setTransactionStatus status
  | .parameterStatus name value => c.setServerParameter name value
  | _ => c

/-- The cached value of a parameter, empty when the server never reported it. -/
def parameter (c : Conn σ) (name : String) : String := (c.serverParameters.lookup name).getD ""

/-- The reply loop over the inbox `xs`: apply every `ParameterStatus`, stop at the first
    `ReadyForQuery`, and fail at a message with `fails`. An inbox that ends before is the end of
    the stream, or the timeout of the caller. -/
def readReply (fails : BackendMessage → Bool) :
    List (Origin × BackendMessage) → Conn σ → Except String (Conn σ)
  | [], _ => .error "unexpected EOF"
  | (_, .readyForQuery status) :: rest, c =>
      .ok { c with transactionStatus := status, inbox := rest, consumed := c.consumed + 1 }
  | (_, m) :: rest, c =>
      if fails m then .error m.failure else readReply fails rest (c.noted m)

/-- `drain_until_ready`. -/
def drainUntilReady (c : Conn σ) : Except String (Conn σ) := readReply (fun _ => false) c.inbox c

/-- The reply loop of `StatementRegistry::replay`, which an `ErrorResponse` fails. -/
def awaitReady (c : Conn σ) : Except String (Conn σ) := readReply BackendMessage.isError c.inbox c

/-- `PgWireClient::simple_query`, of the library: what its handler does with a message is a
    parameter. -/
def simpleQuery (u : Upstream σ) (c : Conn σ) (sql : String) : Except String (Conn σ) :=
  let c := c.send u .proxy (.query sql)
  readReply u.fails c.inbox c

/-- `drain_until_ready` under a timeout that fires after `arrived` messages came in. The flag
    says whether a `ReadyForQuery` was among them. -/
def drainWithin : Nat → Conn σ → Conn σ × Bool
  | 0, c => (c, false)
  | arrived + 1, c =>
      match c.inbox with
      | [] => (c, false)
      | (_, .readyForQuery status) :: rest =>
          ({ c with transactionStatus := status, inbox := rest, consumed := c.consumed + 1 },
            true)
      | (_, .parameterStatus name value) :: rest =>
          drainWithin arrived ({ c with inbox := rest }.setServerParameter name value)
      | _ :: rest => drainWithin arrived { c with inbox := rest }

/-! ## What is outstanding -/

/-- `ReadyForQuery` messages elicited on the connection and not read yet. -/
def pending (u : Upstream σ) (c : Conn σ) : Nat :=
  queuedCycles c.outbox + queuedReadies c.inbox + u.owed c.backend

/-- Every `ReadyForQuery` that was elicited is consumed or pending. -/
def Balanced (u : Upstream σ) (c : Conn σ) : Prop := c.elicited = c.consumed + c.pending u

/-- Nothing is fed, queued or owed on the connection. -/
structure Quiet (u : Upstream σ) (c : Conn σ) : Prop where
  outbox : c.outbox = []
  inbox : c.inbox = []
  owed : u.owed c.backend = 0
  copying : u.copying c.backend = false
  settled : c.elicited = c.consumed

instance (u : Upstream σ) (c : Conn σ) : Decidable (c.Quiet u) :=
  decidable_of_iff (c.outbox = [] ∧ c.inbox = [] ∧ u.owed c.backend = 0 ∧
      u.copying c.backend = false ∧ c.elicited = c.consumed)
    ⟨fun ⟨h1, h2, h3, h4, h5⟩ => ⟨h1, h2, h3, h4, h5⟩,
      fun h => ⟨h.outbox, h.inbox, h.owed, h.copying, h.settled⟩⟩

theorem Quiet.pending {u : Upstream σ} {c : Conn σ} (h : c.Quiet u) : c.pending u = 0 := by
  simp [Conn.pending, h.outbox, h.inbox, h.owed]

theorem Quiet.balanced {u : Upstream σ} {c : Conn σ} (h : c.Quiet u) : c.Balanced u := by
  rw [Balanced, h.pending]
  exact h.settled

theorem new_quiet {u : Upstream σ} {pid : Nat} {b : σ} {ps : Params} (ho : u.owed b = 0)
    (hc : u.copying b = false) : (new pid b ps).Quiet u :=
  ⟨rfl, rfl, ho, hc, rfl⟩

theorem feed_pending (u : Upstream σ) (c : Conn σ) (o : Origin) (m : FrontendMessage) :
    (c.feed o m).pending u = c.pending u + m.cycles := by
  simp only [pending, feed, queuedCycles_append, queuedCycles_cons, queuedCycles_nil]
  omega

theorem flush_pending {u : Upstream σ} (h : u.InOrder) (c : Conn σ) :
    (c.flush u).pending u = c.pending u := by
  have := h.answer_owed c.backend c.outbox
  simp only [pending, flush, queuedCycles_nil, queuedReadies_append]
  omega

theorem send_pending {u : Upstream σ} (h : u.InOrder) (c : Conn σ) (o : Origin)
    (m : FrontendMessage) : (c.send u o m).pending u = c.pending u + m.cycles := by
  rw [send, flush_pending h, feed_pending]

theorem cancel_pending {u : Upstream σ} (h : u.InOrder) (c : Conn σ) :
    (c.cancel u).pending u = c.pending u := by
  have := h.interrupt_owed c.backend
  simp only [pending, cancel, queuedReadies_append, queuedReadies_tag]
  omega

theorem feed_balanced {u : Upstream σ} {c : Conn σ} (hb : c.Balanced u) (o : Origin)
    (m : FrontendMessage) : (c.feed o m).Balanced u := by
  rw [Balanced, feed_pending]
  simp only [feed]
  rw [Balanced] at hb
  omega

theorem flush_balanced {u : Upstream σ} (h : u.InOrder) {c : Conn σ} (hb : c.Balanced u) :
    (c.flush u).Balanced u := by
  rw [Balanced, flush_pending h]
  exact hb

theorem send_balanced {u : Upstream σ} (h : u.InOrder) {c : Conn σ} (hb : c.Balanced u)
    (o : Origin) (m : FrontendMessage) : (c.send u o m).Balanced u :=
  flush_balanced h (feed_balanced hb o m)

theorem cancel_balanced {u : Upstream σ} (h : u.InOrder) {c : Conn σ} (hb : c.Balanced u) :
    (c.cancel u).Balanced u := by
  rw [Balanced, cancel_pending h]
  exact hb

/-! ## Exchanges on a quiet connection -/

/-- The reply loop reads on behind a message that is no `ReadyForQuery` and does not fail it. -/
theorem readReply_cons {fails : BackendMessage → Bool} {o : Origin} {m : BackendMessage}
    {xs : List (Origin × BackendMessage)} {c : Conn σ} (hm : m.ready = 0) :
    readReply fails ((o, m) :: xs) c =
      if fails m then .error m.failure else readReply fails xs (c.noted m) := by
  cases m with
  | readyForQuery status => cases hm
  | _ => rfl

/-- What the reply loop leaves: the messages before the first `ReadyForQuery` are gone, none of
    them fails the exchange, and the other queues are as they were. -/
theorem readReply_spec {fails : BackendMessage → Bool} {xs : List (Origin × BackendMessage)}
    {c c' : Conn σ} (h : readReply fails xs c = .ok c') :
    ∃ pre o status rest, xs = pre ++ (o, .readyForQuery status) :: rest ∧
      queuedReadies pre = 0 ∧ c'.inbox = rest ∧ c'.transactionStatus = status ∧
      c'.outbox = c.outbox ∧ c'.backend = c.backend ∧ c'.elicited = c.elicited ∧
      c'.consumed = c.consumed + 1 ∧ c'.processId = c.processId ∧
      ∀ x ∈ pre, fails x.2 = false := by
  induction xs generalizing c with
  | nil => cases h
  | cons x xs ih =>
      obtain ⟨o, m⟩ := x
      by_cases hm : m.ready = 0
      · rw [readReply_cons hm] at h
        split at h
        case isTrue hf => cases h
        case isFalse hf =>
          obtain ⟨pre, o', status, rest, hx, hp, e1, e2, e3, e4, e5, e6, e7, e8⟩ := ih h
          have hnoted : (c.noted m).outbox = c.outbox ∧ (c.noted m).backend = c.backend ∧
              (c.noted m).elicited = c.elicited ∧ (c.noted m).consumed = c.consumed ∧
              (c.noted m).processId = c.processId := by
            cases m <;> exact ⟨rfl, rfl, rfl, rfl, rfl⟩
          obtain ⟨n1, n2, n3, n4, n5⟩ := hnoted
          rw [n1] at e3
          rw [n2] at e4
          rw [n3] at e5
          rw [n4] at e6
          rw [n5] at e7
          exact ⟨(o, m) :: pre, o', status, rest, by rw [hx]; rfl, by simp [hm, hp], e1, e2, e3, e4,
            e5, e6, e7, List.forall_mem_cons.mpr ⟨Bool.not_eq_true _ ▸ hf, e8⟩⟩
      · cases m with
        | readyForQuery status =>
            cases h
            exact ⟨[], o, status, xs, rfl, rfl, rfl, rfl, rfl, rfl, rfl, rfl, rfl,
              List.forall_mem_nil _⟩
        | _ => exact absurd rfl hm

/-! ## One cycle at a time

  `Tame` is what holds of a connection whose user never starts a cycle before the previous one
  was answered: at most one `ReadyForQuery` is pending, nothing is fed behind it, and once the
  server has sent it, it is the last message of the inbox. -/

structure Tame (u : Upstream σ) (c : Conn σ) : Prop where
  balanced : c.Balanced u
  pending_le : c.pending u ≤ 1
  last : queuedReadies c.inbox.dropLast = 0
  outbox : c.pending u ≠ 0 → c.outbox = []
  copying : queuedReadies c.inbox ≠ 0 → u.copying c.backend = false

theorem Quiet.tame {u : Upstream σ} {c : Conn σ} (h : c.Quiet u) : c.Tame u where
  balanced := h.balanced
  pending_le := by rw [h.pending]; omega
  last := by rw [h.inbox]; rfl
  outbox := fun _ => h.outbox
  copying := fun _ => h.copying

theorem queuedReadies_dropLast_append {xs ys : List (Origin × BackendMessage)}
    (hx : queuedReadies xs = 0) (hy : queuedReadies ys.dropLast = 0) :
    queuedReadies (xs ++ ys).dropLast = 0 := by
  cases ys with
  | nil =>
      have h := readies_dropLast_le (xs.map Prod.snd)
      rw [← List.map_dropLast] at h
      rw [List.append_nil]
      unfold queuedReadies at hx ⊢
      omega
  | cons y ys =>
      rw [List.dropLast_append_of_ne_nil (List.cons_ne_nil y ys), queuedReadies_append]
      omega

theorem queuedReadies_tag_dropLast (o : Origin) (ms : List BackendMessage) :
    queuedReadies (ms.map fun m => (o, m)).dropLast = readies ms.dropLast := by
  rw [← List.map_dropLast, queuedReadies_tag]

theorem feed_tame {u : Upstream σ} {c : Conn σ} (h : c.Tame u) (hp : c.pending u = 0)
    (o : Origin) {m : FrontendMessage} (hm : m.cycles = 0) : (c.feed o m).Tame u where
  balanced := feed_balanced h.balanced o m
  pending_le := by rw [feed_pending]; omega
  last := h.last
  outbox := fun hne => absurd (by rw [feed_pending]; omega) hne
  copying := h.copying

/-- The answers to a queue that elicits no `ReadyForQuery` hold none. -/
theorem answer_readies_zero {u : Upstream σ} (h : u.InOrder) {c : Conn σ}
    (hp : c.pending u = 0) :
    queuedReadies (u.answer c.backend c.outbox).2 = 0 ∧
      u.owed (u.answer c.backend c.outbox).1 = 0 := by
  have := h.answer_owed c.backend c.outbox
  unfold pending at hp
  omega

theorem owed_answer_le {u : Upstream σ} (h : u.InOrder) {c : Conn σ} (hp : c.pending u = 0)
    (m : FrontendMessage) : u.owed (u.answer c.backend c.outbox).1 + m.cycles ≤ 1 := by
  rw [(answer_readies_zero h hp).2]
  have := m.cycles_le_one
  omega

theorem send_inbox (u : Upstream σ) (c : Conn σ) (o : Origin) (m : FrontendMessage) :
    (c.send u o m).inbox = c.inbox ++ ((u.answer c.backend c.outbox).2 ++
      (u.respond (u.answer c.backend c.outbox).1 m).2.map (fun x => (o, x))) := by
  simp only [send, flush, feed]
  rw [Upstream.answer_append, Upstream.answer_singleton]

theorem send_backend (u : Upstream σ) (c : Conn σ) (o : Origin) (m : FrontendMessage) :
    (c.send u o m).backend = (u.respond (u.answer c.backend c.outbox).1 m).1 := by
  simp only [send, flush, feed]
  rw [Upstream.answer_append, Upstream.answer_singleton]

/-- The server of `c` once it has processed what was fed. -/
def caughtUp (u : Upstream σ) (c : Conn σ) : σ := (u.answer c.backend c.outbox).1

theorem caughtUp_of_nil {u : Upstream σ} {c : Conn σ} (h : c.outbox = []) :
    c.caughtUp u = c.backend := by
  unfold caughtUp
  rw [h]
  rfl

theorem feed_caughtUp (u : Upstream σ) (c : Conn σ) (o : Origin) (m : FrontendMessage) :
    (c.feed o m).caughtUp u = (u.respond (c.caughtUp u) m).1 := by
  unfold caughtUp feed
  rw [Upstream.answer_append, Upstream.answer_singleton]

@[simp] theorem send_outbox (u : Upstream σ) (c : Conn σ) (o : Origin) (m : FrontendMessage) :
    (c.send u o m).outbox = [] := rfl

/-- A message that is sent or fed is the next that the server processes. -/
theorem put_caughtUp (u : Upstream σ) (c : Conn σ) (o : Origin) (m : FrontendMessage) :
    (if m.triggersResponse then c.send u o m else c.feed o m).caughtUp u =
      (u.respond (c.caughtUp u) m).1 := by
  split
  · rw [caughtUp_of_nil (send_outbox u c o m)]
    exact send_backend u c o m
  · exact feed_caughtUp u c o m

theorem send_tame {u : Upstream σ} (hu : u.InOrder) {c : Conn σ} (h : c.Tame u)
    (hp : c.pending u = 0) (o : Origin) (m : FrontendMessage) : (c.send u o m).Tame u where
  balanced := send_balanced hu h.balanced o m
  pending_le := by
    rw [send_pending hu]
    have := m.cycles_le_one
    omega
  last := by
    rw [send_inbox]
    have h0 := (answer_readies_zero hu hp).1
    have hi : queuedReadies c.inbox = 0 := by unfold pending at hp; omega
    refine queuedReadies_dropLast_append hi (queuedReadies_dropLast_append h0 ?_)
    rw [queuedReadies_tag_dropLast]
    exact hu.respond_last _ m (owed_answer_le hu hp m)
  outbox := fun _ => rfl
  copying := by
    rw [send_inbox, send_backend]
    intro hne
    apply hu.respond_ready _ _ (owed_answer_le hu hp m)
    have h0 := (answer_readies_zero hu hp).1
    have hi : queuedReadies c.inbox = 0 := by unfold pending at hp; omega
    simpa [hi, h0] using hne

/-- COPY messages may follow a cycle that is not answered yet: the server reads them inside a
    copy and ignores them when its answer is already out. -/
theorem send_copy_tame {u : Upstream σ} (hu : u.InOrder) {c : Conn σ} (h : c.Tame u)
    (o : Origin) {m : FrontendMessage} (hm : m.isCopy = true) : (c.send u o m).Tame u := by
  by_cases hp : c.pending u = 0
  · exact send_tame hu h hp o m
  have hout := h.outbox hp
  have hcyc := FrontendMessage.cycles_of_isCopy hm
  have hin : (c.send u o m).inbox =
      c.inbox ++ (u.respond c.backend m).2.map (fun x => (o, x)) := by
    rw [send_inbox, hout]; rfl
  have hback : (c.send u o m).backend = (u.respond c.backend m).1 := by
    rw [send_backend, hout]; rfl
  have hle := h.pending_le
  have howed : u.owed c.backend + m.cycles ≤ 1 := by unfold pending at hle; omega
  refine ⟨send_balanced hu h.balanced o m, by rw [send_pending hu]; omega, ?_, fun _ => rfl, ?_⟩
  · rw [hin]
    by_cases hr : queuedReadies c.inbox = 0
    · refine queuedReadies_dropLast_append hr ?_
      rw [queuedReadies_tag_dropLast]
      exact hu.respond_last _ m howed
    · rw [(hu.stray_copy c.backend m hm (h.copying hr)).1]
      simpa using h.last
  · rw [hin, hback]
    intro hne
    by_cases hr : queuedReadies c.inbox = 0
    · apply hu.respond_ready _ _ howed
      simpa [hr] using hne
    · exact (hu.stray_copy c.backend m hm (h.copying hr)).2

theorem cancel_tame {u : Upstream σ} (hu : u.InOrder) {c : Conn σ} (h : c.Tame u) :
    (c.cancel u).Tame u := by
  have hlast :
      queuedReadies ((u.interrupt c.backend).2.map fun m => (c.running, m)).dropLast = 0 := by
    rw [queuedReadies_tag_dropLast]
    exact hu.interrupt_last _
  have hidle : queuedReadies c.inbox ≠ 0 →
      (u.interrupt c.backend).2 = [] ∧ u.copying (u.interrupt c.backend).1 = false := by
    intro hr
    refine hu.interrupt_idle c.backend ?_ (h.copying hr)
    have := h.pending_le
    unfold pending at this
    omega
  refine ⟨cancel_balanced hu h.balanced, by rw [cancel_pending hu]; exact h.pending_le, ?_, ?_,
    ?_⟩
  · by_cases hr : queuedReadies c.inbox = 0
    · exact queuedReadies_dropLast_append hr hlast
    · simp only [cancel, (hidle hr).1, List.map_nil, List.append_nil]
      exact h.last
  · rw [cancel_pending hu]
    exact h.outbox
  · intro hne
    by_cases hr : queuedReadies c.inbox = 0
    · apply hu.interrupt_ready
      simpa [cancel, hr] using hne
    · exact (hidle hr).2

/-- A `ReadyForQuery` in the inbox of a tame connection is the last thing on it. -/
theorem Tame.ready_last {u : Upstream σ} {c : Conn σ} (h : c.Tame u)
    {pre rest : List (Origin × BackendMessage)} {o : Origin} {status : TransactionStatus}
    (hin : c.inbox = pre ++ (o, .readyForQuery status) :: rest) :
    rest = [] ∧ c.outbox = [] ∧ u.owed c.backend = 0 ∧ u.copying c.backend = false ∧
      c.pending u = 1 := by
  have hr : queuedReadies c.inbox ≠ 0 := by
    rw [hin]; simp [BackendMessage.ready]
  have hpe : c.pending u = 1 := by
    have := h.pending_le
    unfold pending at this ⊢
    omega
  refine ⟨?_, h.outbox (by omega), ?_, h.copying hr, hpe⟩
  · have hl := h.last
    rw [hin] at hl
    cases rest with
    | nil => rfl
    | cons y ys =>
        rw [List.dropLast_append_of_ne_nil (List.cons_ne_nil _ _), List.dropLast_cons_cons,
          queuedReadies_append, queuedReadies_cons] at hl
        simp [BackendMessage.ready] at hl
  · unfold pending at hpe
    omega

/-- Taking the first message of the inbox: a `ReadyForQuery` leaves the connection quiet. -/
theorem take_tame {u : Upstream σ} {c : Conn σ} (h : c.Tame u) {o : Origin} {m : BackendMessage}
    {rest : List (Origin × BackendMessage)} (hin : c.inbox = (o, m) :: rest) :
    { c with inbox := rest, consumed := c.consumed + m.ready }.Tame u ∧
      { c with inbox := rest, consumed := c.consumed + m.ready }.pending u + m.ready =
        c.pending u := by
  have hp : { c with inbox := rest, consumed := c.consumed + m.ready }.pending u + m.ready =
      c.pending u := by
    simp only [pending, hin, queuedReadies_cons]
    omega
  have hb := h.balanced
  have hle := h.pending_le
  refine ⟨⟨?_, by omega, ?_, fun hne => h.outbox (by omega), fun hne => ?_⟩, hp⟩
  · unfold Balanced at hb ⊢
    dsimp only at hp ⊢
    omega
  · have hl := h.last
    rw [hin] at hl
    cases rest with
    | nil => rfl
    | cons y ys =>
        rw [List.dropLast_cons_cons, queuedReadies_cons] at hl
        exact (Nat.add_eq_zero_iff.mp hl).2
  · refine h.copying ?_
    rw [hin, queuedReadies_cons]
    dsimp only at hne
    omega

theorem take_quiet {u : Upstream σ} {c : Conn σ} (h : c.Tame u) {o : Origin} {m : BackendMessage}
    {rest : List (Origin × BackendMessage)} (hin : c.inbox = (o, m) :: rest) (hm : m.ready = 1) :
    { c with inbox := rest, consumed := c.consumed + m.ready }.Quiet u := by
  cases m with
  | readyForQuery status =>
      have hb := h.balanced
      have hx : c.inbox = [] ++ (o, .readyForQuery status) :: rest := hin
      obtain ⟨hrest, hout, howed, hcopy, hpend⟩ := h.ready_last hx
      unfold Balanced at hb
      exact ⟨hout, hrest, howed, hcopy, by rw [hm]; dsimp only; omega⟩
  | _ => cases hm

theorem readReply_quiet {u : Upstream σ} {c c' : Conn σ} (h : c.Tame u)
    {fails : BackendMessage → Bool} (hr : readReply fails c.inbox c = .ok c') : c'.Quiet u := by
  obtain ⟨pre, o, status, rest, hx, _, e1, _, e3, e4, e5, e6, -⟩ := readReply_spec hr
  obtain ⟨hrest, hout, howed, hcopy, hpend⟩ := h.ready_last hx
  have hb := h.balanced
  unfold Balanced at hb
  exact ⟨e3.trans hout, e1.trans hrest, by rw [e4]; exact howed, by rw [e4]; exact hcopy,
    by rw [e5, e6]; omega⟩

theorem simpleQuery_quiet {u : Upstream σ} (hu : u.InOrder) {c c' : Conn σ} (h : c.Quiet u)
    {sql : String} (hq : c.simpleQuery u sql = .ok c') : c'.Quiet u :=
  readReply_quiet (send_tame hu h.tame h.pending .proxy _) hq

end Conn

end Pgferry
