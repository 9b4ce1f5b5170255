/-
  The admin console (`admin.rs`).

  A client of the admin database is served locally: `SHOW POOLS`, `SHOW CLIENTS`, `SHOW STATS` and
  `SHOW HELP` are answered from the runtime state, every other query with an error. The console
  answers message by message and keeps no state of its own, so it does not know whether a message
  belongs to an extended batch: each message that is neither a `Query` nor a `Sync` gets an error
  and a `ReadyForQuery`, and the `Sync` that ends the batch gets one more.

  A session starts behind the startup. The client's socket takes `sendsLeft` more messages; one
  that it does not take is logged as `unsent`. The pools and the sessions that a query sees come
  with its event.

  Proved: what one event adds to the log (`step_spec`) and what a run adds (`run_spec`); and
  `admin_in_step_iff`, the console keeps the protocol in step with a client that takes all it is
  sent exactly when the client sends nothing but `Query` and `Sync`.
-/
import Pgferry.Lib.Loop
import Pgferry.Row
import Pgferry.Runtime

namespace Pgferry

open Loop

variable {σ : Type}

/-! ## Answers to queries -/

/-- What a query of the console sees, and `str::to_lowercase` with the Unicode tables. -/
structure AdminShared (σ : Type) where
  pools : PoolManager σ
  runtime : RuntimeState
  toLowercase : String → String

/-- A row of text values (`DataRowEncoder`). -/
def encodeTextRow (row : List String) : DataRow where
  data := row.flatMap fun value => putI32 value.toUTF8.toList.length ++ value.toUTF8.toList
  fieldCount := row.length

/-- `text_result`. The type is TEXT. -/
def textResult (columns : List String) (rows : List (List String)) (tag : String) :
    List BackendMessage :=
  [.rowDescription (columns.map fun name => { name := name, typeId := 25, formatCode := 0 })] ++
    rows.map (fun row => .dataRow (encodeTextRow row)) ++
    [.commandComplete (tag ++ " " ++ toString rows.length)]

namespace AdminShared

/-- `show_pools`. -/
def showPools (shared : AdminShared σ) : List BackendMessage :=
  let row (e : Σ _ : PoolKey, Pool σ) : List String :=
    let key := e.1
    let m := e.2.metrics
    let clients := (shared.runtime.sessions.filter fun s =>
      !s.isAdmin && s.user == key.user && s.database == key.database.getD "").length
    [key.database.getD "", key.user, key.route, toString clients, toString m.waiting,
      toString m.active, toString e.2.idleLen, toString e.2.config.maxSize]
  textResult ["database", "user", "route", "cl_active", "cl_waiting", "sv_active", "sv_idle",
    "max_size"] (shared.pools.entries.map row) "SHOW"

/-- `show_clients`. -/
def showClients (shared : AdminShared σ) : List BackendMessage :=
  let row (s : SessionInfo) : List String :=
    [toString s.pid, s.addr, s.user, s.database, if s.isAdmin then "admin" else "client",
      if s.attached then "attached" else "idle", s.connectedFor]
  textResult ["pid", "client", "user", "database", "kind", "state", "connected_for"]
    (shared.runtime.sessions.map row) "SHOW"

/-- `show_stats`. -/
def showStats (shared : AdminShared σ) : List BackendMessage :=
  let row (e : Σ _ : PoolKey, Pool σ) : List String :=
    let key := e.1
    let m := e.2.metrics
    [key.database.getD "", key.user, toString m.checkouts, toString m.reused, toString m.created,
      toString m.checkedIn, toString m.dropped, toString m.evicted, toString m.probed]
  textResult ["database", "user", "checkouts", "reused", "created", "checked_in", "dropped",
    "evicted", "probed"] (shared.pools.entries.map row) "SHOW"

/-- `show_help`. -/
def showHelp : List BackendMessage :=
  textResult ["command"] [["SHOW POOLS"], ["SHOW CLIENTS"], ["SHOW STATS"], ["SHOW HELP"]] "SHOW"

/-- `query.trim().trim_end_matches(';').trim().to_lowercase()`. -/
def command (shared : AdminShared σ) (query : String) : String :=
  let trimmed := ((trim query.toList).reverse.dropWhile fun ch => ch == ';').reverse
  shared.toLowercase (String.ofList (trim trimmed))

/-- The answer of `dispatch`, before its `ReadyForQuery`. -/
def outcome (shared : AdminShared σ) (query : String) : List BackendMessage :=
  let command := shared.command query
  if command = "show pools" then shared.showPools
  else if command = "show clients" then shared.showClients
  else if command = "show stats" then shared.showStats
  else if command = "show help" ∨ command = "help" then showHelp
  else
    [.errorResponse {
      severity := "ERROR"
      code := "42601"
      message := "unknown admin command " ++ debugText command ++
        "; supported: SHOW POOLS | SHOW CLIENTS | SHOW STATS | SHOW HELP" }]

end AdminShared

/-- The answer to a message that is not supported. -/
def unsupportedInfo : ErrorInfo where
  severity := "ERROR"
  code := "0A000"
  message := "pgferry admin console: only simple queries are supported"

/-! ## The session -/

inductive AdminEntry where
  | received (m : FrontendMessage)
  | sent (m : BackendMessage)
  | unsent (m : BackendMessage)
  deriving DecidableEq, Repr

/-- What one round of the loop of `run_admin_session` is woken by. -/
inductive AdminEvent (σ : Type) where
  | message (m : FrontendMessage) (shared : AdminShared σ)
  | closed
  | decodeError
  | shutdown
  | cancel

structure AdminSession where
  log : List AdminEntry
  sendsLeft : Nat
  ended : Bool

namespace AdminSession

def record (s : AdminSession) (entry : AdminEntry) : AdminSession :=
  { s with log := s.log ++ [entry] }

def stop (s : AdminSession) : AdminSession := { s with ended := true }

/-- `downstream.send`. -/
def send (s : AdminSession) (m : BackendMessage) : AdminSession × Bool :=
  match s.sendsLeft with
  | 0 => (s.record (.unsent m), false)
  | n + 1 => ({ s.record (.sent m) with sendsLeft := n }, true)

/-- Messages one after the other, up to the first that fails. -/
def sendAll (s : AdminSession) : List BackendMessage → AdminSession × Bool
  | [] => (s, true)
  | m :: ms =>
      match s.send m with
      | (s, false) => (s, false)
      | (s, true) => s.sendAll ms

/-- `dispatch`. -/
def dispatch (s : AdminSession) (shared : AdminShared σ) (query : String) :
    AdminSession × Bool :=
  match s.sendAll (shared.outcome query) with
  | (s, false) => (s, false)
  | (s, true) => s.send (.readyForQuery .idle)

/-- One round of the loop of `run_admin_session`. -/
def step (s : AdminSession) (e : AdminEvent σ) : AdminSession :=
  if s.ended then s
  else
    match e with
    | .shutdown | .closed | .decodeError | .message .terminate _ => s.stop
    | .cancel => s
    | .message .sync _ => ((s.record (.received .sync)).send (.readyForQuery .idle)).1
    | .message (.query query) shared =>
        match (s.record (.received (.query query))).dispatch shared query with
        | (s, true) => s
        | (s, false) => s.stop
    | .message m _ =>
        match (s.record (.received m)).send (.errorResponse unsupportedInfo) with
        | (s, false) => s.stop
        | (s, true) => (s.send (.readyForQuery .idle)).1

/-- A session whose client takes `sends` messages, behind its startup. -/
def new (sends : Nat) : AdminSession where
  log := []
  sendsLeft := sends
  ended := false

def after (sends : Nat) (es : List (AdminEvent σ)) : AdminSession := run step (new sends) es

end AdminSession

/-! ## What is sent -/

namespace AdminEvent

/-- The messages that answer an event. -/
def answers : AdminEvent σ → List BackendMessage
  | .shutdown | .closed | .decodeError | .message .terminate _ | .cancel => []
  | .message .sync _ => [.readyForQuery .idle]
  | .message (.query query) shared => shared.outcome query ++ [.readyForQuery .idle]
  | .message _ _ => [.errorResponse unsupportedInfo, .readyForQuery .idle]

/-- The event ends the session. -/
def ends : AdminEvent σ → Bool
  | .shutdown | .closed | .decodeError | .message .terminate _ => true
  | _ => false

/-- The message that the session processes. -/
def received : AdminEvent σ → Option FrontendMessage
  | .message .terminate _ => none
  | .message m _ => some m
  | _ => none

def entries (e : AdminEvent σ) : List AdminEntry :=
  e.received.toList.map .received ++ e.answers.map .sent

/-- A message that is neither a `Query` nor a `Sync` and does not end the session. -/
theorem unsupported {m : FrontendMessage} (ht : m ≠ .terminate) (hs : m ≠ .sync)
    (hq : ∀ query, m ≠ .query query) (shared : AdminShared σ) :
    (AdminEvent.message m shared).received = some m ∧
      (AdminEvent.message m shared).answers =
        [.errorResponse unsupportedInfo, .readyForQuery .idle] ∧
      (AdminEvent.message m shared).ends = false := by
  cases m with
  | terminate => exact absurd rfl ht
  | sync => exact absurd rfl hs
  | query query => exact absurd rfl (hq query)
  | _ => exact ⟨rfl, rfl, rfl⟩

/-- The event that ends the session is not answered. -/
theorem of_ends {e : AdminEvent σ} (h : e.ends = true) : e.answers = [] ∧ e.entries = [] := by
  cases e with
  | message m shared =>
      cases m with
      | terminate => exact ⟨rfl, rfl⟩
      | _ => cases h
  | cancel => cases h
  | _ => exact ⟨rfl, rfl⟩

end AdminEvent

/-- The events up to the one that ends the session. -/
def processed (es : List (AdminEvent σ)) : List (AdminEvent σ) := es.takeWhile fun e => !e.ends

/-- All that a client is sent that takes it. -/
def responses (es : List (AdminEvent σ)) : List BackendMessage :=
  (processed es).flatMap AdminEvent.answers

/-- The messages that the session processes. -/
def messages (es : List (AdminEvent σ)) : List FrontendMessage :=
  (processed es).filterMap AdminEvent.received

theorem processed_of_ends {e : AdminEvent σ} (h : e.ends = true) (es : List (AdminEvent σ)) :
    processed (e :: es) = [] := by
  simp [processed, h]

theorem processed_cons {e : AdminEvent σ} (h : e.ends = false) (es : List (AdminEvent σ)) :
    processed (e :: es) = e :: processed es := by
  simp [processed, h]

namespace AdminSession

/-- A message was not taken by the client. -/
def Lost (s : AdminSession) : Prop := ∃ m, .unsent m ∈ s.log

/-- The session after its client has taken the messages. -/
def sending (s : AdminSession) (ms : List BackendMessage) : AdminSession :=
  { s with log := s.log ++ ms.map .sent, sendsLeft := s.sendsLeft - ms.length }

theorem send_grows (s : AdminSession) (m : BackendMessage) : s.log <+: (s.send m).1.log := by
  unfold send
  split <;> exact List.prefix_append _ _

theorem sendAll_grows (s : AdminSession) (ms : List BackendMessage) :
    s.log <+: (s.sendAll ms).1.log := by
  induction ms generalizing s with
  | nil => exact List.prefix_refl _
  | cons m ms ih =>
      have hsend := s.send_grows m
      rw [sendAll]
      rcases hs : s.send m with ⟨t, ok⟩
      rw [hs] at hsend
      cases ok with
      | false => exact hsend
      | true => exact hsend.trans (ih t)

theorem send_spec (s : AdminSession) (m : BackendMessage) :
    (1 ≤ s.sendsLeft ∧ s.send m = (s.sending [m], true)) ∨
      (s.sendsLeft = 0 ∧ (s.send m).2 = false ∧ (s.send m).1.Lost) := by
  unfold send sending
  cases hleft : s.sendsLeft with
  | zero => exact .inr ⟨rfl, rfl, m, List.mem_append_right _ List.mem_cons_self⟩
  | succ n => exact .inl ⟨Nat.succ_pos n, rfl⟩

/-- Either the client takes all messages or one is lost. -/
theorem sendAll_spec (s : AdminSession) (ms : List BackendMessage) :
    (ms.length ≤ s.sendsLeft ∧ s.sendAll ms = (s.sending ms, true)) ∨
      (s.sendsLeft < ms.length ∧ (s.sendAll ms).2 = false ∧ (s.sendAll ms).1.Lost) := by
  induction ms generalizing s with
  | nil =>
      refine .inl ⟨Nat.zero_le _, ?_⟩
      simp [sendAll, sending]
  | cons m ms ih =>
      rw [sendAll]
      rcases s.send_spec m with ⟨hroom, hsend⟩ | ⟨hroom, hfail, hlost⟩
      · rw [hsend]
        have hleft : (s.sending [m]).sendsLeft = s.sendsLeft - 1 := rfl
        rcases ih (s.sending [m]) with ⟨hmore, hall⟩ | ⟨hmore, hrest⟩
        · refine .inl ⟨by rw [List.length_cons]; omega, hall.trans ?_⟩
          simp only [sending, List.map_cons, List.map_nil, List.append_assoc, List.singleton_append,
            List.length_cons, List.length_nil, Nat.sub_sub, Nat.add_comm]
        · exact .inr ⟨by rw [List.length_cons]; omega, hrest⟩
      · refine .inr ⟨by rw [List.length_cons]; omega, ?_⟩
        rcases hsend : s.send m with ⟨t, ok⟩
        rw [hsend] at hfail hlost
        cases hfail
        exact ⟨rfl, hlost⟩

theorem Lost.mono {s t : AdminSession} (h : s.Lost) (hlog : s.log <+: t.log) : t.Lost := by
  obtain ⟨m, hm⟩ := h
  exact ⟨m, hlog.subset hm⟩

/-- `dispatch` sends the answer and a `ReadyForQuery`, and stops at the first loss. -/
theorem dispatch_eq (s : AdminSession) (shared : AdminShared σ) (query : String) :
    s.dispatch shared query = s.sendAll (shared.outcome query ++ [.readyForQuery .idle]) := by
  unfold dispatch
  generalize shared.outcome query = ms
  induction ms generalizing s with
  | nil =>
      rw [List.nil_append, sendAll, sendAll]
      dsimp only
      rcases s.send (.readyForQuery .idle) with ⟨t, ok⟩
      cases ok <;> rfl
  | cons m ms ih =>
      rw [List.cons_append, sendAll, sendAll]
      rcases s.send m with ⟨t, ok⟩
      cases ok with
      | false => rfl
      | true => exact ih t

theorem step_grows (s : AdminSession) (e : AdminEvent σ) : s.log <+: (s.step e).log := by
  have hrecord : ∀ m, s.log <+: (s.record (.received m)).log := fun m => List.prefix_append _ _
  unfold step
  split
  · exact List.prefix_refl _
  · split
    case h_1 => exact List.prefix_refl _
    case h_2 => exact List.prefix_refl _
    case h_3 => exact List.prefix_refl _
    case h_4 => exact List.prefix_refl _
    case h_5 => exact List.prefix_refl _
    case h_6 => exact (hrecord _).trans (send_grows _ _)
    case h_7 query shared =>
      have hsend := sendAll_grows (s.record (.received (.query query)))
        (shared.outcome query ++ [.readyForQuery .idle])
      rw [← dispatch_eq] at hsend
      split
      case h_1 t hd =>
        rw [hd] at hsend
        exact (hrecord _).trans hsend
      case h_2 t hd =>
        rw [hd] at hsend
        exact (hrecord _).trans hsend
    case h_8 m _ _ _ _ =>
      have hsend := send_grows (s.record (.received m)) (.errorResponse unsupportedInfo)
      split
      case h_1 t hs =>
        rw [hs] at hsend
        exact (hrecord _).trans hsend
      case h_2 t hs =>
        rw [hs] at hsend
        exact ((hrecord _).trans hsend).trans (send_grows _ _)

/-- Either the client takes the whole answer of the event, or a message of it is lost. -/
theorem step_spec {s : AdminSession} (hlive : s.ended = false) (e : AdminEvent σ) :
    (e.answers.length ≤ s.sendsLeft ∧ s.step e =
      { log := s.log ++ e.entries
        sendsLeft := s.sendsLeft - e.answers.length
        ended := e.ends }) ∨
    (s.sendsLeft < e.answers.length ∧ (s.step e).Lost) := by
  have hnot : ¬ s.ended = true := by
    rw [hlive]
    exact Bool.false_ne_true
  have hstop : s.stop = { log := s.log ++ [], sendsLeft := s.sendsLeft - 0, ended := true } := by
    rw [List.append_nil]
    rfl
  unfold step
  rw [if_neg hnot]
  split
  case h_1 => exact .inl ⟨Nat.zero_le _, hstop⟩
  case h_2 => exact .inl ⟨Nat.zero_le _, hstop⟩
  case h_3 => exact .inl ⟨Nat.zero_le _, hstop⟩
  case h_4 => exact .inl ⟨Nat.zero_le _, hstop⟩
  case h_5 =>
    refine .inl ⟨Nat.zero_le _, ?_⟩
    rw [show (AdminEvent.cancel : AdminEvent σ).entries = [] from rfl, List.append_nil,
      show (AdminEvent.cancel : AdminEvent σ).ends = s.ended from hlive.symm]
    rfl
  case h_6 shared =>
    rcases send_spec (s.record (.received .sync)) (.readyForQuery .idle) with
      ⟨hroom, hsend⟩ | ⟨hroom, -, hlost⟩
    · refine .inl ⟨hroom, ?_⟩
      rw [hsend]
      simp [sending, record, AdminEvent.entries, AdminEvent.received, AdminEvent.answers,
        AdminEvent.ends, hlive]
    · exact .inr ⟨Nat.lt_of_le_of_lt (Nat.le_of_eq hroom) Nat.one_pos, hlost⟩
  case h_7 query shared =>
    rw [dispatch_eq]
    rcases sendAll_spec (s.record (.received (.query query)))
      (shared.outcome query ++ [.readyForQuery .idle]) with ⟨hroom, hsend⟩ | ⟨hroom, hfail, hlost⟩
    · refine .inl ⟨hroom, ?_⟩
      rw [hsend]
      simp [sending, record, AdminEvent.entries, AdminEvent.received, AdminEvent.answers,
        AdminEvent.ends, hlive]
    · refine .inr ⟨hroom, ?_⟩
      split
      case h_1 t hd =>
        rw [hd] at hfail
        cases hfail
      case h_2 t hd =>
        rw [hd] at hlost
        exact hlost
  case h_8 m shared ht hs hq =>
    obtain ⟨hreceived, hanswers, hends⟩ := AdminEvent.unsupported ht hs hq shared
    unfold AdminEvent.entries
    rw [hreceived, hanswers, hends]
    rcases send_spec (s.record (.received m)) (.errorResponse unsupportedInfo) with
      ⟨hroom, hsend⟩ | ⟨hroom, hfail, hlost⟩
    · rw [hsend]
      rcases send_spec ((s.record (.received m)).sending [.errorResponse unsupportedInfo])
        (.readyForQuery .idle) with ⟨hmore, hready⟩ | ⟨hmore, -, hlost⟩
      · have hleft : 1 ≤ s.sendsLeft - 1 := hmore
        refine .inl ⟨show 2 ≤ s.sendsLeft by omega, ?_⟩
        show (((s.record (.received m)).sending [.errorResponse unsupportedInfo]).send
          (.readyForQuery .idle)).1 = _
        rw [hready]
        simp [sending, record, hlive, Nat.sub_sub]
      · have hleft : s.sendsLeft - 1 = 0 := hmore
        exact .inr ⟨show s.sendsLeft < 2 by omega, hlost⟩
    · have hleft : s.sendsLeft = 0 := hroom
      refine .inr ⟨show s.sendsLeft < 2 by omega, ?_⟩
      split
      case h_1 t hd =>
        rw [hd] at hlost
        exact hlost
      case h_2 t hd =>
        rw [hd] at hfail
        cases hfail

theorem step_ended {s : AdminSession} (h : s.ended = true) (e : AdminEvent σ) : s.step e = s :=
  if_pos h

theorem run_ended {s : AdminSession} (h : s.ended = true) (es : List (AdminEvent σ)) :
    run step s es = s := by
  induction es with
  | nil => rfl
  | cons e es ih => rw [run_cons, step_ended h, ih]

theorem run_grows (s : AdminSession) (es : List (AdminEvent σ)) :
    s.log <+: (run step s es).log := by
  induction es generalizing s with
  | nil => exact List.prefix_refl _
  | cons e es ih => exact (s.step_grows e).trans (ih (s.step e))

/-- A run logs every event up to the end with its whole answer, or a message is lost. -/
theorem run_spec {s : AdminSession} (hlive : s.ended = false) (es : List (AdminEvent σ)) :
    ((responses es).length ≤ s.sendsLeft ∧
      (run step s es).log = s.log ++ (processed es).flatMap AdminEvent.entries) ∨
    (s.sendsLeft < (responses es).length ∧ (run step s es).Lost) := by
  induction es generalizing s with
  | nil => exact .inl ⟨Nat.zero_le _, (List.append_nil _).symm⟩
  | cons e es ih =>
      rw [run_cons]
      cases hends : e.ends with
      | true =>
          obtain ⟨hanswers, hentries⟩ := AdminEvent.of_ends hends
          refine .inl ⟨?_, ?_⟩
          · unfold responses
            rw [processed_of_ends hends]
            exact Nat.zero_le _
          · rcases step_spec hlive e with ⟨-, hstep⟩ | ⟨hroom, -⟩
            · rw [hstep, run_ended hends, processed_of_ends hends, hentries]
              rfl
            · rw [hanswers] at hroom
              exact absurd hroom (Nat.not_lt_zero _)
      | false =>
          have hresponses : (responses (e :: es)).length =
              e.answers.length + (responses es).length := by
            unfold responses
            rw [processed_cons hends, List.flatMap_cons, List.length_append]
          rw [hresponses, processed_cons hends, List.flatMap_cons]
          rcases step_spec hlive e with ⟨hroom, hstep⟩ | ⟨hroom, hlost⟩
          · have hlog : (s.step e).log = s.log ++ e.entries := by rw [hstep]
            have hleft : (s.step e).sendsLeft = s.sendsLeft - e.answers.length := by rw [hstep]
            have hnext : (s.step e).ended = false := by rw [hstep]; exact hends
            rcases ih hnext with ⟨hmore, hrun⟩ | ⟨hmore, hlost⟩
            · refine .inl ⟨by omega, ?_⟩
              rw [hrun, hlog, List.append_assoc]
            · exact .inr ⟨by omega, hlost⟩
          · exact .inr ⟨by omega, hlost.mono (run_grows _ es)⟩

end AdminSession

/-! ## In step -/

namespace AdminEntry

def received? : AdminEntry → Option FrontendMessage
  | received m => some m
  | _ => none

def sent? : AdminEntry → Option BackendMessage
  | sent m => some m
  | _ => none

end AdminEntry

def receivedOf (log : List AdminEntry) : List FrontendMessage :=
  log.filterMap AdminEntry.received?

def sentOf (log : List AdminEntry) : List BackendMessage := log.filterMap AdminEntry.sent?

/-- The messages of an extended batch before its `Sync`. -/
def FrontendMessage.isBatched : FrontendMessage → Bool
  | parse _ _ _ | bind _ _ | describe _ _ | execute _ | close _ _ | flush => true
  | _ => false

/-- `batch` is what was logged from the first message of an extended batch up to its `Sync`, and
    `tail` what was logged for the `Sync`. -/
structure IsBatch (before batch tail after : List AdminEntry) : Prop where
  starts : ∃ m rest, batch = .received m :: rest
  extended : ∀ m ∈ receivedOf batch, m.isBatched = true
  first : ∀ m ∈ (receivedOf before).getLast?, m.isBatched = false
  answers : receivedOf tail = []
  next : ∀ entry ∈ after.head?, entry.received? ≠ none

/-- As many `ReadyForQuery` messages as `Query` and `Sync` messages; every batch is answered with
    one error and, at its `Sync`, with one `ReadyForQuery`. -/
structure InStep (log : List AdminEntry) : Prop where
  count : readies (sentOf log) = ((receivedOf log).map FrontendMessage.cycles).sum
  batches : ∀ before batch tail after,
    log = before ++ (batch ++ .received .sync :: tail) ++ after → IsBatch before batch tail after →
      (∃ info, sentOf batch = [.errorResponse info]) ∧ sentOf tail = [.readyForQuery .idle]

/-- A client that takes all it is sent finds the protocol in step. -/
def AdminSession.KeepsStep (s : AdminSession) : Prop := ¬ s.Lost → InStep s.log

/-! ## Counting -/

theorem readies_textResult (columns : List String) (rows : List (List String)) (tag : String) :
    readies (textResult columns rows tag) = 0 := by
  refine readies_eq_zero fun m hm => ?_
  unfold textResult at hm
  simp only [List.mem_append, List.mem_singleton, List.mem_map] at hm
  rcases hm with (rfl | ⟨row, -, rfl⟩) | rfl <;> rfl

theorem readies_outcome (shared : AdminShared σ) (query : String) :
    readies (shared.outcome query) = 0 := by
  unfold AdminShared.outcome
  dsimp only
  split
  · exact readies_textResult _ _ _
  · split
    · exact readies_textResult _ _ _
    · split
      · exact readies_textResult _ _ _
      · split
        · exact readies_textResult _ _ _
        · rfl

/-- Every message that is processed is answered with one `ReadyForQuery`. -/
theorem readies_answers (e : AdminEvent σ) :
    readies e.answers = e.received.toList.length := by
  cases e with
  | message m shared =>
      cases m with
      | query query =>
          show readies (shared.outcome query ++ [.readyForQuery .idle]) = 1
          rw [readies_append, readies_outcome]
          rfl
      | _ => rfl
  | _ => rfl

theorem receivedOf_entries (e : AdminEvent σ) : receivedOf e.entries = e.received.toList := by
  unfold receivedOf AdminEvent.entries
  rw [List.filterMap_append]
  have hsent : (e.answers.map AdminEntry.sent).filterMap AdminEntry.received? = [] := by
    simp [List.filterMap_map, AdminEntry.received?, Function.comp_def]
  rw [hsent, List.append_nil]
  cases e.received <;> rfl

theorem sentOf_entries (e : AdminEvent σ) : sentOf e.entries = e.answers := by
  unfold sentOf AdminEvent.entries
  rw [List.filterMap_append]
  have hreceived : (e.received.toList.map AdminEntry.received).filterMap AdminEntry.sent? = [] := by
    cases e.received <;> rfl
  rw [hreceived, List.nil_append]
  simp [List.filterMap_map, AdminEntry.sent?, Function.comp_def]

/-- What the log of a run tells of its messages and answers. -/
theorem receivedOf_run (es : List (AdminEvent σ)) :
    receivedOf ((processed es).flatMap AdminEvent.entries) = messages es := by
  unfold messages receivedOf
  generalize processed es = ps
  induction ps with
  | nil => rfl
  | cons e ps ih =>
      have hentries : e.entries.filterMap AdminEntry.received? = e.received.toList :=
        receivedOf_entries e
      rw [List.flatMap_cons, List.filterMap_append, ih, hentries, List.filterMap_cons]
      cases e.received <;> rfl

theorem sentOf_run (es : List (AdminEvent σ)) :
    sentOf ((processed es).flatMap AdminEvent.entries) = responses es := by
  unfold responses sentOf
  generalize processed es = ps
  induction ps with
  | nil => rfl
  | cons e ps ih =>
      have hentries : e.entries.filterMap AdminEntry.sent? = e.answers := sentOf_entries e
      rw [List.flatMap_cons, List.filterMap_append, ih, hentries, List.flatMap_cons]

theorem readies_responses (es : List (AdminEvent σ)) :
    readies (responses es) = (messages es).length := by
  unfold responses messages
  generalize processed es = ps
  induction ps with
  | nil => rfl
  | cons e ps ih =>
      rw [List.flatMap_cons, readies_append, ih, readies_answers, List.filterMap_cons]
      cases e.received with
      | none => exact Nat.zero_add _
      | some m => exact Nat.add_comm 1 _

/-- Each message counts for one at most. -/
theorem sum_cycles_eq_length_iff (ms : List FrontendMessage) :
    ms.length = (ms.map FrontendMessage.cycles).sum ↔ ∀ m ∈ ms, m.cycles = 1 := by
  have hle : ∀ l : List FrontendMessage, (l.map FrontendMessage.cycles).sum ≤ l.length := by
    intro l
    induction l with
    | nil => exact Nat.le_refl _
    | cons m l ih =>
        have hm := m.cycles_le_one
        simp only [List.map_cons, List.sum_cons, List.length_cons]
        omega
  induction ms with
  | nil => exact iff_of_true rfl nofun
  | cons m ms ih =>
      have hm := m.cycles_le_one
      have hms := hle ms
      simp only [List.map_cons, List.sum_cons, List.length_cons, List.forall_mem_cons, ← ih]
      omega

theorem FrontendMessage.cycles_of_isBatched {m : FrontendMessage} (h : m.isBatched = true) :
    m.cycles = 0 := by
  cases m <;> first
    | rfl
    | cases h

/-- The log of a client that takes everything. -/
theorem inStep_iff (es : List (AdminEvent σ)) :
    InStep ((processed es).flatMap AdminEvent.entries) ↔ ∀ m ∈ messages es, m.cycles = 1 := by
  rw [← sum_cycles_eq_length_iff, ← readies_responses, ← sentOf_run, ← receivedOf_run]
  refine ⟨InStep.count, fun h => ⟨h, fun before batch tail after hlog hbatch => ?_⟩⟩
  -- no message of the log belongs to a batch
  rw [sentOf_run, readies_responses, receivedOf_run, sum_cycles_eq_length_iff] at h
  obtain ⟨m, rest, rfl⟩ := hbatch.starts
  have hmem : m ∈ messages es := by
    rw [← receivedOf_run, hlog]
    exact List.mem_filterMap.mpr ⟨.received m, by simp, rfl⟩
  have hone := h m hmem
  have hzero := FrontendMessage.cycles_of_isBatched (hbatch.extended m
    (List.mem_filterMap.mpr ⟨.received m, List.mem_cons_self, rfl⟩))
  omega

theorem not_lost_entries (es : List (AdminEvent σ)) (m : BackendMessage) :
    .unsent m ∉ (processed es).flatMap AdminEvent.entries := by
  intro h
  obtain ⟨e, -, he⟩ := List.mem_flatMap.mp h
  unfold AdminEvent.entries at he
  simp at he

/-- A client that takes everything, in full: nothing of its log is unsent. -/
theorem AdminSession.after_heard {sends : Nat} {es : List (AdminEvent σ)}
    (hroom : (responses es).length ≤ sends) :
    ¬ (AdminSession.after sends es).Lost ∧
      (AdminSession.after sends es).log = (processed es).flatMap AdminEvent.entries := by
  have hlive : (AdminSession.new sends).ended = false := rfl
  rcases AdminSession.run_spec hlive es with ⟨-, hlog⟩ | ⟨hshort, -⟩
  · have hlog' : (AdminSession.after sends es).log =
        (processed es).flatMap AdminEvent.entries := hlog
    refine ⟨?_, hlog'⟩
    rintro ⟨m, hm⟩
    rw [hlog'] at hm
    exact not_lost_entries es m hm
  · exact absurd hroom (Nat.not_le.mpr hshort)

/-- The console keeps the protocol in step for a client that takes all it is sent exactly when the
    messages that it processes are `Query` and `Sync`. -/
theorem admin_in_step_iff (sends : Nat) (es : List (AdminEvent σ)) :
    (AdminSession.after sends es).KeepsStep ↔
      ((responses es).length ≤ sends → ∀ m ∈ messages es, m.cycles = 1) := by
  unfold AdminSession.KeepsStep
  by_cases hroom : (responses es).length ≤ sends
  · obtain ⟨hheard, hlog⟩ := AdminSession.after_heard hroom
    rw [hlog, inStep_iff]
    exact ⟨fun h _ => h hheard, fun h _ => h hroom⟩
  · have hlive : (AdminSession.new sends).ended = false := rfl
    rcases AdminSession.run_spec hlive es with ⟨hle, -⟩ | ⟨-, hlost⟩
    · exact absurd hle hroom
    · exact ⟨fun _ hle => absurd hle hroom, fun _ hheard => absurd hlost hheard⟩

namespace Sample

/-- A console without pools and sessions. -/
def console : AdminShared Unit where
  pools := ∅
  runtime := { sessions := [], total := 0 }
  toLowercase := String.toLower

/-- A prepared statement on the console. -/
def preparedShow : List (AdminEvent Unit) :=
  [.message (.parse none "SHOW POOLS" []) console, .message (.bind none none) console,
    .message (.execute none) console, .message .sync console]

end Sample

/-- The driver waits for one `ReadyForQuery` and gets four. -/
theorem admin_out_of_step : ¬ (AdminSession.after 10 Sample.preparedShow).KeepsStep := by
  intro h
  have hroom : (responses Sample.preparedShow).length ≤ 10 := by decide
  have hstep := (h (AdminSession.after_heard hroom).1).count
  exact absurd hstep (by decide)

end Pgferry
