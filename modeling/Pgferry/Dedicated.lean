/-
  The prepared statements of a dedicated connection.

  `Dedicated` is what a client without a pooler would have: the statements of its one server
  connection, and whether that server skips to the next `Sync`. `receive` is the effect of one
  message of the client: a `Parse` of a text that the server accepts adds the statement, a `Close`
  of a statement drops it, a `Close` of a portal changes nothing. An error fails the batch. The one
  liberty is a second `Parse` of a statement with the same text and types, which succeeds.

  `Core.dedicated` is what the messages that a session has read so far would have produced.
  `Core.Vouched` is what this asks of the answers that the session makes up: a `ParseComplete` of
  its own confirms a statement that the dedicated connection has, an error `42P05` is about a name
  that it has.

  Proved: the three things that a message can do to the statements (`receive_cases`), and what a
  log grows by that needs no vouching (`Vouched.plain`).
-/
import Mathlib.Data.List.Induction
import Pgferry.Session.Handles

namespace Pgferry

open Loop

variable {σ κ : Type}

/-! ## One connection for one client -/

structure Dedicated where
  statements : StatementRegistry
  /-- A message of the current batch has failed. -/
  skips : Bool

namespace Dedicated

/-- A new connection. -/
def new : Dedicated where
  statements := ∅
  skips := false

/-- A `Parse` of the named statement `name`. -/
def define (d : Dedicated) (name query : String) (typeOids : List Nat) : Dedicated :=
  match d.statements.lookup name with
  | none => { d with statements := d.statements.insert name (query, typeOids) }
  | some known => if known = (query, typeOids) then d else { d with skips := true }

/-- One message. `accepts` are the texts and types that the server takes. -/
def receive (accepts : String → List Nat → Bool) (d : Dedicated) : FrontendMessage → Dedicated
  | .parse name query typeOids =>
      if d.skips then d
      else if accepts query typeOids then
        if name.getD "" = "" then d else d.define (name.getD "") query typeOids
      else { d with skips := true }
  | .close .statement (some name) =>
      if d.skips then d else { d with statements := d.statements.erase name }
  | .sync => { d with skips := false }
  | _ => d

/-- The connection after the messages `ms`. -/
def after (accepts : String → List Nat → Bool) (ms : List FrontendMessage) : Dedicated :=
  ms.foldl (receive accepts) new

section Receive

variable {accepts : String → List Nat → Bool} {d : Dedicated} {name query : String}
  {typeOids : List Nat} {m : FrontendMessage}

theorem after_concat (ms : List FrontendMessage) (m : FrontendMessage) :
    after accepts (ms ++ [m]) = (after accepts ms).receive accepts m :=
  List.foldl_append

theorem erase_unknown {registry : StatementRegistry} (h : name ∉ registry) :
    registry.erase name = registry :=
  AList.ext (List.kerase_of_notMem_keys h)

theorem define_known (h : name ∈ d.statements) :
    (d.define name query typeOids).statements = d.statements := by
  obtain ⟨known, hknown⟩ := Option.isSome_iff_exists.mp (AList.lookup_isSome.mpr h)
  unfold define
  rw [hknown]
  dsimp only
  split <;> rfl

/-- A new statement of a text that is accepted. -/
theorem receive_define (hm : pendingParse m = some (name, query, typeOids))
    (hskips : d.skips = false) (haccepts : accepts query typeOids = true)
    (hnew : d.statements.lookup name = none) :
    (d.receive accepts m).statements = d.statements.insert name (query, typeOids) := by
  obtain ⟨hname, rfl⟩ := parse_of_pendingParse hm
  simp only [receive, hskips, haccepts, Option.getD_some, hname, define, hnew]
  rfl

theorem receive_close (hskips : d.skips = false) :
    (d.receive accepts (.close .statement (some name))).statements = d.statements.erase name := by
  simp only [receive, hskips]
  rfl

/-- A message that changes the statements is the `Parse` of a new one or the `Close` of an old
    one, outside a failed batch. -/
theorem receive_cases (accepts : String → List Nat → Bool) (d : Dedicated) (m : FrontendMessage) :
    (d.receive accepts m).statements = d.statements ∨
    d.skips = false ∧
      ((∃ name query typeOids, pendingParse m = some (name, query, typeOids) ∧
        name ∉ d.statements) ∨
      ∃ name, m = .close .statement (some name) ∧ name ∈ d.statements) := by
  cases hskips : d.skips with
  | true =>
      left
      cases m with
      | parse name query typeOids => simp only [receive, hskips, if_true]
      | close target name =>
          cases target <;> cases name <;> simp only [receive, hskips, if_true]
      | _ => rfl
  | false =>
      cases m with
      | parse name query typeOids =>
          simp only [receive, hskips, Bool.false_eq_true, if_false]
          split
          · split
            case isTrue => exact .inl rfl
            case isFalse hname =>
              by_cases hmem : name.getD "" ∈ d.statements
              · exact .inl (define_known hmem)
              · cases name with
                | none => exact absurd rfl hname
                | some name =>
                    exact .inr ⟨trivial, .inl ⟨name, query, typeOids, if_neg hname, hmem⟩⟩
          · exact .inl rfl
      | close target name =>
          cases target with
          | portal => exact .inl rfl
          | statement =>
              cases name with
              | none => exact .inl rfl
              | some name =>
                  by_cases hmem : name ∈ d.statements
                  · exact .inr ⟨rfl, .inr ⟨name, rfl, hmem⟩⟩
                  · exact .inl ((receive_close hskips).trans (erase_unknown hmem))
      | _ => exact .inl rfl

theorem receive_known (h : name ∈ d.statements) (query : String) (typeOids : List Nat) :
    (d.receive accepts (.parse (some name) query typeOids)).statements = d.statements := by
  rcases receive_cases accepts d (.parse (some name) query typeOids) with
    hsame | ⟨-, ⟨_, _, _, hm, hnew⟩ | ⟨_, hm, -⟩⟩
  · exact hsame
  · obtain ⟨-, heq⟩ := parse_of_pendingParse hm
    cases heq
    exact absurd h hnew
  · cases hm

/-- The unnamed statement is not among them. -/
theorem after_unnamed (accepts : String → List Nat → Bool) (ms : List FrontendMessage) :
    "" ∉ (after accepts ms).statements := by
  induction ms using List.reverseRecOn with
  | nil => exact AList.notMem_empty ""
  | append_singleton ms m ih =>
      rw [after_concat]
      rcases receive_cases accepts (after accepts ms) m with hsame | ⟨hskips, hnew | hclose⟩
      · rw [hsame]
        exact ih
      · obtain ⟨name, query, typeOids, hm, hnew⟩ := hnew
        obtain ⟨hname, rfl⟩ := parse_of_pendingParse hm
        cases haccepts : accepts query typeOids with
        | false =>
            simp only [receive, hskips, haccepts]
            exact ih
        | true =>
            rw [receive_define hm hskips haccepts (AList.lookup_eq_none.mpr hnew)]
            intro hmem
            exact ((AList.mem_insert _).mp hmem).elim (fun h => hname h.symm) ih
      · obtain ⟨name, rfl, -⟩ := hclose
        rw [receive_close hskips]
        exact fun hmem => ih (AList.mem_erase.mp hmem).2

end Receive

end Dedicated

/-! ## What a session has read -/

/-- The message of a `recv` entry. -/
def Entry.received? : Entry → Option FrontendMessage
  | .recv _ m => some m
  | _ => none

/-- The messages of the client, in order. -/
def received (log : List Entry) : List FrontendMessage := log.filterMap Entry.received?

/-- What the messages of the client would have produced on a connection of its own. -/
def Core.dedicated (accepts : String → List Nat → Bool) (c : Core σ) : Dedicated :=
  Dedicated.after accepts (received c.log)

theorem received_append (log es : List Entry) :
    received (log ++ es) = received log ++ received es :=
  List.filterMap_append

/-! ## What a session answers for the server

  A `Parse` that the pump answers itself never reaches a server. Its `ParseComplete` is honest if
  the statement was there before, with the same text and types; its `42P05` if the name was. -/

/-- The pump's own verdict on a `Parse`. -/
def Entry.isVerdict : Entry → Bool
  | .sent true _ .parseComplete => true
  | .sent true _ (.errorResponse info) => decide (info.code = "42P05")
  | _ => false

/-- The latest message of `log` is a `Parse` of a name for which the dedicated connection had the
    statement `known` before. -/
def Reparses (accepts : String → List Nat → Bool) (log : List Entry)
    (name query : String) (typeOids : List Nat) (known : String × List Nat) : Prop :=
  ∃ before, received log = before ++ [.parse (some name) query typeOids] ∧
    (Dedicated.after accepts before).statements.lookup name = some known

/-- What `log` has to say for the next entry. -/
def Entry.Vouched (accepts : String → List Nat → Bool) (log : List Entry) : Entry → Prop
  | .sent true _ .parseComplete =>
      ∃ name query typeOids, Reparses accepts log name query typeOids (query, typeOids)
  | .sent true _ (.errorResponse info) => info.code = "42P05" →
      ∃ name query typeOids known, Reparses accepts log name query typeOids known
  | _ => True

theorem Entry.vouched_of_isVerdict {accepts : String → List Nat → Bool} {log : List Entry}
    {x : Entry} (h : x.isVerdict = false) : x.Vouched accepts log := by
  cases x with
  | sent own o m =>
      cases own with
      | false => exact trivial
      | true =>
          cases m with
          | parseComplete => cases h
          | errorResponse info => exact fun hcode => absurd hcode (of_decide_eq_false h)
          | _ => exact trivial
  | _ => exact trivial

namespace Core

/-- Every entry of the log is vouched for by those before. -/
def Vouched (accepts : String → List Nat → Bool) (c : Core σ) : Prop :=
  Along (fun log x => log ++ [x]) (Entry.Vouched accepts) [] c.log

section Vouched

variable {accepts : String → List Nat → Bool} {c d : Core σ}

theorem run_log (log es : List Entry) : run (fun log x => log ++ [x]) log es = log ++ es := by
  induction es generalizing log with
  | nil => exact (List.append_nil log).symm
  | cons x es ih =>
      rw [run_cons, ih, List.append_assoc]
      rfl

/-- What the log grows by is vouched for by what it was. -/
theorem Vouched.grow {es : List Entry} (hc : c.Vouched accepts) (h : d.log = c.log ++ es)
    (hes : Along (fun log x => log ++ [x]) (Entry.Vouched accepts) c.log es) :
    d.Vouched accepts := by
  unfold Vouched
  rw [h, along_append, run_log]
  exact ⟨hc, hes⟩

theorem along_plain {es : List Entry} (hes : ∀ x ∈ es, x.isVerdict = false) (log : List Entry) :
    Along (fun log x => log ++ [x]) (Entry.Vouched accepts) log es := by
  induction es generalizing log with
  | nil => trivial
  | cons x es ih =>
      obtain ⟨hx, hes⟩ := List.forall_mem_cons.mp hes
      exact ⟨Entry.vouched_of_isVerdict hx, ih hes _⟩

/-- A log that grows by other entries stays vouched for. -/
theorem Vouched.plain {es : List Entry} (hc : c.Vouched accepts) (h : d.log = c.log ++ es)
    (hes : ∀ x ∈ es, x.isVerdict = false) : d.Vouched accepts :=
  hc.grow h (along_plain hes c.log)

end Vouched

end Core

end Pgferry
