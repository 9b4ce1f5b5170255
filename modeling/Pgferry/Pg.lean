/-
  A PostgreSQL backend, as far as a pooler can tell one from another.

  `pg d` is an `Upstream`: prepared statements and portals, the transaction status, the reported
  parameters, COPY-in, and the rule that after an error in an extended batch the backend skips
  to the next `Sync` (or to a `Query`, since each is answered). What a statement does is left to
  the dialect `d`, so no SQL is parsed.

  Proved: `pg_inOrder`, every such backend answers each `Query` and each `Sync` with one
  `ReadyForQuery`.
-/
import Pgferry.Conn

namespace Pgferry

/-- What executing a statement does. `reject` fails at `Parse`, `fail` when it is executed. -/
inductive Effect where
  | rows
  | begin
  | commit
  | set (name value : String)
  | discardAll
  | copyIn
  | fail
  | reject
  deriving DecidableEq, Repr

/-- The statements a server knows and the parameters it starts a session with. -/
structure Dialect where
  effect : String → Effect
  defaults : Params

/-- A dialect of a few statements, for concrete runs. Any other text returns rows. -/
def Dialect.sample : Dialect where
  effect sql := ([("BEGIN", .begin), ("COMMIT", .commit), ("ROLLBACK", .commit),
    ("DISCARD ALL", .discardAll), ("COPY t FROM STDIN", .copyIn), ("SELECT 1/0", .fail),
    ("SELEC 1", .reject), ("SET application_name = 'a'", .set "application_name" "a"),
    ("SET application_name = ''", .set "application_name" "")].lookup sql).getD .rows
  defaults := (∅ : Params).insert "application_name" ""

structure Pg where
  statements : StringMap (String × List Nat)
  portals : StringMap String
  status : TransactionStatus
  skipping : Bool
  copying : Bool
  params : Params
  deriving DecidableEq

namespace Pg

/-- A backend right after the connect. -/
def fresh (d : Dialect) : Pg where
  statements := ∅
  portals := ∅
  status := .idle
  skipping := false
  copying := false
  params := d.defaults

def error (code message : String) : BackendMessage :=
  .errorResponse { severity := "ERROR", code := code, message := message }

/-- An error ends the copy and fails an open transaction. -/
def failed (b : Pg) : Pg :=
  { b with status := if b.status = .idle then .idle else .error, copying := false }

/-- Execute one statement outside COPY. -/
def execute (d : Dialect) (b : Pg) (e : Effect) : Pg × List BackendMessage :=
  if b.status = .error ∧ e ≠ .commit then
    (b, [error "25P02" "current transaction is aborted"])
  else
    match e with
    | .rows => (b, [.commandComplete "SELECT 1"])
    | .begin => ({ b with status := .transaction }, [.commandComplete "BEGIN"])
    | .commit => ({ b with status := .idle }, [.commandComplete "COMMIT"])
    | .set name value =>
        ({ b with params := b.params.insert name value },
          [.commandComplete "SET", .parameterStatus name value])
    | .discardAll =>
        if b.status ≠ .idle then
          (b.failed, [error "25001" "DISCARD ALL cannot run inside a transaction block"])
        else
          ({ b with params := d.defaults, statements := ∅, portals := ∅ },
            .commandComplete "DISCARD ALL" ::
              d.defaults.entries.map fun p => .parameterStatus p.1 p.2)
    | .copyIn => (b.failed, [error "0A000" "COPY is not supported here"])
    | .fail => (b.failed, [error "22012" "division by zero"])
    | .reject => (b.failed, [error "42601" "syntax error"])

/-- Report an error and skip to the next `Sync`. -/
def skip (b : Pg) (code message : String) : Pg × List BackendMessage :=
  ({ b.failed with skipping := true }, [error code message])

/-- A `Parse` drops the old unnamed statement before it looks at the new one. -/
def release (b : Pg) (key : String) : Pg :=
  { b with statements := if key = "" then b.statements.erase key else b.statements }

/-- The extended protocol. The unnamed statement can be replaced, a named one cannot. -/
def extended (d : Dialect) (b : Pg) : FrontendMessage → Pg × List BackendMessage
  | .parse name query typeOids =>
      let key := name.getD ""
      let b := b.release key
      if d.effect query = .reject then b.skip "42601" "syntax error"
      else if key ≠ "" ∧ key ∈ b.statements then
        b.skip "42P05" "prepared statement already exists"
      else ({ b with statements := b.statements.insert key (query, typeOids) }, [.parseComplete])
  | .bind portal statement =>
      match b.statements.lookup (statement.getD "") with
      | none => b.skip "26000" "prepared statement does not exist"
      | some s => ({ b with portals := b.portals.insert (portal.getD "") s.1 }, [.bindComplete])
  | .describe .statement name =>
      if name.getD "" ∈ b.statements then (b, [.parameterDescription, .noData])
      else b.skip "26000" "prepared statement does not exist"
  | .describe .portal name =>
      if name.getD "" ∈ b.portals then (b, [.noData])
      else b.skip "34000" "portal does not exist"
  | .execute portal =>
      match b.portals.lookup (portal.getD "") with
      | none => b.skip "34000" "portal does not exist"
      | some sql =>
          let r := execute d b (d.effect sql)
          ({ r.1 with skipping := r.2.any BackendMessage.isError }, r.2)
  | .close .statement name =>
      ({ b with statements := b.statements.erase (name.getD "") }, [.closeComplete])
  | .close .portal name =>
      ({ b with portals := b.portals.erase (name.getD "") }, [.closeComplete])
  | _ => (b, [])

/-- A message outside COPY. -/
def process (d : Dialect) (b : Pg) (m : FrontendMessage) : Pg × List BackendMessage :=
  match m with
  | .query sql =>
      let b := { b with skipping := false }
      if d.effect sql = .copyIn ∧ b.status ≠ .error then
        ({ b with copying := true }, [.copyInResponse])
      else
        let r := execute d b (d.effect sql)
        (r.1, r.2 ++ [.readyForQuery r.1.status])
  | .sync => ({ b with skipping := false }, [.readyForQuery b.status])
  | m => if b.skipping then (b, []) else extended d b m

/-- One frontend message. Inside COPY-in a message that is no COPY message aborts the copy and
    is dropped, except that a `Query` or `Sync` is still answered. -/
def respond (d : Dialect) (b : Pg) (m : FrontendMessage) : Pg × List BackendMessage :=
  if b.copying then
    match m with
    | .copyData => (b, [])
    | .flush => (b, [])
    | .copyDone =>
        ({ b with copying := false }, [.commandComplete "COPY 0", .readyForQuery b.status])
    | .copyFail message => (b.failed, [error "57014" message, .readyForQuery b.failed.status])
    | m =>
        let r := if m.cycles = 0 then (b.failed, []) else process d b.failed m
        (r.1, error "08P01" "unexpected message type" :: .readyForQuery b.failed.status :: r.2)
  else process d b m

/-- A cancel request stops a copy and nothing else, since other statements finish at once. -/
def interrupt (b : Pg) : Pg × List BackendMessage :=
  if b.copying then
    (b.failed, [error "57014" "canceling statement due to user request",
      .readyForQuery b.failed.status])
  else (b, [])

end Pg

def pg (d : Dialect) : Upstream Pg where
  respond := Pg.respond d
  interrupt := Pg.interrupt
  owed b := if b.copying then 1 else 0
  copying b := b.copying

/-! ## One `ReadyForQuery` for each cycle -/

namespace Pg

@[simp] theorem failed_copying (b : Pg) : b.failed.copying = false := rfl

theorem execute_readies (d : Dialect) (b : Pg) (e : Effect) : readies (execute d b e).2 = 0 := by
  have hset : ∀ l : List (Sigma fun _ : String => String),
      readies (l.map fun p => BackendMessage.parameterStatus p.1 p.2) = 0 := by
    intro l
    induction l with
    | nil => rfl
    | cons x l ih => simp [BackendMessage.ready, ih]
  unfold execute
  split
  · simp [error, BackendMessage.ready]
  · by_cases hidle : b.status = .idle <;> cases e <;>
      simp [error, BackendMessage.ready, hset, hidle]

theorem execute_copying (d : Dialect) {b : Pg} (hb : b.copying = false) (e : Effect) :
    (execute d b e).1.copying = false := by
  unfold execute
  split
  · exact hb
  · by_cases hidle : b.status = .idle <;> cases e <;> simp [hb, hidle]

theorem extended_readies (d : Dialect) (b : Pg) (m : FrontendMessage) :
    readies (extended d b m).2 = 0 := by
  fun_cases extended d b m <;>
    first
    | exact execute_readies d b _
    | simp [skip, error, BackendMessage.ready]

theorem extended_copying (d : Dialect) {b : Pg} (hb : b.copying = false) (m : FrontendMessage) :
    (extended d b m).1.copying = false := by
  fun_cases extended d b m <;>
    first
    | exact execute_copying d hb _
    | exact hb
    | rfl

/-- Outside COPY the answer to a message holds the `ReadyForQuery` it elicits, as its last
    message, unless the message starts a copy. -/
theorem process_spec (d : Dialect) {b : Pg} (hb : b.copying = false) (m : FrontendMessage) :
    (if (process d b m).1.copying then 1 else 0) + readies (process d b m).2 = m.cycles ∧
      readies (process d b m).2.dropLast = 0 ∧
      (readies (process d b m).2 ≠ 0 → (process d b m).1.copying = false) := by
  have hext : m.cycles = 0 →
      (process d b m) = if b.skipping then (b, []) else extended d b m := by
    cases m <;> simp [process, FrontendMessage.cycles]
  by_cases hm : m.cycles = 0
  · rw [hext hm, hm]
    split
    · simp [hb]
    · have h1 := extended_readies d b m
      have h2 := extended_copying d hb m
      have h3 : readies (extended d b m).2.dropLast = 0 :=
        Nat.le_zero.mp (h1 ▸ readies_dropLast_le _)
      simp [h1, h2, h3]
  · cases m with
    | query sql =>
        have h1 := execute_readies d { b with skipping := false } (d.effect sql)
        have h2 := execute_copying d (b := { b with skipping := false }) hb (d.effect sql)
        by_cases hc : d.effect sql = .copyIn ∧ b.status ≠ .error
        · simp [process, hc, FrontendMessage.cycles, BackendMessage.ready]
        · simp only [process, hc, if_false]
          simp [h1, h2, FrontendMessage.cycles, BackendMessage.ready]
    | sync => simp [process, hb, FrontendMessage.cycles, BackendMessage.ready]
    | _ => simp [FrontendMessage.cycles] at hm

theorem process_copy (d : Dialect) (b : Pg) {m : FrontendMessage} (hm : m.isCopy = true) :
    process d b m = (b, []) := by
  cases m <;> simp [FrontendMessage.isCopy] at hm <;> simp [process, extended]

theorem interrupt_spec (b : Pg) :
    (interrupt b).1.copying = false ∧ readies (interrupt b).2.dropLast = 0 ∧
      readies (interrupt b).2 = if b.copying then 1 else 0 := by
  unfold interrupt
  split
  · simp [*, error, BackendMessage.ready]
  · simp [*]

theorem respond_owed (d : Dialect) (b : Pg) (m : FrontendMessage) :
    (if (respond d b m).1.copying then 1 else 0) + readies (respond d b m).2 =
      (if b.copying then 1 else 0) + m.cycles := by
  by_cases hb : b.copying = true
  · have hp := (process_spec d (failed_copying b) m).1
    unfold respond
    rw [if_pos hb, if_pos hb]
    cases m <;> simp_all [error, BackendMessage.ready, FrontendMessage.cycles] <;> omega
  · rw [Bool.not_eq_true] at hb
    simpa [respond, hb] using (process_spec d hb m).1

/-- With one cycle open at most, the `ReadyForQuery` ends the answer. -/
theorem respond_last (d : Dialect) (b : Pg) (m : FrontendMessage)
    (h : (if b.copying then 1 else 0) + m.cycles ≤ 1) :
    readies (respond d b m).2.dropLast = 0 ∧
      (readies (respond d b m).2 ≠ 0 → (respond d b m).1.copying = false) := by
  by_cases hb : b.copying = true
  · have hm : m.cycles = 0 := by simp only [hb, if_true] at h; omega
    unfold respond
    rw [if_pos hb]
    cases m <;> simp_all [error, BackendMessage.ready, FrontendMessage.cycles]
  · rw [Bool.not_eq_true] at hb
    simpa [respond, hb] using (process_spec d hb m).2

end Pg

theorem pg_inOrder (d : Dialect) : (pg d).InOrder where
  respond_owed := Pg.respond_owed d
  respond_last b m h := (Pg.respond_last d b m h).1
  respond_ready b m h := (Pg.respond_last d b m h).2
  stray_copy b m hm hb := by
    have hb' : b.copying = false := hb
    have h : (pg d).respond b m = (b, []) := by
      simp only [pg, Pg.respond, hb', Bool.false_eq_true, if_false]
      exact Pg.process_copy d b hm
    rw [h]
    exact ⟨rfl, hb⟩
  interrupt_owed b := by
    obtain ⟨h1, _, h3⟩ := Pg.interrupt_spec b
    simp only [pg, h1, h3]
    simp
  interrupt_last b := (Pg.interrupt_spec b).2.1
  interrupt_ready b _ := (Pg.interrupt_spec b).1
  interrupt_idle b _ hb := by
    have hb' : b.copying = false := hb
    simp [pg, Pg.interrupt, hb']

end Pgferry
