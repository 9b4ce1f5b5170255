/-
  Scatter-gather (`scatter.rs`).

  The legs of a request run concurrently on their endpoints' pools. `Timing` fixes what the
  order of events decides: the order in which the pooled legs complete and, when one fails,
  which of the aborted legs had already taken a connection. Each leg is taken as one step at
  its completion; its connection stays leased until the merge.

  Proved: running, aborting and returning the pooled legs keeps the world tidy
  (`Tidy.runLegs`, `Tidy.abortLegs`, `Tidy.checkinLegs`), and the merge writes nothing but
  result messages (`mergeLegs_isResult`).
-/
import Pgferry.Session.State

namespace Pgferry

variable {σ κ : Type}

/-- What the timing of one pump iteration decides. -/
structure Timing where
  /-- Whether writing the message to the upstream connection succeeds. -/
  sendOk : Bool := true
  /-- Positions of the pooled legs in the order in which they complete. Legs that are not
      listed complete last. -/
  completion : List Nat := []
  /-- For each leg aborted by a failure, whether it had a connection. -/
  aborted : List Bool := []
  deriving Repr

structure ScatterFailure where
  error : ErrorInfo
  sessionLeaseBroken : Bool

/-- What `execute_scatter` returns, or a panic of the merge. -/
inductive ScatterResult where
  | ok (rows : Nat)
  | failed (failure : ScatterFailure)
  | panicked

/-! ## One leg -/

/-- The result of `run_query_collect`, with the connection. -/
structure Collected (σ : Type) where
  conn : Conn σ
  messages : List BackendMessage
  rows : Nat
  error : Option ErrorInfo
  dirty : Bool
  broken : Bool

/-- The reply loop of `run_query_collect`. -/
def collectReply : List (Origin × BackendMessage) → Collected σ → Collected σ
  | [], r => { r with conn := { r.conn with inbox := [] }, broken := true }
  | (_, .readyForQuery status) :: rest, r =>
      { r with conn := { r.conn with
          transactionStatus := status
          inbox := rest
          consumed := r.conn.consumed + 1 } }
  | (_, .parameterStatus name value) :: rest, r =>
      collectReply rest { r with conn := r.conn.setServerParameter name value, dirty := true }
  | (_, .errorResponse info) :: rest, r => collectReply rest { r with error := some info }
  | (_, .dataRow row) :: rest, r =>
      collectReply rest { r with rows := r.rows + 1, messages := r.messages ++ [.dataRow row] }
  | (_, m) :: rest, r => collectReply rest { r with messages := r.messages ++ [m] }

/-- `run_query_collect`. A connection that does not answer up to `ReadyForQuery` is broken. -/
def runQueryCollect (u : Upstream σ) (c : Conn σ) (sql : String) : Collected σ :=
  let c := c.send u .proxy (.query sql)
  collectReply c.inbox
    { conn := c, messages := [], rows := 0, error := none, dirty := false, broken := false }

structure LegOutcome (σ : Type) where
  endpoint : String
  messages : List BackendMessage
  rows : Nat
  error : Option ErrorInfo
  lease : Option (UpstreamLease σ)
  connBroken : Bool
  dirty : Bool

/-- The outcome of a leg that never ran its query. -/
def LegOutcome.unreachable (endpoint e : String) : LegOutcome σ where
  endpoint := endpoint
  messages := []
  rows := 0
  error := some {
    severity := "ERROR"
    code := "08006"
    message := "connect to shard failed: " ++ e }
  lease := none
  connBroken := true
  dirty := false

/-- `run_leg_pooled`. -/
def runLegPooled (u : Upstream σ) (w : World σ) (key : PoolKey) (leg : ScatterLeg)
    (startup : Params) : World σ × LegOutcome σ :=
  match w.checkout u key with
  | (w, .error e) => (w, .unreachable leg.endpoint e)
  | (w, .ok lease) =>
      match syncStartupParameters u startup lease.conn with
      | .error e => (w.destroy lease, .unreachable leg.endpoint e)
      | .ok conn =>
          let r := runQueryCollect u conn leg.sql
          if r.broken then
            (w.destroy lease, {
              endpoint := leg.endpoint
              messages := r.messages
              rows := r.rows
              error := r.error
              lease := none
              connBroken := true
              dirty := r.dirty })
          else
            (w, {
              endpoint := leg.endpoint
              messages := r.messages
              rows := r.rows
              error := r.error
              lease := some { lease with conn := r.conn }
              connBroken := false
              dirty := r.dirty })

/-! ## Running the legs -/

/-- A lease that is dropped without checkin or destroy: the connection closes, the permit is
    back, the counters stay. -/
def World.abandon (w : World σ) (lease : UpstreamLease σ) : World σ :=
  w.modify lease.pool fun p => { p with permits := p.permits + 1 }

/-- The leg that reuses the session's lease, and the pooled legs. -/
def partitionLegs (sessionEndpoint : Option String) (leased : Bool) :
    List ScatterLeg → Option ScatterLeg × List ScatterLeg
  | [] => (none, [])
  | leg :: legs =>
      if leased && decide (sessionEndpoint = some leg.endpoint) then (some leg, legs)
      else
        let rest := partitionLegs sessionEndpoint leased legs
        (rest.1, leg :: rest.2)

/-- The pooled legs in completion order. -/
def completionOrder (legs : List ScatterLeg) (completion : List Nat) : List ScatterLeg :=
  let positions := completion.filter (fun i => decide (i < legs.length))
  let listed := positions.dedup
  let rest := (List.range legs.length).filter fun i => !listed.contains i
  (listed ++ rest).filterMap fun i => legs[i]?

/-- The error of a shard that broke without an `ErrorResponse`. -/
def shardFailed (endpoint : String) : ErrorInfo :=
  { severity := "ERROR", code := "08006", message := "shard " ++ endpoint ++ " failed" }

/-- What running the pooled legs leaves. -/
structure LegsRun (σ : Type) where
  world : World σ
  outcomes : List (LegOutcome σ)
  firstError : Option ErrorInfo
  /-- Legs that the first failure aborted. -/
  aborted : List ScatterLeg

/-- The collect loop: run the legs up to the first failure. The failed outcome is dropped with
    its lease. -/
def runLegs (u : Upstream σ) (key : ScatterLeg → PoolKey) (startup : Params) :
    List ScatterLeg → LegsRun σ → LegsRun σ
  | [], r => r
  | leg :: legs, r =>
      let done := runLegPooled u r.world (key leg) leg startup
      if done.2.error.isSome || done.2.connBroken then
        { r with
          world := match done.2.lease with
            | some lease => done.1.abandon lease
            | none => done.1
          firstError := some (done.2.error.getD (shardFailed leg.endpoint))
          aborted := legs }
      else runLegs u key startup legs { r with world := done.1, outcomes := r.outcomes ++ [done.2] }

/-- Drop the futures of the aborted legs, and with them the connections they had taken. -/
def abortLegs (u : Upstream σ) (key : ScatterLeg → PoolKey) :
    List ScatterLeg → List Bool → World σ → World σ
  | leg :: legs, true :: flags, w =>
      match w.checkout u (key leg) with
      | (w, .ok lease) => abortLegs u key legs flags (w.abandon lease)
      | (w, .error _) => abortLegs u key legs flags w
  | _ :: legs, false :: flags, w => abortLegs u key legs flags w
  | _, _, w => w

/-- `checkin_detached` of every outcome's lease. -/
def checkinLegs (u : Upstream σ) : List (LegOutcome σ) → World σ → World σ
  | [], w => w
  | outcome :: rest, w =>
      match outcome.lease with
      | some lease => checkinLegs u rest (w.checkinDetached u lease outcome.dirty)
      | none => checkinLegs u rest w

/-- The leases of the outcomes are dropped when the merge leaves early. -/
def abandonLegs : List (LegOutcome σ) → World σ → World σ
  | [], w => w
  | outcome :: rest, w =>
      match outcome.lease with
      | some lease => abandonLegs rest (w.abandon lease)
      | none => abandonLegs rest w

/-! ## Merging -/

/-- The first `RowDescription` and every `DataRow`. -/
def concatRows : Bool → List BackendMessage → List BackendMessage
  | _, [] => []
  | written, .rowDescription fields :: rest =>
      if written then concatRows written rest
      else .rowDescription fields :: concatRows true rest
  | written, .dataRow row :: rest => .dataRow row :: concatRows written rest
  | written, _ :: rest => concatRows written rest

/-- `i128` addition of a release build. -/
def addI128 (a b : Int) : Int := (a + b + 2 ^ 127) % 2 ^ 128 - 2 ^ 127

/-- The fold of the `Sum` merge: the schema and the total. `none` is a panic, `some none` a
    column that is not numeric. -/
def sumRows : List BackendMessage → Option BackendMessage → Int →
    Option (Option (Option BackendMessage × Int))
  | [], schema, total => some (some (schema, total))
  | .rowDescription fields :: rest, schema, total =>
      sumRows rest (some (schema.getD (.rowDescription fields))) total
  | .dataRow row :: rest, schema, total =>
      match firstColumnI128 row with
      | none => none
      | some none => some none
      | some (some v) => sumRows rest schema (addI128 total v)
  | _ :: rest, schema, total => sumRows rest schema total

/-- The row that the `Sum` merge writes. -/
def sumRow (total : Int) : DataRow :=
  let text := (toString total).toUTF8.toList
  { data := putI32 text.length ++ text, fieldCount := 1 }

/-- `sum_failure`. -/
def sumFailure : ScatterFailure where
  error := {
    severity := "ERROR"
    code := "0A000"
    message := "pgferry scatter: Sum merge requires a numeric first column" }
  sessionLeaseBroken := false

/-- `conn_gone`. -/
def connGone : ScatterFailure where
  error := { severity := "ERROR", code := "08006", message := "client connection lost" }
  sessionLeaseBroken := false

/-- The client-visible messages of the merge and the row count that is returned, or the way it
    fails. -/
def mergeLegs (request : ScatterRequest) (sources : List BackendMessage) (totalRows : Nat) :
    Option (Except ScatterFailure (List BackendMessage × Nat)) :=
  match request.merge with
  | .concat =>
      some (.ok (concatRows false sources ++
        [.commandComplete (request.tag ++ " " ++ toString totalRows)], totalRows))
  | .sum =>
      match sumRows sources none 0 with
      | none => none
      | some none => some (.error sumFailure)
      | some (some (schema, total)) =>
          some (.ok (schema.toList ++
            [.dataRow (sumRow total), .commandComplete (request.tag ++ " 1")], 1))

namespace Session

/-- The leg on the session's lease: its messages, rows and error, or `none` when no such leg
    runs. The dirty flag of the leg is not kept. -/
def runSessionLeg (env : Env σ) (s : Session σ κ) (leg : Option ScatterLeg) :
    Session σ κ × Option (Collected σ) :=
  match leg, s.lease with
  | some leg, some lease =>
      let r := runQueryCollect env.upstream lease.conn leg.sql
      ({ s with
        lease := some { lease with conn := r.conn }
        log := s.log ++ [.sessionLeg leg.endpoint lease.pool.endpoint] }, some r)
  | _, _ => (s, none)

/-- Merge the legs and write the client-visible cycle. -/
def writeMerged (env : Env σ) (s : Session σ κ) (request : ScatterRequest)
    (sources : List BackendMessage) (totalRows : Nat) (outcomes : List (LegOutcome σ)) :
    Session σ κ × ScatterResult :=
  match mergeLegs request sources totalRows with
  | none => ({ s with world := abandonLegs outcomes s.world }, .panicked)
  | some (.error failure) => ({ s with world := abandonLegs outcomes s.world }, .failed failure)
  | some (.ok (messages, rows)) =>
      match s.writeAll messages with
      | (s, false) => ({ s with world := abandonLegs outcomes s.world }, .failed connGone)
      | (s, true) => ({ s with world := checkinLegs env.upstream outcomes s.world }, .ok rows)

/-- `execute_scatter`. -/
def executeScatter (env : Env σ) (s : Session σ κ) (request : ScatterRequest) (t : Timing) :
    Session σ κ × ScatterResult :=
  match request.legs.find? fun leg => (env.route.endpoint leg.endpoint).isNone with
  | some leg =>
      (s, .failed {
        error := {
          severity := "ERROR"
          code := "0A000"
          message := "pgferry scatter: unknown endpoint " ++ debugText leg.endpoint }
        sessionLeaseBroken := false })
  | none =>
      let key := fun leg : ScatterLeg => env.poolKey s.params leg.endpoint
      let parts := partitionLegs s.currentEndpoint s.lease.isSome request.legs
      let ran := runLegs env.upstream key s.startupParameters
        (completionOrder parts.2 t.completion)
        { world := s.world, outcomes := [], firstError := none, aborted := [] }
      match ran.firstError with
      | some error =>
          let world := abortLegs env.upstream key ran.aborted t.aborted ran.world
          ({ s with world := checkinLegs env.upstream ran.outcomes world },
            .failed { error := error, sessionLeaseBroken := false })
      | none =>
          let sess := { s with world := ran.world }.runSessionLeg env parts.1
          let s := sess.1
          match sess.2 with
          | none =>
              s.writeMerged env request (ran.outcomes.flatMap LegOutcome.messages)
                (ran.outcomes.map LegOutcome.rows).sum ran.outcomes
          | some r =>
              if r.broken then
                ({ s with world := abandonLegs ran.outcomes s.world }, .failed {
                  error := r.error.getD
                    (shardFailed ((parts.1.map ScatterLeg.endpoint).getD ""))
                  sessionLeaseBroken := true })
              else
                match r.error with
                | some error =>
                    ({ s with world := checkinLegs env.upstream ran.outcomes s.world },
                      .failed { error := error, sessionLeaseBroken := false })
                | none =>
                    s.writeMerged env request
                      (r.messages ++ ran.outcomes.flatMap LegOutcome.messages)
                      (r.rows + (ran.outcomes.map LegOutcome.rows).sum) ran.outcomes

end Session

/-! ## The pools after the legs -/

/-- What a pooled leg with the text `sql` returns has `Φ` when what it was leased had it. -/
def LegKeeps (u : Upstream σ) (Φ : PoolKey → Conn σ → Prop) (startup : Params)
    (sql : String) : Prop :=
  ∀ key base c c', Φ key base → syncStartupParameters u startup base = .ok c →
    (runQueryCollect u c sql).broken = false →
    discardIfDirty u (runQueryCollect u c sql).conn (runQueryCollect u c sql).dirty = .ok c' →
    Φ key c'

/-- The outcome's lease can be returned with its dirty flag. -/
def LegOutcome.Returns (u : Upstream σ) (Φ : PoolKey → Conn σ → Prop) (o : LegOutcome σ) : Prop :=
  ∀ lease c, o.lease = some lease → discardIfDirty u lease.conn o.dirty = .ok c → Φ lease.pool c

namespace World.Tidy

variable {u : Upstream σ} {Φ : PoolKey → Conn σ → Prop} {w : World σ} {startup : Params}

theorem abandon (h : w.Tidy Φ) (lease : UpstreamLease σ) : (w.abandon lease).Tidy Φ :=
  h.modify _ fun p hp => h.idle _ p hp

theorem runLegPooled (h : w.Tidy Φ) (hp : ProbeKeeps u Φ) (key : PoolKey) (leg : ScatterLeg)
    (hl : LegKeeps u Φ startup leg.sql) :
    (runLegPooled u w key leg startup).1.Tidy Φ ∧
      (runLegPooled u w key leg startup).2.Returns u Φ := by
  obtain ⟨htidy, hlease⟩ := h.checkout hp key
  unfold Pgferry.runLegPooled
  split
  case h_1 heq =>
    rw [heq] at htidy
    exact ⟨htidy, nofun⟩
  case h_2 lease heq =>
    rw [heq] at htidy hlease
    obtain ⟨hpool, hbase⟩ := hlease lease rfl
    split
    case h_1 => exact ⟨htidy.destroy lease, nofun⟩
    case h_2 conn hsync =>
      dsimp only
      split
      case isTrue => exact ⟨htidy.destroy lease, nofun⟩
      case isFalse hb =>
        refine ⟨htidy, fun lease' c hl' hd => ?_⟩
        cases hl'
        rw [Bool.not_eq_true] at hb
        exact hpool ▸ hl key lease.conn conn c hbase hsync hb hd

theorem runLegs (hp : ProbeKeeps u Φ) (key : ScatterLeg → PoolKey) (legs : List ScatterLeg)
    (hl : ∀ leg ∈ legs, LegKeeps u Φ startup leg.sql) (r : LegsRun σ) (h : r.world.Tidy Φ)
    (ho : ∀ o ∈ r.outcomes, o.Returns u Φ) :
    (runLegs u key startup legs r).world.Tidy Φ ∧
      ∀ o ∈ (Pgferry.runLegs u key startup legs r).outcomes, o.Returns u Φ := by
  induction legs generalizing r with
  | nil => exact ⟨h, ho⟩
  | cons leg legs ih =>
      obtain ⟨htidy, hret⟩ := h.runLegPooled hp (key leg) leg (hl leg List.mem_cons_self)
      rw [Pgferry.runLegs]
      split
      · refine ⟨?_, ho⟩
        dsimp only
        split
        · exact htidy.abandon _
        · exact htidy
      · refine ih (fun leg' hmem => hl leg' (List.mem_cons_of_mem _ hmem)) _ htidy fun o hmem => ?_
        rcases List.mem_append.mp hmem with hmem | hmem
        · exact ho o hmem
        · rw [List.mem_singleton.mp hmem]
          exact hret

theorem abortLegs (hp : ProbeKeeps u Φ) (key : ScatterLeg → PoolKey) (legs : List ScatterLeg)
    (flags : List Bool) (h : w.Tidy Φ) : (abortLegs u key legs flags w).Tidy Φ := by
  fun_induction Pgferry.abortLegs u key legs flags w with
  | case1 leg legs flags w w' lease heq ih =>
      have := (h.checkout hp (key leg)).1
      rw [heq] at this
      exact ih (this.abandon lease)
  | case2 leg legs flags w w' e heq ih =>
      have := (h.checkout hp (key leg)).1
      rw [heq] at this
      exact ih this
  | case3 leg legs flags w ih => exact ih h
  | case4 => exact h

theorem checkinLegs (outcomes : List (LegOutcome σ)) (h : w.Tidy Φ)
    (ho : ∀ o ∈ outcomes, o.Returns u Φ) : (checkinLegs u outcomes w).Tidy Φ := by
  induction outcomes generalizing w with
  | nil => exact h
  | cons o outcomes ih =>
      have hrest : ∀ o ∈ outcomes, o.Returns u Φ := fun o hm => ho o (List.mem_cons_of_mem _ hm)
      rw [Pgferry.checkinLegs]
      split
      case h_1 lease hlease =>
        exact ih (h.checkinDetached fun c hc => ho o List.mem_cons_self lease c hlease hc) hrest
      case h_2 => exact ih h hrest

theorem abandonLegs (outcomes : List (LegOutcome σ)) (h : w.Tidy Φ) :
    (abandonLegs outcomes w).Tidy Φ := by
  induction outcomes generalizing w with
  | nil => exact h
  | cons o outcomes ih =>
      rw [Pgferry.abandonLegs]
      split
      · exact ih (h.abandon _)
      · exact ih h

end World.Tidy

/-! ## The merged result -/

/-- A message of the merged result of a scatter. -/
def BackendMessage.isResult : BackendMessage → Bool
  | .rowDescription _ => true
  | .dataRow _ => true
  | .commandComplete _ => true
  | _ => false

theorem concatRows_isResult (written : Bool) (ms : List BackendMessage) :
    ∀ x ∈ concatRows written ms, x.isResult = true := by
  fun_induction concatRows written ms <;> simp_all [BackendMessage.isResult]

theorem sumRows_isResult {ms : List BackendMessage} {schema schema' : Option BackendMessage}
    {total total' : Int} (hs : ∀ x ∈ schema, x.isResult = true)
    (h : sumRows ms schema total = some (some (schema', total'))) :
    ∀ x ∈ schema', x.isResult = true := by
  fun_induction sumRows ms schema total with
  | case1 schema total => simp only [Option.some.injEq, Prod.mk.injEq] at h; exact h.1 ▸ hs
  | case2 fields rest schema total ih =>
      refine ih ?_ h
      cases schema with
      | none => simp [BackendMessage.isResult]
      | some m => simpa using hs
  | case3 => simp at h
  | case4 => simp at h
  | case5 row rest schema total v hv ih => exact ih hs h
  | case6 m rest schema total _ _ ih => exact ih hs h

theorem mergeLegs_isResult {request : ScatterRequest} {sources ms : List BackendMessage}
    {total rows : Nat} (h : mergeLegs request sources total = some (.ok (ms, rows))) :
    ∀ x ∈ ms, x.isResult = true := by
  unfold mergeLegs at h
  split at h
  · simp only [Option.some.injEq, Except.ok.injEq, Prod.mk.injEq] at h
    rw [← h.1]
    intro x hx
    rcases List.mem_append.mp hx with hx | hx
    · exact concatRows_isResult _ _ x hx
    · rw [List.mem_singleton.mp hx]; rfl
  · split at h
    case h_1 => simp at h
    case h_2 => simp at h
    case h_3 schema sum hsum =>
      simp only [Option.some.injEq, Except.ok.injEq, Prod.mk.injEq] at h
      have hs := sumRows_isResult (fun x (hx : x ∈ none) => nomatch hx) hsum
      rw [← h.1]
      intro x hx
      rcases List.mem_append.mp hx with hx | hx
      · exact hs x (by simpa using hx)
      · simp only [List.mem_cons, List.not_mem_nil, or_false] at hx
        rcases hx with rfl | rfl <;> rfl

end Pgferry
