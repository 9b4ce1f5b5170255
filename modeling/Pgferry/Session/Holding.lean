/-
  What one session holds.

  A session holds at most the connection of its lease. `Guards s s'` says that the session, on its
  way from `s` to `s'`, keeps every connection in one place, whatever the other sessions hold:
  what it takes from the pools it holds, and what it no longer holds is back in them or closed.

  Proved: `step_guards`, an iteration of the pump of a session whose interceptor asks for no scatter
  and whose connections do not fail; `start_guards` and `finish_guards` for its start and its end.
-/
import Pgferry.Custody
import Pgferry.Session.Agree

namespace Pgferry

open Loop Loop.Flow

variable {σ κ : Type}

namespace Core

/-- The connection of the lease. -/
def pid (c : Core σ) : Option Nat := c.lease.map fun l => l.conn.processId

theorem pid_some {c : Core σ} {lease : UpstreamLease σ} (h : c.lease = some lease) :
    c.pid = some lease.conn.processId := by
  rw [pid, h]
  rfl

theorem pid_none {c : Core σ} (h : c.lease = none) : c.pid = none := by
  rw [pid, h]
  rfl

theorem pid_congr {c d : Core σ} (h : d.lease = c.lease) : d.pid = c.pid := by
  rw [pid, pid, h]

theorem readNext_pid {transactionMode : Bool} {c d : Core σ} {o : Origin} {m : BackendMessage}
    (h : c.readNext transactionMode = some (o, m, d)) : d.pid = c.pid := by
  obtain ⟨lease, rest, hlease, _, _, _, hd⟩ := readNext_spec h
  rw [pid_some hlease, pid_some hd]
  cases m <;> rfl

theorem put_pid {u : Upstream σ} {c : Core σ} {lease : UpstreamLease σ}
    (h : c.lease = some lease) (m : FrontendMessage) : (c.put u lease m).pid = c.pid := by
  rw [pid_some h, put, pid]
  show some (if m.triggersResponse then _ else _ : Conn σ).processId = _
  split <;> rfl

theorem cancel_pid (u : Upstream σ) {c : Core σ} {lease : UpstreamLease σ}
    (h : c.lease = some lease) : (c.cancelled u lease).pid = c.pid := by
  rw [pid_some h, pid_some rfl]
  rfl

end Core

namespace Session

def held (s : Session σ κ) : List Nat := s.toCore.pid.toList

def Guards (s s' : Session σ κ) : Prop :=
  ∀ others, s.world.Custody (s.held ++ others) → s'.world.Custody (s'.held ++ others)

variable {s s' s'' : Session σ κ} {env : Env σ}

theorem Guards.refl (s : Session σ κ) : s.Guards s := fun _ h => h

theorem Guards.trans (h : s.Guards s') (h' : s'.Guards s'') : s.Guards s'' :=
  fun others hs => h' others (h others hs)

theorem guards_of_same (hw : s'.world = s.world) (hl : s'.held = s.held) : s.Guards s' := by
  intro others h
  rw [hw, hl]
  exact h

theorem Beside.guards {c : Core σ} (h : s.Beside c s') (hl : c.lease = s.lease) : s.Guards s' :=
  guards_of_same h.world (by rw [held, held, h.core, Core.pid_congr hl])

/-- Every exit of a phase guards what is held. -/
def Guarding {α : Type} (s : Session σ κ) (f : Flow (Session σ κ) End α) : Prop :=
  f.Post (fun s' _ => s.Guards s') (fun s' _ => s.Guards s')

theorem Guarding.andThen {α β : Type} {f : Flow (Session σ κ) End α}
    {g : Session σ κ → α → Flow (Session σ κ) End β} (hf : s.Guarding f)
    (hg : ∀ s' a, s.Guards s' → s'.Guarding (g s' a)) : s.Guarding (f.andThen g) :=
  andThen_post hf fun s' a hs' =>
    (hg s' a hs').mono (fun _ _ h => hs'.trans h) (fun _ _ h => hs'.trans h)

theorem Guarding.after {α : Type} {f : Flow (Session σ κ) End α} (h : s.Guards s')
    (hf : s'.Guarding f) : s.Guarding f :=
  hf.mono (fun _ _ h' => h.trans h') (fun _ _ h' => h.trans h')

theorem sendAll_guarding (s : Session σ κ) (ms : List BackendMessage) :
    s.Guarding (s.sendAll ms) :=
  sendAll_post (fun _ h => h.guards rfl) fun _ _ _ h => h.guards rfl

/-- A write to the client and what follows it. -/
theorem answer_guarding {α : Type} {ms : List BackendMessage}
    {g : Session σ κ → Unit → Flow (Session σ κ) End α}
    (hg : ∀ s' : Session σ κ, s'.Guarding (g s' ())) : s.Guarding ((s.sendAll ms).andThen g) :=
  (sendAll_guarding s ms).andThen fun s' _ _ => hg s'

/-! ## The client arm -/

theorem endCycle_guards (s : Session σ κ) : s.Guards s.endCycle := (endCycle_beside s).guards rfl

theorem swallowPhase_guarding (s : Session σ κ) (m : FrontendMessage) :
    (s.swallowPhase m).Post (fun s' _ => s' = s) (fun s' _ => s.Guards s') := by
  unfold swallowPhase
  split
  · split
    · have hs : s.Guards { s with swallowUntilSync := false } := guards_of_same rfl rfl
      exact andThen_post (Guarding.after hs (sendAll_guarding _ _))
        fun s' _ h => h.trans (endCycle_guards s')
    · exact Guards.refl s
  · exact rfl

theorem localPhase_guarding (s : Session σ κ) (m : FrontendMessage) :
    (s.localPhase env m).Post (fun s' _ => s' = s) (fun s' _ => s.Guards s') := by
  unfold localPhase
  split
  · split
    case h_1 =>
      exact andThen_post (sendAll_guarding s _)
        fun s' _ h => h.trans ((endActiveCycle_beside s').guards rfl)
    case h_2 => exact Guards.refl s
    case h_3 target name =>
      have hs : s.Guards { s with registry := s.registry.recordClose name } :=
        guards_of_same rfl rfl
      exact andThen_post (Guarding.after hs (sendAll_guarding _ _)) fun s' _ h => h
    case h_4 => exact rfl
  · exact rfl

theorem denyQuery_guarding (s : Session σ κ) (input : CycleInput) (info : ErrorInfo) :
    s.Guarding (s.denyQuery input info) := by
  have hs : s.Guards ((s.startCycle (some input.sql) input.kind).trackCycle fun t =>
      { t with error := some (CycleError.fromInfo info) }) :=
    ((startCycle_beside s _ _).guards rfl).trans ((trackCycle_beside _ _).guards rfl)
  unfold denyQuery
  refine Guarding.after hs (answer_guarding fun s' => ?_)
  split
  · exact guards_of_same rfl rfl
  · exact answer_guarding endCycle_guards

theorem replyQuery_guarding (s : Session σ κ) (input : CycleInput) (ms : List BackendMessage) :
    s.Guarding (s.replyQuery input ms) := by
  have hs : s.Guards ((s.startCycle (some input.sql) input.kind).trackCycle fun t =>
      ms.foldl trackReply t) :=
    ((startCycle_beside s _ _).guards rfl).trans ((trackCycle_beside _ _).guards rfl)
  unfold replyQuery
  refine Guarding.after hs (answer_guarding fun s' => answer_guarding fun s'' => ?_)
  split
  · exact guards_of_same rfl rfl
  · exact endCycle_guards s''

/-- `on_query` never asks for a scatter. -/
def Unscattered (s : Session σ κ) : Prop :=
  ∀ input request, ¬ Asks s.interceptor input (.scatter request)

theorem queryPhase_guarding (hi : s.Unscattered) (t : Timing) (m : FrontendMessage) :
    s.Guarding (s.queryPhase env t m) := by
  unfold queryPhase
  split
  case h_1 => exact Guards.refl s
  case h_2 input _ =>
    dsimp only
    split
    case h_1 => exact guards_of_same rfl rfl
    case h_2 h hh =>
      have hs : s.Guards { s with
          cycleIsExtended := input.kind.isExtended
          hooks := some { h with
            ctx := (h.interceptor.onQuery h.ctx (QueryCycle.new input.sql input.kind)).1 } } :=
        guards_of_same rfl rfl
      have hasks : Asks s.interceptor input
          (h.interceptor.onQuery h.ctx (QueryCycle.new input.sql input.kind)).2.2 :=
        ⟨h.interceptor, by rw [interceptor, hh]; rfl, h.ctx, rfl⟩
      refine Guarding.after hs ?_
      cases ha : (h.interceptor.onQuery h.ctx (QueryCycle.new input.sql input.kind)).2.2 with
      | forward => exact (startCycle_beside _ _ _).guards rfl
      | deny info => exact denyQuery_guarding _ input info
      | scatter request => exact absurd (ha ▸ hasks) (hi input request)
      | reply ms => exact replyQuery_guarding _ input ms
      | close => exact Guards.refl _

theorem registryPhase_guarding (s : Session σ κ) (m : FrontendMessage) :
    s.Guarding (s.registryPhase m) := by
  unfold registryPhase
  split
  · split
    · exact Guards.refl s
    · split
      · exact Guards.refl s
      · split
        · exact answer_guarding Guards.refl
        · exact answer_guarding fun s' => guards_of_same rfl rfl
  · exact Guards.refl s

theorem sendAttachFatal_guards (s : Session σ κ) (message : String) :
    s.Guards (s.sendAttachFatal message) := by
  obtain ⟨_, _, _, hb⟩ := sendAttachFatal_spec s message
  exact hb.guards rfl

theorem held_of_none (h : s.lease = none) : s.held = [] := by
  rw [held, Core.pid_none h]
  rfl

/-- An attempt hands the connections on; one that fails holds none. -/
theorem attempt_guards (sqlHint : Option String) (hnone : s.lease = none) :
    (s.attempt env sqlHint).Post s.Guards (fun t => s.Guards t ∧ t.lease = none)
      fun t _ => s.Guards t := by
  have hb := dispatchUpstream_beside env s sqlHint
  have htries := attempt_tries env sqlHint s
  generalize (s.dispatchUpstream env sqlHint).1 = s₁ at hb htries
  generalize s.attempt env sqlHint = outcome at htries
  have hroute : s.Guards s₁ := hb.guards rfl
  have hnone₁ : s₁.lease = none := by
    rw [hb.core]
    exact hnone
  have hfailed : ∀ (t : Session σ κ) (error : UpstreamError) (message : String),
      s₁.Guards t → t.lease = none → (t.afterFailure error message).Post s.Guards
        (fun t => s.Guards t ∧ t.lease = none) fun t _ => s.Guards t := by
    intro t error message h hfree
    have hasked := (dispatchOnUpstreamError_beside t error).1
    have hguards := (hroute.trans h).trans (hasked.guards rfl)
    exact afterFailure_post ⟨hguards, by rw [hasked.core]; exact hfree⟩ hguards
  have hcheckout := fun endpoint others (h : s₁.world.Custody others) =>
    h.checkout (u := env.upstream) (env.poolKey s₁.params endpoint)
  cases htries with
  | unknown message => exact hroute
  | refused endpoint world _ _ _ _ hout =>
      have hout' := hcheckout endpoint.id
      rw [hout] at hout'
      refine hfailed _ _ _ (fun others h => ?_) hnone₁
      exact hout' _ h
  | unprepared endpoint world lease t' _ _ _ _ hout hprep =>
      have hout' := hcheckout endpoint.id
      obtain ⟨_, _, hbes, -⟩ := prepare_spec env { s₁ with world := world } lease.conn
      rw [hout] at hout'
      rw [hprep] at hbes
      have hnone₂ : t'.lease = none := (congrArg Core.lease hbes.core).trans hnone₁
      refine hfailed _ _ _ (fun others h => ?_) hnone₂
      rw [held_of_none hnone₁] at h
      have hworld : t'.world = world := hbes.world
      show (t'.world.destroy lease).Custody (t'.held ++ others)
      rw [held_of_none hnone₂, hworld]
      exact World.Custody.destroy (hout' others h)
  | attached endpoint world lease t' conn _ hout hprep =>
      have hout' := hcheckout endpoint.id
      obtain ⟨_, _, hbes, hready⟩ := prepare_spec env { s₁ with world := world } lease.conn
      rw [hout] at hout'
      rw [hprep] at hbes hready
      have hcon := hbes.trans (dispatchOnUpstreamConnected_beside t' endpoint.id)
      have hpid : conn.processId = lease.conn.processId :=
        (processId_exchanges env.upstream _).prepared rfl (hready conn rfl)
      refine hroute.trans fun others h => ?_
      rw [held_of_none hnone₁] at h
      show (t'.dispatchOnUpstreamConnected endpoint.id).world.Custody (conn.processId :: others)
      rw [hcon.world, hpid]
      exact hout' others h

theorem attachAttempts_guards (sqlHint : Option String) (n : Nat) (s : Session σ κ)
    (hnone : s.lease = none) : s.Guards (attachAttempts env sqlHint n s).1 :=
  attachAttempts_rule (P := fun t => s.Guards t ∧ t.lease = none) (Q := fun t _ => s.Guards t)
    (fun _ h => (attempt_guards sqlHint h.2).mono (fun _ h' => h.1.trans h')
      (fun _ h' => ⟨h.1.trans h'.1, h'.2⟩)
      fun t' message h' => (h.1.trans h').trans (sendAttachFatal_guards t' message))
    (fun t message h => h.1.trans (sendAttachFatal_guards t message)) n s ⟨.refl s, hnone⟩

theorem ensureAttached_guards (sqlHint : Option String) (s : Session σ κ) :
    s.Guards (s.ensureAttached env sqlHint).1 := by
  unfold ensureAttached
  cases hl : s.lease with
  | some lease => exact Guards.refl s
  | none => exact attachAttempts_guards sqlHint _ s hl

theorem attachPhase_guarding (sqlHint : Option String) (pending : PendingParse)
    (s : Session σ κ) : s.Guarding (s.attachPhase env sqlHint pending) := by
  have hs : s.Guards (s.ensureAttached env sqlHint).1 := ensureAttached_guards sqlHint s
  unfold attachPhase
  split
  case h_1 heq =>
    rw [heq] at hs
    exact hs
  case h_2 heq =>
    rw [heq] at hs
    cases pending <;> exact hs.trans (guards_of_same rfl rfl)

theorem frontendPhase_guarding (s : Session σ κ) (m : FrontendMessage) :
    s.Guarding (s.frontendPhase m) := by
  unfold frontendPhase
  split
  case h_1 => exact Guards.refl s
  case h_2 h hh =>
    have hs := (withCtx_beside hh (h.interceptor.onFrontend h.ctx m).1).guards rfl
    dsimp only
    refine Guarding.after hs ?_
    split
    · exact Guards.refl _
    · exact answer_guarding Guards.refl
    · exact Guards.refl _
    · exact Guards.refl _
    · exact Guards.refl _

theorem forwardPhase_guarding (s : Session σ κ) (m : FrontendMessage) :
    s.Guarding (s.forwardPhase env true m) := by
  unfold forwardPhase
  have hs : s.Guards (if m.startsResponse then
      { s with hygiene := { s.hygiene with awaitingResponse := true } } else s) := by
    split <;> exact guards_of_same rfl rfl
  generalize (if m.startsResponse then
    { s with hygiene := { s.hygiene with awaitingResponse := true } } else s) = s₁ at hs
  refine Guarding.after hs ?_
  dsimp only
  split
  case h_1 => exact Guards.refl s₁
  case h_2 lease hlease =>
    exact guards_of_same rfl (congrArg Option.toList (Core.put_pid hlease m))

theorem onClient_guarding (hi : s.Unscattered) {t : Timing} (hok : t.sendOk = true)
    (m : FrontendMessage) : s.Guarding (s.onClient env t m) := by
  unfold onClient passPhases
  rw [hok]
  have hs : s.Guards { s with toCore := s.toCore.recv m } := guards_of_same rfl rfl
  have hi₁ : Unscattered { s with toCore := s.toCore.recv m } := hi
  generalize { s with toCore := s.toCore.recv m } = s₁ at hs hi₁
  refine Guarding.after hs ?_
  dsimp only
  split
  · exact Guards.refl s₁
  · -- The phases before the query phase go on with the session they got.
    refine andThen_post (swallowPhase_guarding s₁ m) fun s' _ hs' => ?_
    rw [hs']
    refine andThen_post (localPhase_guarding s₁ m) fun s' _ hs' => ?_
    rw [hs']
    refine (queryPhase_guarding hi₁ t m).andThen fun s₂ m' _ => ?_
    refine (registryPhase_guarding s₂ m').andThen fun s₃ pending _ => ?_
    refine (attachPhase_guarding _ pending s₃).andThen fun s₄ _ _ => ?_
    exact (frontendPhase_guarding s₄ m').andThen fun s₅ m'' _ => forwardPhase_guarding s₅ m''

/-! ## The upstream arm -/

theorem trackCycle_guards (s : Session σ κ) (f : CycleTracking → CycleTracking) :
    s.Guards (s.trackCycle f) :=
  (trackCycle_beside s f).guards rfl

theorem editRow_guarding (s : Session σ κ) (h : SessionHooks κ) (row : DataRow) :
    s.Guarding (s.editRow h row) := by
  unfold editRow
  split
  case h_1 => exact Guards.refl s
  case h_2 => exact trackCycle_guards s _
  case h_3 r _ =>
    have hs : s.Guards { s with hooks := some { h with
        ctx := (h.interceptor.onRow h.ctx h.schema r).1 } } := guards_of_same rfl rfl
    dsimp only
    split <;> exact hs.trans (trackCycle_guards _ _)

theorem rowPhase_guarding (s : Session σ κ) (m : BackendMessage) : s.Guarding (s.rowPhase m) := by
  unfold rowPhase
  split
  case h_1 => exact Guards.refl s
  case h_2 h _ =>
    split
    case h_1 =>
      split
      · exact guards_of_same rfl rfl
      · exact Guards.refl s
    case h_2 => exact trackCycle_guards s _
    case h_3 => exact trackCycle_guards s _
    case h_4 row =>
      split
      · refine (editRow_guarding s h row).andThen fun s' edited _ => ?_
        cases edited <;> exact Guards.refl s'
      · exact trackCycle_guards s _
    case h_5 => exact Guards.refl s

theorem backendPhase_guarding (s : Session σ κ) (m : BackendMessage) :
    s.Guarding (s.backendPhase m) := by
  unfold backendPhase
  split
  case h_1 => exact Guards.refl s
  case h_2 h hh =>
    have hs := (withCtx_beside hh (h.interceptor.onBackend h.ctx m).1).guards rfl
    dsimp only
    refine Guarding.after hs ?_
    split
    · exact Guards.refl _
    · exact answer_guarding Guards.refl
    · exact Guards.refl _
    · exact Guards.refl _
    · exact Guards.refl _

theorem detachIfIdle_guards (s : Session σ κ) (status : TransactionStatus) :
    s.Guards (s.detachIfIdle env status).1 := by
  unfold detachIfIdle
  split
  · exact Guards.refl s
  · split
    · exact Guards.refl s
    · split
      case h_1 => exact Guards.refl s
      case h_2 lease hlease =>
        intro others h
        rw [held, Core.pid_some hlease] at h
        exact World.Custody.checkinDetached h s.leaseDirty

theorem afterReady_guarding (s : Session σ κ) (status : TransactionStatus) :
    s.Guarding (s.afterReady env status) := by
  unfold afterReady
  have hs : s.Guards s.endActiveCycle := (endActiveCycle_beside s).guards rfl
  generalize s.endActiveCycle = s₁ at hs
  refine Guarding.after hs ?_
  dsimp only
  split
  · exact Guards.refl s₁
  · have hd : s₁.Guards (s₁.detachIfIdle env status).1 := detachIfIdle_guards s₁ status
    split
    case h_1 heq =>
      rw [heq] at hd
      exact hd.trans (guards_of_same rfl rfl)
    case h_2 heq =>
      rw [heq] at hd
      exact hd

theorem write_guards (s : Session σ κ) (own : Bool) (o : Origin) (m : BackendMessage) :
    s.Guards (s.write own o m).1 := by
  unfold write
  split <;> exact guards_of_same rfl rfl

theorem deliverBackend_guarding (s : Session σ κ) (o : Origin) (status : TransactionStatus)
    (m : BackendMessage) : s.Guarding (s.deliverBackend env o status m) := by
  have hs := write_guards s false o m
  unfold deliverBackend
  split
  case h_1 s₁ heq =>
    rw [heq] at hs
    exact hs
  case h_2 s₁ heq =>
    rw [heq] at hs
    have hs₁ : s₁.Guards { s₁ with backend := s₁.backend + 1 } := guards_of_same rfl rfl
    refine Guarding.after (hs.trans hs₁) ?_
    dsimp only
    split
    · exact afterReady_guarding _ status
    · exact Guards.refl _

theorem onUpstream_guarding (s : Session σ κ) : s.Guarding (s.onUpstream env) := by
  unfold onUpstream
  split
  case h_1 => exact Guards.refl s
  case h_2 lease hlease =>
    split
    case h_1 => exact Guards.refl s
    case h_2 o m conn hnext =>
      have hread : s.toCore.readNext env.transactionMode = some (o, m,
          ({ s with lease := some { lease with conn := conn } }.trackBackend env m).toCore) := by
        rw [Core.readNext, hlease]
        dsimp only
        rw [hnext]
        rfl
      have hs : s.Guards
          ({ s with lease := some { lease with conn := conn } }.trackBackend env m) :=
        guards_of_same rfl (congrArg Option.toList (Core.readNext_pid hread))
      dsimp only
      refine Guarding.after hs ((rowPhase_guarding _ m).andThen fun s₁ m' _ => ?_)
      refine (backendPhase_guarding s₁ m').andThen fun s₂ forwarded _ => ?_
      cases forwarded with
      | none => exact guards_of_same rfl rfl
      | some m'' => exact deliverBackend_guarding s₂ o _ m''

/-! ## Iterations, the start and the end -/

theorem step_guards (hi : s.Unscattered) {e : Event} (hnf : s.NoFailure e) :
    s.Guards (s.step env e) := by
  have harm : s.Guarding (s.arm env e) := by
    cases e with
    | client m t => exact onClient_guarding hi hnf m
    | clientGone => exact Guards.refl s
    | upstream => exact onUpstream_guarding s
    | upstreamClosed =>
        have hl : s.lease = none := Option.isNone_iff_eq_none.mp hnf
        rw [arm, onUpstreamClosed, hl]
        exact Guards.refl s
    | upstreamError reason =>
        have hl : s.lease = none := Option.isNone_iff_eq_none.mp hnf
        rw [arm, hl]
        exact Guards.refl s
    | cancel =>
        show Guards s (s.onCancel env)
        unfold onCancel
        split
        case h_1 lease hlease =>
          exact guards_of_same rfl (congrArg Option.toList (Core.cancel_pid env.upstream hlease))
        case h_2 => exact Guards.refl s
    | shutdown =>
        rw [arm, onShutdown]
        split <;> exact guards_of_same rfl rfl
  unfold step
  split
  · exact Guards.refl s
  · exact (close_post (Q := fun s' _ => s.Guards s') harm).trans (guards_of_same rfl rfl)

theorem baselineAttempts_guards (n : Nat) (s : Session σ κ) :
    s.Guards (baselineAttempts env n s).1 := by
  induction n generalizing s with
  | zero => exact Guards.refl s
  | succ n ih =>
      have hb := (dispatchUpstream_beside env s none).guards rfl
      rw [baselineAttempts]
      refine hb.trans ?_
      generalize (s.dispatchUpstream env none).1 = s₁
      dsimp only
      split
      case h_1 => exact Guards.refl s₁
      case h_2 endpoint _ =>
        have hprobe : ∀ others, s₁.world.Custody others →
            (s₁.world.baselineParams env.upstream
              (env.poolKey s₁.params endpoint.id)).1.Custody others :=
          fun others h => h.baselineParams _
        split
        case h_1 world _ heq =>
          rw [heq] at hprobe
          have hs : s₁.Guards { s₁ with world := world } := fun others h => hprobe _ h
          exact hs.trans ((dispatchOnUpstreamConnected_beside _ endpoint.id).guards rfl)
        case h_2 world e heq =>
          rw [heq] at hprobe
          have hs : s₁.Guards { s₁ with world := world } := fun others h => hprobe _ h
          have he := (dispatchOnUpstreamError_beside { s₁ with world := world }
            (.connect endpoint.id e)).1.guards rfl
          refine (hs.trans he).trans ?_
          split
          · exact Guards.refl _
          · exact ih _

theorem start_guards (s : Session σ κ) : s.Guards (s.start env) := by
  unfold start
  split
  · have hs : s.Guards (s.baselineParamsRouted env).1 := baselineAttempts_guards _ s
    split
    case h_1 heq =>
      rw [heq] at hs
      exact hs
    case h_2 heq =>
      rw [heq] at hs
      exact (hs.trans (sendAttachFatal_guards _ _)).trans (guards_of_same rfl rfl)
  · have hs : s.Guards (s.ensureAttached env none).1 := ensureAttached_guards none s
    split
    case h_1 heq | h_2 heq =>
      rw [heq] at hs
      exact hs.trans (guards_of_same rfl rfl)

theorem finish_guards (s : Session σ κ) (arrived : Nat) : s.Guards (s.finish env arrived) := by
  unfold finish
  split
  case h_1 lease _ hlease =>
    intro others h
    rw [held, Core.pid_some hlease] at h
    exact World.Custody.checkin h s.hygiene arrived
  case h_2 lease _ hlease =>
    intro others h
    rw [held, Core.pid_some hlease] at h
    exact World.Custody.destroy h
  case h_3 lease _ hlease =>
    intro others h
    rw [held, Core.pid_some hlease] at h
    exact World.Custody.abandon h
  case h_4 => exact Guards.refl s

end Session

end Pgferry
