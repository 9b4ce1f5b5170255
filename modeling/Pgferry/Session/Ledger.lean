/-
  What leaves the interceptor's books alone.

  `SessionHooks` keeps, beside the interceptor's context, the schema of the last result set and
  the tracking of the current cycle. Writing to the client, attaching, detaching, losing a
  connection and running a scatter change none of these and report nothing (`SameLedger`); the
  contexts of the hooks may change. What is left are the three places that the pump calls by
  name: `startCycle`, `trackCycle` and `endCycle`.
-/
import Pgferry.Session.Attempt
import Pgferry.Session.Frames
import Pgferry.Session.Runs

namespace Pgferry

open Loop Loop.Flow

variable {σ κ : Type}

/-- What the hooks keep beside the context. -/
def SessionHooks.ledger (h : SessionHooks κ) : Interceptor κ × RowSchema × CycleTracking :=
  (h.interceptor, h.schema, h.cycle)

namespace Session

def ledger (s : Session σ κ) : Option (Interceptor κ × RowSchema × CycleTracking) :=
  s.hooks.map SessionHooks.ledger

/-- `s'` has the schema, the tracking and the reports of `s`. -/
structure SameLedger (s s' : Session σ κ) : Prop where
  ledger : s'.ledger = s.ledger
  reports : s'.reports = s.reports

theorem SameLedger.refl (s : Session σ κ) : s.SameLedger s := ⟨rfl, rfl⟩

theorem SameLedger.trans {s s' s'' : Session σ κ} (h : s.SameLedger s')
    (h' : s'.SameLedger s'') : s.SameLedger s'' :=
  ⟨h'.ledger.trans h.ledger, h'.reports.trans h.reports⟩

theorem SameLedger.hooks {s s' : Session σ κ} (h : s.SameLedger s') {k : SessionHooks κ}
    (hk : s.hooks = some k) : ∃ k', s'.hooks = some k' ∧ k'.ledger = k.ledger := by
  have hl := h.ledger
  rw [Session.ledger, Session.ledger, hk] at hl
  exact Option.map_eq_some_iff.mp hl

theorem SameLedger.interceptor {s s' : Session σ κ} (h : s.SameLedger s') :
    s'.interceptor = s.interceptor := by
  have hmap : ∀ s : Session σ κ, s.interceptor = s.ledger.map fun l => l.1 := by
    intro s
    unfold Session.interceptor Session.ledger
    cases s.hooks <;> rfl
  rw [hmap, hmap, h.ledger]

/-- A hook's new context. -/
theorem withCtx_ledger {s : Session σ κ} {h : SessionHooks κ} (hs : s.hooks = some h) (ctx : κ) :
    s.SameLedger { s with hooks := some { h with ctx := ctx } } :=
  ⟨by rw [ledger, ledger, hs]; rfl, rfl⟩

theorem write_ledger (s : Session σ κ) (own : Bool) (o : Origin) (m : BackendMessage) :
    s.SameLedger (s.write own o m).1 := by
  unfold write
  split
  · exact .refl s
  · exact ⟨rfl, rfl⟩

theorem writeAll_ledger (s : Session σ κ) (ms : List BackendMessage) :
    s.SameLedger (s.writeAll ms).1 := by
  induction ms generalizing s with
  | nil => exact .refl s
  | cons m ms ih =>
      have hw := s.write_ledger true s.origin m
      rw [writeAll]
      split
      case h_1 heq =>
        rw [heq] at hw
        exact hw
      case h_2 s₁ heq =>
        rw [heq] at hw
        exact hw.trans (ih s₁)

/-- When a write fails, not everything was written. -/
theorem writeAll_short (s : Session σ κ) (ms : List BackendMessage)
    (h : (s.writeAll ms).2 = false) : (s.writeAll ms).1.log.length < s.log.length + ms.length := by
  induction ms generalizing s with
  | nil => cases h
  | cons m ms ih =>
      have hw := s.write_spec true s.origin m
      rw [writeAll] at h ⊢
      split at h
      case h_1 heq =>
        rw [heq] at hw
        rcases hw with hw | ⟨hw, _⟩
        · rw [(Prod.mk.inj hw).1, List.length_cons]
          exact Nat.lt_add_of_pos_right (Nat.succ_pos _)
        · cases hw
      case h_2 s₁ heq =>
        rw [heq] at hw
        rcases hw with hw | ⟨_, hb⟩
        · cases hw
        · have hlen : s₁.log.length = s.log.length + 1 := by
            rw [hb.core]
            exact List.length_append
          have := ih s₁ h
          rw [List.length_cons]
          omega

/-- What holds of the messages that were sent, and of a part of them when the client goes away. -/
theorem sendAll_ledger {s : Session σ κ} {ms : List BackendMessage}
    {P : Session σ κ → Unit → Prop} {Q : Session σ κ → Option End → Prop}
    (hP : ∀ s', s.SameLedger s' → s'.toCore = s.toCore.emit (s.toCore.answers ms) → P s' ())
    (hQ : ∀ s' ns, ns <+: ms → ns.length < ms.length → s.SameLedger s' →
      s'.toCore = s.toCore.emit (s.toCore.answers ns) → Q s' (some .clientGone)) :
    (s.sendAll ms).Post P Q := by
  obtain ⟨pre, hpre, hb, hall⟩ := writeAll_spec s ms
  have ha := s.writeAll_ledger ms
  have hshort := s.writeAll_short ms
  unfold sendAll
  split
  case h_1 s₁ heq =>
    rw [heq] at hall hb ha
    exact hP s₁ ha (hb.core.trans (by rw [hall rfl]))
  case h_2 s₁ heq =>
    rw [heq] at hb ha hshort
    obtain ⟨ns, hns, rfl⟩ := Core.answers_of_prefix hpre
    refine hQ s₁ ns hns ?_ ha hb.core
    have hlen := hshort rfl
    rw [hb.core] at hlen
    have hlog : (s.toCore.emit (s.toCore.answers ns)).log.length = s.log.length + ns.length := by
      rw [Core.emit, List.length_append, Core.answers, List.length_map]
    omega

/-! ## Hooks -/

theorem dispatchUpstream_ledger (env : Env σ) (s : Session σ κ) (sql : Option String) :
    s.SameLedger (s.dispatchUpstream env sql).1 := by
  unfold dispatchUpstream
  cases h : s.hooks with
  | none => exact .refl s
  | some hk => exact withCtx_ledger h _

theorem dispatchOnUpstreamConnected_ledger (s : Session σ κ) (endpoint : String) :
    s.SameLedger (s.dispatchOnUpstreamConnected endpoint) := by
  unfold dispatchOnUpstreamConnected
  cases h : s.hooks with
  | none => exact .refl s
  | some hk => exact withCtx_ledger h _

theorem dispatchOnUpstreamError_ledger (s : Session σ κ) (error : UpstreamError) :
    s.SameLedger (s.dispatchOnUpstreamError error).1 := by
  unfold dispatchOnUpstreamError
  cases h : s.hooks with
  | none => exact .refl s
  | some hk => exact withCtx_ledger h _

theorem askLost_ledger (s : Session σ κ) (message : String) :
    s.SameLedger (s.askLost message).1 := by
  have ha := s.dispatchOnUpstreamError_ledger (.connectionLost (s.currentEndpoint.getD "") message)
  unfold askLost
  dsimp only
  split
  · exact ⟨ha.ledger, ha.reports⟩
  · exact ha

/-! ## Connections -/

theorem sendAttachFatal_ledger (s : Session σ κ) (message : String) :
    s.SameLedger (s.sendAttachFatal message) :=
  s.write_ledger _ _ _

theorem prepare_ledger (env : Env σ) (s : Session σ κ) (conn : Conn σ) :
    s.SameLedger (s.prepare env conn).1 := by
  unfold prepare
  split
  · exact .refl s
  · split
    · exact ⟨rfl, rfl⟩
    · split <;> exact ⟨rfl, rfl⟩

theorem afterFailure_ledger (s : Session σ κ) (error : UpstreamError) (message : String) :
    s.SameLedger (s.afterFailure error message).session := by
  have hasked := s.dispatchOnUpstreamError_ledger error
  unfold afterFailure
  split <;> exact hasked

theorem attempt_ledger (env : Env σ) (sqlHint : Option String) (s : Session σ κ) :
    s.SameLedger (s.attempt env sqlHint).session := by
  have hroute := s.dispatchUpstream_ledger env sqlHint
  have hworld : ∀ world, s.SameLedger { (s.dispatchUpstream env sqlHint).1 with world := world } :=
    fun _ => ⟨hroute.ledger, hroute.reports⟩
  have htries := attempt_tries env sqlHint s
  generalize s.attempt env sqlHint = outcome at htries
  cases htries with
  | unknown message => exact hroute
  | refused _ world => exact (hworld world).trans (afterFailure_ledger _ _ _)
  | unprepared _ world lease t' _ _ _ _ _ hprep =>
      have hall := (hworld world).trans (prepare_ledger env _ lease.conn)
      rw [hprep] at hall
      have hlost : s.SameLedger { t' with world := t'.world.destroy lease } :=
        ⟨hall.ledger, hall.reports⟩
      exact hlost.trans (afterFailure_ledger _ _ _)
  | attached endpoint world lease t' _ _ _ hprep =>
      have hall := (hworld world).trans (prepare_ledger env _ lease.conn)
      rw [hprep] at hall
      have hcon := hall.trans (t'.dispatchOnUpstreamConnected_ledger endpoint.id)
      exact ⟨hcon.ledger, hcon.reports⟩

theorem attachAttempts_ledger (env : Env σ) (sqlHint : Option String) (n : Nat)
    (s : Session σ κ) : s.SameLedger (attachAttempts env sqlHint n s).1 :=
  attachAttempts_rule (P := s.SameLedger) (Q := fun t _ => s.SameLedger t)
    (fun t h => .of_session (h.trans (attempt_ledger env sqlHint t))
      fun t message h => h.trans (t.sendAttachFatal_ledger message))
    (fun t message h => h.trans (t.sendAttachFatal_ledger message)) n s (.refl s)

theorem ensureAttached_ledger (env : Env σ) (s : Session σ κ) (sqlHint : Option String) :
    s.SameLedger (s.ensureAttached env sqlHint).1 := by
  unfold ensureAttached
  split
  · exact .refl s
  · exact attachAttempts_ledger env sqlHint _ s

theorem baselineAttempts_ledger (env : Env σ) (n : Nat) (s : Session σ κ) :
    s.SameLedger (baselineAttempts env n s).1 := by
  induction n generalizing s with
  | zero => exact .refl s
  | succ n ih =>
      have hroute := s.dispatchUpstream_ledger env none
      have hworld : ∀ world, s.SameLedger { (s.dispatchUpstream env none).1 with world := world } :=
        fun _ => ⟨hroute.ledger, hroute.reports⟩
      rw [baselineAttempts]
      dsimp only
      split
      · exact hroute
      · split
        case h_1 => exact (hworld _).trans (dispatchOnUpstreamConnected_ledger _ _)
        case h_2 world e _ =>
          have hask := fun error => (hworld world).trans (dispatchOnUpstreamError_ledger _ error)
          split
          · exact hask _
          · exact (hask _).trans (ih _)

/-- The start of a session touches none of it. -/
theorem start_ledger (env : Env σ) (s : Session σ κ) : s.SameLedger (s.start env) := by
  unfold start baselineParamsRouted
  split
  · have hbase := baselineAttempts_ledger env (max (env.route.endpoints.length * 2) 2) s
    split
    case h_1 heq =>
      rw [heq] at hbase
      exact hbase
    case h_2 s₁ e heq =>
      rw [heq] at hbase
      have hfatal := hbase.trans
        (s₁.sendAttachFatal_ledger ("pgferry: failed to connect to upstream: " ++ e))
      exact ⟨hfatal.ledger, hfatal.reports⟩
  · have hatt := ensureAttached_ledger env s none
    split
    case h_1 heq =>
      rw [heq] at hatt
      exact ⟨hatt.ledger, hatt.reports⟩
    case h_2 heq =>
      rw [heq] at hatt
      exact ⟨hatt.ledger, hatt.reports⟩

theorem detachIfIdle_ledger (env : Env σ) (s : Session σ κ) (status : TransactionStatus) :
    s.SameLedger (s.detachIfIdle env status).1 := by
  unfold detachIfIdle
  split
  · exact .refl s
  · split
    · exact .refl s
    · split
      · exact .refl s
      · exact ⟨rfl, rfl⟩

/-! ## Scatter -/

theorem writeMerged_ledger (env : Env σ) (s : Session σ κ) (request : ScatterRequest)
    (sources : List BackendMessage) (totalRows : Nat) (outcomes : List (LegOutcome σ)) :
    s.SameLedger (s.writeMerged env request sources totalRows outcomes).1 := by
  unfold writeMerged
  split
  case h_1 => exact ⟨rfl, rfl⟩
  case h_2 => exact ⟨rfl, rfl⟩
  case h_3 messages _ _ =>
    have hw := s.writeAll_ledger messages
    split
    case h_1 heq =>
      rw [heq] at hw
      exact ⟨hw.ledger, hw.reports⟩
    case h_2 heq =>
      rw [heq] at hw
      exact ⟨hw.ledger, hw.reports⟩

theorem executeScatter_ledger (env : Env σ) (s : Session σ κ) (request : ScatterRequest)
    (t : Timing) : s.SameLedger (s.executeScatter env request t).1 := by
  have hleg : ∀ (world : World σ) leg,
      s.SameLedger ({ s with world := world }.runSessionLeg env leg).1 := by
    intro world leg
    unfold runSessionLeg
    split <;> exact ⟨rfl, rfl⟩
  unfold executeScatter
  split
  · exact .refl s
  · dsimp only
    split
    · exact ⟨rfl, rfl⟩
    · split
      · exact (hleg _ _).trans (writeMerged_ledger _ _ _ _ _ _)
      · split
        · exact SameLedger.trans (hleg _ _) ⟨rfl, rfl⟩
        · split
          · exact SameLedger.trans (hleg _ _) ⟨rfl, rfl⟩
          · exact (hleg _ _).trans (writeMerged_ledger _ _ _ _ _ _)

end Session

end Pgferry
