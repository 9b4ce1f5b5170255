/-
  One attempt of `ensure_attached`.

  An attempt routes, checks a connection out and prepares it. It ends in one of three ways
  (`Attempt`): the session is attached, it goes on to the next attempt, or it gives up with a last
  message for the client. `Tries` are the ways through an attempt behind the routing.

  Proved: `attempt_tries`, every attempt goes one of these ways; `attachAttempts_succ`, the loop of
  `ensure_attached` iterates `attempt`; and `attachAttempts_rule`, what one attempt keeps the loop
  keeps.
-/
import Pgferry.Session.Attach

namespace Pgferry

variable {σ κ : Type}

/-- The outcome of one attempt. -/
inductive Attempt (σ κ : Type) where
  | attached (s : Session σ κ)
  | retry (s : Session σ κ)
  | fatal (s : Session σ κ) (message : String)

namespace Attempt

/-- The session in which an attempt ends. -/
def session : Attempt σ κ → Session σ κ
  | .attached s => s
  | .retry s => s
  | .fatal s _ => s

/-- Postcondition of an attempt: `A` of an attached session, `P` of one that goes on and `F` of
    one that gives up with a message. -/
def Post (A P : Session σ κ → Prop) (F : Session σ κ → String → Prop) : Attempt σ κ → Prop
  | .attached s => A s
  | .retry s => P s
  | .fatal s message => F s message

theorem Post.mono {a : Attempt σ κ} {A A' P P' : Session σ κ → Prop}
    {F F' : Session σ κ → String → Prop} (h : a.Post A P F) (hA : ∀ s, A s → A' s)
    (hP : ∀ s, P s → P' s) (hF : ∀ s message, F s message → F' s message) : a.Post A' P' F' := by
  cases a with
  | attached s => exact hA s h
  | retry s => exact hP s h
  | fatal s message => exact hF s message h

/-- What holds of the session however the attempt ends. -/
theorem Post.of_session {a : Attempt σ κ} {P : Session σ κ → Prop}
    {F : Session σ κ → String → Prop} (h : P a.session) (hF : ∀ s message, P s → F s message) :
    a.Post P P F := by
  cases a with
  | attached s => exact h
  | retry s => exact h
  | fatal s message => exact hF s message h

end Attempt

namespace Session

/-- The error policy after a failed attempt. -/
def afterFailure (s : Session σ κ) (error : UpstreamError) (message : String) : Attempt σ κ :=
  match (s.dispatchOnUpstreamError error).2 with
  | .close => .fatal (s.dispatchOnUpstreamError error).1 message
  | .relink => .retry (s.dispatchOnUpstreamError error).1

/-- A failed attempt goes on or gives up after the hook has been told. -/
theorem afterFailure_post {s : Session σ κ} {error : UpstreamError} {message : String}
    {A P : Session σ κ → Prop} {F : Session σ κ → String → Prop}
    (hP : P (s.dispatchOnUpstreamError error).1)
    (hF : F (s.dispatchOnUpstreamError error).1 message) :
    (s.afterFailure error message).Post A P F := by
  unfold afterFailure
  split
  · exact hF
  · exact hP

/-- The session that has taken `lease` with the prepared connection `conn`. -/
def attachedTo (s : Session σ κ) (endpoint : String) (lease : UpstreamLease σ) (conn : Conn σ) :
    Session σ κ :=
  let s := s.dispatchOnUpstreamConnected endpoint
  { s with
    currentEndpoint := some endpoint
    lease := some { lease with conn := conn }
    log := s.log ++ [.attached conn.processId endpoint] }

/-- One round of the loop of `ensure_attached`. -/
def attempt (env : Env σ) (sqlHint : Option String) (s : Session σ κ) : Attempt σ κ :=
  let routed := s.dispatchUpstream env sqlHint
  match env.route.endpoint routed.2 with
  | none => .fatal routed.1 ("pgferry: unknown upstream endpoint " ++ debugText routed.2)
  | some endpoint =>
      match routed.1.world.checkout env.upstream (env.poolKey routed.1.params endpoint.id) with
      | (world, .error e) =>
          { routed.1 with world := world }.afterFailure (.connect endpoint.id e)
            ("pgferry: failed to connect to upstream: " ++ e)
      | (world, .ok lease) =>
          match { routed.1 with world := world }.prepare env lease.conn with
          | (s, .error e) =>
              { s with world := s.world.destroy lease }.afterFailure
                (.connect endpoint.id e.message) e.fatal
          | (s, .ok conn) => .attached (s.attachedTo endpoint.id lease conn)

/-- The loop of `ensure_attached` iterates `attempt`. -/
theorem attachAttempts_succ (env : Env σ) (sqlHint : Option String) (n : Nat) (s : Session σ κ) :
    attachAttempts env sqlHint (n + 1) s =
      match s.attempt env sqlHint with
      | .attached s => (s, true)
      | .retry s => attachAttempts env sqlHint n s
      | .fatal s message => (s.sendAttachFatal message, false) := by
  have hafter : ∀ (s : Session σ κ) (error : UpstreamError) (message : String),
      (match s.afterFailure error message with
        | .attached s => (s, true)
        | .retry s => attachAttempts env sqlHint n s
        | .fatal s message => (s.sendAttachFatal message, false)) =
      match (s.dispatchOnUpstreamError error).2 with
        | .close => ((s.dispatchOnUpstreamError error).1.sendAttachFatal message, false)
        | .relink => attachAttempts env sqlHint n (s.dispatchOnUpstreamError error).1 := by
    intro s error message
    unfold afterFailure
    cases (s.dispatchOnUpstreamError error).2 <;> rfl
  rw [attachAttempts, attempt]
  dsimp only
  cases env.route.endpoint (s.dispatchUpstream env sqlHint).2 with
  | none => rfl
  | some endpoint =>
      dsimp only
      rcases (s.dispatchUpstream env sqlHint).1.world.checkout env.upstream
        (env.poolKey (s.dispatchUpstream env sqlHint).1.params endpoint.id)
        with ⟨world, e | lease⟩
      · exact (hafter _ _ _).symm
      · dsimp only
        rcases prepare env { (s.dispatchUpstream env sqlHint).1 with world := world } lease.conn
          with ⟨s', e | conn⟩
        · exact (hafter _ _ _).symm
        · rfl

/-- What one attempt keeps, the loop keeps. -/
theorem attachAttempts_rule {env : Env σ} {sqlHint : Option String} {P : Session σ κ → Prop}
    {Q : Session σ κ → Bool → Prop}
    (hstep : ∀ s : Session σ κ, P s → (s.attempt env sqlHint).Post (fun t => Q t true) P
      fun t message => Q (t.sendAttachFatal message) false)
    (hlast : ∀ (s : Session σ κ) message, P s → Q (s.sendAttachFatal message) false) (n : Nat)
    (s : Session σ κ) (h : P s) :
    Q (attachAttempts env sqlHint n s).1 (attachAttempts env sqlHint n s).2 := by
  induction n generalizing s with
  | zero => exact hlast s _ h
  | succ n ih =>
      have hattempt := hstep s h
      rw [attachAttempts_succ]
      cases hout : s.attempt env sqlHint with
      | attached t =>
          rw [hout] at hattempt
          exact hattempt
      | retry t =>
          rw [hout] at hattempt
          exact ih t hattempt
      | fatal t message =>
          rw [hout] at hattempt
          exact hattempt

/-- `prepare` changes nothing but the dirty flag. -/
theorem prepare_dirty (env : Env σ) (s : Session σ κ) (conn : Conn σ) :
    ∃ dirty, (s.prepare env conn).1 = { s with leaseDirty := dirty } := by
  unfold prepare
  split
  · exact ⟨s.leaseDirty, rfl⟩
  · split
    · exact ⟨_, rfl⟩
    · split
      · exact ⟨_, rfl⟩
      · exact ⟨_, rfl⟩

/-- The ways through an attempt of a session that has been routed. -/
inductive Tries (env : Env σ) (t : Session σ κ) : Attempt σ κ → Prop where
  | unknown (message : String) : Tries env t (.fatal t message)
  | refused (endpoint : EndpointConfig) (world : World σ) (e message : String)
      (error : UpstreamError) (hmem : endpoint ∈ env.route.endpoints)
      (hout : t.world.checkout env.upstream (env.poolKey t.params endpoint.id) =
        (world, .error e)) :
      Tries env t ({ t with world := world }.afterFailure error message)
  | unprepared (endpoint : EndpointConfig) (world : World σ) (lease : UpstreamLease σ)
      (t' : Session σ κ) (e : PrepareError) (message : String) (error : UpstreamError)
      (hmem : endpoint ∈ env.route.endpoints)
      (hout : t.world.checkout env.upstream (env.poolKey t.params endpoint.id) =
        (world, .ok lease))
      (hprep : { t with world := world }.prepare env lease.conn = (t', .error e)) :
      Tries env t ({ t' with world := t'.world.destroy lease }.afterFailure error message)
  | attached (endpoint : EndpointConfig) (world : World σ) (lease : UpstreamLease σ)
      (t' : Session σ κ) (conn : Conn σ) (hmem : endpoint ∈ env.route.endpoints)
      (hout : t.world.checkout env.upstream (env.poolKey t.params endpoint.id) =
        (world, .ok lease))
      (hprep : { t with world := world }.prepare env lease.conn = (t', .ok conn)) :
      Tries env t (.attached (t'.attachedTo endpoint.id lease conn))

theorem attempt_tries (env : Env σ) (sqlHint : Option String) (s : Session σ κ) :
    Tries env (s.dispatchUpstream env sqlHint).1 (s.attempt env sqlHint) := by
  unfold attempt
  dsimp only
  generalize s.dispatchUpstream env sqlHint = routed
  obtain ⟨t, id⟩ := routed
  cases hfound : env.route.endpoint id with
  | none => exact .unknown _
  | some endpoint =>
      have hmem := List.mem_of_find?_eq_some hfound
      dsimp only
      cases hout : t.world.checkout env.upstream (env.poolKey t.params endpoint.id) with
      | mk world result =>
          cases result with
          | error e => exact .refused endpoint world e _ _ hmem hout
          | ok lease =>
              dsimp only
              cases hprep : { t with world := world }.prepare env lease.conn with
              | mk t' result =>
                  cases result with
                  | error e => exact .unprepared endpoint world lease t' e _ _ hmem hout hprep
                  | ok conn => exact .attached endpoint world lease t' conn hmem hout hprep

end Session

end Pgferry
