/-
  Sessions whose interceptor only routes.

  Such an interceptor is asked for an endpoint, told about a connect, and told about failures. No
  other hook changes its state, so an iteration of the pump leaves the state alone (`Aside`) apart
  from the one attach that it may make. `beforeAttach` is the client arm up to that attach, and
  `refused` says that the attach ends the session with `send_attach_fatal`.

  Proved: `step_sound`. Without upstream failures, and when the server takes what the attach of a
  detached session puts on a connection, no iteration reports a failure to the interceptor and
  none is refused; `start_sound` for the start of a session.
-/
import Pgferry.Session.Agree
import Pgferry.Session.Hosting

namespace Pgferry

open Loop Loop.Flow

variable {σ κ : Type}

namespace Session

/-! ## The client arm up to the attach -/

/-- The message to go on with, the statement to record and the SQL for the routing hook. -/
def beforeAttach (env : Env σ) (t : Timing) (s : Session σ κ) (m : FrontendMessage) :
    Flow (Session σ κ) End (FrontendMessage × PendingParse × Option String) :=
  let s := { s with toCore := s.toCore.recv m }
  if m = .terminate then .halt s (some .clientGone)
  else
    (s.swallowPhase m).andThen fun s _ =>
      (s.localPhase env m).andThen fun s _ =>
        (s.queryPhase env t m).andThen fun s m' =>
          (s.registryPhase m').andThen fun s pending =>
            .next s (m', pending, (cycleSqlOf m).orElse fun _ => bindStatementSql m' s.registry)

/-- The client arm is the part up to the attach and the part from there. -/
theorem onClient_eq (env : Env σ) (t : Timing) (s : Session σ κ) (m : FrontendMessage) :
    s.onClient env t m = (s.beforeAttach env t m).andThen fun s r =>
      (s.attachPhase env r.2.2 r.2.1).andThen fun s _ =>
        (s.frontendPhase r.1).andThen fun s m'' => s.forwardPhase env t.sendOk m'' := by
  unfold onClient beforeAttach passPhases
  dsimp only
  split
  · rfl
  · simp only [andThen_assoc, andThen_next]

/-- The iteration ends the session with `send_attach_fatal`. -/
def refused (env : Env σ) (s : Session σ κ) : Event → Bool
  | .client m t =>
      match s.beforeAttach env t m with
      | .next s r => !(s.ensureAttached env r.2.2).2
      | .halt _ _ => false
  | _ => false

/-! ## What is left alone -/

/-- The state of the interceptor and the outcome of the connects are the same. -/
structure Aside (s s' : Session σ κ) : Prop where
  supply : s'.world.supply = s.world.supply
  state : s'.hooks.map SessionHooks.ctx = s.hooks.map SessionHooks.ctx
  interceptor : s'.interceptor = s.interceptor

variable {P : κ → Prop} {s s' s'' : Session σ κ} {env : Env σ}

theorem Aside.refl (s : Session σ κ) : s.Aside s := ⟨rfl, rfl, rfl⟩

theorem Aside.trans (h : s.Aside s') (h' : s'.Aside s'') : s.Aside s'' :=
  ⟨h'.supply.trans h.supply, h'.state.trans h.state, h'.interceptor.trans h.interceptor⟩

theorem Aside.routed (h : s.Aside s') (hi : s.Routed P) : s'.Routed P := by
  unfold Routed
  rw [h.interceptor]
  exact hi

theorem Aside.sound (h : s.Aside s') (hs : s.Sound P) : s'.Sound P := by
  refine ⟨?_, fun k hk => ?_⟩
  · rw [World.Supplies, h.supply]
    exact hs.supplies
  · have hctx : s.hooks.map SessionHooks.ctx = some k.ctx := by
      rw [← h.state, hk]
      rfl
    obtain ⟨k₀, hk₀, he⟩ := Option.map_eq_some_iff.mp hctx
    exact he ▸ hs.state k₀ hk₀

theorem trackCycle_aside (s : Session σ κ) (f : CycleTracking → CycleTracking) :
    s.Aside (s.trackCycle f) := by
  cases h : s.hooks <;> exact ⟨rfl, by simp [trackCycle, h], by simp [trackCycle, interceptor, h]⟩

theorem endCycle_aside (hi : s.Routed P) : s.Aside s.endCycle := by
  unfold endCycle
  cases h : s.hooks with
  | none => exact .refl s
  | some k =>
      have hroutes : k.interceptor.Routes P := hi _ (by simp [Session.interceptor, h])
      exact ⟨rfl, by simp [h, hroutes.onCycleEnd], by simp [Session.interceptor, h]⟩

theorem endActiveCycle_aside (hi : s.Routed P) : s.Aside s.endActiveCycle := by
  unfold endActiveCycle
  split
  · split
    · exact endCycle_aside hi
    · exact .refl s
  · exact .refl s

theorem write_aside (s : Session σ κ) (own : Bool) (o : Origin) (m : BackendMessage) :
    s.Aside (s.write own o m).1 := by
  unfold write
  split <;> exact ⟨rfl, rfl, rfl⟩

theorem writeAll_aside (s : Session σ κ) (ms : List BackendMessage) :
    s.Aside (s.writeAll ms).1 := by
  induction ms generalizing s with
  | nil => exact .refl s
  | cons m ms ih =>
      have hw := write_aside s true s.origin m
      rw [writeAll]
      split
      case h_1 heq =>
        rw [heq] at hw
        exact hw
      case h_2 heq =>
        rw [heq] at hw
        exact hw.trans (ih _)

/-- Every exit of a phase leaves the state alone. -/
def Quietly {α : Type} (s : Session σ κ) (f : Flow (Session σ κ) End α) : Prop :=
  f.Post (fun s' _ => s.Aside s') (fun s' _ => s.Aside s')

theorem sendAll_quietly (s : Session σ κ) (ms : List BackendMessage) :
    s.Quietly (s.sendAll ms) := by
  have h := writeAll_aside s ms
  unfold sendAll
  split
  case h_1 heq | h_2 heq =>
    rw [heq] at h
    exact h

theorem Quietly.andThen {α β : Type} {f : Flow (Session σ κ) End α}
    {g : Session σ κ → α → Flow (Session σ κ) End β} (hf : s.Quietly f)
    (hg : ∀ s' a, s.Aside s' → s'.Quietly (g s' a)) : s.Quietly (f.andThen g) :=
  andThen_post hf fun s' a hs' =>
    (hg s' a hs').mono (fun _ _ h => hs'.trans h) (fun _ _ h => hs'.trans h)

/-! ## Up to the attach -/

/-- On the way to the attach nothing changes that the attach depends on. -/
structure Ahead (s s' : Session σ κ) : Prop extends Aside s s' where
  world : s'.world = s.world
  startup : s'.startupParameters = s.startupParameters
  lease : s'.lease = s.lease
  gucs : s'.gucOverrides = s.gucOverrides
  registry : s'.registry = s.registry

theorem Ahead.refl (s : Session σ κ) : s.Ahead s := ⟨.refl s, rfl, rfl, rfl, rfl, rfl⟩

theorem Ahead.trans (h : s.Ahead s') (h' : s'.Ahead s'') : s.Ahead s'' :=
  ⟨h.toAside.trans h'.toAside, h'.world.trans h.world, h'.startup.trans h.startup,
    h'.lease.trans h.lease, h'.gucs.trans h.gucs, h'.registry.trans h.registry⟩

/-- A phase on the way to the attach. -/
def Heads {α : Type} (s : Session σ κ) (f : Flow (Session σ κ) End α) : Prop :=
  f.Post (fun s' _ => s.Ahead s') (fun s' _ => s.Aside s')

theorem Heads.andThen {α β : Type} {f : Flow (Session σ κ) End α}
    {g : Session σ κ → α → Flow (Session σ κ) End β} (hf : s.Heads f)
    (hg : ∀ s' a, s.Ahead s' → s'.Heads (g s' a)) : s.Heads (f.andThen g) :=
  andThen_post hf fun s' a hs' =>
    (hg s' a hs').mono (fun _ _ h => hs'.trans h) (fun _ _ h => hs'.toAside.trans h)

/-- A phase that writes to the client and leaves the iteration. -/
theorem heads_answer {α : Type} {ms : List BackendMessage} (s' : Session σ κ)
    {g : Session σ κ → Unit → Flow (Session σ κ) End α} (hs : s.Aside s')
    (hg : ∀ s'', s'.Aside s'' → ∃ s₃ e, g s'' () = .halt s₃ e ∧ s''.Aside s₃) :
    s.Heads ((s'.sendAll ms).andThen g) := by
  refine andThen_post (P := fun s'' _ => s'.Aside s'')
    ((sendAll_quietly s' ms).mono (fun _ _ h => h) (fun _ _ h => hs.trans h)) fun s'' _ hs'' => ?_
  obtain ⟨s₃, e, heq, h⟩ := hg s'' hs''
  rw [heq]
  exact hs.trans (hs''.trans h)

theorem swallowPhase_heads (hi : s.Routed P) (m : FrontendMessage) :
    s.Heads (s.swallowPhase m) := by
  unfold swallowPhase
  split
  · split
    · refine heads_answer { s with swallowUntilSync := false } ⟨rfl, rfl, rfl⟩
        fun s'' h => ⟨_, _, rfl, endCycle_aside (P := P) (h.routed hi)⟩
    · exact .refl s
  · exact Ahead.refl s

theorem localPhase_heads (hi : s.Routed P) (m : FrontendMessage) :
    s.Heads (s.localPhase env m) := by
  unfold localPhase
  split
  · split
    · exact heads_answer s (.refl s) fun s'' h =>
        ⟨_, _, rfl, endActiveCycle_aside (P := P) (h.routed hi)⟩
    · exact .refl s
    · exact heads_answer _ ⟨rfl, rfl, rfl⟩ fun s'' _ => ⟨_, _, rfl, .refl s''⟩
    · exact Ahead.refl s
  · exact Ahead.refl s

theorem queryPhase_heads (hi : s.Routed P) (t : Timing) (m : FrontendMessage) :
    s.Heads (s.queryPhase env t m) := by
  unfold queryPhase
  split
  case h_1 => exact Ahead.refl s
  case h_2 input _ =>
    dsimp only
    split
    case h_1 => exact ⟨⟨rfl, rfl, rfl⟩, rfl, rfl, rfl, rfl, rfl⟩
    case h_2 h hh =>
      have hh' : s.hooks = some h := hh
      have hroutes : h.interceptor.Routes P := hi _ (by simp [Session.interceptor, hh'])
      rw [hroutes.onQuery]
      refine ⟨⟨rfl, ?_, ?_⟩, rfl, rfl, rfl, rfl, rfl⟩
      · simp [startCycle, hh']
      · simp [startCycle, Session.interceptor, hh']

theorem registryPhase_heads (s : Session σ κ) (m : FrontendMessage) :
    s.Heads (s.registryPhase m) := by
  unfold registryPhase
  split
  · split
    · exact Ahead.refl s
    · split
      · exact Ahead.refl s
      · split
        · exact heads_answer s (.refl s) fun s'' _ => ⟨_, _, rfl, .refl s''⟩
        · exact heads_answer s (.refl s) fun s'' _ => ⟨_, _, rfl, rfl, rfl, rfl⟩
  · exact Ahead.refl s

theorem beforeAttach_heads (env : Env σ) (hi : s.Routed P) (t : Timing) (m : FrontendMessage) :
    s.Heads (s.beforeAttach env t m) := by
  have hrecv : s.Ahead { s with toCore := s.toCore.recv m } :=
    ⟨⟨rfl, rfl, rfl⟩, rfl, rfl, rfl, rfl, rfl⟩
  unfold beforeAttach
  dsimp only
  split
  · exact hrecv.toAside
  · have hi₀ := hrecv.toAside.routed hi
    have hchain := (swallowPhase_heads hi₀ m).andThen
      (g := fun s _ => (s.localPhase env m).andThen fun s _ =>
        (s.queryPhase env t m).andThen fun s m' =>
          (s.registryPhase m').andThen fun s pending => .next s (m', pending,
            (cycleSqlOf m).orElse fun _ => bindStatementSql m' s.registry)) fun s₁ _ h₁ =>
      have hi₁ := h₁.toAside.routed hi₀
      (localPhase_heads hi₁ m).andThen fun s₂ _ h₂ =>
        (queryPhase_heads (h₂.toAside.routed hi₁) t m).andThen fun s₃ m' _ =>
          (registryPhase_heads s₃ m').andThen fun s₄ _ _ => Ahead.refl s₄
    exact hchain.mono (fun _ _ h => hrecv.trans h) (fun _ _ h => hrecv.toAside.trans h)

/-! ## From the attach on -/

theorem frontendPhase_eq (hi : s.Routed P) (m : FrontendMessage) :
    ∃ s', s.frontendPhase m = .next s' m ∧ s.Aside s' := by
  unfold frontendPhase
  split
  case h_1 => exact ⟨s, rfl, .refl s⟩
  case h_2 h hh =>
    have hroutes : h.interceptor.Routes P := hi _ (by simp [Session.interceptor, hh])
    rw [hroutes.onFrontend]
    exact ⟨_, rfl, rfl, by simp [hh], by simp [Session.interceptor, hh]⟩

theorem forwardPhase_quietly (s : Session σ κ) (m : FrontendMessage) :
    s.Quietly (s.forwardPhase env true m) := by
  unfold forwardPhase
  have hs : s.Aside (if m.startsResponse then
      { s with hygiene := { s.hygiene with awaitingResponse := true } } else s) := by
    split <;> exact ⟨rfl, rfl, rfl⟩
  generalize (if m.startsResponse then
    { s with hygiene := { s.hygiene with awaitingResponse := true } } else s) = s₁ at hs
  dsimp only
  split
  · exact hs
  · exact hs.trans ⟨rfl, rfl, rfl⟩

/-- The part of the client arm behind a successful attach. -/
theorem attached_quietly (hi : s.Routed P) (m : FrontendMessage) (pending : PendingParse)
    {sqlHint : Option String} {s₁ : Session σ κ} (h : s.ensureAttached env sqlHint = (s₁, true))
    (hk : s₁.interceptor = s.interceptor) :
    s₁.Quietly ((s.attachPhase env sqlHint pending).andThen fun s _ =>
      (s.frontendPhase m).andThen fun s m'' => s.forwardPhase env true m'') := by
  have hi₁ : s₁.Routed P := by
    unfold Routed
    rw [hk]
    exact hi
  obtain ⟨s₂, heq, hs₂⟩ : ∃ s₂, s.attachPhase env sqlHint pending = .next s₂ () ∧ s₁.Aside s₂ := by
    unfold attachPhase
    rw [h]
    cases pending <;> exact ⟨_, rfl, rfl, rfl, rfl⟩
  rw [heq, andThen_next]
  obtain ⟨s₃, heq₃, hs₃⟩ := frontendPhase_eq (hs₂.routed hi₁) m
  rw [heq₃, andThen_next]
  have hall := hs₂.trans hs₃
  exact (forwardPhase_quietly s₃ m).mono (fun _ _ h => hall.trans h) (fun _ _ h => hall.trans h)

/-! ## The upstream arm -/

theorem rowPhase_quietly (hi : s.Routed P) (m : BackendMessage) : s.Quietly (s.rowPhase m) := by
  unfold rowPhase
  split
  case h_1 => exact Aside.refl s
  case h_2 h hh =>
    have hroutes : h.interceptor.Routes P := hi _ (by simp [Session.interceptor, hh])
    rw [hroutes.wantsRows]
    split <;> first
      | exact Aside.refl s
      | exact trackCycle_aside s _

theorem backendPhase_eq (hi : s.Routed P) (m : BackendMessage) :
    ∃ s', s.backendPhase m = .next s' (some m) ∧ s.Aside s' := by
  unfold backendPhase
  split
  case h_1 => exact ⟨s, rfl, .refl s⟩
  case h_2 h hh =>
    have hroutes : h.interceptor.Routes P := hi _ (by simp [Session.interceptor, hh])
    rw [hroutes.onBackend]
    exact ⟨_, rfl, rfl, by simp [hh], by simp [Session.interceptor, hh]⟩

theorem detachIfIdle_aside (env : Env σ) (s : Session σ κ) (status : TransactionStatus) :
    s.Aside (s.detachIfIdle env status).1 := by
  unfold detachIfIdle
  split
  · exact .refl s
  · split
    · exact .refl s
    · split
      · exact .refl s
      · exact ⟨rfl, rfl, rfl⟩

theorem afterReady_quietly (hi : s.Routed P) (status : TransactionStatus) :
    s.Quietly (s.afterReady env status) := by
  have hend := endActiveCycle_aside hi
  unfold afterReady
  generalize s.endActiveCycle = s₁ at hend
  dsimp only
  split
  · exact hend
  · have hdetach := detachIfIdle_aside env s₁ status
    split
    case h_1 heq =>
      rw [heq] at hdetach
      exact hend.trans (hdetach.trans ⟨rfl, rfl, rfl⟩)
    case h_2 heq =>
      rw [heq] at hdetach
      exact hend.trans hdetach

theorem deliverBackend_quietly (hi : s.Routed P) (o : Origin) (status : TransactionStatus)
    (m : BackendMessage) : s.Quietly (s.deliverBackend env o status m) := by
  have hw := write_aside s false o m
  unfold deliverBackend
  split
  case h_1 heq =>
    rw [heq] at hw
    exact hw
  case h_2 s₁ heq =>
    rw [heq] at hw
    have hw₁ : s.Aside { s₁ with backend := s₁.backend + 1 } := hw.trans ⟨rfl, rfl, rfl⟩
    dsimp only
    split
    · exact (afterReady_quietly (hw₁.routed hi) status).mono (fun _ _ h => hw₁.trans h)
        (fun _ _ h => hw₁.trans h)
    · exact hw₁

theorem onUpstream_quietly (hi : s.Routed P) : s.Quietly (s.onUpstream env) := by
  unfold onUpstream
  split
  case h_1 => exact Aside.refl s
  case h_2 lease _ =>
    split
    case h_1 => exact Aside.refl s
    case h_2 o m conn _ =>
      dsimp only
      have htrack : s.Aside
          ({ s with lease := some { lease with conn := conn } }.trackBackend env m) :=
        ⟨rfl, rfl, rfl⟩
      generalize { s with lease := some { lease with conn := conn } }.trackBackend env m = s₁
        at htrack
      have hi₁ := htrack.routed hi
      refine Post.mono ((rowPhase_quietly hi₁ m).andThen fun s₂ m' h₂ => ?_)
        (fun _ _ h => htrack.trans h) (fun _ _ h => htrack.trans h)
      obtain ⟨s₃, heq, h₃⟩ := backendPhase_eq (h₂.routed hi₁) m'
      rw [heq, andThen_next]
      exact (deliverBackend_quietly ((h₂.trans h₃).routed hi₁) o _ m').mono
        (fun _ _ h => h₃.trans h) (fun _ _ h => h₃.trans h)

/-! ## Iterations -/

section Steps

variable {status : σ → TransactionStatus} {named : σ → String → Prop}
  (hu : env.upstream.InOrder) (hr : env.upstream.Reports status)
  (hn : env.upstream.Names named) (hsync : env.upstream.Syncs)

/-- The server takes what the session would put on a connection, when a detached session gets a
    message of its client. -/
def WelcomeAt (u : Upstream σ) (status : σ → TransactionStatus) (named : σ → String → Prop)
    (s : Session σ κ) : Event → Prop
  | .client _ _ => s.lease = none → s.Welcome u status named
  | _ => True

theorem Ahead.welcome (h : s.Ahead s') (hw : s.Welcome env.upstream status named) :
    s'.Welcome env.upstream status named :=
  ⟨h.startup ▸ hw.startup, h.gucs ▸ hw.gucs, h.registry ▸ hw.statements⟩

include hu hr hn hsync

theorem onClient_sound (hroute : env.route.endpoints ≠ []) (hi : s.Routed P) (hs : s.Sound P)
    (ht : s.world.Tidy (CleanPool env.upstream status named)) {m : FrontendMessage} {t : Timing}
    (hok : t.sendOk = true) (hw : s.lease = none → s.Welcome env.upstream status named) :
    (s.onClient env t m).close.1.Sound P ∧ s.refused env (.client m t) = false := by
  have hbefore := beforeAttach_heads env hi t m
  rw [onClient_eq, refused, hok]
  unfold Heads at hbefore
  cases hf : s.beforeAttach env t m with
  | halt s₁ e =>
      rw [hf] at hbefore
      exact ⟨Aside.sound hbefore hs, rfl⟩
  | next s₁ r =>
      rw [hf] at hbefore
      have hahead : s.Ahead s₁ := hbefore
      have hi₁ := hahead.toAside.routed hi
      obtain ⟨hattached, hsound⟩ := ensureAttached_ok hu hr hn hsync hroute hi₁
        (hahead.toAside.sound hs) (hahead.world ▸ ht)
        (fun hl => hahead.welcome (hw (hahead.lease ▸ hl))) r.2.2
      have hkept := (ensureAttached_spec (clean_probe hu hr hn) r.2.2 s₁ (hahead.world ▸ ht)).kept
      have heq : s₁.ensureAttached env r.2.2 = ((s₁.ensureAttached env r.2.2).1, true) :=
        Prod.ext rfl hattached
      have hrest := attached_quietly hi₁ r.1 r.2.1 heq hkept.interceptor
      rw [andThen_next]
      refine ⟨?_, by dsimp only; rw [hattached]; rfl⟩
      exact close_post (Q := fun s' _ => s'.Sound P)
        (hrest.mono (fun _ _ h => h.sound hsound) (fun _ _ h => h.sound hsound))

/-- No iteration reports a failure, and none is refused. -/
theorem step_sound (hroute : env.route.endpoints ≠ []) (hi : s.Routed P) (hs : s.Sound P)
    (ht : s.world.Tidy (CleanPool env.upstream status named)) {e : Event} (hnf : s.NoFailure e)
    (hw : s.WelcomeAt env.upstream status named e) (hlive : s.ended = none) :
    (s.step env e).Sound P ∧ s.refused env e = false := by
  have hquiet : ∀ f : Flow (Session σ κ) End Unit, s.Quietly f → f.close.1.Sound P := by
    intro f hf
    exact close_post (Q := fun s' _ => s'.Sound P)
      (hf.mono (fun _ _ h => h.sound hs) (fun _ _ h => h.sound hs))
  have harm : (s.arm env e).close.1.Sound P ∧ s.refused env e = false := by
    cases e with
    | client m t => exact onClient_sound hu hr hn hsync hroute hi hs ht hnf hw
    | clientGone => exact ⟨hquiet _ (Aside.refl s), rfl⟩
    | upstream => exact ⟨hquiet _ (onUpstream_quietly hi), rfl⟩
    | upstreamClosed =>
        have hl : s.lease = none := Option.isNone_iff_eq_none.mp hnf
        refine ⟨?_, rfl⟩
        rw [arm, onUpstreamClosed, hl]
        exact hs
    | upstreamError reason =>
        have hl : s.lease = none := Option.isNone_iff_eq_none.mp hnf
        refine ⟨?_, rfl⟩
        rw [arm, hl]
        exact hs
    | cancel =>
        refine ⟨?_, rfl⟩
        show (s.onCancel env).Sound P
        unfold onCancel
        split
        · exact ⟨hs.supplies, hs.state⟩
        · exact hs
    | shutdown =>
        refine ⟨hquiet _ ?_, rfl⟩
        unfold arm onShutdown
        dsimp only
        split
        · exact (⟨rfl, rfl, rfl⟩ : s.Aside { s with draining := true })
        · exact Aside.refl s
  refine ⟨?_, harm.2⟩
  unfold step
  rw [hlive]
  exact ⟨harm.1.supplies, harm.1.state⟩

/-- The start of a session. -/
theorem start_sound (hroute : env.route.endpoints ≠ []) (hi : s.Routed P) (hs : s.Sound P)
    (ht : s.world.Tidy (CleanPool env.upstream status named))
    (hw : s.Welcome env.upstream status named) (hlive : s.ended = none) :
    (s.start env).Sound P ∧ (s.start env).ended = none := by
  unfold start
  split
  · obtain ⟨s₁, params, heq, hs₁, hcore⟩ := baselineParamsRouted_ok hroute hi hs
    rw [heq]
    exact ⟨hs₁, (congrArg Core.ended hcore).trans hlive⟩
  · obtain ⟨hattached, hs₁⟩ := ensureAttached_ok hu hr hn hsync hroute hi hs ht (fun _ => hw) none
    have hspec := ensureAttached_spec (clean_probe hu hr hn) none s ht
    split
    case h_1 heq =>
      rw [heq] at hattached
      cases hattached
    case h_2 s₁ heq =>
      rw [heq] at hs₁ hspec
      have hattaches := hspec.attaches rfl
      refine ⟨⟨hs₁.supplies, hs₁.state⟩, ?_⟩
      show s₁.toCore.ended = none
      generalize s₁.toCore = d at hattaches
      cases hattaches <;> exact hlive

end Steps

/-- The end of a session. -/
theorem finish_sound (hs : s.Sound P) (arrived : Nat) : (s.finish env arrived).Sound P := by
  unfold finish
  split <;> exact ⟨hs.supplies, hs.state⟩

end Session

end Pgferry
