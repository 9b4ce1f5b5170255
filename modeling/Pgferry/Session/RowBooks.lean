/-
  What the arms of the pump do to the books on rows.

  `RowBooks` are what the hooks keep of the rows: the schema in force and the number of rows that
  were dropped since the last tag. A message of the client leaves them as they are, except that a
  call of `on_query` starts a cycle and with it the count from zero. A message of the upstream
  changes them in the row phase only: a description is the new schema, a tag settles the count, a
  dropped row is one more.

  Proved: `onClient_books`, `rowPhase_books`, and `LeavesBooks` of everything else.
-/
import Pgferry.Session.Ledger

namespace Pgferry

open Loop Loop.Flow

variable {σ κ : Type}

structure RowBooks (κ : Type) where
  interceptor : Interceptor κ
  schema : RowSchema
  pending : Nat

namespace RowBooks

/-- The books of a new cycle. -/
def clear (b : RowBooks κ) : RowBooks κ := { b with pending := 0 }

/-- The books after a message that goes through the row phase. -/
def after (b : RowBooks κ) : BackendMessage → RowBooks κ
  | .rowDescription fields =>
      if b.interceptor.wantsRows then { b with schema := RowSchema.fromRowDescription fields }
      else b
  | .commandComplete _ => b.clear
  | _ => b

/-- The books after a row that was dropped. -/
def drop (b : RowBooks κ) : RowBooks κ := { b with pending := b.pending + 1 }

theorem after_interceptor (b : RowBooks κ) (m : BackendMessage) :
    (b.after m).interceptor = b.interceptor := by
  unfold after
  split
  · split <;> rfl
  · rfl
  · rfl

end RowBooks

def SessionHooks.books (h : SessionHooks κ) : RowBooks κ where
  interceptor := h.interceptor
  schema := h.schema
  pending := h.cycle.droppedPending

/-- The next message on the lease's connection. -/
def Core.nextRead (c : Core σ) : Option (Origin × BackendMessage) :=
  c.lease.bind fun lease => lease.conn.inbox.head?

namespace Session

/-- `on_query` is called for the message `m`. -/
def asksQuery (s : Session σ κ) (m : FrontendMessage) : Bool :=
  s.hooks.isSome && !s.swallowUntilSync && (cycleInputOf m).isSome

def books (s : Session σ κ) : Option (RowBooks κ) := s.hooks.map SessionHooks.books

/-- The books after a message of the client. -/
def booksFor (s : Session σ κ) (m : FrontendMessage) : Option (RowBooks κ) :=
  if s.asksQuery m then s.books.map RowBooks.clear else s.books

/-! ## Hooks and cycles -/

theorem SameLedger.books {s s' : Session σ κ} (h : s.SameLedger s') : s'.books = s.books := by
  have hmap : ∀ s : Session σ κ, s.books = s.ledger.map fun l =>
      { interceptor := l.1, schema := l.2.1, pending := l.2.2.droppedPending } := by
    intro s
    unfold Session.books Session.ledger
    cases s.hooks <;> rfl
  rw [hmap, hmap, h.ledger]

theorem trackCycle_books (s : Session σ κ) {f : CycleTracking → CycleTracking}
    (hf : ∀ t, (f t).droppedPending = t.droppedPending) : (s.trackCycle f).books = s.books := by
  unfold Session.books trackCycle
  cases s.hooks with
  | none => rfl
  | some h =>
      simp only [Option.map_some, SessionHooks.books]
      rw [hf]

theorem startCycle_books (s : Session σ κ) (sql : Option String) (kind : CycleKind) :
    (s.startCycle sql kind).books = s.books.map RowBooks.clear := by
  unfold Session.books startCycle
  cases s.hooks <;> rfl

theorem endCycle_books (s : Session σ κ) : s.endCycle.books = s.books := by
  unfold endCycle
  split
  case h_1 => rfl
  case h_2 hk =>
    rw [Session.books, Session.books, hk]
    rfl

theorem endActiveCycle_books (s : Session σ κ) : s.endActiveCycle.books = s.books := by
  unfold endActiveCycle
  split
  · split
    · exact s.endCycle_books
    · rfl
  · rfl

theorem reportLost_books (s : Session σ κ) : s.reportLost.books = s.books := by
  unfold reportLost
  split
  · split
    · exact (trackCycle_books _ fun _ => by rfl).trans s.endCycle_books
    · rfl
  · rfl

/-! ## Phases -/

/-- However the phase ends, the books are `b`. -/
def LeavesBooks {α : Type} (b : Option (RowBooks κ)) (f : Flow (Session σ κ) End α) : Prop :=
  f.Post (fun s' _ => s'.books = b) fun s' _ => s'.books = b

variable {s : Session σ κ} {b : Option (RowBooks κ)} {α β : Type}

theorem LeavesBooks.andThen {f : Flow (Session σ κ) End α}
    {g : Session σ κ → α → Flow (Session σ κ) End β} (hf : LeavesBooks b f)
    (hg : ∀ s₁ a, s₁.books = b → LeavesBooks b (g s₁ a)) : LeavesBooks b (f.andThen g) :=
  andThen_post hf hg

theorem LeavesBooks.sendAll (h : s.books = b) (ms : List BackendMessage) :
    LeavesBooks b (s.sendAll ms) :=
  sendAll_ledger (fun _ ha _ => ha.books.trans h) fun _ _ _ _ ha _ => ha.books.trans h

variable {env : Env σ} {t : Timing}

theorem swallowPhase_books (s : Session σ κ) (m : FrontendMessage) :
    (s.swallowPhase m).Post (fun s' _ => s' = s ∧ s.swallowUntilSync = false)
      fun s' _ => s'.books = s.books ∧ s.swallowUntilSync = true := by
  unfold swallowPhase
  split
  case isTrue hsw =>
    split
    · refine andThen_post (P := fun s' _ => s'.books = s.books) ?_ fun s₁ _ h₁ => ?_
      · exact Post.mono (LeavesBooks.sendAll (s := { s with swallowUntilSync := false }) rfl _)
          (fun _ _ h => h) fun _ _ h => ⟨h, hsw⟩
      · exact ⟨(endCycle_books s₁).trans h₁, hsw⟩
    · exact ⟨rfl, hsw⟩
  case isFalse hsw =>
    exact ⟨rfl, Bool.eq_false_iff.mpr hsw⟩

/-- What is answered locally starts no cycle. -/
theorem localPhase_books (s : Session σ κ) (m : FrontendMessage) :
    (s.localPhase env m).Post (fun s' _ => s' = s)
      fun s' _ => s'.books = s.books ∧ cycleInputOf m = none := by
  have hsend : ∀ (s₁ : Session σ κ) ms, s₁.books = s.books → cycleInputOf m = none →
      (s₁.sendAll ms).Post (fun s' _ => s'.books = s.books)
        fun s' _ => s'.books = s.books ∧ cycleInputOf m = none :=
    fun s₁ ms h hm => Post.mono (LeavesBooks.sendAll h ms) (fun _ _ h => h) fun _ _ h => ⟨h, hm⟩
  unfold localPhase
  split
  · split
    · exact andThen_post (hsend _ _ rfl rfl) fun s₁ _ h₁ =>
        ⟨(endActiveCycle_books s₁).trans h₁, rfl⟩
    · exact ⟨rfl, rfl⟩
    · exact andThen_post (hsend _ _ rfl rfl) fun _ _ h₁ => ⟨h₁, rfl⟩
    · exact rfl
  · exact rfl

theorem scatterFailed_books (h : s.books = b) (failure : ScatterFailure) :
    LeavesBooks b (s.scatterFailed failure) := by
  have hlost : (if failure.sessionLeaseBroken then s.dropLease else s).books = b := by
    split <;> exact h
  unfold scatterFailed
  refine LeavesBooks.andThen (.sendAll ?_ _) fun s₂ _ h₂ => ?_
  · exact (trackCycle_books _ fun _ => by rfl).trans hlost
  · exact (endCycle_books _).trans h₂

/-- The phase turns the books `b` into `b'`, but for the case that the session ends before. -/
def TurnsBooks {α : Type} (b b' : Option (RowBooks κ)) (f : Flow (Session σ κ) End α) : Prop :=
  f.Post (fun s' _ => s'.books = b')
    fun s' e => s'.books = b' ∨ e.isSome = true ∧ s'.books = b

theorem LeavesBooks.turns {b' : Option (RowBooks κ)} {f : Flow (Session σ κ) End α}
    (h : LeavesBooks b' f) : TurnsBooks b b' f :=
  Post.mono h (fun _ _ hb => hb) fun _ _ hb => .inl hb

theorem trackReply_pending (ms : List BackendMessage) (t : CycleTracking) :
    (ms.foldl trackReply t).droppedPending = t.droppedPending := by
  induction ms generalizing t with
  | nil => rfl
  | cons m ms ih =>
      rw [List.foldl_cons, ih]
      cases m <;> rfl

/-- Every action but `Close` starts a cycle. -/
theorem actOnQuery_books (s : Session σ κ) (m : FrontendMessage) (input : CycleInput)
    (cycle : QueryCycle) (action : Action) :
    TurnsBooks s.books (s.books.map RowBooks.clear) (s.actOnQuery env t m input cycle action) := by
  have hstart := s.startCycle_books (some input.sql) input.kind
  have htrack : ∀ f : CycleTracking → CycleTracking,
      (∀ t, (f t).droppedPending = t.droppedPending) →
        ((s.startCycle (some input.sql) input.kind).trackCycle f).books =
          s.books.map RowBooks.clear :=
    fun f hf => (trackCycle_books _ hf).trans hstart
  cases action with
  | forward => exact s.startCycle_books _ _
  | close => exact .inr ⟨rfl, rfl⟩
  | deny info =>
      refine LeavesBooks.turns ?_
      refine LeavesBooks.andThen (.sendAll (htrack _ fun _ => by rfl) _) fun s₂ _ h₂ => ?_
      split
      · exact h₂
      · exact LeavesBooks.andThen (.sendAll h₂ _) fun s₃ _ h₃ => (endCycle_books s₃).trans h₃
  | reply messages =>
      refine LeavesBooks.turns ?_
      refine LeavesBooks.andThen (.sendAll (htrack _ (trackReply_pending messages)) _)
        fun s₂ _ h₂ => ?_
      refine LeavesBooks.andThen (.sendAll h₂ _) fun s₃ _ h₃ => ?_
      split
      · exact h₃
      · exact (endCycle_books s₃).trans h₃
  | scatter request =>
      refine LeavesBooks.turns ?_
      unfold actOnQuery scatterQuery
      dsimp only
      split
      · exact scatterFailed_books hstart _
      · have ha := executeScatter_ledger env (s.startCycle (some input.sql) input.kind) request t
        have hs := ha.books.trans hstart
        split
        case h_1 heq =>
          rw [heq] at hs
          exact hs
        case h_2 heq =>
          rw [heq] at hs
          exact scatterFailed_books hs _
        case h_3 heq =>
          rw [heq] at hs
          exact LeavesBooks.andThen (.sendAll ((trackCycle_books _ fun _ => by rfl).trans hs) _)
            fun s₃ _ h₃ => (endCycle_books s₃).trans h₃

theorem queryPhase_books (s : Session σ κ) (m : FrontendMessage) :
    TurnsBooks s.books (if (cycleInputOf m).isSome then s.books.map RowBooks.clear else s.books)
      (s.queryPhase env t m) := by
  unfold queryPhase
  cases cycleInputOf m with
  | none => exact rfl
  | some input =>
      dsimp only
      cases hk : s.hooks with
      | none =>
          have hnone : s.books = none := by rw [Session.books, hk]; rfl
          rw [hnone]
          exact rfl
      | some h =>
          have hb : ∀ ctx, ({ s with
              cycleIsExtended := input.kind.isExtended,
              hooks := some { h with ctx := ctx } } : Session σ κ).books = s.books := by
            intro ctx
            rw [Session.books, Session.books, hk]
            rfl
          rw [← hb (h.interceptor.onQuery h.ctx (QueryCycle.new input.sql input.kind)).1]
          exact actOnQuery_books _ m input _ _

theorem registryPhase_books (h : s.books = b) (m : FrontendMessage) :
    LeavesBooks b (s.registryPhase m) := by
  unfold registryPhase
  split
  · split
    · exact h
    · split
      · exact h
      · split
        · exact LeavesBooks.andThen (.sendAll h _) fun _ _ h₂ => h₂
        · exact LeavesBooks.andThen (.sendAll h _) fun _ _ h₂ => h₂
  · exact h

theorem attachPhase_books (h : s.books = b) (sqlHint : Option String) (pending : PendingParse) :
    LeavesBooks b (s.attachPhase env sqlHint pending) := by
  have ha := (ensureAttached_ledger env s sqlHint).books.trans h
  unfold attachPhase
  split
  case h_1 heq =>
    rw [heq] at ha
    exact ha
  case h_2 heq =>
    rw [heq] at ha
    split <;> exact ha

theorem frontendPhase_books (h : s.books = b) (m : FrontendMessage) :
    LeavesBooks b (s.frontendPhase m) := by
  unfold frontendPhase
  split
  case h_1 => exact h
  case h_2 hk =>
    have hctx := fun ctx => (withCtx_ledger hk ctx).books.trans h
    dsimp only
    split
    · exact hctx _
    · exact LeavesBooks.andThen (.sendAll (hctx _) _) fun _ _ h₂ => h₂
    · exact hctx _
    · exact hctx _
    · exact hctx _

theorem synthesizeUpstreamLost_books (h : s.books = b) :
    LeavesBooks b s.synthesizeUpstreamLost := by
  unfold synthesizeUpstreamLost
  refine LeavesBooks.andThen (.sendAll h _) fun s₂ _ h₂ => ?_
  split
  · exact h₂
  · exact LeavesBooks.andThen (.sendAll h₂ _) fun s₃ _ h₃ => (reportLost_books _).trans h₃

theorem forwardPhase_books (h : s.books = b) (sendOk : Bool) (m : FrontendMessage) :
    LeavesBooks b (s.forwardPhase env sendOk m) := by
  unfold forwardPhase
  dsimp only
  generalize hs₂ : (if m.startsResponse then _ else s) = s₂
  have h₂ : s₂.books = b := by
    rw [← hs₂]
    split <;> exact h
  split
  · exact h₂
  · split
    · exact h₂
    · have ha := (askLost_ledger s₂ "send failed").books.trans h₂
      unfold sendFailed
      split
      case h_1 heq =>
        rw [heq] at ha
        exact ha
      case h_2 heq =>
        rw [heq] at ha
        dsimp only
        split
        · exact LeavesBooks.andThen (synthesizeUpstreamLost_books ha) fun _ _ h₃ => h₃
        · exact ha

/-! ## Arms -/

theorem passPhases_books (s : Session σ κ) (m : FrontendMessage) :
    TurnsBooks s.books (if (cycleInputOf m).isSome then s.books.map RowBooks.clear else s.books)
      (s.passPhases env t m) := by
  unfold passPhases
  refine andThen_post (queryPhase_books s m) fun s₁ m' h₁ => LeavesBooks.turns ?_
  refine LeavesBooks.andThen (registryPhase_books h₁ m') fun s₂ pending h₂ => ?_
  refine LeavesBooks.andThen (attachPhase_books h₂ _ pending) fun s₃ _ h₃ => ?_
  exact LeavesBooks.andThen (frontendPhase_books h₃ m') fun s₄ m'' h₄ =>
    forwardPhase_books h₄ t.sendOk m''

theorem onClient_books (s : Session σ κ) (m : FrontendMessage) :
    TurnsBooks s.books (s.booksFor m) (s.onClient env t m) := by
  have hfor : s.booksFor m = if s.swallowUntilSync then s.books
      else if (cycleInputOf m).isSome then s.books.map RowBooks.clear else s.books := by
    unfold booksFor asksQuery Session.books
    cases s.hooks <;> cases s.swallowUntilSync <;> simp
  unfold onClient
  dsimp only
  split
  · exact .inr ⟨rfl, rfl⟩
  · rw [hfor]
    refine andThen_post (Post.mono (swallowPhase_books _ m) (fun _ _ h => h) ?_)
      fun s₁ _ h₁ => ?_
    · rintro s₁ e ⟨h₁, hsw⟩
      exact .inl (h₁.trans (if_pos hsw).symm)
    obtain ⟨rfl, hsw⟩ := h₁
    rw [if_neg (by rw [show s.swallowUntilSync = false from hsw]; decide)]
    refine andThen_post (Post.mono (localPhase_books _ m) (fun _ _ h => h) ?_) fun s₂ _ h₂ => ?_
    · rintro s₂ e ⟨h₂, hm⟩
      rw [hm]
      exact .inl h₂
    · rw [h₂]
      exact passPhases_books _ m

theorem onUpstreamClosed_books (s : Session σ κ) : LeavesBooks s.books s.onUpstreamClosed := by
  unfold onUpstreamClosed
  split
  · exact rfl
  · have ha := (askLost_ledger s "upstream closed unexpectedly").books
    split
    case h_1 heq =>
      rw [heq] at ha
      exact ha
    case h_2 heq =>
      rw [heq] at ha
      dsimp only
      refine LeavesBooks.andThen ?_ fun _ _ h₃ => h₃
      split
      · exact synthesizeUpstreamLost_books ha
      · exact ha

/-- The books after an iteration that reads nothing from the upstream. -/
def booksOn (s : Session σ κ) : Event → Option (RowBooks κ)
  | .client m _ => s.booksFor m
  | _ => s.books

theorem step_books (env : Env σ) {e : Event} (hs : s.ended = none) (he : e ≠ .upstream) :
    (s.step env e).books = s.booksOn e ∨
      (s.step env e).ended.isSome = true ∧ (s.step env e).books = s.books := by
  have harm : TurnsBooks s.books (s.booksOn e) (s.arm env e) := by
    cases e with
    | client m t => exact onClient_books s m
    | upstream => exact absurd rfl he
    | upstreamClosed => exact LeavesBooks.turns s.onUpstreamClosed_books
    | clientGone => exact .inl rfl
    | cancel =>
        show (s.onCancel env).books = _
        unfold onCancel
        split <;> rfl
    | upstreamError reason =>
        simp only [arm]
        split
        · exact .inl rfl
        · exact rfl
    | shutdown =>
        simp only [arm, onShutdown]
        split
        · exact rfl
        · exact .inl rfl
  unfold step
  rw [hs, if_neg (by decide)]
  exact close_post (Post.mono harm (fun _ _ h => .inl h) fun _ _ h => h)

/-! ## Reading -/

/-- The books `b` have been brought up to date: the message was booked, or it was a row that has
    been dropped. -/
def Booked (b : RowBooks κ) (m : BackendMessage) (s : Session σ κ) (e : Option End) : Prop :=
  s.books = some (b.after m) ∨ s.books = some b.drop ∧ e = none ∧ ∃ row, m = .dataRow row

theorem rowPhase_books {k : SessionHooks κ} (hk : s.hooks = some k) (m : BackendMessage) :
    (s.rowPhase m).Post (fun s' _ => s'.books = some (k.books.after m)) (Booked k.books m) := by
  have hs : s.books = some k.books := by rw [Session.books, hk]; rfl
  have htrack : ∀ f : CycleTracking → CycleTracking,
      (∀ t, (f t).droppedPending = t.droppedPending) → (s.trackCycle f).books = some k.books :=
    fun f hf => (trackCycle_books _ hf).trans hs
  unfold rowPhase
  rw [hk]
  dsimp only
  split
  case h_1 fields =>
    by_cases hw : k.interceptor.wantsRows = true
    · have hafter : k.books.after (.rowDescription fields) = _ := if_pos hw
      rw [if_pos hw, hafter]
      exact rfl
    · have hafter : k.books.after (.rowDescription fields) = _ := if_neg hw
      rw [if_neg hw, hafter]
      exact hs
  case h_2 =>
    show (s.trackCycle _).hooks.map _ = _
    rw [trackCycle, hk]
    rfl
  case h_3 => exact htrack _ fun _ => by rfl
  case h_4 =>
    split
    · unfold editRow
      split
      · exact .inl hs
      · exact htrack _ fun _ => by rfl
      · have hctx := fun ctx => (withCtx_ledger hk ctx).books.trans hs
        dsimp only
        split
        · exact (trackCycle_books _ fun _ => by rfl).trans (hctx _)
        · exact .inr ⟨rfl, rfl, _, rfl⟩
    · exact htrack _ fun _ => by rfl
  case h_5 hdesc htag _ _ =>
    have hm : k.books.after m = k.books := by
      cases m <;> first
        | rfl
        | exact absurd rfl (hdesc _)
        | exact absurd rfl (htag _)
    rw [hm]
    exact hs

theorem afterReady_books (h : s.books = b) (status : TransactionStatus) :
    LeavesBooks b (s.afterReady env status) := by
  have hend := (endActiveCycle_books s).trans h
  have hdetach := (detachIfIdle_ledger env s.endActiveCycle status).books.trans hend
  unfold afterReady
  dsimp only
  split
  · exact hend
  · split
    case h_1 heq =>
      rw [heq] at hdetach
      exact hdetach
    case h_2 heq =>
      rw [heq] at hdetach
      exact hdetach

theorem backendPhase_books (h : s.books = b) (m : BackendMessage) :
    LeavesBooks b (s.backendPhase m) := by
  unfold backendPhase
  split
  case h_1 => exact h
  case h_2 hk =>
    have hctx := fun ctx => (withCtx_ledger hk ctx).books.trans h
    dsimp only
    split
    · exact hctx _
    · exact LeavesBooks.andThen (.sendAll (hctx _) _) fun _ _ h₁ => h₁
    · exact hctx _
    · exact hctx _
    · exact hctx _

theorem deliverBackend_books (h : s.books = b) (o : Origin) (status : TransactionStatus)
    (m : BackendMessage) : LeavesBooks b (s.deliverBackend env o status m) := by
  have ha := (s.write_ledger false o m).books.trans h
  unfold deliverBackend
  split
  case h_1 heq =>
    rw [heq] at ha
    exact ha
  case h_2 s₁ heq =>
    rw [heq] at ha
    dsimp only
    split
    · exact afterReady_books (s := { s₁ with backend := s₁.backend + 1 }) ha status
    · exact ha

/-- Nothing to read. -/
theorem onUpstream_idle (h : s.toCore.nextRead = none) : s.onUpstream env = .next s () := by
  unfold onUpstream
  cases hl : s.lease with
  | none => rfl
  | some lease =>
      have hin : lease.conn.inbox = [] := by
        rw [Core.nextRead, hl, Option.bind_some] at h
        exact List.head?_eq_none_iff.mp h
      simp only [Conn.next, hin]

theorem onUpstream_books {k : SessionHooks κ} (hk : s.hooks = some k) {o : Origin}
    {m : BackendMessage} (hm : s.toCore.nextRead = some (o, m)) :
    (s.onUpstream env).Post (fun s' _ => s'.books = some (k.books.after m))
      (Booked k.books m) := by
  obtain ⟨lease, hl, hin⟩ := Option.bind_eq_some_iff.mp hm
  obtain ⟨rest, hx⟩ := List.head?_eq_some_iff.mp hin
  unfold onUpstream
  simp only [hl, Conn.next, hx]
  refine andThen_post (rowPhase_books (k := k) ?_ m) fun s₁ m' h₁ => ?_
  · exact hk
  refine Post.mono (LeavesBooks.andThen (backendPhase_books h₁ m') fun s₂ forwarded h₂ => ?_)
    (fun _ _ h => h) fun _ _ h => .inl h
  split
  · exact deliverBackend_books h₂ _ _ _
  · exact h₂

end Session

end Pgferry
