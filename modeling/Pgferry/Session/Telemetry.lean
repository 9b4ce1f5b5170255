/-
  The reports of `on_cycle_end`.

  The session tracks the current cycle from `on_query` on: the rows, the last tag and the last
  error. `view` counts the same things in what the client was sent since the last
  `ReadyForQuery`, and notes whether `on_query` was called; the positions in the log of the
  messages for which it was called are taken down by an observer (`Session.asking`).
  `CyclesReported` says that each cycle with such a call has exactly one report, made right after
  its `ReadyForQuery`, and that the report matches the view.

  The tracking is kept where a message is read or a hook answers, not where it is sent. It goes
  wrong where the pump makes up an error after a loss or for a duplicate statement, where a tag
  is adjusted, where the hooks change what was counted, and where a second `Parse` of a batch
  starts the tracking over.

  Proved: `cycles_reported`, in every run without these (`Candid`) all cycles are reported.
-/
import Pgferry.Merge
import Pgferry.Session.Cycles
import Pgferry.Session.Entries
import Pgferry.Session.RowBooks

namespace Pgferry

open Loop Loop.Flow

variable {σ κ : Type}

/-! ## What the client sees of a cycle -/

structure CycleView where
  /-- `on_query` was called. -/
  asked : Bool := false
  rows : Nat := 0
  /-- The last tag. -/
  tag : Option String := none
  /-- There was an `ErrorResponse`. -/
  failed : Bool := false
  deriving DecidableEq

namespace CycleView

def sent (v : CycleView) : BackendMessage → CycleView
  | .dataRow _ => { v with rows := v.rows + 1 }
  | .commandComplete tag => { v with tag := some tag }
  | .errorResponse _ => { v with failed := true }
  | .readyForQuery _ => {}
  | _ => v

def note (v : CycleView) : Entry → CycleView
  | .sent _ _ m => v.sent m
  | _ => v

/-- `r` reports what the client has seen. -/
def Matches (v : CycleView) (r : CycleReport) : Prop :=
  r.error.isSome = v.failed ∧ r.rows = v.rows ∧ r.tag = v.tag

instance (v : CycleView) (r : CycleReport) : Decidable (v.Matches r) :=
  inferInstanceAs (Decidable (_ ∧ _ ∧ _))

theorem sent_asked {v : CycleView} {m : BackendMessage} (h : (v.sent m).asked = true) :
    v.asked = true := by
  cases m <;> first
    | exact h
    | cases h

end CycleView

/-- The view of the current cycle; `asked` are the positions of the messages for which
    `on_query` was called. -/
def view (asked : List Nat) (log : List Entry) : CycleView :=
  log.zipIdx.foldl
    (fun v x => { v with asked := v.asked || decide (x.2 ∈ asked) }.note x.1) {}

/-- Every cycle in which `on_query` was called has one report, which matches it. -/
def CyclesReported (asked : List Nat) (log : List Entry) (reports : List (Nat × CycleReport)) :
    Prop :=
  ∀ k own o status, log[k]? = some (.sent own o (.readyForQuery status)) →
    (view asked (log.take k)).asked = true →
      ∃ r, reports.filter (fun x => decide (x.1 = k + 1)) = [(k + 1, r)] ∧
        (view asked (log.take k)).Matches r

namespace Session

/-- The position of the message for which the move calls `on_query`. -/
def asking (s : Session σ κ) : Move σ → List Nat
  | .own (.client m _) => if s.ended.isNone && s.asksQuery m then [s.log.length] else []
  | _ => []

/-- A cycle is being tracked. -/
def tracking (s : Session σ κ) : Bool := s.hooks.any fun h => h.cycle.active

end Session

/-- The message is a `Parse` of a registered name with another text. -/
def StatementRegistry.conflicts (registry : StatementRegistry) : FrontendMessage → Bool
  | .parse (some name) query _ =>
      decide (name ≠ "") && (registry.lookup name).any fun known => decide (known.1 ≠ query)
  | _ => false

/-- The next message on the lease's connection is a `CommandComplete`. -/
def Core.readsTag (c : Core σ) : Bool :=
  match c.lease.bind fun lease => lease.conn.inbox.head? with
  | some (_, .commandComplete _) => true
  | _ => false

/-- The iteration does none of what the tracking misses: a `Parse` behind rows, tags or errors of
    the same cycle or with a name that is taken, an error made up for a lost connection, an
    adjusted tag. -/
def Session.Candid (s : Session σ κ) : Event → Prop
  | .client m t =>
      (s.asksQuery m = true →
        view [] s.log = {} ∧ (s.approves m).any s.registry.conflicts = false) ∧
      (t.sendOk = false →
        (s.hygiene.awaitingResponse || m.startsResponse || decide (0 < s.fedSinceRfq)) = true →
        (s.asksQuery m || s.tracking) = false)
  | .upstream => s.toCore.readsTag = true →
      ∀ h ∈ s.hooks, h.interceptor.adjustCommandCounts = true → h.cycle.droppedPending = 0
  | .upstreamClosed => s.lease.isSome = true → s.hygiene.awaitingResponse = true →
      s.tracking = false
  | _ => True

instance (s : Session σ κ) : ∀ e, Decidable (s.Candid e)
  | .client _ _ => inferInstanceAs (Decidable (_ ∧ _))
  | .upstream => inferInstanceAs (Decidable (_ → ∀ h ∈ s.hooks, _))
  | .upstreamClosed => inferInstanceAs (Decidable (_ → _))
  | .clientGone | .upstreamError _ | .cancel | .shutdown => isTrue trivial

/-- `on_query` replies to simple queries only, and no reply holds an error or a
    `ReadyForQuery`. -/
def RepliesPlainly (i : Option (Interceptor κ)) : Prop :=
  ∀ input ms, Asks i input (.reply ms) →
    input.kind.isExtended = false ∧ ∀ m ∈ ms, m.ready = 0 ∧ m.isError = false

/-! ## Views of a growing log -/

theorem view_concat (asked : List Nat) (log : List Entry) (e : Entry) :
    view asked (log ++ [e]) = { view asked log with
      asked := (view asked log).asked || decide (log.length ∈ asked) }.note e := by
  unfold view
  rw [List.zipIdx_append, List.foldl_append, Nat.zero_add]
  rfl

/-- No message behind the log was asked about yet. -/
theorem view_append {asked : List Nat} {log : List Entry} (h : ∀ n ∈ asked, n < log.length)
    (es : List Entry) : view asked (log ++ es) = es.foldl CycleView.note (view asked log) := by
  induction es using List.reverseRecOn with
  | nil => rw [List.append_nil]; rfl
  | append_singleton es e ih =>
      have hfar : (log ++ es).length ∉ asked := by
        intro hmem
        have := h _ hmem
        rw [List.length_append] at this
        omega
      rw [← List.append_assoc, view_concat, ih, List.foldl_append]
      simp only [hfar, decide_false, Bool.or_false]
      rfl

/-- A message that is still to come does not change the view. -/
theorem view_later {asked : List Nat} {log : List Entry} {n : Nat} (h : log.length ≤ n) :
    view (asked ++ [n]) log = view asked log := by
  induction log using List.reverseRecOn with
  | nil => rfl
  | append_singleton log e ih =>
      rw [List.length_append, List.length_singleton] at h
      have hne : log.length ≠ n := by omega
      rw [view_concat, view_concat, ih (by omega)]
      simp [hne]

/-- What was sent does not depend on the calls. -/
theorem view_sent (asked : List Nat) (log : List Entry) :
    { view asked log with asked := false } = view [] log := by
  induction log using List.reverseRecOn with
  | nil => rfl
  | append_singleton log e ih =>
      rw [view_concat, view_concat, ← ih]
      cases e with
      | sent own o m => cases m <;> rfl
      | _ => rfl

/-- The entry ends a cycle. -/
def Entry.isReady : Entry → Bool
  | .sent _ _ m => decide (m.ready = 1)
  | _ => false

/-- A message that no report is about. -/
def BackendMessage.quiet : BackendMessage → Bool
  | .dataRow _ => false
  | .commandComplete _ => false
  | .errorResponse _ => false
  | .readyForQuery _ => false
  | _ => true

def Entry.quiet : Entry → Bool
  | .sent _ _ m => m.quiet
  | _ => true

theorem BackendMessage.quiet_sent {m : BackendMessage} (h : m.quiet = true) :
    m.ready = 0 ∧ ∀ v : CycleView, v.sent m = v := by
  cases m <;> first
    | exact ⟨rfl, fun _ => rfl⟩
    | cases h

theorem Entry.quiet_note {e : Entry} (h : e.quiet = true) :
    e.isReady = false ∧ ∀ v : CycleView, v.note e = v := by
  cases e with
  | sent own o m =>
      obtain ⟨h1, h2⟩ := BackendMessage.quiet_sent (m := m) h
      exact ⟨by rw [isReady, h1]; rfl, h2⟩
  | _ => exact ⟨rfl, fun _ => rfl⟩

theorem note_quiet {es : List Entry} (h : ∀ e ∈ es, e.quiet = true) (v : CycleView) :
    es.foldl CycleView.note v = v := by
  induction es with
  | nil => rfl
  | cons e es ih =>
      rw [List.foldl_cons, (Entry.quiet_note (h e List.mem_cons_self)).2]
      exact ih fun x hx => h x (List.mem_cons_of_mem _ hx)

/-! ## The books of a session -/

namespace Session

/-- The reports made so far are right. -/
structure Reported (asked : List Nat) (s : Session σ κ) : Prop where
  asked_lt : ∀ n ∈ asked, n < s.log.length
  made_le : ∀ x ∈ s.reports, x.1 ≤ s.log.length
  told : CyclesReported asked s.log s.reports

/-- The tracking of the hooks matches the view that the client has once it was sent `ms`. -/
def Expects (asked : List Nat) (s : Session σ κ) (ms : List BackendMessage) : Prop :=
  (ms.foldl CycleView.sent (view asked s.log)).asked = true → ∃ h, s.hooks = some h ∧
    h.cycle.active = true ∧ (ms.foldl CycleView.sent (view asked s.log)).Matches h.cycle.report

/-- The tracking matches what the client has seen. -/
def Tracked (asked : List Nat) (s : Session σ κ) : Prop := s.Expects asked []

/-- What holds when an iteration is left: the tracking of a session that ends does not matter. -/
def Leaves (asked : List Nat) (s : Session σ κ) (e : Option End) : Prop :=
  s.Reported asked ∧ (e = none → s.Tracked asked)

/-- The phase keeps the reports and the tracking right. -/
def Tells {α : Type} (asked : List Nat) (f : Flow (Session σ κ) End α) : Prop :=
  f.Post (fun s _ => s.Reported asked ∧ s.Tracked asked) (Leaves asked)

variable {asked : List Nat} {s s' : Session σ κ}

/-- Entries that end no cycle. -/
theorem Reported.append (h : s.Reported asked) {es : List Entry} (hlog : s'.log = s.log ++ es)
    (hr : s'.reports = s.reports) (hes : ∀ e ∈ es, e.isReady = false) : s'.Reported asked := by
  have hlen : s'.log.length = s.log.length + es.length := by rw [hlog, List.length_append]
  refine ⟨fun n hn => ?_, fun x hx => ?_, fun k own o status hk hasked => ?_⟩
  · have := h.asked_lt n hn
    omega
  · rw [hr] at hx
    have := h.made_le x hx
    omega
  · rw [hr]
    rw [hlog] at hk hasked ⊢
    by_cases hlt : k < s.log.length
    · rw [List.getElem?_append_left hlt] at hk
      rw [List.take_append_of_le_length (Nat.le_of_lt hlt)] at hasked ⊢
      exact h.told k own o status hk hasked
    · rw [List.getElem?_append_right (Nat.le_of_not_lt hlt)] at hk
      cases hes _ (List.mem_of_getElem? hk)

/-- A `ReadyForQuery` with the reports `rs` made right after it. -/
theorem Reported.ready (h : s.Reported asked) {own : Bool} {o : Origin}
    {status : TransactionStatus} (hlog : s'.log = s.log ++ [.sent own o (.readyForQuery status)])
    (rs : List (Nat × CycleReport)) (hr : s'.reports = s.reports ++ rs)
    (hrs : ∀ x ∈ rs, x.1 = s.log.length + 1)
    (hm : (view asked s.log).asked = true →
      ∃ r, rs = [(s.log.length + 1, r)] ∧ (view asked s.log).Matches r) : s'.Reported asked := by
  have hlen : s'.log.length = s.log.length + 1 := by rw [hlog, List.length_append]; rfl
  refine ⟨fun n hn => ?_, fun x hx => ?_, fun k own' o' status' hk hasked => ?_⟩
  · have := h.asked_lt n hn
    omega
  · rw [hr] at hx
    rcases List.mem_append.mp hx with hx | hx
    · have := h.made_le x hx
      omega
    · have := hrs x hx
      omega
  · rw [hr, List.filter_append]
    rw [hlog] at hk hasked ⊢
    by_cases hlt : k < s.log.length
    · rw [List.getElem?_append_left hlt] at hk
      rw [List.take_append_of_le_length (Nat.le_of_lt hlt)] at hasked ⊢
      obtain ⟨r, hfilter, hmatch⟩ := h.told k own' o' status' hk hasked
      have hnone : rs.filter (fun x => decide (x.1 = k + 1)) = [] := by
        refine List.filter_eq_nil_iff.mpr fun x hx => ?_
        have := hrs x hx
        simp only [decide_eq_true_eq]
        omega
      exact ⟨r, by rw [hfilter, hnone, List.append_nil], hmatch⟩
    · have hkeq : k = s.log.length := by
        have := (List.getElem?_eq_some_iff.mp hk).1
        rw [List.length_append, List.length_singleton] at this
        omega
      subst hkeq
      rw [List.take_left' rfl] at hasked ⊢
      obtain ⟨r, rfl, hmatch⟩ := hm hasked
      have hnone : s.reports.filter (fun x => decide (x.1 = s.log.length + 1)) = [] := by
        refine List.filter_eq_nil_iff.mpr fun x hx => ?_
        have := h.made_le x hx
        simp only [decide_eq_true_eq]
        omega
      exact ⟨r, by rw [hnone]; simp, hmatch⟩

/-- What is seen of a list of answers. -/
theorem view_answers (v : CycleView) (c : Core σ) (ms : List BackendMessage) :
    (c.answers ms).foldl CycleView.note v = ms.foldl CycleView.sent v := by
  rw [Core.answers, List.foldl_map]
  rfl

theorem Expects.shift {ms ns : List BackendMessage} (h : s.Expects asked ms)
    (hl : s.SameLedger s') (hv : ns.foldl CycleView.sent (view asked s'.log) =
      ms.foldl CycleView.sent (view asked s.log)) : s'.Expects asked ns := by
  intro hasked
  rw [hv] at hasked ⊢
  obtain ⟨k, hk, hact, hmatch⟩ := h hasked
  obtain ⟨k', hk', heq⟩ := hl.hooks hk
  have hcycle : k'.cycle = k.cycle := congrArg (·.2.2) heq
  exact ⟨k', hk', hcycle ▸ hact, hcycle ▸ hmatch⟩

/-! ## Writing -/

theorem answers_notReady {c : Core σ} {ms : List BackendMessage} (h : ∀ m ∈ ms, m.ready = 0) :
    ∀ e ∈ c.answers ms, e.isReady = false := by
  intro e he
  obtain ⟨m, hm, rfl⟩ := List.mem_map.mp he
  simp [Entry.isReady, h m hm]

/-- The messages that the tracking expects are sent. -/
theorem Tells.sendAll {ms : List BackendMessage} (hr : s.Reported asked)
    (he : s.Expects asked ms) (hms : ∀ m ∈ ms, m.ready = 0) : Tells asked (s.sendAll ms) := by
  refine sendAll_ledger (fun s' hl hc => ?_) fun s' ns hns _ hl hc => ?_
  · have hlog : s'.log = s.log ++ s.toCore.answers ms := congrArg Core.log hc
    have hv : view asked s'.log = ms.foldl CycleView.sent (view asked s.log) := by
      rw [hlog, view_append hr.asked_lt, view_answers]
    exact ⟨hr.append hlog hl.reports (answers_notReady hms), he.shift hl hv⟩
  · have hlog : s'.log = s.log ++ s.toCore.answers ns := congrArg Core.log hc
    refine ⟨hr.append hlog hl.reports (answers_notReady fun m hm => ?_), nofun⟩
    exact hms m (hns.subset hm)

theorem Tells.sendQuiet {m : BackendMessage} (hr : s.Reported asked) (ht : s.Tracked asked)
    (hm : m.quiet = true) : Tells asked (s.sendAll [m]) := by
  obtain ⟨hready, hsent⟩ := BackendMessage.quiet_sent hm
  refine .sendAll hr ?_ fun x hx => List.mem_singleton.mp hx ▸ hready
  unfold Expects
  rw [List.foldl_cons, List.foldl_nil, hsent]
  exact ht

/-- After a `ReadyForQuery` nothing is known of the next cycle. -/
theorem tracked_ready (h : s.Reported asked) {own : Bool} {o : Origin}
    {status : TransactionStatus} (hlog : s'.log = s.log ++ [.sent own o (.readyForQuery status)]) :
    s'.Tracked asked := by
  intro hasked
  rw [hlog, view_append h.asked_lt] at hasked
  cases hasked

/-- The end of a cycle: the report matches what was sent. -/
theorem endCycle_told (hr : s.Reported asked) (ht : s.Tracked asked) (hl : s.SameLedger s')
    {own : Bool} {o : Origin} {status : TransactionStatus}
    (hlog : s'.log = s.log ++ [.sent own o (.readyForQuery status)]) :
    s'.endCycle.Reported asked ∧ s'.endCycle.Tracked asked := by
  have hlen : s'.log.length = s.log.length + 1 := by rw [hlog, List.length_append]; rfl
  unfold endCycle
  split
  case h_1 hnone =>
    refine ⟨hr.ready hlog [] (by rw [hl.reports, List.append_nil]) nofun fun hasked => ?_,
      tracked_ready hr hlog⟩
    obtain ⟨k, hk, _⟩ := ht hasked
    obtain ⟨k', hk', _⟩ := hl.hooks hk
    cases hnone.symm.trans hk'
  case h_2 k' hk' =>
    refine ⟨hr.ready hlog [(s'.log.length, k'.cycle.report)] ?_ ?_ fun hasked => ?_,
      tracked_ready hr hlog⟩
    · rw [hl.reports]
    · intro x hx
      rw [List.mem_singleton.mp hx]
      exact hlen
    · obtain ⟨k, hk, _, hmatch⟩ := ht hasked
      obtain ⟨k₁, hk₁, heq⟩ := hl.hooks hk
      cases hk'.symm.trans hk₁
      have hcycle : k'.cycle = k.cycle := congrArg (·.2.2) heq
      exact ⟨k'.cycle.report, by rw [hlen], hcycle ▸ hmatch⟩

/-- Without a call of `on_query` no report is due. -/
theorem unasked_told (hr : s.Reported asked) (ha : (view asked s.log).asked = false)
    (hreports : s'.reports = s.reports) {own : Bool} {o : Origin} {status : TransactionStatus}
    (hlog : s'.log = s.log ++ [.sent own o (.readyForQuery status)]) :
    s'.Reported asked ∧ s'.Tracked asked := by
  refine ⟨hr.ready hlog [] (by rw [hreports, List.append_nil]) nofun fun hasked => ?_,
    tracked_ready hr hlog⟩
  cases ha.symm.trans hasked

theorem endActiveCycle_told (hr : s.Reported asked) (ht : s.Tracked asked) (hl : s.SameLedger s')
    {own : Bool} {o : Origin} {status : TransactionStatus}
    (hlog : s'.log = s.log ++ [.sent own o (.readyForQuery status)]) :
    s'.endActiveCycle.Reported asked ∧ s'.endActiveCycle.Tracked asked := by
  unfold endActiveCycle
  split
  case h_1 k' hk' =>
    split
    case isTrue => exact endCycle_told hr ht hl hlog
    case isFalse hact =>
      refine unasked_told hr ?_ hl.reports hlog
      by_contra hasked
      obtain ⟨k, hk, hactive, _⟩ := ht (Bool.not_eq_false _ ▸ hasked)
      obtain ⟨k₁, hk₁, heq⟩ := hl.hooks hk
      cases hk'.symm.trans hk₁
      have hcycle : k'.cycle = k.cycle := congrArg (·.2.2) heq
      exact hact (hcycle ▸ hactive)
  case h_2 hnone =>
    refine unasked_told hr ?_ hl.reports hlog
    by_contra hasked
    obtain ⟨k, hk, _⟩ := ht (Bool.not_eq_false _ ▸ hasked)
    obtain ⟨k', hk', _⟩ := hl.hooks hk
    cases hnone.symm.trans hk'

/-- A `ReadyForQuery` of the pump and what follows it. -/
theorem ready_post {α : Type} {P : Session σ κ → α → Prop} {status : TransactionStatus}
    {g : Session σ κ → Unit → Flow (Session σ κ) End α} (hr : s.Reported asked)
    (hg : ∀ s', s.SameLedger s' →
      s'.log = s.log ++ [.sent true s.toCore.origin (.readyForQuery status)] →
      (g s' ()).Post P (Leaves asked)) :
    ((s.sendAll [.readyForQuery status]).andThen g).Post P (Leaves asked) := by
  refine andThen_post (P := fun s' _ => s.SameLedger s' ∧
    s'.log = s.log ++ [.sent true s.toCore.origin (.readyForQuery status)]) ?_
    fun s' _ h => hg s' h.1 h.2
  refine sendAll_ledger (fun s' hl hc => ⟨hl, congrArg Core.log hc⟩) fun s' ns hns hlen hl hc => ?_
  have hnil : ns = [] := List.length_eq_zero_iff.mp (Nat.lt_one_iff.mp hlen)
  subst hnil
  exact ⟨hr.append (congrArg Core.log hc) hl.reports (List.forall_mem_nil _), nofun⟩

/-- What is logged says nothing of the cycle. -/
theorem told_quiet (hr : s.Reported asked) (ht : s.Tracked asked) (hl : s.SameLedger s')
    {es : List Entry} (hlog : s'.log = s.log ++ es) (hes : ∀ e ∈ es, e.quiet = true) :
    s'.Reported asked ∧ s'.Tracked asked ∧ view asked s'.log = view asked s.log := by
  have hv : view asked s'.log = view asked s.log := by
    rw [hlog, view_append hr.asked_lt, note_quiet hes]
  exact ⟨hr.append hlog hl.reports fun e he => (Entry.quiet_note (hes e he)).1, ht.shift hl hv, hv⟩

/-! ## Local answers -/

/-- The swallow phase answers, or it leaves everything as it is. -/
theorem swallowPhase_tells (hr : s.Reported asked) (ht : s.Tracked asked) (m : FrontendMessage) :
    (s.swallowPhase m).Post (fun s₁ _ => s₁ = s ∧ s.swallowUntilSync = false) (Leaves asked) := by
  unfold swallowPhase
  split
  case isTrue =>
    split
    · refine ready_post ⟨hr.asked_lt, hr.made_le, hr.told⟩ fun s₁ hl hlog => ?_
      obtain ⟨h1, h2⟩ := endCycle_told hr ht ⟨hl.ledger, hl.reports⟩ hlog
      exact ⟨h1, fun _ => h2⟩
    · exact ⟨hr, fun _ => ht⟩
  case isFalse hs =>
    exact ⟨rfl, Bool.not_eq_true _ ▸ hs⟩

/-- So does the local phase. -/
theorem localPhase_tells {env : Env σ} (hr : s.Reported asked) (ht : s.Tracked asked)
    (m : FrontendMessage) :
    (s.localPhase env m).Post (fun s₁ _ => s₁ = s) (Leaves asked) := by
  unfold localPhase
  split
  · split
    · refine ready_post hr fun s₁ hl hlog => ?_
      obtain ⟨h1, h2⟩ := endActiveCycle_told hr ht hl hlog
      exact ⟨h1, fun _ => h2⟩
    · exact ⟨hr, fun _ => ht⟩
    · refine andThen_post (Tells.sendQuiet ⟨hr.asked_lt, hr.made_le, hr.told⟩ ht rfl) ?_
      exact fun s₁ _ h => ⟨h.1, fun _ => h.2⟩
    · exact rfl
  · exact rfl

end Session

/-! ## Scatter -/

theorem concatRows_view (written : Bool) (sources : List BackendMessage) (v : CycleView) :
    (concatRows written sources).foldl CycleView.sent v =
      { v with rows := v.rows + (dataRows sources).length } := by
  induction sources generalizing written v with
  | nil => rfl
  | cons m sources ih =>
      rw [dataRows_cons]
      cases m with
      | rowDescription fields =>
          rw [concatRows]
          split
          · exact ih _ _
          · exact ih _ _
      | dataRow row =>
          rw [concatRows, List.foldl_cons, ih]
          simp only [CycleView.sent, BackendMessage.row?, Option.toList_some, List.length_append,
            List.length_singleton, Nat.add_assoc]
      | _ => exact ih _ _

/-- What the merge writes is what the scatter reports. -/
theorem mergeLegs_view {request : ScatterRequest} {sources ms : List BackendMessage} {rows : Nat}
    (h : mergeLegs request sources (dataRows sources).length = some (.ok (ms, rows)))
    (v : CycleView) :
    ms.foldl CycleView.sent v = { v with
      rows := v.rows + rows
      tag := some (request.tag ++ " " ++ toString rows) } := by
  unfold mergeLegs at h
  split at h
  · simp only [Option.some.injEq, Except.ok.injEq, Prod.mk.injEq] at h
    obtain ⟨rfl, rfl⟩ := h
    rw [List.foldl_append, concatRows_view]
    rfl
  · split at h
    case h_1 => simp at h
    case h_2 => simp at h
    case h_3 schema total hsum =>
      simp only [Option.some.injEq, Except.ok.injEq, Prod.mk.injEq] at h
      obtain ⟨rfl, rfl⟩ := h
      have hschema : ∀ v : CycleView, schema.toList.foldl CycleView.sent v = v := by
        intro v
        rw [sumRows_schema hsum]
        cases (descriptions sources).head? <;> rfl
      have htag : request.tag ++ " " ++ toString 1 = request.tag ++ " 1" := by
        rw [String.append_assoc]
        rfl
      rw [List.foldl_append, hschema, htag]
      rfl

namespace Session

theorem gather_log {env : Env σ} {s : Session σ κ} {request : ScatterRequest} {t : Timing}
    {g : Gathered σ κ} (h : s.gather env request t = some g) :
    ∃ legs, g.session.log = s.log ++ legs ∧ ∀ e ∈ legs, e.quiet = true := by
  have hleg : ∀ (world : World σ) leg,
      ∃ legs, ({ s with world := world }.runSessionLeg env leg).1.log = s.log ++ legs ∧
        ∀ e ∈ legs, e.quiet = true := by
    intro world leg
    unfold runSessionLeg
    split
    · exact ⟨_, rfl, fun e he => List.mem_singleton.mp he ▸ rfl⟩
    · exact ⟨[], (List.append_nil _).symm, List.forall_mem_nil _⟩
  unfold gather at h
  split at h
  · cases h
  · dsimp only at h
    split at h
    · cases h
    · split at h
      · rw [← Option.some.inj h]
        exact hleg _ _
      · split at h
        · cases h
        · split at h
          · cases h
          · rw [← Option.some.inj h]
            exact hleg _ _

/-- What a scatter that succeeds has sent. -/
theorem executeScatter_view {env : Env σ} {s s₁ : Session σ κ} {request : ScatterRequest}
    {t : Timing} {rows : Nat} (h : s.executeScatter env request t = (s₁, .ok rows)) :
    ∃ es, s₁.log = s.log ++ es ∧ (∀ e ∈ es, e.isReady = false) ∧
      ∀ v, es.foldl CycleView.note v = { v with
        rows := v.rows + rows
        tag := some (request.tag ++ " " ++ toString rows) } := by
  obtain ⟨g, hg⟩ : ∃ g, s.gather env request t = some g := gather_of_ok (by rw [h])
  obtain ⟨legs, hlegs, hquiet⟩ := gather_log hg
  rw [executeScatter_gather hg] at h
  obtain ⟨ms, hm⟩ : ∃ ms,
      mergeLegs request g.sources (dataRows g.sources).length = some (.ok (ms, rows)) := by
    unfold writeMerged at h
    split at h
    case h_1 => cases (Prod.mk.inj h).2
    case h_2 => cases (Prod.mk.inj h).2
    case h_3 messages rows' heq =>
      split at h
      · cases (Prod.mk.inj h).2
      · cases (Prod.mk.inj h).2
        exact ⟨messages, heq⟩
  have hsent := writeMerged_delivers env (s := g.session) hm g.outcomes
  rw [h] at hsent
  have hlog : s₁.log = g.session.log ++ g.session.toCore.answers ms := hsent
  refine ⟨legs ++ g.session.toCore.answers ms, ?_, fun e he => ?_, fun v => ?_⟩
  · rw [hlog, hlegs, List.append_assoc]
  · rcases List.mem_append.mp he with he | he
    · exact (Entry.quiet_note (hquiet e he)).1
    · obtain ⟨x, hx, rfl⟩ := List.mem_map.mp he
      have hres := mergeLegs_isResult hm x hx
      cases x <;> first
        | rfl
        | cases hres
  · rw [List.foldl_append, note_quiet hquiet, view_answers]
    exact mergeLegs_view hm v

variable {asked : List Nat} {s s' : Session σ κ}

/-! ## `on_query` -/

theorem sendAll_cons (s : Session σ κ) (m : BackendMessage) (ms : List BackendMessage) :
    s.sendAll (m :: ms) = (s.sendAll [m]).andThen fun s _ => s.sendAll ms := by
  simp only [sendAll, writeAll]
  cases s.write true s.origin m with
  | mk s₁ ok => cases ok <;> rfl

theorem sendAll_gone (h : s.sendsLeft = 0) (m : BackendMessage) (ms : List BackendMessage) :
    s.sendAll (m :: ms) = .halt s (some .clientGone) := by
  unfold sendAll writeAll write
  rw [h]

/-- A tracked cycle is ended. -/
theorem ready_endCycle {α : Type} {P : Session σ κ → α → Prop} (hr : s.Reported asked)
    (ht : s.Tracked asked) (status : TransactionStatus) :
    ((s.sendAll [.readyForQuery status]).andThen fun s _ =>
      (.halt s.endCycle none : Flow (Session σ κ) End α)).Post P (Leaves asked) := by
  refine ready_post hr fun s₁ hl hlog => ?_
  obtain ⟨h1, h2⟩ := endCycle_told hr ht hl hlog
  exact ⟨h1, fun _ => h2⟩

theorem reply_matches {ms : List BackendMessage}
    (hms : ∀ m ∈ ms, m.ready = 0 ∧ m.isError = false) {v : CycleView} {t : CycleTracking}
    (h : v.Matches t.report) :
    (ms.foldl CycleView.sent v).Matches (ms.foldl trackReply t).report ∧
      (ms.foldl trackReply t).active = t.active := by
  induction ms generalizing v t with
  | nil => exact ⟨h, rfl⟩
  | cons m ms ih =>
      have hm := hms m List.mem_cons_self
      have hstep : (v.sent m).Matches (trackReply t m).report ∧
          (trackReply t m).active = t.active := by
        obtain ⟨h1, h2, h3⟩ := h
        cases m with
        | dataRow row => exact ⟨⟨h1, congrArg (· + 1) h2, h3⟩, rfl⟩
        | commandComplete tag => exact ⟨⟨h1, h2, rfl⟩, rfl⟩
        | readyForQuery status => cases hm.1
        | errorResponse info => cases hm.2
        | _ => exact ⟨⟨h1, h2, h3⟩, rfl⟩
      obtain ⟨h1, h2⟩ := ih (fun x hx => hms x (List.mem_cons_of_mem _ hx)) hstep.1
      exact ⟨h1, h2.trans hstep.2⟩

section OnQuery

variable {h : SessionHooks κ}

theorem trackCycle_hooks (hk : s.hooks = some h) (f : CycleTracking → CycleTracking) :
    (s.trackCycle f).hooks = some { h with cycle := f h.cycle } := by
  unfold trackCycle
  rw [hk]
  rfl

/-- The tracking that `f` leaves matches what is seen once `ms` was sent. -/
theorem expects_track (hv : view asked s.log = { asked := true }) (hk : s.hooks = some h)
    (f : CycleTracking → CycleTracking) (ms : List BackendMessage)
    (hact : (f h.cycle).active = true)
    (hm : (ms.foldl CycleView.sent { asked := true }).Matches (f h.cycle).report) :
    (s.trackCycle f).Expects asked ms := by
  intro _
  refine ⟨{ h with cycle := f h.cycle }, trackCycle_hooks hk f, hact, ?_⟩
  show (ms.foldl CycleView.sent (view asked s.log)).Matches _
  rw [hv]
  exact hm

theorem startCycle_hooks (hk : s.hooks = some h) (sql : Option String) (kind : CycleKind) :
    (s.startCycle sql kind).hooks = some { h with cycle := .start sql kind } := by
  unfold startCycle
  rw [hk]
  rfl

variable {P : Session σ κ → FrontendMessage → Prop} {input : CycleInput}

theorem denyQuery_tells (hr : s.Reported asked) (hv : view asked s.log = { asked := true })
    (hk : s.hooks = some h) (info : ErrorInfo) :
    (s.denyQuery input info).Post P (Leaves asked) := by
  unfold denyQuery
  have hexp := expects_track (s := s.startCycle (some input.sql) input.kind) hv
    (startCycle_hooks hk _ _) (fun t => { t with error := some (CycleError.fromInfo info) })
    [.errorResponse info] rfl ⟨rfl, rfl, rfl⟩
  refine andThen_post (Tells.sendAll ⟨hr.asked_lt, hr.made_le, hr.told⟩ hexp
    fun m hm => List.mem_singleton.mp hm ▸ rfl) ?_
  rintro s₁ _ ⟨h1, h2⟩
  split
  · exact ⟨⟨h1.asked_lt, h1.made_le, h1.told⟩, fun _ => h2⟩
  · exact ready_endCycle h1 h2 _

/-- A reply to a simple query without errors of its own. -/
theorem replyQuery_tells (hr : s.Reported asked) (hv : view asked s.log = { asked := true })
    (hk : s.hooks = some h) {messages : List BackendMessage}
    (hms : ∀ m ∈ messages, m.ready = 0 ∧ m.isError = false)
    (hext : input.kind.isExtended = false) :
    (s.replyQuery input messages).Post P (Leaves asked) := by
  unfold replyQuery
  obtain ⟨hm, hact⟩ := reply_matches hms (v := { asked := true })
    (t := .start (some input.sql) input.kind) ⟨rfl, rfl, rfl⟩
  have hexp := expects_track (s := s.startCycle (some input.sql) input.kind) hv
    (startCycle_hooks hk _ _) (fun t => messages.foldl trackReply t) messages hact hm
  refine andThen_post (Tells.sendAll ⟨hr.asked_lt, hr.made_le, hr.told⟩ hexp
    fun m hm => (hms m hm).1) ?_
  rintro s₁ _ ⟨h1, h2⟩
  rw [hext]
  exact ready_endCycle h1 h2 _

theorem scatterFailed_tells (hr : s.Reported asked) (hv : view asked s.log = { asked := true })
    (hk : s.hooks = some h) {sql : Option String} {kind : CycleKind}
    (hc : h.cycle = .start sql kind) (failure : ScatterFailure) :
    (s.scatterFailed failure).Post P (Leaves asked) := by
  unfold scatterFailed
  dsimp only
  generalize hs₁ : (if failure.sessionLeaseBroken then s.dropLease else s) = s₁
  have hlog : s₁.log = s.log := by rw [← hs₁]; split <;> rfl
  have hhooks : s₁.hooks = some h := by rw [← hs₁]; split <;> exact hk
  have hreports : s₁.reports = s.reports := by rw [← hs₁]; split <;> rfl
  have hr₁ : s₁.Reported asked := hr.append (hlog.trans (List.append_nil _).symm) hreports
    (List.forall_mem_nil _)
  have hexp := expects_track (s := { s₁ with currentEndpoint := none, attached := false })
    (hlog ▸ hv) hhooks
    (fun t => { t with error := some (CycleError.fromInfo failure.error) })
    [.errorResponse failure.error] (by rw [hc]; rfl) (by rw [hc]; exact ⟨rfl, rfl, rfl⟩)
  rw [sendAll_cons, andThen_assoc]
  refine andThen_post (Tells.sendAll ⟨hr₁.asked_lt, hr₁.made_le, hr₁.told⟩ hexp
    fun m hm => List.mem_singleton.mp hm ▸ rfl) ?_
  rintro s₂ _ ⟨h1, h2⟩
  refine ready_post h1 fun s₃ hl hlog => ?_
  have hl' : s₂.SameLedger { s₃ with downstreamStatus := .idle } := ⟨hl.ledger, hl.reports⟩
  obtain ⟨h3, h4⟩ := endCycle_told h1 h2 hl' hlog
  exact ⟨h3, fun _ => h4⟩

/-- The client is gone before a failure can be told. -/
theorem scatterFailed_unsent (hr : s.Reported asked) (h : s.sendsLeft = 0)
    (failure : ScatterFailure) : (s.scatterFailed failure).Post P (Leaves asked) := by
  unfold scatterFailed
  dsimp only
  rw [sendAll_gone]
  · refine ⟨?_, nofun⟩
    split <;> exact ⟨hr.asked_lt, hr.made_le, hr.told⟩
  · split <;> exact h

theorem scatterQuery_tells {env : Env σ} {t : Timing} {request : ScatterRequest}
    (hr : s.Reported asked) (hv : view asked s.log = { asked := true })
    (hk : s.hooks = some h) : (s.scatterQuery env input request t).Post P (Leaves asked) := by
  have hr₁ : (s.startCycle (some input.sql) input.kind).Reported asked :=
    ⟨hr.asked_lt, hr.made_le, hr.told⟩
  have hk₁ := startCycle_hooks hk (some input.sql) input.kind
  unfold scatterQuery
  dsimp only
  generalize hs₁ : s.startCycle (some input.sql) input.kind = s₁ at hr₁ hk₁
  have hv₁ : view asked s₁.log = { asked := true } := by rw [← hs₁]; exact hv
  split
  · exact scatterFailed_tells hr₁ hv₁ hk₁ rfl _
  · have hprobe : ProbeKeeps env.upstream fun _ _ => True := fun _ _ _ _ _ => trivial
    obtain ⟨_, c, broken, hsc, hmerged⟩ := executeScatter_spec hprobe s₁ request
      (fun _ _ _ _ _ _ _ _ _ _ => trivial) ⟨fun _ _ _ => trivial, fun _ _ _ _ _ _ => trivial⟩ t
    have hl := executeScatter_ledger env s₁ request t
    obtain ⟨k₂, hk₂, hledger⟩ := hl.hooks hk₁
    have hc₂ : k₂.cycle = .start (some input.sql) input.kind := congrArg (·.2.2) hledger
    -- A leg on the session's own lease is all that is logged before the merge.
    have hlegs : ∃ legs, c.log = s₁.log ++ legs ∧ ∀ e ∈ legs, e.quiet = true := by
      cases hsc with
      | pooled => exact ⟨[], (List.append_nil _).symm, List.forall_mem_nil _⟩
      | leg => exact ⟨_, rfl, fun e he => List.mem_singleton.mp he ▸ rfl⟩
    obtain ⟨legs, hlegs, hquiet⟩ := hlegs
    split
    case h_1 s₂ heq =>
      rw [heq] at hmerged hl
      cases hmerged with
      | panicked _ hcore =>
          have hlog : s₂.log = s₁.log ++ legs := (congrArg Core.log hcore).trans hlegs
          exact ⟨hr₁.append hlog hl.reports fun e he => (Entry.quiet_note (hquiet e he)).1, nofun⟩
    case h_2 s₂ failure heq =>
      rw [heq] at hmerged hl hk₂
      cases hmerged with
      | failed _ _ hcore =>
          have hlog : s₂.log = s₁.log ++ legs := (congrArg Core.log hcore).trans hlegs
          refine scatterFailed_tells (hr₁.append hlog hl.reports
            fun e he => (Entry.quiet_note (hquiet e he)).1) ?_ hk₂ hc₂ failure
          rw [hlog, view_append hr₁.asked_lt, note_quiet hquiet, hv₁]
      | gone _ ms pre _ _ hms hpre hcore hgone =>
          have hlog : s₂.log = s₁.log ++ (legs ++ pre) := by
            rw [← List.append_assoc, ← hlegs]
            exact congrArg Core.log hcore
          refine scatterFailed_unsent (hr₁.append hlog hl.reports fun e he => ?_) hgone failure
          rcases List.mem_append.mp he with he | he
          · exact (Entry.quiet_note (hquiet e he)).1
          · obtain ⟨x, hx, rfl⟩ := List.mem_map.mp (hpre.subset he)
            have hres := hms x hx
            cases x <;> first
              | rfl
              | cases hres
    case h_3 s₂ rows heq =>
      rw [heq] at hl hk₂
      obtain ⟨es, hlog, hes, hview⟩ := executeScatter_view heq
      have hr₂ := hr₁.append hlog hl.reports hes
      have hr₃ : ∀ f, (s₂.trackCycle f).Reported asked :=
        fun _ => ⟨hr₂.asked_lt, hr₂.made_le, hr₂.told⟩
      refine ready_endCycle (hr₃ _) (fun _ => ?_) _
      refine ⟨{ k₂ with cycle := { k₂.cycle with
        rows := rows, tag := some (request.tag ++ " " ++ toString rows) } }, ?_, ?_, ?_⟩
      · unfold trackCycle
        rw [hk₂]
        rfl
      · exact congrArg CycleTracking.active hc₂
      · show (view asked s₂.log).Matches _
        rw [hlog, view_append hr₁.asked_lt, hview, hv₁, hc₂]
        exact ⟨rfl, (Nat.zero_add rows).symm, rfl⟩

/-- `on_query` was called, and nothing of the cycle was sent before. -/
theorem actOnQuery_tells {env : Env σ} {t : Timing} {m : FrontendMessage} {cycle : QueryCycle}
    {action : Action} (hr : s.Reported asked) (hv : view asked s.log = { asked := true })
    (hk : s.hooks = some h)
    (hreply : ∀ ms, action = .reply ms →
      input.kind.isExtended = false ∧ ∀ x ∈ ms, x.ready = 0 ∧ x.isError = false)
    (hP : ∀ s₁ m', s₁.Reported asked → s₁.Tracked asked → s₁.toCore = s.toCore →
      s₁.interceptor = s.interceptor → action = .forward →
      m' = applyRewrite m cycle.takeRewritten → P s₁ m') :
    (s.actOnQuery env t m input cycle action).Post P (Leaves asked) := by
  cases action with
  | forward =>
      refine hP _ _ ⟨hr.asked_lt, hr.made_le, hr.told⟩ (fun _ => ?_) rfl
        (startCycle_beside s _ _).interceptor rfl rfl
      refine ⟨_, startCycle_hooks hk _ _, rfl, ?_⟩
      show (view asked s.log).Matches _
      rw [hv]
      exact ⟨rfl, rfl, rfl⟩
  | deny info => exact denyQuery_tells hr hv hk info
  | scatter request => exact scatterQuery_tells hr hv hk
  | reply messages =>
      obtain ⟨hext, hms⟩ := hreply messages rfl
      exact replyQuery_tells hr hv hk hms hext
  | close => exact ⟨hr, nofun⟩

end OnQuery

/-! ## A message on its way -/

/-- The phases before the forward phase: nothing of the cycle was sent since `s`. -/
structure Underway (asked : List Nat) (s s₁ : Session σ κ) : Prop where
  reported : s₁.Reported asked
  tracked : s₁.Tracked asked
  view : view asked s₁.log = view asked s.log
  hygiene : s₁.hygiene = s.hygiene
  fedSinceRfq : s₁.fedSinceRfq = s.fedSinceRfq
  interceptor : s₁.interceptor = s.interceptor

theorem applyRewrite_starts (m : FrontendMessage) (sql : Option String) :
    (applyRewrite m sql).startsResponse = m.startsResponse := by
  cases m <;> cases sql <;> rfl

section Client

variable {env : Env σ} {t : Timing} {m : FrontendMessage} {i : Option (Interceptor κ)}

/-- What the query phase hands on. -/
def Approved (asked : List Nat) (s : Session σ κ) (m : FrontendMessage) (s₁ : Session σ κ)
    (m' : FrontendMessage) : Prop :=
  Underway asked s s₁ ∧ m'.startsResponse = m.startsResponse ∧
    (s₁.registry.conflicts m' = true → (view asked s.log).asked = false)

theorem queryPhase_unasked (hr : s.Reported asked) (ht : s.Tracked asked)
    (h : s.hooks = none ∨ cycleInputOf m = none) :
    (s.queryPhase env t m).Post (Approved asked s m) (Leaves asked) := by
  unfold queryPhase
  split
  case h_1 hin =>
    refine ⟨⟨hr, ht, rfl, rfl, rfl, rfl⟩, rfl, fun hconf => ?_⟩
    cases m <;> first
      | cases hconf
      | cases hin
  case h_2 hin =>
    have hnone : s.hooks = none := h.resolve_right (by rw [hin]; exact nofun)
    dsimp only
    split
    case h_1 =>
      refine ⟨⟨⟨hr.asked_lt, hr.made_le, hr.told⟩, ht, rfl, rfl, rfl, rfl⟩, rfl, fun _ => ?_⟩
      by_contra hasked
      obtain ⟨k, hk, _⟩ := ht (Bool.not_eq_false _ ▸ hasked)
      cases hnone.symm.trans hk
    case h_2 hk =>
      cases hnone.symm.trans hk

theorem queryPhase_asked {h : SessionHooks κ} {input : CycleInput} (hr : s.Reported asked)
    (hv : view asked s.log = { asked := true }) (hk : s.hooks = some h)
    (hin : cycleInputOf m = some input) (hplain : RepliesPlainly s.interceptor)
    (hconf : (s.approves m).any s.registry.conflicts = false) :
    (s.queryPhase env t m).Post (Approved asked s m) (Leaves asked) := by
  unfold queryPhase
  rw [hin]
  dsimp only
  rw [hk]
  refine actOnQuery_tells ⟨hr.asked_lt, hr.made_le, hr.told⟩ hv rfl (fun ms hms => ?_) ?_
  · refine hplain input ms ⟨h.interceptor, ?_, h.ctx, hms⟩
    rw [Session.interceptor, hk]
    rfl
  · intro s₁ m' h1 h2 hcore hint hact hm'
    have happ : s.approves m = some m' := by
      unfold approves
      rw [hin, hk]
      dsimp only
      rw [hact, hm']
    refine ⟨⟨h1, h2, ?_, ?_, ?_, ?_⟩, ?_, fun hc => ?_⟩
    · rw [hcore]
    · rw [hcore]
    · rw [hcore]
    · rw [hint, Session.interceptor, Session.interceptor, hk]
      rfl
    · rw [hm', applyRewrite_starts]
    · rw [happ] at hconf
      rw [hcore] at hc
      cases hconf.symm.trans hc

variable {s₁ : Session σ κ}

theorem registryPhase_tells (hu : Underway asked s s₁)
    (hconf : s₁.registry.conflicts m = true → (view asked s.log).asked = false) :
    (s₁.registryPhase m).Post (fun s₂ _ => Underway asked s s₂) (Leaves asked) := by
  unfold registryPhase
  split
  · split
    case isTrue => exact hu
    case isFalse hname =>
      split
      case h_1 => exact hu
      case h_2 known hknown =>
        split
        case isTrue =>
          refine andThen_post (Tells.sendQuiet hu.reported hu.tracked rfl) ?_
          exact fun s₂ _ h => ⟨h.1, fun _ => h.2⟩
        case isFalse hne =>
          have hasked : (view asked s₁.log).asked = false := by
            rw [hu.view]
            refine hconf ?_
            simp [StatementRegistry.conflicts, hname, hknown, hne]
          refine andThen_post (Tells.sendAll hu.reported (fun h => ?_)
            fun m hm => List.mem_singleton.mp hm ▸ rfl) fun s₂ _ h => ?_
          · cases hasked.symm.trans h
          · exact ⟨⟨h.1.asked_lt, h.1.made_le, h.1.told⟩, fun _ => h.2⟩
  · exact hu

theorem attachPhase_tells (hu : Underway asked s s₁) (sqlHint : Option String)
    (pending : PendingParse) :
    (s₁.attachPhase env sqlHint pending).Post (fun s₂ _ => Underway asked s s₂)
      (Leaves asked) := by
  have hl := ensureAttached_ledger env s₁ sqlHint
  have hspec : AttachSpec env (fun _ _ => True) s₁ (s₁.ensureAttached env sqlHint) :=
    ensureAttached_spec (fun _ _ _ _ _ => trivial) sqlHint s₁
      ⟨fun _ _ _ => trivial, fun _ _ _ _ _ _ => trivial⟩
  unfold attachPhase
  split
  case h_1 s₂ heq =>
    rw [heq] at hl hspec
    refine ⟨?_, nofun⟩
    have hfail : AttachFails s₁.toCore s₂.toCore := hspec.fails rfl
    obtain ⟨es, hlog, hes⟩ : ∃ es, s₂.log = s₁.log ++ es ∧ ∀ e ∈ es, e.isReady = false := by
      generalize s₂.toCore = d at hfail
      cases hfail with
      | intro dirty info es hnone hpre =>
          refine ⟨es, rfl, fun e he => ?_⟩
          exact List.mem_singleton.mp (hpre.subset he) ▸ rfl
    exact hu.reported.append hlog hl.reports hes
  case h_2 s₂ heq =>
    rw [heq] at hl hspec
    have hatt : Attaches env (fun _ _ => True) _ _ s₁.toCore s₂.toCore := hspec.attaches rfl
    have hcore : (∃ es, s₂.log = s₁.log ++ es ∧ ∀ e ∈ es, e.quiet = true) ∧
        s₂.hygiene = s₁.hygiene ∧ s₂.fedSinceRfq = s₁.fedSinceRfq := by
      generalize s₂.toCore = d at hatt
      cases hatt with
      | held => exact ⟨⟨[], (List.append_nil _).symm, List.forall_mem_nil _⟩, rfl, rfl⟩
      | leased =>
          exact ⟨⟨_, rfl, fun e he => List.mem_singleton.mp he ▸ rfl⟩, rfl, rfl⟩
    obtain ⟨⟨es, hlog, hes⟩, hh, hf⟩ := hcore
    obtain ⟨h1, h2, h3⟩ := told_quiet hu.reported hu.tracked hl hlog hes
    have hint : s₂.interceptor = s₁.interceptor := hspec.kept.interceptor
    have hu₂ : Underway asked s s₂ := ⟨h1, h2, h3.trans hu.view, hh.trans hu.hygiene,
      hf.trans hu.fedSinceRfq, hint.trans hu.interceptor⟩
    split
    · exact ⟨⟨h1.asked_lt, h1.made_le, h1.told⟩, h2, hu₂.view, hu₂.hygiene, hu₂.fedSinceRfq,
        hu₂.interceptor⟩
    · exact ⟨⟨h1.asked_lt, h1.made_le, h1.told⟩, h2, hu₂.view, hu₂.hygiene, hu₂.fedSinceRfq,
        hu₂.interceptor⟩

/-- Only the hooks' contexts change. -/
theorem Underway.context {s₂ : Session σ κ} (hu : Underway asked s s₁) (hl : s₁.SameLedger s₂)
    (hc : s₂.toCore = s₁.toCore) : Underway asked s s₂ := by
  have hlog : s₂.log = s₁.log ++ [] := by rw [hc, List.append_nil]
  obtain ⟨h1, h2, h3⟩ := told_quiet hu.reported hu.tracked hl hlog (List.forall_mem_nil _)
  refine ⟨h1, h2, h3.trans hu.view, ?_, ?_, hl.interceptor.trans hu.interceptor⟩
  · rw [hc]
    exact hu.hygiene
  · rw [hc]
    exact hu.fedSinceRfq

theorem frontendPhase_tells (hu : Underway asked s s₁) (hp : Passive s.interceptor) :
    (s₁.frontendPhase m).Post (fun s₂ m' => Underway asked s s₂ ∧ m' = m) (Leaves asked) := by
  unfold frontendPhase
  split
  case h_1 => exact ⟨hu, rfl⟩
  case h_2 k hk =>
    have hmem : k.interceptor ∈ s.interceptor := by
      rw [← hu.interceptor, Session.interceptor, hk]
      rfl
    have hfwd := (hp k.interceptor hmem k.ctx).1 m
    dsimp only
    rw [hfwd]
    exact ⟨hu.context (withCtx_ledger hk _) rfl, rfl⟩

/-- No call of `on_query` is missed by the report of a lost cycle. -/
theorem reportLost_told (hr : s.Reported asked) (ha : (view asked s.log).asked = false)
    (hl : s.SameLedger s') {own : Bool} {o : Origin} {status : TransactionStatus}
    (hlog : s'.log = s.log ++ [.sent own o (.readyForQuery status)]) :
    s'.reportLost.Reported asked ∧ s'.reportLost.Tracked asked := by
  have hlen : s'.log.length = s.log.length + 1 := by rw [hlog, List.length_append]; rfl
  have hlog' : s'.reportLost.log = s.log ++ [.sent own o (.readyForQuery status)] :=
    (congrArg Core.log (reportLost_beside s').core).trans hlog
  refine ⟨?_, tracked_ready hr hlog'⟩
  have hreports : ∃ rs, s'.reportLost.reports = s.reports ++ rs ∧
      ∀ x ∈ rs, x.1 = s.log.length + 1 := by
    unfold reportLost endCycle
    split
    case h_1 k hk =>
      split
      · rw [hk]
        refine ⟨[(s'.log.length, k.cycle.report)], ?_, fun x hx => ?_⟩
        · rw [← hl.reports]
          rfl
        · rw [List.mem_singleton.mp hx]
          exact hlen
      · exact ⟨[], hl.reports.trans (List.append_nil _).symm, List.forall_mem_nil _⟩
    case h_2 => exact ⟨[], hl.reports.trans (List.append_nil _).symm, List.forall_mem_nil _⟩
  obtain ⟨rs, hrs, hpos⟩ := hreports
  refine hr.ready hlog' rs hrs hpos fun hasked => ?_
  cases ha.symm.trans hasked

/-- A cycle without a call of `on_query` is tracked whatever the hooks hold. -/
theorem tracked_unasked (ha : (view asked s.log).asked = false) : s.Tracked asked := by
  intro h
  cases ha.symm.trans h

theorem synthesizeUpstreamLost_tells (hr : s₁.Reported asked)
    (ha : (view asked s₁.log).asked = false) : Tells asked s₁.synthesizeUpstreamLost := by
  unfold synthesizeUpstreamLost
  refine andThen_post
    (P := fun s₂ _ => s₂.Reported asked ∧ (view asked s₂.log).asked = false) ?_ ?_
  · refine sendAll_ledger (fun s₂ hl hc => ?_) fun s₂ ns hns _ hl hc => ?_
    · have hlog : s₂.log = s₁.log ++ s₁.toCore.answers [.errorResponse lostInfo] :=
        congrArg Core.log hc
      refine ⟨hr.append hlog hl.reports (answers_notReady ?_), ?_⟩
      · exact fun m hm => List.mem_singleton.mp hm ▸ rfl
      · rw [hlog, view_append hr.asked_lt]
        exact ha
    · refine ⟨hr.append (congrArg Core.log hc) hl.reports (answers_notReady ?_), nofun⟩
      exact fun m hm => List.mem_singleton.mp (hns.subset hm) ▸ rfl
  · rintro s₂ _ ⟨hr₂, ha₂⟩
    split
    · exact ⟨⟨hr₂.asked_lt, hr₂.made_le, hr₂.told⟩, tracked_unasked ha₂⟩
    · refine ready_post hr₂ fun s₃ hl hlog => ?_
      have hl' : s₂.SameLedger { s₃ with downstreamStatus := .idle } := ⟨hl.ledger, hl.reports⟩
      exact reportLost_told hr₂ ha₂ hl' hlog

/-- What asking the error policy leaves. -/
theorem askLost_underway (hr : s₁.Reported asked) (ht : s₁.Tracked asked) (message : String) :
    Underway asked s₁ (s₁.askLost message).1 := by
  have hl := askLost_ledger s₁ message
  have hb := (dispatchOnUpstreamError_beside s₁
    (.connectionLost (s₁.currentEndpoint.getD "") message)).1
  have hlog := congrArg Core.log hb.core
  have hhygiene := congrArg Core.hygiene hb.core
  have hfed := congrArg Core.fedSinceRfq hb.core
  have hsame : (∃ es, (s₁.askLost message).1.log = s₁.log ++ es ∧ ∀ e ∈ es, e.quiet = true) ∧
      (s₁.askLost message).1.hygiene = s₁.hygiene ∧
      (s₁.askLost message).1.fedSinceRfq = s₁.fedSinceRfq := by
    unfold askLost
    dsimp only
    split
    · refine ⟨⟨[_], congrArg (· ++ _) hlog, fun e he => ?_⟩, hhygiene, hfed⟩
      exact List.mem_singleton.mp he ▸ rfl
    · exact ⟨⟨[], hlog.trans (List.append_nil _).symm, List.forall_mem_nil _⟩, hhygiene, hfed⟩
  obtain ⟨⟨es, hes, hquiet⟩, hhyg, hfed'⟩ := hsame
  obtain ⟨h1, h2, h3⟩ := told_quiet hr ht hl hes hquiet
  exact ⟨h1, h2, h3, hhyg, hfed', hl.interceptor⟩

/-- Neither the log nor the hooks nor the reports change. -/
theorem told_same (hr : s.Reported asked) (ht : s.Tracked asked) (hlog : s'.log = s.log)
    (hhooks : s'.hooks = s.hooks) (hreports : s'.reports = s.reports) :
    s'.Reported asked ∧ s'.Tracked asked := by
  have hl : s.SameLedger s' := ⟨congrArg (Option.map SessionHooks.ledger) hhooks, hreports⟩
  obtain ⟨h1, h2, _⟩ := told_quiet hr ht hl (hlog.trans (List.append_nil _).symm)
    (List.forall_mem_nil _)
  exact ⟨h1, h2⟩

theorem Underway.dropLease (hu : Underway asked s s₁) : Underway asked s s₁.dropLease := by
  obtain ⟨h1, h2⟩ : s₁.dropLease.Reported asked ∧ s₁.dropLease.Tracked asked :=
    told_same hu.reported hu.tracked rfl rfl rfl
  exact ⟨h1, h2, hu.view, hu.hygiene, hu.fedSinceRfq, hu.interceptor⟩

theorem sendFailed_tells (hr : s₁.Reported asked) (ht : s₁.Tracked asked)
    (ha : (s₁.hygiene.awaitingResponse || decide (0 < s₁.fedSinceRfq)) = true →
      (view asked s₁.log).asked = false) : Tells asked s₁.sendFailed := by
  have hask := askLost_underway hr ht "send failed"
  unfold sendFailed
  split
  case h_1 heq =>
    rw [heq] at hask
    exact ⟨hask.reported, nofun⟩
  case h_2 s₂ heq =>
    rw [heq] at hask
    have hdrop := hask.dropLease
    dsimp only
    split
    case isTrue hsynth =>
      rw [hdrop.hygiene, hdrop.fedSinceRfq] at hsynth
      have hasked : (view asked s₂.dropLease.log).asked = false := by
        rw [hdrop.view]
        exact ha hsynth
      refine andThen_post (synthesizeUpstreamLost_tells hdrop.reported hasked) fun s₃ _ h => ?_
      exact told_same h.1 h.2 rfl rfl rfl
    case isFalse => exact told_same hdrop.reported hdrop.tracked rfl rfl rfl

theorem forwardPhase_tells (hu : Underway asked s s₁) {sendOk : Bool}
    (hc : sendOk = false →
      (s.hygiene.awaitingResponse || m.startsResponse || decide (0 < s.fedSinceRfq)) = true →
        (view asked s.log).asked = false) :
    Tells asked (s₁.forwardPhase env sendOk m) := by
  unfold forwardPhase
  dsimp only
  generalize hs₂ : (if m.startsResponse then _ else s₁) = s₂
  have h₂ : s₂.Reported asked ∧ s₂.Tracked asked := by
    rw [← hs₂]
    split
    · exact told_same hu.reported hu.tracked rfl rfl rfl
    · exact ⟨hu.reported, hu.tracked⟩
  have hv : view asked s₂.log = view asked s.log := by
    rw [← hu.view, ← hs₂]
    split <;> rfl
  have hawait : s₂.hygiene.awaitingResponse =
      (s.hygiene.awaitingResponse || m.startsResponse) := by
    rw [← hu.hygiene, ← hs₂]
    split
    case isTrue hst =>
      rw [hst, Bool.or_true]
    case isFalse hst =>
      rw [Bool.not_eq_true] at hst
      rw [hst, Bool.or_false]
  have hfed : s₂.fedSinceRfq = s.fedSinceRfq := by
    rw [← hu.fedSinceRfq, ← hs₂]
    split <;> rfl
  split
  · exact ⟨h₂.1, nofun⟩
  · split
    case isTrue lease _ _ =>
      have hlog : (s₂.putUpstream env lease m).log =
          s₂.log ++ [.forwarded lease.conn.processId s₂.seq m] := rfl
      have hl : s₂.SameLedger (s₂.putUpstream env lease m) := ⟨rfl, rfl⟩
      obtain ⟨h1, h2, _⟩ := told_quiet h₂.1 h₂.2 hl hlog fun e he => List.mem_singleton.mp he ▸ rfl
      exact ⟨h1, h2⟩
    case isFalse hfail =>
      refine sendFailed_tells h₂.1 h₂.2 fun hsynth => ?_
      rw [hv]
      refine hc (Bool.not_eq_true _ ▸ hfail) ?_
      rwa [hawait, hfed] at hsynth

/-- The phases behind the local answers, once the query phase has let the message through. -/
theorem passPhases_tells (hq : (s.queryPhase env t m).Post (Approved asked s m) (Leaves asked))
    (hp : Passive s.interceptor)
    (hc : t.sendOk = false →
      (s.hygiene.awaitingResponse || m.startsResponse || decide (0 < s.fedSinceRfq)) = true →
        (view asked s.log).asked = false) :
    Tells asked (s.passPhases env t m) := by
  unfold passPhases
  refine andThen_post hq fun s₁ m' h₁ => ?_
  obtain ⟨hu₁, hstarts, hconf⟩ := h₁
  refine andThen_post (registryPhase_tells hu₁ hconf) fun s₂ pending hu₂ => ?_
  refine andThen_post (attachPhase_tells hu₂ _ pending) fun s₃ _ hu₃ => ?_
  refine andThen_post (frontendPhase_tells hu₃ hp) fun s₄ m'' h₄ => ?_
  obtain ⟨hu₄, rfl⟩ := h₄
  exact forwardPhase_tells hu₄ (hstarts ▸ hc)

/-- A message for which `on_query` is going to be called. -/
theorem Reported.ask (hr : s.Reported asked) {e : Entry} (he : e.isReady = false)
    (hlog : s₁.log = s.log ++ [e]) (hreports : s₁.reports = s.reports) :
    s₁.Reported (asked ++ [s.log.length]) := by
  have hnow := hr.append hlog hreports (List.forall_mem_singleton.mpr he)
  have hlen : s₁.log.length = s.log.length + 1 := by rw [hlog, List.length_append]; rfl
  refine ⟨fun n hn => ?_, hnow.made_le, fun k own o status hk hasked => ?_⟩
  · rcases List.mem_append.mp hn with hn | hn
    · exact hnow.asked_lt n hn
    · rw [List.mem_singleton.mp hn]
      omega
  · have hlt := (List.getElem?_eq_some_iff.mp hk).1
    have hle : (s₁.log.take k).length ≤ s.log.length :=
      (List.length_take_le k _).trans (by omega)
    rw [view_later hle] at hasked ⊢
    exact hnow.told k own o status hk hasked

/-- Nothing was sent in the cycle before the message. -/
theorem view_asked {log : List Entry} (hv : view [] log = {}) (seq : Nat) :
    view (asked ++ [log.length]) (log ++ [.recv seq m]) = { asked := true } := by
  have hview := view_sent asked log
  rw [hv] at hview
  rw [view_concat, view_later (Nat.le_refl _)]
  have hrows : (view asked log).rows = 0 := congrArg CycleView.rows hview
  have htag : (view asked log).tag = none := congrArg CycleView.tag hview
  have hfailed : (view asked log).failed = false := congrArg CycleView.failed hview
  simp [CycleView.note, hrows, htag, hfailed]

/-- A session that tracks no cycle has no call to report. -/
theorem Tracked.unasked (ht : s.Tracked asked) (h : s.tracking = false) :
    (view asked s.log).asked = false := by
  by_contra hasked
  obtain ⟨k, hk, hact, _⟩ := ht (Bool.not_eq_false _ ▸ hasked)
  rw [tracking, hk] at h
  cases hact.symm.trans h

/-- Nothing stands before the query phase of a message for which `on_query` is called. -/
theorem onClient_asked {input : CycleInput} (hs : s.swallowUntilSync = false)
    (hin : cycleInputOf m = some input) :
    s.onClient env t m = { s with toCore := s.toCore.recv m }.passPhases env t m := by
  have hswallow : (s.toCore.recv m).swallowUntilSync = false := hs
  cases m with
  | query sql => simp [onClient, swallowPhase, localPhase, hswallow, Flow.andThen]
  | parse name sql oids => simp [onClient, swallowPhase, localPhase, hswallow, Flow.andThen]
  | _ => cases hin

theorem onClient_tells (hr : s.Reported asked) (ht : s.Tracked asked) (hs : s.ended = none)
    (hp : Passive s.interceptor) (hq : RepliesPlainly s.interceptor)
    (hc : s.Candid (.client m t)) :
    Tells (asked ++ s.asking (.own (.client m t))) (s.onClient env t m) := by
  obtain ⟨hask, hloss⟩ := hc
  by_cases hasks : s.asksQuery m = true
  · have hasking : s.asking (.own (.client m t)) = [s.log.length] := by
      simp [asking, hs, hasks]
    rw [hasks] at hloss
    rw [hasking]
    obtain ⟨hv, hconf⟩ := hask hasks
    unfold asksQuery at hasks
    simp only [Bool.and_eq_true, Bool.not_eq_true', Option.isSome_iff_exists] at hasks
    obtain ⟨⟨⟨h, hk⟩, hswallow⟩, input, hin⟩ := hasks
    have hr₀ : ({ s with toCore := s.toCore.recv m } : Session σ κ).Reported
        (asked ++ [s.log.length]) := hr.ask (e := .recv (s.seq + 1) m) rfl rfl rfl
    rw [onClient_asked hswallow hin]
    refine passPhases_tells (queryPhase_asked hr₀ (view_asked hv _) hk hin hq hconf) hp ?_
    exact fun hsend hlost => nomatch hloss hsend hlost
  · have hasking : s.asking (.own (.client m t)) = [] := by
      simp [asking, hasks]
    rw [hasking, List.append_nil]
    unfold onClient
    generalize hs₀ : ({ s with toCore := s.toCore.recv m } : Session σ κ) = s₀
    obtain ⟨hr₀, ht₀, hv₀⟩ : s₀.Reported asked ∧ s₀.Tracked asked ∧
        view asked s₀.log = view asked s.log := by
      have hlog : s₀.log = s.log ++ [.recv (s.seq + 1) m] := by rw [← hs₀]; rfl
      subst hs₀
      exact told_quiet hr ht ⟨rfl, rfl⟩ hlog fun e he => List.mem_singleton.mp he ▸ rfl
    dsimp only
    split
    · exact ⟨hr₀, nofun⟩
    · refine andThen_post (swallowPhase_tells hr₀ ht₀ m) fun s₁ _ h₁ => ?_
      obtain ⟨rfl, hswallow⟩ := h₁
      refine andThen_post (localPhase_tells hr₀ ht₀ m) fun s₂ _ h₂ => ?_
      subst h₂
      refine passPhases_tells (queryPhase_unasked hr₀ ht₀ ?_) ?_ fun hsend hlost => ?_
      · subst hs₀
        have hs' : s.swallowUntilSync = false := hswallow
        by_cases hk : s.hooks = none
        · exact .inl hk
        · right
          simpa [asksQuery, hs', Option.isSome_iff_ne_none, hk] using hasks
      · subst hs₀
        exact hp
      · rw [hv₀]
        refine ht.unasked ?_
        subst hs₀
        exact (Bool.or_eq_false_iff.mp (hloss hsend hlost)).2

end Client

/-! ## The upstream arm -/

section Backend

variable {s₁ : Session σ κ} {m : BackendMessage} {h h₁ : SessionHooks κ}

/-- The tracking is ready for the message, which may end the cycle. -/
structure Ready (asked : List Nat) (s : Session σ κ) (m : BackendMessage) : Prop where
  reported : s.Reported asked
  expects : s.Expects asked [m]
  tracked : m.ready = 1 → s.Tracked asked
  passive : Passive s.interceptor

/-- The tracking follows a message that does not end the cycle. -/
theorem Ready.next (hr : s.Reported asked) (ht : s.Tracked asked) (hp : Passive s.interceptor)
    (hk : s.hooks = some h) (hk₁ : s₁.hooks = some h₁) (hlog : s₁.log = s.log)
    (hreports : s₁.reports = s.reports) (hint : h₁.interceptor = h.interceptor)
    (hact : h₁.cycle.active = h.cycle.active) (hready : m.ready = 0)
    (hm : ∀ v : CycleView, v.Matches h.cycle.report → (v.sent m).Matches h₁.cycle.report) :
    s₁.Ready asked m := by
  refine ⟨hr.append (hlog.trans (List.append_nil _).symm) hreports (List.forall_mem_nil _),
    fun hasked => ?_,
    fun hend => ?_, ?_⟩
  · rw [List.foldl_cons, List.foldl_nil, hlog] at hasked ⊢
    obtain ⟨k, hk', hactive, hmatch⟩ := ht (CycleView.sent_asked hasked)
    cases hk.symm.trans hk'
    exact ⟨h₁, hk₁, hact.trans hactive, hm _ hmatch⟩
  · cases hready.symm.trans hend
  · rw [Session.interceptor, hk₁, Option.map_some, hint]
    rw [Session.interceptor, hk] at hp
    exact hp

theorem editRow_tells (hr : s.Reported asked) (ht : s.Tracked asked) (hp : Passive s.interceptor)
    (hk : s.hooks = some h) (row : DataRow) :
    (s.editRow h row).Post
      (fun s₁ edited => (∀ r, edited = some r → s₁.Ready asked (.dataRow r)) ∧
        (edited = none → s₁.Reported asked ∧ s₁.Tracked asked))
      (Leaves asked) := by
  unfold editRow
  split
  · exact ⟨hr, nofun⟩
  · refine ⟨fun r _ => ?_, nofun⟩
    refine .next hr ht hp hk (trackCycle_hooks hk _) rfl rfl rfl rfl rfl fun v hv => ?_
    exact ⟨hv.1, congrArg (· + 1) hv.2.1, hv.2.2⟩
  · dsimp only
    split
    · refine ⟨fun r _ => ?_, nofun⟩
      refine .next hr ht hp hk rfl rfl rfl rfl rfl rfl fun v hv => ?_
      exact ⟨hv.1, congrArg (· + 1) hv.2.1, hv.2.2⟩
    · -- A dropped row is neither sent nor counted.
      refine ⟨nofun, fun _ => ⟨⟨hr.asked_lt, hr.made_le, hr.told⟩, fun hasked => ?_⟩⟩
      obtain ⟨k, hk', hactive, hmatch⟩ := ht hasked
      cases hk.symm.trans hk'
      exact ⟨_, rfl, hactive, hmatch⟩

theorem rowPhase_tells (hr : s.Reported asked) (ht : s.Tracked asked) (hp : Passive s.interceptor)
    (hc : (∃ tag, m = .commandComplete tag) → ∀ h ∈ s.hooks,
      h.interceptor.adjustCommandCounts = true → h.cycle.droppedPending = 0) :
    (s.rowPhase m).Post (Ready asked) (Leaves asked) := by
  unfold rowPhase
  split
  case h_1 hnone =>
    refine ⟨hr, fun hasked => ?_, fun _ => ht, hp⟩
    obtain ⟨k, hk, _⟩ := ht (CycleView.sent_asked hasked)
    cases hnone.symm.trans hk
  case h_2 k hk =>
    have hsame : ∀ {m}, m.quiet = true → s.Ready asked m := by
      intro m hm
      obtain ⟨hready, hsent⟩ := BackendMessage.quiet_sent hm
      exact .next hr ht hp hk hk rfl rfl rfl rfl hready fun v hv => (hsent v).symm ▸ hv
    split
    case h_1 =>
      split
      · exact .next hr ht hp hk rfl rfl rfl rfl rfl rfl fun v hv => hv
      · exact hsame rfl
    case h_2 tag =>
      have hkeep : (k.interceptor.adjustCommandCounts && decide (0 < k.cycle.droppedPending)) =
          false := by
        by_contra hadjust
        rw [Bool.not_eq_false, Bool.and_eq_true, decide_eq_true_eq] at hadjust
        have := hc ⟨tag, rfl⟩ k hk hadjust.1
        omega
      dsimp only
      rw [hkeep, if_neg Bool.false_ne_true]
      exact .next hr ht hp hk (trackCycle_hooks hk _) rfl rfl rfl rfl rfl
        fun v hv => ⟨hv.1, hv.2.1, rfl⟩
    case h_3 =>
      exact .next hr ht hp hk (trackCycle_hooks hk _) rfl rfl rfl rfl rfl
        fun v hv => ⟨rfl, hv.2.1, hv.2.2⟩
    case h_4 =>
      split
      · refine andThen_post (editRow_tells hr ht hp hk _) fun s₁ edited h₁ => ?_
        cases edited with
        | some r => exact h₁.1 r rfl
        | none => exact ⟨(h₁.2 rfl).1, fun _ => (h₁.2 rfl).2⟩
      · exact .next hr ht hp hk (trackCycle_hooks hk _) rfl rfl rfl rfl rfl
          fun v hv => ⟨hv.1, congrArg (· + 1) hv.2.1, hv.2.2⟩
    case h_5 hcomplete herror hdata =>
      cases m with
      | readyForQuery status => exact ⟨hr, nofun, fun _ => ht, hp⟩
      | commandComplete tag => exact absurd rfl (hcomplete tag)
      | errorResponse info => exact absurd rfl (herror info)
      | dataRow row => exact absurd rfl (hdata row)
      | _ => exact hsame rfl

theorem Ready.context (h : s.Ready asked m) (hl : s.SameLedger s₁) (hlog : s₁.log = s.log) :
    s₁.Ready asked m := by
  have hnil : s₁.log = s.log ++ [] := by rw [hlog, List.append_nil]
  refine ⟨h.reported.append hnil hl.reports (List.forall_mem_nil _),
    h.expects.shift hl (by rw [hlog]), fun hready => ?_, ?_⟩
  · exact (h.tracked hready).shift hl (by rw [hlog])
  · rw [hl.interceptor]
    exact h.passive

/-- The raw hook is passive: it forwards what it gets. -/
theorem backendPhase_tells (h : s.Ready asked m) :
    (s.backendPhase m).Post (fun s₁ m' => s₁.Ready asked m ∧ m' = some m) (Leaves asked) := by
  unfold backendPhase
  split
  case h_1 => exact ⟨h, rfl⟩
  case h_2 k hk =>
    have hmem : k.interceptor ∈ s.interceptor := by
      rw [Session.interceptor, hk]
      rfl
    have hfwd := (h.passive k.interceptor hmem k.ctx).2 m
    dsimp only
    rw [hfwd]
    exact ⟨h.context (withCtx_ledger hk _) rfl, rfl⟩

theorem afterReady_tells {env : Env σ} {own : Bool} {o : Origin} {status' : TransactionStatus}
    (hr : s.Reported asked) (ht : s.Tracked asked) (hl : s.SameLedger s₁)
    (hlog : s₁.log = s.log ++ [.sent own o (.readyForQuery status')])
    (status : TransactionStatus) : Tells asked (s₁.afterReady env status) := by
  obtain ⟨h1, h2⟩ := endActiveCycle_told hr ht hl hlog
  unfold afterReady
  dsimp only
  split
  · exact ⟨h1, nofun⟩
  · have hdetach : (s₁.endActiveCycle.detachIfIdle env status).1.Reported asked ∧
        (s₁.endActiveCycle.detachIfIdle env status).1.Tracked asked := by
      have hledger := detachIfIdle_ledger env s₁.endActiveCycle status
      have hlogged : ∃ es, (s₁.endActiveCycle.detachIfIdle env status).1.log =
          s₁.endActiveCycle.log ++ es ∧ ∀ e ∈ es, e.quiet = true := by
        unfold detachIfIdle
        split
        · exact ⟨[], (List.append_nil _).symm, List.forall_mem_nil _⟩
        · split
          · exact ⟨[], (List.append_nil _).symm, List.forall_mem_nil _⟩
          · split
            · exact ⟨[], (List.append_nil _).symm, List.forall_mem_nil _⟩
            · exact ⟨[_], rfl, fun e he => List.mem_singleton.mp he ▸ rfl⟩
      obtain ⟨es, hes, hquiet⟩ := hlogged
      obtain ⟨h3, h4, _⟩ := told_quiet h1 h2 hledger hes hquiet
      exact ⟨h3, h4⟩
    split
    case h_1 s₂ heq =>
      rw [heq] at hdetach
      exact told_same hdetach.1 hdetach.2 rfl rfl rfl
    case h_2 s₂ heq =>
      rw [heq] at hdetach
      exact hdetach

theorem deliverBackend_tells {env : Env σ} (h : s.Ready asked m) (o : Origin)
    (status : TransactionStatus) : Tells asked (s.deliverBackend env o status m) := by
  unfold deliverBackend write
  cases s.sendsLeft with
  | zero => exact ⟨h.reported, nofun⟩
  | succ n =>
      dsimp only
      split
      case isTrue hready =>
        obtain ⟨status', rfl⟩ : ∃ status', m = .readyForQuery status' := by
          cases m <;> first
            | exact ⟨_, rfl⟩
            | cases hready
        have hl : s.SameLedger { s with
            toCore := s.toCore.record (.sent false o (.readyForQuery status'))
            sendsLeft := n
            backend := s.backend + 1 } := ⟨rfl, rfl⟩
        exact afterReady_tells h.reported (h.tracked hready) hl rfl status
      case isFalse hready =>
        refine ⟨h.reported.append rfl rfl fun e he => ?_, fun hasked => ?_⟩
        · rw [List.mem_singleton.mp he]
          exact decide_eq_false hready
        · have hv : view asked (s.toCore.record (.sent false o m)).log =
              [m].foldl CycleView.sent (view asked s.log) :=
            view_append h.reported.asked_lt [.sent false o m]
          rw [List.foldl_nil, hv] at hasked ⊢
          exact h.expects hasked

theorem onUpstream_tells {env : Env σ} (hr : s.Reported asked) (ht : s.Tracked asked)
    (hp : Passive s.interceptor) (hc : s.Candid .upstream) : Tells asked (s.onUpstream env) := by
  unfold onUpstream
  split
  case h_1 => exact ⟨hr, ht⟩
  case h_2 lease hlease =>
    split
    case h_1 => exact ⟨hr, ht⟩
    case h_2 o m conn hnext =>
      dsimp only
      generalize hs₁ : trackBackend env _ m = s₁
      have hlog : s₁.log = s.log := by
        rw [← hs₁]
        exact (Core.track_spec env.transactionMode _ m).1.log
      have hhooks : s₁.hooks = s.hooks := by rw [← hs₁]; rfl
      have hreports : s₁.reports = s.reports := by rw [← hs₁]; rfl
      obtain ⟨hr₁, ht₁⟩ := told_same hr ht hlog hhooks hreports
      have hp₁ : Passive s₁.interceptor := by
        rw [Session.interceptor, hhooks]
        exact hp
      refine andThen_post (rowPhase_tells hr₁ ht₁ hp₁ ?_) fun s₂ m' h₂ => ?_
      · rintro ⟨tag, rfl⟩
        rw [hhooks]
        refine hc ?_
        have hhead : lease.conn.inbox.head? = some (o, .commandComplete tag) := by
          unfold Conn.next at hnext
          split at hnext
          case h_1 => cases hnext
          case h_2 heq =>
            rw [heq, ← (Prod.mk.inj (Option.some.inj hnext)).1]
            rfl
        simp [Core.readsTag, hlease, hhead]
      · refine andThen_post (backendPhase_tells h₂) fun s₃ m'' h₃ => ?_
        obtain ⟨h₃, rfl⟩ := h₃
        exact deliverBackend_tells h₃ o _

theorem onUpstreamClosed_tells (hr : s.Reported asked) (ht : s.Tracked asked)
    (hc : s.Candid .upstreamClosed) : Tells asked s.onUpstreamClosed := by
  have hask := askLost_underway hr ht "upstream closed unexpectedly"
  unfold onUpstreamClosed
  split
  case h_1 => exact ⟨hr, ht⟩
  case h_2 lease hlease =>
    split
    case h_1 heq =>
      rw [heq] at hask
      exact ⟨hask.reported, nofun⟩
    case h_2 s₂ heq =>
      rw [heq] at hask
      have hdrop := hask.dropLease
      dsimp only
      have hlost : Tells asked (if s₂.dropLease.hygiene.awaitingResponse then
          s₂.dropLease.synthesizeUpstreamLost else .next s₂.dropLease ()) := by
        split
        case isTrue hsynth =>
          rw [hdrop.hygiene] at hsynth
          have hidle : s.tracking = false := hc (by rw [hlease]; rfl) hsynth
          refine synthesizeUpstreamLost_tells hdrop.reported ?_
          rw [hdrop.view]
          exact ht.unasked hidle
        case isFalse => exact ⟨hdrop.reported, hdrop.tracked⟩
      refine andThen_post hlost fun s₃ _ h => ?_
      exact told_same h.1 h.2 rfl rfl rfl

end Backend

/-! ## Runs -/

theorem arm_tells {env : Env σ} {e : Event} (hr : s.Reported asked) (ht : s.Tracked asked)
    (hs : s.ended = none) (hp : Passive s.interceptor) (hq : RepliesPlainly s.interceptor)
    (hc : s.Candid e) : Tells (asked ++ s.asking (.own e)) (s.arm env e) := by
  have hnone : (∀ m t, e ≠ .client m t) → asked ++ s.asking (.own e) = asked := by
    intro h
    cases e with
    | client m t => exact absurd rfl (h m t)
    | _ => exact List.append_nil asked
  cases e with
  | client m t => exact onClient_tells hr ht hs hp hq hc
  | clientGone =>
      rw [hnone (by simp)]
      exact ⟨hr, fun h => by cases h⟩
  | upstream =>
      rw [hnone (by simp)]
      exact onUpstream_tells hr ht hp hc
  | upstreamClosed =>
      rw [hnone (by simp)]
      exact onUpstreamClosed_tells hr ht hc
  | upstreamError reason =>
      rw [hnone (by simp)]
      simp only [arm]
      split
      · exact ⟨hr, fun h => by cases h⟩
      · exact ⟨hr, ht⟩
  | cancel =>
      rw [hnone (by simp)]
      simp only [arm, onCancel]
      split
      case h_1 lease _ =>
        have hsame : s.SameLedger { s with toCore := s.toCore.cancelled env.upstream lease } :=
          ⟨rfl, rfl⟩
        obtain ⟨h1, h2, _⟩ := told_quiet hr ht hsame rfl (List.forall_mem_singleton.mpr rfl)
        exact ⟨h1, h2⟩
      case h_2 => exact ⟨hr, ht⟩
  | shutdown =>
      rw [hnone (by simp)]
      simp only [arm, onShutdown]
      split
      · exact ⟨⟨hr.asked_lt, hr.made_le, hr.told⟩, ht⟩
      · exact ⟨hr, fun h => by cases h⟩

/-- What holds of a session together with the calls of `on_query` so far. -/
structure Audited (i : Option (Interceptor κ)) (p : Session σ κ × List Nat) : Prop where
  reported : p.1.Reported p.2
  tracked : p.1.ended = none → p.1.Tracked p.2
  interceptor : p.1.interceptor = i

theorem Audited.move {env : Env σ} {i : Option (Interceptor κ)} {p : Session σ κ × List Nat}
    (hp : Passive i) (hq : RepliesPlainly i) (h : Audited i p) (m : Move σ)
    (hm : Within (fun _ _ => True) Candid p.1 m) :
    Audited i (observe (Session.move env) Session.asking p m) := by
  obtain ⟨s, asked⟩ := p
  obtain ⟨hr, ht, hi⟩ := h
  cases m with
  | others world =>
      show Audited i ({ s with world := world }, asked ++ [])
      rw [List.append_nil]
      exact ⟨⟨hr.asked_lt, hr.made_le, hr.told⟩, ht, hi⟩
  | own e =>
      show Audited i (s.step env e, asked ++ s.asking (.own e))
      have hint : (s.step env e).interceptor = i := (s.step_interceptor e).trans hi
      cases hs : s.ended with
      | none =>
          subst hi
          have harm : Tells (asked ++ s.asking (.own e)) (s.arm env e) :=
            arm_tells hr (ht hs) hs hp hq (hm hs)
          have hleaves : Leaves (asked ++ s.asking (.own e)) (s.arm env e).close.1
              (s.arm env e).close.2 :=
            close_post (harm.mono (fun _ _ h => ⟨h.1, fun _ => h.2⟩) fun _ _ h => h)
          have hstep : s.step env e =
              { (s.arm env e).close.1 with ended := (s.arm env e).close.2 } := by
            rw [step, hs]
            rfl
          rw [hstep]
          obtain ⟨hr', ht'⟩ := hleaves
          exact ⟨⟨hr'.asked_lt, hr'.made_le, hr'.told⟩, ht', by rw [← hstep]; exact hint⟩
      | some r =>
          have hstep : s.step env e = s := by
            rw [step, hs]
            rfl
          have hask : s.asking (.own e) = [] := by
            cases e with
            | client m t => simp [asking, hs]
            | _ => rfl
          rw [hstep, hask, List.append_nil]
          exact ⟨hr, ht, hi⟩

end Session

/-- In every run in which the tracking misses nothing, every cycle with a call of `on_query` has
    its one report, and the report is right. -/
theorem cycles_reported (env : Env σ) (l : Launch σ κ) (ms : List (Move σ))
    (hp : Passive l.interceptor) (hq : RepliesPlainly l.interceptor)
    (hrun : l.Runs env (fun _ _ => True) Session.Candid ms) :
    let p := run (observe (Session.move env) Session.asking) (l.new.start env, []) ms
    CyclesReported p.2 p.1.log p.1.reports := by
  have hunasked : ∀ log, (view [] log).asked = false := fun log =>
    congrArg CycleView.asked (view_sent [] log).symm
  have hreports : (l.new.start env).reports = [] := (Session.start_ledger env l.new).reports
  have hstart : Session.Audited l.interceptor (l.new.start env, []) := by
    refine ⟨⟨nofun, ?_, fun k _ _ _ _ hasked => ?_⟩, fun _ => ?_, ?_⟩
    · rw [hreports]
      exact nofun
    · cases (hunasked _).symm.trans hasked
    · exact Session.tracked_unasked (hunasked _)
    · exact (Launch.start_starts env l).1.interceptor
  have hmove : ∀ (p : Session σ κ × List Nat) (m : Move σ), Session.Audited l.interceptor p →
      Session.Within (fun _ _ => True) Session.Candid p.1 m →
      Session.Audited l.interceptor (observe (Session.move env) Session.asking p m) :=
    fun p m h hm => h.move hp hq m hm
  have halong := along_observe (Session.move env) Session.asking (l.new.start env, []) ms hrun
  exact (run_inv hmove (l.new.start env, []) ms hstart halong).reported.told

/-- A cycle of the upstream and a scattered one. -/
theorem cycles_reported_twice :
    let p := run (observe (Session.move (Sample.env .session)) Session.asking)
      ((Sample.launch .session (some (Sample.scatteringOn "S"))).new.start
        (Sample.env .session), [])
      (List.map .own [Sample.client (.query "SELECT 1"), .upstream, .upstream,
        Sample.client (.query "S")])
    CyclesReported p.2 p.1.log p.1.reports := by
  refine cycles_reported (Sample.env .session)
    (Sample.launch .session (some (Sample.scatteringOn "S"))) (List.map .own [_, _, _, _]) ?_ ?_
    (Session.along_own (by decide : Along (Session.step (Sample.env .session)) _ _ [_, _, _, _]))
  · rintro h ⟨⟩ ctx
    exact ⟨fun _ => rfl, fun _ => rfl⟩
  · rintro input ms ⟨h, ⟨⟩, ctx, hq⟩
    simp only [Sample.scatteringOn, SessionHooks.new] at hq
    split at hq <;> cases hq

/-- The errors that the pump makes up are missing in the reports: the connection is closed in
    the middle of a query, and a `Parse` has a name that is taken. -/
theorem cycles_misreported :
    let after := fun es : List Event =>
      run (observe (Session.move (Sample.env .session)) Session.asking)
        ((Sample.launch .session (some (Interceptor.noop Unit))).new.start
          (Sample.env .session), [])
        (es.map .own)
    let lost := after [Sample.client (.query "SELECT 1"), .upstreamClosed]
    let taken := after (Sample.prepare ++
      [Sample.client (.parse (some "s") "SELECT 2" []), Sample.client .sync])
    ¬ CyclesReported lost.2 lost.1.log lost.1.reports ∧
      ¬ CyclesReported taken.2 taken.1.log taken.1.reports := by
  intro after lost taken
  constructor
  · intro h
    obtain ⟨r, hr, hmatch⟩ := h 5 true (.client 0 1) .idle (by decide) (by decide)
    have hmade : lost.1.reports.filter (fun x => decide (x.1 = 6)) =
        [(6, { sql := some "SELECT 1", kind := .simple, tag := none, rows := 0, rowsDropped := 0,
               error := none })] := by decide
    cases hmade.symm.trans hr
    revert hmatch
    decide
  · intro h
    obtain ⟨r, hr, hmatch⟩ := h 10 true (.client 0 4) .idle (by decide) (by decide)
    have hmade : taken.1.reports.filter (fun x => decide (x.1 = 11)) =
        [(11, { sql := some "SELECT 2", kind := .extended (some "s"), tag := none, rows := 0,
                rowsDropped := 0, error := none })] := by decide
    cases hmade.symm.trans hr
    revert hmatch
    decide

end Pgferry
