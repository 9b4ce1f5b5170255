/-
  Rows and the `on_row` hook.

  A row that the pump reads from the lease's connection goes through `on_row` when the interceptor
  wants rows. Two ways lead around the hook: a row whose bytes do not parse is forwarded as it is,
  and the rows of a scatter are merged and written by `execute_scatter`, which never asks.

  Proved: `rows_mediated`. In a run without scatters in which every row that is read parses, each
  row in the log was read from the upstream and is what `on_row`, asked in the session's context
  and schema of that moment, left of it; and a row that it keeps reaches a client that is there.
-/
import Pgferry.Session.Entries

namespace Pgferry

open Loop Loop.Flow

variable {σ κ : Type}

/-- What `on_row` leaves of a row: the row with its edits, or nothing when the row is dropped or
    the hook is not asked. -/
def SessionHooks.onRow (h : SessionHooks κ) (row : DataRow) : Option DataRow :=
  match DataRowMut.parse row with
  | some (.ok r) =>
      let asked := h.interceptor.onRow h.ctx h.schema r
      match asked.2.2 with
      | .keep => some (asked.2.1.foldl RowEdit.perform r).apply
      | .drop => none
  | _ => none

/-- The next message on the lease is the row `row`, in answer to `o`. -/
def Core.ReadsRow (c : Core σ) (o : Origin) (row : DataRow) : Prop :=
  ∃ lease ∈ c.lease, lease.conn.inbox.head? = some (o, .dataRow row)

/-- The row delivered as `.sent own o (.dataRow row)` has been through `on_row`: it was read in
    answer to `o` at some point of the run, and is what the hook left of it then. Rows of the
    interceptor's own come from a `Reply`. -/
def Launch.Mediated (env : Env σ) (l : Launch σ κ) (ms : List (Move σ)) (own : Bool) (o : Origin)
    (row : DataRow) : Prop :=
  (own = true ∧ ∃ reply, Core.Replies l.interceptor reply ∧ .dataRow row ∈ reply) ∨
    own = false ∧ ∃ ms₁ ms₂ read h, ms = ms₁ ++ .own .upstream :: ms₂ ∧
      (l.after env ms₁).toCore.ReadsRow o read ∧ (l.after env ms₁).hooks = some h ∧
      h.onRow read = some row

/-- A message whose bytes, if it is a row, are those of its fields. -/
def BackendMessage.parses : BackendMessage → Bool
  | .dataRow row =>
      match DataRowMut.parse row with
      | some (.ok _) => true
      | _ => false
  | _ => true

namespace Session

/-- Every row that is read parses. -/
def RowsParse (s : Session σ κ) : Event → Prop
  | .upstream => ∀ lease ∈ s.lease, ∀ x ∈ lease.conn.inbox.head?, x.2.parses = true
  | _ => True

instance (s : Session σ κ) : ∀ e, Decidable (s.RowsParse e)
  | .upstream => inferInstanceAs (Decidable (∀ lease ∈ s.lease, _))
  | .client _ _ | .clientGone | .upstreamClosed | .upstreamError _ | .cancel | .shutdown =>
      isTrue trivial

theorem RowsParse.row {s : Session σ κ} (h : s.RowsParse .upstream) {o : Origin} {row : DataRow}
    (hr : s.toCore.ReadsRow o row) : ∃ r, DataRowMut.parse row = some (.ok r) := by
  obtain ⟨lease, hl, hx⟩ := hr
  have hp : (BackendMessage.dataRow row).parses = true := h lease hl _ hx
  unfold BackendMessage.parses at hp
  dsimp only at hp
  split at hp
  case h_1 r hr =>
    exact ⟨r, hr⟩
  case h_2 => cases hp

variable {env : Env σ} {s : Session σ κ}

/-! ## Rows that are read -/

/-- The row phase on a row that parses. -/
theorem rowPhase_row {h : SessionHooks κ} {row : DataRow} {r : DataRowMut}
    (hh : s.hooks = some h) (hw : h.interceptor.wantsRows = true)
    (hp : DataRowMut.parse row = some (.ok r)) :
    ∃ s₁ h₁, (s.rowPhase (.dataRow row) = match h.onRow row with
        | some row' => .next s₁ (.dataRow row')
        | none => .halt s₁ none) ∧
      s₁.log = s.log ∧ s₁.sendsLeft = s.sendsLeft ∧ s₁.hooks = some h₁ ∧
      h₁.interceptor = h.interceptor := by
  unfold rowPhase editRow SessionHooks.onRow
  simp only [hh, hw, if_true, hp]
  cases (h.interceptor.onRow h.ctx h.schema r).2.2 with
  | keep => exact ⟨_, _, rfl, rfl, rfl, rfl, rfl⟩
  | drop => exact ⟨_, _, rfl, rfl, rfl, rfl, rfl⟩

/-- A message that `on_backend` passes on is written, if the client is there. -/
theorem deliver_row {h : SessionHooks κ} {row : DataRow} (hh : s.hooks = some h)
    (hback : ∀ ctx m, (h.interceptor.onBackend ctx m).2 = (m, .forward)) (o : Origin)
    (status : TransactionStatus) :
    ((s.backendPhase (.dataRow row)).andThen fun s forwarded =>
      match forwarded with
      | some m => s.deliverBackend env o status m
      | none => .next { s with backend := s.backend + 1 } ()).close.1.log =
    s.log ++ if s.sendsLeft = 0 then [] else [.sent false o (.dataRow row)] := by
  have hb := hback h.ctx (.dataRow row)
  simp only [backendPhase, hh, hb, andThen_next, deliverBackend, write]
  cases s.sendsLeft with
  | zero => exact (List.append_nil _).symm
  | succ n => rfl

/-- What a row that is read adds to the log. -/
theorem step_row {o : Origin} {row : DataRow} {r : DataRowMut} {h : SessionHooks κ}
    (he : s.ended = none) (hr : s.toCore.ReadsRow o row) (hh : s.hooks = some h)
    (hw : h.interceptor.wantsRows = true)
    (hback : ∀ ctx m, (h.interceptor.onBackend ctx m).2 = (m, .forward))
    (hp : DataRowMut.parse row = some (.ok r)) :
    (s.step env .upstream).log = s.log ++ match h.onRow row with
      | some row' => if s.sendsLeft = 0 then [] else [.sent false o (.dataRow row')]
      | none => [] := by
  obtain ⟨lease, hlease, hin⟩ := hr
  have hl : s.lease = some lease := hlease
  obtain ⟨rest, hx⟩ : ∃ rest, lease.conn.inbox = (o, .dataRow row) :: rest :=
    List.head?_eq_some_iff.mp hin
  have hstep : (s.step env .upstream).log = (s.onUpstream env).close.1.log := by
    simp [step, he, arm]
  rw [hstep]
  unfold onUpstream
  simp only [hl, Conn.next, hx]
  generalize hs₁ : { s with lease := _ }.trackBackend env (.dataRow row) = s₁
  have hlog : s₁.log = s.log := by rw [← hs₁]; rfl
  have hsends : s₁.sendsLeft = s.sendsLeft := by rw [← hs₁]; rfl
  have hhooks : s₁.hooks = some h := by rw [← hs₁]; exact hh
  obtain ⟨s₂, h₂, hrow, hlog₂, hsends₂, hhooks₂, hint₂⟩ := rowPhase_row hhooks hw hp
  rw [hrow]
  cases h.onRow row with
  | none => simp [hlog₂, hlog]
  | some row' =>
      refine (deliver_row hhooks₂ (hint₂ ▸ hback) o s₁.leaseStatus).trans ?_
      rw [hlog₂, hsends₂, hlog, hsends]

/-! ## Other entries -/

/-- Unless a row is read, the rows that a step delivers are the interceptor's own. -/
theorem step_noRow {own : Bool} {o : Origin} {row : DataRow} {e : Event}
    {i : Option (Interceptor κ)}
    (hback : ∀ h ∈ i, ∀ ctx m, (h.onBackend ctx m).2 = (m, .forward))
    (hscatter : ∀ input request, ¬ Asks i input (.scatter request))
    (hread : e = .upstream → ∀ o row, ¬ s.toCore.ReadsRow o row)
    (h : Core.Logged env i s e (.sent own o (.dataRow row))) :
    own = true ∧ ∃ reply, Core.Replies i reply ∧ .dataRow row ∈ reply := by
  cases h with
  | own _ _ hm => cases hm
  | replied _ reply _ hr hm => exact ⟨rfl, reply, hr, hm⟩
  | merged _ input request _ ha => exact absurd ha (hscatter input request)
  | passed _ m m' _ c he hr hs hh =>
      have hm' : m' = .dataRow row := by
        rcases hh with ⟨_, rfl, _⟩ | ⟨k, hk, ctx, heq⟩
        · rfl
        · rw [hback k hk ctx m'] at heq
          cases heq
          rfl
      obtain ⟨read, rfl⟩ : ∃ read, m = .dataRow read := by
        rcases hs with rfl | ⟨_, ⟨read, _, hm, _⟩ | ⟨_, _, _, hm⟩⟩
        · exact ⟨row, hm'⟩
        · exact ⟨read, hm⟩
        · rw [hm] at hm'
          cases hm'
      obtain ⟨lease, rest, hl, hin, _⟩ := Core.readNext_spec hr
      exact absurd ⟨lease, hl, by rw [hin]; rfl⟩ (hread he o read)

end Session

theorem Launch.Mediated.append {env : Env σ} {l : Launch σ κ} {ms : List (Move σ)} {own : Bool}
    {o : Origin} {row : DataRow} (h : l.Mediated env ms own o row) (m : Move σ) :
    l.Mediated env (ms ++ [m]) own o row := by
  rcases h with h | ⟨hown, ms₁, ms₂, read, h, hms, hread, hh, hrow⟩
  · exact .inl h
  · exact .inr ⟨hown, ms₁, ms₂ ++ [m], read, h, by rw [hms, List.append_assoc]; rfl, hread, hh,
      hrow⟩

/-- Every row of a run has been through `on_row`, and a row that the hook keeps is delivered. -/
theorem rows_mediated (env : Env σ) (l : Launch σ κ) (ms : List (Move σ)) (i : Interceptor κ)
    (hi : l.interceptor = some i) (hwants : i.wantsRows = true)
    (hback : ∀ ctx m, (i.onBackend ctx m).2 = (m, .forward))
    (hscatter : ∀ input request, ¬ Asks l.interceptor input (.scatter request))
    (hrun : l.Runs env (fun _ _ => True) Session.RowsParse ms) :
    (∀ own o row, .sent own o (.dataRow row) ∈ (l.after env ms).log →
      l.Mediated env ms own o row) ∧
    ∀ ms₁ ms₂ o read h row, ms = ms₁ ++ .own .upstream :: ms₂ →
      (l.after env ms₁).ended = none → (l.after env ms₁).sendsLeft ≠ 0 →
      (l.after env ms₁).toCore.ReadsRow o read → (l.after env ms₁).hooks = some h →
      h.onRow read = some row →
      .sent false o (.dataRow row) ∈ (l.after env (ms₁ ++ [.own .upstream])).log := by
  have hhooks : ∀ ms, ∃ h, (l.after env ms).hooks = some h ∧ h.interceptor = i := by
    intro ms
    have hint : (l.after env ms).interceptor = some i := (l.after_interceptor ms).trans hi
    exact Option.map_eq_some_iff.mp hint
  -- What an iteration that reads a row adds.
  have hrow : ∀ ms, Session.RowsParse (l.after env ms) .upstream →
      (l.after env ms).ended = none → ∀ o read, (l.after env ms).toCore.ReadsRow o read →
      ∃ h, (l.after env ms).hooks = some h ∧
        ((l.after env ms).step env .upstream).log = (l.after env ms).log ++ match h.onRow read with
          | some row => if (l.after env ms).sendsLeft = 0 then []
              else [.sent false o (.dataRow row)]
          | none => [] := by
    intro ms hparse he o read hread
    obtain ⟨h, hh, hint⟩ := hhooks ms
    obtain ⟨r, hr⟩ := hparse.row hread
    exact ⟨h, hh, Session.step_row he hread hh (hint ▸ hwants) (hint ▸ hback) hr⟩
  refine ⟨fun own o row hmem => ?_, ?_⟩
  · have hentries := Launch.log_rule (l := l) (Q := fun ms x => ∀ own o row,
        x = .sent own o (.dataRow row) → l.Mediated env ms own o row) ?_ ?_ ?_ hrun
    · exact hentries _ hmem own o row rfl
    · intro x hx own o row heq
      rcases l.start_logged x hx with ⟨pid, endpoint, rfl⟩ | ⟨o', info, rfl⟩ <;> cases heq
    · exact fun ms m x hx own o row heq => (hx own o row heq).append m
    · intro ms e hparse he
      by_cases hread : e = .upstream ∧ ∃ o read, (l.after env ms).toCore.ReadsRow o read
      · obtain ⟨rfl, o, read, hread⟩ := hread
        obtain ⟨h, hh, hlog⟩ := hrow ms hparse he o read hread
        refine ⟨_, hlog, fun x hx own o' row heq => ?_⟩
        subst heq
        cases hkept : h.onRow read with
        | none =>
            rw [hkept] at hx
            cases hx
        | some row' =>
            rw [hkept] at hx
            dsimp only at hx
            split at hx
            · cases hx
            · cases List.mem_singleton.mp hx
              exact .inr ⟨rfl, ms, [], read, h, rfl, hread, hh, hkept⟩
      · have hsteps : Steps env _ _ _ e ((l.after env ms).step env e).toCore :=
          Session.step_steps he
        obtain ⟨es, hes, hlogged⟩ := Core.steps_logged hsteps
        refine ⟨es, hes, fun x hx own o row heq => .inl ?_⟩
        subst heq
        have hlog := hlogged _ hx
        rw [l.after_interceptor ms] at hlog
        refine Session.step_noRow (fun k hk => ?_) hscatter (fun he o row hr => ?_) hlog
        · rw [hi] at hk
          cases hk
          exact hback
        · exact hread ⟨he, o, row, hr⟩
  · intro ms₁ ms₂ o read h row hms he hsends hread hh hkept
    subst hms
    obtain ⟨_, hown, _⟩ := (along_append _ ms₁ _).mp hrun
    obtain ⟨h', hh', hlog⟩ := hrow ms₁ (hown he) he o read hread
    cases hh.symm.trans hh'
    have hafter : l.after env (ms₁ ++ [.own .upstream]) = (l.after env ms₁).step env .upstream :=
      run_append _ _ ms₁ [.own .upstream]
    rw [hafter, hlog, hkept]
    dsimp only
    rw [if_neg hsends]
    exact List.mem_append_right _ List.mem_cons_self

/-! ## A server with one row -/

namespace Sample

/-- A server that answers every query with the row `row`. -/
def rowServer (row : DataRow) : Upstream Unit where
  respond _ m :=
    match m with
    | .query _ => ((), [.rowDescription [], .dataRow row, .commandComplete "SELECT 1",
        .readyForQuery .idle])
    | .sync => ((), [.readyForQuery .idle])
    | _ => ((), [])
  interrupt _ := ((), [])
  owed _ := 0
  copying _ := false

def rowEnv (row : DataRow) : Env Unit where
  upstream := rowServer row
  route := {
    name := "main"
    endpoints := [
      { id := "a", upstream := "host-a:5432" }, { id := "b", upstream := "host-b:5432" }] }
  poolConfig := { mode := .session }

def rowLaunch (i : Interceptor Unit) : Launch Unit Unit where
  id := 0
  sends := 100
  world := { pools := fun _ => Pool.new { mode := .session }, now := 0, dials := 0,
             supply := fun _ _ => .ok ((), ∅) }
  params := { user := "u", database := none }
  startup := ∅
  hooks := some (SessionHooks.new i ())

/-- The one column of `row` is the text `1`; `cut` has lost it. -/
def row : DataRow := { fieldCount := 1, data := [0, 0, 0, 1, 49] }
def cut : DataRow := { fieldCount := 1, data := [] }

/-- An interceptor that blanks the first column. -/
def masking : Interceptor Unit :=
  { Interceptor.noop Unit with
    wantsRows := true
    onRow := fun ctx _ _ => (ctx, [.setNull 0], .keep) }

/-- An interceptor that drops every row and scatters the query `S`. -/
def dropping : Interceptor Unit :=
  { scatteringOn "S" with
    wantsRows := true
    onRow := fun ctx _ _ => (ctx, [], .drop) }

theorem dropping_onRow {h : SessionHooks Unit} (hi : h.interceptor = dropping) (row : DataRow) :
    h.onRow row = none := by
  unfold SessionHooks.onRow
  split
  · simp only [hi, dropping]
  · rfl

theorem dropping_replies {reply : List BackendMessage} : ¬ Core.Replies (some dropping) reply := by
  rintro (⟨input, k, hk, ctx, hq⟩ | ⟨m, m', ⟨hn, _⟩ | ⟨k, hk, ctx, hq⟩⟩ |
    ⟨m, m', ⟨hn, _⟩ | ⟨k, hk, ctx, hq⟩⟩)
  · cases hk
    simp only [dropping, scatteringOn] at hq
    split at hq <;> cases hq
  · cases hn
  · cases hk
    cases hq
  · cases hn
  · cases hk
    cases hq

/-- Nothing that reaches the client has been through this hook. -/
theorem dropping_mediated {env : Env Unit} {ms : List (Move Unit)} {own : Bool} {o : Origin}
    {row : DataRow} : ¬ (rowLaunch dropping).Mediated env ms own o row := by
  rintro (⟨_, reply, hr, _⟩ | ⟨_, ms₁, ms₂, read, h, _, _, hh, hrow⟩)
  · exact dropping_replies hr
  · have hint : ((rowLaunch dropping).after env ms₁).interceptor = some dropping :=
      (rowLaunch dropping).after_interceptor ms₁
    rw [Session.interceptor, hh] at hint
    rw [dropping_onRow (Option.some.inj hint) read] at hrow
    cases hrow

end Sample

/-- A query whose row is blanked. -/
theorem rows_mediated_masked :
    let l := Sample.rowLaunch Sample.masking
    let ms := ([Sample.client (.query "SELECT 1")] ++ Sample.reads 4).map Move.own
    .sent false (.client 0 1) (.dataRow { fieldCount := 1, data := [255, 255, 255, 255] }) ∈
        (l.after (Sample.rowEnv Sample.row) ms).log ∧
      ∀ own o row, .sent own o (.dataRow row) ∈ (l.after (Sample.rowEnv Sample.row) ms).log →
        l.Mediated (Sample.rowEnv Sample.row) ms own o row := by
  refine ⟨by decide, (rows_mediated (Sample.rowEnv Sample.row) (Sample.rowLaunch Sample.masking) _
    Sample.masking rfl rfl (fun _ _ => rfl) ?_ (Session.along_own (by decide : Along
      (Session.step (Sample.rowEnv Sample.row)) _ _
      ([Sample.client (.query "SELECT 1")] ++ Sample.reads 4)))).1⟩
  rintro input request ⟨k, hk, ctx, hq⟩
  cases hk
  cases hq

/-- A row that does not parse, and the rows of a scatter, reach the client although the
    interceptor drops all rows. -/
theorem rows_unmediated :
    (¬ ∀ own o row, .sent own o (.dataRow row) ∈ ((Sample.rowLaunch Sample.dropping).after
        (Sample.rowEnv Sample.cut)
        (([Sample.client (.query "SELECT 1")] ++ Sample.reads 4).map .own)).log →
      (Sample.rowLaunch Sample.dropping).Mediated (Sample.rowEnv Sample.cut)
        (([Sample.client (.query "SELECT 1")] ++ Sample.reads 4).map .own) own o row) ∧
    ¬ ∀ own o row, .sent own o (.dataRow row) ∈ ((Sample.rowLaunch Sample.dropping).after
        (Sample.rowEnv Sample.row) [.own (Sample.client (.query "S"))]).log →
      (Sample.rowLaunch Sample.dropping).Mediated (Sample.rowEnv Sample.row)
        [.own (Sample.client (.query "S"))] own o row := by
  refine ⟨fun h => ?_, fun h => ?_⟩
  · exact Sample.dropping_mediated (h false (.client 0 1) Sample.cut (by decide))
  · exact Sample.dropping_mediated (h true (.client 0 1) Sample.row (by decide))

end Pgferry
