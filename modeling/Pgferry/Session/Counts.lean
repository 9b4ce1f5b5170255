/-
  The row counts of command tags.

  An interceptor that drops rows can have the count at the end of a `CommandComplete` tag lowered
  by the rows that were dropped. The session counts these from the last tag or from the start of
  the cycle on. `RowTally` counts what the upstream has sent, and the client has got, of the current
  statement: one ends with its `CommandComplete`, with an error, with a suspended or an empty
  portal, and with its connection.

  Proved: `counts_right_iff`. In a run in which the upstream counts its rows right, every tag that
  is delivered carries the number of rows that the client got of its statement exactly when, at
  each such tag, as many dropped rows of other statements are left over as dropped rows of this
  one were forgotten; or more, if the client got no row of it. The counterexample suspends a portal
  after a dropped row.
-/
import Pgferry.Session.RowBooks
import Pgferry.Session.Rows

namespace Pgferry

open Loop Loop.Flow

variable {σ κ : Type}

/-! ## Tags -/

/-- The words of a tag and the count behind them. -/
def tagParts (tag : String) : Option (String × Nat) :=
  let chars := tag.toList.reverse
  match chars.dropWhile (fun ch => ch ≠ ' ') with
  | [] => none
  | _ :: head =>
      (parseDigits (chars.takeWhile (fun ch => ch ≠ ' ')).reverse).map fun n =>
        (String.ofList head.reverse, n)

theorem parseDigits_toDigits (n : Nat) : parseDigits (Nat.toDigits 10 n) = some n := by
  have hne : Nat.toDigits 10 n ≠ [] := Nat.toDigits_ne_nil
  have hall : (Nat.toDigits 10 n).all (fun ch => '0' ≤ ch && ch ≤ '9') = true := by
    refine List.all_eq_true.mpr fun ch hch => ?_
    have hdigit := Nat.isDigit_of_mem_toDigits (by decide) (by decide) hch
    simp only [Char.isDigit, Bool.and_eq_true, decide_eq_true_eq] at hdigit ⊢
    exact hdigit
  rw [parseDigits, if_pos ⟨hne, hall⟩]
  exact congrArg some (Nat.ofDigitChars_ten_toDigits (n := n))

theorem tagParts_count (words : String) (n : Nat) :
    tagParts (words ++ " " ++ toString n) = some (words, n) := by
  have hchars : (words ++ " " ++ toString n).toList.reverse =
      (Nat.toDigits 10 n).reverse ++ ' ' :: words.toList.reverse := by
    simp [Nat.toString_eq_repr, Nat.toList_repr]
  have hdigit : ∀ ch ∈ (Nat.toDigits 10 n).reverse, decide (ch ≠ ' ') = true := by
    intro ch hch
    have hd := Nat.isDigit_of_mem_toDigits (by decide) (by decide) (List.mem_reverse.mp hch)
    refine decide_eq_true ?_
    rintro rfl
    exact absurd hd (by decide)
  unfold tagParts
  dsimp only
  rw [hchars, List.dropWhile_append_of_pos hdigit, List.takeWhile_append_of_pos hdigit]
  simp [parseDigits_toDigits]

theorem adjustTag_none {tag : String} (h : tagParts tag = none) (d : Nat) :
    Session.adjustTag tag d = tag := by
  unfold tagParts at h
  unfold Session.adjustTag
  dsimp only at h ⊢
  cases hd : tag.toList.reverse.dropWhile (fun ch => ch ≠ ' ') with
  | nil => rfl
  | cons blank head =>
      rw [hd] at h
      dsimp only at h ⊢
      rw [Option.map_eq_none_iff.mp h]

theorem adjustTag_some {tag words : String} {n : Nat} (h : tagParts tag = some (words, n))
    (hn : n < 2 ^ 64) (d : Nat) :
    Session.adjustTag tag d = words ++ " " ++ toString (n - d) := by
  unfold tagParts at h
  unfold Session.adjustTag
  dsimp only at h ⊢
  cases hd : tag.toList.reverse.dropWhile (fun ch => ch ≠ ' ') with
  | nil =>
      rw [hd] at h
      cases h
  | cons blank head =>
      rw [hd] at h
      obtain ⟨n', hn', heq⟩ := Option.map_eq_some_iff.mp h
      obtain ⟨rfl, rfl⟩ := Prod.mk.inj heq
      dsimp only
      rw [hn']
      dsimp only
      rw [if_pos hn]

/-! ## The rows of a statement -/

/-- What bears on the rows of the current statement: one is read, and forwarded or not; the
    statement is completed or ends in another way; a cycle starts. -/
inductive RowEvent where
  | row (forwarded : Bool)
  | completed
  | abandoned
  | restarted
  deriving DecidableEq

structure RowTally where
  /-- The rows of the current statement, and those of them that were forwarded. -/
  rows : Nat := 0
  kept : Nat := 0
  /-- The rows of the current statement that were dropped before a cycle started. -/
  forgotten : Nat := 0
  /-- The rows dropped of statements that were not completed, since the last tag or start of a
      cycle. -/
  stale : Nat := 0

namespace RowTally

def note (t : RowTally) : RowEvent → RowTally
  | .row forwarded => { t with rows := t.rows + 1, kept := t.kept + forwarded.toNat }
  | .completed => {}
  | .abandoned => { stale := t.stale + (t.rows - t.kept - t.forgotten) }
  | .restarted => { t with forgotten := t.rows - t.kept, stale := 0 }

/-- The dropped rows that the session knows of. -/
def pending (t : RowTally) : Nat := t.stale + (t.rows - t.kept - t.forgotten)

/-- No row is counted twice. -/
def Sound (t : RowTally) : Prop := t.kept + t.forgotten ≤ t.rows

/-- As many rows of other statements are left over as rows of this one were forgotten; or more, if
    none of this one was forwarded. -/
def Settled (t : RowTally) : Prop :=
  t.stale = t.forgotten ∨ t.kept = 0 ∧ t.forgotten ≤ t.stale

instance (t : RowTally) : Decidable t.Settled := inferInstanceAs (Decidable (_ ∨ _))

theorem Sound.note {t : RowTally} (h : t.Sound) (e : RowEvent) : (t.note e).Sound := by
  unfold Sound at *
  cases e with
  | row forwarded =>
      have hle := Bool.toNat_le forwarded
      simp only [RowTally.note]
      omega
  | completed | abandoned => exact Nat.le_refl 0
  | restarted => simp only [RowTally.note]; omega

theorem Sound.foldl (es : List RowEvent) {t : RowTally} (h : t.Sound) :
    (es.foldl RowTally.note t).Sound := by
  induction es generalizing t with
  | nil => exact h
  | cons e es ih => exact ih (h.note e)

theorem settled_iff {t : RowTally} (h : t.Sound) : t.rows - t.pending = t.kept ↔ t.Settled := by
  unfold Sound at h
  unfold pending Settled
  omega

end RowTally

def rowTally (events : List RowEvent) : RowTally := events.foldl RowTally.note {}

/-- What the message, read from the upstream, means for the rows. -/
def BackendMessage.rowEvents (forwarded : Bool) : BackendMessage → List RowEvent
  | .dataRow _ => [.row forwarded]
  | .commandComplete _ => [.completed]
  | .errorResponse _ => [.abandoned]
  | .portalSuspended => [.abandoned]
  | .emptyQueryResponse => [.abandoned]
  | _ => []

def BackendMessage.tag? : BackendMessage → Option String
  | .commandComplete tag => some tag
  | _ => none

/-- The message that was passed on to the client. -/
def Entry.passed? : Entry → Option BackendMessage
  | .sent false _ m => some m
  | _ => none

def BackendMessage.isRow : BackendMessage → Bool
  | .dataRow _ => true
  | _ => false

/-- The tag that the row phase makes of `tag`. -/
def SessionHooks.tagFor (k : SessionHooks κ) (tag : String) : String :=
  if k.interceptor.adjustCommandCounts && decide (0 < k.cycle.droppedPending) then
    Session.adjustTag tag k.cycle.droppedPending else tag

theorem SessionHooks.tagFor_none {k : SessionHooks κ} {tag : String} (h : tagParts tag = none) :
    k.tagFor tag = tag := by
  unfold tagFor
  split
  · exact adjustTag_none h _
  · rfl

theorem SessionHooks.tagFor_some {k : SessionHooks κ} {tag words : String} {n : Nat}
    (ha : k.interceptor.adjustCommandCounts = true) (h : tagParts tag = some (words, n))
    (hn : n < 2 ^ 64) :
    tagParts (k.tagFor tag) = some (words, n - k.cycle.droppedPending) := by
  unfold tagFor
  rw [ha, Bool.true_and]
  split
  case isTrue => rw [adjustTag_some h hn, tagParts_count]
  case isFalse hzero =>
    have : k.cycle.droppedPending = 0 := by simpa using hzero
    rw [this, Nat.sub_zero, h]

namespace Session

/-- What an iteration passes on to the client. -/
def passes (env : Env σ) (s : Session σ κ) (e : Event) : List BackendMessage :=
  ((s.step env e).log.drop s.log.length).filterMap Entry.passed?

/-- What an iteration means for the rows, but for the loss of the connection. -/
def eventRows (env : Env σ) (s : Session σ κ) : Event → List RowEvent
  | .upstream =>
      match s.toCore.nextRead with
      | some x => x.2.rowEvents ((s.passes env .upstream).any BackendMessage.isRow)
      | none => []
  | .client m _ => if s.asksQuery m then [.restarted] else []
  | _ => []

/-- What a move means for the rows. Without a connection there is no statement. -/
def rowEvents (env : Env σ) (s : Session σ κ) : Move σ → List RowEvent
  | .own e =>
      if s.ended.isSome then []
      else s.eventRows env e ++ if (s.step env e).lease.isNone then [.abandoned] else []
  | .others _ => []

/-- What `P` says of each tag that the move reads. -/
def OnTag (P : Session σ κ → RowTally → String → Prop) (p : Session σ κ × List RowEvent) :
    Move σ → Prop
  | .own .upstream => p.1.ended = none → ∀ x ∈ p.1.toCore.nextRead, ∀ tag ∈ x.2.tag?,
      P p.1 (rowTally p.2) tag
  | _ => True

instance (P : Session σ κ → RowTally → String → Prop) [∀ s t tag, Decidable (P s t tag)]
    (p : Session σ κ × List RowEvent) : ∀ m, Decidable (OnTag P p m)
  | .own .upstream => inferInstanceAs (Decidable (_ → ∀ x ∈ p.1.toCore.nextRead, _))
  | .own (.client _ _) | .own .clientGone | .own .upstreamClosed | .own (.upstreamError _)
  | .own .cancel | .own .shutdown | .others _ => isTrue trivial

/-- The upstream counts the rows of the statement, in 64 bits. -/
def CountedRight (_ : Session σ κ) (t : RowTally) (tag : String) : Prop :=
  ∀ parts ∈ tagParts tag, parts.2 = t.rows ∧ parts.2 < 2 ^ 64

/-- The tag is delivered with the number of rows that were forwarded, and without a count as
    it is. -/
def DeliveredRight (env : Env σ) (s : Session σ κ) (t : RowTally) (tag : String) : Prop :=
  ∀ m ∈ s.passes env .upstream, ∀ tag' ∈ m.tag?,
    match tagParts tag with
    | some (words, _) => tagParts tag' = some (words, t.kept)
    | none => tag' = tag

/-- If the client is there and the tag has a count, the tally is settled. -/
def SettledAt (s : Session σ κ) (t : RowTally) (tag : String) : Prop :=
  0 < s.sendsLeft → (tagParts tag).isSome = true → t.Settled

instance (s : Session σ κ) (t : RowTally) (tag : String) : Decidable (CountedRight s t tag) :=
  inferInstanceAs (Decidable (∀ parts ∈ tagParts tag, _))

instance (env : Env σ) (s : Session σ κ) (t : RowTally) (tag : String) :
    Decidable (DeliveredRight env s t tag) := by
  unfold DeliveredRight
  cases tagParts tag <;> infer_instance

instance (s : Session σ κ) (t : RowTally) (tag : String) : Decidable (SettledAt s t tag) :=
  inferInstanceAs (Decidable (_ → _ → _))

variable {env : Env σ} {s : Session σ κ} {k : SessionHooks κ} {o : Origin}

/-! ## Reading a row or a tag -/

/-- A message that `on_backend` passes on is written, if the client is there. -/
theorem deliver_passed {m : BackendMessage} (hk : s.hooks = some k)
    (hback : ∀ ctx m, (k.interceptor.onBackend ctx m).2 = (m, .forward)) (hm : m.ready = 0)
    (status : TransactionStatus) :
    ((s.backendPhase m).andThen fun s forwarded =>
      match forwarded with
      | some m => s.deliverBackend env o status m
      | none => .next { s with backend := s.backend + 1 } ()).Post
    (fun s' _ => 0 < s.sendsLeft ∧ s'.log = s.log ++ [.sent false o m] ∧ s'.books = s.books)
    fun s' e => s.sendsLeft = 0 ∧ s'.log = s.log ∧ e.isSome = true := by
  have hb := hback k.ctx m
  have hbooks : s.books = some k.books := by rw [Session.books, hk]; rfl
  have hready : ¬ m.ready = 1 := by omega
  simp only [backendPhase, hk, hb, andThen_next, deliverBackend, write]
  cases s.sendsLeft with
  | zero => exact ⟨rfl, rfl, rfl⟩
  | succ n =>
      dsimp only
      rw [if_neg hready, hbooks]
      exact ⟨Nat.succ_pos n, rfl, rfl⟩

/-- The hooks behind the books. -/
theorem hooks_of_books {b : RowBooks κ} (h : s.books = some b) :
    ∃ k, s.hooks = some k ∧ k.interceptor = b.interceptor := by
  obtain ⟨k, hk, rfl⟩ := Option.map_eq_some_iff.mp h
  exact ⟨k, hk, rfl⟩

/-- A row is passed on, or dropped and noted. -/
theorem onUpstream_row (env : Env σ) {row : DataRow}
    (hr : s.toCore.nextRead = some (o, .dataRow row))
    (hk : s.hooks = some k) (hw : k.interceptor.wantsRows = true)
    (hback : ∀ ctx m, (k.interceptor.onBackend ctx m).2 = (m, .forward)) :
    (s.onUpstream env).Post
      (fun s' _ => s'.books = s.books ∧ ∃ row', s'.log = s.log ++ [.sent false o (.dataRow row')])
      fun s' e => e = none → s'.books = some k.books.drop ∧ s'.log = s.log := by
  obtain ⟨lease, hl, hin⟩ := Option.bind_eq_some_iff.mp hr
  obtain ⟨rest, hx⟩ := List.head?_eq_some_iff.mp hin
  unfold onUpstream
  simp only [hl, Conn.next, hx]
  generalize hs₁ : { s with lease := _ }.trackBackend env (.dataRow row) = s₁
  have hlog : s₁.log = s.log := by rw [← hs₁]; rfl
  have hbooks : s₁.books = s.books := by rw [← hs₁]; rfl
  have hk₁ : s₁.hooks = some k := by rw [← hs₁]; exact hk
  have hrow : (s₁.rowPhase (.dataRow row)).Post
      (fun s' m' => s'.books = s.books ∧ s'.log = s.log ∧ ∃ row', m' = .dataRow row')
      fun s' e => e = none → s'.books = some k.books.drop ∧ s'.log = s.log := by
    have hctx := fun ctx => (withCtx_ledger hk₁ ctx).books.trans hbooks
    simp only [rowPhase, hk₁, hw, if_true, editRow]
    split
    · intro h
      cases h
    · exact ⟨(trackCycle_books _ fun _ => by rfl).trans hbooks, hlog, _, rfl⟩
    · split
      · exact ⟨(trackCycle_books _ fun _ => by rfl).trans (hctx _), hlog, _, rfl⟩
      · exact fun _ => ⟨rfl, hlog⟩
  refine andThen_post hrow fun s₂ m' h₂ => ?_
  obtain ⟨hb₂, hlog₂, row', rfl⟩ := h₂
  have hbk : s₂.books = some k.books := by rw [hb₂, Session.books, hk]; rfl
  obtain ⟨k₂, hk₂, hi⟩ := hooks_of_books hbk
  have hback₂ : ∀ ctx m, (k₂.interceptor.onBackend ctx m).2 = (m, .forward) := by
    rw [hi]
    exact hback
  refine Post.mono (deliver_passed hk₂ hback₂ rfl _) (fun s' _ h => ?_) fun s' e h he => ?_
  · exact ⟨h.2.2.trans hb₂, row', by rw [h.2.1, hlog₂]⟩
  · rw [he] at h
    cases h.2.2

/-- A tag is passed on with its count lowered. -/
theorem onUpstream_tag {tag : String} (hr : s.toCore.nextRead = some (o, .commandComplete tag))
    (hk : s.hooks = some k)
    (hback : ∀ ctx m, (k.interceptor.onBackend ctx m).2 = (m, .forward)) :
    (s.onUpstream env).close.1.log = s.log ++
      if 0 < s.sendsLeft then [.sent false o (.commandComplete (k.tagFor tag))] else [] := by
  obtain ⟨lease, hl, hin⟩ := Option.bind_eq_some_iff.mp hr
  obtain ⟨rest, hx⟩ := List.head?_eq_some_iff.mp hin
  unfold onUpstream
  simp only [hl, Conn.next, hx]
  generalize hs₁ : { s with lease := _ }.trackBackend env (.commandComplete tag) = s₁
  have hlog : s₁.log = s.log := by rw [← hs₁]; rfl
  have hsends : s₁.sendsLeft = s.sendsLeft := by rw [← hs₁]; rfl
  have hk₁ : s₁.hooks = some k := by rw [← hs₁]; exact hk
  have hrow : s₁.rowPhase (.commandComplete tag) =
      .next (s₁.trackCycle fun t => { t with tag := some tag, droppedPending := 0 })
        (.commandComplete (k.tagFor tag)) := by
    simp only [rowPhase, hk₁]
    rfl
  rw [hrow, andThen_next, ← hlog, ← hsends]
  generalize hs₂ : s₁.trackCycle _ = s₂
  obtain ⟨k₂, hk₂, hi⟩ : ∃ k₂, s₂.hooks = some k₂ ∧ k₂.interceptor = k.interceptor := by
    rw [← hs₂, trackCycle, hk₁]
    exact ⟨_, rfl, rfl⟩
  have hback₂ : ∀ ctx m, (k₂.interceptor.onBackend ctx m).2 = (m, .forward) := by
    rw [hi]
    exact hback
  have hlog₂ : s₂.log = s₁.log := by rw [← hs₂]; rfl
  have hsends₂ : s₂.sendsLeft = s₁.sendsLeft := by rw [← hs₂]; rfl
  refine close_post (Q := fun (s' : Session σ κ) _ => s'.log = s₁.log ++
    if 0 < s₁.sendsLeft then [.sent false o (.commandComplete (k.tagFor tag))] else []) ?_
  refine Post.mono (deliver_passed hk₂ hback₂ rfl _) (fun s' _ h => ?_) fun s' e h => ?_
  · rw [h.2.1, hlog₂, if_pos (hsends₂ ▸ h.1)]
  · rw [h.2.1, hlog₂, if_neg (by omega), List.append_nil]

theorem step_upstream (env : Env σ) (hs : s.ended = none) :
    (s.step env .upstream).log = (s.onUpstream env).close.1.log ∧
      (s.step env .upstream).books = (s.onUpstream env).close.1.books ∧
        (s.step env .upstream).ended = (s.onUpstream env).close.2 := by
  have hstep : s.step env .upstream =
      { (s.onUpstream env).close.1 with ended := (s.onUpstream env).close.2 } := by
    unfold step
    rw [hs, if_neg (by decide)]
    rfl
  rw [hstep]
  exact ⟨rfl, rfl, rfl⟩

theorem passes_eq {e : Event} {es : List Entry} (h : (s.step env e).log = s.log ++ es) :
    s.passes env e = es.filterMap Entry.passed? := by
  rw [passes, h, List.drop_left]

/-! ## The tally of a run -/

/-- The session knows of the dropped rows that the tally has pending. -/
def Tallied (i : Interceptor κ) (s : Session σ κ) (t : RowTally) : Prop :=
  s.ended = none → t.Sound ∧ ∃ b, s.books = some b ∧ b.interceptor = i ∧ b.pending = t.pending

variable {i : Interceptor κ} {t : RowTally}

/-- A statement that is abandoned leaves its dropped rows behind. -/
theorem Tallied.abandon (h : Tallied i s t) : Tallied i s (t.note .abandoned) := by
  intro hs
  obtain ⟨hsound, b, hb, hi, hp⟩ := h hs
  exact ⟨hsound.note .abandoned, b, hb, hi, hp⟩

/-- A message that is not a row changes the books as it changes the tally. -/
theorem after_pending {b : RowBooks κ} (h : b.pending = t.pending) {m : BackendMessage}
    (hm : m.isRow = false) (f : Bool) :
    (b.after m).pending = ((m.rowEvents f).foldl RowTally.note t).pending := by
  cases m with
  | dataRow row => cases hm
  | rowDescription fields =>
      unfold RowBooks.after
      dsimp only
      split <;> exact h
  | _ => first
    | exact h
    | rfl

/-- Everything else the upstream sends is noted by its kind. -/
theorem Tallied.readOther (h : Tallied i s t) (hs : s.ended = none) {m : BackendMessage}
    (hr : s.toCore.nextRead = some (o, m)) (hm : m.isRow = false) (f : Bool) :
    Tallied i (s.step env .upstream) ((m.rowEvents f).foldl RowTally.note t) := by
  obtain ⟨hsound, b, hb, hi, hp⟩ := h hs
  obtain ⟨k, hk, rfl⟩ := Option.map_eq_some_iff.mp hb
  have hafter : (s.onUpstream env).close.1.books = some (k.books.after m) := by
    refine close_post (Q := fun (s' : Session σ κ) _ => s'.books = some (k.books.after m)) ?_
    refine Post.mono (onUpstream_books hk hr) (fun _ _ h' => h') ?_
    rintro s' e (h' | ⟨-, -, row, rfl⟩)
    · exact h'
    · cases hm
  intro _
  refine ⟨hsound.foldl _, k.books.after m, ?_, (RowBooks.after_interceptor _ _).trans hi,
    after_pending hp hm f⟩
  rw [(step_upstream env hs).2.1, hafter]

/-- A row that does not end the session is passed on, or it is dropped and pending. -/
theorem Tallied.readRow (h : Tallied i s t) (hs : s.ended = none) (hw : i.wantsRows = true)
    (hback : ∀ ctx m, (i.onBackend ctx m).2 = (m, .forward)) {row : DataRow}
    (hr : s.toCore.nextRead = some (o, .dataRow row)) :
    Tallied i (s.step env .upstream)
      (t.note (.row ((s.passes env .upstream).any BackendMessage.isRow))) := by
  obtain ⟨hsound, b, hb, hi, hp⟩ := h hs
  obtain ⟨k, hk, rfl⟩ := Option.map_eq_some_iff.mp hb
  obtain ⟨hlog, hbooks, hended⟩ := step_upstream env hs
  have hkw : k.interceptor.wantsRows = true := (congrArg Interceptor.wantsRows hi).trans hw
  have hkb : ∀ ctx m, (k.interceptor.onBackend ctx m).2 = (m, .forward) := by
    rw [show k.interceptor = i from hi]
    exact hback
  have hpost := onUpstream_row env hr hk hkw hkb
  intro hnone
  rw [hended] at hnone
  rw [hbooks]
  refine ⟨hsound.note _, ?_⟩
  unfold RowTally.Sound at hsound
  unfold RowTally.pending at hp
  cases hf : s.onUpstream env with
  | next s' _ =>
      rw [hf] at hpost hlog
      obtain ⟨hb', row', hlog'⟩ := hpost
      rw [passes_eq (hlog.trans hlog')]
      refine ⟨k.books, hb'.trans hb, hi, hp.trans ?_⟩
      show _ = t.stale + (t.rows + 1 - (t.kept + 1) - t.forgotten)
      omega
  | halt s' e =>
      rw [hf] at hpost hlog hnone
      obtain ⟨hb', hlog'⟩ := hpost hnone
      have hnil : (s.step env .upstream).log = s.log ++ [] :=
        (hlog.trans hlog').trans (List.append_nil _).symm
      rw [passes_eq hnil]
      refine ⟨k.books.drop, hb', hi, ?_⟩
      show k.books.pending + 1 = t.stale + (t.rows + 1 - (t.kept + 0) - t.forgotten)
      omega

theorem Tallied.step (h : Tallied i s t) (hs : s.ended = none) (hw : i.wantsRows = true)
    (hback : ∀ ctx m, (i.onBackend ctx m).2 = (m, .forward)) (e : Event) :
    Tallied i (s.step env e) ((s.eventRows env e).foldl RowTally.note t) := by
  by_cases he : e = .upstream
  · subst he
    unfold eventRows
    cases hr : s.toCore.nextRead with
    | none =>
        intro _
        obtain ⟨-, hbooks, -⟩ := step_upstream env hs
        rw [hbooks, onUpstream_idle hr]
        exact h hs
    | some x =>
        obtain ⟨o, m⟩ := x
        cases hm : m.isRow with
        | false => exact h.readOther hs hr hm _
        | true =>
            cases m with
            | dataRow row => exact h.readRow hs hw hback hr
            | _ => cases hm
  · intro hnone
    obtain ⟨hsound, b, hb, hi, hp⟩ := h hs
    have hbooks : (s.step env e).books = s.booksOn e := by
      rcases step_books env hs he with h' | ⟨h', -⟩
      · exact h'
      · rw [hnone] at h'
        cases h'
    rw [hbooks]
    cases e with
    | upstream => exact absurd rfl he
    | client m timing =>
        unfold booksOn booksFor eventRows
        dsimp only
        split
        · rw [hb]
          refine ⟨hsound.note .restarted, b.clear, rfl, hi, ?_⟩
          show 0 = 0 + (t.rows - t.kept - (t.rows - t.kept))
          omega
        · exact ⟨hsound, b, hb, hi, hp⟩
    | _ => exact ⟨hsound, b, hb, hi, hp⟩

theorem rowTally_append (xs ys : List RowEvent) :
    rowTally (xs ++ ys) = ys.foldl RowTally.note (rowTally xs) := by
  rw [rowTally, rowTally, List.foldl_append]

theorem tallied_move (hw : i.wantsRows = true)
    (hback : ∀ ctx m, (i.onBackend ctx m).2 = (m, .forward)) (p : Session σ κ × List RowEvent)
    (m : Move σ) (h : Tallied i p.1 (rowTally p.2)) :
    Tallied i (observe (Session.move env) (Session.rowEvents env) p m).1
      (rowTally (observe (Session.move env) (Session.rowEvents env) p m).2) := by
  obtain ⟨s, events⟩ := p
  show Tallied i (s.move env m) (rowTally (events ++ s.rowEvents env m))
  rw [rowTally_append]
  cases m with
  | others world => exact h
  | own e =>
      cases hs : s.ended with
      | some r =>
          intro hnone
          rw [Session.move, step_ended (by rw [hs]; exact Option.some_ne_none r), hs] at hnone
          cases hnone
      | none =>
          have hstep : Tallied i (s.step env e) _ := h.step hs hw hback e
          simp only [Session.rowEvents, hs, Option.isSome_none, Bool.false_eq_true, if_false,
            List.foldl_append]
          split
          · exact hstep.abandon
          · exact hstep

/-- What one side condition on tags makes of another. -/
theorem onTag_iff {P Q R : Session σ κ → RowTally → String → Prop} {p : Session σ κ × List RowEvent}
    {m : Move σ} (hR : OnTag R p m) (h : p.1.ended = none → ∀ o tag,
      p.1.toCore.nextRead = some (o, .commandComplete tag) → R p.1 (rowTally p.2) tag →
        (P p.1 (rowTally p.2) tag ↔ Q p.1 (rowTally p.2) tag)) : OnTag P p m ↔ OnTag Q p m := by
  cases m with
  | others world => exact Iff.rfl
  | own e =>
      cases e with
      | upstream =>
          refine forall_congr' fun hs => forall_congr' fun x => forall_congr' fun hx =>
            forall_congr' fun tag => forall_congr' fun htag => ?_
          refine h hs x.1 tag ?_ (hR hs x hx tag htag)
          obtain ⟨o, m⟩ := x
          cases m with
          | commandComplete tag' =>
              cases htag
              exact hx
          | _ => cases htag
      | _ => exact Iff.rfl

/-- A tag is delivered right exactly when the tally is settled. -/
theorem delivered_right_iff (hs : s.ended = none) (h : Tallied i s t)
    (ha : i.adjustCommandCounts = true)
    (hback : ∀ ctx m, (i.onBackend ctx m).2 = (m, .forward)) {tag : String}
    (hr : s.toCore.nextRead = some (o, .commandComplete tag)) (hc : CountedRight s t tag) :
    DeliveredRight env s t tag ↔ SettledAt s t tag := by
  obtain ⟨hsound, b, hb, hi, hp⟩ := h hs
  obtain ⟨k, hk, rfl⟩ := Option.map_eq_some_iff.mp hb
  have hkb : ∀ ctx m, (k.interceptor.onBackend ctx m).2 = (m, .forward) := by
    rw [show k.interceptor = i from hi]
    exact hback
  have hka : k.interceptor.adjustCommandCounts = true :=
    (congrArg Interceptor.adjustCommandCounts hi).trans ha
  have hpend : k.cycle.droppedPending = t.pending := hp
  have hpasses := passes_eq ((step_upstream env hs).1.trans (onUpstream_tag hr hk hkb))
  unfold DeliveredRight SettledAt
  rw [hpasses]
  by_cases hsend : 0 < s.sendsLeft
  · have hone : ∀ P : String → Prop,
        (∀ m ∈ [.sent false o (.commandComplete (k.tagFor tag))].filterMap Entry.passed?,
          ∀ tag' ∈ m.tag?, P tag') ↔ P (k.tagFor tag) := by
      intro P
      simp [Entry.passed?, BackendMessage.tag?]
    rw [if_pos hsend, hone]
    cases hparts : tagParts tag with
    | none =>
        refine ⟨fun _ _ hsome => (nomatch hsome), fun _ => ?_⟩
        exact SessionHooks.tagFor_none hparts
    | some parts =>
        obtain ⟨words, n⟩ := parts
        obtain ⟨hrows, hn⟩ := hc (words, n) hparts
        have hcount := SessionHooks.tagFor_some hka hparts hn
        dsimp only at hrows ⊢
        rw [hcount, hpend, hrows, ← RowTally.settled_iff hsound]
        simp [hsend]
  · rw [if_neg hsend]
    simp [hsend]

end Session

section Runs

variable (env : Env σ) (l : Launch σ κ) (ms : List (Move σ)) (i : Interceptor κ) (ctx : κ)

/-- Every delivered tag carries the number of rows that the client got of its statement exactly
    when the tally is settled at every tag. -/
theorem counts_right_iff (hl : l.hooks = some (SessionHooks.new i ctx))
    (hw : i.wantsRows = true) (ha : i.adjustCommandCounts = true)
    (hback : ∀ ctx m, (i.onBackend ctx m).2 = (m, .forward))
    (hcounted : Along (observe (Session.move env) (Session.rowEvents env))
      (Session.OnTag Session.CountedRight) (l.new.start env, []) ms) :
    Along (observe (Session.move env) (Session.rowEvents env))
        (Session.OnTag (Session.DeliveredRight env)) (l.new.start env, []) ms ↔
      Along (observe (Session.move env) (Session.rowEvents env))
        (Session.OnTag Session.SettledAt) (l.new.start env, []) ms := by
  have hstart : Session.Tallied i (l.new.start env) (rowTally []) := by
    intro _
    refine ⟨Nat.le_refl 0, (SessionHooks.new i ctx).books, ?_, rfl, rfl⟩
    refine (Session.start_ledger env l.new).books.trans ?_
    show l.hooks.map _ = _
    rw [hl]
    rfl
  have hiff : ∀ (p : Session σ κ × List RowEvent) (m : Move σ),
      Session.Tallied i p.1 (rowTally p.2) → Session.OnTag Session.CountedRight p m →
        (Session.OnTag (Session.DeliveredRight env) p m ↔ Session.OnTag Session.SettledAt p m) :=
    fun p m hp hc => Session.onTag_iff hc fun hs o tag hr hcr =>
      Session.delivered_right_iff hs hp ha hback hr hcr
  refine ⟨fun h => ?_, fun h => ?_⟩
  · refine (hcounted.and h).of_inv
      (fun p m hp hm => ⟨?_, Session.tallied_move hw hback p m hp⟩) _ _ hstart
    exact (hiff p m hp hm.1).mp hm.2
  · refine (hcounted.and h).of_inv
      (fun p m hp hm => ⟨?_, Session.tallied_move hw hback p m hp⟩) _ _ hstart
    exact (hiff p m hp hm.1).mpr hm.2

end Runs

/-! ## A portal that is suspended -/

namespace Sample

/-- A server whose portal has three rows, of which the first `Execute` gets two. A `Query` has
    two rows. -/
def pagedServer : Upstream Bool where
  respond paged m :=
    match m with
    | .parse _ _ _ => (paged, [.parseComplete])
    | .bind _ _ => (false, [.bindComplete])
    | .execute _ =>
        if paged then (paged, [.dataRow row, .commandComplete "SELECT 1"])
        else (true, [.dataRow row, .dataRow row, .portalSuspended])
    | .query _ => (paged, [.dataRow row, .dataRow row, .commandComplete "SELECT 2",
        .readyForQuery .idle])
    | .sync => (paged, [.readyForQuery .idle])
    | _ => (paged, [])
  interrupt paged := (paged, [])
  owed _ := 0
  copying _ := false

def pagedEnv : Env Bool where
  upstream := pagedServer
  route := { name := "main", endpoints := [{ id := "a", upstream := "host-a:5432" }] }
  poolConfig := { mode := .session }

/-- An interceptor that drops the first row and has the counts adjusted. -/
def skipping : Interceptor Nat :=
  { Interceptor.noop Nat with
    wantsRows := true
    adjustCommandCounts := true
    onRow := fun seen _ _ => (seen + 1, [], if seen = 0 then .drop else .keep) }

def pagedLaunch : Launch Bool Nat where
  id := 0
  sends := 100
  world := { pools := fun _ => Pool.new { mode := .session }, now := 0, dials := 0,
             supply := fun _ _ => .ok (false, ∅) }
  params := { user := "u", database := none }
  startup := ∅
  hooks := some (SessionHooks.new skipping 0)

/-- The client fetches a portal in two parts. -/
def paging : List (Move Bool) :=
  ([client (.parse none "Q" []), client (.bind none none), client (.execute none),
    client (.execute none), client .sync] ++ reads 7).map .own

/-- The client sends a simple query. -/
def whole : List (Move Bool) := ([client (.query "Q")] ++ reads 4).map .own

end Sample

open Sample

/-- One of two rows is dropped, and the tag says 1. -/
theorem counts_right_whole :
    Along (observe (Session.move pagedEnv) (Session.rowEvents pagedEnv))
        (Session.OnTag (Session.DeliveredRight pagedEnv))
        (pagedLaunch.new.start pagedEnv, []) whole ∧
      .sent false (.client 0 1) (.commandComplete "SELECT 1") ∈
        (pagedLaunch.after pagedEnv whole).log :=
  ⟨(counts_right_iff pagedEnv pagedLaunch whole skipping 0 rfl rfl rfl
    (fun _ _ => rfl) (by decide)).mpr (by decide), by decide⟩

/-- The row dropped of the first part is taken off the count of the second, which says 0 although
    its one row was forwarded. -/
theorem counts_wrong_suspended :
    Along (observe (Session.move pagedEnv) (Session.rowEvents pagedEnv))
        (Session.OnTag Session.CountedRight)
        (pagedLaunch.new.start pagedEnv, []) paging ∧
      ¬ Along (observe (Session.move pagedEnv) (Session.rowEvents pagedEnv))
        (Session.OnTag (Session.DeliveredRight pagedEnv))
        (pagedLaunch.new.start pagedEnv, []) paging ∧
      .sent false (.client 0 4) (.commandComplete "SELECT 0") ∈
        (pagedLaunch.after pagedEnv paging).log := by
  decide

end Pgferry
