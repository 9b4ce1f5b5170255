/-
  Every step of the pump is one of `Steps`.

  Each phase has one postcondition lemma: what holds when it falls through, and which of the
  outcomes it is when it leaves the iteration. `onClient_refines` and `onUpstream_refines` chain
  them with `Flow.andThen_post`; `step_refines` is the result for all events.
-/
import Pgferry.Session.Specs

namespace Pgferry

open Loop Loop.Flow

variable {σ κ : Type}

@[simp] theorem Core.emit_emit (c : Core σ) (es fs : List Entry) :
    (c.emit es).emit fs = c.emit (es ++ fs) := by simp [Core.emit]

theorem Core.answers_append (c : Core σ) (ms ns : List BackendMessage) :
    c.answers (ms ++ ns) = c.answers ms ++ c.answers ns := List.map_append

@[simp] theorem Core.note_answers (c : Core σ) (m : FrontendMessage) (ms : List BackendMessage) :
    (c.note m).answers ms = c.answers ms := by
  unfold Core.note; split <;> rfl

@[simp] theorem Core.note_leaseStatus (c : Core σ) (m : FrontendMessage) :
    (c.note m).leaseStatus = c.leaseStatus := by
  unfold Core.note; split <;> rfl

@[simp] theorem Core.note_ended (c : Core σ) (m : FrontendMessage) :
    (c.note m).ended = c.ended := by
  unfold Core.note; split <;> rfl

namespace Session

/-- The iteration ends in `s'` for the reason `e`, with an outcome in `R`. -/
structure Out (Φ : PoolKey → Conn σ → Prop) (s : Session σ κ) (R : Core σ → Prop)
    (s' : Session σ κ) (e : Option End) : Prop where
  outcome : R { s'.toCore with ended := e }
  kept : s.Kept Φ s'

variable {env : Env σ} {Φ : PoolKey → Conn σ → Prop} {s₀ s : Session σ κ} {R : Core σ → Prop}

/-- The client went away after `pre`. -/
theorem out_cut {es pre : List Entry} {f : Core σ → Core σ} {c : Core σ} {s' : Session σ κ}
    (hk : s₀.Kept Φ s) (hpre : pre <+: es) (hb : s.Beside (c.emit pre) s')
    (hR : ∀ d, Said c es f d → R d) : Out Φ s₀ R s' (some .clientGone) := by
  refine ⟨hR _ ?_, hk.trans (hb.kept hk.tidy)⟩
  rw [hb.core]
  exact .cut pre c.currentEndpoint c.attached hpre

/-- Everything was said, and `s'` is what follows. -/
theorem out_done {es : List Entry} {f : Core σ → Core σ} {c : Core σ} {s' : Session σ κ}
    {e : Option End} (hk : s₀.Kept Φ s) (hb : s.Beside (f (c.emit es)) s')
    (he : (f (c.emit es)).ended = e) (hR : ∀ d, Said c es f d → R d) : Out Φ s₀ R s' e := by
  refine ⟨hR _ ?_, hk.trans (hb.kept hk.tidy)⟩
  rw [hb.core, ← he]
  exact .done

/-- A write that ends the iteration. -/
theorem sendAll_halt {α : Type} {P : Session σ κ → α → Prop} {ms : List BackendMessage}
    {f : Core σ → Core σ} {g : Session σ κ → Session σ κ} (hk : s₀.Kept Φ s)
    (hg : ∀ s' : Session σ κ, s'.Beside (f s'.toCore) (g s'))
    (he : (f (s.toCore.emit (s.toCore.answers ms))).ended = none)
    (hR : ∀ d, Said s.toCore (s.toCore.answers ms) f d → R d) :
    ((s.sendAll ms).andThen fun s' _ => (.halt (g s') none : Flow _ _ α)).Post P
      (Out Φ s₀ R) := by
  refine andThen_post (P := fun s' _ =>
    s.Beside (s.toCore.emit (s.toCore.answers ms)) s') (sendAll_post (fun s' h => h) ?_) ?_
  · exact fun s' pre hpre hb => out_cut hk hpre hb hR
  · intro s' _ hb
    have hb' := hb.trans (hg s')
    rw [hb.core] at hb'
    exact out_done hk hb' he hR

/-- Two writes, one after the other. -/
theorem said_append {c d : Core σ} {es fs : List Entry} {f : Core σ → Core σ}
    (h : Said (c.emit es) fs f d) : Said c (es ++ fs) f d := by
  cases h with
  | done => rw [Core.emit_emit]; exact .done
  | cut pre endpoint attached hpre =>
      rw [Core.emit_emit]
      exact .cut (es ++ pre) endpoint attached ((List.prefix_append_right_inj es).mpr hpre)

theorem sendAll_twice_halt {α : Type} {P : Session σ κ → α → Prop} {ms : List BackendMessage}
    (ns : List BackendMessage)
    {after : Session σ κ → List BackendMessage} {f : Core σ → Core σ}
    {g : Session σ κ → Session σ κ} (hk : s₀.Kept Φ s)
    (hg : ∀ s' : Session σ κ, s'.Beside (f s'.toCore) (g s'))
    (hafter : ∀ s' : Session σ κ, s'.toCore = s.toCore.emit (s.toCore.answers ms) →
      after s' = ns)
    (he : (f (s.toCore.emit (s.toCore.answers (ms ++ ns)))).ended = none)
    (hR : ∀ d, Said s.toCore (s.toCore.answers (ms ++ ns)) f d → R d) :
    ((s.sendAll ms).andThen fun s' _ => (s'.sendAll (after s')).andThen
      fun s' _ => (.halt (g s') none : Flow _ _ α)).Post P (Out Φ s₀ R) := by
  rw [Core.answers_append] at hR he
  refine andThen_post (P := fun s' _ =>
    s.Beside (s.toCore.emit (s.toCore.answers ms)) s') (sendAll_post (fun s' h => h) ?_) ?_
  · exact fun s' pre hpre hb => out_cut hk (hpre.trans (List.prefix_append _ _)) hb hR
  · intro s' _ hb
    have hans : s'.toCore.answers ns = s.toCore.answers ns := by rw [hb.core]; rfl
    rw [hafter s' hb.core]
    refine sendAll_halt (hk.trans (hb.kept hk.tidy)) hg ?_ ?_
    · rw [hans, hb.core, Core.emit_emit]
      exact he
    · rw [hans, hb.core]
      exact fun d h => hR d (said_append h)

/-! ## Local answers -/

theorem swallowPhase_post (env : Env σ) {i : Option (Interceptor κ)} {m : FrontendMessage}
    {t : Timing} (hk : s₀.Kept Φ s) (he : s.ended = none) (hm : m ≠ .terminate) :
    (s.swallowPhase m).Post (fun s' _ => s' = s ∧ s.swallowUntilSync = false)
      (Out Φ s₀ (Answered env i s₀ s.toCore m t)) := by
  unfold swallowPhase
  split
  case isTrue hs =>
    split
    case h_1 =>
      refine sendAll_halt (s := { s with swallowUntilSync := false }) (f := id)
        ⟨hk.params, hk.startup, hk.interceptor, hk.tidy, hk.snaps⟩ endCycle_beside he ?_
      exact fun d h => .resumed d hs rfl h
    case h_2 hne =>
      refine ⟨?_, hk⟩
      rw [← he]
      exact .swallowed hs hne hm
  case isFalse hs =>
    exact ⟨rfl, by simpa using hs⟩

theorem localPhase_post {i : Option (Interceptor κ)} {m : FrontendMessage} {t : Timing}
    (hk : s₀.Kept Φ s) (he : s.ended = none) (hm : m ≠ .terminate)
    (hs : s.swallowUntilSync = false) :
    (s.localPhase env m).Post (fun s' _ => s' = s ∧ s.toCore.Passes env.transactionMode m)
      (Out Φ s₀ (Answered env i s₀ s.toCore m t)) := by
  unfold localPhase
  split
  case isTrue h =>
    simp only [Bool.and_eq_true, Option.isNone_iff_eq_none] at h
    obtain ⟨ht, hl⟩ := h
    split
    case h_1 =>
      exact sendAll_halt (f := id) hk endActiveCycle_beside he
        fun d h => .localSync d hs ht hl rfl h
    case h_2 =>
      refine ⟨?_, hk⟩
      rw [← he]
      exact .localFlush hs ht hl rfl
    case h_3 target name =>
      exact sendAll_halt (f := id) (g := id)
        (s := { s with registry := s.registry.recordClose name })
        ⟨hk.params, hk.startup, hk.interceptor, hk.tidy, hk.snaps⟩ Beside.refl he
        fun d h => .localClose d target name hs ht hl rfl h
    case h_4 h1 h2 h3 =>
      refine ⟨rfl, hm, hs, ?_⟩
      rintro ⟨-, -, h | h | ⟨target, name, h⟩⟩
      · exact h1 h
      · exact h2 h
      · exact h3 _ _ h
  case isFalse h =>
    refine ⟨rfl, hm, hs, ?_⟩
    rintro ⟨ht, hl, -⟩
    exact h (by simp [ht, hl])

/-! ## The query phase -/

section Query

variable {i : Option (Interceptor κ)} {c : Core σ} {m : FrontendMessage} {t : Timing}
  {input : CycleInput} {α : Type} {P : Session σ κ → FrontendMessage → Prop}

theorem startTracked_beside (s : Session σ κ) (sql : Option String) (kind : CycleKind)
    (f : CycleTracking → CycleTracking) :
    s.Beside s.toCore ((s.startCycle sql kind).trackCycle f) :=
  (startCycle_beside s sql kind).trans (trackCycle_beside _ f)

theorem denyQuery_post {info : ErrorInfo} (hk : s₀.Kept Φ s) (hc : s.toCore = c.note m)
    (he : c.ended = none) (hp : c.Passes env.transactionMode m)
    (hin : cycleInputOf m = some input) (ha : Asks i input (.deny info)) :
    (s.denyQuery input info).Post P (Out Φ s₀ (Answered env i s₀ c m t)) := by
  unfold denyQuery
  have hs := startTracked_beside s (some input.sql) input.kind fun t =>
    { t with error := some (CycleError.fromInfo info) }
  generalize (s.startCycle (some input.sql) input.kind).trackCycle _ = s₁ at hs
  have hk₁ := hk.trans (hs.kept hk.tidy)
  have hc₁ : s₁.toCore = c.note m := hs.core.trans hc
  by_cases hext : input.kind.isExtended = true
  · simp only [hext, if_true]
    refine sendAll_halt (f := fun d => { d with swallowUntilSync := true })
      (g := fun s => { s with swallowUntilSync := true }) hk₁
      (fun s' => ⟨rfl, rfl, rfl, rfl, rfl⟩) (by simp [Core.emit, hc₁, he]) ?_
    rw [hc₁, Core.note_answers]
    exact fun d h => .deniedExtended input info d hp hin ha hext h
  · rw [Bool.not_eq_true] at hext
    simp only [hext, Bool.false_eq_true, if_false]
    refine sendAll_twice_halt (f := id) [.readyForQuery c.leaseStatus] hk₁ endCycle_beside
      (fun s' h => ?_) (by simp [Core.emit, hc₁, he]) ?_
    · rw [h, hc₁, show ((c.note m).emit _).leaseStatus = (c.note m).leaseStatus from rfl,
        Core.note_leaseStatus]
    · rw [hc₁, Core.note_answers]
      exact fun d h => .deniedSimple input info d hp hin ha hext h

theorem replyQuery_post {ms : List BackendMessage} (hk : s₀.Kept Φ s) (hc : s.toCore = c.note m)
    (he : c.ended = none) (hp : c.Passes env.transactionMode m)
    (hin : cycleInputOf m = some input) (ha : Asks i input (.reply ms)) :
    (s.replyQuery input ms).Post P (Out Φ s₀ (Answered env i s₀ c m t)) := by
  unfold replyQuery
  have hs := startTracked_beside s (some input.sql) input.kind fun t => ms.foldl trackReply t
  generalize (s.startCycle (some input.sql) input.kind).trackCycle _ = s₁ at hs
  have hk₁ := hk.trans (hs.kept hk.tidy)
  have hc₁ : s₁.toCore = c.note m := hs.core.trans hc
  have hafter : ∀ s' : Session σ κ, s'.toCore = s₁.toCore.emit (s₁.toCore.answers ms) →
      [BackendMessage.readyForQuery s'.leaseStatus] = [.readyForQuery c.leaseStatus] := by
    intro s' h
    rw [h, hc₁, show ((c.note m).emit _).leaseStatus = (c.note m).leaseStatus from rfl,
      Core.note_leaseStatus]
  by_cases hext : input.kind.isExtended = true
  · simp only [hext, if_true]
    refine sendAll_twice_halt (f := fun d => { d with swallowUntilSync := true })
      (g := fun s => { s with swallowUntilSync := true }) _ hk₁
      (fun s' => ⟨rfl, rfl, rfl, rfl, rfl⟩) hafter (by simp [Core.emit, hc₁, he]) ?_
    rw [hc₁, Core.note_answers]
    exact fun d h => .repliedExtended input ms d hp hin ha hext h
  · rw [Bool.not_eq_true] at hext
    simp only [hext, Bool.false_eq_true, if_false]
    refine sendAll_twice_halt (f := id) _ hk₁ endCycle_beside hafter
      (by simp [Core.emit, hc₁, he]) ?_
    rw [hc₁, Core.note_answers]
    exact fun d h => .repliedSimple input ms d hp hin ha hext h

theorem dropLease_kept (hk : s₀.Kept Φ s) : s₀.Kept Φ s.dropLease := by
  refine ⟨hk.params, hk.startup, hk.interceptor, ?_, fun hs => ?_⟩ <;> unfold dropLease <;>
    dsimp only <;> split
  · exact hk.tidy.destroy _
  · exact hk.tidy
  · exact (hk.snaps hs).congr (World.destroy_snapshots _ _)
  · exact hk.snaps hs

/-- The state in which a failed scatter is reported. -/
theorem scatterLost_beside (hk : s₀.Kept Φ s) (failure : ScatterFailure) :
    let s₁ := if failure.sessionLeaseBroken then s.dropLease else s
    let s₂ := { s₁ with currentEndpoint := none, attached := false }
    s₂.toCore = s.toCore.scatterLost failure.sessionLeaseBroken ∧ s₀.Kept Φ s₂ := by
  dsimp only
  unfold Core.scatterLost
  split
  · have := dropLease_kept hk
    exact ⟨rfl, this.params, this.startup, this.interceptor, this.tidy, this.snaps⟩
  · exact ⟨rfl, hk.params, hk.startup, hk.interceptor, hk.tidy, hk.snaps⟩

theorem scatterFailed_post {failure : ScatterFailure} (hk : s₀.Kept Φ s) (he : s.ended = none)
    (hR : ∀ d, Said (s.toCore.scatterLost failure.sessionLeaseBroken)
      (s.toCore.answers [.errorResponse failure.error, .readyForQuery .idle])
      (fun d => { d with downstreamStatus := .idle }) d → R d) :
    (s.scatterFailed failure).Post P (Out Φ s₀ R) := by
  obtain ⟨hc, hk₁⟩ := scatterLost_beside hk failure
  unfold scatterFailed
  have hs := trackCycle_beside
    { (if failure.sessionLeaseBroken then s.dropLease else s) with
      currentEndpoint := none, attached := false }
    fun t => { t with error := some (CycleError.fromInfo failure.error) }
  dsimp only
  generalize Session.trackCycle _ _ = s₁ at hs
  have hc₁ := hs.core.trans hc
  have hans : ∀ ms, s₁.toCore.answers ms = s.toCore.answers ms := by
    intro ms
    rw [hc₁, Core.scatterLost]
    split <;> rfl
  refine sendAll_halt (f := fun d => { d with downstreamStatus := .idle })
    (g := fun s => { s with downstreamStatus := .idle }.endCycle) (hk₁.trans (hs.kept hk₁.tidy))
    (fun s' => (⟨rfl, rfl, rfl, rfl, rfl⟩ : s'.Beside _ { s' with downstreamStatus := .idle }).trans
      (endCycle_beside _)) ?_ ?_
  · rw [hc₁, Core.scatterLost]
    split <;> exact he
  · rw [hans, hc₁]
    exact hR

theorem startCycle_like (h : s₀.Like c s) (sql : Option String) (kind : CycleKind) :
    s₀.Like c (s.startCycle sql kind) := ⟨h.core, h.world, h.params, h.startup, h.sends⟩

theorem scatterRefusal_none {kind : CycleKind} (h : s.scatterRefusal kind = none) :
    kind.isExtended = false ∧ s.downstreamStatus = .idle := by
  unfold scatterRefusal at h
  split at h
  case isTrue => simp at h
  case isFalse hk =>
    split at h
    case isTrue => simp at h
    case isFalse hd =>
      exact ⟨by simpa using hk, by simpa using hd⟩

theorem scattered_frame {u : Upstream σ} {request : ScatterRequest} {c c₁ : Core σ}
    {broken : Bool} (h : Scattered u c request c₁ broken) :
    c₁.ended = c.ended ∧ c₁.downstreamStatus = c.downstreamStatus ∧
      ∀ ms, c₁.answers ms = c.answers ms := by
  cases h <;> exact ⟨rfl, rfl, fun _ => rfl⟩

/-- With no room left in the socket the report of a failure ends the session. -/
theorem scatterFailed_gone {failure : ScatterFailure} (h0 : s.sendsLeft = 0)
    (hb : failure.sessionLeaseBroken = false) (hk : s₀.Kept Φ s)
    (hR : R { s.toCore with
      currentEndpoint := none, attached := false, ended := some .clientGone }) :
    (s.scatterFailed failure).Post P (Out Φ s₀ R) := by
  unfold scatterFailed
  simp only [hb, Bool.false_eq_true, if_false]
  have hs := trackCycle_beside { s with currentEndpoint := none, attached := false }
    fun t => { t with error := some (CycleError.fromInfo failure.error) }
  simp only [sendAll, writeAll, write, trackCycle, h0, andThen_halt, post_halt]
  refine ⟨hR, hk.params, hk.startup, ?_, hk.tidy, hk.snaps⟩
  exact hs.interceptor.trans hk.interceptor

theorem scatterQuery_post {request : ScatterRequest} (hu : ProbeKeeps env.upstream Φ)
    (hl : ∀ sql, LegText i sql → LegKeeps env.upstream Φ s₀.startupParameters sql)
    (hk : s₀.Kept Φ s) (hlike : s₀.Like (c.note m) s)
    (hc : c.downstreamStatus = s₀.downstreamStatus) (he : c.ended = none)
    (hp : c.Passes env.transactionMode m)
    (hin : cycleInputOf m = some input) (ha : Asks i input (.scatter request)) :
    (s.scatterQuery env input request t).Post P (Out Φ s₀ (Answered env i s₀ c m t)) := by
  have hd : s.downstreamStatus = s₀.downstreamStatus := by
    rw [hlike.core, ← hc]
    unfold Core.note
    split <;> rfl
  have href : s.scatterRefusal input.kind = s₀.scatterRefusal input.kind := by
    simp only [scatterRefusal, hd]
  unfold scatterQuery
  rw [href]
  have hs := startCycle_beside s (some input.sql) input.kind
  have hlike₁ := startCycle_like hlike (some input.sql) input.kind
  generalize s.startCycle (some input.sql) input.kind = s₁ at hs hlike₁
  have hk₁ := hk.trans (hs.kept hk.tidy)
  dsimp only
  split
  case h_1 info hinfo =>
    refine scatterFailed_post hk₁ (by rw [hlike₁.core, Core.note_ended]; exact he) ?_
    rw [hlike₁.core, Core.note_answers]
    exact fun d h => .scatterRefused input request info d hp hin ha hinfo h
  case h_2 hnone =>
    obtain ⟨hext, hidle⟩ := scatterRefusal_none hnone
    obtain ⟨hk₂, c₁, broken, hsc, hm⟩ := executeScatter_spec hu s₁ request
      (fun leg hleg => hlike₁.startup ▸ hl _ ⟨input, request, ha, leg, hleg, rfl⟩) hk₁.tidy t
    have hk₃ := hk₁.trans hk₂
    rw [hlike₁.core] at hsc
    obtain ⟨hce, hcd, hca⟩ := scattered_frame hsc
    rw [Core.note_ended, he] at hce
    simp only [Core.note_answers] at hca
    have hcd' : c₁.downstreamStatus = c.downstreamStatus := by
      rw [hcd]
      unfold Core.note
      split <;> rfl
    have hfails : ∀ s₂ failure, s₁.executeScatter env request t = (s₂, .failed failure) →
        ScatterFails env s₀ (c.note m) input.kind request t failure :=
      fun s₂ failure hx => .inr ⟨hnone, s₁, s₂, hlike₁, hx⟩
    cases hx : s₁.executeScatter env request t with
    | mk s₂ r =>
      rw [hx] at hm hk₃
      cases hm with
      | ok rows ms hb hms h =>
          subst hb
          have hs₂ := trackCycle_beside s₂ fun t =>
            { t with rows := rows, tag := some (request.tag ++ " " ++ toString rows) }
          dsimp only
          generalize s₂.trackCycle _ = s₃ at hs₂
          have hc₃ : s₃.toCore = c₁.emit (c₁.answers ms) := hs₂.core.trans h
          have hst : s₃.downstreamStatus = c.downstreamStatus := by rw [hc₃]; exact hcd'
          refine sendAll_halt (f := id) (hk₃.trans (hs₂.kept hk₃.tidy)) endCycle_beside
            (by simp [Core.emit, hc₃, hce]) ?_
          rw [hst, hc₃, show (c₁.emit (c₁.answers ms)).answers = c₁.answers from rfl, hca, hca]
          intro d hd
          have hd' := said_append hd
          rw [← Core.answers_append] at hd'
          exact .scatterOk input request ms c₁ d hp hin ha hext (hc.trans hidle) hsc hms hd'
      | failed failure hb h =>
          refine scatterFailed_post hk₃ (by rw [h]; exact hce) ?_
          rw [h, hca]
          rw [← hb] at hsc
          exact fun d hd => .scatterFailed input request failure c₁ d hp hin ha hext
            (hfails s₂ failure hx) hsc hd
      | gone failure ms pre hb hf hms hpre h h0 =>
          subst hb
          refine scatterFailed_gone h0 hf hk₃ ?_
          rw [h]
          rw [hca] at hpre
          refine .scatterOk input request ms c₁ _ hp hin ha hext (hc.trans hidle) hsc hms ?_
          rw [Core.answers_append]
          exact .cut pre none false (hpre.trans (List.prefix_append _ _))
      | panicked hb h =>
          subst hb
          refine ⟨?_, hk₃⟩
          rw [h]
          exact .scatterPanicked input request c₁ hp hin ha hext hsc

theorem actOnQuery_post {cycle : QueryCycle} {action : Action} (hu : ProbeKeeps env.upstream Φ)
    (hl : ∀ sql, LegText i sql → LegKeeps env.upstream Φ s₀.startupParameters sql)
    (hk : s₀.Kept Φ s)
    (hlike : s₀.Like (c.note m) s) (hc : c.downstreamStatus = s₀.downstreamStatus)
    (he : c.ended = none) (hp : c.Passes env.transactionMode m)
    (hin : cycleInputOf m = some input) (ha : Asks i input action)
    (hrew : action = .forward → s₀.approves m = some (applyRewrite m cycle.takeRewritten)) :
    (s.actOnQuery env t m input cycle action).Post
      (fun s' m' => s'.toCore = c.note m ∧ s₀.Kept Φ s' ∧ Forwards i m m' ∧
        s₀.approves m = some m')
      (Out Φ s₀ (Answered env i s₀ c m t)) := by
  cases action with
  | forward =>
      have hs := startCycle_beside s (cycleSqlOf (applyRewrite m cycle.takeRewritten)) input.kind
      exact ⟨hs.core.trans hlike.core, hk.trans (hs.kept hk.tidy), .inr ⟨input, hin, ha, _, rfl⟩,
        hrew rfl⟩
  | deny info => exact denyQuery_post hk hlike.core he hp hin ha
  | scatter request => exact scatterQuery_post hu hl hk hlike hc he hp hin ha
  | reply ms => exact replyQuery_post hk hlike.core he hp hin ha
  | close =>
      refine ⟨?_, hk⟩
      rw [hlike.core]
      exact .closed input hp hin ha

theorem queryPhase_post (hu : ProbeKeeps env.upstream Φ)
    (hl : ∀ sql, LegText i sql → LegKeeps env.upstream Φ s₀.startupParameters sql)
    (hk : s₀.Kept Φ s)
    (hlike : s₀.Like c s) (hhooks : s.hooks = s₀.hooks) (hi : s₀.interceptor = i)
    (hc : c.downstreamStatus = s₀.downstreamStatus)
    (he : c.ended = none) (hp : c.Passes env.transactionMode m) :
    (s.queryPhase env t m).Post
      (fun s' m' => s'.toCore = c.note m ∧ s₀.Kept Φ s' ∧ Forwards i m m' ∧
        s₀.approves m = some m')
      (Out Φ s₀ (Answered env i s₀ c m t)) := by
  have hint := hi.symm.trans hk.interceptor.symm
  unfold queryPhase
  split
  case h_1 hin =>
    refine ⟨?_, hk, .inl ⟨rfl, .inr hin⟩, by simp [approves, hin]⟩
    rw [hlike.core]
    simp [Core.note, hin]
  case h_2 input hin =>
    have hnote : { s.toCore with cycleIsExtended := input.kind.isExtended } = c.note m := by
      rw [hlike.core]
      simp [Core.note, hin]
    dsimp only
    split
    case h_1 hh =>
      have hnone : s₀.hooks = none := hhooks.symm.trans hh
      refine ⟨hnote, ⟨hk.params, hk.startup, hk.interceptor, hk.tidy, hk.snaps⟩,
        .inl ⟨rfl, .inl ?_⟩, by simp [approves, hin, hnone]⟩
      rw [hint]
      simp [interceptor, hh]
    case h_2 h hh =>
      have hsome : s₀.hooks = some h := hhooks.symm.trans hh
      rw [show s.interceptor = some h.interceptor by simp [interceptor, hh]] at hint
      have hb := withCtx_beside hh
        (h.interceptor.onQuery h.ctx (QueryCycle.new input.sql input.kind)).1
      exact actOnQuery_post hu hl
        ⟨hk.params, hk.startup, hb.interceptor.trans hk.interceptor, hk.tidy,
          hk.snaps⟩
        ⟨hnote, hlike.world, hlike.params, hlike.startup, hlike.sends⟩ hc he hp hin
        ⟨h.interceptor, hint, h.ctx, rfl⟩ fun ha => by simp [approves, hin, hsome, ha]

end Query

/-! ## The phases up to the connection -/

section Forward

variable {i : Option (Interceptor κ)} {c : Core σ} {m m' m'' : FrontendMessage} {t : Timing}

@[simp] theorem note_registry (c : Core σ) (m : FrontendMessage) :
    (c.note m).registry = c.registry := by
  unfold Core.note; split <;> rfl

theorem registryPhase_post (hk : s₀.Kept Φ s) (hc : s.toCore = c.note m) (he : c.ended = none)
    (hp : c.Passes env.transactionMode m) (hf : Forwards i m m')
    (happ : s₀.approves m = some m') :
    (s.registryPhase m').Post
      (fun s' pending => s' = s ∧ pending = pendingParse m' ∧
        ∀ p, pendingParse m' = some p → c.registry.lookup p.1 = none)
      (Out Φ s₀ (Answered env i s₀ c m t)) := by
  have hreg : s.registry = c.registry := by rw [hc, note_registry]
  unfold registryPhase
  split
  case h_1 name query typeOids =>
    split
    case isTrue hname =>
      refine ⟨rfl, by simp [pendingParse, hname], ?_⟩
      simp [pendingParse, hname]
    case isFalse hname =>
      have hpend : pendingParse (.parse (some name) query typeOids) =
          some (name, query, typeOids) := by simp [pendingParse, hname]
      rw [hreg]
      split
      case h_1 hnone =>
        refine ⟨rfl, hpend.symm, fun p hp => ?_⟩
        rw [hpend] at hp
        cases hp
        exact hnone
      case h_2 known hknown =>
        split
        case isTrue hsame =>
          refine sendAll_halt (f := id) (g := id) hk Beside.refl
            (by simp [Core.emit, hc, he]) ?_
          rw [hc, Core.note_answers]
          exact fun d h => .reparsed _ name query typeOids known.2 d hp ⟨hf, happ⟩ hpend
            (by rw [hknown, ← hsame]) h
        case isFalse hne =>
          refine sendAll_halt (f := fun d => { d with swallowUntilSync := true })
            (g := fun s => { s with swallowUntilSync := true }) hk
            (fun s' => ⟨rfl, rfl, rfl, rfl, rfl⟩) (by simp [Core.emit, hc, he]) ?_
          rw [hc, Core.note_answers]
          exact fun d h => .duplicate _ name query typeOids known d hp hf hpend hknown hne h
  case h_2 hno =>
    have hpend : pendingParse m' = none := by
      unfold pendingParse
      split
      case h_1 name query typeOids =>
        exact absurd rfl (hno name query typeOids)
      case h_2 => rfl
    exact ⟨rfl, hpend.symm, by simp [hpend]⟩

theorem attachPhase_post {hint : Option String} (hu : ProbeKeeps env.upstream Φ)
    (hk : s₀.Kept Φ s) (hc : s.toCore = (s₀.toCore.recv m).note m)
    (hp : (s₀.toCore.recv m).Passes env.transactionMode m) (hf : Forwards i m m') :
    (s.attachPhase env hint (pendingParse m')).Post
      (fun s' _ => s₀.Kept Φ s' ∧ ∃ c₁, Attaches env Φ s₀.params s₀.startupParameters
        ((s₀.toCore.recv m).note m) c₁ ∧ s'.toCore = c₁.register (pendingParse m'))
      (Out Φ s₀ (Steps env i Φ s₀ (.client m t))) := by
  have hspec : AttachSpec env Φ s (s.ensureAttached env hint) :=
    ensureAttached_spec hu hint s hk.tidy
  unfold attachPhase
  split
  case h_1 s' heq =>
    rw [heq] at hspec
    refine ⟨.attachFailed m m' t s'.toCore hp hf ?_, hk.trans hspec.kept⟩
    rw [← hc]
    exact hspec.fails rfl
  case h_2 s' heq =>
    rw [heq] at hspec
    have hk' := hk.trans hspec.kept
    have hatt := hspec.attaches rfl
    rw [hk.params, hk.startup, hc] at hatt
    split
    case h_1 name query typeOids hpend =>
      refine ⟨⟨hk'.params, hk'.startup, hk'.interceptor, hk'.tidy, hk'.snaps⟩, s'.toCore, hatt, ?_⟩
      rw [hpend]
      rfl
    case h_2 hpend =>
      refine ⟨⟨hk'.params, hk'.startup, hk'.interceptor, hk'.tidy, hk'.snaps⟩, s'.toCore, hatt, ?_⟩
      rw [hpend]
      rfl

theorem frontendPhase_post (hk : s₀.Kept Φ s) (hi : s₀.interceptor = i) (he : s.ended = none)
    (hen : Enters env i Φ s₀ (s₀.toCore.recv m) m m' s.toCore) :
    (s.frontendPhase m').Post
      (fun s' m'' => s'.toCore = s.toCore ∧ s₀.Kept Φ s' ∧ Hooked i m' m'' .forward)
      (Out Φ s₀ (Steps env i Φ s₀ (.client m t))) := by
  have hint := hi.symm.trans hk.interceptor.symm
  unfold frontendPhase
  split
  case h_1 hh =>
    refine ⟨rfl, hk, .inl ⟨?_, rfl, rfl⟩⟩
    rw [hint]
    simp [interceptor, hh]
  case h_2 h hh =>
    rw [show s.interceptor = some h.interceptor by simp [interceptor, hh]] at hint
    have hb := withCtx_beside hh (h.interceptor.onFrontend h.ctx m').1
    have hk₁ := hk.trans (hb.kept hk.tidy)
    have hhook : ∀ a, (h.interceptor.onFrontend h.ctx m').2.2 = a →
        Hooked i m' (h.interceptor.onFrontend h.ctx m').2.1 a :=
      fun a ha => .inr ⟨h.interceptor, hint, h.ctx, Prod.ext rfl ha⟩
    have hstop : ∀ a, (h.interceptor.onFrontend h.ctx m').2.2 = a → a ≠ .forward →
        Steps env i Φ s₀ (.client m t) (s.toCore.stop .clientGone) :=
      fun a ha hne => .hookStopped m m' _ t a s.toCore hen (hhook a ha) hne
    dsimp only
    split
    case h_1 ha =>
      exact ⟨rfl, hk₁, hhook _ ha⟩
    case h_2 ms ha =>
      exact sendAll_halt (f := id) (g := id) hk₁ Beside.refl he
        fun d h => .hookReplied m m' _ t ms s.toCore d hen (hhook _ ha) h
    case h_3 info ha =>
      exact ⟨hstop _ ha (by simp), hk₁⟩
    case h_4 request ha =>
      exact ⟨hstop _ ha (by simp), hk₁⟩
    case h_5 ha =>
      exact ⟨hstop _ ha (by simp), hk₁⟩

theorem attaches_lease {params : SessionParams} {startup : Params} {c c₁ : Core σ}
    (h : Attaches env Φ params startup c c₁) : ∃ lease, c₁.lease = some lease := by
  cases h with
  | held lease h => exact ⟨lease, h⟩
  | leased endpoint dirty₀ base lease dirty => exact ⟨lease, rfl⟩

theorem attaches_ended {params : SessionParams} {startup : Params} {c c₁ : Core σ}
    (h : Attaches env Φ params startup c c₁) : c₁.ended = c.ended := by
  cases h <;> rfl

theorem register_frame (c : Core σ) (pending : PendingParse) :
    (c.register pending).lease = c.lease ∧ (c.register pending).ended = c.ended := by
  cases pending <;> exact ⟨rfl, rfl⟩

/-! ## Losing the connection -/

theorem askLost_spec {lease : UpstreamLease σ} (hlease : s.lease = some lease) (message : String) :
    s.Beside (s.toCore.emit [s.toCore.lostEntry lease (s.askLost message).2])
        (s.askLost message).1 ∧
      ((s.askLost message).2 = .close → s.interceptor ≠ none) := by
  have hb := dispatchOnUpstreamError_beside s (.connectionLost (s.currentEndpoint.getD "") message)
  unfold askLost
  simp only [hlease]
  refine ⟨⟨?_, hb.1.world, hb.1.params, hb.1.startup, hb.1.interceptor⟩, hb.2⟩
  simp only [hb.1.core]
  rfl

/-- `synthesize_upstream_lost` and what the pump resets after it. -/
theorem synthesizeUpstreamLost_post {g : Session σ κ → Session σ κ}
    (hk : s₀.Kept Φ s) (he : s.ended = none)
    (hg : ∀ s' : Session σ κ, s'.Beside s'.toCore.settled (g s'))
    (hsimple : s.cycleIsExtended = false → ∀ d, Said s.toCore
      (s.toCore.answers [.errorResponse lostInfo, .readyForQuery .idle])
      (fun d => { d with downstreamStatus := .idle }.settled) d → R d)
    (hextended : s.cycleIsExtended = true → ∀ d, Said s.toCore
      (s.toCore.answers [.errorResponse lostInfo])
      (fun d => { d with swallowUntilSync := true }.settled) d → R d) :
    (s.synthesizeUpstreamLost.andThen fun s' _ => (.next (g s') () : Flow _ _ Unit)).Post
      (fun s' _ => Out Φ s₀ R s' none) (Out Φ s₀ R) := by
  refine andThen_post (P := fun s' _ =>
    (s.cycleIsExtended = true ∧ s.Beside { s.toCore.emit (s.toCore.answers
      [.errorResponse lostInfo]) with swallowUntilSync := true } s') ∨
    (s.cycleIsExtended = false ∧ s.Beside { s.toCore.emit (s.toCore.answers
      [.errorResponse lostInfo, .readyForQuery .idle]) with downstreamStatus := .idle } s')) ?_ ?_
  · unfold synthesizeUpstreamLost
    refine andThen_post (P := fun s' _ => s.Beside (s.toCore.emit (s.toCore.answers
      [.errorResponse lostInfo])) s') (sendAll_post (fun s' h => h) ?_) ?_
    · intro s' pre hpre hb
      cases hext : s.cycleIsExtended with
      | true => exact out_cut hk hpre hb (hextended hext)
      | false => exact out_cut hk (hpre.trans ⟨[_], rfl⟩) hb (hsimple hext)
    · intro s' _ hb
      have hext : s'.cycleIsExtended = s.cycleIsExtended := by rw [hb.core]; rfl
      rw [hext]
      split
      case isTrue h =>
        exact .inl ⟨h, by rw [hb.core]; rfl, hb.world, hb.params, hb.startup, hb.interceptor⟩
      case isFalse h =>
        rw [Bool.not_eq_true] at h
        refine andThen_post (P := fun s'' _ => s'.Beside (s'.toCore.emit (s'.toCore.answers
          [.readyForQuery .idle])) s'') (sendAll_post (fun s'' h => h) ?_) ?_
        · intro s'' pre hpre hb'
          rw [hb.core] at hpre hb'
          rw [Core.emit_emit] at hb'
          refine out_cut hk ?_ (hb.trans hb') (hsimple h)
          exact (List.prefix_append_right_inj _).mpr hpre
        · intro s'' _ hb'
          rw [hb.core, Core.emit_emit] at hb'
          have hr := reportLost_beside { s'' with downstreamStatus := .idle }
          refine .inr ⟨h, hr.core.trans ?_, hr.world.trans (hb.trans hb').world,
            hr.params.trans (hb.trans hb').params, hr.startup.trans (hb.trans hb').startup,
            hr.interceptor.trans (hb.trans hb').interceptor⟩
          rw [hb'.core]
          rfl
  · rintro s' _ (⟨hext, hb⟩ | ⟨hext, hb⟩)
    · have hb' := hb.trans (hg s')
      rw [hb.core] at hb'
      exact out_done hk hb' he (hextended hext)
    · have hb' := hb.trans (hg s')
      rw [hb.core] at hb'
      exact out_done hk hb' he (hsimple hext)

theorem settled_of_quiet {c : Core σ} (ha : c.hygiene.awaitingResponse = false)
    (hf : c.fedSinceRfq = 0) : c.settled = c := by
  have : { c.hygiene with awaitingResponse := false } = c.hygiene := by rw [← ha]
  unfold Core.settled
  rw [this, ← hf]

/-- The outcome of losing the lease, for either way of noticing it. -/
theorem relink_post {lease : UpstreamLease σ} {reason : String} {synth : Bool}
    {g h : Session σ κ → Session σ κ} (hk : s₀.Kept Φ s) (he : s.ended = none)
    (hc : s.toCore = c.emit [c.lostEntry lease .relink])
    (hg : ∀ s' : Session σ κ, s'.Beside s'.toCore.settled (g s'))
    (hh : synth = false → s.dropLease.Beside s.toCore.unleased.settled (h s.dropLease))
    (hR : ∀ d, Lost i c lease reason synth d → R d) :
    (if synth then s.dropLease.synthesizeUpstreamLost.andThen
        fun s' _ => (.next (g s') () : Flow _ _ Unit)
      else .next (h s.dropLease) ()).Post (fun s' _ => Out Φ s₀ R s' none) (Out Φ s₀ R) := by
  have hk₁ := dropLease_kept hk
  have hc₁ : s.dropLease.toCore = (c.emit [c.lostEntry lease .relink]).unleased := by
    rw [← hc]; rfl
  have hext : s.dropLease.cycleIsExtended = c.cycleIsExtended := by rw [hc₁]; rfl
  cases synth with
  | true =>
      refine synthesizeUpstreamLost_post hk₁ he hg ?_ ?_
      · rw [hext, hc₁]
        exact fun hk d hd => hR d (.simple d rfl hk hd)
      · rw [hext, hc₁]
        exact fun hk d hd => hR d (.extended d rfl hk hd)
  | false =>
      have hb := hh rfl
      refine ⟨hR _ ?_, hk₁.trans (hb.kept hk₁.tidy)⟩
      have hlive : { s.toCore.unleased.settled with ended := none } =
          s.toCore.unleased.settled := by
        rw [← he]; rfl
      rw [hb.core, hlive, hc]
      exact .silent rfl

theorem sendFailed_post {lease : UpstreamLease σ} (hk : s₀.Kept Φ s) (hi : s₀.interceptor = i)
    (he : s.ended = none) (hlease : s.lease = some lease)
    (hR : ∀ d, Lost i s.toCore lease "upstream send failed"
      (s.hygiene.awaitingResponse || decide (0 < s.fedSinceRfq)) d → R d) :
    s.sendFailed.Post (fun s' _ => Out Φ s₀ R s' none) (Out Φ s₀ R) := by
  obtain ⟨hb, hclose⟩ := askLost_spec hlease "send failed"
  have hint := hk.interceptor.trans hi
  unfold sendFailed
  split
  case h_1 s₁ heq =>
    rw [heq] at hb hclose
    refine ⟨hR _ ?_, hk.trans (hb.kept hk.tidy)⟩
    rw [hb.core]
    exact .closed (hint ▸ hclose rfl)
  case h_2 s₁ heq =>
    rw [heq] at hb
    have hsynth : (s₁.dropLease.hygiene.awaitingResponse ||
        decide (0 < s₁.dropLease.fedSinceRfq)) =
        (s.hygiene.awaitingResponse || decide (0 < s.fedSinceRfq)) := by
      have : s₁.dropLease.toCore = (s.toCore.emit [s.toCore.lostEntry lease .relink]).unleased := by
        rw [show s.toCore.emit _ = s₁.toCore from hb.core.symm]; rfl
      rw [this]
      rfl
    dsimp only
    rw [hsynth]
    refine relink_post (s := s₁) (h := fun s => { s with frontend := s.frontend + 1 })
      (hk.trans (hb.kept hk.tidy)) (by rw [show s₁.toCore = _ from hb.core]; exact he) hb.core
      (fun s' => ⟨rfl, rfl, rfl, rfl, rfl⟩) (fun h => ⟨?_, rfl, rfl, rfl, rfl⟩) hR
    -- nothing was in flight, so there is nothing to reset
    rw [← hsynth] at h
    simp only [Bool.or_eq_false_iff, decide_eq_false_iff_not, Nat.not_lt, Nat.le_zero] at h
    exact (settled_of_quiet h.1 h.2).symm

theorem await_frame (c : Core σ) (m : FrontendMessage) :
    (c.await m).lease = c.lease ∧ (c.await m).ended = c.ended ∧
      (c.await m).fedSinceRfq = c.fedSinceRfq := by
  unfold Core.await
  split <;> exact ⟨rfl, rfl, rfl⟩

theorem forwardPhase_post {d : Core σ} (hk : s₀.Kept Φ s) (hi : s₀.interceptor = i)
    (he : s.ended = none) (hc : s.toCore = d)
    (hen : Enters env i Φ s₀ (s₀.toCore.recv m) m m' d) (hh : Hooked i m' m'' .forward) :
    (s.forwardPhase env t.sendOk m'').Post
      (fun s' _ => Out Φ s₀ (Steps env i Φ s₀ (.client m t)) s' none)
      (Out Φ s₀ (Steps env i Φ s₀ (.client m t))) := by
  obtain ⟨c₁, hatt, hd⟩ := hen.attaches
  obtain ⟨lease, hlease⟩ : ∃ lease, d.lease = some lease := by
    rw [hd, (register_frame c₁ _).1]
    exact attaches_lease hatt
  unfold forwardPhase
  have hawait : (if m''.startsResponse then
      { s with hygiene := { s.hygiene with awaitingResponse := true } } else s).toCore =
      d.await m'' := by
    subst hc
    unfold Core.await
    split <;> rfl
  have hk₁ : s₀.Kept Φ (if m''.startsResponse then
      { s with hygiene := { s.hygiene with awaitingResponse := true } } else s) := by
    split
    · exact ⟨hk.params, hk.startup, hk.interceptor, hk.tidy, hk.snaps⟩
    · exact hk
  dsimp only
  generalize (if m''.startsResponse then _ else s) = s₁ at hawait hk₁
  obtain ⟨hl, hended, hfed⟩ := await_frame d m''
  have hl₁ : s₁.lease = some lease := by rw [hawait, hl]; exact hlease
  have he₁ : s₁.ended = none := by rw [hawait, hended, ← hc]; exact he
  simp only [hl₁]
  split
  case isTrue hok =>
    refine ⟨?_, hk₁.params, hk₁.startup, hk₁.interceptor, hk₁.tidy, hk₁.snaps⟩
    have hput : { (s₁.putUpstream env lease m'').toCore with ended := none } =
        (d.await m'').put env.upstream lease m'' := by
      rw [← hawait, ← he₁]
      rfl
    rw [hput]
    exact .put m m' m'' t d lease hen hh hlease hok
  case isFalse hok =>
    rw [Bool.not_eq_true] at hok
    refine sendFailed_post hk₁ hi he₁ hl₁ ?_
    rw [hawait, hfed]
    exact fun d' hd' => .sendFailed m m' m'' t d d' lease hen hh hlease hok hd'

end Forward

theorem Out.imp {R' : Core σ → Prop} {s' : Session σ κ} {e : Option End} (h : Out Φ s₀ R s' e)
    (hR : ∀ d, R d → R' d) : Out Φ s₀ R' s' e := ⟨hR _ h.outcome, h.kept⟩

theorem passPhases_post {i : Option (Interceptor κ)} {m : FrontendMessage} {t : Timing}
    (hu : ProbeKeeps env.upstream Φ)
    (hl : ∀ sql, LegText i sql → LegKeeps env.upstream Φ s₀.startupParameters sql)
    (hk : s₀.Kept Φ s) (hlike : s₀.Like (s₀.toCore.recv m) s) (hhooks : s.hooks = s₀.hooks)
    (hi : s₀.interceptor = i) (he : s₀.ended = none)
    (hp : (s₀.toCore.recv m).Passes env.transactionMode m) :
    (s.passPhases env t m).Post
      (fun s' _ => Out Φ s₀ (Steps env i Φ s₀ (.client m t)) s' none)
      (Out Φ s₀ (Steps env i Φ s₀ (.client m t))) := by
  have hans : ∀ (s' : Session σ κ) e, Out Φ s₀ (Answered env i s₀ (s₀.toCore.recv m) m t) s' e →
      Out Φ s₀ (Steps env i Φ s₀ (.client m t)) s' e :=
    fun s' e h => h.imp fun d hd => .answered m t d hd
  unfold passPhases
  refine andThen_post
    ((queryPhase_post hu hl hk hlike hhooks hi rfl he hp).mono (fun _ _ h => h) hans) ?_
  rintro s₁ m' ⟨hc₁, hk₁, hf, happ⟩
  refine andThen_post
    ((registryPhase_post (t := t) hk₁ hc₁ he hp hf happ).mono (fun _ _ h => h) hans) ?_
  rintro s₂ pending ⟨rfl, rfl, hunknown⟩
  refine andThen_post (attachPhase_post (t := t) hu hk₁ hc₁ hp hf) ?_
  rintro s₃ _ ⟨hk₃, c₁, hatt, hc₃⟩
  have hen : Enters env i Φ s₀ (s₀.toCore.recv m) m m' s₃.toCore :=
    ⟨hp, hf, happ, hunknown, c₁, hatt, hc₃⟩
  have he₃ : s₃.ended = none := by
    rw [hc₃, (register_frame c₁ _).2, attaches_ended hatt, Core.note_ended]
    exact he
  refine andThen_post (frontendPhase_post hk₃ hi he₃ hen) ?_
  rintro s₄ m'' ⟨hc₄, hk₄, hh⟩
  exact forwardPhase_post hk₄ hi (by rw [hc₄]; exact he₃) hc₄ hen hh

theorem onClient_refines {i : Option (Interceptor κ)} {m : FrontendMessage} {t : Timing}
    (hu : ProbeKeeps env.upstream Φ)
    (hl : ∀ sql, LegText i sql → LegKeeps env.upstream Φ s.startupParameters sql)
    (ht : s.world.Tidy Φ) (hi : s.interceptor = i) (he : s.ended = none) :
    (s.onClient env t m).Post (fun s' _ => Out Φ s (Steps env i Φ s (.client m t)) s' none)
      (Out Φ s (Steps env i Φ s (.client m t))) := by
  have hk : s.Kept Φ { s with toCore := s.toCore.recv m } := ⟨rfl, rfl, rfl, ht, id⟩
  have hans : ∀ (s' : Session σ κ) e, Out Φ s (Answered env i s (s.toCore.recv m) m t) s' e →
      Out Φ s (Steps env i Φ s (.client m t)) s' e :=
    fun s' e h => h.imp fun d hd => .answered m t d hd
  unfold onClient
  dsimp only
  split
  case isTrue hm =>
    exact hans _ _ ⟨.quit hm, hk⟩
  case isFalse hm =>
    refine andThen_post ((swallowPhase_post env (t := t) hk he hm).mono
      (fun _ _ h => h) hans) ?_
    rintro s₁ _ ⟨rfl, hs⟩
    refine andThen_post ((localPhase_post (t := t) hk he hm hs).mono (fun _ _ h => h) hans) ?_
    rintro s₂ _ ⟨rfl, hp⟩
    exact passPhases_post hu hl hk ⟨rfl, rfl, rfl, rfl, rfl⟩ rfl hi he hp

/-! ## The upstream arm -/

section Upstream

variable {i : Option (Interceptor κ)} {c : Core σ} {o : Origin} {m : BackendMessage}

/-- The iteration goes on or stops after a message was read. -/
theorem editRow_post {h : SessionHooks κ} {row : DataRow} (hk : s₀.Kept Φ s)
    (hh : s.hooks = some h) :
    (s.editRow h row).Post (fun s' _ => s'.toCore = s.toCore ∧ s₀.Kept Φ s')
      (fun s' e => s'.toCore = s.toCore ∧ s₀.Kept Φ s' ∧ e = some .panicked) := by
  have htrack : ∀ (s₁ : Session σ κ) f, s₁.toCore = s.toCore → s₀.Kept Φ s₁ →
      (s₁.trackCycle f).toCore = s.toCore ∧ s₀.Kept Φ (s₁.trackCycle f) := fun s₁ f hc hk₁ =>
    ⟨(trackCycle_beside s₁ f).core.trans hc, hk₁.trans ((trackCycle_beside s₁ f).kept hk₁.tidy)⟩
  unfold editRow
  split
  case h_1 => exact ⟨rfl, hk, rfl⟩
  case h_2 => exact htrack s _ rfl hk
  case h_3 r _ =>
    have hb := withCtx_beside hh (h.interceptor.onRow h.ctx h.schema r).1
    dsimp only
    split
    · exact htrack _ _ hb.core (hk.trans (hb.kept hk.tidy))
    · exact htrack _ _ hb.core (hk.trans (hb.kept hk.tidy))

theorem rowPhase_post (hk : s₀.Kept Φ s) (hi : s₀.interceptor = i) (he : s.ended = none)
    (hr : s₀.toCore.readNext env.transactionMode = some (o, m, s.toCore)) :
    (s.rowPhase m).Post (fun s' m' => s'.toCore = s.toCore ∧ s₀.Kept Φ s' ∧ Shown i m m')
      (Out Φ s₀ (Steps env i Φ s₀ .upstream)) := by
  have hint := hi.symm.trans hk.interceptor.symm
  have htrack := fun f => And.intro (trackCycle_beside s f).core
    (hk.trans ((trackCycle_beside s f).kept hk.tidy))
  unfold rowPhase
  split
  case h_1 => exact ⟨rfl, hk, .inl rfl⟩
  case h_2 h hh =>
    have hne : i ≠ none := by rw [hint]; simp [interceptor, hh]
    split
    case h_1 =>
      split
      · refine ⟨rfl, ⟨hk.params, hk.startup, ?_, hk.tidy, hk.snaps⟩, .inl rfl⟩
        rw [← hk.interceptor]
        simp [interceptor, hh]
      · exact ⟨rfl, hk, .inl rfl⟩
    case h_2 => exact ⟨(htrack _).1, (htrack _).2, .inr ⟨hne, .inr ⟨_, _, rfl, rfl⟩⟩⟩
    case h_3 => exact ⟨(htrack _).1, (htrack _).2, .inl rfl⟩
    case h_4 row =>
      split
      · refine andThen_post ((editRow_post hk hh).mono (fun _ _ h => h) ?_) ?_
        · rintro s' _ ⟨hc, hk', rfl⟩
          refine ⟨?_, hk'⟩
          rw [hc]
          exact .readStopped o _ s.toCore .panicked hr hne
        · rintro s' edited ⟨hc, hk'⟩
          cases edited with
          | some row' => exact ⟨hc, hk', .inr ⟨hne, .inl ⟨_, _, rfl, rfl⟩⟩⟩
          | none =>
              refine ⟨?_, hk'⟩
              rw [hc, ← he]
              exact .rowDropped o _ s.toCore row hr rfl hne
      · exact ⟨(htrack _).1, (htrack _).2, .inl rfl⟩
    case h_5 => exact ⟨rfl, hk, .inl rfl⟩

theorem backendPhase_post {m' : BackendMessage} (hk : s₀.Kept Φ s) (hi : s₀.interceptor = i)
    (hr : s₀.toCore.readNext env.transactionMode = some (o, m, s.toCore)) (hs : Shown i m m') :
    (s.backendPhase m').Post
      (fun s' forwarded => s₀.Kept Φ s' ∧ match forwarded with
        | some m'' => s'.toCore = s.toCore ∧ HookedBack i m' m'' .forward
        | none => ∃ m'' ms, s'.toCore = s.toCore.emit (s.toCore.answers ms) ∧
            HookedBack i m' m'' (.reply ms))
      (Out Φ s₀ (Steps env i Φ s₀ .upstream)) := by
  have hint := hi.symm.trans hk.interceptor.symm
  unfold backendPhase
  split
  case h_1 hh =>
    refine ⟨hk, rfl, .inl ⟨?_, rfl, rfl⟩⟩
    rw [hint]
    simp [interceptor, hh]
  case h_2 h hh =>
    rw [show s.interceptor = some h.interceptor by simp [interceptor, hh]] at hint
    have hne : i ≠ none := by simp [hint]
    have hb := withCtx_beside hh (h.interceptor.onBackend h.ctx m').1
    have hk₁ := hk.trans (hb.kept hk.tidy)
    have hhook : ∀ a, (h.interceptor.onBackend h.ctx m').2.2 = a →
        HookedBack i m' (h.interceptor.onBackend h.ctx m').2.1 a :=
      fun a ha => .inr ⟨h.interceptor, hint, h.ctx, Prod.ext rfl ha⟩
    have hstop : Steps env i Φ s₀ .upstream (s.toCore.stop .clientGone) :=
      .readStopped o m s.toCore .clientGone hr hne
    dsimp only
    split
    case h_1 ha =>
      exact ⟨hk₁, rfl, hhook _ ha⟩
    case h_2 ms ha =>
      refine andThen_post (P := fun s' _ => Beside { s with hooks := _ }
        (s.toCore.emit (s.toCore.answers ms)) s') (sendAll_post (fun s' h => h) ?_) ?_
      · exact fun s' pre hpre hb' => out_cut hk₁ hpre hb'
          fun d hd => .replaced o m m' _ ms s.toCore d hr hs (hhook _ ha) hd
      · exact fun s' _ hb' => ⟨hk₁.trans (hb'.kept hk₁.tidy), _, ms, hb'.core, hhook _ ha⟩
    case h_3 => exact ⟨hstop, hk₁⟩
    case h_4 => exact ⟨hstop, hk₁⟩
    case h_5 => exact ⟨hstop, hk₁⟩

/-- What a detach of `s` would release has `Φ`. -/
def Releases (env : Env σ) (i : Option (Interceptor κ)) (Φ : PoolKey → Conn σ → Prop)
    (s : Session σ κ) : Prop :=
  ∀ o m m' m'' c lease conn, s.toCore.readNext env.transactionMode = some (o, m, c) →
    Shown i m m' → HookedBack i m' m'' .forward → m''.ready = 1 → env.transactionMode = true →
    c.leaseStatus = .idle → c.lease = some lease →
    discardIfDirty env.upstream lease.conn c.leaseDirty = .ok conn → Φ lease.pool conn

/-- `Session.afterReady` is `Core.afterReady` of the protocol state. -/
theorem afterReady_post (hk : s₀.Kept Φ s) (he : s.ended = none)
    (hrel : ∀ lease conn, env.transactionMode = true → s.leaseStatus = .idle →
      s.lease = some lease → discardIfDirty env.upstream lease.conn s.leaseDirty = .ok conn →
      Φ lease.pool conn)
    (hR : R (s.toCore.afterReady env.transactionMode)) :
    (s.afterReady env s.leaseStatus).Post (fun s' _ => Out Φ s₀ R s' none) (Out Φ s₀ R) := by
  have hb := endActiveCycle_beside s
  have hk₁ := hk.trans (hb.kept hk.tidy)
  unfold afterReady
  dsimp only
  generalize s.endActiveCycle = s₁ at hb hk₁
  rw [← hb.core] at hR hrel he
  have hst : s.leaseStatus = s₁.leaseStatus := by rw [hb.core]
  rw [hst]
  unfold Core.afterReady at hR
  split
  case isTrue hd =>
    rw [if_pos hd] at hR
    exact ⟨hR, hk₁⟩
  case isFalse hd =>
    rw [if_neg hd] at hR
    unfold detachIfIdle
    cases htx : env.transactionMode with
    | false =>
        simp only [htx, Bool.false_eq_true, false_and, if_false] at hR
        simp only [Bool.not_false, if_true]
        refine ⟨?_, hk₁⟩
        rw [← he]
        exact hR
    | true =>
        simp only [Bool.not_true, Bool.false_eq_true, if_false]
        by_cases hidle : s₁.leaseStatus = .idle
        · simp only [htx, hidle, true_and, if_true] at hR
          simp only [hidle, ne_eq, not_true_eq_false, if_false]
          cases hlease : s₁.lease with
          | none =>
              simp only [hlease] at hR
              refine ⟨?_, hk₁⟩
              rw [← he]
              exact hR
          | some lease =>
              simp only [hlease] at hR
              have hback : ∀ conn, discardIfDirty env.upstream lease.conn s₁.leaseDirty =
                  .ok conn → Φ lease.pool conn := fun conn hd => hrel lease conn htx hidle hlease hd
              refine ⟨?_, hk₁.params, hk₁.startup, hk₁.interceptor,
                hk₁.tidy.checkinDetached hback, fun hs => (hk₁.snaps hs).checkinDetached hback⟩
              rw [← he]
              exact hR
        · simp only [hidle, and_false, if_false] at hR
          simp only [ne_eq, hidle, not_false_eq_true, if_true]
          refine ⟨?_, hk₁⟩
          rw [← he]
          exact hR

theorem track_frame (transactionMode : Bool) (c : Core σ) (m : BackendMessage) :
    (c.track transactionMode m).ended = c.ended := by
  cases m <;> rfl

theorem deliverBackend_post {m' m'' : BackendMessage} (hk : s₀.Kept Φ s) (he : s.ended = none)
    (hrel : Releases env i Φ s₀)
    (hr : s₀.toCore.readNext env.transactionMode = some (o, m, s.toCore)) (hs : Shown i m m')
    (hh : HookedBack i m' m'' .forward) :
    (s.deliverBackend env o s.leaseStatus m'').Post
      (fun s' _ => Out Φ s₀ (Steps env i Φ s₀ .upstream) s' none)
      (Out Φ s₀ (Steps env i Φ s₀ .upstream)) := by
  have hR : ∀ d, Said s.toCore [.sent false o m'']
      (if m''.ready = 1 then Core.afterReady env.transactionMode else id) d →
      Steps env i Φ s₀ .upstream d := fun d hd => .passed o m m' m'' s.toCore d hr hs hh hd
  unfold deliverBackend
  rcases write_spec s false o m'' with h | ⟨h, hb⟩
  · rw [h]
    refine ⟨hR _ ?_, hk⟩
    have := Said.cut (c := s.toCore) (f := if m''.ready = 1 then
      Core.afterReady env.transactionMode else id) [] s.currentEndpoint s.attached
      (List.nil_prefix (l := [.sent false o m'']))
    simpa [Core.emit, Core.stop] using this
  · cases hw : s.write false o m'' with
    | mk s₁ ok =>
      rw [hw] at h hb
      cases h
      have hk₁ := hk.trans (hb.kept hk.tidy)
      have hdone := hR _ .done
      dsimp only
      split
      case isTrue hready =>
        rw [if_pos hready] at hdone
        have hst : s.leaseStatus = s₁.leaseStatus := by rw [show s₁.toCore = _ from hb.core]; rfl
        rw [hst]
        refine afterReady_post (s := { s₁ with backend := s₁.backend + 1 })
          ⟨hk₁.params, hk₁.startup, hk₁.interceptor, hk₁.tidy, hk₁.snaps⟩
          (by rw [show s₁.toCore = _ from hb.core]; exact he) ?_ ?_
        · intro lease conn htx hidle hlease hd
          rw [show s₁.toCore = _ from hb.core] at hidle hlease hd
          exact hrel o m m' m'' s.toCore lease conn hr hs hh hready htx hidle hlease hd
        · rw [show s₁.toCore = _ from hb.core]
          exact hdone
      case isFalse hready =>
        rw [if_neg hready] at hdone
        refine ⟨?_, hk₁.params, hk₁.startup, hk₁.interceptor, hk₁.tidy, hk₁.snaps⟩
        have hlive : { s₁.toCore with ended := none } = s.toCore.emit [.sent false o m''] := by
          rw [show s₁.toCore = _ from hb.core, ← he]; rfl
        rw [hlive]
        exact hdone

theorem onUpstream_refines (ht : s.world.Tidy Φ) (hi : s.interceptor = i) (he : s.ended = none)
    (hrel : Releases env i Φ s) :
    (s.onUpstream env).Post (fun s' _ => Out Φ s (Steps env i Φ s .upstream) s' none)
      (Out Φ s (Steps env i Φ s .upstream)) := by
  have hidle : Out Φ s (Steps env i Φ s .upstream) s none := by
    refine ⟨?_, .refl ht⟩
    rw [← he]
    exact .idle .upstream (.inl rfl) (.inl rfl)
  unfold onUpstream
  split
  case h_1 => exact hidle
  case h_2 lease hlease =>
    split
    case h_1 => exact hidle
    case h_2 o m conn hnext =>
      have hr : s.toCore.readNext env.transactionMode = some (o, m,
          ({ s with lease := some { lease with conn := conn } }.trackBackend env m).toCore) := by
        simp only [Core.readNext, hlease, hnext]
        rfl
      have hk : s.Kept Φ
          ({ s with lease := some { lease with conn := conn } }.trackBackend env m) :=
        ⟨rfl, rfl, rfl, ht, id⟩
      have he₁ : ({ s with lease := some { lease with conn := conn } }.trackBackend env m).ended =
          none := (track_frame _ _ m).trans he
      dsimp only
      generalize { s with lease := some { lease with conn := conn } }.trackBackend env m = s₁
        at hr hk he₁
      refine andThen_post (rowPhase_post hk hi he₁ hr) ?_
      rintro s₂ m' ⟨hc₂, hk₂, hs⟩
      refine andThen_post (backendPhase_post hk₂ hi (hc₂ ▸ hr) hs) ?_
      rintro s₃ forwarded ⟨hk₃, hf⟩
      cases forwarded with
      | some m'' =>
          obtain ⟨hc₃, hh⟩ := hf
          have hst : s₁.leaseStatus = s₃.leaseStatus := by rw [hc₃, hc₂]
          rw [hst]
          exact deliverBackend_post hk₃ (by rw [hc₃, hc₂]; exact he₁) hrel
            (by rw [hc₃, hc₂]; exact hr) hs hh
      | none =>
          obtain ⟨m'', ms, hc₃, hh⟩ := hf
          refine ⟨?_, hk₃.params, hk₃.startup, hk₃.interceptor, hk₃.tidy, hk₃.snaps⟩
          have hlive : { s₃.toCore with ended := none } =
              s₁.toCore.emit (s₁.toCore.answers ms) := by
            rw [hc₃, hc₂, ← he₁]; rfl
          rw [hlive]
          exact .replaced o m m' m'' ms s₁.toCore _ hr hs hh .done

theorem onUpstreamClosed_refines (ht : s.world.Tidy Φ) (hi : s.interceptor = i)
    (he : s.ended = none) :
    s.onUpstreamClosed.Post (fun s' _ => Out Φ s (Steps env i Φ s .upstreamClosed) s' none)
      (Out Φ s (Steps env i Φ s .upstreamClosed)) := by
  unfold onUpstreamClosed
  split
  case h_1 hlease =>
    refine ⟨?_, .refl ht⟩
    rw [← he]
    exact .idle .upstreamClosed (.inr (.inl rfl)) (.inr hlease)
  case h_2 lease hlease =>
    obtain ⟨hb, hclose⟩ := askLost_spec hlease "upstream closed unexpectedly"
    have hk : s.Kept Φ s := .refl ht
    have hR : ∀ d, Lost i s.toCore lease "upstream EOF" s.hygiene.awaitingResponse d →
        Steps env i Φ s .upstreamClosed d := fun d hd => .upstreamClosed lease d hlease hd
    split
    case h_1 s₁ heq =>
      rw [heq] at hb hclose
      refine ⟨hR _ ?_, hk.trans (hb.kept ht)⟩
      rw [hb.core]
      exact .closed (hi ▸ hclose rfl)
    case h_2 s₁ heq =>
      rw [heq] at hb
      have hc₁ : s₁.toCore = s.toCore.emit [s.toCore.lostEntry lease .relink] := hb.core
      have hsynth : s₁.dropLease.hygiene.awaitingResponse = s.hygiene.awaitingResponse := by
        have : s₁.dropLease.toCore = s₁.toCore.unleased := rfl
        rw [this, hc₁]
        rfl
      dsimp only
      rw [hsynth]
      have hpost := relink_post (h := fun s => { s with
          hygiene := { s.hygiene with awaitingResponse := false }, fedSinceRfq := 0 })
        (g := fun s => { s with
          hygiene := { s.hygiene with awaitingResponse := false }, fedSinceRfq := 0 })
        (hk.trans (hb.kept ht)) (by rw [hc₁]; exact he) hc₁ (fun s' => ⟨rfl, rfl, rfl, rfl, rfl⟩)
        (fun _ => ⟨rfl, rfl, rfl, rfl, rfl⟩) hR
      cases hsy : s.hygiene.awaitingResponse with
      | true => simpa only [hsy, if_true] using hpost
      | false =>
          simp only [hsy, Bool.false_eq_true, if_false] at hpost ⊢
          exact hpost

end Upstream

/-! ## All events -/

/-- One iteration of the pump is one of `Steps`, keeps the interceptor and the parameters, and
    leaves the pools tidy. -/
theorem step_refines {e : Event} (hu : ProbeKeeps env.upstream Φ)
    (hl : ∀ sql, LegText s.interceptor sql → LegKeeps env.upstream Φ s.startupParameters sql)
    (ht : s.world.Tidy Φ) (he : s.ended = none)
    (hrel : e = .upstream → Releases env s.interceptor Φ s) :
    Steps env s.interceptor Φ s e (s.step env e).toCore ∧ s.Kept Φ (s.step env e) := by
  have hk : s.Kept Φ s := .refl ht
  have hpost : (s.arm env e).Post (fun s' _ => Out Φ s (Steps env s.interceptor Φ s e) s' none)
      (Out Φ s (Steps env s.interceptor Φ s e)) := by
    cases e with
    | client m t => exact onClient_refines hu hl ht rfl he
    | clientGone => exact ⟨.clientGone, hk⟩
    | upstream => exact onUpstream_refines ht rfl he (hrel rfl)
    | upstreamClosed => exact onUpstreamClosed_refines ht rfl he
    | upstreamError reason =>
        unfold arm
        cases hlease : s.lease with
        | none =>
            refine ⟨?_, hk⟩
            rw [← he]
            exact .idle _ (.inr (.inr (.inr ⟨reason, rfl⟩))) (.inr hlease)
        | some lease => exact ⟨.upstreamError reason lease hlease, hk⟩
    | cancel =>
        unfold arm onCancel
        cases hlease : s.lease with
        | none =>
            refine ⟨?_, hk⟩
            rw [← he]
            exact .idle _ (.inr (.inr (.inl rfl))) (.inr hlease)
        | some lease =>
            refine ⟨?_, rfl, rfl, rfl, ht, id⟩
            have hlive : { s.toCore.cancelled env.upstream lease with ended := none } =
                s.toCore.cancelled env.upstream lease := by
              rw [← he]; rfl
            rw [hlive]
            exact .cancel lease hlease
    | shutdown =>
        show (s.onShutdown).Post _ _
        unfold onShutdown
        split
        case isTrue =>
          refine ⟨?_, rfl, rfl, rfl, ht, id⟩
          rw [← he]
          exact .drain
        case isFalse h =>
          simp only [Bool.or_eq_true, decide_eq_true_eq, ne_eq, not_or, Bool.not_eq_true,
            not_not] at h
          exact ⟨.shutdown h.1 h.2, hk⟩
  have hclose : Out Φ s (Steps env s.interceptor Φ s e) (s.arm env e).close.1
      (s.arm env e).close.2 := by
    cases h : s.arm env e with
    | next s' u => rw [h] at hpost; exact hpost
    | halt s' r => rw [h] at hpost; exact hpost
  have hstep : s.step env e = { (s.arm env e).close.1 with ended := (s.arm env e).close.2 } := by
    simp [step, he]
  rw [hstep]
  exact ⟨hclose.outcome, hclose.kept.params, hclose.kept.startup, hclose.kept.interceptor,
    hclose.kept.tidy, hclose.kept.snaps⟩

/-- One iteration whatever the pools hold. -/
theorem step_any {e : Event} (he : s.ended = none) :
    Steps env s.interceptor (fun _ _ => True) s e (s.step env e).toCore ∧
      s.Kept (fun _ _ => True) (s.step env e) :=
  step_refines (fun _ _ _ _ _ => trivial) (fun _ _ _ _ _ _ _ _ _ _ => trivial)
    ⟨fun _ _ _ => trivial, fun _ _ _ _ _ _ => trivial⟩ he
    fun _ _ _ _ _ _ _ _ _ _ _ _ _ _ _ _ => trivial

theorem step_steps {e : Event} (he : s.ended = none) :
    Steps env s.interceptor (fun _ _ => True) s e (s.step env e).toCore :=
  (step_any he).1

theorem step_interceptor (s : Session σ κ) (e : Event) :
    (s.step env e).interceptor = s.interceptor := by
  cases he : s.ended with
  | none => exact (step_any he).2.interceptor
  | some r => rw [step, he]; rfl

end Session

end Pgferry
