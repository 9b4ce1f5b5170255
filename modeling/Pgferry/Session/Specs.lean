/-
  What the helpers of the pump do to the protocol state and to the pools.

  The telemetry and the hooks' contexts do not touch the protocol state (`Beside`). Writing to
  the client adds the answers to the log, or a prefix of them when the client goes away
  (`writeAll_spec`). `ensureAttached_spec` and `executeScatter_spec` give every outcome of an
  attach and of a scatter; both leave the pools tidy (`Kept`).
-/
import Pgferry.Session.Attempt
import Pgferry.Session.Steps
import Pgferry.Snapshots

namespace Pgferry

open Loop Loop.Flow

variable {σ κ : Type}

namespace Session

def interceptor (s : Session σ κ) : Option (Interceptor κ) := s.hooks.map SessionHooks.interceptor

/-- `s'` has the protocol state `c` and otherwise differs from `s` only in telemetry, hook
    contexts and the socket. -/
structure Beside (s : Session σ κ) (c : Core σ) (s' : Session σ κ) : Prop where
  core : s'.toCore = c
  world : s'.world = s.world
  params : s'.params = s.params
  startup : s'.startupParameters = s.startupParameters
  interceptor : s'.interceptor = s.interceptor

theorem Beside.refl (s : Session σ κ) : s.Beside s.toCore s := ⟨rfl, rfl, rfl, rfl, rfl⟩

theorem Beside.trans {s s' s'' : Session σ κ} {c c' : Core σ} (h : s.Beside c s')
    (h' : s'.Beside c' s'') : s.Beside c' s'' :=
  ⟨h'.core, h'.world.trans h.world, h'.params.trans h.params, h'.startup.trans h.startup,
    h'.interceptor.trans h.interceptor⟩

/-! ## Telemetry and hooks -/

theorem startCycle_beside (s : Session σ κ) (sql : Option String) (kind : CycleKind) :
    s.Beside s.toCore (s.startCycle sql kind) := by
  refine ⟨rfl, rfl, rfl, rfl, ?_⟩
  cases h : s.hooks <;> simp [startCycle, interceptor, h]

theorem trackCycle_beside (s : Session σ κ) (f : CycleTracking → CycleTracking) :
    s.Beside s.toCore (s.trackCycle f) := by
  refine ⟨rfl, rfl, rfl, rfl, ?_⟩
  cases h : s.hooks <;> simp [trackCycle, interceptor, h]

theorem endCycle_beside (s : Session σ κ) : s.Beside s.toCore s.endCycle := by
  unfold endCycle
  cases h : s.hooks with
  | none => exact .refl s
  | some hk => exact ⟨rfl, rfl, rfl, rfl, by simp [interceptor, h]⟩

theorem endActiveCycle_beside (s : Session σ κ) : s.Beside s.toCore s.endActiveCycle := by
  unfold endActiveCycle
  split
  · split
    · exact endCycle_beside s
    · exact .refl s
  · exact .refl s

theorem reportLost_beside (s : Session σ κ) : s.Beside s.toCore s.reportLost := by
  unfold reportLost
  split
  · split
    · exact (endCycle_beside s).trans
        ((endCycle_beside s).core ▸ trackCycle_beside s.endCycle _)
    · exact .refl s
  · exact .refl s

/-- A hook's new context. -/
theorem withCtx_beside {s : Session σ κ} {h : SessionHooks κ} (hs : s.hooks = some h) (ctx : κ) :
    s.Beside s.toCore { s with hooks := some { h with ctx := ctx } } :=
  ⟨rfl, rfl, rfl, rfl, by simp [interceptor, hs]⟩

theorem dispatchUpstream_beside (env : Env σ) (s : Session σ κ) (sql : Option String) :
    s.Beside s.toCore (s.dispatchUpstream env sql).1 := by
  unfold dispatchUpstream
  cases h : s.hooks with
  | none => exact .refl s
  | some hk => exact withCtx_beside h _

theorem dispatchOnUpstreamConnected_beside (s : Session σ κ) (endpoint : String) :
    s.Beside s.toCore (s.dispatchOnUpstreamConnected endpoint) := by
  unfold dispatchOnUpstreamConnected
  cases h : s.hooks with
  | none => exact .refl s
  | some hk => exact withCtx_beside h _

theorem dispatchOnUpstreamError_beside (s : Session σ κ) (error : UpstreamError) :
    s.Beside s.toCore (s.dispatchOnUpstreamError error).1 ∧
      ((s.dispatchOnUpstreamError error).2 = .close → s.interceptor ≠ none) := by
  unfold dispatchOnUpstreamError
  cases h : s.hooks with
  | none => exact ⟨.refl s, by simp⟩
  | some hk => exact ⟨withCtx_beside h _, by simp [interceptor, h]⟩

/-! ## Writing to the client -/

theorem write_spec (s : Session σ κ) (own : Bool) (o : Origin) (m : BackendMessage) :
    (s.write own o m = (s, false)) ∨
      (s.write own o m).2 = true ∧
        s.Beside (s.toCore.emit [.sent own o m]) (s.write own o m).1 := by
  unfold write
  split
  · exact .inl rfl
  · exact .inr ⟨rfl, rfl, rfl, rfl, rfl, rfl⟩

/-- What was written is a prefix of the answers, and all of them when the write succeeds. -/
theorem writeAll_spec (s : Session σ κ) (ms : List BackendMessage) :
    ∃ pre, pre <+: s.toCore.answers ms ∧ s.Beside (s.toCore.emit pre) (s.writeAll ms).1 ∧
      ((s.writeAll ms).2 = true → pre = s.toCore.answers ms) := by
  induction ms generalizing s with
  | nil =>
      refine ⟨[], List.nil_prefix, ?_, fun _ => rfl⟩
      simpa [writeAll, Core.emit] using Beside.refl s
  | cons m ms ih =>
      rcases write_spec s true s.origin m with h | ⟨h, hb⟩
      · refine ⟨[], List.nil_prefix, ?_, ?_⟩
        · simpa [writeAll, h, Core.emit] using Beside.refl s
        · simp [writeAll, h]
      · obtain ⟨pre, hpre, hbes, hall⟩ := ih (s.write true s.origin m).1
        have hans : (s.write true s.origin m).1.toCore.answers ms = s.toCore.answers ms := by
          rw [hb.core]; rfl
        have hw : s.writeAll (m :: ms) = (s.write true s.origin m).1.writeAll ms := by
          rw [writeAll]
          split
          case h_1 heq =>
            rw [heq] at h
            cases h
          case h_2 heq => rw [heq]
        rw [hans] at hpre hall
        refine ⟨.sent true s.origin m :: pre, List.prefix_cons_inj _ |>.mpr hpre, ?_, ?_⟩
        · rw [hw]
          have := hb.trans hbes
          rwa [hb.core, show (s.toCore.emit [.sent true s.origin m]).emit pre =
            s.toCore.emit (.sent true s.origin m :: pre) by simp [Core.emit]] at this
        · rw [hw]
          intro h2
          rw [hall h2]
          rfl

theorem sendAll_post {s : Session σ κ} {ms : List BackendMessage}
    {P : Session σ κ → Unit → Prop} {Q : Session σ κ → Option End → Prop}
    (hP : ∀ s', s.Beside (s.toCore.emit (s.toCore.answers ms)) s' → P s' ())
    (hQ : ∀ s' pre, pre <+: s.toCore.answers ms → s.Beside (s.toCore.emit pre) s' →
      Q s' (some .clientGone)) : (s.sendAll ms).Post P Q := by
  obtain ⟨pre, hpre, hb, hall⟩ := writeAll_spec s ms
  unfold sendAll
  split
  case h_1 heq =>
    rw [heq] at hall hb
    exact hP _ (hall rfl ▸ hb)
  case h_2 heq =>
    rw [heq] at hb
    exact hQ _ pre hpre hb

/-! ## Attaching -/

/-- The interceptor and the parameters are the same, and the pools are tidy and have their
    snapshots from connections with `Φ`. -/
structure Kept (Φ : PoolKey → Conn σ → Prop) (s s' : Session σ κ) : Prop where
  params : s'.params = s.params
  startup : s'.startupParameters = s.startupParameters
  interceptor : s'.interceptor = s.interceptor
  tidy : s'.world.Tidy Φ
  snaps : s.world.Snaps Φ → s'.world.Snaps Φ

theorem Kept.trans {Φ : PoolKey → Conn σ → Prop} {s s' s'' : Session σ κ} (h : s.Kept Φ s')
    (h' : s'.Kept Φ s'') : s.Kept Φ s'' :=
  ⟨h'.params.trans h.params, h'.startup.trans h.startup, h'.interceptor.trans h.interceptor,
    h'.tidy, fun hs => h'.snaps (h.snaps hs)⟩

theorem Beside.kept {Φ : PoolKey → Conn σ → Prop} {s s' : Session σ κ} {c : Core σ}
    (h : s.Beside c s') (ht : s.world.Tidy Φ) : s.Kept Φ s' :=
  ⟨h.params, h.startup, h.interceptor, h.world ▸ ht, fun hs => h.world ▸ hs⟩

theorem Kept.refl {Φ : PoolKey → Conn σ → Prop} {s : Session σ κ} (ht : s.world.Tidy Φ) :
    s.Kept Φ s := ⟨rfl, rfl, rfl, ht, id⟩

theorem replayGucs_dirty (u : Upstream σ) (gucs : List (Σ _ : String, String)) (c : Conn σ) :
    (replayGucs u gucs c true).1 = true := by
  induction gucs generalizing c with
  | nil => rfl
  | cons g gucs ih =>
      rw [replayGucs]
      split
      · exact ih c
      · split
        · rfl
        · exact ih _

theorem prepare_spec (env : Env σ) (s : Session σ κ) (conn : Conn σ) :
    ∃ dirty, (s.leaseDirty = true → dirty = true) ∧
      s.Beside { s.toCore with leaseDirty := dirty } (s.prepare env conn).1 ∧
      ∀ conn', (s.prepare env conn).2 = .ok conn' →
        Prepared env.upstream s.startupParameters s.toCore s.leaseDirty conn conn' dirty := by
  unfold prepare
  split
  · exact ⟨s.leaseDirty, id, .refl s, fun _ h => by cases h⟩
  case h_2 c₁ h₁ =>
    have hmono : s.leaseDirty = true →
        (replayGucs env.upstream s.gucOverrides.entries c₁ s.leaseDirty).1 = true := by
      intro h
      rw [h]
      exact replayGucs_dirty _ _ _
    split
    case h_1 d _ h₂ =>
      rw [h₂] at hmono
      exact ⟨d, hmono, ⟨rfl, rfl, rfl, rfl, rfl⟩, fun _ h => by cases h⟩
    case h_2 d c₂ h₂ =>
      rw [h₂] at hmono
      split
      · exact ⟨d, hmono, ⟨rfl, rfl, rfl, rfl, rfl⟩, fun _ h => by cases h⟩
      case h_2 c₃ h₃ =>
        refine ⟨d || !s.registry.entries.isEmpty, fun h => by simp [show d = true from hmono h],
          ⟨rfl, rfl, rfl, rfl, rfl⟩, fun conn' h => ?_⟩
        cases h
        exact ⟨c₁, c₂, d, h₁, h₂, h₃, rfl⟩

theorem sendAttachFatal_spec (s : Session σ κ) (message : String) :
    ∃ info es, es <+: s.toCore.answers [.errorResponse info] ∧
      s.Beside (s.toCore.emit es) (s.sendAttachFatal message) := by
  unfold sendAttachFatal
  rcases write_spec s true s.origin
    (.errorResponse { severity := "FATAL", code := "08006", message := message }) with h | ⟨_, h⟩
  · refine ⟨{ severity := "FATAL", code := "08006", message := message }, [], List.nil_prefix, ?_⟩
    simpa [h, Core.emit] using Beside.refl s
  · exact ⟨_, _, List.prefix_refl _, h⟩

/-- The outcome of the attempts of `ensure_attached`. -/
structure AttachSpec (env : Env σ) (Φ : PoolKey → Conn σ → Prop) (s : Session σ κ)
    (r : Session σ κ × Bool) : Prop where
  kept : s.Kept Φ r.1
  attaches : r.2 = true → Attaches env Φ s.params s.startupParameters s.toCore r.1.toCore
  fails : r.2 = false → AttachFails s.toCore r.1.toCore

/-- A failed attempt only raises the dirty flag. -/
theorem attaches_of_dirty {env : Env σ} {Φ : PoolKey → Conn σ → Prop} {params : SessionParams}
    {startup : Params} {c d : Core σ} {dirty : Bool} (hd : c.leaseDirty = true → dirty = true)
    (hnone : c.lease = none)
    (h : Attaches env Φ params startup { c with leaseDirty := dirty } d) :
    Attaches env Φ params startup c d := by
  cases h with
  | held lease hl => rw [show c.lease = some lease from hl] at hnone; cases hnone
  | leased endpoint dirty₀ base lease dirty' _ hdirty hpool hbase hprep =>
      exact .leased endpoint dirty₀ base lease dirty' hnone (fun h => hdirty (hd h)) hpool hbase
        hprep

theorem attachFails_of_dirty {c d : Core σ} {dirty : Bool}
    (h : AttachFails { c with leaseDirty := dirty } d) : AttachFails c d := by
  cases h with
  | intro dirty' info es hnone hes => exact .intro dirty' info es hnone hes

/-- What failed attempts leave of `s`: the dirty flag may have been raised. -/
structure Retried (Φ : PoolKey → Conn σ → Prop) (s t : Session σ κ) : Prop where
  kept : s.Kept Φ t
  core : ∃ dirty, (s.leaseDirty = true → dirty = true) ∧
    t.toCore = { s.toCore with leaseDirty := dirty }

theorem Retried.trans {Φ : PoolKey → Conn σ → Prop} {s t t' : Session σ κ} (h : Retried Φ s t)
    (h' : Retried Φ t t') : Retried Φ s t' := by
  obtain ⟨dirty, hd, hc⟩ := h.core
  obtain ⟨dirty', hd', hc'⟩ := h'.core
  rw [hc] at hc' hd'
  exact ⟨h.kept.trans h'.kept, dirty', fun hs => hd' (hd hs), hc'⟩

theorem Retried.lease {Φ : PoolKey → Conn σ → Prop} {s t : Session σ κ} (h : Retried Φ s t) :
    t.lease = s.lease := by
  obtain ⟨_, _, hc⟩ := h.core
  rw [hc]

/-- A hook may be told something. -/
theorem Retried.of_beside {Φ : PoolKey → Conn σ → Prop} {s t : Session σ κ}
    (hb : s.Beside s.toCore t) (ht : s.world.Tidy Φ) : Retried Φ s t :=
  ⟨hb.kept ht, s.leaseDirty, id, hb.core⟩

theorem AttachSpec.retry {env : Env σ} {Φ : PoolKey → Conn σ → Prop} {s t : Session σ κ}
    {r : Session σ κ × Bool} (hnone : s.lease = none) (h : Retried Φ s t)
    (hr : AttachSpec env Φ t r) : AttachSpec env Φ s r := by
  obtain ⟨dirty, hd, hc⟩ := h.core
  obtain ⟨h1, h2, h3⟩ := hr
  rw [h.kept.params, h.kept.startup, hc] at h2
  rw [hc] at h3
  exact ⟨h.kept.trans h1, fun hr => attaches_of_dirty hd hnone (h2 hr),
    fun hr => attachFails_of_dirty (h3 hr)⟩

theorem AttachSpec.fatal {env : Env σ} {Φ : PoolKey → Conn σ → Prop} {s : Session σ κ}
    (hnone : s.lease = none) (ht : s.world.Tidy Φ) (message : String) :
    AttachSpec env Φ s (s.sendAttachFatal message, false) := by
  obtain ⟨info, es, hes, hb⟩ := sendAttachFatal_spec s message
  refine ⟨hb.kept ht, nofun, fun _ => ?_⟩
  rw [hb.core]
  exact .intro s.leaseDirty info es hnone hes

/-- Failed attempts that have left `t` may be followed by the last message to the client. -/
theorem Retried.fatal {env : Env σ} {Φ : PoolKey → Conn σ → Prop} {s t : Session σ κ}
    (hnone : s.lease = none) (h : Retried Φ s t) (message : String) :
    AttachSpec env Φ s (t.sendAttachFatal message, false) :=
  .retry hnone h (.fatal (h.lease.trans hnone) h.kept.tidy message)

/-- An attempt attaches the session, or leaves it to the next one. -/
theorem attempt_spec {env : Env σ} {Φ : PoolKey → Conn σ → Prop}
    (hu : ProbeKeeps env.upstream Φ) (sqlHint : Option String) {s : Session σ κ}
    (hnone : s.lease = none) (ht : s.world.Tidy Φ) :
    (s.attempt env sqlHint).Post (fun t => AttachSpec env Φ s (t, true)) (Retried Φ s)
      fun t _ => Retried Φ s t := by
  have hroute := Retried.of_beside (dispatchUpstream_beside env s sqlHint) ht
  have htries := attempt_tries env sqlHint s
  generalize (s.dispatchUpstream env sqlHint).1 = s₁ at hroute htries
  generalize s.attempt env sqlHint = outcome at htries
  have hfailed : ∀ (t : Session σ κ) (error : UpstreamError) (message : String),
      Retried Φ s₁ t → (t.afterFailure error message).Post (fun t => AttachSpec env Φ s (t, true))
        (Retried Φ s) fun t _ => Retried Φ s t := by
    intro t error message h
    have hasked : Retried Φ s (t.dispatchOnUpstreamError error).1 :=
      (hroute.trans h).trans (.of_beside (dispatchOnUpstreamError_beside t error).1 h.kept.tidy)
    exact afterFailure_post hasked hasked
  have hkept : ∀ {key world} {r : Except String (UpstreamLease σ)},
      s₁.world.checkout env.upstream key = (world, r) →
      s₁.Kept Φ { s₁ with world := world } := by
    intro key world r hout
    obtain ⟨htidy, -⟩ := hroute.kept.tidy.checkout hu key
    have hsnaps := s₁.world.checkout_snapshots env.upstream key
    rw [hout] at htidy hsnaps
    exact ⟨rfl, rfl, rfl, htidy, fun hs => hs.congr hsnaps⟩
  cases htries with
  | unknown message => exact hroute
  | refused endpoint world _ _ _ _ hout =>
      exact hfailed _ _ _ ⟨hkept hout, s₁.leaseDirty, id, rfl⟩
  | unprepared endpoint world lease t' _ _ _ _ hout hprep =>
      obtain ⟨dirty, hdirty, hb, -⟩ := prepare_spec env { s₁ with world := world } lease.conn
      rw [hprep] at hb
      have hk := (hkept hout).trans (hb.kept (hkept hout).tidy)
      exact hfailed _ _ _ ⟨⟨hk.params, hk.startup, hk.interceptor, hk.tidy.destroy lease,
        fun hs => (hk.snaps hs).congr (World.destroy_snapshots _ lease)⟩, dirty, hdirty, hb.core⟩
  | attached endpoint world lease t' conn _ hout hprep =>
      have hk := hkept hout
      obtain ⟨-, hlease⟩ := hroute.kept.tidy.checkout hu (env.poolKey s₁.params endpoint.id)
      obtain ⟨dirty, -, hb, hready⟩ := prepare_spec env { s₁ with world := world } lease.conn
      rw [hout] at hlease
      rw [hprep] at hb hready
      obtain ⟨hpool, hbase⟩ := hlease lease rfl
      have hcon := dispatchOnUpstreamConnected_beside t' endpoint.id
      have hall := hk.trans ((hb.trans hcon).kept hk.tidy)
      have hnone₁ : s₁.lease = none := hroute.lease.trans hnone
      refine .retry hnone hroute ⟨⟨hall.params, hall.startup, hall.interceptor, hall.tidy,
        hall.snaps⟩, fun _ => ?_, nofun⟩
      have hattach : Attaches env Φ s₁.params s₁.startupParameters s₁.toCore _ :=
        .leased endpoint.id s₁.leaseDirty lease.conn { lease with conn := conn } dirty hnone₁
          id hpool (hpool ▸ hbase) (hready conn rfl)
      have hcore : t'.toCore = { s₁.toCore with leaseDirty := dirty } := hb.core
      convert hattach using 1
      simp only [attachedTo, Core.leased, hpool, Env.poolKey, hcon.core, hcore]

theorem attachAttempts_spec {env : Env σ} {Φ : PoolKey → Conn σ → Prop}
    (hu : ProbeKeeps env.upstream Φ) (sqlHint : Option String) (n : Nat) (s : Session σ κ)
    (hnone : s.lease = none) (ht : s.world.Tidy Φ) :
    AttachSpec env Φ s (attachAttempts env sqlHint n s) := by
  refine attachAttempts_rule (P := Retried Φ s) (Q := fun t ok => AttachSpec env Φ s (t, ok))
    (fun t h => ?_) (fun t message h => h.fatal hnone message) n s (.of_beside (.refl s) ht)
  exact (attempt_spec hu sqlHint (h.lease.trans hnone) h.kept.tidy).mono
    (fun _ h' => .retry hnone h h') (fun _ h' => h.trans h')
    fun _ message h' => (h.trans h').fatal hnone message

theorem ensureAttached_spec {env : Env σ} {Φ : PoolKey → Conn σ → Prop}
    (hu : ProbeKeeps env.upstream Φ) (sqlHint : Option String) (s : Session σ κ)
    (ht : s.world.Tidy Φ) : AttachSpec env Φ s (s.ensureAttached env sqlHint) := by
  unfold ensureAttached
  cases hl : s.lease with
  | none => exact attachAttempts_spec hu sqlHint _ s hl ht
  | some lease => exact ⟨.refl ht, fun _ => .held lease hl, nofun⟩

/-! ## Scatter -/

theorem partitionLegs_mem {endpoint : Option String} {leased : Bool} {legs : List ScatterLeg}
    {leg : ScatterLeg} (h : (partitionLegs endpoint leased legs).1 = some leg) :
    leg ∈ legs ∧ endpoint = some leg.endpoint := by
  induction legs with
  | nil => simp [partitionLegs] at h
  | cons l legs ih =>
      rw [partitionLegs] at h
      split at h
      case isTrue hc =>
        simp only [Option.some.injEq] at h
        subst h
        simp only [Bool.and_eq_true, decide_eq_true_eq] at hc
        exact ⟨List.mem_cons_self, hc.2⟩
      case isFalse =>
        obtain ⟨hm, he⟩ := ih h
        exact ⟨List.mem_cons_of_mem _ hm, he⟩

theorem partitionLegs_subset (endpoint : Option String) (leased : Bool) (legs : List ScatterLeg) :
    (partitionLegs endpoint leased legs).2 ⊆ legs := by
  induction legs with
  | nil => exact List.Subset.refl _
  | cons l legs ih =>
      rw [partitionLegs]
      split
      · exact List.subset_cons_self _ _
      · exact List.cons_subset_cons _ ih

theorem completionOrder_subset (legs : List ScatterLeg) (completion : List Nat) :
    completionOrder legs completion ⊆ legs := by
  intro leg h
  obtain ⟨i, _, hi⟩ := List.mem_filterMap.mp h
  exact List.mem_of_getElem? hi

/-- How a scatter ends once its legs have run up to the state `c`. -/
inductive Merged (c : Core σ) (broken : Bool) (s : Session σ κ) : ScatterResult → Prop
  | ok (rows : Nat) (ms : List BackendMessage) (hb : broken = false)
      (hms : ∀ x ∈ ms, x.isResult = true) (h : s.toCore = c.emit (c.answers ms)) :
      Merged c broken s (.ok rows)
  | failed (failure : ScatterFailure) (hb : failure.sessionLeaseBroken = broken)
      (h : s.toCore = c) : Merged c broken s (.failed failure)
  /-- The client went away during the merge. -/
  | gone (failure : ScatterFailure) (ms : List BackendMessage) (pre : List Entry)
      (hb : broken = false) (hf : failure.sessionLeaseBroken = false)
      (hms : ∀ x ∈ ms, x.isResult = true)
      (hpre : pre <+: c.answers ms) (h : s.toCore = c.emit pre) (hs : s.sendsLeft = 0) :
      Merged c broken s (.failed failure)
  | panicked (hb : broken = false) (h : s.toCore = c) : Merged c broken s .panicked

theorem writeAll_false (s : Session σ κ) (ms : List BackendMessage)
    (h : (s.writeAll ms).2 = false) : (s.writeAll ms).1.sendsLeft = 0 := by
  induction ms generalizing s with
  | nil => simp [writeAll] at h
  | cons m ms ih =>
      rw [writeAll] at h ⊢
      cases hw : s.write true s.origin m with
      | mk s' ok =>
          rw [hw] at h
          cases ok with
          | true => exact ih _ h
          | false =>
              unfold write at hw
              split at hw
              case h_1 h0 =>
                cases hw
                exact h0
              case h_2 => simp at hw

theorem writeMerged_spec (env : Env σ) {Φ : PoolKey → Conn σ → Prop} (s : Session σ κ)
    (request : ScatterRequest) (sources : List BackendMessage) (total : Nat)
    (outcomes : List (LegOutcome σ)) (ht : s.world.Tidy Φ)
    (ho : ∀ o ∈ outcomes, o.Returns env.upstream Φ) :
    s.Kept Φ (s.writeMerged env request sources total outcomes).1 ∧
      Merged s.toCore false (s.writeMerged env request sources total outcomes).1
        (s.writeMerged env request sources total outcomes).2 := by
  have habandon := World.abandonLegs_snapshots outcomes s.world
  unfold writeMerged
  split
  case h_1 =>
    exact ⟨⟨rfl, rfl, rfl, ht.abandonLegs _, fun hs => hs.congr habandon⟩, .panicked rfl rfl⟩
  case h_2 failure hm =>
    refine ⟨⟨rfl, rfl, rfl, ht.abandonLegs _, fun hs => hs.congr habandon⟩, .failed failure ?_ rfl⟩
    unfold mergeLegs at hm
    split at hm
    · simp at hm
    · split at hm
      · simp at hm
      · simp only [Option.some.injEq, Except.error.injEq] at hm
        rw [← hm]
        rfl
      · simp at hm
  case h_3 ms rows hm =>
    have hms := mergeLegs_isResult hm
    obtain ⟨pre, hpre, hb, hall⟩ := writeAll_spec s ms
    have h0 := writeAll_false s ms
    split
    case h_1 s' heq =>
      rw [heq] at hb h0
      rw [← hb.world] at habandon
      exact ⟨⟨hb.params, hb.startup, hb.interceptor, (hb.world ▸ ht).abandonLegs _,
        fun hs => hs.congr (habandon.trans (congrArg _ hb.world))⟩,
        .gone _ ms pre rfl rfl hms hpre hb.core (h0 rfl)⟩
    case h_2 s' heq =>
      rw [heq] at hb hall
      refine ⟨⟨hb.params, hb.startup, hb.interceptor, (hb.world ▸ ht).checkinLegs _ ho,
        fun hs => (hb.world ▸ hs).checkinLegs _ ho⟩,
        .ok _ ms rfl hms ?_⟩
      rw [← hall rfl]
      exact hb.core

theorem executeScatter_spec {env : Env σ} {Φ : PoolKey → Conn σ → Prop}
    (hp : ProbeKeeps env.upstream Φ) (s : Session σ κ)
    (request : ScatterRequest)
    (hl : ∀ leg ∈ request.legs, LegKeeps env.upstream Φ s.startupParameters leg.sql)
    (ht : s.world.Tidy Φ) (t : Timing) :
    s.Kept Φ (s.executeScatter env request t).1 ∧
      ∃ c broken, Scattered env.upstream s.toCore request c broken ∧
        Merged c broken (s.executeScatter env request t).1
          (s.executeScatter env request t).2 := by
  unfold executeScatter
  split
  · exact ⟨.refl ht, s.toCore, false, .pooled, .failed _ rfl rfl⟩
  · dsimp only
    obtain ⟨htidy, hret⟩ := World.Tidy.runLegs hp
      (fun leg : ScatterLeg => env.poolKey s.params leg.endpoint)
      (completionOrder (partitionLegs s.currentEndpoint s.lease.isSome request.legs).2
        t.completion)
      (fun leg hleg => hl leg (partitionLegs_subset _ _ _ (completionOrder_subset _ _ hleg)))
      { world := s.world, outcomes := [], firstError := none, aborted := [] } ht (by simp)
    have hsnaps := World.runLegs_snapshots (u := env.upstream)
      (fun leg : ScatterLeg => env.poolKey s.params leg.endpoint) s.startupParameters
      (completionOrder (partitionLegs s.currentEndpoint s.lease.isSome request.legs).2
        t.completion)
      { world := s.world, outcomes := [], firstError := none, aborted := [] }
    generalize runLegs env.upstream (fun leg : ScatterLeg => env.poolKey s.params leg.endpoint)
      s.startupParameters _ _ = ran at htidy hret hsnaps
    have hran : s.Kept Φ { s with world := ran.world } :=
      ⟨rfl, rfl, rfl, htidy, fun hs => hs.congr hsnaps⟩
    split
    · refine ⟨⟨rfl, rfl, rfl, ?_, fun hs => ?_⟩, s.toCore, false, .pooled, .failed _ rfl rfl⟩
      · exact (World.Tidy.abortLegs hp _ _ _ htidy).checkinLegs _ hret
      · exact ((hran.snaps hs).congr (World.abortLegs_snapshots _ _ _ _)).checkinLegs _ hret
    · cases hleg : (partitionLegs s.currentEndpoint s.lease.isSome request.legs).1 with
      | none =>
          obtain ⟨hk, hm⟩ := writeMerged_spec env { s with world := ran.world } request
            (ran.outcomes.flatMap LegOutcome.messages) (ran.outcomes.map LegOutcome.rows).sum
            ran.outcomes htidy hret
          exact ⟨hran.trans hk, s.toCore, false, .pooled, hm⟩
      | some leg =>
          obtain ⟨hmem, hep⟩ := partitionLegs_mem hleg
          cases hlease : s.lease with
          | none =>
              obtain ⟨hk, hm⟩ := writeMerged_spec env { s with world := ran.world } request
                (ran.outcomes.flatMap LegOutcome.messages) (ran.outcomes.map LegOutcome.rows).sum
                ran.outcomes htidy hret
              simp only [runSessionLeg, hlease]
              exact ⟨hran.trans hk, s.toCore, false, .pooled, hm⟩
          | some lease =>
              have hsc : Scattered env.upstream s.toCore request _ _ :=
                .leg lease leg hlease hmem hep
              simp only [runSessionLeg, hlease]
              split
              case isTrue hb =>
                exact ⟨⟨rfl, rfl, rfl, htidy.abandonLegs _,
                  fun hs => (hran.snaps hs).congr (World.abandonLegs_snapshots _ _)⟩, _, _, hsc,
                  .failed _ hb.symm rfl⟩
              case isFalse hb =>
                rw [Bool.not_eq_true] at hb
                rw [hb] at hsc
                split
                · exact ⟨⟨rfl, rfl, rfl, htidy.checkinLegs _ hret,
                    fun hs => (hran.snaps hs).checkinLegs _ hret⟩, _, _, hsc, .failed _ rfl rfl⟩
                · obtain ⟨hk, hm⟩ := writeMerged_spec env
                    { s with
                      world := ran.world
                      toCore := s.toCore.ranLeg env.upstream lease leg } request
                    ((runQueryCollect env.upstream lease.conn leg.sql).messages ++
                      ran.outcomes.flatMap LegOutcome.messages)
                    ((runQueryCollect env.upstream lease.conn leg.sql).rows +
                      (ran.outcomes.map LegOutcome.rows).sum) ran.outcomes htidy hret
                  exact ⟨⟨hk.params, hk.startup, hk.interceptor, hk.tidy,
                    fun hs => hk.snaps (hran.snaps hs)⟩, _, _, hsc, hm⟩

end Session

end Pgferry
