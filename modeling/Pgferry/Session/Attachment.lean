/-
  The attachment bookkeeping of the pump: `current_endpoint` and `SessionInfo.attached` next to
  the lease.

  A failed scatter forgets the endpoint and the flag also when it keeps the lease, and a pump in
  session mode starts with the first endpoint of the route whatever endpoint the initial attach
  was routed to. Both leave a lease with a wrong endpoint.

  Proved: `attachment_coherent`, apart from these two the bookkeeping is right in every state of
  every run, so scatter legs run on the lease of their own endpoint and losses name the endpoint
  that was lost.
-/
import Pgferry.Session.Frames
import Pgferry.Session.Runs

namespace Pgferry

open Loop

variable {σ κ : Type}

/-- The endpoint is the one whose pool issued the lease, and the flag says whether there is
    one. -/
structure Core.Coherent (c : Core σ) : Prop where
  endpoint : ∀ lease, c.lease = some lease → c.currentEndpoint = some lease.pool.endpoint
  attached : c.attached = c.lease.isSome

/-- A leg on the lease belongs to the lease's endpoint and a loss names the lost endpoint. -/
def Entry.Honest : Entry → Prop
  | .lost endpoint reported _ => reported = endpoint
  | .sessionLeg leg endpoint => leg = endpoint
  | _ => True

/-- The bookkeeping is right as long as the pump runs, and all it did was based on it. -/
structure Core.Attachment (c : Core σ) : Prop where
  coherent : c.ended = none → c.Coherent
  honest : ∀ x ∈ c.log, x.Honest

/-- In session mode, the initial attach leases a connection of the route's first endpoint. -/
def Launch.AttachesFirst (env : Env σ) (l : Launch σ κ) : Prop :=
  env.transactionMode = false → ∀ lease, (l.new.ensureAttached env none).1.lease = some lease →
    lease.pool.endpoint = (env.route.endpoints.head?.map EndpointConfig.id).getD ""

/-- A scatter that fails while the session holds a lease has broken that lease. -/
def Session.ScatterBreaks (env : Env σ) (s : Session σ κ) : Event → Prop
  | .client m t => ∀ input request failure, cycleInputOf m = some input →
      Asks s.interceptor input (.scatter request) →
      ScatterFails env s ((s.toCore.recv m).note m) input.kind request t failure →
      s.lease ≠ none → failure.sessionLeaseBroken = true
  | _ => True

/-! ## Steps -/

namespace Core

theorem answers_honest (c : Core σ) (ms : List BackendMessage) :
    ∀ x ∈ c.answers ms, x.Honest := by
  intro x hx
  obtain ⟨m, _, rfl⟩ := List.mem_map.mp hx
  trivial

theorem honest_append {xs ys : List Entry} (hx : ∀ x ∈ xs, x.Honest) (hy : ∀ y ∈ ys, y.Honest) :
    ∀ x ∈ xs ++ ys, x.Honest :=
  fun x h => (List.mem_append.mp h).elim (hx x) (hy x)

theorem honest_concat {xs : List Entry} {y : Entry} (hx : ∀ x ∈ xs, x.Honest) (hy : y.Honest) :
    ∀ x ∈ xs ++ [y], x.Honest :=
  honest_append hx fun _ h => List.mem_singleton.mp h ▸ hy

/-- Only the lease, the endpoint and the flag count. -/
theorem Coherent.congr {c d : Core σ} (h : c.Coherent) (hl : d.lease = c.lease)
    (he : d.currentEndpoint = c.currentEndpoint) (ha : d.attached = c.attached) :
    d.Coherent := by
  refine ⟨fun lease hlease => ?_, ?_⟩
  · rw [he]
    exact h.endpoint lease (hl ▸ hlease)
  · rw [ha, hl]
    exact h.attached

theorem coherent_of_none {c : Core σ} (hl : c.lease = none) (ha : c.attached = false) :
    c.Coherent := by
  refine ⟨fun lease h => ?_, by rw [ha, hl]; rfl⟩
  rw [hl] at h
  cases h

/-- A write to the client adds answers only. -/
theorem Attachment.said {c c₀ d : Core σ} {ms : List BackendMessage} {f : Core σ → Core σ}
    (h : Said c (c₀.answers ms) f d) (hlog : ∀ x ∈ c.log, x.Honest)
    (hf : (f (c.emit (c₀.answers ms))).log = c.log ++ c₀.answers ms)
    (hc : (f (c.emit (c₀.answers ms))).Coherent) : d.Attachment := by
  cases h with
  | done => exact ⟨fun _ => hc, hf ▸ honest_append hlog (c₀.answers_honest ms)⟩
  | cut pre endpoint attached hpre =>
      refine ⟨nofun, honest_append hlog fun x hx => ?_⟩
      exact c₀.answers_honest ms x (hpre.subset hx)

/-- A message was read from the client. -/
theorem Attachment.recv {c : Core σ} (h : c.Attachment) (he : c.ended = none)
    (m : FrontendMessage) :
    (c.recv m).Coherent ∧ ∀ x ∈ (c.recv m).log, x.Honest :=
  ⟨(h.coherent he).congr rfl rfl rfl, honest_concat h.honest trivial⟩

theorem note_fields (c : Core σ) (m : FrontendMessage) :
    (c.note m).lease = c.lease ∧ (c.note m).currentEndpoint = c.currentEndpoint ∧
      (c.note m).attached = c.attached ∧ (c.note m).log = c.log := by
  unfold note
  split <;> exact ⟨rfl, rfl, rfl, rfl⟩

section Steps

variable {env : Env σ} {i : Option (Interceptor κ)} {Φ : PoolKey → Conn σ → Prop}
  {s : Session σ κ}

/-- A leg on the session's lease was chosen by the endpoint. -/
theorem scattered_attachment {c d : Core σ} {request : ScatterRequest} {broken : Bool}
    (h : Scattered env.upstream c request d broken) (hc : c.Coherent)
    (hlog : ∀ x ∈ c.log, x.Honest) : d.Coherent ∧ ∀ x ∈ d.log, x.Honest := by
  cases h with
  | pooled => exact ⟨hc, hlog⟩
  | leg lease leg hlease hleg hep =>
      have hend := hc.endpoint lease hlease
      refine ⟨⟨fun l hl => ?_, ?_⟩, honest_concat hlog ?_⟩
      · cases hl
        exact hend
      · rw [show (c.ranLeg env.upstream lease leg).attached = c.attached from rfl, hc.attached,
          hlease]
        rfl
      · rw [hep] at hend
        exact Option.some.inj hend

theorem scattered_lease_none {c d : Core σ} {request : ScatterRequest} {broken : Bool}
    (h : Scattered env.upstream c request d broken) (hl : c.lease = none) : d.lease = none := by
  cases h with
  | pooled => exact hl
  | leg lease leg hlease => rw [hl] at hlease; cases hlease

theorem answered_attachment {m : FrontendMessage} {t : Timing} {d : Core σ}
    (hi : s.interceptor = i) (hinv : s.toCore.Attachment) (he : s.ended = none)
    (hok : s.ScatterBreaks env (.client m t))
    (h : Answered env i s (s.toCore.recv m) m t d) : d.Attachment := by
  obtain ⟨hc, hlog⟩ := hinv.recv he m
  obtain ⟨n1, n2, n3, n4⟩ := (s.toCore.recv m).note_fields m
  have hnote : ((s.toCore.recv m).note m).Coherent := hc.congr n1 n2 n3
  have hlogn : ∀ x ∈ ((s.toCore.recv m).note m).log, x.Honest := n4 ▸ hlog
  cases h with
  | quit => exact ⟨nofun, hlog⟩
  | closed => exact ⟨nofun, hlogn⟩
  | swallowed | localFlush => exact ⟨fun _ => hc, hlog⟩
  | resumed _ _ _ h => exact .said h hlog rfl (hc.congr rfl rfl rfl)
  | localSync _ _ _ _ _ h => exact .said h hlog rfl (hc.congr rfl rfl rfl)
  | localClose _ _ _ _ _ _ _ h => exact .said h hlog rfl (hc.congr rfl rfl rfl)
  | deniedSimple _ _ _ _ _ _ _ h => exact .said h hlogn rfl (hnote.congr rfl rfl rfl)
  | deniedExtended _ _ _ _ _ _ _ h => exact .said h hlogn rfl (hnote.congr rfl rfl rfl)
  | repliedSimple _ _ _ _ _ _ _ h => exact .said h hlogn rfl (hnote.congr rfl rfl rfl)
  | repliedExtended _ _ _ _ _ _ _ h => exact .said h hlogn rfl (hnote.congr rfl rfl rfl)
  | reparsed _ _ _ _ _ _ _ _ _ _ h => exact .said h hlogn rfl (hnote.congr rfl rfl rfl)
  | duplicate _ _ _ _ _ _ _ _ _ _ _ h => exact .said h hlogn rfl (hnote.congr rfl rfl rfl)
  | scatterOk _ _ _ _ _ _ _ _ _ _ hr _ h =>
      obtain ⟨hc₁, hlog₁⟩ := scattered_attachment hr hnote hlogn
      exact .said h hlog₁ rfl (hc₁.congr rfl rfl rfl)
  | scatterPanicked _ _ _ _ _ _ _ hr => exact ⟨nofun, (scattered_attachment hr hnote hlogn).2⟩
  | scatterRefused input request info _ _ hin ha hr h =>
      have hnone : s.lease = none := by
        by_contra hl
        exact absurd (hok input request _ hin (hi ▸ ha) (.inl ⟨info, hr, rfl⟩) hl)
          Bool.false_ne_true
      exact .said h hlogn rfl (coherent_of_none (n1.trans hnone) rfl)
  | scatterFailed input request failure c₁ _ _ hin ha _ hf hr h =>
      obtain ⟨hc₁, hlog₁⟩ := scattered_attachment hr hnote hlogn
      have hbroken : s.lease ≠ none → failure.sessionLeaseBroken = true :=
        hok input request failure hin (hi ▸ ha) hf
      have hnone : (c₁.scatterLost failure.sessionLeaseBroken).lease = none := by
        unfold scatterLost
        split
        case isTrue => rfl
        case isFalse hb =>
          show c₁.lease = none
          refine scattered_lease_none hr (n1.trans ?_)
          by_contra hl
          exact hb (hbroken hl)
      refine .said h ?_ rfl (coherent_of_none hnone rfl)
      unfold scatterLost
      split <;> exact hlog₁

theorem lost_attachment {c d : Core σ} {lease : UpstreamLease σ} {reason : String} {synth : Bool}
    (hc : c.Coherent) (hlog : ∀ x ∈ c.log, x.Honest) (hlease : c.lease = some lease)
    (h : Lost i c lease reason synth d) : d.Attachment := by
  have hentry : ∀ decision, (c.lostEntry lease decision).Honest := by
    intro decision
    show c.currentEndpoint.getD "" = lease.pool.endpoint
    rw [hc.endpoint lease hlease]
    rfl
  cases h with
  | closed => exact ⟨nofun, honest_concat hlog (hentry _)⟩
  | silent => exact ⟨fun _ => coherent_of_none rfl rfl, honest_concat hlog (hentry _)⟩
  | simple _ _ _ h =>
      exact .said h (honest_concat hlog (hentry _)) rfl (coherent_of_none rfl rfl)
  | extended _ _ _ h =>
      exact .said h (honest_concat hlog (hentry _)) rfl (coherent_of_none rfl rfl)

theorem attaches_attachment {params : SessionParams} {startup : Params} {c d : Core σ}
    (h : Attaches env Φ params startup c d) (hc : c.Coherent) (hlog : ∀ x ∈ c.log, x.Honest) :
    d.lease ≠ none ∧ (∀ lease, d.lease = some lease → d.currentEndpoint =
      some lease.pool.endpoint) ∧ ∀ x ∈ d.log, x.Honest := by
  cases h with
  | held lease hl => exact ⟨by rw [hl]; nofun, hc.endpoint, hlog⟩
  | leased =>
      refine ⟨nofun, fun l hl => ?_, honest_concat hlog trivial⟩
      cases hl
      rfl

theorem register_fields (c : Core σ) (p : Session.PendingParse) :
    (c.register p).lease = c.lease ∧ (c.register p).currentEndpoint = c.currentEndpoint ∧
      (c.register p).attached = true ∧ (c.register p).log = c.log := by
  cases p <;> exact ⟨rfl, rfl, rfl, rfl⟩

theorem enters_attachment {m m' : FrontendMessage} {c d : Core σ} (hc : c.Coherent)
    (hlog : ∀ x ∈ c.log, x.Honest) (h : Enters env i Φ s c m m' d) :
    d.Coherent ∧ ∀ x ∈ d.log, x.Honest := by
  obtain ⟨n1, n2, n3, n4⟩ := c.note_fields m
  obtain ⟨c₁, hatt, rfl⟩ := h.attaches
  obtain ⟨hsome, hend, hlog₁⟩ := attaches_attachment hatt (hc.congr n1 n2 n3) (n4 ▸ hlog)
  obtain ⟨r1, r2, r3, r4⟩ := c₁.register_fields (pendingParse m')
  refine ⟨⟨fun lease hl => ?_, ?_⟩, r4 ▸ hlog₁⟩
  · rw [r2]
    exact hend lease (r1 ▸ hl)
  · rw [r1, r3]
    exact (Option.isSome_iff_ne_none.mpr hsome).symm

theorem await_fields (c : Core σ) (m : FrontendMessage) :
    (c.await m).lease = c.lease ∧ (c.await m).currentEndpoint = c.currentEndpoint ∧
      (c.await m).attached = c.attached ∧ (c.await m).log = c.log := by
  unfold await
  split <;> exact ⟨rfl, rfl, rfl, rfl⟩

theorem put_attachment {c : Core σ} {lease : UpstreamLease σ} {m : FrontendMessage}
    (hc : c.Coherent) (hlog : ∀ x ∈ c.log, x.Honest) (hlease : c.lease = some lease) :
    (c.put env.upstream lease m).Attachment := by
  refine ⟨fun _ => ⟨fun l hl => ?_, ?_⟩, honest_concat hlog trivial⟩
  · cases hl
    exact hc.endpoint lease hlease
  · exact hc.attached.trans (by rw [hlease]; rfl)

/-- Reading keeps the pool of the lease. -/
theorem readNext_attachment {tm : Bool} {c d : Core σ} {o : Origin} {m : BackendMessage}
    (hc : c.Coherent) (hlog : ∀ x ∈ c.log, x.Honest) (h : c.readNext tm = some (o, m, d)) :
    d.Coherent ∧ ∀ x ∈ d.log, x.Honest := by
  obtain ⟨lease, rest, hlease, _, frame, _, hd⟩ := readNext_spec h
  refine ⟨⟨fun l hl => ?_, ?_⟩, frame.log ▸ hlog⟩
  · rw [frame.currentEndpoint, hc.endpoint lease hlease]
    rw [hd] at hl
    cases hl
    rfl
  · rw [frame.attached, hc.attached, hlease, hd]
    rfl

theorem afterReady_attachment {tm : Bool} {c : Core σ} (h : c.Attachment) :
    (c.afterReady tm).Attachment := by
  unfold afterReady
  split
  · exact ⟨nofun, h.honest⟩
  · split
    · split
      · exact ⟨fun _ => coherent_of_none rfl rfl, honest_concat h.honest trivial⟩
      · exact h
    · exact h

/-- One iteration keeps the bookkeeping right. -/
theorem steps_attachment {e : Event} {d : Core σ} (hi : s.interceptor = i)
    (hinv : s.toCore.Attachment) (he : s.ended = none) (hok : s.ScatterBreaks env e)
    (h : Steps env i Φ s e d) : d.Attachment := by
  have hc := hinv.coherent he
  cases h with
  | answered m t _ h => exact answered_attachment hi hinv he hok h
  | attachFailed m m' t d' hp hf h =>
      obtain ⟨hc', hlog'⟩ := hinv.recv he m
      obtain ⟨_, _, _, n4⟩ := (s.toCore.recv m).note_fields m
      cases h with
      | intro dirty info es _ hes =>
          refine ⟨nofun, honest_append (n4 ▸ hlog') fun x hx => ?_⟩
          exact answers_honest _ _ x (hes.subset hx)
  | hookReplied m m' m'' t ms c _ hent hh h =>
      obtain ⟨hc', hlog'⟩ := hinv.recv he m
      obtain ⟨hc₁, hlog₁⟩ := enters_attachment hc' hlog' hent
      exact .said h hlog₁ rfl (hc₁.congr rfl rfl rfl)
  | hookStopped m m' m'' t action c hent =>
      obtain ⟨hc', hlog'⟩ := hinv.recv he m
      exact ⟨nofun, (enters_attachment hc' hlog' hent).2⟩
  | put m m' m'' t c lease hent hh hlease =>
      obtain ⟨hc', hlog'⟩ := hinv.recv he m
      obtain ⟨hc₁, hlog₁⟩ := enters_attachment hc' hlog' hent
      obtain ⟨a1, a2, a3, a4⟩ := c.await_fields m''
      exact put_attachment (hc₁.congr a1 a2 a3) (a4 ▸ hlog₁) (a1.trans hlease)
  | sendFailed m m' m'' t c _ lease hent hh hlease hs h =>
      obtain ⟨hc', hlog'⟩ := hinv.recv he m
      obtain ⟨hc₁, hlog₁⟩ := enters_attachment hc' hlog' hent
      obtain ⟨a1, a2, a3, a4⟩ := c.await_fields m''
      exact lost_attachment (hc₁.congr a1 a2 a3) (a4 ▸ hlog₁) (a1.trans hlease) h
  | clientGone => exact ⟨nofun, hinv.honest⟩
  | idle => exact hinv
  | rowDropped o m _ row hr => exact ⟨fun _ => (readNext_attachment hc hinv.honest hr).1,
      (readNext_attachment hc hinv.honest hr).2⟩
  | readStopped o m c e hr => exact ⟨nofun, (readNext_attachment hc hinv.honest hr).2⟩
  | replaced o m m' m'' ms c _ hr hs hh h =>
      obtain ⟨hc₁, hlog₁⟩ := readNext_attachment hc hinv.honest hr
      exact .said h hlog₁ rfl (hc₁.congr rfl rfl rfl)
  | passed o m m' m'' c _ hr hs hh h =>
      obtain ⟨hc₁, hlog₁⟩ := readNext_attachment hc hinv.honest hr
      have hsent : (c.emit [.sent false o m'']).Attachment :=
        ⟨fun _ => hc₁.congr rfl rfl rfl, honest_concat hlog₁ trivial⟩
      cases h with
      | done =>
          split
          · exact afterReady_attachment hsent
          · exact hsent
      | cut pre endpoint attached hpre =>
          exact ⟨nofun, fun x hx => hsent.honest x ((List.prefix_append_right_inj _ |>.mpr
            hpre).subset hx)⟩
  | upstreamClosed lease _ hlease h => exact lost_attachment hc hinv.honest hlease h
  | upstreamError => exact ⟨nofun, hinv.honest⟩
  | cancel lease hlease =>
      refine ⟨fun _ => ⟨fun l hl => ?_, hc.attached.trans ?_⟩,
        List.forall_mem_append.mpr ⟨hinv.honest, List.forall_mem_singleton.mpr trivial⟩⟩
      · cases hl
        exact hc.endpoint lease hlease
      · rw [hlease]
        rfl
  | drain => exact ⟨fun _ => hc.congr rfl rfl rfl, hinv.honest⟩
  | shutdown => exact ⟨nofun, hinv.honest⟩

end Steps

end Core

/-! ## Runs -/

theorem Session.start_lease {env : Env σ} {s : Session σ κ} (hmode : env.transactionMode = false) :
    (s.start env).lease = (s.ensureAttached env none).1.lease := by
  unfold Session.start
  rw [if_neg (by rw [hmode]; exact Bool.false_ne_true)]
  split
  case h_1 h =>
    rw [h]
  case h_2 h =>
    rw [h]

theorem Launch.start_attachment {env : Env σ} {l : Launch σ κ} (hfirst : l.AttachesFirst env) :
    Session.Holds l.interceptor l.startup (fun _ _ => True) Core.Attachment
      (l.new.start env) := by
  obtain ⟨hk, hstart⟩ : l.new.Kept (fun _ _ => True) (l.new.start env) ∧
      Session.Starts env (fun _ _ => True) l.params l.startup l.new.toCore
        (l.new.start env).toCore :=
    Session.start_spec (fun _ _ _ _ _ => trivial) (fun _ _ _ _ _ => trivial)
      ⟨fun _ _ _ => trivial, fun _ _ _ _ _ _ => trivial⟩
  refine ⟨?_, hk.tidy, hk.interceptor, hk.startup⟩
  have hlease : env.transactionMode = false →
      (l.new.start env).lease = (l.new.ensureAttached env none).1.lease := Session.start_lease
  have hnew : l.new.toCore.Coherent := Core.coherent_of_none rfl rfl
  generalize (l.new.start env).toCore = d at hstart hlease
  cases hstart with
  | detached => exact ⟨fun _ => hnew, nofun⟩
  | refused dirty info es hes =>
      exact ⟨nofun, fun x hx => Core.answers_honest _ _ x (hes.subset hx)⟩
  | attached c₁ ht h =>
      obtain ⟨hsome, _, hlog⟩ := Core.attaches_attachment h hnew nofun
      refine ⟨fun _ => ⟨fun lease hl => ?_, (Option.isSome_iff_ne_none.mpr hsome).symm⟩, hlog⟩
      have hl₁ : c₁.lease = some lease := hl
      rw [hfirst ht lease ((hlease ht).symm.trans hl)]
      show c₁.lease.map _ = _
      rw [hl₁]
      rfl

theorem Core.attachment_stable {env : Env σ} {i : Option (Interceptor κ)} {startup : Params} :
    Session.Stable env i startup (fun _ _ => True) (Session.ScatterBreaks env)
      Core.Attachment where
  probe := fun _ _ _ _ _ => trivial
  leg := fun _ _ _ _ _ _ _ _ _ _ => trivial
  releases := fun _ _ _ _ _ _ _ _ _ _ _ _ _ _ _ _ _ _ _ => trivial
  step := fun _ _ _ hs he hok h => Core.steps_attachment hs.interceptor hs.inv he hok h

/-- In every run in which the initial attach took the first endpoint and failing scatters break
    the lease they find, the bookkeeping is right in every state. -/
theorem attachment_coherent (env : Env σ) (l : Launch σ κ) (ms : List (Move σ))
    (hfirst : l.AttachesFirst env)
    (hrun : l.Runs env (fun _ _ => True) (Session.ScatterBreaks env) ms) :
    (l.after env ms).toCore.Attachment :=
  (Launch.holds Core.attachment_stable (Launch.start_attachment hfirst) hrun).inv

/-- A session without an interceptor never scatters. -/
theorem Session.scatterBreaks_of_none {env : Env σ} {s : Session σ κ} (h : s.interceptor = none)
    (e : Event) : s.ScatterBreaks env e := by
  cases e with
  | client m t =>
      intro _ _ _ _ hasks
      rw [h] at hasks
      obtain ⟨_, hmem, _⟩ := hasks
      cases hmem
  | _ => trivial

/-- A transaction whose connection is lost, and the query after it. -/
theorem attachment_coherent_lost :
    (Sample.after .session none ([Sample.client (.query "BEGIN")] ++ Sample.reads 2 ++
      [.upstreamClosed, Sample.client (.query "SELECT 1")])).toCore.Attachment := by
  refine attachment_coherent (Sample.env .session) (Sample.launch .session none) _ ?_ ?_
  · intro _ lease hlease
    have ha : ((Sample.launch .session none).new.ensureAttached (Sample.env .session)
        none).1.lease.map (fun l => l.pool.endpoint) = some "a" := by decide
    rw [hlease] at ha
    exact Option.some.inj ha
  · exact Session.along_own ⟨fun _ => Session.scatterBreaks_of_none rfl _,
      fun _ => Session.scatterBreaks_of_none rfl _, fun _ => Session.scatterBreaks_of_none rfl _,
      fun _ => Session.scatterBreaks_of_none rfl _, fun _ => Session.scatterBreaks_of_none rfl _,
      trivial⟩

/-- A scatter of the endpoints `ids`. -/
def Sample.scatter (ids : List String) : Interceptor Unit :=
  Sample.onQuery (.scatter {
    legs := ids.map fun e => { endpoint := e, sql := "SELECT 1" }
    merge := .concat
    tag := "SELECT" })

/-- An initial attach that is routed to `b` makes the pump run the leg for `a` on `b`, and a
    scatter that is refused makes it forget the endpoint of the lease it keeps. -/
theorem attachment_incoherent :
    ¬ (Sample.after .session
        (some { Sample.scatter ["a"] with upstream := fun ctx _ => (ctx, "b") })
        [Sample.client (.query "SELECT 1")]).toCore.Attachment ∧
      ¬ (Sample.after .session (some (Sample.scatter ["c"]))
        [Sample.client (.query "SELECT 1")]).toCore.Attachment := by
  refine ⟨fun h => ?_, fun h => ?_⟩
  · have hleg : Entry.sessionLeg "a" "b" ∈ (Sample.after .session
        (some { Sample.scatter ["a"] with upstream := fun ctx _ => (ctx, "b") })
        [Sample.client (.query "SELECT 1")]).log := by decide
    exact absurd (h.honest _ hleg) (by decide : ¬ "a" = "b")
  · have hflag := (h.coherent (by decide)).attached
    revert hflag
    decide

end Pgferry
