/-
  Graceful shutdown.

  At the shutdown signal the pump ends a session that awaits no response and is in no COPY;
  otherwise it goes on until the next `ReadyForQuery` that it forwards. `awaiting_response` and
  the COPY state are kept by the other arms: the first is set by `Query`, `Sync` and `Flush`, both
  are cleared by any `ReadyForQuery` of the upstream, and the COPY state by nothing else.
  `DrainsExactly` compares what the pump does with what the client has sent and was sent: a
  drained session has answered every request and no batch is open, and a session with nothing
  open ends at the signal.

  Proved: `drains_exactly`. It holds in every run of an orderly client in which the two flags
  cannot go stale (`Prompt`) and the signal does not come inside a batch. The counterexamples are
  a batch without its `Sync`, a pipelined query, and a COPY that was lost with its connection.
-/
import Pgferry.Session.Requests

namespace Pgferry

open Loop

variable {σ κ : Type}

/-! ## Draining -/

namespace Session

/-- The iteration `e` ends the session for the shutdown: at the signal, or at a forwarded
    `ReadyForQuery` after it. -/
def Drains (env : Env σ) (s : Session σ κ) (e : Event) : Prop :=
  s.ended = none ∧ (s.step env e).ended ≠ none ∧
    (e = .shutdown ∨ s.draining = true ∧ e = .upstream ∧
      ∃ o status, (s.step env e).log = s.log ++ [.sent false o (.readyForQuery status)])

/-- A session that is drained has nothing open, and one that has nothing open ends at the
    signal. -/
structure DrainsExactly (env : Env σ) (s : Session σ κ) (e : Event) : Prop where
  complete : s.Drains env e → (tally (s.step env e).log).opened = false
  prompt : e = .shutdown → s.ended = none → (tally s.log).opened = false →
    (s.step env e).ended ≠ none

end Session

/-- The message starts a COPY sub-protocol. -/
def BackendMessage.startsCopy : BackendMessage → Bool
  | .copyInResponse => true
  | .copyBothResponse => true
  | .copyOutResponse => true
  | _ => false

/-- The next message to read from the lease's connection. -/
def Core.nextMessage (c : Core σ) : Option BackendMessage :=
  c.lease.bind fun lease => lease.conn.inbox.head?.map Prod.snd

/-- The flags stay true to what is open: a `Flush` is sent inside a batch, a `Sync` that the pump
    answers itself finds no flag set, the server starts a COPY inside a cycle and no connection is
    lost in one. The signal does not come inside a batch. -/
def Session.Prompt (env : Env σ) (s : Session σ κ) : Event → Prop
  | .client m t =>
      (m = .flush → (tally s.log).batch = true) ∧
        (m = .sync → (s.swallowUntilSync = true ∨ env.transactionMode = true ∧ s.lease.isNone) →
          s.hygiene = {}) ∧
        (t.sendOk = false → s.hygiene.copy = .none)
  | .upstream => s.toCore.nextMessage.any BackendMessage.startsCopy = true →
      (tally s.log).opened = true
  | .upstreamClosed => s.hygiene.copy = .none
  | .shutdown => (tally s.log).batch = false
  | _ => True

instance (env : Env σ) (s : Session σ κ) : ∀ e, Decidable (s.Prompt env e)
  | .client _ _ => inferInstanceAs (Decidable (_ ∧ _ ∧ _))
  | .upstream => inferInstanceAs (Decidable (_ → _))
  | .upstreamClosed | .shutdown => inferInstanceAs (Decidable (_ = _))
  | .clientGone | .upstreamError _ | .cancel => isTrue trivial

/-! ## The flags -/

theorem Tally.note_batch {t : Tally} {e : Entry} (h : ∀ n m, e ≠ .recv n m) :
    (t.note e).batch = t.batch := by
  cases e with
  | recv n m => exact absurd rfl (h n m)
  | sent own o m => cases m <;> rfl
  | lost endpoint reported decision => cases decision <;> rfl
  | _ => rfl

/-- Only a message of the client opens or closes a batch. -/
theorem tally_batch {es : List Entry} (h : ∀ e ∈ es, ∀ n m, e ≠ .recv n m) (log : List Entry) :
    (tally (log ++ es)).batch = (tally log).batch := by
  rw [tally_append]
  generalize tally log = t
  induction es generalizing t with
  | nil => rfl
  | cons e es ih =>
      rw [List.foldl_cons, ih (fun x hx => h x (List.mem_cons_of_mem _ hx)),
        Tally.note_batch (h e List.mem_cons_self)]

/-- Outside a batch a message that is not a `Sync` leaves no batch. -/
theorem batch_of_batchAfter {m : FrontendMessage} {batch : Bool} (hm : m ≠ .sync)
    (h : m.batchAfter batch = false) : batch = false := by
  cases m <;> first
    | exact h
    | exact absurd rfl hm
    | cases h

namespace Core

variable {u : Upstream σ} {c d : Core σ}

/-- With nothing open, no response is awaited and no COPY is in progress. -/
structure Lulled (u : Upstream σ) (c : Core σ) : Prop where
  counted : c.Counted u
  lull : c.ended = none → c.outstanding u = 0 → (tally c.log).batch = false → c.hygiene = {}

theorem track_hygiene (tm : Bool) (c : Core σ) {m : BackendMessage}
    (h : m.startsCopy = false) (hc : m.ready = 0 → c.hygiene = {}) :
    (c.track tm m).hygiene = {} := by
  cases m <;> first
    | rfl
    | exact hc rfl
    | cases h

theorem afterReady_hygiene (tm : Bool) (c : Core σ) : (c.afterReady tm).hygiene = c.hygiene := by
  unfold afterReady
  split
  · rfl
  · split
    · split <;> rfl
    · rfl

section Steps

variable {env : Env σ} {i : Option (Interceptor κ)} {s : Session σ κ} {m : FrontendMessage}

/-- An answer of the pump itself finds the flags as it leaves them. -/
theorem answered_lulled {t : Timing} (hc : s.toCore.Lulled env.upstream) (he : s.ended = none)
    (hord : s.Orderly env.upstream (.client m t)) (hprompt : s.Prompt env (.client m t))
    (h : Answered env i s (s.toCore.recv m) m t d) (hout : d.outstanding env.upstream = 0)
    (hbatch : (tally d.log).batch = false) : d.hygiene = {} := by
  obtain ⟨hframe, hlease⟩ := answered_frame h
  obtain ⟨legs, ms, hlog, hlegs, _⟩ := answered_log h
  have hsilent : ∀ x ∈ legs ++ (s.toCore.recv m).answers ms, ∀ n m', x ≠ .recv n m' := by
    intro x hx n m' heq
    subst heq
    rcases List.mem_append.mp hx with hx | hx
    · cases hlegs with
      | none => cases hx
      | one => simp at hx
    · obtain ⟨_, _, heq⟩ := List.mem_map.mp hx
      cases heq
  have hafter : m.batchAfter (tally s.log).batch = false := by
    rw [hlog, tally_batch hsilent] at hbatch
    have hrecv : tally (s.toCore.recv m).log = (tally s.log).recv m := tally_concat _ _
    rwa [hrecv, Tally.recv_batch] at hbatch
  rw [hframe.hygiene]
  show s.hygiene = {}
  by_cases hm : m = .sync
  · subst hm
    refine hprompt.2.1 rfl ((answered_sync h).imp (fun h => h) fun ⟨ht, hl⟩ => ⟨ht, ?_⟩)
    rw [show s.lease = none from hl]
    rfl
  · have hb := batch_of_batchAfter hm hafter
    have hfree : ∀ sql, m = .query sql → s.toCore.outstanding env.upstream = 0 := by
      rintro sql rfl
      exact hord.1.resolve_left nofun
    cases hlease with
    | same hl =>
        have hs : s.toCore.outstanding env.upstream = 0 := by
          rw [← hout]
          exact (outstanding_congr hl).symm
        exact hc.lull he hs hb
    | dropped _ sql hm => exact hc.lull he (hfree sql hm) hb
    | ran _ sql _ _ hm => exact hc.lull he (hfree sql hm) hb

theorem lost_lulled {lease : UpstreamLease σ} {reason : String} {synth : Bool}
    (h : Lost i c lease reason synth d) (hcopy : c.hygiene.copy = .none) (he : d.ended = none) :
    d.hygiene = {} := by
  have hsettled : ∀ x : Core σ, x.hygiene.copy = .none → x.settled.hygiene = {} := by
    intro x hx
    exact congrArg (Hygiene.mk false) hx
  cases h with
  | closed => cases he
  | silent => exact hsettled _ hcopy
  | simple _ _ _ h =>
      cases h with
      | done => exact hsettled _ hcopy
      | cut => cases he
  | extended _ _ _ h =>
      cases h with
      | done => exact hsettled _ hcopy
      | cut => cases he

/-- A `ReadyForQuery` clears the flags. -/
theorem readNext_ready {tm : Bool} {o : Origin} {x : BackendMessage}
    (hread : s.toCore.readNext tm = some (o, x, c)) (hx : x.ready = 1) : c.hygiene = {} := by
  obtain ⟨_, _, _, _, _, htrack, _⟩ := readNext_spec hread
  rw [htrack]
  cases x with
  | readyForQuery status => rfl
  | _ => cases hx

/-- A message of the upstream that does not start a COPY outside a cycle. -/
theorem readNext_lulled {tm : Bool} {o : Origin} {x : BackendMessage}
    (hc : s.toCore.Lulled env.upstream) (he : s.ended = none)
    (hread : s.toCore.readNext tm = some (o, x, c))
    (hprompt : s.Prompt env .upstream) (hout : c.outstanding env.upstream = 0)
    (hbatch : (tally s.log).batch = false) : c.hygiene = {} := by
  obtain ⟨lease, rest, hlease, hin, _, htrack, _⟩ := readNext_spec hread
  have hcount := (hc.counted.running he).count
  have hready := readNext_outstanding hread hc.counted.calm
  rw [htrack]
  by_cases hx : x.ready = 0
  · have hs : s.toCore.outstanding env.upstream = 0 := by omega
    refine track_hygiene tm _ ?_ fun _ => hc.lull he hs hbatch
    by_contra hcopy
    rw [Bool.not_eq_false] at hcopy
    have hopen := hprompt (by rw [nextMessage, hlease, Option.bind_some, hin]; exact hcopy)
    simp only [Tally.opened, hbatch, Bool.false_or, decide_eq_true_eq] at hopen
    omega
  · exact htrack ▸ readNext_ready hread (by have := x.ready_le_one; omega)

theorem put_lulled {m' : FrontendMessage} {t : Timing} {lease : UpstreamLease σ}
    (hu : env.upstream.InOrder) (hc : s.toCore.Lulled env.upstream) (he : s.ended = none)
    (hord : s.Orderly env.upstream (.client m t)) (hprompt : s.Prompt env (.client m t))
    (hent : Enters env i (QuietPool env.upstream) s (s.toCore.recv m) m m' c)
    (hlease : c.lease = some lease)
    (hout : ((c.await m').put env.upstream lease m').outstanding env.upstream = 0)
    (hbatch : (tally ((c.await m').put env.upstream lease m').log).batch = false) :
    ((c.await m').put env.upstream lease m').hygiene = {} := by
  obtain ⟨hcycles, hcopy, _, hstarts⟩ := hent.forwards.kind
  obtain ⟨hcalm, hout₁⟩ := enters_calm hu hent (hc.counted.calm.congr rfl fun h => h)
  have hone : m'.isCopy = true ∨ lease.conn.pending env.upstream = 0 := by
    rw [hcopy, ← outstanding_some hlease, hout₁]
    exact hord.1
  have hput := (Conn.put_tame hu (hcalm.tame lease hlease) c.origin hone).2
  rw [← outstanding_some hlease, hout₁, hcycles] at hput
  rw [awaitPut_eq] at hout hbatch ⊢
  have hzero : s.toCore.outstanding env.upstream + m.cycles = 0 := hput.symm.trans hout
  have hbatch' : m.batchAfter (tally s.log).batch = false := by
    have hlog : tally (c.log ++ [.forwarded lease.conn.processId c.seq m']) =
        (tally s.log).recv m := by
      rw [tally_concat]
      exact (enters_tally hent).trans (tally_concat _ _)
    rw [← Tally.recv_batch, ← hlog]
    exact hbatch
  have hsync : m ≠ .sync := by
    rintro rfl
    exact absurd hzero (Nat.succ_ne_zero _)
  have hb := batch_of_batchAfter hsync hbatch'
  have hs : m'.startsResponse = false := by
    rw [hstarts]
    cases m <;> first
      | rfl
      | exact absurd rfl hsync
      | exact absurd hzero (Nat.succ_ne_zero _)
      | exact absurd (hprompt.1 rfl) (by rw [hb]; exact Bool.false_ne_true)
  have hlull := hc.lull he (Nat.add_eq_zero_iff.mp hzero).1 hb
  have hh : c.hygiene = {} := (enters_frame hent).hygiene.trans hlull
  show ({ c.hygiene with
    awaitingResponse := c.hygiene.awaitingResponse || m'.startsResponse } : Hygiene) = {}
  rw [hh, hs]
  rfl

/-- One iteration of an orderly session keeps the flags true. -/
theorem steps_lulled {e : Event} (hu : env.upstream.InOrder) (hp : Passive i)
    (hq : AnswersSimply i) (hc : s.toCore.Lulled env.upstream) (he : s.ended = none)
    (hord : s.Orderly env.upstream e) (hlose : s.LosesWell e) (hprompt : s.Prompt env e)
    (h : Steps env i (QuietPool env.upstream) s e d) : d.Lulled env.upstream := by
  refine ⟨steps_counted hu hp hq hc.counted he hord hlose h, fun hd hout hbatch => ?_⟩
  cases h with
  | answered m t _ h => exact answered_lulled hc he hord hprompt h hout hbatch
  | attachFailed => cases hd
  | hookReplied m m' m'' t ms c _ hent hh h => cases (hh.passive hp).2
  | hookStopped => cases hd
  | put m m' m'' t c lease hent hh hlease =>
      obtain ⟨rfl, _⟩ := hh.passive hp
      exact put_lulled hu hc he hord hprompt hent hlease hout hbatch
  | sendFailed m m' m'' t c _ lease hent hh hlease hs h =>
      refine lost_lulled h ?_ hd
      rw [await_eq, (enters_frame hent).hygiene]
      exact hprompt.2.2 hs
  | clientGone => cases hd
  | idle => exact hc.lull he hout hbatch
  | rowDropped o x _ row hread =>
      obtain ⟨_, _, _, _, frame, _, _⟩ := readNext_spec hread
      exact readNext_lulled hc he hread hprompt hout (frame.log ▸ hbatch)
  | readStopped => cases hd
  | replaced o x x' x'' ms c _ hread hs hh h => cases (hh.passive hp).2
  | passed o x x' x'' c _ hread hs hh h =>
      obtain ⟨_, _, _, _, frame, _, _⟩ := readNext_spec hread
      have hsent : (tally (c.log ++ [.sent false o x''])).batch = (tally s.log).batch := by
        rw [tally_batch (by simp), frame.log]
      cases h with
      | cut => cases hd
      | done =>
          by_cases hready : x''.ready = 1
          · obtain ⟨rfl, _⟩ := hh.passive hp
            rw [if_pos hready, afterReady_hygiene]
            have hclear : c.hygiene = {} := readNext_ready hread (hs.ready ▸ hready)
            exact hclear
          · rw [if_neg hready] at hout hbatch ⊢
            have hkept : c.hygiene = {} :=
              readNext_lulled hc he hread hprompt hout (hsent.symm.trans hbatch)
            exact hkept
  | upstreamClosed lease _ hlease h => exact lost_lulled h hprompt hd
  | upstreamError => cases hd
  | cancel lease hlease =>
      have ht : tally (s.toCore.cancelled env.upstream lease).log = tally s.log := tally_concat _ _
      refine hc.lull he ?_ (ht ▸ hbatch)
      rw [outstanding_some rfl, Conn.cancel_pending hu] at hout
      rw [outstanding_some hlease, hout]
  | drain => exact hc.lull he hout hbatch
  | shutdown => cases hd

theorem lulled_stable {startup : Params} (hu : env.upstream.InOrder) (hp : Passive i)
    (hq : AnswersSimply i) :
    Session.Stable env i startup (QuietPool env.upstream)
      (fun s e => s.Orderly env.upstream e ∧ s.LosesWell e ∧ s.Prompt env e)
      (Lulled env.upstream) where
  probe := quiet_probe hu
  leg := fun sql _ => quiet_leg hu startup sql
  releases := fun _ hs _ _ => calm_releases hu hp.steady hs.inv.counted.calm
  step := fun _ _ _ hs he hok h => steps_lulled hu hp hq hs.inv he hok.1 hok.2.1 hok.2.2 h

end Steps

end Core

/-! ## Runs -/

theorem Launch.start_lulled {env : Env σ} {l : Launch σ κ} (hu : env.upstream.InOrder)
    (ht : l.world.Tidy (QuietPool env.upstream)) :
    Session.Holds l.interceptor l.startup (QuietPool env.upstream) (Core.Lulled env.upstream)
      (l.new.start env) := by
  have hcounted := l.start_counted hu ht
  refine ⟨⟨hcounted.inv, fun _ _ _ => ?_⟩, hcounted.tidy, hcounted.interceptor, hcounted.startup⟩
  obtain ⟨_, hstart⟩ := l.start_quiet hu ht
  generalize (l.new.start env).toCore = d at hstart ⊢
  cases hstart with
  | detached => rfl
  | refused => rfl
  | attached c₁ _ h => cases h <;> rfl

/-- A `ReadyForQuery` that an orderly session forwards closes what was open. -/
theorem Core.Counted.closed {u : Upstream σ} {c d : Core σ} {o : Origin}
    {status : TransactionStatus} (hc : c.Counted u) (he : c.ended = none) (hd : d.Counted u)
    (hlog : d.log = c.log ++ [.sent false o (.readyForQuery status)]) :
    (tally d.log).opened = false := by
  have hr := hc.running he
  have hcount := hr.count
  have hone : c.outstanding u ≤ 1 := by
    cases hlease : c.lease with
    | none => rw [outstanding_none hlease]; omega
    | some lease => rw [outstanding_some hlease]; exact (hc.calm.tame lease hlease).pending_le
  have hle := hd.le
  rw [hlog, tally_concat] at hle ⊢
  have hle : (tally c.log).answered + 1 ≤ (tally c.log).requests := hle
  show ((tally c.log).batch || decide ((tally c.log).answered + 1 < (tally c.log).requests)) = false
  cases hb : (tally c.log).batch with
  | true =>
      have := hr.batch hb
      omega
  | false =>
      rw [Bool.false_or, decide_eq_false_iff_not]
      omega

/-- The shutdown arm of a live session. -/
theorem Session.step_shutdown (env : Env σ) {s : Session σ κ} (he : s.ended = none) :
    (s.step env .shutdown).log = s.log ∧
      ((s.step env .shutdown).ended ≠ none ↔
        s.hygiene.awaitingResponse = false ∧ s.hygiene.copy = .none) := by
  unfold step
  rw [if_neg (by rw [he]; exact Bool.false_ne_true)]
  unfold arm onShutdown
  dsimp only
  split
  case isTrue h =>
    refine ⟨rfl, iff_of_false (fun h => h rfl) fun ⟨ha, hc⟩ => ?_⟩
    rw [ha, hc] at h
    cases h
  case isFalse h =>
    refine ⟨rfl, iff_of_true nofun ?_⟩
    simpa using h

/-- In every run of an orderly client whose flags cannot go stale, the session is drained when it
    has nothing open: it is not ended before, and not kept at the signal. -/
theorem drains_exactly (env : Env σ) (l : Launch σ κ) (ms : List (Move σ)) (e : Event)
    (hu : env.upstream.InOrder) (hworld : l.world.Tidy (QuietPool env.upstream))
    (hpassive : Passive l.interceptor) (hquery : AnswersSimply l.interceptor)
    (hrun : l.Runs env (QuietPool env.upstream)
      (fun s e => s.Orderly env.upstream e ∧ s.LosesWell e ∧ s.Prompt env e) ms)
    (hok : (l.after env ms).Orderly env.upstream e ∧ (l.after env ms).LosesWell e ∧
      (l.after env ms).Prompt env e) :
    (l.after env ms).DrainsExactly env e := by
  have hst : Session.Stable env l.interceptor l.startup (QuietPool env.upstream) _ _ :=
    Core.lulled_stable hu hpassive hquery
  have hs := Launch.holds hst (l.start_lulled hu hworld) hrun
  generalize l.after env ms = s at hok hs
  have hc := hs.inv.counted
  refine ⟨fun ⟨he, hend, hwhy⟩ => ?_, fun hsig he hopen => ?_⟩
  · rcases hwhy with rfl | ⟨_, rfl, o, status, hlog⟩
    · -- no response is awaited, so nothing is outstanding
      obtain ⟨hlog, hiff⟩ := Session.step_shutdown env he
      have hcount := (hc.running he).count
      have hout : s.toCore.outstanding env.upstream = 0 := by
        cases hlease : s.lease with
        | none => exact Core.outstanding_none hlease
        | some lease =>
            rw [Core.outstanding_some hlease]
            by_contra hne
            have ha := hc.calm.awaiting lease hlease hne
            rw [(hiff.mp hend).1] at ha
            cases ha
      have hbatch : (tally s.log).batch = false := hok.2.2
      rw [hlog, Tally.opened, hbatch, Bool.false_or, decide_eq_false_iff_not]
      omega
    · exact hc.closed he (hst.step s .upstream _ hs he hok
        (hst.steps hs he hok).1).counted hlog
  · subst hsig
    have hcount := (hc.running he).count
    simp only [Tally.opened, Bool.or_eq_false_iff, decide_eq_false_iff_not] at hopen
    have hlull := hs.inv.lull he (by omega) hopen.1
    rw [(Session.step_shutdown env he).2, hlull]
    exact ⟨rfl, rfl⟩

/-- The signal comes while a query runs: the session ends at its `ReadyForQuery`. -/
theorem drains_exactly_running :
    (Sample.after .session none
      [Sample.client (.query "SELECT 1"), .shutdown, .upstream]).DrainsExactly
      (Sample.env .session) .upstream :=
  drains_exactly (Sample.env .session) (Sample.launch .session none) (List.map .own [_, _, _])
    .upstream (pg_inOrder _) (Sample.world_quiet .session) passive_none
    (by rintro input action ⟨h, hh, _⟩; cases hh)
    (Session.along_own (by decide : Along (Session.step (Sample.env .session)) _ _ [_, _, _]))
    (by decide)

/-- A batch without its `Sync` is cut off at the signal, a pipelined query at the
    `ReadyForQuery` of the one before, and a session whose COPY was lost with its connection is
    left draining with nothing open. -/
theorem drains_inexactly :
    ¬ (Sample.after .session none [Sample.client (.parse none "SELECT 1" [])]).DrainsExactly
        (Sample.env .session) .shutdown ∧
      ¬ (Sample.after .session none
        [Sample.client (.query "SELECT 1"), Sample.client (.query "SELECT 1"), .shutdown,
          .upstream]).DrainsExactly (Sample.env .session) .upstream ∧
      ¬ (Sample.after .session none
        [Sample.client (.query "COPY t FROM STDIN"), .upstream, .upstreamClosed]).DrainsExactly
        (Sample.env .session) .shutdown := by
  refine ⟨fun h => ?_, fun h => ?_, fun h => ?_⟩
  · exact absurd (h.complete ⟨by decide, by decide, .inl rfl⟩) (by decide)
  · exact absurd (h.complete ⟨by decide, by decide, .inr ⟨by decide, rfl, _, _, rfl⟩⟩) (by decide)
  · exact absurd (h.prompt rfl (by decide) (by decide)) (by decide)

end Pgferry
