/-
  What one iteration of the pump can add to the log.

  `Logged i s e` lists the entries with where they come from: which message of the client, which
  answer of a hook, which message of the upstream. The order of the entries is not part of it.

  Proved: `steps_logged`, every step adds entries of this list only; `steps_loses`, a step loses
  the connection or logs no loss after which the session goes on; `Launch.log_rule`, what holds
  of the entries that every iteration adds holds of all entries of a run.
-/
import Mathlib.Data.List.Induction
import Pgferry.Session.Frames
import Pgferry.Session.Runs

namespace Pgferry

open Loop

variable {σ κ : Type}

/-- A message that the pump makes up itself. -/
def BackendMessage.isOwn : BackendMessage → Bool
  | .errorResponse _ => true
  | .readyForQuery _ => true
  | .parseComplete => true
  | .closeComplete => true
  | _ => false

/-- The entry is a loss after which the session goes on. -/
def Entry.relinks : Entry → Bool
  | .lost _ _ .relink => true
  | _ => false

namespace Core

/-- `d` has logged more than `c`, and every entry beyond has `P`. -/
def Grows (P : Entry → Prop) (c d : Core σ) : Prop :=
  ∃ es, d.log = c.log ++ es ∧ ∀ e ∈ es, P e

section Grows

variable {P : Entry → Prop} {c c₁ d : Core σ}

theorem Grows.refl (h : d.log = c.log) : Grows P c d :=
  ⟨[], h.trans (List.append_nil _).symm, nofun⟩

theorem Grows.one {e : Entry} (h : d.log = c.log ++ [e]) (he : P e) : Grows P c d :=
  ⟨[e], h, fun _ hx => List.mem_singleton.mp hx ▸ he⟩

theorem Grows.trans (h : Grows P c c₁) (h' : Grows P c₁ d) : Grows P c d := by
  obtain ⟨es, h1, h2⟩ := h
  obtain ⟨es', h1', h2'⟩ := h'
  refine ⟨es ++ es', by rw [h1', h1, List.append_assoc], fun e he => ?_⟩
  exact (List.mem_append.mp he).elim (h2 e) (h2' e)

theorem Grows.said {es : List Entry} {f : Core σ → Core σ} (h : Said c es f d)
    (hes : ∀ e ∈ es, P e) (hf : Grows P (c.emit es) (f (c.emit es))) : Grows P c d := by
  cases h with
  | done => exact Grows.trans ⟨es, rfl, hes⟩ hf
  | cut pre endpoint attached hpre => exact ⟨pre, rfl, fun e he => hes e (hpre.subset he)⟩

end Grows

/-- `ms` is a `Reply` of some hook. -/
def Replies (i : Option (Interceptor κ)) (ms : List BackendMessage) : Prop :=
  (∃ input, Asks i input (.reply ms)) ∨ (∃ m m', Hooked i m m' (.reply ms)) ∨
    ∃ m m', HookedBack i m m' (.reply ms)

/-- The entries that an iteration can add. -/
inductive Logged (env : Env σ) (i : Option (Interceptor κ)) (s : Session σ κ) (e : Event) :
    Entry → Prop
  | recv (m : FrontendMessage) (t : Timing) (he : e = .client m t) :
      Logged env i s e (.recv (s.seq + 1) m)
  | attached (pid : Nat) (endpoint : String) : Logged env i s e (.attached pid endpoint)
  | detached (pid : Nat) : Logged env i s e (.detached pid)
  | lost (endpoint reported : String) (decision : RetryDecision) :
      Logged env i s e (.lost endpoint reported decision)
  | sessionLeg (leg endpoint : String) : Logged env i s e (.sessionLeg leg endpoint)
  | cancelled (pid : Nat) : Logged env i s e (.cancelled pid)
  | forwarded (pid : Nat) (m m' m'' : FrontendMessage) (t : Timing) (he : e = .client m t)
      (hp : (s.toCore.recv m).Passes env.transactionMode m)
      (ha : s.approves m = some m') (hh : Hooked i m' m'' .forward) :
      Logged env i s e (.forwarded pid (s.seq + 1) m'')
  | own (o : Origin) (m : BackendMessage) (hm : m.isOwn = true) : Logged env i s e (.sent true o m)
  | replied (o : Origin) (ms : List BackendMessage) (m : BackendMessage) (h : Replies i ms)
      (hm : m ∈ ms) : Logged env i s e (.sent true o m)
  | merged (o : Origin) (input : CycleInput) (request : ScatterRequest) (m : BackendMessage)
      (ha : Asks i input (.scatter request)) (hm : m.isResult = true) :
      Logged env i s e (.sent true o m)
  | passed (o : Origin) (m m' m'' : BackendMessage) (c : Core σ) (he : e = .upstream)
      (hr : s.toCore.readNext env.transactionMode = some (o, m, c)) (hs : Shown i m m')
      (hh : HookedBack i m' m'' .forward) : Logged env i s e (.sent false o m'')

section Steps

variable {env : Env σ} {i : Option (Interceptor κ)} {s : Session σ κ} {e : Event} {c d : Core σ}

/-- A list of the pump's own messages. -/
theorem logged_own {ms : List BackendMessage} (h : ∀ m ∈ ms, m.isOwn = true) :
    ∀ x ∈ c.answers ms, Logged env i s e x := by
  intro x hx
  obtain ⟨m, hm, rfl⟩ := List.mem_map.mp hx
  exact .own _ m (h m hm)

theorem logged_replied {ms ms' : List BackendMessage} (h : Replies i ms)
    (h' : ∀ m ∈ ms', m.isOwn = true) : ∀ x ∈ c.answers (ms ++ ms'), Logged env i s e x := by
  intro x hx
  obtain ⟨m, hm, rfl⟩ := List.mem_map.mp hx
  rcases List.mem_append.mp hm with hm | hm
  · exact .replied _ ms m h hm
  · exact .own _ m (h' m hm)

theorem scattered_grows {request : ScatterRequest} {broken : Bool}
    (h : Scattered env.upstream c request d broken) : Grows (Logged env i s e) c d := by
  cases h with
  | pooled => exact .refl rfl
  | leg => exact .one rfl (.sessionLeg _ _)

theorem lost_grows {lease : UpstreamLease σ} {reason : String} {synth : Bool}
    (h : Lost i c lease reason synth d) : Grows (Logged env i s e) c d := by
  have hlost : Grows (Logged env i s e) c (c.emit [c.lostEntry lease .relink]).unleased :=
    .one rfl (.lost _ _ _)
  cases h with
  | closed => exact .one rfl (.lost _ _ _)
  | silent => exact .one rfl (.lost _ _ _)
  | simple _ _ _ h =>
      exact hlost.trans (.said h (logged_own (by simp [BackendMessage.isOwn])) (.refl rfl))
  | extended _ _ _ h =>
      exact hlost.trans (.said h (logged_own (by simp [BackendMessage.isOwn])) (.refl rfl))

theorem enters_grows {Φ : PoolKey → Conn σ → Prop} {m m' : FrontendMessage}
    (h : Enters env i Φ s c m m' d) : Grows (Logged env i s e) c d := by
  rcases (enters_frame h).log with hlog | ⟨pid, endpoint, hlog⟩
  · exact .refl hlog
  · exact .one hlog (.attached pid endpoint)

/-- What follows a `ReadyForQuery` logs a detach at most. -/
theorem afterReady_grows {P : Entry → Prop} (hP : ∀ pid, P (.detached pid)) (tm : Bool)
    (c : Core σ) : Grows P c (c.afterReady tm) := by
  unfold afterReady
  split
  · exact .refl rfl
  · split
    · split
      · exact .one rfl (hP _)
      · exact .refl rfl
    · exact .refl rfl

theorem answered_logged {m : FrontendMessage} {t : Timing} (h : Answered env i s c m t d) :
    Grows (Logged env i s e) c d := by
  have hnote : Grows (Logged env i s e) c (c.note m) := .refl (c.note_log m)
  cases h with
  | quit | swallowed | localFlush => exact .refl rfl
  | closed => exact .refl (c.note_log m)
  | resumed _ _ _ h =>
      have hsaid : Grows (Logged env i s e) _ d :=
        .said h (logged_own (by simp [BackendMessage.isOwn])) (.refl rfl)
      exact Grows.trans (.refl rfl) hsaid
  | localSync _ _ _ _ _ h => exact .said h (logged_own (by simp [BackendMessage.isOwn])) (.refl rfl)
  | localClose _ _ _ _ _ _ _ h =>
      have hsaid : Grows (Logged env i s e) _ d :=
        .said h (logged_own (by simp [BackendMessage.isOwn])) (.refl rfl)
      exact Grows.trans (.refl rfl) hsaid
  | deniedSimple _ _ _ _ _ _ _ h =>
      exact hnote.trans (.said h (logged_own (by simp [BackendMessage.isOwn])) (.refl rfl))
  | deniedExtended _ _ _ _ _ _ _ h =>
      exact hnote.trans (.said h (logged_own (by simp [BackendMessage.isOwn])) (.refl rfl))
  | repliedSimple input ms _ _ _ ha _ h =>
      exact hnote.trans
        (.said h (logged_replied (.inl ⟨input, ha⟩) (by simp [BackendMessage.isOwn])) (.refl rfl))
  | repliedExtended input ms _ _ _ ha _ h =>
      exact hnote.trans
        (.said h (logged_replied (.inl ⟨input, ha⟩) (by simp [BackendMessage.isOwn])) (.refl rfl))
  | scatterOk input request ms c₁ _ _ _ ha _ _ hsc hms h =>
      refine (hnote.trans (scattered_grows hsc)).trans (.said h (fun x hx => ?_) (.refl rfl))
      obtain ⟨m, hm, rfl⟩ := List.mem_map.mp hx
      rcases List.mem_append.mp hm with hm | hm
      · exact .merged _ input request m ha (hms m hm)
      · exact .own _ m (by rw [List.mem_singleton.mp hm]; rfl)
  | scatterRefused _ _ _ _ _ _ _ _ h =>
      have hlost : Grows (Logged env i s e) (c.note m) ((c.note m).scatterLost false) := .refl rfl
      exact (hnote.trans hlost).trans
        (.said h (logged_own (by simp [BackendMessage.isOwn])) (.refl rfl))
  | scatterFailed _ _ failure c₁ _ _ _ _ _ _ hsc h =>
      have hlost : Grows (Logged env i s e) c₁ (c₁.scatterLost failure.sessionLeaseBroken) :=
        .refl (by cases failure.sessionLeaseBroken <;> rfl)
      exact ((hnote.trans (scattered_grows hsc)).trans hlost).trans
        (.said h (logged_own (by simp [BackendMessage.isOwn])) (.refl rfl))
  | scatterPanicked _ _ c₁ _ _ _ _ hsc =>
      exact (hnote.trans (scattered_grows hsc)).trans (.refl rfl)
  | reparsed _ _ _ _ _ _ _ _ _ _ h =>
      exact hnote.trans (.said h (logged_own (by simp [BackendMessage.isOwn])) (.refl rfl))
  | duplicate _ _ _ _ _ _ _ _ _ _ _ h =>
      exact hnote.trans (.said h (logged_own (by simp [BackendMessage.isOwn])) (.refl rfl))

/-- Every entry that an iteration adds is one of `Logged`. -/
theorem steps_logged {Φ : PoolKey → Conn σ → Prop} (h : Steps env i Φ s e d) :
    Grows (Logged env i s e) s.toCore d := by
  have hread : ∀ {o m c}, s.toCore.readNext env.transactionMode = some (o, m, c) →
      Grows (Logged env i s e) s.toCore c := by
    intro o m c hr
    obtain ⟨_, _, _, _, hf, _⟩ := readNext_spec hr
    exact .refl hf.log
  cases h with
  | answered m t _ h => exact (Grows.one rfl (.recv m t rfl)).trans (answered_logged h)
  | attachFailed m m' t d' _ _ h =>
      obtain ⟨_, _, _, es, -, hes, rfl⟩ := attachFails_noted h
      refine (Grows.one rfl (.recv m t rfl)).trans ⟨es, rfl, fun x hx => ?_⟩
      exact logged_own (by simp [BackendMessage.isOwn]) x (hes.subset hx)
  | hookReplied m m' m'' t ms c _ hent hh h =>
      refine ((Grows.one rfl (.recv m t rfl)).trans (enters_grows hent)).trans
        (.said h (fun x hx => ?_) (.refl rfl))
      obtain ⟨y, hy, rfl⟩ := List.mem_map.mp hx
      exact .replied _ ms y (.inr (.inl ⟨_, _, hh⟩)) hy
  | hookStopped m m' m'' t action c hent =>
      exact ((Grows.one rfl (.recv m t rfl)).trans (enters_grows hent)).trans (.refl rfl)
  | put m m' m'' t c lease hent hh =>
      rw [awaitPut_eq]
      have hseq : c.seq = s.seq + 1 := (enters_frame hent).seq
      refine ((Grows.one rfl (.recv m t rfl)).trans (enters_grows hent)).trans (.one rfl ?_)
      rw [hseq]
      exact .forwarded _ m m' m'' t rfl hent.passes hent.approved hh
  | sendFailed m m' m'' t c _ lease hent hh hlease hs h =>
      have hawait : Grows (Logged env i s (.client m t)) c (c.await m'') := .refl (by rw [await_eq])
      exact (((Grows.one rfl (.recv m t rfl)).trans (enters_grows hent)).trans hawait).trans
        (lost_grows h)
  | clientGone | idle | upstreamError | drain | shutdown => exact .refl rfl
  | cancel => exact .one rfl (.cancelled _)
  | rowDropped o m _ row hr => exact hread hr
  | readStopped o m c e hr => exact (hread hr).trans (.refl rfl)
  | replaced o m m' m'' ms c _ hr hs hh h =>
      refine (hread hr).trans (.said h (fun x hx => ?_) (.refl rfl))
      obtain ⟨y, hy, rfl⟩ := List.mem_map.mp hx
      exact .replied _ ms y (.inr (.inr ⟨_, _, hh⟩)) hy
  | passed o m m' m'' c _ hr hs hh h =>
      refine (hread hr).trans (.said h (fun x hx => ?_) ?_)
      · rw [List.mem_singleton.mp hx]
        exact .passed o m m' m'' c rfl hr hs hh
      · split
        · exact afterReady_grows .detached _ _
        · exact .refl rfl
  | upstreamClosed lease _ hlease h => exact lost_grows h

/-! ## Losses -/

/-- How an iteration can lose the connection: writing to it fails, or it was closed. `c` is the
    state right before, and `synth` whether the pump takes the cycle for interrupted. -/
inductive Loses (i : Option (Interceptor κ)) (s : Session σ κ) : Event → Core σ → Bool → Prop
  | send (m m' m'' : FrontendMessage) (t : Timing) (c : Core σ) (ht : t.sendOk = false)
      (hf : (s.toCore.recv m).EnterFrame m c) (hm : Forwards i m m')
      (hh : Hooked i m' m'' .forward) :
      Loses i s (.client m t) (c.await m'')
        (s.hygiene.awaitingResponse || m''.startsResponse || decide (0 < s.fedSinceRfq))
  | closed (hl : s.lease.isSome = true) :
      Loses i s .upstreamClosed s.toCore s.hygiene.awaitingResponse

theorem answers_kept (c : Core σ) (ms : List BackendMessage) :
    ∀ x ∈ c.answers ms, x.relinks = false := by
  intro x hx
  obtain ⟨_, _, rfl⟩ := List.mem_map.mp hx
  rfl

theorem enters_kept {Φ : PoolKey → Conn σ → Prop} {m m' : FrontendMessage}
    (h : Enters env i Φ s c m m' d) : Grows (fun x => x.relinks = false) c d := by
  rcases (enters_frame h).log with hlog | ⟨_, _, hlog⟩
  · exact .refl hlog
  · exact .one hlog rfl

/-- An iteration logs no loss and goes on, or it loses the connection. -/
theorem steps_loses {Φ : PoolKey → Conn σ → Prop} (h : Steps env i Φ s e d) :
    Grows (fun x => x.relinks = false) s.toCore d ∨
      ∃ c lease reason synth, Loses i s e c synth ∧ Lost i c lease reason synth d := by
  have hrecv : ∀ m, Grows (fun x => x.relinks = false) s.toCore (s.toCore.recv m) :=
    fun m => .one rfl rfl
  have hread : ∀ {o m c}, s.toCore.readNext env.transactionMode = some (o, m, c) →
      Grows (fun x => x.relinks = false) s.toCore c := by
    intro o m c hr
    obtain ⟨_, _, _, _, hf, _⟩ := readNext_spec hr
    exact .refl hf.log
  cases h with
  | answered m t _ h =>
      obtain ⟨legs, ms, hlog, hlegs, _⟩ := answered_log h
      refine .inl ((hrecv m).trans ⟨_, hlog, fun x hx => ?_⟩)
      rcases List.mem_append.mp hx with hx | hx
      · cases hlegs with
        | none => cases hx
        | one => exact List.mem_singleton.mp hx ▸ rfl
      · exact answers_kept _ _ x hx
  | attachFailed m m' t d' _ _ h =>
      obtain ⟨_, _, _, es, _, hes, rfl⟩ := attachFails_noted h
      exact .inl ((hrecv m).trans ⟨es, rfl, fun x hx => answers_kept _ _ x (hes.subset hx)⟩)
  | hookReplied m m' m'' t ms c _ hent hh h =>
      exact .inl (((hrecv m).trans (enters_kept hent)).trans
        (.said h (answers_kept _ _) (.refl rfl)))
  | hookStopped m m' m'' t action c hent =>
      exact .inl (((hrecv m).trans (enters_kept hent)).trans (.refl rfl))
  | put m m' m'' t c lease hent =>
      rw [awaitPut_eq]
      exact .inl (((hrecv m).trans (enters_kept hent)).trans (.one rfl rfl))
  | sendFailed m m' m'' t c _ lease hent hh hlease hs h =>
      have hf := enters_frame hent
      have hsynth : ((c.await m'').hygiene.awaitingResponse || decide (0 < c.fedSinceRfq)) =
          (s.hygiene.awaitingResponse || m''.startsResponse || decide (0 < s.fedSinceRfq)) := by
        rw [await_eq, hf.hygiene, hf.fedSinceRfq]
        rfl
      exact .inr ⟨_, lease, _, _, .send m m' m'' t c hs hf hent.forwards hh, hsynth ▸ h⟩
  | clientGone | idle | upstreamError | drain | shutdown => exact .inl (.refl rfl)
  | cancel => exact .inl (.one rfl rfl)
  | rowDropped o m _ row hr => exact .inl (hread hr)
  | readStopped o m c e hr => exact .inl ((hread hr).trans (.refl rfl))
  | replaced o m m' m'' ms c _ hr hs hh h =>
      exact .inl ((hread hr).trans (.said h (answers_kept _ _) (.refl rfl)))
  | passed o m m' m'' c _ hr hs hh h =>
      refine .inl ((hread hr).trans (.said h (fun x hx => List.mem_singleton.mp hx ▸ rfl) ?_))
      split
      · exact afterReady_grows (fun _ => rfl) _ _
      · exact .refl rfl
  | upstreamClosed lease _ hlease h => exact .inr ⟨_, lease, _, _, .closed (hlease ▸ rfl), h⟩

end Steps

end Core

/-! ## Whole runs -/

namespace Launch

variable {env : Env σ} {l : Launch σ κ}

theorem tidy_any (w : World σ) : w.Tidy fun _ _ => True :=
  ⟨fun _ _ _ => trivial, fun _ _ _ _ _ _ => trivial⟩

/-- The start of a session, whatever the pools hold. -/
theorem start_starts (env : Env σ) (l : Launch σ κ) :
    l.new.Kept (fun _ _ => True) (l.new.start env) ∧
    Session.Starts env (fun _ _ => True) l.params l.startup l.new.toCore
      (l.new.start env).toCore :=
  Session.start_spec (fun _ _ _ _ _ => trivial) (fun _ _ _ _ _ => trivial) (tidy_any _)

/-- The interceptor of a session is the one it was started with. -/
theorem after_interceptor (ms : List (Move σ)) : (l.after env ms).interceptor = l.interceptor := by
  have hmove : ∀ (s : Session σ κ) (m : Move σ), s.interceptor = l.interceptor → True →
      (s.move env m).interceptor = l.interceptor := by
    intro s m hs _
    cases m with
    | own e => exact (s.step_interceptor e).trans hs
    | others world => exact hs
  exact run_inv hmove _ ms (start_starts env l).1.interceptor (along_true _ ms)

/-- What a session logs at its start. -/
theorem start_logged : ∀ x ∈ (l.new.start env).log,
    (∃ pid endpoint, x = .attached pid endpoint) ∨
      ∃ o info, x = .sent true o (.errorResponse info) := by
  have hstart := (start_starts env l).2
  have hlog : l.new.log = [] := rfl
  generalize (l.new.start env).toCore = d at hstart
  intro x hx
  cases hstart with
  | detached => rw [hlog] at hx; cases hx
  | refused dirty info es hes =>
      have hx' : x ∈ l.new.log ++ es := hx
      rw [hlog] at hx'
      have hmem := hes.subset hx'
      exact .inr ⟨_, info, List.mem_singleton.mp hmem⟩
  | attached c₁ _ h =>
      cases h with
      | held lease hl => cases hl
      | leased =>
          have hx' : x ∈ l.new.log ++ [_] := hx
          rw [hlog] at hx'
          exact .inl ⟨_, _, List.mem_singleton.mp hx'⟩

/-- The rule for invariants that do not depend on what the pools hold. -/
theorem core_rule {Φ : PoolKey → Conn σ → Prop} {ok : Session σ κ → Event → Prop}
    {Inv : Core σ → Prop} (hstart : Inv (l.new.start env).toCore)
    (hstep : ∀ s e d, Inv s.toCore → s.ended = none → ok s e →
      Steps env s.interceptor (fun _ _ => True) s e d → Inv d)
    {ms : List (Move σ)} (hrun : l.Runs env Φ ok ms) : Inv (l.after env ms).toCore := by
  have hmove : ∀ (s : Session σ κ) (m : Move σ), Inv s.toCore → Session.Within Φ ok s m →
      Inv (s.move env m).toCore := by
    intro s m hs hm
    cases m with
    | others world => exact hs
    | own e =>
        by_cases he : s.ended = none
        · exact hstep s e _ hs he (hm he) (Session.step_steps he)
        · rw [Session.move, Session.step_ended he]
          exact hs
  exact run_inv hmove _ ms hstart hrun

/-- The rule for the entries of a log: `Q ms x` says of the entry `x` that it is in order after
    the moves `ms`. -/
theorem log_rule {Φ : PoolKey → Conn σ → Prop} {ok : Session σ κ → Event → Prop}
    {Q : List (Move σ) → Entry → Prop} (hstart : ∀ x ∈ (l.new.start env).log, Q [] x)
    (hmore : ∀ ms m x, Q ms x → Q (ms ++ [m]) x)
    (hstep : ∀ ms e, ok (l.after env ms) e → (l.after env ms).ended = none →
      Core.Grows (Q (ms ++ [.own e])) (l.after env ms).toCore
        ((l.after env ms).step env e).toCore)
    {ms : List (Move σ)} (hrun : l.Runs env Φ ok ms) : ∀ x ∈ (l.after env ms).log, Q ms x := by
  induction ms using List.reverseRecOn with
  | nil => exact hstart
  | append_singleton ms m ih =>
      obtain ⟨hms, hm, _⟩ := (along_append _ ms [m]).mp hrun
      have hafter : l.after env (ms ++ [m]) = (l.after env ms).move env m :=
        run_append _ _ ms [m]
      intro x hx
      rw [hafter] at hx
      cases m with
      | others world => exact hmore ms _ x (ih hms x hx)
      | own e =>
          by_cases he : (l.after env ms).ended = none
          · obtain ⟨es, hes, hQ⟩ := hstep ms e (hm he) he
            have hx' : x ∈ (l.after env ms).log ++ es := hes ▸ hx
            rcases List.mem_append.mp hx' with hx' | hx'
            · exact hmore ms _ x (ih hms x hx')
            · exact hQ x hx'
          · rw [Session.move, Session.step_ended he] at hx
            exact hmore ms _ x (ih hms x hx)

end Launch

end Pgferry
