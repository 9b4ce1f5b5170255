/-
  The connection that a session is pinned to.

  A session is pinned to a connection from the first message that it forwards there up to the
  `ReadyForQuery` with status idle that answers this message or a later one. A transaction lies
  within one such stretch when the client has one cycle open at a time: nothing of the stretch was
  answered with status idle before the message that opens the transaction was sent.

  `Pinning` follows the log of a session: a pinned session forwards to its connection only, and
  puts it back only when it is no longer pinned. Who answered what is taken from the tags of the
  server's messages, not from what the pump makes of them.

  Proved: `steps_pinned`, an iteration of a session in transaction mode keeps to this and holds
  the connection that it is pinned to, when the pools hand out quiet connections.
-/
import Pgferry.Isolation
import Pgferry.Session.Entries
import Pgferry.Session.Holding

namespace Pgferry

open Loop

variable {σ κ : Type}

/-! ## The scan of a log -/

structure Pinning where
  /-- The connection, and the number of the message that was forwarded there first. -/
  pin : Option (Nat × Nat) := none
  ok : Bool := true
  deriving DecidableEq

namespace Pinning

/-- An answer to `o` is one to the session `n`, for the pinning message or a later one. -/
def answers (n : Nat) (p : Pinning) : Origin → Bool
  | .client session seq => session == n && p.pin.any fun pin => decide (pin.2 ≤ seq)
  | .proxy => false

def note (n : Nat) (p : Pinning) : Entry → Pinning
  | .forwarded pid seq _ =>
      match p.pin with
      | none => { p with pin := some (pid, seq) }
      | some (pinned, _) => { p with ok := p.ok && pid == pinned }
  | .sent false o (.readyForQuery .idle) => if p.answers n o then { p with pin := none } else p
  | .detached _ => { p with ok := p.ok && p.pin.isNone }
  | _ => p

end Pinning

/-- An entry that the scan passes over. -/
def Entry.neutral : Entry → Bool
  | .forwarded _ _ _ | .detached _ => false
  | .sent own _ (.readyForQuery .idle) => own
  | _ => true

theorem Entry.neutral_own (o : Origin) (m : BackendMessage) :
    (Entry.sent true o m).neutral = true := by
  cases m with
  | readyForQuery status => cases status <;> rfl
  | _ => rfl

theorem Entry.neutral_passed {o : Origin} {m : BackendMessage} (h : m ≠ .readyForQuery .idle) :
    (Entry.sent false o m).neutral = true := by
  cases m with
  | readyForQuery status =>
      cases status with
      | idle => exact absurd rfl h
      | _ => rfl
  | _ => rfl

theorem Pinning.note_neutral {e : Entry} (h : e.neutral = true) (n : Nat) (p : Pinning) :
    p.note n e = p := by
  unfold Pinning.note
  split <;> first | rfl | cases h

theorem Pinning.note_first {n pid seq : Nat} {m : FrontendMessage} {p : Pinning}
    (h : p.pin = none) : p.note n (.forwarded pid seq m) = { p with pin := some (pid, seq) } := by
  rw [note, h]

theorem Pinning.note_same {n pid seq first : Nat} {m : FrontendMessage} {p : Pinning}
    (h : p.pin = some (pid, first)) : p.note n (.forwarded pid seq m) = p := by
  obtain ⟨_, ok⟩ := p
  cases h
  simp [note]

theorem Pinning.foldl_neutral {es : List Entry} (h : ∀ e ∈ es, e.neutral = true) (n : Nat)
    (p : Pinning) : es.foldl (Pinning.note n) p = p := by
  induction es with
  | nil => rfl
  | cons e es ih =>
      rw [List.foldl_cons, note_neutral (h e List.mem_cons_self)]
      exact ih fun e he => h e (List.mem_cons_of_mem _ he)

namespace Core

def pinning (c : Core σ) : Pinning := c.log.foldl (Pinning.note c.id) {}

section Scan

variable {c d : Core σ}

theorem pinning_append (hid : d.id = c.id) {es : List Entry} (h : d.log = c.log ++ es) :
    d.pinning = es.foldl (Pinning.note c.id) c.pinning := by
  rw [pinning, pinning, h, hid, List.foldl_append]

theorem pinning_congr (hid : d.id = c.id) (h : d.log = c.log) : d.pinning = c.pinning := by
  rw [pinning, pinning, h, hid]

theorem Grows.pinning (h : Grows (fun e => e.neutral = true) c d) (hid : d.id = c.id) :
    d.pinning = c.pinning := by
  obtain ⟨es, hlog, hes⟩ := h
  rw [pinning_append hid hlog, Pinning.foldl_neutral hes]

end Scan

end Core

/-! ## Interceptors that forward or deny -/

/-- `Forward` or `Deny`. -/
def Action.lets : Action → Bool
  | .forward | .deny _ => true
  | _ => false

/-- The interceptor only forwards or denies. `on_query` may rewrite the SQL. The raw hooks leave
    the client's messages alone, and no message of the server becomes another
    `ReadyForQuery`. -/
structure Interceptor.Gates (h : Interceptor κ) : Prop where
  query : ∀ ctx cycle, (h.onQuery ctx cycle).2.2.lets = true
  frontend : ∀ ctx m, (h.onFrontend ctx m).2.1 = m ∧ (h.onFrontend ctx m).2.2.lets = true
  backend : ∀ ctx m, ((h.onBackend ctx m).2.1.ready = 1 → (h.onBackend ctx m).2.1 = m) ∧
    (h.onBackend ctx m).2.2.lets = true

def Gates (i : Option (Interceptor κ)) : Prop := ∀ h ∈ i, h.Gates

section Gates

variable {i : Option (Interceptor κ)}

theorem gates_none : Gates (none : Option (Interceptor κ)) := nofun

theorem Gates.steady (hg : Gates i) : Steady i := by
  refine fun h hi ctx => ⟨fun m => ((hg h hi).frontend ctx m).1, fun m hm => ?_⟩
  rwa [((hg h hi).backend ctx m).1 hm] at hm

theorem Gates.mute (hg : Gates i) : Mute i := by
  refine fun h hi ctx => ⟨fun m ms heq => ?_, fun m ms heq => ?_⟩
  · have hlets := ((hg h hi).frontend ctx m).2
    rw [heq] at hlets
    cases hlets
  · have hlets := ((hg h hi).backend ctx m).2
    rw [heq] at hlets
    cases hlets

theorem Gates.unscattered (hg : Gates i) : ¬ Core.AsksScatter i := by
  rintro ⟨input, request, h, hi, ctx, heq⟩
  have hlets := (hg h hi).query ctx (QueryCycle.new input.sql input.kind)
  rw [heq] at hlets
  cases hlets

/-- A `ReadyForQuery` that reaches the client is the server's. -/
theorem Gates.ready (hg : Gates i) {m m' m'' : BackendMessage} {action : Action}
    (hs : Shown i m m') (hh : HookedBack i m' m'' action) (hr : m''.ready = 1) : m'' = m := by
  have heq : m'' = m' := by
    rcases hh with ⟨_, rfl, _⟩ | ⟨h, hi, ctx, heq⟩
    · rfl
    · have hm := ((hg h hi).backend ctx m').1
      rw [heq] at hm
      exact hm hr
  subst heq
  rcases hs with rfl | ⟨_, ⟨_, _, _, rfl⟩ | ⟨_, _, _, rfl⟩⟩
  · rfl
  · cases hr
  · cases hr

end Gates

/-! ## The invariant -/

namespace Core

/-- The session has kept to its connection, its lease is the connection it is pinned to, and
    what is under way there belongs to the stretch. The pin of an ended session may be left. -/
structure Pinned (u : Upstream σ) (c : Core σ) : Prop where
  ok : c.pinning.ok = true
  seq : ∀ p ∈ c.pinning.pin, p.2 ≤ c.seq
  since : ∀ p ∈ c.pinning.pin, ∀ o ∈ c.traffic u, p.2 ≤ o.seq
  same : c.pinning.pin.map Prod.fst = c.pid ∨
    c.ended.isSome = true ∧ (c.pid = none ∨ c.pinning.pin = none)

section Pinned

variable {u : Upstream σ} {c d : Core σ}

theorem Pinned.live (hp : c.Pinned u) (h : c.ended = none) :
    c.pinning.pin.map Prod.fst = c.pid := by
  rcases hp.same with hs | ⟨he, _⟩
  · exact hs
  · rw [h] at he
    cases he

/-- A step that the scan passes over. -/
theorem Pinned.still (hp : c.Pinned u) (hlive : c.ended = none) (hpin : d.pinning = c.pinning)
    (hseq : c.seq ≤ d.seq)
    (hmem : ∀ o ∈ d.traffic u, o ∈ c.traffic u ∨ o = d.origin ∧ c.seq < d.seq)
    (hpid : d.pid = c.pid ∨ d.ended.isSome = true ∧ c.pid = none) : d.Pinned u := by
  refine ⟨hpin ▸ hp.ok, fun p h => ?_, fun p h o ho => ?_, ?_⟩
  · rw [hpin] at h
    exact Nat.le_trans (hp.seq p h) hseq
  · rw [hpin] at h
    rcases hmem o ho with ho | ⟨rfl, _⟩
    · exact hp.since p h o ho
    · exact Nat.le_trans (hp.seq p h) hseq
  · rw [hpin]
    rcases hpid with hpid | ⟨he, hnone⟩
    · exact .inl ((hp.live hlive).trans hpid.symm)
    · refine .inr ⟨he, .inr ?_⟩
      have := hp.live hlive
      rw [hnone] at this
      exact Option.map_eq_none_iff.mp this

/-- Nothing is pinned and nothing is leased. -/
theorem pinned_of_free (hok : c.pinning.ok = true) (hpin : c.pinning.pin = none)
    (hpid : c.pid = none ∨ c.ended.isSome = true) : c.Pinned u := by
  refine ⟨hok, ?_, ?_, ?_⟩
  · rw [hpin]
    nofun
  · rw [hpin]
    nofun
  · rcases hpid with h | h
    · exact .inl (by rw [hpin, h]; rfl)
    · exact .inr ⟨h, .inr hpin⟩

end Pinned

/-! ## Steps -/

section Steps

variable {env : Env σ} {i : Option (Interceptor κ)} {s : Session σ κ} {e : Event} {c d : Core σ}

theorem neutral_answers (c : Core σ) (ms : List BackendMessage) :
    ∀ e ∈ c.answers ms, e.neutral = true := by
  intro e he
  obtain ⟨m, _, rfl⟩ := List.mem_map.mp he
  exact Entry.neutral_own _ m

theorem neutral_legs {m : FrontendMessage} {legs : List Entry} (h : Legs m legs) :
    ∀ e ∈ legs, e.neutral = true := by
  cases h with
  | none => nofun
  | one => exact fun e he => List.mem_singleton.mp he ▸ rfl

theorem recv_neutral (c : Core σ) (m : FrontendMessage) :
    Grows (fun e => e.neutral = true) c (c.recv m) := .one rfl rfl

theorem answered_neutral {m : FrontendMessage} {t : Timing} (h : Answered env i s c m t d) :
    Grows (fun e => e.neutral = true) c d := by
  obtain ⟨legs, ms, hlog, hlegs, _⟩ := answered_log h
  refine ⟨_, hlog, fun e he => ?_⟩
  exact (List.mem_append.mp he).elim (neutral_legs hlegs e) (neutral_answers c ms e)

theorem enters_neutral {Φ : PoolKey → Conn σ → Prop} {m m' : FrontendMessage}
    (h : Enters env i Φ s c m m' d) : Grows (fun e => e.neutral = true) c d := by
  rcases (enters_frame h).log with hlog | ⟨pid, endpoint, hlog⟩
  · exact .refl hlog
  · exact .one hlog rfl

/-- An attached session keeps its connection. -/
theorem enters_pid {Φ : PoolKey → Conn σ → Prop} {m m' : FrontendMessage}
    (h : Enters env i Φ s c m m' d) : d.pid = c.pid ∨ c.pid = none := by
  obtain ⟨c₁, hatt, rfl⟩ := h.attaches
  obtain ⟨b, hb⟩ := c.note_eq m
  obtain ⟨_, _, hr⟩ := c₁.register_eq (pendingParse m')
  rw [hb] at hatt
  rw [hr]
  cases hatt with
  | held => exact .inl rfl
  | leased _ _ _ _ _ hnone => exact .inr (pid_none hnone)

/-- A message is forwarded: the first one pins the connection, the others go to it. -/
theorem forwarded_pinned {u : Upstream σ} {c₁ : Core σ} {pid : Nat} {m : FrontendMessage}
    (hp : c.Pinned u) (hlive : c.ended = none) (hpin : c₁.pinning = c.pinning)
    (hid : d.id = c₁.id) (hlog : d.log = c₁.log ++ [.forwarded pid d.seq m])
    (hpid : d.pid = some pid) (hkeep : d.pid = c.pid ∨ c.pid = none) (hseq : c.seq ≤ d.seq)
    (hmem : ∀ o ∈ d.traffic u, o ∈ c.traffic u ∨ o = d.origin ∧ c.seq < d.seq) :
    d.Pinned u := by
  have hsame := hp.live hlive
  have hlast : d.pinning = c.pinning.note c₁.id (.forwarded pid d.seq m) :=
    (pinning_append hid hlog).trans (by rw [hpin]; rfl)
  cases hpinned : c.pinning.pin with
  | none =>
      rw [Pinning.note_first hpinned] at hlast
      have hfirst : d.pinning.pin = some (pid, d.seq) := by rw [hlast]
      have hnone : c.lease = none := by
        rw [hpinned] at hsame
        exact Option.map_eq_none_iff.mp hsame.symm
      refine ⟨by rw [hlast]; exact hp.ok, ?_, ?_, .inl (by rw [hfirst, hpid]; rfl)⟩
      · intro p h
        cases hfirst.symm.trans h
        exact Nat.le_refl _
      · intro p h o ho
        cases hfirst.symm.trans h
        rcases hmem o ho with ho | ⟨rfl, _⟩
        · rw [traffic_none hnone] at ho
          cases ho
        · exact Nat.le_refl _
  | some p =>
      obtain ⟨pinned, first⟩ := p
      have hheld : c.pid = some pinned := by rw [← hsame, hpinned]; rfl
      have hkept : d.pid = c.pid := by
        refine hkeep.resolve_right fun h => ?_
        rw [hheld] at h
        cases h
      obtain rfl : pid = pinned := by
        rw [hpid, hheld] at hkept
        exact Option.some.inj hkept
      rw [Pinning.note_same hpinned] at hlast
      exact hp.still hlive hlast hseq hmem (.inl hkept)

/-- The server's answer with status idle ends the stretch. -/
theorem closed_pinning {u : Upstream σ} {o : Origin} (hp : c.Pinned u) (hmine : c.Owns o)
    (hsince : ∀ p ∈ c.pinning.pin, p.2 ≤ o.seq) (hid : d.id = c.id)
    (hlog : d.log = c.log ++ [.sent false o (.readyForQuery .idle)]) :
    d.pinning.pin = none ∧ d.pinning.ok = true := by
  have hlast : d.pinning = c.pinning.note c.id (.sent false o (.readyForQuery .idle)) :=
    pinning_append hid hlog
  obtain ⟨k, _, rfl⟩ := hmine
  cases hpin : c.pinning.pin with
  | none =>
      have hstays : c.pinning.answers c.id (.client c.id k) = false := by
        simp [Pinning.answers, hpin]
      rw [hlast, Pinning.note, hstays]
      exact ⟨hpin, hp.ok⟩
  | some p =>
      have hends : c.pinning.answers c.id (.client c.id k) = true := by
        have hle : p.2 ≤ k := hsince p hpin
        simp [Pinning.answers, hpin, hle]
      rw [hlast, Pinning.note, hends]
      exact ⟨rfl, hp.ok⟩

theorem readNext_status {tm : Bool} {o : Origin} {status : TransactionStatus}
    (h : c.readNext tm = some (o, .readyForQuery status, d)) : d.leaseStatus = status := by
  obtain ⟨lease, rest, _, _, _, _, hd⟩ := readNext_spec h
  rw [leaseStatus, hd]
  rfl

/-- Putting the connection back when nothing is pinned. -/
theorem detached_pinned {u : Upstream σ} {pid : Nat} (hok : c.pinning.ok = true)
    (hpin : c.pinning.pin = none) (hid : d.id = c.id) (hlog : d.log = c.log ++ [.detached pid])
    (hl : d.lease = none) : d.Pinned u := by
  have hlast : d.pinning = c.pinning.note c.id (.detached pid) := pinning_append hid hlog
  rw [Pinning.note, hpin, hok] at hlast
  exact pinned_of_free (by rw [hlast]; rfl) (by rw [hlast]) (.inl (pid_none hl))

/-- A message of the server goes to the client, and the lease perhaps back to its pool. -/
theorem passed_pinned {u : Upstream σ} {o : Origin} {m m' m'' : BackendMessage} (hg : Gates i)
    (htm : env.transactionMode = true) (hmine : s.toCore.Mine u) (hp : s.toCore.Pinned u)
    (hlive : s.ended = none) (hr : s.toCore.readNext env.transactionMode = some (o, m, c))
    (hs : Shown i m m') (hh : HookedBack i m' m'' .forward)
    (h : Said c [.sent false o m'']
      (if m''.ready = 1 then Core.afterReady env.transactionMode else fun d => d) d) :
    d.Pinned u := by
  obtain ⟨lease, _, _, _, hframe, _, hlease⟩ := readNext_spec hr
  obtain ⟨ht, hlog⟩ := readNext_flows (u := u) hr
  have hpin : c.pinning = s.toCore.pinning := pinning_congr hframe.id hlog
  have hc : c.Pinned u := hp.still hlive hpin (Nat.le_of_eq hframe.seq.symm)
    (fun x hx => .inl (ht ▸ List.mem_cons_of_mem _ hx)) (.inl (readNext_pid hr))
  have hown : c.Owns o :=
    (hmine.coming o (ht ▸ List.mem_cons_self)).mono hframe.id (Nat.le_of_eq hframe.seq.symm)
  have hsince : ∀ p ∈ c.pinning.pin, p.2 ≤ o.seq := by
    rw [hpin]
    exact fun p hp' => hp.since p hp' o (ht ▸ List.mem_cons_self)
  -- What leaves the lease and the scan alone, and what ends the stretch.
  have hstill : ∀ e : Core σ, e.id = c.id → e.seq = c.seq → e.lease = c.lease →
      Grows (fun e => e.neutral = true) c e → e.Pinned u := fun e hid hseq hl hgrow =>
    hc.still (hframe.ended.trans hlive) (hgrow.pinning hid) (Nat.le_of_eq hseq.symm)
      (fun x hx => .inl (traffic_congr hl ▸ hx)) (.inl (pid_congr hl))
  by_cases hidle : m'' = .readyForQuery .idle
  · subst hidle
    have hfree : ∀ e : Core σ, e.id = c.id →
        e.log = c.log ++ [.sent false o (.readyForQuery .idle)] →
        e.pinning.pin = none ∧ e.pinning.ok = true := fun e => closed_pinning hc hown hsince
    have hm : m = .readyForQuery .idle := (hg.ready hs hh rfl).symm
    subst hm
    cases h with
    | cut pre endpoint attached hpre =>
        rcases List.prefix_cons_iff.mp hpre with rfl | ⟨pre', rfl, h'⟩
        · exact hstill _ rfl rfl rfl (.refl (List.append_nil _))
        · cases List.prefix_nil.mp h'
          obtain ⟨h1, h2⟩ := hfree ({ (c.emit [.sent false o (.readyForQuery .idle)]).stop
            .clientGone with currentEndpoint := endpoint, attached := attached }) rfl rfl
          exact pinned_of_free h2 h1 (.inr rfl)
    | done =>
        obtain ⟨h1, h2⟩ := hfree (c.emit [.sent false o (.readyForQuery .idle)]) rfl rfl
        show ((c.emit _).afterReady env.transactionMode).Pinned u
        rw [afterReady]
        split
        · exact pinned_of_free h2 h1 (.inr rfl)
        · have hidle : c.leaseStatus = .idle := readNext_status hr
          have hstatus : (c.emit [.sent false o (.readyForQuery .idle)]).leaseStatus = .idle :=
            hidle
          have hl : (c.emit [.sent false o (.readyForQuery .idle)]).lease = c.lease := rfl
          rw [if_pos ⟨htm, hstatus⟩, hl, hlease]
          exact detached_pinned h2 h1 rfl rfl rfl
  · have hneutral := Entry.neutral_passed (o := o) hidle
    cases h with
    | cut pre endpoint attached hpre =>
        refine hstill _ rfl rfl rfl ⟨pre, rfl, fun e he => ?_⟩
        rw [List.mem_singleton.mp (hpre.subset he)]
        exact hneutral
    | done =>
        have hsent : Grows (fun e => e.neutral = true) c (c.emit [.sent false o m'']) :=
          .one rfl hneutral
        split
        case isTrue hready =>
          obtain rfl := hg.ready hs hh hready
          obtain ⟨status, rfl⟩ : ∃ status, m'' = .readyForQuery status := by
            cases m'' <;> first | exact ⟨_, rfl⟩ | cases hready
          have hbusy : (c.emit [.sent false o (.readyForQuery status)]).leaseStatus ≠ .idle := by
            intro h
            exact hidle (by rw [← readNext_status hr]; exact congrArg _ h)
          rw [afterReady]
          split
          · exact hstill _ rfl rfl rfl hsent
          · rw [if_neg fun h => hbusy h.2]
            exact hstill _ rfl rfl rfl hsent
        case isFalse => exact hstill _ rfl rfl rfl hsent

theorem steps_pinned {n : Nat} (hu : env.upstream.InOrder) (hg : Gates i)
    (htm : env.transactionMode = true) (hc : s.toCore.Isolated env.upstream n)
    (hp : s.toCore.Pinned env.upstream) (hlive : s.ended = none)
    (hone : s.OneCycle env.upstream e) (hnf : s.NoFailure e)
    (h : Steps env i (QuietPool env.upstream) s e d) : d.Pinned env.upstream := by
  have hflows := steps_flows hu hg.mute (by
    rintro _ sql t lease leg rfl hlease hb
    have hfree := hone.resolve_left nofun
    rw [outstanding_some hlease] at hfree
    exact (Conn.runQueryCollect_quiet hu (hc.calm.tame lease hlease) hfree hb).tags) h
  obtain ⟨hid, hseq⟩ := steps_position h
  -- The steps that the scan passes over.
  have hstill : Grows (fun e => e.neutral = true) s.toCore d →
      (d.pid = s.toCore.pid ∨ d.ended.isSome = true ∧ s.toCore.pid = none) →
      d.Pinned env.upstream := fun hgrow =>
    hp.still hlive (hgrow.pinning hid) hseq hflows.mem
  have hread : ∀ {o m c}, s.toCore.readNext env.transactionMode = some (o, m, c) →
      Grows (fun e => e.neutral = true) s.toCore c ∧ c.pid = s.toCore.pid := by
    intro o m c hr
    obtain ⟨_, _, _, _, hf, _⟩ := readNext_spec hr
    exact ⟨.refl hf.log, readNext_pid hr⟩
  have henter : ∀ {m m' c}, Enters env i (QuietPool env.upstream) s (s.toCore.recv m) m m' c →
      Grows (fun e => e.neutral = true) s.toCore c := fun hent =>
    (recv_neutral s.toCore _).trans (enters_neutral hent)
  cases h with
  | answered m t _ h =>
      refine hstill ((recv_neutral s.toCore m).trans (answered_neutral h)) (.inl ?_)
      cases (answered_frame h).2 with
      | same hl => exact pid_congr hl
      | dropped hs => exact absurd hs hg.unscattered
      | ran hs => exact absurd hs hg.unscattered
  | attachFailed m m' t d' _ _ h =>
      obtain ⟨_, _, _, es, hnone, hes, rfl⟩ := attachFails_noted h
      refine hstill ((recv_neutral s.toCore m).trans ⟨es, rfl, fun e he => ?_⟩)
        (.inr ⟨rfl, pid_none hnone⟩)
      exact neutral_answers _ _ e (hes.subset he)
  | hookReplied m m' m'' t ms c _ hent hh h => exact (hh.mute hg.mute).elim
  | hookStopped m m' m'' t action c hent hh ha =>
      refine hstill ((henter hent).trans (.refl rfl)) ?_
      exact (enters_pid hent).imp (fun h => h) fun h => ⟨rfl, h⟩
  | put m m' m'' t c lease hent hh hlease hs =>
      have hpid : ((c.await m'').put env.upstream lease m'').pid = c.pid := by
        have hl : (c.await m'').lease = some lease := by rw [await_eq]; exact hlease
        rw [put_pid hl, pid_some hl, pid_some hlease]
      have hlog : ((c.await m'').put env.upstream lease m'').log = c.log ++
          [.forwarded lease.conn.processId ((c.await m'').put env.upstream lease m'').seq m''] := by
        rw [awaitPut_eq]
      have hkeep : c.pid = (s.toCore.recv m).pid ∨ (s.toCore.recv m).pid = none :=
        enters_pid hent
      exact forwarded_pinned hp hlive ((henter hent).pinning (enters_frame hent).id)
        (by rw [awaitPut_eq]) hlog (hpid.trans (pid_some hlease)) (hpid ▸ hkeep) hseq hflows.mem
  | sendFailed m m' m'' t c _ lease hent hh hlease hs h =>
      rw [Session.NoFailure, hs] at hnf
      cases hnf
  | clientGone | idle | drain | shutdown => exact hstill (.refl rfl) (.inl rfl)
  | upstreamError reason lease hlease =>
      rw [Session.NoFailure, hlease] at hnf
      cases hnf
  | upstreamClosed lease _ hlease h =>
      rw [Session.NoFailure, hlease] at hnf
      cases hnf
  | rowDropped o m _ row hr => exact hstill (hread hr).1 (.inl (hread hr).2)
  | readStopped o m c e hr =>
      exact hstill ((hread hr).1.trans (.refl rfl)) (.inl (hread hr).2)
  | replaced o m m' m'' ms c _ hr hs hh h => exact (hh.mute hg.mute).elim
  | passed o m m' m'' c _ hr hs hh h => exact passed_pinned hg htm hc.mine hp hlive hr hs hh h
  | cancel lease hlease => exact hstill (.one rfl rfl) (.inl (cancel_pid _ hlease))

/-- What an iteration forwards goes to the connection that is held after it. -/
theorem steps_forwards {Φ : PoolKey → Conn σ → Prop} (hnf : s.NoFailure e)
    (h : Steps env i Φ s e d) :
    Grows (fun x => ∀ pid seq m, x = .forwarded pid seq m → d.pid = some pid) s.toCore d := by
  have hneutral : ∀ x : Entry, x.neutral = true →
      ∀ pid seq m, x = .forwarded pid seq m → d.pid = some pid := by
    rintro _ hx pid seq m rfl
    cases hx
  have hgrow : ∀ {c₁ c₂ : Core σ}, Grows (fun e => e.neutral = true) c₁ c₂ →
      Grows (fun x => ∀ pid seq m, x = .forwarded pid seq m → d.pid = some pid) c₁ c₂ :=
    fun ⟨es, hlog, hes⟩ => ⟨es, hlog, fun x hx => hneutral x (hes x hx)⟩
  have hread : ∀ {o m c}, s.toCore.readNext env.transactionMode = some (o, m, c) →
      Grows (fun e => e.neutral = true) s.toCore c := by
    intro o m c hr
    obtain ⟨_, _, _, _, hf, _⟩ := readNext_spec hr
    exact .refl hf.log
  cases h with
  | answered m t _ h => exact hgrow ((recv_neutral s.toCore m).trans (answered_neutral h))
  | attachFailed m m' t d' _ _ h =>
      obtain ⟨_, _, _, es, -, hes, rfl⟩ := attachFails_noted h
      refine hgrow ((recv_neutral s.toCore m).trans ⟨es, rfl, fun e he => ?_⟩)
      exact neutral_answers _ _ e (hes.subset he)
  | hookReplied m m' m'' t ms c _ hent hh h =>
      exact hgrow (((recv_neutral s.toCore m).trans (enters_neutral hent)).trans
        (.said h (neutral_answers _ _) (.refl rfl)))
  | hookStopped m m' m'' t action c hent hh ha =>
      exact hgrow (((recv_neutral s.toCore m).trans (enters_neutral hent)).trans (.refl rfl))
  | put m m' m'' t c lease hent hh hlease hs =>
      refine (hgrow ((recv_neutral s.toCore m).trans (enters_neutral hent))).trans
        (.one (by rw [awaitPut_eq]) ?_)
      rintro _ _ _ ⟨⟩
      have hl : (c.await m'').lease = some lease := by rw [await_eq]; exact hlease
      rw [put_pid hl, pid_some hl]
  | sendFailed m m' m'' t c _ lease hent hh hlease hs h =>
      rw [Session.NoFailure, hs] at hnf
      cases hnf
  | upstreamClosed lease _ hlease h =>
      rw [Session.NoFailure, hlease] at hnf
      cases hnf
  | clientGone | idle | drain | shutdown | upstreamError => exact .refl rfl
  | cancel => exact hgrow (.one rfl rfl)
  | rowDropped o m _ row hr => exact hgrow (hread hr)
  | readStopped o m c e hr => exact hgrow ((hread hr).trans (.refl rfl))
  | replaced o m m' m'' ms c _ hr hs hh h =>
      exact hgrow ((hread hr).trans (.said h (neutral_answers _ _) (.refl rfl)))
  | passed o m m' m'' c _ hr hs hh h =>
      refine (hgrow (hread hr)).trans (.said h (fun x hx => ?_) ?_)
      · rw [List.mem_singleton.mp hx]
        nofun
      · split
        · unfold afterReady
          split
          · exact .refl rfl
          · split
            · split
              · exact .one rfl nofun
              · exact .refl rfl
            · exact .refl rfl
        · exact .refl rfl

theorem pinned_stable {startup : Params} (n : Nat) (hu : env.upstream.InOrder) (hg : Gates i)
    (htm : env.transactionMode = true) :
    Session.Stable env i startup (QuietPool env.upstream)
      (fun s e => s.OneCycle env.upstream e ∧ s.NoFailure e)
      (fun c => c.Isolated env.upstream n ∧ c.Pinned env.upstream) where
  probe := quiet_probe hu
  leg := fun sql _ => quiet_leg hu startup sql
  releases := fun _ hs _ _ => calm_releases hu hg.steady hs.inv.1.calm
  step := fun _ _ _ hs hlive hok h =>
    ⟨steps_isolated hu hg.steady hg.mute hs.inv.1 hok.1 h,
      steps_pinned hu hg htm hs.inv.1 hs.inv.2 hlive hok.1 hok.2 h⟩

end Steps

end Core

/-! ## The start and the end -/

theorem Launch.start_pinned {env : Env σ} {l : Launch σ κ} (htm : env.transactionMode = true) :
    (l.new.start env).toCore.Pinned env.upstream ∧
      ∀ pid seq m, Entry.forwarded pid seq m ∉ (l.new.start env).log := by
  have hstart := (start_starts env l).2
  have hnew : l.new.toCore.pinning = {} := rfl
  generalize (l.new.start env).toCore = d at hstart
  cases hstart with
  | detached => exact ⟨Core.pinned_of_free rfl rfl (.inl rfl), fun _ _ _ => List.not_mem_nil⟩
  | refused dirty info es hes =>
      have hneutral : ∀ e ∈ es, e.neutral = true := fun e he =>
        Core.neutral_answers _ _ e (hes.subset he)
      have hgrow : Core.Grows (fun e => e.neutral = true) l.new.toCore
          (({ l.new.toCore with leaseDirty := dirty }.emit es).stop .clientGone) :=
        ⟨es, rfl, hneutral⟩
      have hpin := hgrow.pinning rfl
      refine ⟨Core.pinned_of_free (by rw [hpin]; rfl) (by rw [hpin]; rfl) (.inl rfl), ?_⟩
      intro pid seq m hm
      cases hneutral _ (List.mem_append.mp hm |>.resolve_left List.not_mem_nil)
  | attached c₁ ht => rw [htm] at ht; cases ht

theorem Session.finish_pinned {env : Env σ} {s : Session σ κ} (arrived : Nat)
    (h : s.toCore.Pinned env.upstream) : (s.finish env arrived).toCore.Pinned env.upstream := by
  have hended : s.ended.isSome = true →
      { s.toCore with lease := none }.Pinned env.upstream := fun he =>
    ⟨h.ok, h.seq, fun _ _ _ ho => absurd ho List.not_mem_nil, .inr ⟨he, .inl rfl⟩⟩
  unfold Session.finish
  split
  case h_1 hend _ =>
    exact hended (by rw [hend]; rfl)
  case h_2 hend _ =>
    exact hended (by rw [hend]; rfl)
  case h_3 hend _ =>
    exact hended (by rw [hend]; rfl)
  case h_4 => exact h

end Pgferry
