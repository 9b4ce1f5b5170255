/-
  The order of the replies.

  A client matches replies to its messages by their order alone. The pump answers some messages
  itself, at once; the replies to earlier messages may then still be on the lease, fed but not
  flushed, in flight, or unread. `InTurn` is what the client relies on: every reply answers a
  message of its own, the replies come in the order of the messages, and the pump reports no
  completion of its own behind a failure in the same batch.

  Proved: `replies_in_turn`. This holds in every run in which the pump answers messages itself
  only when its lease rests and no message of the batch has failed, and detaches only a
  connection that rests (`TakesTurns`). Clients may pipeline as they like.
-/
import Pgferry.Session.Entries
import Pgferry.Session.Traffic

namespace Pgferry

open Loop

variable {σ κ : Type}

/-! ## Completions behind a failure -/

structure Batch where
  /-- The message whose failure was reported since the last `ReadyForQuery`. -/
  failed : Option Nat := none
  /-- No completion of the pump followed the failure of an earlier message. -/
  ok : Bool := true

namespace Batch

def sent (b : Batch) (own : Bool) (o : Origin) : BackendMessage → Batch
  | .errorResponse _ => { b with failed := some o.seq }
  | .readyForQuery _ => { b with failed := none }
  | m => { b with ok := b.ok && !(own && m.isCompletion && b.failed.any (· < o.seq)) }

def note (b : Batch) : Entry → Batch
  | .sent own o m => b.sent own o m
  | _ => b

/-- A message that is no completion of the pump, or is not behind a failure. -/
theorem sent_ok {b : Batch} {own : Bool} {o : Origin} {m : BackendMessage}
    (h : (own && m.isCompletion) = false ∨ b.failed.any (· < o.seq) = false) :
    (b.sent own o m).ok = b.ok := by
  have hand : ((own && m.isCompletion) && b.failed.any (· < o.seq)) = false := by
    rcases h with h | h <;> simp [h]
  cases m <;> first
    | rfl
    | (simp only [sent, hand, Bool.not_false, Bool.and_true])

theorem sent_failed {b : Batch} {own : Bool} {o : Origin} {m : BackendMessage}
    (h : b.failed.any (· < o.seq) = false) :
    (b.sent own o m).failed.any (· < o.seq) = false := by
  cases m <;> first
    | exact h
    | simp [sent]

/-- Answers of the pump to one message. -/
theorem foldl_answers {b : Batch} {c : Core σ} {ms : List BackendMessage}
    (h : (∀ x ∈ ms, x.isCompletion = false) ∨ b.failed.any (· < c.seq) = false) :
    ((c.answers ms).foldl note b).ok = b.ok := by
  induction ms generalizing b with
  | nil => rfl
  | cons m ms ih =>
      refine (ih (b := b.sent true c.origin m) ?_).trans (sent_ok ?_)
      · exact h.imp (fun h x hx => h x (List.mem_cons_of_mem _ hx)) sent_failed
      · exact h.imp (fun h => by rw [h m List.mem_cons_self]; rfl) fun h => h

end Batch

def batch (log : List Entry) : Batch := log.foldl Batch.note {}

/-- The entry is a completion that the pump wrote itself. -/
def Entry.completes : Entry → Bool
  | .sent own _ m => own && m.isCompletion
  | _ => false

theorem batch_append (xs ys : List Entry) : batch (xs ++ ys) = ys.foldl Batch.note (batch xs) :=
  List.foldl_append

theorem batch_append_ok {es : List Entry} (h : ∀ e ∈ es, e.completes = false) (log : List Entry) :
    (batch (log ++ es)).ok = (batch log).ok := by
  rw [batch_append]
  generalize batch log = b
  induction es generalizing b with
  | nil => rfl
  | cons e es ih =>
      refine (ih (fun x hx => h x (List.mem_cons_of_mem _ hx)) _).trans ?_
      cases e with
      | sent own o m => exact Batch.sent_ok (.inl (h _ List.mem_cons_self))
      | _ => rfl

theorem Core.answers_completes {c : Core σ} {ms : List BackendMessage}
    (h : ∀ x ∈ ms, x.isCompletion = false) : ∀ e ∈ c.answers ms, e.completes = false := by
  intro e he
  obtain ⟨m, hm, rfl⟩ := List.mem_map.mp he
  rw [Entry.completes, h m hm]
  rfl

namespace Core

/-- `d` has logged more than `c`, and no completion of the pump. -/
abbrev Adds (c d : Core σ) : Prop := Grows (fun e => e.completes = false) c d

section Steps

variable {c d : Core σ}

theorem Adds.ok (h : Adds c d) : (batch d.log).ok = (batch c.log).ok := by
  obtain ⟨es, h1, h2⟩ := h
  rw [h1]
  exact batch_append_ok h2 _

theorem lost_adds {i : Option (Interceptor κ)} {lease : UpstreamLease σ} {reason : String}
    {synth : Bool} (h : Lost i c lease reason synth d) : Adds c d := by
  have hlost : Adds c (c.emit [c.lostEntry lease .relink]).unleased := .one rfl rfl
  cases h with
  | closed => exact .one rfl rfl
  | silent => exact .one rfl rfl
  | simple _ _ _ h =>
      refine hlost.trans (.said h ?_ (.refl rfl))
      exact answers_completes (by simp [BackendMessage.isCompletion])
  | extended _ _ _ h =>
      refine hlost.trans (.said h ?_ (.refl rfl))
      exact answers_completes (by simp [BackendMessage.isCompletion])

theorem enters_adds {env : Env σ} {i : Option (Interceptor κ)} {Φ : PoolKey → Conn σ → Prop}
    {s : Session σ κ} {m m' : FrontendMessage} (h : Enters env i Φ s c m m' d) : Adds c d := by
  rcases (enters_frame h).log with hlog | ⟨pid, endpoint, hlog⟩
  · exact .refl hlog
  · exact .one hlog rfl

/-- Only a local answer writes completions of the pump. -/
theorem steps_adds {env : Env σ} {i : Option (Interceptor κ)} {Φ : PoolKey → Conn σ → Prop}
    {s : Session σ κ} {e : Event} (hp : Passive i) (h : Steps env i Φ s e d) :
    Adds s.toCore d ∨ ∃ m t, e = .client m t ∧ Answered env i s (s.toCore.recv m) m t d := by
  have hrecv : ∀ m, Adds s.toCore (s.toCore.recv m) := fun _ => .one rfl rfl
  have hread : ∀ {tm : Bool} {o m c}, s.toCore.readNext tm = some (o, m, c) → Adds s.toCore c := by
    intro tm o m c hr
    obtain ⟨_, _, _, _, hf, _⟩ := readNext_spec hr
    exact .refl hf.log
  cases h with
  | answered m t _ h => exact .inr ⟨m, t, rfl, h⟩
  | attachFailed m m' t d' _ _ h =>
      obtain ⟨_, _, _, es, -, hes, rfl⟩ := attachFails_noted h
      refine .inl ((hrecv m).trans ⟨es, rfl, fun e he => ?_⟩)
      exact answers_completes (by simp [BackendMessage.isCompletion]) e (hes.subset he)
  | hookReplied m m' m'' t ms c _ hent hh h => cases (hh.passive hp).2
  | hookStopped m m' m'' t action c hent hh ha => exact absurd (hh.passive hp).2 ha
  | put m m' m'' t c lease hent =>
      rw [awaitPut_eq]
      exact .inl (((hrecv m).trans (enters_adds hent)).trans (.one rfl rfl))
  | sendFailed m m' m'' t c _ lease hent hh hlease hs h =>
      have hawait : Adds c (c.await m'') := .refl (by rw [await_eq])
      exact .inl ((((hrecv m).trans (enters_adds hent)).trans hawait).trans (lost_adds h))
  | clientGone | idle | upstreamError | drain | shutdown => exact .inl (.refl rfl)
  | cancel => exact .inl (.one rfl rfl)
  | rowDropped o m _ row hr => exact .inl (hread hr)
  | readStopped o m c e hr => exact .inl ((hread hr).trans (.refl rfl))
  | replaced o m m' m'' ms c _ hr hs hh h => cases (hh.passive hp).2
  | passed o m m' m'' c _ hr hs hh h =>
      refine .inl ((hread hr).trans (.said h (by simp [Entry.completes]) ?_))
      split
      · exact afterReady_grows (fun _ => rfl) _ _
      · exact .refl rfl
  | upstreamClosed lease _ hlease h => exact .inl (lost_adds h)

end Steps

/-! ## The invariant -/

/-- What the client relies on to match replies to its messages. -/
structure InTurn (c : Core σ) : Prop where
  own : ∀ o ∈ replies c.log, c.Owns o
  sorted : Sorted (replies c.log)
  skips : (batch c.log).ok = true

/-- `InTurn`, and the traffic of the lease continues the replies in the same order. -/
structure Lined (u : Upstream σ) (c : Core σ) : Prop where
  mine : c.Mine u
  sorted : Sorted (replies c.log ++ c.traffic u)
  skips : (batch c.log).ok = true

theorem Lined.inTurn {u : Upstream σ} {c : Core σ} (h : c.Lined u) : c.InTurn :=
  ⟨h.mine.sent, (List.pairwise_append.mp h.sorted).1, h.skips⟩

theorem Owns.seq_le {c : Core σ} {o : Origin} (h : c.Owns o) : o.seq ≤ c.seq := by
  obtain ⟨n, hn, rfl⟩ := h
  exact hn

/-- The order of replies and traffic over one step. -/
theorem Lined.sorted_step {u : Upstream σ} {c d : Core σ} {Local : Prop} (h : c.Lined u)
    (hf : Flows u Local c d) (hlocal : Local → c.traffic u = []) (hseq : c.seq ≤ d.seq) :
    Sorted (replies d.log ++ d.traffic u) := by
  obtain ⟨hsent, htraf, hcross⟩ := List.pairwise_append.mp h.sorted
  have hle : ∀ o ∈ replies c.log, o.seq ≤ d.seq := fun o ho =>
    Nat.le_trans (h.mine.sent o ho).seq_le hseq
  cases hf with
  | own n hs hd =>
      have hown : Sorted (replies c.log ++ List.replicate n d.origin) := by
        refine List.pairwise_append.mpr ⟨hsent, sorted_replicate _ _, fun a ha b hb => ?_⟩
        rw [List.eq_of_mem_replicate hb]
        exact hle a ha
      rw [hs]
      rcases hd with hd | ⟨hd, rfl | hl⟩
      · rwa [hd, List.append_nil]
      · rw [hd, List.replicate_zero, List.append_nil]
        exact h.sorted
      · rwa [hd, hlocal hl, List.append_nil]
  | moved hs hmem hsort =>
      rw [hs]
      refine List.pairwise_append.mpr ⟨hsent, hsort ?_ htraf, fun a ha b hb => ?_⟩
      · exact fun o ho => Nat.le_trans (h.mine.coming o ho).seq_le hseq
      · rcases hmem b hb with hb | ⟨rfl, _⟩
        · exact hcross a ha b hb
        · exact hle a ha
  | read o rest hc hs hd =>
      have hall : Sorted ((replies c.log ++ [o]) ++ rest) := by
        rw [List.append_assoc, List.singleton_append, ← hc]
        exact h.sorted
      refine hall.sublist (List.Sublist.append ?_ ?_)
      · rcases hs with hs | hs <;> rw [hs]
        exact List.sublist_append_left _ _
      · rcases hd with hd | hd <;> rw [hd]
        exact List.nil_sublist _

end Core

/-! ## Runs -/

/-- The pump answers a message itself only when its lease rests, and a message other than the
    `Sync` of a refused batch only when no message of the batch has failed; what it detaches
    rests. -/
structure Session.TakesTurns (env : Env σ) (s : Session σ κ) (e : Event) : Prop where
  rests : s.AnswersItself env s.interceptor e → s.toCore.Rests env.upstream
  unfailed : s.AnswersItself env s.interceptor e → s.swallowUntilSync = false →
    e.isSync = false → (batch s.log).failed = none
  detaches : s.DetachesClean env e

namespace Core

theorem steps_lined {env : Env σ} {i : Option (Interceptor κ)} {s : Session σ κ} {e : Event}
    {d : Core σ} (hu : env.upstream.InOrder) (hp : Passive i) (hi : s.interceptor = i)
    (hc : s.toCore.Lined env.upstream) (hok : s.TakesTurns env e)
    (h : Steps env i (QuietPool env.upstream) s e d) : d.Lined env.upstream := by
  subst hi
  obtain ⟨hid, hseq⟩ := steps_position h
  have hflows := steps_flows hu hp.mute (fun hl sql t lease leg _ hlease hb =>
    (Conn.runQueryCollect_quiet hu (hok.rests hl lease hlease).tame
      (hok.rests hl lease hlease).pending hb).tags) h
  refine ⟨hc.mine.step hflows hid hseq,
    hc.sorted_step hflows (fun hl => (hok.rests hl).traffic) hseq, ?_⟩
  rcases steps_adds hp h with hadds | ⟨m, t, rfl, hans⟩
  · exact hadds.ok.trans hc.skips
  · by_cases hq : m = .terminate
    · subst hq
      rw [answered_terminate hans]
      exact (batch_append_ok (by simp [Entry.completes]) _).trans hc.skips
    · obtain ⟨legs, ms, hlog, hlegs, hms⟩ := answered_log hans
      have hrecv : batch ((s.toCore.recv m).log ++ legs) = batch s.log := by
        rw [batch_append, recv, batch_append]
        cases hlegs <;> rfl
      rw [hlog, ← List.append_assoc, batch_append, hrecv]
      refine (Batch.foldl_answers (hms.imp_right fun hskips => ?_)).trans hc.skips
      obtain ⟨hs, hm⟩ := hskips
      have hsync : Event.isSync (.client m t) = false := by
        cases m <;> first
          | rfl
          | exact absurd rfl hm
      rw [hok.unfailed ⟨hq, d, hans⟩ hs hsync]
      rfl

theorem lined_stable {env : Env σ} {i : Option (Interceptor κ)} {startup : Params}
    (hu : env.upstream.InOrder) (hp : Passive i) :
    Session.Stable env i startup (QuietPool env.upstream) (Session.TakesTurns env)
      (Lined env.upstream) where
  probe := quiet_probe hu
  leg := fun sql _ => quiet_leg hu startup sql
  releases := fun _ _ _ hok => hok.detaches.releases hu hp
  step := fun _ _ _ hs _ hok h => steps_lined hu hp hs.interceptor hs.inv hok h

end Core

theorem Launch.start_lined {env : Env σ} {l : Launch σ κ} (hu : env.upstream.InOrder)
    (ht : l.world.Tidy (QuietPool env.upstream)) :
    Session.Holds l.interceptor l.startup (QuietPool env.upstream) (Core.Lined env.upstream)
      (l.new.start env) := by
  obtain ⟨hk, hstart⟩ := l.start_quiet hu ht
  obtain ⟨hflows, hid⟩ := l.start_flows hu ht
  have hnew : l.new.toCore.Lined env.upstream :=
    ⟨⟨fun _ h => absurd h List.not_mem_nil, fun _ h => absurd h List.not_mem_nil⟩, .nil, rfl⟩
  have hseq : l.new.seq ≤ (l.new.start env).seq := Nat.zero_le _
  refine ⟨⟨hnew.mine.step hflows hid hseq, hnew.sorted_step hflows False.elim hseq, ?_⟩, hk.tidy,
    hk.interceptor, hk.startup⟩
  clear hflows hid hseq
  show (batch (l.new.start env).toCore.log).ok = true
  generalize (l.new.start env).toCore = d at hstart
  cases hstart with
  | detached => rfl
  | refused dirty info es hes =>
      refine batch_append_ok (fun e he => ?_) []
      exact Core.answers_completes (by simp [BackendMessage.isCompletion]) e (hes.subset he)
  | attached c₁ _ h =>
      cases h with
      | held lease hl => cases hl
      | leased => rfl

/-- The replies come in the order of the client's messages, pipelined or not. -/
theorem replies_in_turn (env : Env σ) (l : Launch σ κ) (ms : List (Move σ))
    (hu : env.upstream.InOrder) (hworld : l.world.Tidy (QuietPool env.upstream))
    (hpassive : Passive l.interceptor)
    (hrun : l.Runs env (QuietPool env.upstream) (Session.TakesTurns env) ms) :
    (l.after env ms).toCore.InTurn :=
  (Launch.holds (Core.lined_stable hu hpassive) (l.start_lined hu hworld) hrun).inv.inTurn

/-! ## Sessions without an interceptor -/

/-- `TakesTurns` of a session without an interceptor, as a check. -/
def Session.TakesPlainTurns (env : Env σ) (s : Session σ κ) (e : Event) : Prop :=
  s.hooks.isNone = true ∧
    (s.answersPlainly env e = true → s.toCore.Rests env.upstream ∧
      (s.swallowUntilSync = false → e.isSync = false → (batch s.log).failed = none)) ∧
    s.DetachesClean env e

instance (env : Env σ) (s : Session σ κ) (e : Event) : Decidable (s.TakesPlainTurns env e) :=
  inferInstanceAs (Decidable (_ ∧ _))

theorem Session.TakesPlainTurns.takesTurns {env : Env σ} {s : Session σ κ} {e : Event}
    (h : s.TakesPlainTurns env e) : s.TakesTurns env e := by
  obtain ⟨hnone, hlocal, hclean⟩ := h
  have hi : s.interceptor = none := by
    rw [interceptor, Option.isNone_iff_eq_none.mp hnone]
    rfl
  refine ⟨fun ha => ?_, fun ha => ?_, hclean⟩ <;> rw [hi] at ha
  · exact (hlocal (answersPlainly_of_none ha)).1
  · exact (hlocal (answersPlainly_of_none ha)).2

open Sample

/-- Two queries pipelined, and a statement prepared again between two batches. -/
theorem replies_in_turn_pipelined :
    (after .session none
      ([client (.query "SELECT 1"), client (.query "SELECT 2")] ++
        reads 4 ++ prepare ++
        [client (.parse (some "s") "SELECT 1" []), client (.bind none (some "s")),
          client .sync] ++ reads 2)).toCore.InTurn :=
  replies_in_turn (env .session) (launch .session none) (List.map .own _)
    (pg_inOrder _) (world_quiet .session) passive_none
    (Launch.Runs.mono (fun _ _ h => Session.TakesPlainTurns.takesTurns h)
      (Session.along_own (by decide : Along (Session.step (env .session)) _ _
        ([client (.query "SELECT 1"), client (.query "SELECT 2")] ++
          reads 4 ++ prepare ++
          [client (.parse (some "s") "SELECT 1" []), client (.bind none (some "s")),
            client .sync] ++ reads 2))))

/-- The `ParseComplete` for a registered statement overtakes the reply to the `Bind` before it,
    and is sent behind the failure of an earlier message of the batch. -/
theorem replies_out_of_turn :
    ¬ (after .session none
        (prepare ++ [client (.bind none (some "s")),
          client (.parse (some "s") "SELECT 1" []), client .sync] ++
          reads 1)).toCore.InTurn ∧
      ¬ (after .session none
        (prepare ++ [client (.parse none "SELEC 1" []), client .flush] ++
          reads 1 ++ [client (.parse (some "s") "SELECT 1" [])])).toCore.InTurn := by
  refine ⟨fun h => ?_, fun h => ?_⟩
  · exact absurd h.sorted (by decide)
  · exact absurd h.skips (by decide)

end Pgferry
