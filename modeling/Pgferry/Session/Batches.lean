/-
  What becomes of an extended batch whose connection is lost.

  `books` reads off the log what the client waits for: the cycles it has begun and whose
  `ReadyForQuery` is to come, oldest first, each with the messages of the extended protocol that
  are not yet answered by their own completion. A cycle is closed by its `Sync` or `Query`, and
  the first `ReadyForQuery` after that is its own. The books are in order (`ok`) when every cycle
  during which the connection was lost had an `ErrorResponse` before its `ReadyForQuery`, or all
  its messages answered.

  The pump answers a loss with an error only if it awaits a response or, when a write fails, has
  fed something since the last `ReadyForQuery`. Otherwise it goes on with the next connection,
  where the registry replays a lost `Parse` and swallows its `ParseComplete`.

  Proved: `batches_accounted`, the books are in order in every run in which the pump answers each
  loss that hits an open batch (`Accountable`). In the counterexample a `Parse` is fed and lost when
  the connection is closed, and its batch succeeds without it.
-/
import Pgferry.Session.Entries

namespace Pgferry

open Loop

variable {σ κ : Type}

/-! ## The books of a log -/

/-- A message that the server answers with a completion of its own. -/
def FrontendMessage.isExtended : FrontendMessage → Bool
  | .parse _ _ _ => true
  | .bind _ _ => true
  | .describe _ _ => true
  | .execute _ => true
  | .close _ _ => true
  | _ => false

/-- The completion is one for the message. -/
def BackendMessage.completes : BackendMessage → FrontendMessage → Bool
  | .parseComplete, .parse _ _ _ => true
  | .bindComplete, .bind _ _ => true
  | .rowDescription _, .describe _ _ => true
  | .noData, .describe _ _ => true
  | .commandComplete _, .execute _ => true
  | .emptyQueryResponse, .execute _ => true
  | .portalSuspended, .execute _ => true
  | .closeComplete, .close _ _ => true
  | _, _ => false

/-- A cycle whose `ReadyForQuery` is to come. -/
structure DueCycle where
  /-- The extended messages that are not answered yet, in order. -/
  owed : List FrontendMessage := []
  /-- The `Sync` or `Query` that ends it was received. -/
  closed : Bool := false
  /-- The connection was lost, and the session went on, since the cycle began. -/
  lost : Bool := false
  /-- The client was sent an `ErrorResponse`. -/
  failed : Bool := false
  deriving DecidableEq

namespace DueCycle

def add (m : FrontendMessage) (b : DueCycle) : DueCycle := { b with owed := b.owed ++ [m] }

def close (b : DueCycle) : DueCycle := { b with closed := true }

/-- A message to the client, other than `ReadyForQuery`. -/
def sent (b : DueCycle) (m : BackendMessage) : DueCycle :=
  match m, b.owed with
  | .errorResponse _, _ => { b with failed := true }
  | m, x :: xs => if m.completes x then { b with owed := xs } else b
  | _, [] => b

/-- Nothing of the batch goes missing unnoticed: it has failed, or it is complete. -/
def Settled (b : DueCycle) : Prop := b.failed = true ∨ b.closed = true ∧ b.owed = []

instance (b : DueCycle) : Decidable b.Settled := inferInstanceAs (Decidable (_ ∨ _))

theorem Settled.sent {b : DueCycle} (h : b.Settled) (m : BackendMessage) : (b.sent m).Settled := by
  obtain ⟨owed, closed, lost, failed⟩ := b
  rcases h with rfl | ⟨rfl, rfl⟩
  · cases owed <;> cases m <;> simp only [DueCycle.sent] <;> first
      | exact .inl rfl
      | (split <;> exact .inl rfl)
  · cases m <;> first
      | exact .inl rfl
      | exact .inr ⟨rfl, rfl⟩

theorem sent_lost (b : DueCycle) (m : BackendMessage) : (b.sent m).lost = b.lost := by
  unfold sent
  split
  · rfl
  · split <;> rfl
  · rfl

end DueCycle

structure Books where
  pending : List DueCycle := []
  ok : Bool := true
  deriving DecidableEq

namespace Books

/-- Change the cycle that is still open, or begin one. -/
def onOpen (f : DueCycle → DueCycle) : List DueCycle → List DueCycle
  | [] => [f {}]
  | [b] => if b.closed then [b, f {}] else [f b]
  | b :: b' :: bs => b :: onOpen f (b' :: bs)

def recv (k : Books) (m : FrontendMessage) : Books :=
  if m.isExtended then { k with pending := onOpen (DueCycle.add m) k.pending }
  else if m.cycles = 1 then { k with pending := onOpen DueCycle.close k.pending }
  else k

/-- A message to the client belongs to its oldest cycle. -/
def sent (k : Books) (m : BackendMessage) : Books :=
  match k.pending with
  | [] => k
  | b :: bs =>
      if m.ready = 0 then { k with pending := b.sent m :: bs }
      else if b.closed then
        { pending := bs, ok := k.ok && (!b.lost || b.failed || b.owed.isEmpty) }
      else k

def note (k : Books) : Entry → Books
  | .recv _ m => k.recv m
  | .sent _ _ m => k.sent m
  | .lost _ _ .relink => { k with pending := k.pending.map fun b => { b with lost := true } }
  | _ => k

end Books

def books (log : List Entry) : Books := log.foldl Books.note {}

theorem books_append (xs ys : List Entry) : books (xs ++ ys) = ys.foldl Books.note (books xs) := by
  rw [books, books, List.foldl_append]

/-! ## Books that stay in order -/

namespace Books

/-- No cycle has lost anything that its `ReadyForQuery` could still hide. -/
structure Sound (k : Books) : Prop where
  ok : k.ok = true
  settled : ∀ b ∈ k.pending, b.lost = true → b.Settled

/-- The rule for the open cycle. -/
theorem onOpen_all {P : DueCycle → Prop} {f : DueCycle → DueCycle} (hnew : P (f {}))
    (hopen : ∀ b, P b → b.closed = false → P (f b)) {bs : List DueCycle} (h : ∀ b ∈ bs, P b) :
    ∀ b ∈ onOpen f bs, P b := by
  induction bs using onOpen.induct with
  | case1 => simpa [onOpen] using hnew
  | case2 b hc => simpa [onOpen, hc] using ⟨h b (by simp), hnew⟩
  | case3 b hc => simpa [onOpen, hc] using hopen b (h b (by simp)) (Bool.not_eq_true _ ▸ hc)
  | case4 b b' bs ih =>
      rw [onOpen]
      intro x hx
      rcases List.mem_cons.mp hx with rfl | hx
      · exact h x List.mem_cons_self
      · exact ih (fun y hy => h y (List.mem_cons_of_mem _ hy)) x hx

theorem Sound.onOpen {k : Books} (h : k.Sound) {f : DueCycle → DueCycle}
    (hnew : (f {}).lost = false) (hf : ∀ b, (f b).lost = b.lost ∧ (f b).failed = b.failed) :
    Sound { k with pending := Books.onOpen f k.pending } := by
  refine ⟨h.ok, onOpen_all (fun hl => ?_) (fun b hb hc hl => ?_) h.settled⟩
  · cases hnew.symm.trans hl
  · obtain ⟨h1, h2⟩ := hf b
    rcases hb (h1 ▸ hl) with hfail | ⟨hclosed, _⟩
    · exact .inl (h2.trans hfail)
    · cases hc.symm.trans hclosed

theorem Sound.recv {k : Books} (h : k.Sound) (m : FrontendMessage) : (k.recv m).Sound := by
  unfold Books.recv
  split
  · exact h.onOpen rfl fun _ => ⟨rfl, rfl⟩
  · split
    · exact h.onOpen rfl fun _ => ⟨rfl, rfl⟩
    · exact h

theorem Sound.sent {k : Books} (h : k.Sound) (m : BackendMessage) : (k.sent m).Sound := by
  obtain ⟨pending, ok⟩ := k
  cases pending with
  | nil => exact h
  | cons b bs =>
      have hb : b.lost = true → b.Settled := h.settled b List.mem_cons_self
      have hbs : ∀ x ∈ bs, x.lost = true → x.Settled :=
        fun x hx => h.settled x (List.mem_cons_of_mem _ hx)
      unfold Books.sent
      dsimp only
      split
      · refine ⟨h.ok, fun x hx hl => ?_⟩
        rcases List.mem_cons.mp hx with rfl | hx
        · exact (hb (b.sent_lost m ▸ hl)).sent m
        · exact hbs x hx hl
      · split
        · refine ⟨?_, hbs⟩
          have hok : ok = true := h.ok
          cases hl : b.lost with
          | false => simp [hok]
          | true =>
              rcases hb hl with hf | ⟨_, ho⟩
              · simp [hok, hf]
              · simp [hok, ho]
        · exact h

theorem Sound.note {k : Books} (h : k.Sound) {e : Entry} (he : e.relinks = false) :
    (k.note e).Sound := by
  cases e with
  | recv n m => exact h.recv m
  | sent own o m => exact h.sent m
  | lost endpoint reported decision =>
      cases decision with
      | close => exact h
      | relink => cases he
  | _ => exact h

theorem Sound.foldl {es : List Entry} (hes : ∀ e ∈ es, e.relinks = false) {k : Books}
    (h : k.Sound) : (es.foldl Books.note k).Sound := by
  induction es generalizing k with
  | nil => exact h
  | cons e es ih =>
      exact ih (fun x hx => hes x (List.mem_cons_of_mem _ hx))
        (h.note (hes e List.mem_cons_self))

end Books

/-! ## Losses -/

namespace Books

/-- A loss after which the session goes on leaves the books in order: every pending cycle is
    settled, or there is one at most and the pump answers it with an error. -/
def Survives (k : Books) (synth : Bool) : Prop :=
  (∀ b ∈ k.pending, b.Settled) ∨ synth = true ∧ k.pending.length ≤ 1

instance (k : Books) (synth : Bool) : Decidable (k.Survives synth) :=
  inferInstanceAs (Decidable (_ ∨ _))

/-- The books after a loss. -/
def lose (k : Books) : Books :=
  { k with pending := k.pending.map fun b => { b with lost := true } }

theorem lose_settled {k : Books} (h : k.Sound) (hs : ∀ b ∈ k.pending, b.Settled) :
    k.lose.Sound := by
  refine ⟨h.ok, fun b hb _ => ?_⟩
  obtain ⟨b', hb', rfl⟩ := List.mem_map.mp hb
  exact hs b' hb'

/-- The error puts the books in order again. -/
theorem lose_error {k : Books} (h : k.Sound) {synth : Bool} (hs : k.Survives synth)
    (info : ErrorInfo) : (k.lose.sent (.errorResponse info)).Sound := by
  rcases hs with hs | ⟨_, hlen⟩
  · exact (lose_settled h hs).sent _
  · obtain ⟨pending, ok⟩ := k
    match pending, hlen with
    | [], _ => exact h
    | [b], _ => exact ⟨h.ok, fun x hx _ => List.mem_singleton.mp hx ▸ .inl rfl⟩

end Books

/-- When the connection can be lost, the books survive it: a write fails while something of the
    cycle was fed or a response is awaited, the connection is closed while one is awaited, or
    nothing is pending that could go missing. -/
def Session.Accountable (s : Session σ κ) : Event → Prop
  | .client m t => t.sendOk = false → (books (s.toCore.recv m).log).Survives
      (s.hygiene.awaitingResponse || decide (0 < s.fedSinceRfq))
  | .upstreamClosed => s.lease.isSome = true →
      (books s.log).Survives s.hygiene.awaitingResponse
  | _ => True

instance (s : Session σ κ) : ∀ e, Decidable (s.Accountable e)
  | .client _ _ | .upstreamClosed => inferInstanceAs (Decidable (_ → _))
  | .clientGone | .upstream | .upstreamError _ | .cancel | .shutdown => isTrue trivial

namespace Core

variable {c d : Core σ}

/-- The books of a session: in order so far, and sound as long as it lives. -/
structure Booked (c : Core σ) : Prop where
  ok : (books c.log).ok = true
  sound : c.ended = none → (books c.log).Sound

theorem Booked.of_sound (h : (books c.log).Sound) : c.Booked := ⟨h.ok, fun _ => h⟩

theorem Booked.grows (h : (books c.log).Sound) (hg : Grows (fun x => x.relinks = false) c d) :
    d.Booked := by
  obtain ⟨es, hlog, hes⟩ := hg
  refine .of_sound ?_
  rw [hlog, books_append]
  exact h.foldl hes

/-- What the pump writes after a loss begins with the error. -/
theorem lost_said {ms : List BackendMessage} {f : Core σ → Core σ} {lease : UpstreamLease σ}
    {synth : Bool} (h : Said (c.emit [c.lostEntry lease .relink]).unleased
      (c.answers (.errorResponse Session.lostInfo :: ms)) f d)
    (hf : ∀ d, (f d).log = d.log) (hk : (books c.log).Sound)
    (hs : (books c.log).Survives synth) : d.Booked := by
  have hlog : ∀ ns, (books (((c.emit [c.lostEntry lease .relink]).unleased.emit
      (c.answers (.errorResponse Session.lostInfo :: ns))).log)).Sound := by
    intro ns
    show (books ((c.log ++ [_]) ++ (_ :: c.answers ns))).Sound
    rw [books_append, books_append]
    exact (Books.lose_error hk hs _).foldl (answers_kept c ns)
  cases h with
  | done =>
      refine .of_sound ?_
      rw [hf]
      exact hlog ms
  | cut pre endpoint attached hpre =>
      obtain ⟨ns, hns, rfl⟩ := answers_of_prefix hpre
      cases ns with
      | nil =>
          refine ⟨?_, nofun⟩
          show (books ((c.log ++ [_]) ++ [])).ok = true
          rw [List.append_nil, books_append]
          exact hk.ok
      | cons m ns =>
          obtain ⟨rfl, _⟩ := List.cons_prefix_cons.mp hns
          exact .of_sound (hlog ns)

theorem lost_booked {i : Option (Interceptor κ)} {lease : UpstreamLease σ} {reason : String}
    {synth : Bool} (h : Lost i c lease reason synth d) (hk : (books c.log).Sound)
    (hs : (books c.log).Survives synth) : d.Booked := by
  cases h with
  | closed => exact .grows hk (.one rfl rfl)
  | silent hsynth =>
      refine .of_sound ?_
      show (books (c.log ++ [_])).Sound
      rw [books_append]
      exact Books.lose_settled hk (hs.resolve_right fun h => by cases hsynth.symm.trans h.1)
  | simple _ _ _ h => exact lost_said h (fun _ => rfl) hk hs
  | extended _ _ _ h => exact lost_said h (fun _ => rfl) hk hs

/-- One iteration that meets `Accountable`. -/
theorem steps_booked {env : Env σ} {i : Option (Interceptor κ)} {Φ : PoolKey → Conn σ → Prop}
    {s : Session σ κ} {e : Event} (hk : (books s.log).Sound) (hok : s.Accountable e)
    (h : Steps env i Φ s e d) : d.Booked := by
  rcases steps_loses h with hg | ⟨c, lease, reason, synth, hl, hlost⟩
  · exact .grows hk hg
  · cases hl with
    | closed hl => exact lost_booked hlost hk (hok hl)
    | send m m' m'' t c ht hf hm hh =>
        have hbooks : books (c.await m'').log = books (s.toCore.recv m).log := by
          rw [await_eq]
          rcases hf.log with hlog | ⟨pid, endpoint, hlog⟩
          · rw [hlog]
          · rw [hlog, books_append]
            rfl
        have hrecv : (books (s.toCore.recv m).log).Sound := by
          show (books (s.log ++ [_])).Sound
          rw [books_append]
          exact hk.recv m
        refine lost_booked hlost (hbooks ▸ hrecv) (hbooks ▸ ?_)
        refine (hok ht).imp (fun h => h) fun h => ⟨?_, h.2⟩
        rw [Bool.or_right_comm, h.1, Bool.true_or]

end Core

/-! ## Runs -/

/-- In every run in which the pump answers the losses that hit an open batch, no message of a
    batch goes missing unnoticed. -/
theorem batches_accounted (env : Env σ) (l : Launch σ κ) (ms : List (Move σ))
    (hrun : l.Runs env (fun _ _ => True) Session.Accountable ms) :
    (books (l.after env ms).log).ok = true := by
  have hbooked : (l.after env ms).toCore.Booked := by
    refine Launch.core_rule ?_ (fun s e d hs he hok h => ?_) hrun
    · refine .of_sound (Books.Sound.foldl (fun x hx => ?_) ⟨rfl, nofun⟩)
      rcases l.start_logged x hx with ⟨pid, endpoint, rfl⟩ | ⟨o, info, rfl⟩ <;> rfl
    · exact Core.steps_booked (hs.sound he) hok h
  exact hbooked.ok

/-- A connection that is closed after a `Flush`, and one to which a `Flush` cannot be written. -/
theorem batches_accounted_twice :
    (books (Sample.after .session none
      ([Sample.client (.parse none "SELECT 1" []), Sample.client .flush, .upstreamClosed,
        Sample.client .sync, Sample.client (.parse (some "s") "SELECT 1" []),
        Sample.clientCut .flush, Sample.client .sync])).log).ok = true :=
  batches_accounted (Sample.env .session) (Sample.launch .session none)
    (List.map .own [_, _, _, _, _, _, _]) (Session.along_own
      (by decide : Along (Session.step (Sample.env .session)) _ _ [_, _, _, _, _, _, _]))

/-- A `Parse` that was fed is lost when the connection is closed. The rest of the batch succeeds on
    the next connection and the client is sent neither a `ParseComplete` nor an `ErrorResponse`. -/
theorem batches_unaccounted :
    (books (Sample.after .transaction none
      ([Sample.client (.parse (some "s") "SELECT 1" []), .upstreamClosed,
        Sample.client (.bind none (some "s")), Sample.client (.execute none),
        Sample.client .sync] ++ Sample.reads 3)).log).ok = false := by
  decide

end Pgferry
