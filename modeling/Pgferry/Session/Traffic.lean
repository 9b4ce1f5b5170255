/-
  The replies of a session and the traffic of its lease.

  `replies` are the origins of what the client was sent, `traffic` those of what it may still be
  sent from the connection it holds. `Flows` says what a step can do to the two: the pump writes
  answers of its own, it moves messages to the upstream, or it takes the next one from there.

  Proved: `steps_flows`, every step of a session whose raw hooks do not reply is one of these;
  `Mine.step`, from it: a session whose pools hand out quiet connections sends its client
  nothing but answers to that client's own messages.
-/
import Pgferry.Tags
import Pgferry.Session.Cycles

namespace Pgferry

open Loop

variable {σ κ : Type}

/-- The message that an entry says was answered. -/
def Entry.reply : Entry → Option Origin
  | .sent _ o _ => some o
  | _ => none

/-- The origins of what was sent to the client. -/
def replies (log : List Entry) : List Origin := log.filterMap Entry.reply

@[simp] theorem replies_append (xs ys : List Entry) :
    replies (xs ++ ys) = replies xs ++ replies ys :=
  List.filterMap_append

theorem Conn.noted_tags {u : Upstream σ} (c : Conn σ) (m : BackendMessage) :
    (c.noted m).tags u = c.tags u := by
  cases m <;> rfl

namespace Core

@[simp] theorem replies_answers (c : Core σ) (ms : List BackendMessage) :
    replies (c.answers ms) = List.replicate ms.length c.origin := by
  induction ms with
  | nil => rfl
  | cons m ms ih => exact congrArg (c.origin :: ·) ih

/-- The origins of what is on its way on the lease. -/
def traffic (u : Upstream σ) (c : Core σ) : List Origin :=
  match c.lease with
  | some lease => lease.conn.tags u
  | none => []

theorem traffic_some {u : Upstream σ} {c : Core σ} {lease : UpstreamLease σ}
    (h : c.lease = some lease) : c.traffic u = lease.conn.tags u := by
  rw [traffic, h]

theorem traffic_none {u : Upstream σ} {c : Core σ} (h : c.lease = none) : c.traffic u = [] := by
  rw [traffic, h]

theorem traffic_congr {u : Upstream σ} {c d : Core σ} (h : d.lease = c.lease) :
    d.traffic u = c.traffic u := by
  rw [traffic, traffic, h]

/-- What a step does to the replies and to the traffic; `Local` is whether it answers a message
    of the client without the upstream. -/
inductive Flows (u : Upstream σ) (Local : Prop) (c d : Core σ) : Prop
  | own (n : Nat) (hsent : replies d.log = replies c.log ++ List.replicate n d.origin)
      (hd : d.traffic u = [] ∨ d.traffic u = c.traffic u ∧ (n = 0 ∨ Local))
  | moved (hsent : replies d.log = replies c.log)
      (hmem : ∀ o ∈ d.traffic u, o ∈ c.traffic u ∨ o = d.origin ∧ c.seq < d.seq)
      (hsort : (∀ o ∈ c.traffic u, o.seq ≤ d.seq) → Sorted (c.traffic u) → Sorted (d.traffic u))
  | read (o : Origin) (rest : List Origin) (hc : c.traffic u = o :: rest)
      (hsent : replies d.log = replies c.log ∨ replies d.log = replies c.log ++ [o])
      (hd : d.traffic u = rest ∨ d.traffic u = [])

end Core

/-- The pump answers the message of the event without the upstream, or drops it. -/
def Session.AnswersItself (env : Env σ) (i : Option (Interceptor κ)) (s : Session σ κ) :
    Event → Prop
  | .client m t => m ≠ .terminate ∧ ∃ d, Answered env i s (s.toCore.recv m) m t d
  | _ => False

namespace Core

section Steps

variable {u : Upstream σ} {c d : Core σ} {Local : Prop}

/-- A step that leaves the replies and the traffic alone. -/
theorem Flows.still (hsent : replies d.log = replies c.log) (hd : d.traffic u = c.traffic u) :
    Flows u Local c d :=
  .own 0 (hsent.trans (List.append_nil _).symm) (.inr ⟨hd, .inl rfl⟩)

theorem replies_legs {m : FrontendMessage} {legs : List Entry} (h : Legs m legs) :
    replies legs = [] := by
  cases h <;> rfl

/-- A local answer. `hleg`: a scatter leg on the lease leaves nothing there. -/
theorem answered_flows {env : Env σ} {i : Option (Interceptor κ)} {s : Session σ κ}
    {m : FrontendMessage} {t : Timing}
    (h : Answered env i s (s.toCore.recv m) m t d)
    (hleg : ∀ sql lease (leg : ScatterLeg), m = .query sql → s.lease = some lease →
      (runQueryCollect env.upstream lease.conn leg.sql).broken = false →
      (runQueryCollect env.upstream lease.conn leg.sql).conn.tags env.upstream = []) :
    Flows env.upstream (s.AnswersItself env i (.client m t)) s.toCore d := by
  by_cases hq : m = .terminate
  · subst hq
    rw [answered_terminate h]
    exact .still (by simp [stop, recv, replies, Entry.reply]) (traffic_congr rfl)
  · have hlocal : s.AnswersItself env i (.client m t) := ⟨hq, d, h⟩
    obtain ⟨hf, hl⟩ := answered_frame h
    obtain ⟨legs, ms, hlog, hlegs, _⟩ := answered_log h
    have horigin : (s.toCore.recv m).origin = d.origin := by
      rw [origin, origin, hf.id, hf.seq]
    refine .own ms.length ?_ ?_
    · rw [hlog, replies_append, replies_append, replies_legs hlegs, replies_answers, horigin]
      simp [recv, replies, Entry.reply]
    · cases hl with
      | same hl => exact .inr ⟨traffic_congr hl, .inr hlocal⟩
      | dropped _ _ _ hl => exact .inl (traffic_none hl)
      | ran _ sql lease leg hm hlease hb hl =>
          exact .inl ((traffic_some hl).trans (hleg sql lease leg hm hlease hb))

/-- A loss leaves nothing on the lease, or ends the session. -/
theorem lost_flows {c₀ : Core σ} {i : Option (Interceptor κ)} {lease : UpstreamLease σ}
    {reason : String} {synth : Bool} (h : Lost i c lease reason synth d)
    (hr : replies c.log = replies c₀.log)
    (ht : c.traffic u = c₀.traffic u ∨ c.traffic u = []) : Flows u Local c₀ d := by
  -- What is written after the loss, and the traffic of no lease.
  have hsaid : ∀ {ms : List BackendMessage} {f : Core σ → Core σ},
      Said (c.emit [c.lostEntry lease .relink]).unleased (c.answers ms) f d →
      (∀ e, (f e).log = e.log ∧ (f e).origin = e.origin ∧ (f e).lease = e.lease) →
      Flows u Local c₀ d := by
    intro ms f h hf
    have hlog : ∀ es, replies (c.log ++ [c.lostEntry lease .relink] ++ es) =
        replies c₀.log ++ replies es := by
      intro es
      rw [replies_append, replies_append, hr]
      exact congrArg (· ++ _) (List.append_nil _)
    cases h with
    | done =>
        obtain ⟨h1, h2, h3⟩ :=
          hf ((c.emit [c.lostEntry lease .relink]).unleased.emit (c.answers ms))
        refine .own ms.length ?_ (.inl (traffic_none h3))
        rw [h1, h2]
        exact (hlog _).trans (congrArg (_ ++ ·) (replies_answers c ms))
    | cut pre endpoint attached hpre =>
        obtain ⟨ns, _, rfl⟩ := answers_of_prefix hpre
        exact .own ns.length ((hlog _).trans (congrArg (_ ++ ·) (replies_answers c ns)))
          (.inl (traffic_none rfl))
  have hlost : ∀ e : Core σ, replies (c.log ++ [e.lostEntry lease .relink]) = replies c₀.log ∧
      replies (c.log ++ [e.lostEntry lease .close]) = replies c₀.log := by
    intro e
    rw [replies_append, replies_append, hr]
    exact ⟨List.append_nil _, List.append_nil _⟩
  cases h with
  | closed =>
      refine .own 0 ((hlost c).2.trans (List.append_nil _).symm) ?_
      exact ht.symm.imp (fun h => h) fun h => ⟨h, .inl rfl⟩
  | silent =>
      exact .own 0 ((hlost c).1.trans (List.append_nil _).symm) (.inl (traffic_none rfl))
  | simple _ _ _ h => exact hsaid h fun _ => ⟨rfl, rfl, rfl⟩
  | extended _ _ _ h => exact hsaid h fun _ => ⟨rfl, rfl, rfl⟩

/-- A connection from the pool has no traffic. -/
theorem enters_traffic {env : Env σ} {i : Option (Interceptor κ)} {s : Session σ κ}
    {m m' : FrontendMessage} (hu : env.upstream.InOrder)
    (h : Enters env i (QuietPool env.upstream) s c m m' d) :
    replies d.log = replies c.log ∧
      (d.traffic env.upstream = c.traffic env.upstream ∨ d.traffic env.upstream = []) := by
  refine ⟨?_, ?_⟩
  · rcases (enters_frame h).log with hlog | ⟨pid, endpoint, hlog⟩
    · rw [hlog]
    · rw [hlog, replies_append]
      exact List.append_nil _
  · obtain ⟨b, hb⟩ := c.note_eq m
    obtain ⟨c₁, hatt, rfl⟩ := h.attaches
    obtain ⟨_, _, hr⟩ := c₁.register_eq (pendingParse m')
    rw [hb] at hatt
    rw [hr]
    cases hatt with
    | held => exact .inl (traffic_congr rfl)
    | leased endpoint dirty₀ base lease dirty hnone hdirty hpool hbase hprep =>
        exact .inr ((traffic_some rfl).trans (prepared_quiet hu hbase hprep).tags)

/-- Taking the next message from the lease. -/
theorem readNext_flows {tm : Bool} {o : Origin} {m : BackendMessage}
    (h : c.readNext tm = some (o, m, d)) :
    c.traffic u = o :: d.traffic u ∧ d.log = c.log := by
  obtain ⟨lease, rest, hlease, hin, hframe, _, hd⟩ := readNext_spec h
  refine ⟨?_, hframe.log⟩
  rw [traffic_some hlease, traffic_some hd, Conn.noted_tags]
  exact Conn.take_tags hin

theorem afterReady_traffic (tm : Bool) (c : Core σ) :
    replies (c.afterReady tm).log = replies c.log ∧
      ((c.afterReady tm).traffic u = c.traffic u ∨ (c.afterReady tm).traffic u = []) := by
  unfold afterReady
  split
  · exact ⟨rfl, .inl rfl⟩
  · split
    · split
      · refine ⟨?_, .inr rfl⟩
        rw [replies_append]
        exact List.append_nil _
      · exact ⟨rfl, .inl rfl⟩
    · exact ⟨rfl, .inl rfl⟩

/-- Forwarding a message on a lease whose traffic is that of `c₀` or none. -/
theorem put_flows {c₀ : Core σ} {lease : UpstreamLease σ} {m : FrontendMessage}
    (hr : replies c.log = replies c₀.log) (ht : c.traffic u = c₀.traffic u ∨ c.traffic u = [])
    (hseq : c₀.seq < c.seq) (hlease : c.lease = some lease) :
    Flows u Local c₀ ((c.await m).put u lease m) := by
  rw [awaitPut_eq]
  refine .moved ?_ (fun o ho => ?_) fun hle hsort => ?_
  · rw [replies_append, hr]
    exact List.append_nil _
  · have hmem := List.mem_append.mp (Conn.put_tags_mem c.origin m o ho)
    rw [← traffic_some hlease] at hmem
    refine hmem.imp (fun h => ?_) fun h => ⟨List.mem_singleton.mp h, hseq⟩
    rcases ht with ht | ht <;> rw [ht] at h
    · exact h
    · exact absurd h List.not_mem_nil
  · refine Conn.put_tags_sorted (o := c.origin) ?_ ?_ m <;> rw [← traffic_some hlease] <;>
      rcases ht with ht | ht <;> rw [ht]
    · exact hsort
    · exact List.Pairwise.nil
    · exact hle
    · exact fun _ h => absurd h List.not_mem_nil

theorem steps_flows {env : Env σ} {i : Option (Interceptor κ)} {s : Session σ κ} {e : Event}
    (hu : env.upstream.InOrder) (hp : Mute i)
    (hleg : s.AnswersItself env i e → ∀ sql t lease (leg : ScatterLeg),
      e = .client (.query sql) t → s.lease = some lease →
      (runQueryCollect env.upstream lease.conn leg.sql).broken = false →
      (runQueryCollect env.upstream lease.conn leg.sql).conn.tags env.upstream = [])
    (h : Steps env i (QuietPool env.upstream) s e d) :
    Flows env.upstream (s.AnswersItself env i e) s.toCore d := by
  have hrecv : ∀ m, replies (s.toCore.recv m).log = replies s.log := by
    intro m
    rw [recv, replies_append]
    exact List.append_nil _
  cases h with
  | answered m t _ h =>
      refine answered_flows h fun sql lease leg hm => ?_
      exact hleg ⟨by rw [hm]; nofun, d, h⟩ sql t lease leg (by rw [hm])
  | attachFailed m m' t d' _ _ h =>
      obtain ⟨_, _, _, _, hnone, hes, rfl⟩ := attachFails_noted h
      obtain ⟨ns, _, rfl⟩ := answers_of_prefix hes
      refine .own ns.length ?_ (.inl (traffic_none hnone))
      refine (replies_append _ _).trans ?_
      rw [replies_answers]
      exact congrArg (· ++ _) (hrecv m)
  | hookReplied m m' m'' t ms c _ hent hh h => exact (hh.mute hp).elim
  | hookStopped m m' m'' t action c hent hh ha =>
      obtain ⟨hr, ht⟩ := enters_traffic hu hent
      exact .own 0 ((hr.trans (hrecv m)).trans (List.append_nil _).symm)
        (ht.symm.imp_right fun h => ⟨h, .inl rfl⟩)
  | put m m' m'' t c lease hent hh hlease =>
      obtain ⟨hr, ht⟩ := enters_traffic hu hent
      exact put_flows (hr.trans (hrecv m)) ht ((enters_frame hent).seq ▸ Nat.lt_succ_self _) hlease
  | sendFailed m m' m'' t c _ lease hent hh hlease hs h =>
      obtain ⟨hr, ht⟩ := enters_traffic hu hent
      rw [await_eq] at h
      exact lost_flows h (hr.trans (hrecv m)) ht
  | clientGone | idle | upstreamError | drain | shutdown => exact .still rfl (traffic_congr rfl)
  | rowDropped o m _ row hr =>
      obtain ⟨ht, hlog⟩ := readNext_flows (u := env.upstream) hr
      exact .read o _ ht (.inl (by rw [hlog])) (.inl rfl)
  | readStopped o m c e hr =>
      obtain ⟨ht, hlog⟩ := readNext_flows (u := env.upstream) hr
      exact .read o _ ht (.inl (congrArg replies hlog)) (.inl (traffic_congr rfl))
  | replaced o m m' m'' ms c _ hr hs hh h => exact (hh.mute hp).elim
  | passed o m m' m'' c _ hr hs hh h =>
      obtain ⟨ht, hlog⟩ := readNext_flows (u := env.upstream) hr
      have hsent : replies (c.log ++ [.sent false o m'']) = replies s.log ++ [o] := by
        rw [replies_append, hlog]
        rfl
      cases h with
      | done =>
          split
          · obtain ⟨h1, h2⟩ := afterReady_traffic (u := env.upstream) env.transactionMode
              (c.emit [.sent false o m''])
            exact .read o _ ht (.inr (h1.trans hsent)) h2
          · exact .read o _ ht (.inr hsent) (.inl rfl)
      | cut pre endpoint attached hpre =>
          refine .read o _ ht ?_ (.inl (traffic_congr rfl))
          rcases List.prefix_cons_iff.mp hpre with rfl | ⟨pre', rfl, h'⟩
          · exact .inl (congrArg replies ((List.append_nil _).trans hlog))
          · cases List.prefix_nil.mp h'
            exact .inr hsent
  | upstreamClosed lease _ hlease h => exact lost_flows h rfl (.inl rfl)
  | cancel lease hl =>
      have hd : (s.toCore.cancelled env.upstream lease).traffic env.upstream = _ := traffic_some rfl
      refine .moved ((replies_append _ _).trans (List.append_nil _)) (fun o ho => ?_)
        fun _ hsort => ?_
      · rw [hd] at ho
        rw [traffic_some hl]
        exact .inl (Conn.cancel_tags_mem hu o ho)
      · rw [hd]
        rw [traffic_some hl] at hsort
        exact Conn.cancel_tags_sorted hu hsort

end Steps

/-- What comes new into the traffic is the message just read. -/
theorem Flows.mem {u : Upstream σ} {c d : Core σ} {Local : Prop} (h : Flows u Local c d) :
    ∀ o ∈ d.traffic u, o ∈ c.traffic u ∨ o = d.origin ∧ c.seq < d.seq := by
  intro o ho
  cases h with
  | own n _ hd =>
      rcases hd with hd | ⟨hd, _⟩ <;> rw [hd] at ho
      · exact absurd ho List.not_mem_nil
      · exact .inl ho
  | moved _ hmem _ => exact hmem o ho
  | read a rest hc _ hd =>
      rcases hd with hd | hd <;> rw [hd] at ho
      · exact .inl (hc ▸ List.mem_cons_of_mem _ ho)
      · exact absurd ho List.not_mem_nil

/-! ## Whose replies a client gets -/

/-- `o` is a message that the client of this session has sent. -/
def Owns (c : Core σ) (o : Origin) : Prop := ∃ n ≤ c.seq, o = .client c.id n

instance (c : Core σ) : ∀ o, Decidable (c.Owns o)
  | .client session n => decidable_of_iff (session = c.id ∧ n ≤ c.seq)
      ⟨fun ⟨h1, h2⟩ => ⟨n, h2, by rw [h1]⟩, fun ⟨_, h2, h⟩ => by cases h; exact ⟨rfl, h2⟩⟩
  | .proxy => isFalse nofun

theorem Owns.mono {c d : Core σ} {o : Origin} (h : c.Owns o) (hid : d.id = c.id)
    (hseq : c.seq ≤ d.seq) : d.Owns o := by
  obtain ⟨n, hn, rfl⟩ := h
  exact ⟨n, Nat.le_trans hn hseq, by rw [hid]⟩

theorem owns_origin (c : Core σ) : c.Owns c.origin := ⟨c.seq, Nat.le_refl _, rfl⟩

/-- Everything sent to the client, or on its way to it, answers a message of that client. -/
structure Mine (u : Upstream σ) (c : Core σ) : Prop where
  sent : ∀ o ∈ replies c.log, c.Owns o
  coming : ∀ o ∈ c.traffic u, c.Owns o

theorem Mine.step {u : Upstream σ} {c d : Core σ} {Local : Prop} (h : c.Mine u)
    (hf : Flows u Local c d) (hid : d.id = c.id) (hseq : c.seq ≤ d.seq) : d.Mine u := by
  have hsent : ∀ o ∈ replies c.log, d.Owns o := fun o ho => (h.sent o ho).mono hid hseq
  have hcoming : ∀ o ∈ c.traffic u, d.Owns o := fun o ho => (h.coming o ho).mono hid hseq
  refine ⟨fun o ho => ?_, fun o ho => ?_⟩
  · cases hf with
    | own n hs _ =>
        rw [hs] at ho
        rcases List.mem_append.mp ho with ho | ho
        · exact hsent o ho
        · rw [List.eq_of_mem_replicate ho]
          exact d.owns_origin
    | moved hs _ _ => exact hsent o (hs ▸ ho)
    | read a rest hc hs _ =>
        rcases hs with hs | hs <;> rw [hs] at ho
        · exact hsent o ho
        · rcases List.mem_append.mp ho with ho | ho
          · exact hsent o ho
          · rw [List.mem_singleton.mp ho]
            exact hcoming a (hc ▸ List.mem_cons_self)
  · rcases hf.mem o ho with ho | ⟨rfl, _⟩
    · exact hcoming o ho
    · exact d.owns_origin

/-! ## Connections at rest -/

/-- The lease, if there is one, is quiet. -/
def Rests (u : Upstream σ) (c : Core σ) : Prop := ∀ lease ∈ c.lease, lease.conn.Quiet u

instance (u : Upstream σ) (c : Core σ) : Decidable (c.Rests u) :=
  inferInstanceAs (Decidable (∀ lease ∈ c.lease, lease.conn.Quiet u))

theorem Rests.traffic {u : Upstream σ} {c : Core σ} (h : c.Rests u) : c.traffic u = [] := by
  cases hl : c.lease with
  | none => exact traffic_none hl
  | some lease => exact (traffic_some hl).trans (h lease hl).tags

end Core

/-- A connection that is put back after a `ReadyForQuery` rests. -/
def Session.DetachesClean (env : Env σ) (s : Session σ κ) : Event → Prop
  | .upstream => env.transactionMode = true → ∀ x ∈ s.toCore.readNext env.transactionMode,
      x.2.1.ready = 1 → x.2.2.leaseStatus = .idle → x.2.2.Rests env.upstream
  | _ => True

instance (env : Env σ) (s : Session σ κ) : ∀ e, Decidable (s.DetachesClean env e)
  | .upstream => inferInstanceAs (Decidable (_ → _))
  | .client _ _ | .clientGone | .upstreamClosed | .upstreamError _ | .cancel | .shutdown =>
      isTrue trivial

theorem Session.DetachesClean.releases {env : Env σ} {i : Option (Interceptor κ)}
    {s : Session σ κ} (h : s.DetachesClean env .upstream) (hu : env.upstream.InOrder)
    (hp : Passive i) : Releases env i (QuietPool env.upstream) s := by
  intro o m m' m'' c lease conn hr hs hh hm ht hidle hlease hd
  obtain ⟨rfl, _⟩ := hh.passive hp
  exact discardIfDirty_quiet hu
    (h ht (o, m, c) hr (hs.ready.symm.trans hm) hidle lease hlease) hd

/-! ## Sessions without an interceptor -/

/-- Without an interceptor, the messages the pump does not forward are those of a refused batch,
    a `Parse` of a registered name, and the ones it answers while detached. -/
def Session.answersPlainly (env : Env σ) (s : Session σ κ) : Event → Bool
  | .client m _ => s.swallowUntilSync || (env.transactionMode && s.lease.isNone) ||
      (pendingParse m).any fun p => (s.registry.lookup p.1).isSome
  | _ => false

theorem Session.answersPlainly_of_none {env : Env σ} {s : Session σ κ} {e : Event}
    (h : s.AnswersItself env none e) : s.answersPlainly env e = true := by
  have hasks : ∀ {input : CycleInput} {action : Action},
      ¬ Asks (none : Option (Interceptor κ)) input action := by
    rintro input action ⟨_, hh, _⟩
    cases hh
  have hparse : ∀ {m m' : FrontendMessage} {p : String × String × List Nat} {known},
      Forwards (none : Option (Interceptor κ)) m m' → pendingParse m' = some p →
      s.registry.lookup p.1 = some known →
      ((pendingParse m).any fun p => (s.registry.lookup p.1).isSome) = true := by
    rintro m m' p known (⟨rfl, _⟩ | ⟨_, _, ha, _⟩) hp hk
    · simp [hp, hk]
    · exact absurd ha hasks
  cases e with
  | client m t =>
      obtain ⟨hq, d, h⟩ := h
      simp only [answersPlainly, Bool.or_eq_true, Bool.and_eq_true, Option.isNone_iff_eq_none]
      cases h with
      | quit hm => exact absurd hm hq
      | swallowed hs => exact .inl (.inl hs)
      | resumed _ hs => exact .inl (.inl hs)
      | localSync _ _ ht hl => exact .inl (.inr ⟨ht, hl⟩)
      | localFlush _ ht hl => exact .inl (.inr ⟨ht, hl⟩)
      | localClose _ _ _ _ ht hl => exact .inl (.inr ⟨ht, hl⟩)
      | closed _ _ _ ha => exact absurd ha hasks
      | deniedSimple _ _ _ _ _ ha => exact absurd ha hasks
      | deniedExtended _ _ _ _ _ ha => exact absurd ha hasks
      | repliedSimple _ _ _ _ _ ha => exact absurd ha hasks
      | repliedExtended _ _ _ _ _ ha => exact absurd ha hasks
      | scatterOk _ _ _ _ _ _ _ ha => exact absurd ha hasks
      | scatterRefused _ _ _ _ _ _ ha => exact absurd ha hasks
      | scatterFailed _ _ _ _ _ _ _ ha => exact absurd ha hasks
      | scatterPanicked _ _ _ _ _ ha => exact absurd ha hasks
      | reparsed _ _ _ _ _ _ _ hf hm hk => exact .inr (hparse hf.1 hm hk)
      | duplicate _ _ _ _ _ _ _ hf hm hk => exact .inr (hparse hf hm hk)
  | _ => exact h.elim

/-! ## The start -/

/-- What is sent and on its way when the pump starts. -/
theorem Launch.start_flows {env : Env σ} {l : Launch σ κ} (hu : env.upstream.InOrder)
    (ht : l.world.Tidy (QuietPool env.upstream)) :
    Core.Flows env.upstream False l.new.toCore (l.new.start env).toCore ∧
      (l.new.start env).id = l.id := by
  obtain ⟨_, hstart⟩ := l.start_quiet hu ht
  have hnone : l.new.lease = none := rfl
  show Core.Flows _ _ _ _ ∧ (l.new.start env).toCore.id = l.id
  generalize (l.new.start env).toCore = d at hstart
  cases hstart with
  | detached => exact ⟨.still rfl rfl, rfl⟩
  | refused dirty info es hes =>
      obtain ⟨ns, _, rfl⟩ := Core.answers_of_prefix hes
      exact ⟨.own ns.length (Core.replies_answers _ _) (.inl (Core.traffic_none rfl)), rfl⟩
  | attached c₁ _ h =>
      cases h with
      | held lease hl => cases hl
      | leased endpoint dirty₀ base lease dirty _ _ _ hbase hprep =>
          exact ⟨.own 0 rfl (.inl (prepared_quiet hu hbase hprep).tags), rfl⟩

end Pgferry
