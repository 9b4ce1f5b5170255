/-
  What a server gathers from the messages that it receives.

  `acc b x` says that the server in the state `b` has `x`, and `adds m x` that the message `m` can
  bring it: the texts it was sent, or the statements that exist on it. `Accrues` is the law that
  nothing else brings it. A connection is `Limited` to `A` when all that its server has, or will
  have once it has processed what was fed, is in `A`.

  Proved: the operations on a connection keep `Limited` as long as what they send is in `A`; in
  particular the proxy's own exchanges and a checkin (`Accrues.cleans`), a replay
  (`Limited.replay`) and a scatter leg (`Limited.collect`).
-/
import Pgferry.Hygiene

namespace Pgferry

variable {σ α : Type} {u : Upstream σ} {acc : σ → α → Prop} {adds : FrontendMessage → α → Prop}
  {A : α → Prop}

/-- What a server has, it had before or the message has brought. -/
structure Accrues (u : Upstream σ) (acc : σ → α → Prop) (adds : FrontendMessage → α → Prop) :
    Prop where
  respond : ∀ b m x, acc (u.respond b m).1 x → acc b x ∨ adds m x
  interrupt : ∀ b x, acc (u.interrupt b).1 x → acc b x

/-- The messages, apart from statements, that the proxy sends for itself. -/
inductive FrontendMessage.Upkeep : FrontendMessage → Prop
  | sync : Upkeep .sync
  | copyFail (message : String) : Upkeep (.copyFail message)
  | rollback : Upkeep (.query "ROLLBACK")
  | discard : Upkeep (.query "DISCARD ALL")
  | set (name value : String) : Upkeep (.query (setSql name value))

namespace Conn

/-- All that the server of `c` has or is going to have is in `A`. -/
structure Limited (acc : σ → α → Prop) (adds : FrontendMessage → α → Prop) (A : α → Prop)
    (c : Conn σ) : Prop where
  backend : ∀ x, acc c.backend x → A x
  outbox : ∀ m ∈ c.outbox, ∀ x, adds m.2 x → A x

end Conn

namespace Accrues

/-- The law for a list of messages. -/
theorem answer (ha : Accrues u acc adds) (ms : List (Origin × FrontendMessage)) (b : σ) {x : α}
    (hx : acc (u.answer b ms).1 x) : acc b x ∨ ∃ m ∈ ms, adds m.2 x := by
  induction ms generalizing b with
  | nil => exact .inl hx
  | cons m ms ih =>
      rcases ih _ hx with h | ⟨n, hn, h⟩
      · exact (ha.respond b m.2 x h).imp (fun h => h) fun h => ⟨m, List.mem_cons_self, h⟩
      · exact .inr ⟨n, List.mem_cons_of_mem _ hn, h⟩

end Accrues

namespace Conn.Limited

variable {c c' : Conn σ}

theorem congr (h : c.Limited acc adds A) (hb : c'.backend = c.backend)
    (ho : c'.outbox = c.outbox) : c'.Limited acc adds A :=
  ⟨hb ▸ h.backend, ho ▸ h.outbox⟩

theorem mono {B : α → Prop} (h : c.Limited acc adds A) (hAB : ∀ x, A x → B x) :
    c.Limited acc adds B :=
  ⟨fun x hx => hAB x (h.backend x hx), fun m hm x hx => hAB x (h.outbox m hm x hx)⟩

theorem feed (h : c.Limited acc adds A) (o : Origin) {m : FrontendMessage}
    (hm : ∀ x, adds m x → A x) : (c.feed o m).Limited acc adds A := by
  refine ⟨h.backend, fun n hn x hx => ?_⟩
  rcases List.mem_append.mp hn with hn | hn
  · exact h.outbox n hn x hx
  · cases List.mem_singleton.mp hn
    exact hm x hx

theorem send (ha : Accrues u acc adds) (h : c.Limited acc adds A) (o : Origin)
    {m : FrontendMessage} (hm : ∀ x, adds m x → A x) : (c.send u o m).Limited acc adds A := by
  refine ⟨fun x hx => ?_, nofun⟩
  rcases ha.answer (c.outbox ++ [(o, m)]) c.backend hx with hx | ⟨n, hn, hx⟩
  · exact h.backend x hx
  · exact (h.feed o hm).outbox n hn x hx

theorem cancel (ha : Accrues u acc adds) (h : c.Limited acc adds A) :
    (c.cancel u).Limited acc adds A :=
  ⟨fun x hx => h.backend x (ha.interrupt _ x hx), h.outbox⟩

theorem readReply (h : c.Limited acc adds A) {fails : BackendMessage → Bool}
    {xs : List (Origin × BackendMessage)} (hr : Conn.readReply fails xs c = .ok c') :
    c'.Limited acc adds A := by
  obtain ⟨_, _, _, _, _, _, _, _, ho, hb, _⟩ := readReply_spec hr
  exact h.congr hb ho

theorem simpleQuery (ha : Accrues u acc adds) (h : c.Limited acc adds A) {sql : String}
    (hm : ∀ x, adds (.query sql) x → A x) (hq : c.simpleQuery u sql = .ok c') :
    c'.Limited acc adds A :=
  (h.send ha .proxy hm).readReply hq

theorem closeCycle (ha : Accrues u acc adds) (h : c.Limited acc adds A)
    (hm : ∀ x, adds .sync x → A x) (hq : Pgferry.closeCycle u c = .ok c') :
    c'.Limited acc adds A :=
  (h.send ha .proxy hm).readReply hq

/-- The replay of a registry whose statements are in `A`. -/
theorem replay (ha : Accrues u acc adds) (h : c.Limited acc adds A) {registry : StatementRegistry}
    (hreg : ∀ e ∈ registry.entries, ∀ x, adds (.parse (some e.1) e.2.1 e.2.2) x → A x)
    (hsync : ∀ x, adds .sync x → A x) (hr : registry.replay u c = .ok c') :
    c'.Limited acc adds A := by
  unfold StatementRegistry.replay at hr
  split at hr
  · cases hr
    exact h
  · obtain ⟨hb, ho⟩ := feedParses_spec registry.entries c
    refine readReply (send ha ⟨hb ▸ h.backend, fun m hm x hx => ?_⟩ .proxy hsync) hr
    rw [ho] at hm
    rcases List.mem_append.mp hm with hm | hm
    · exact h.outbox m hm x hx
    · obtain ⟨e, he, rfl⟩ := List.mem_map.mp hm
      exact hreg e he x hx

/-- A leg, broken or not. -/
theorem collect (ha : Accrues u acc adds) (h : c.Limited acc adds A) {sql : String}
    (hm : ∀ x, adds (.query sql) x → A x) :
    (runQueryCollect u c sql).conn.Limited acc adds A := by
  have hread : ∀ (xs : List (Origin × BackendMessage)) (r : Collected σ),
      r.conn.Limited acc adds A → (collectReply xs r).conn.Limited acc adds A := by
    intro xs r hr
    fun_induction collectReply xs r with
    | case1 r => exact hr.congr rfl rfl
    | case2 r status o rest => exact hr.congr rfl rfl
    | case3 r o name value rest ih => exact ih (hr.congr rfl rfl)
    | case4 r o info rest ih => exact ih hr
    | case5 r o row rest ih => exact ih hr
    | case6 r o m rest _ _ _ _ ih => exact ih hr
  exact hread _ _ (h.send ha .proxy hm)

theorem drainWithin (h : c.Limited acc adds A) (n : Nat) :
    (c.drainWithin n).1.Limited acc adds A := by
  fun_induction Conn.drainWithin n c with
  | case1 c => exact h
  | case2 c n hin => exact h
  | case3 n c o st rest hin => exact h.congr rfl rfl
  | case4 n c o name value rest hin ih => exact ih (h.congr rfl rfl)
  | case5 n c x rest _ _ hin ih => exact ih (h.congr rfl rfl)

end Conn.Limited

/-- What the proxy does for itself brings nothing beyond `A`. -/
theorem Accrues.cleans (ha : Accrues u acc adds) (hA : ∀ m, m.Upkeep → ∀ x, adds m x → A x) :
    Cleans u (Conn.Limited acc adds A) where
  set := fun _ _ name value h hq => h.simpleQuery ha (hA _ (.set name value)) hq
  cached := fun _ _ _ h => h.congr rfl rfl
  discard := fun _ _ h hq => h.simpleQuery ha (hA _ .discard) hq
  sync := fun _ _ h hq => h.closeCycle ha (hA _ .sync) hq
  copyFail := fun _ message h => h.send ha .proxy (hA _ (.copyFail message))
  cancel := fun _ h => h.cancel ha
  drained := fun n _ h => h.drainWithin n
  rollback := fun _ _ h hq => h.simpleQuery ha (hA _ .rollback) hq

end Pgferry
