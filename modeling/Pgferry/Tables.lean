/-
  The prepared statements of a server.

  A server `attends` when a `Parse` is carried out, and not skipped or refused because of an error
  before it: no batch and no transaction has failed. `table` reads the named statements off a
  server, `accepts` are the texts and parameter types that it takes. `Tables` says how the protocol
  works on them. A `Query` or an `Execute` may do anything to the table, since SQL has `PREPARE`,
  `DEALLOCATE` and `DISCARD`.

  Proved: a tame connection whose idle `ReadyForQuery` is still to be read has a server that attends
  (`Conn.Heeds`); the replay of a registry leaves exactly the registered statements
  (`prepared_tabled`); what a session takes back with a `DISCARD ALL` has none (`blank_discarded`).
-/
import Pgferry.Dedicated
import Pgferry.Session.Cycles

namespace Pgferry

variable {σ κ : Type}

/-! ## Attention -/

/-- An attending server stays so unless it reports an error, and becomes so when it reports that it
    is idle or when `DISCARD ALL` succeeds. A server that copies attends. -/
structure Upstream.Attends (u : Upstream σ) (attends : σ → Prop) : Prop where
  clean : ∀ b m, attends b → (∀ x ∈ (u.respond b m).2, x.isError = false) →
    attends (u.respond b m).1
  sync : ∀ b, attends b → attends (u.respond b .sync).1
  discard : ∀ b, (∀ x ∈ (u.respond b (.query "DISCARD ALL")).2, x.isError = false) →
    attends (u.respond b (.query "DISCARD ALL")).1
  copies : ∀ b m, (u.copying b = true → attends b) → u.copying (u.respond b m).1 = true →
    attends (u.respond b m).1
  idle : ∀ b m, (u.copying b = true → attends b) → .readyForQuery .idle ∈ (u.respond b m).2 →
    attends (u.respond b m).1
  interrupt : ∀ b, attends b → u.owed b = 0 → u.copying b = false → attends (u.interrupt b).1
  interrupt_copies : ∀ b, (u.copying b = true → attends b) →
    u.copying (u.interrupt b).1 = true → attends (u.interrupt b).1
  interrupt_idle : ∀ b, (u.copying b = true → attends b) →
    .readyForQuery .idle ∈ (u.interrupt b).2 → attends (u.interrupt b).1

namespace Conn

/-- The server attends while it copies, and once an idle `ReadyForQuery` is on its way. -/
structure Heeds (u : Upstream σ) (attends : σ → Prop) (c : Conn σ) : Prop where
  copies : u.copying c.backend = true → attends c.backend
  idle : ∀ o, (o, .readyForQuery .idle) ∈ c.inbox → attends c.backend

section Heeds

variable {u : Upstream σ} {attends : σ → Prop} {c c' : Conn σ}

/-- A `ReadyForQuery` in a queue counts. -/
theorem queuedReadies_of_mem {xs : List (Origin × BackendMessage)} {o : Origin}
    {status : TransactionStatus} (h : (o, .readyForQuery status) ∈ xs) : queuedReadies xs ≠ 0 := by
  obtain ⟨pre, suf, rfl⟩ := List.append_of_mem h
  rw [queuedReadies_append, queuedReadies_cons]
  show queuedReadies pre + (1 + queuedReadies suf) ≠ 0
  omega

theorem Quiet.heeds (h : c.Quiet u) : c.Heeds u attends where
  copies := fun hc => by rw [h.copying] at hc; cases hc
  idle := fun o hm => by rw [h.inbox] at hm; cases hm

theorem answer_copies (ha : u.Attends attends) (ms : List (Origin × FrontendMessage)) (b : σ)
    (hb : u.copying b = true → attends b) :
    u.copying (u.answer b ms).1 = true → attends (u.answer b ms).1 := by
  induction ms generalizing b with
  | nil => exact hb
  | cons x ms ih => exact ih _ (ha.copies b x.2 hb)

/-- One more message of a client that runs one cycle at a time. -/
theorem Heeds.put (hu : u.InOrder) (ha : u.Attends attends) (h : c.Heeds u attends)
    (ht : c.Tame u) (o : Origin) {m : FrontendMessage}
    (hone : m.isCopy = true ∨ c.pending u = 0) :
    (if m.triggersResponse then c.send u o m else c.feed o m).Heeds u attends := by
  split
  · have hcopies := answer_copies ha c.outbox c.backend h.copies
    refine ⟨?_, fun o' hmem => ?_⟩
    · rw [send_backend]
      exact ha.copies _ m hcopies
    · rw [send_inbox] at hmem
      rw [send_backend]
      rcases List.mem_append.mp hmem with hold | hmem
      · -- The cycle is over, so what is sent is a stray COPY message, which has no effect.
        have hready := queuedReadies_of_mem hold
        have hpend : c.pending u ≠ 0 := by unfold pending; omega
        have hcopy := hone.resolve_right hpend
        rw [ht.outbox hpend]
        have hstray := (hu.stray_copy c.backend m hcopy (ht.copying hready)).1
        refine ha.clean _ m (h.idle o' hold) ?_
        show ∀ x ∈ (u.respond c.backend m).2, _
        rw [hstray]
        exact List.forall_mem_nil _
      · rcases List.mem_append.mp hmem with hfed | hnew
        · have hpend : c.pending u = 0 := by
            by_contra hne
            rw [ht.outbox hne] at hfed
            cases hfed
          exact absurd (answer_readies_zero hu hpend).1 (queuedReadies_of_mem hfed)
        · obtain ⟨x, hx, heq⟩ := List.mem_map.mp hnew
          cases heq
          exact ha.idle _ m hcopies hx
  · exact ⟨h.copies, h.idle⟩

theorem Heeds.cancel (ha : u.Attends attends) (h : c.Heeds u attends) (ht : c.Tame u) :
    (c.cancel u).Heeds u attends := by
  refine ⟨ha.interrupt_copies c.backend h.copies, fun o hmem => ?_⟩
  rcases List.mem_append.mp hmem with hold | hnew
  · have hready := queuedReadies_of_mem hold
    have hle := ht.pending_le
    exact ha.interrupt c.backend (h.idle o hold) (by unfold pending at hle; omega)
      (ht.copying hready)
  · obtain ⟨x, hx, heq⟩ := List.mem_map.mp hnew
    cases heq
    exact ha.interrupt_idle c.backend h.copies hx

/-- Reading takes messages away. -/
theorem Heeds.read (h : c.Heeds u attends) (hb : c'.backend = c.backend)
    (hin : ∀ x ∈ c'.inbox, x ∈ c.inbox) : c'.Heeds u attends := by
  refine ⟨by rw [hb]; exact h.copies, fun o hmem => ?_⟩
  rw [hb]
  exact h.idle o (hin _ hmem)

end Heeds

end Conn

/-! ## The table -/

/-- What names no statement and runs no SQL. -/
def FrontendMessage.Neutral : FrontendMessage → Prop
  | .parse name _ _ => name.getD "" = ""
  | .close .statement _ => False
  | .query _ => False
  | .execute _ => False
  | _ => True

/-- The named statements of a server, with their texts and parameter types. -/
structure Upstream.Tables (u : Upstream σ) (attends : σ → Prop)
    (table : σ → String → Option (String × List Nat)) (accepts : String → List Nat → Bool) :
    Prop where
  attention : u.Attends attends
  parse : ∀ b name query typeOids, attends b → u.copying b = false → name ≠ "" →
    table b name = none → accepts query typeOids = true →
    table (u.respond b (.parse (some name) query typeOids)).1 =
        Function.update (table b) name (some (query, typeOids)) ∧
      u.copying (u.respond b (.parse (some name) query typeOids)).1 = false
  refuse : ∀ b name query typeOids, attends b → u.copying b = false → name ≠ "" →
    table b name ≠ none ∨ accepts query typeOids = false →
    table (u.respond b (.parse (some name) query typeOids)).1 = table b ∧
      ∃ x ∈ (u.respond b (.parse (some name) query typeOids)).2, x.isError = true
  close : ∀ b name, table (u.respond b (.close .statement name)).1 = table b ∨
    table (u.respond b (.close .statement name)).1 = Function.update (table b) (name.getD "") none
  neutral : ∀ b m, m.Neutral → table (u.respond b m).1 = table b
  set : ∀ b name value, table (u.respond b (.query (setSql name value))).1 = table b
  discard : ∀ b, (∀ x ∈ (u.respond b (.query "DISCARD ALL")).2, x.isError = false) →
    table (u.respond b (.query "DISCARD ALL")).1 = fun _ => none
  interrupt : ∀ b, table (u.interrupt b).1 = table b

/-- A pooled connection is quiet, its server attends and has no statement. -/
structure Conn.Blank (u : Upstream σ) (attends : σ → Prop)
    (table : σ → String → Option (String × List Nat)) (c : Conn σ) : Prop where
  quiet : c.Quiet u
  attends : attends c.backend
  table : table c.backend = fun _ => none

def BlankPool (u : Upstream σ) (attends : σ → Prop)
    (table : σ → String → Option (String × List Nat)) (_ : PoolKey) (c : Conn σ) : Prop :=
  c.Blank u attends table

/-! ## What the pool does -/

section Pools

variable {u : Upstream σ} {attends : σ → Prop}
  {table : σ → String → Option (String × List Nat)} {accepts : String → List Nat → Bool}
  {c c' : Conn σ} {key : PoolKey} (hu : u.InOrder) (ht : u.Tables attends table accepts)

include hu ht

/-- A `DISCARD ALL` that succeeds on a quiet connection. -/
theorem blank_discarded (h : c.Quiet u) (hd : c.simpleQuery u "DISCARD ALL" = .ok c') :
    c'.Blank u attends table := by
  obtain ⟨hb, hclean⟩ := Conn.simpleQuery_clean hu h hd
  refine ⟨Conn.simpleQuery_quiet hu h hd, ?_, ?_⟩
  · rw [hb]
    exact ht.attention.discard _ hclean
  · rw [hb]
    exact ht.discard _ hclean

theorem blank_housekeeps : Housekeeps u (Conn.Blank u attends table) where
  set := by
    intro c c' name value h hq
    obtain ⟨hb, hclean⟩ := Conn.simpleQuery_clean hu h.quiet hq
    refine ⟨Conn.simpleQuery_quiet hu h.quiet hq, ?_, ?_⟩
    · rw [hb]
      exact ht.attention.clean _ _ h.attends hclean
    · rw [hb, ht.set, h.table]
  cached := fun c name value h =>
    ⟨(quiet_exchanges hu).cached c name value h.quiet, h.attends, h.table⟩
  discard := fun _ _ h hq => blank_discarded hu ht h.quiet hq
  sync := by
    intro c c' h hq
    obtain ⟨_, _, _, _, _, _, _, _, _, hb, _⟩ := Conn.readReply_spec hq
    rw [Conn.send_backend, h.quiet.outbox] at hb
    refine ⟨(quiet_exchanges hu).sync c c' h.quiet hq, ?_, ?_⟩
    · rw [hb]
      exact ht.attention.sync _ h.attends
    · rw [hb]
      exact (ht.neutral _ .sync trivial).trans h.table

theorem blank_probe : ProbeKeeps u (BlankPool u attends table) :=
  fun _ c c' h hp => (blank_housekeeps hu ht).sync c c' h hp

/-- What a session end returns, if the drain was in time. -/
theorem blank_sanitize {hygiene : Hygiene} {arrived : Nat} (htame : c.Tame u)
    (hd : c.pending u ≠ 0 → drainsInTime u c hygiene arrived = true)
    (hs : sanitize u c hygiene arrived = .ok c') : c'.Blank u attends table := by
  obtain ⟨c₂, hq, -, hdiscard⟩ := sanitize_discards hu htame hd hs
  exact blank_discarded hu ht hq hdiscard

theorem blank_baseline : BaselineKeeps u (BlankPool u attends table) :=
  fun _ _ _ h hs =>
    blank_sanitize hu ht h.quiet.tame (fun hne => absurd h.quiet.pending hne) hs

omit hu in
/-- `Parse` messages of other names that are answered without an error. -/
theorem answer_parses_table (es : List (Σ _ : String, String × List Nat)) (b : σ) (hb : attends b)
    (hcopy : u.copying b = false) (hnodup : es.NodupKeys)
    (hnew : ∀ e ∈ es, e.1 ≠ "" ∧ table b e.1 = none)
    (hclean : ∀ x ∈ (u.answer b (es.map fun e =>
      (Origin.proxy, .parse (some e.1) e.2.1 e.2.2))).2, x.2.isError = false) :
    attends (u.answer b (es.map fun e => (Origin.proxy, .parse (some e.1) e.2.1 e.2.2))).1 ∧
      table (u.answer b (es.map fun e => (Origin.proxy, .parse (some e.1) e.2.1 e.2.2))).1 =
        fun name => (es.dlookup name).or (table b name) := by
  induction es generalizing b with
  | nil => exact ⟨hb, rfl⟩
  | cons e es ih =>
      obtain ⟨name, query, typeOids⟩ := e
      obtain ⟨hfresh, hnodup⟩ := List.nodupKeys_cons.mp hnodup
      obtain ⟨⟨hname, hnone⟩, hnew⟩ := List.forall_mem_cons.mp hnew
      obtain ⟨hfirst, hrest⟩ := List.forall_mem_append.mp hclean
      have hfirst : ∀ x ∈ (u.respond b (.parse (some name) query typeOids)).2,
          x.isError = false := fun x hx => hfirst (Origin.proxy, x) (List.mem_map_of_mem hx)
      have haccepts : accepts query typeOids = true := by
        by_contra hrefused
        obtain ⟨-, x, hx, herror⟩ := ht.refuse b name query typeOids hb hcopy hname
          (.inr (Bool.not_eq_true _ ▸ hrefused))
        exact absurd ((hfirst x hx).symm.trans herror) Bool.false_ne_true
      obtain ⟨htable, hcopy⟩ := ht.parse b name query typeOids hb hcopy hname hnone haccepts
      -- The rest finds this statement in the table, under a name that it does not use.
      have hother : ∀ e ∈ es, e.1 ≠ name := by
        intro e he hsame
        have hkey : e.1 ∈ es.keys := List.mem_keys_of_mem he
        rw [hsame] at hkey
        exact hfresh hkey
      obtain ⟨hattends, hdone⟩ := ih _ (ht.attention.clean b _ hb hfirst) hcopy hnodup
        (fun e he => ⟨(hnew e he).1, by
          rw [htable, Function.update_of_ne (hother e he)]
          exact (hnew e he).2⟩) hrest
      refine ⟨hattends, hdone.trans (funext fun n => ?_)⟩
      rw [htable]
      by_cases hn : n = name
      · subst hn
        rw [List.dlookup_cons_eq, List.dlookup_eq_none.mpr hfresh, Function.update_self]
        rfl
      · rw [List.dlookup_cons_ne _ _ hn, Function.update_of_ne hn]

/-- The replay of a registry on a connection without statements. -/
theorem replay_tabled {registry : StatementRegistry} (hnames : "" ∉ registry)
    (h : c.Blank u attends table) (hr : registry.replay u c = .ok c') :
    c'.Quiet u ∧ attends c'.backend ∧ table c'.backend = fun name => registry.lookup name := by
  refine ⟨Conn.replay_quiet hu h.quiet hr, ?_⟩
  unfold StatementRegistry.replay at hr
  split at hr
  case isTrue hempty =>
    cases hr
    refine ⟨h.attends, h.table.trans (funext fun name => ?_)⟩
    show none = registry.entries.dlookup name
    rw [hempty]
    rfl
  case isFalse =>
    obtain ⟨htame, hpend⟩ := Conn.feedParses_tame registry.entries h.quiet.tame h.quiet.pending
    obtain ⟨hback, hout⟩ := Conn.feedParses_spec registry.entries c
    generalize registry.entries.foldl _ c = fed at hr htame hpend hback hout
    obtain ⟨hb, hclean⟩ := Conn.awaitReady_clean
      (Conn.send_tame hu htame hpend .proxy .sync) hr
    rw [Conn.send_backend, hback, hout, h.quiet.outbox, List.nil_append] at hb
    rw [Conn.send_inbox, hback, hout, h.quiet.outbox, List.nil_append] at hclean
    have hparses := (List.forall_mem_append.mp (List.forall_mem_append.mp hclean).2).1
    have hnew : ∀ e ∈ registry.entries, e.1 ≠ "" ∧ table c.backend e.1 = none := by
      refine fun e he => ⟨fun hempty => hnames ?_, by rw [h.table]⟩
      exact hempty ▸ AList.mem_keys.mpr (List.mem_keys_of_mem he)
    obtain ⟨hattends, htable⟩ := answer_parses_table ht registry.entries c.backend h.attends
      h.quiet.copying registry.nodupKeys hnew hparses
    rw [hb]
    refine ⟨ht.attention.sync _ hattends, ?_⟩
    rw [ht.neutral _ .sync trivial, htable, h.table]
    funext name
    exact Option.or_none

/-- A connection that was brought to a session's state has the statements of its registry. -/
theorem prepared_tabled {startup : Params} {k : Core σ} {dirty₀ dirty : Bool} {base : Conn σ}
    (hnames : "" ∉ k.registry) (hbase : base.Blank u attends table)
    (h : Prepared u startup k dirty₀ base c dirty) :
    c.Quiet u ∧ attends c.backend ∧ table c.backend = fun name => k.registry.lookup name := by
  obtain ⟨c₁, c₂, d, hsync, hgucs, hreplay, -⟩ := h
  have hx := blank_housekeeps hu ht
  exact replay_tabled hu ht hnames (hx.replayGucs (hx.syncParameters hbase hsync) hgucs) hreplay

end Pools

end Pgferry
