/-
  Named-statement transparency.

  A client that shares server connections with others should find the prepared statements that it
  would have on a connection of its own. The registry falls short of that in several ways: it keeps
  a `Parse` that the server has rejected or skipped, it keeps a statement whose `Close` was
  forwarded, it drops a statement when a portal of the same name is closed while the session is
  detached, and it takes a second `Parse` with other parameter types for the first one.

  Proved: `statements_transparent`. When the clients respect `Session.Follows` and session ends
  drain in time, every live session finds on its connection exactly the statements of a dedicated
  connection, and its registry, which the next attach replays, has them too; a `ParseComplete` of
  the pump's own confirms a statement that is there, a `42P05` of its own is about a name that is
  there. For any number of one-cycle sessions, every interleaving, and every pattern of attaches,
  detaches and lost connections.
-/
import Pgferry.Session.Mirrored
import Pgferry.Statements

namespace Pgferry

open Loop

variable {σ κ : Type}

/-- The conditions of the one-cycle clients and of the registry. -/
def Session.Regular (env : Env σ) (attends : σ → Prop)
    (table : σ → String → Option (String × List Nat)) (accepts : String → List Nat → Bool)
    (s : Session σ κ) (e : Event) : Prop :=
  s.OneCycle env.upstream e ∧ s.Mirrorable env attends table accepts e

namespace Core

/-- A calm session that mirrors its statements while it lives. -/
structure Mirrored (u : Upstream σ) (attends : σ → Prop)
    (table : σ → String → Option (String × List Nat)) (accepts : String → List Nat → Bool)
    (c : Core σ) : Prop where
  calm : c.Calm u
  live : c.ended = none → c.Mirrors u attends table accepts

section Stable

variable {env : Env σ} {i : Option (Interceptor κ)} {s : Session σ κ} {attends : σ → Prop}
  {table : σ → String → Option (String × List Nat)} {accepts : String → List Nat → Bool}
  (hu : env.upstream.InOrder) (ht : env.upstream.Tables attends table accepts)

include hu ht

/-- What such a session detaches has no statement, with or without a `DISCARD ALL`. -/
theorem mirrored_releases (hp : Passive i) (hcalm : s.toCore.Calm env.upstream)
    (hs : s.toCore.Mirrors env.upstream attends table accepts) :
    Session.Releases env i (BlankPool env.upstream attends table) s := by
  intro o m m' m'' c lease conn hr hshown hh hm _ hidle hlease hd
  have hready : m.ready = 1 := hshown.ready.symm.trans (hh.steady hp.steady hm)
  have hq := (readNext_calm hr hcalm).2 hready lease hlease
  unfold discardIfDirty at hd
  split at hd
  case isTrue => exact blank_discarded hu ht hq hd
  case isFalse hdirty =>
    cases hd
    have hmirrors := readNext_mirrors hr hs
    refine ⟨hq, ?_, ?_⟩
    · -- What was read is an idle `ReadyForQuery`.
      obtain ⟨before, rest, hl, hin, -, -, hafter⟩ := readNext_spec hr
      cases m with
      | readyForQuery status =>
          cases hafter.symm.trans hlease
          rw [leaseStatus, hafter] at hidle
          have hstatus : status = .idle := hidle
          subst hstatus
          refine (hs.conn before hl).heeds.idle o ?_
          rw [hin]
          exact List.mem_cons_self
      | _ => cases hready
    · rw [← Conn.caughtUp_of_nil hq.outbox, (hmirrors.conn lease hlease).table]
      funext name
      show c.registry.entries.dlookup name = none
      rw [hmirrors.clean lease hlease (Bool.not_eq_true _ ▸ hdirty)]
      rfl

theorem mirrored_stable {startup : Params} (htr : Transparent i) :
    Session.Stable env i startup (BlankPool env.upstream attends table)
      (Session.Regular env attends table accepts)
      (Mirrored env.upstream attends table accepts) where
  probe := blank_probe hu ht
  leg := by
    rintro sql ⟨input, request, hasks, -⟩
    cases htr.asks hasks
  releases := fun _ hs he _ => mirrored_releases hu ht htr.passive hs.inv.calm (hs.inv.live he)
  step := fun _ _ _ hs he hok h =>
    ⟨steps_calm hu htr.passive.steady hs.inv.calm hok.1 (h.mono fun _ _ hb => hb.quiet),
      steps_mirrors hu ht htr hs.interceptor hs.inv.calm (hs.inv.live he) hok.1 hok.2 h⟩

end Stable

end Core

section Systems

variable {env : Env σ} {attends : σ → Prop} {table : σ → String → Option (String × List Nat)}
  {accepts : String → List Nat → Bool} (hu : env.upstream.InOrder)
  (ht : env.upstream.Tables attends table accepts)

include hu ht

theorem Launch.start_mirrored {l : Launch σ κ}
    (hw : l.world.Tidy (BlankPool env.upstream attends table)) :
    Session.Holds l.interceptor l.startup (BlankPool env.upstream attends table)
      (Core.Mirrored env.upstream attends table accepts) (l.new.start env) := by
  obtain ⟨hk, hstart⟩ : l.new.Kept (BlankPool env.upstream attends table) (l.new.start env) ∧ _ :=
    Session.start_spec (blank_probe hu ht) (blank_baseline hu ht) hw
  have hcalm := (l.start_calm hu (hw.mono fun _ _ hb => hb.quiet)).inv
  refine ⟨⟨hcalm, fun hlive => ?_⟩, hk.tidy, hk.interceptor, hk.startup⟩
  have hnew : l.new.toCore.Tracks accepts := ⟨rfl, trivial⟩
  generalize (l.new.start env).toCore = d at hstart hlive
  cases hstart with
  | detached => exact Core.mirrors_of_none rfl hnew
  | refused => cases hlive
  | attached c₁ _ h =>
      cases h with
      | held _ hl => cases hl
      | leased endpoint dirty₀ base lease dirty _ _ _ hbase hprep =>
          obtain ⟨hquiet, -, htable⟩ := prepared_tabled hu ht (AList.notMem_empty "") hbase hprep
          refine ⟨hnew.grow rfl rfl rfl ⟨trivial, trivial⟩, fun l hl => ?_, fun _ _ _ => rfl⟩
          cases hl
          refine ⟨hquiet.heeds, ?_⟩
          rw [Conn.caughtUp_of_nil hquiet.outbox]
          exact htable

theorem Session.finish_mirrored {s : Session σ κ} {arrived : Nat}
    (hc : s.toCore.Mirrored env.upstream attends table accepts)
    (hw : s.world.Tidy (BlankPool env.upstream attends table))
    (he : s.EndsInTime env.upstream arrived) :
    (s.finish env arrived).world.Tidy (BlankPool env.upstream attends table) ∧
      (s.finish env arrived).toCore.Mirrored env.upstream attends table accepts := by
  refine ⟨finish_tidy hw fun lease conn hend hlease hsan => ?_, ?_⟩
  · exact blank_sanitize hu ht (hc.calm.tame lease hlease) (he hend lease hlease) hsan
  · rcases s.finish_core env arrived with h | h <;> rw [h]
    · exact hc
    · refine ⟨Core.calm_of_none rfl, fun hlive => Core.mirrors_of_none rfl ?_⟩
      exact (hc.live hlive).tracks.grow rfl (List.append_nil _).symm rfl trivial

theorem System.mirrored_keeps :
    System.Keeps (κ := κ) env (BlankPool env.upstream attends table)
      (fun l => Transparent l.interceptor) (Session.Regular env attends table accepts)
      (Session.EndsInTime env.upstream)
      (fun _ => Core.Mirrored env.upstream attends table accepts) where
  anywhere := fun _ _ _ h => h
  start := fun l _ hw => l.start_mirrored hu ht hw
  stable := fun _ hl => Core.mirrored_stable hu ht hl
  finish := fun _ _ _ hc hw he => Session.finish_mirrored hu ht hc hw he

end Systems

/-! ## The sample server -/

namespace Pg

variable {d : Dialect} {b : Pg} {m : FrontendMessage}

/-- The named statements with their texts and types. -/
def table (b : Pg) (name : String) : Option (String × List Nat) :=
  if name = "" then none else b.statements.lookup name

/-- No message of the batch has failed. -/
def attends (b : Pg) : Prop := b.skipping = false

instance (b : Pg) : Decidable b.attends := inferInstanceAs (Decidable (_ = _))

/-- The texts that are not rejected at `Parse`. -/
def accepts (d : Dialect) (query : String) (_ : List Nat) : Bool :=
  decide (d.effect query ≠ .reject)

theorem table_congr {b' : Pg} (h : b'.statements = b.statements) : b'.table = b.table := by
  unfold table
  rw [h]

theorem respond_outside (hc : b.copying = false) : respond d b m = process d b m :=
  if_neg (by rw [hc]; exact Bool.false_ne_true)

/-! ### Attention -/

theorem execute_skipping (b : Pg) (e : Effect) : (execute d b e).1.skipping = b.skipping := by
  unfold execute
  split
  · rfl
  · cases e with
    | discardAll =>
        dsimp only
        split <;> rfl
    | _ => rfl

/-- A `Query` and a `Sync` end the skipping. -/
theorem process_ends (b : Pg) (hm : m.cycles ≠ 0) : (process d b m).1.attends := by
  cases m with
  | query sql =>
      unfold process
      dsimp only
      split
      · rfl
      · exact execute_skipping _ _
  | sync => rfl
  | _ => exact absurd rfl hm

theorem extended_attends (hb : b.attends)
    (h : ∀ x ∈ (extended d b m).2, x.isError = false) : (extended d b m).1.attends := by
  have hskip : ∀ b' : Pg, ∀ code message,
      ¬ ∀ x ∈ (b'.skip code message).2, x.isError = false :=
    fun b' code message hclean => Bool.noConfusion (hclean _ List.mem_cons_self)
  revert h
  fun_cases extended d b m <;> intro h <;> first
    | exact absurd h (hskip _ _ _)
    | exact hb
    | exact List.any_eq_false.mpr fun x hx => Bool.not_eq_true _ ▸ h x hx

theorem process_attends (hb : b.attends) (h : ∀ x ∈ (process d b m).2, x.isError = false) :
    (process d b m).1.attends := by
  by_cases hm : m.cycles = 0
  · have hext : process d b m = extended d b m := by
      have hskips : ¬ b.skipping = true := by rw [show b.skipping = false from hb]; simp
      cases m <;> first
        | exact if_neg hskips
        | cases hm
    rw [hext] at h ⊢
    exact extended_attends hb h
  · exact process_ends b hm

/-- Inside COPY only a `Query` or a `Sync` changes whether the server skips. -/
theorem respond_copying (hc : b.copying = true) (hb : b.attends) : (respond d b m).1.attends := by
  unfold respond
  rw [if_pos hc]
  cases m with
  | query sql => exact process_ends b.failed (m := .query sql) Nat.one_ne_zero
  | sync => exact rfl
  | _ => exact hb

/-- Outside COPY a message that is answered with a `ReadyForQuery` or starts a copy is a `Query` or
    a `Sync`. -/
theorem respond_cycle (hc : b.copying = false)
    (h : (respond d b m).1.copying = true ∨ .readyForQuery .idle ∈ (respond d b m).2) :
    (respond d b m).1.attends := by
  rw [respond_outside hc] at h ⊢
  refine process_ends b fun hm => ?_
  have hspec := (process_spec d hc m).1
  rw [hm] at hspec
  rcases h with h | h
  · rw [if_pos h] at hspec
    omega
  · obtain ⟨pre, suf, hsplit⟩ := List.append_of_mem h
    rw [hsplit, readies_append, readies_cons] at hspec
    simp [BackendMessage.ready] at hspec

theorem respond_attends (hb : b.attends) (h : ∀ x ∈ (respond d b m).2, x.isError = false) :
    (respond d b m).1.attends := by
  cases hc : b.copying with
  | true => exact respond_copying hc hb
  | false =>
      rw [respond_outside hc] at h ⊢
      exact process_attends hb h

theorem interrupt_skipping (b : Pg) : (interrupt b).1.skipping = b.skipping := by
  unfold interrupt
  split <;> rfl

end Pg

theorem pg_attends (d : Dialect) : (pg d).Attends Pg.attends where
  clean := fun b m hb h => Pg.respond_attends hb h
  sync := by
    intro b hb
    cases hc : b.copying with
    | true => exact Pg.respond_copying hc hb
    | false =>
        have hresp : (pg d).respond b .sync = _ := Pg.respond_outside hc
        rw [hresp]
        exact rfl
  discard := by
    intro b h
    cases hc : b.copying with
    | true =>
        have hcopy : ∀ x ∈ (Pg.respond d b (.query "DISCARD ALL")).2, x.isError = false := h
        unfold Pg.respond at hcopy
        rw [if_pos hc] at hcopy
        exact Bool.noConfusion (hcopy _ List.mem_cons_self)
    | false =>
        have hresp : (pg d).respond b (.query "DISCARD ALL") = _ := Pg.respond_outside hc
        rw [hresp]
        exact Pg.process_ends b (m := .query "DISCARD ALL") Nat.one_ne_zero
  copies := by
    intro b m hb hcopies
    cases hc : b.copying with
    | true => exact Pg.respond_copying hc (hb hc)
    | false => exact Pg.respond_cycle hc (.inl hcopies)
  idle := by
    intro b m hb hidle
    cases hc : b.copying with
    | true => exact Pg.respond_copying hc (hb hc)
    | false => exact Pg.respond_cycle hc (.inr hidle)
  interrupt := fun b hb _ _ => (Pg.interrupt_skipping b).trans hb
  interrupt_copies := fun b _ hcopies => by
    have hnot : (Pg.interrupt b).1.copying = false := (Pg.interrupt_spec b).1
    exact absurd (hnot.symm.trans hcopies) Bool.false_ne_true
  interrupt_idle := by
    intro b hb hidle
    cases hc : b.copying with
    | true => exact (Pg.interrupt_skipping b).trans (hb hc)
    | false =>
        have hempty : ((pg d).interrupt b).2 = [] := ((pg_inOrder d).interrupt_idle b (by
          show (if b.copying then 1 else 0) = 0
          rw [hc]
          rfl) hc).1
        rw [hempty] at hidle
        cases hidle

namespace Pg

variable {d : Dialect} {b : Pg} {m : FrontendMessage}

/-! ### The table -/

theorem table_of_ne {name : String} (h : name ≠ "") : b.table name = b.statements.lookup name :=
  if_neg h

theorem execute_keeps (b : Pg) {e : Effect} (he : e ≠ .discardAll) :
    (execute d b e).1.statements = b.statements := by
  unfold execute
  split
  · rfl
  · cases e with
    | discardAll => exact absurd rfl he
    | _ => rfl

/-- Inside COPY only a `Query` or a `Sync` is processed. -/
theorem respond_table (h : ∀ b' : Pg, b'.statements = b.statements →
    (process d b' m).1.table = b.table) : (respond d b m).1.table = b.table := by
  unfold respond
  split
  · cases m with
    | query sql => exact h b.failed rfl
    | sync => exact h b.failed rfl
    | _ => rfl
  · exact h b rfl

/-- Two tables differ, if at all, at the name of a statement. -/
theorem table_eq_iff (b b' : Pg) :
    (∀ name ∈ b.statements.keys ++ b'.statements.keys, b.table name = b'.table name) ↔
      b.table = b'.table := by
  refine ⟨fun h => funext fun name => ?_, fun h name _ => by rw [h]⟩
  by_cases hmem : name ∈ b.statements.keys ++ b'.statements.keys
  · exact h name hmem
  · have hnone : ∀ b : Pg, name ∉ b.statements.keys → b.table name = none := by
      intro b hb
      unfold table
      split
      · rfl
      · exact AList.lookup_eq_none.mpr hb
    rw [List.mem_append, not_or] at hmem
    rw [hnone b hmem.1, hnone b' hmem.2]

theorem query_table (b : Pg) {sql : String} (hsql : d.effect sql ≠ .discardAll) :
    (respond d b (.query sql)).1.table = b.table := by
  refine respond_table fun b' hb' => table_congr ?_
  unfold process
  dsimp only
  split
  · exact hb'
  · exact (execute_keeps _ hsql).trans hb'

/-- A `Parse` of the unnamed statement leaves the named ones alone. -/
theorem unnamed_table (b : Pg) {name : Option String} (hname : name.getD "" = "") (query : String)
    (typeOids : List Nat) : (extended d b (.parse name query typeOids)).1.table = b.table := by
  have hrel : (b.release "").table = b.table := by
    funext n
    unfold table
    split
    case isTrue => rfl
    case isFalse hn =>
      exact AList.lookup_erase_ne hn
  unfold extended
  dsimp only
  rw [hname]
  split
  · exact hrel
  · rw [if_neg fun h => h.1 rfl]
    refine Eq.trans (funext fun n => ?_) hrel
    unfold table
    split
    case isTrue => rfl
    case isFalse hn =>
      exact AList.lookup_insert_ne hn

theorem neutral_table (b : Pg) (hm : m.Neutral) : (respond d b m).1.table = b.table := by
  refine respond_table fun b' hb' => Eq.trans ?_ (table_congr hb')
  have hext : ∀ x : Pg × List BackendMessage, x.1.table = b'.table →
      (if b'.skipping then (b', []) else x).1.table = b'.table := by
    intro x hx
    split
    · rfl
    · exact hx
  cases m with
  | query sql => exact hm.elim
  | execute portal => exact hm.elim
  | sync => exact table_congr rfl
  | parse name query typeOids => exact hext _ (unnamed_table b' hm query typeOids)
  | bind portal statement =>
      refine hext _ ?_
      simp only [extended]
      split <;> exact table_congr rfl
  | describe target name =>
      refine hext _ ?_
      cases target <;> simp only [extended] <;> split <;> exact table_congr rfl
  | close target name =>
      cases target with
      | statement => exact hm.elim
      | portal => exact hext _ (table_congr rfl)
  | _ => exact hext _ rfl

/-- A `Close` that is not skipped drops the statement. -/
theorem close_table (b : Pg) (name : Option String) :
    (respond d b (.close .statement name)).1.table = b.table ∨
      (respond d b (.close .statement name)).1.table =
        Function.update b.table (name.getD "") none := by
  cases hc : b.copying with
  | true =>
      left
      unfold respond
      rw [if_pos hc]
      exact table_congr rfl
  | false =>
      rw [respond_outside hc]
      unfold process
      dsimp only
      split
      · exact .inl rfl
      · right
        funext n
        by_cases hn : n = name.getD ""
        · subst hn
          rw [Function.update_self]
          show (if _ then none else (b.statements.erase (name.getD "")).lookup _) = _
          rw [AList.lookup_erase]
          exact ite_self _
        · rw [Function.update_of_ne hn]
          unfold table
          split
          · rfl
          · exact AList.lookup_erase_ne hn

/-- What a `Parse` of a named statement does to a server that attends. -/
theorem parse_table (hb : b.attends) (hc : b.copying = false) {name : String} (hname : name ≠ "")
    (query : String) (typeOids : List Nat) :
    respond d b (.parse (some name) query typeOids) =
      if d.effect query = .reject then b.skip "42601" "syntax error"
      else if name ∈ b.statements then b.skip "42P05" "prepared statement already exists"
      else ({ b with statements := b.statements.insert name (query, typeOids) },
        [.parseComplete]) := by
  have hrel : b.release name = b := by
    unfold release
    rw [if_neg hname]
  have hskips : ¬ b.skipping = true := by
    rw [show b.skipping = false from hb]
    exact Bool.false_ne_true
  rw [respond_outside hc]
  unfold process
  dsimp only
  rw [if_neg hskips]
  unfold extended
  dsimp only
  rw [Option.getD_some, hrel]
  simp only [ne_eq, hname, not_false_eq_true, true_and]

end Pg

theorem pg_tables {d : Dialect} (hd : d.effect "DISCARD ALL" = .discardAll)
    (hset : ∀ name value, d.effect (setSql name value) ≠ .discardAll) :
    (pg d).Tables Pg.attends Pg.table (Pg.accepts d) where
  attention := pg_attends d
  parse := by
    intro b name query typeOids hb hc hname hnone haccepts
    rw [Pg.table_of_ne hname, AList.lookup_eq_none] at hnone
    have hresp : (pg d).respond b (.parse (some name) query typeOids) = _ :=
      Pg.parse_table hb hc hname query typeOids
    rw [hresp, if_neg (of_decide_eq_true haccepts), if_neg hnone]
    refine ⟨funext fun n => ?_, hc⟩
    by_cases hn : n = name
    · subst hn
      rw [Function.update_self, Pg.table_of_ne hname]
      exact AList.lookup_insert _
    · rw [Function.update_of_ne hn]
      unfold Pg.table
      split
      · rfl
      · exact AList.lookup_insert_ne hn
  refuse := by
    intro b name query typeOids hb hc hname hrefused
    have hresp : (pg d).respond b (.parse (some name) query typeOids) = _ :=
      Pg.parse_table hb hc hname query typeOids
    rw [hresp]
    have hskip : ∀ code message, (b.skip code message).1.table = b.table ∧
        ∃ x ∈ (b.skip code message).2, x.isError = true :=
      fun code message => ⟨rfl, _, List.mem_cons_self, rfl⟩
    split
    case isTrue => exact hskip _ _
    case isFalse haccepts =>
      rw [Pg.table_of_ne hname] at hrefused
      have hmem : name ∈ b.statements := by
        rcases hrefused with h | h
        · exact AList.lookup_isSome.mp (Option.isSome_iff_ne_none.mpr h)
        · exact absurd (of_decide_eq_false h) (fun hn => hn haccepts)
      rw [if_pos hmem]
      exact hskip _ _
  close := fun b name => Pg.close_table b name
  neutral := fun b _ hm => Pg.neutral_table b hm
  set := fun b name value => Pg.query_table b (hset name value)
  discard := by
    intro b h
    have hempty := Pg.discard_statements hd b h
    funext name
    show (if name = "" then none else AList.lookup name (Pg.respond d b _).1.statements) = none
    rw [hempty]
    exact ite_self _
  interrupt := by
    intro b
    refine Pg.table_congr ?_
    show (Pg.interrupt b).1.statements = b.statements
    unfold Pg.interrupt
    split <;> rfl

/-! ## Whole runs -/

/-- Any number of sessions in any interleaving, in either pool mode. The server processes a `Bind`
    or `Describe` in the state in which it has caught up with what was sent before; what the
    registry has is replayed by the next attach. -/
theorem statements_transparent (env : Env σ) (attends : σ → Prop)
    (table : σ → String → Option (String × List Nat)) (accepts : String → List Nat → Bool)
    (world : World σ) (acts : List (Act σ κ)) (hu : env.upstream.InOrder)
    (ht : env.upstream.Tables attends table accepts)
    (hworld : world.Tidy (BlankPool env.upstream attends table))
    (hrun : Along (System.act env) (System.Within (fun l => Transparent l.interceptor)
      (Session.Regular env attends table accepts) (Session.EndsInTime env.upstream))
      (System.init world) acts) (n : Nat) (s : Session σ κ)
    (hs : (run (System.act env) (System.init world) acts).sessions[n]? = some s)
    (hlive : s.ended = none) :
    (∀ lease, s.lease = some lease → ∀ name, table (lease.conn.caughtUp env.upstream) name =
      (s.toCore.dedicated accepts).statements.lookup name) ∧
    (∀ name, s.registry.lookup name = (s.toCore.dedicated accepts).statements.lookup name) ∧
    s.toCore.Vouched accepts := by
  have h := (System.mirrored_keeps hu ht).run world acts hworld hrun
  obtain ⟨hinv, -⟩ := h.sessions n s hs
  have hmirrors := hinv.live hlive
  refine ⟨fun lease hl name => ?_, fun name => ?_, hmirrors.tracks.vouched⟩
  · rw [(hmirrors.conn lease hl).table, hmirrors.tracks.registry]
  · rw [hmirrors.tracks.registry]

namespace Sample

/-- The SQL of the sample dialect that drops statements is `DISCARD ALL`. -/
theorem effect_discards {sql : String} (h : Dialect.sample.effect sql = .discardAll) :
    sql = "DISCARD ALL" := by
  by_contra hne
  have hlookup : ∀ l : List (String × Effect),
      (∀ p ∈ l, p.2 = .discardAll → p.1 = "DISCARD ALL") →
      (l.lookup sql).getD .rows ≠ .discardAll := by
    intro l hl
    induction l with
    | nil => exact Effect.noConfusion
    | cons p l ih =>
        rw [List.lookup_cons]
        split
        case h_1 heq =>
          exact fun hp => hne ((beq_iff_eq.mp heq).trans (hl p List.mem_cons_self hp))
        case h_2 => exact ih fun q hq => hl q (List.mem_cons_of_mem _ hq)
  exact hlookup _ (by decide) h

theorem set_discards (name value : String) :
    Dialect.sample.effect (setSql name value) ≠ .discardAll := by
  intro h
  have hhead : (setSql name value).toList.head? = some 'S' := by simp [setSql]
  rw [effect_discards h] at hhead
  exact absurd hhead (by decide)

theorem tables : (pg .sample).Tables Pg.attends Pg.table (Pg.accepts .sample) :=
  pg_tables rfl set_discards

theorem world_blank (mode : PoolMode) :
    (world mode).Tidy (BlankPool (env mode).upstream Pg.attends Pg.table) where
  idle := fun _ _ h => by cases h
  fresh := by
    intro key n b ps h pid
    cases h
    exact ⟨Conn.new_quiet rfl rfl, rfl, funext fun _ => ite_self _⟩

instance (b b' : Pg) : Decidable (b.table = b'.table) :=
  decidable_of_iff _ (Pg.table_eq_iff b b')

/-- Every SQL but `DISCARD ALL` leaves the statements alone. -/
theorem query_keeps_iff (mode : PoolMode) (sql : String) : Dialect.sample.effect sql ≠ .discardAll ↔
    ∀ b, ((env mode).upstream.respond b (.query sql)).1.table = b.table := by
  refine ⟨fun h b => Pg.query_table b h, fun h hsql => ?_⟩
  have hdrops : ((pg .sample).respond { Pg.fresh .sample with
      statements := (∅ : StatementRegistry).insert "s" ("SELECT 1", []) }
      (.query "DISCARD ALL")).1.table "s" = none := by decide
  rw [effect_discards hsql] at h
  exact absurd ((congrFun (h _) "s").symm.trans hdrops) (by decide)

instance (mode : PoolMode) (sql : String) :
    Decidable (∀ b, ((env mode).upstream.respond b (.query sql)).1.table = b.table) :=
  decidable_of_iff _ (query_keeps_iff mode sql)

instance (mode : PoolMode) (s : Session Pg Unit) : ∀ m,
    Decidable (s.Follows (env mode) Pg.attends Pg.table (Pg.accepts .sample) m)
  | .parse (some _) _ _ =>
      inferInstanceAs (Decidable (_ → if s.swallowUntilSync = true then _ else _))
  | .close .statement (some _) => inferInstanceAs (Decidable (_ → _))
  | .close .portal (some _) => inferInstanceAs (Decidable (_ → _))
  | .query _ => inferInstanceAs (Decidable (∀ _, _))
  | .execute _ => inferInstanceAs (Decidable (_ ∨ ∃ _ ∈ _, _))
  | .parse none _ _ | .close .statement none | .close .portal none | .bind _ _ | .describe _ _
  | .flush | .sync | .terminate | .copyData | .copyDone | .copyFail _ | .other => isTrue trivial

instance (mode : PoolMode) (s : Session Pg Unit) : ∀ e,
    Decidable (s.Mirrorable (env mode) Pg.attends Pg.table (Pg.accepts .sample) e)
  | .client m _ =>
      inferInstanceAs (Decidable (s.Follows (env mode) Pg.attends Pg.table (Pg.accepts .sample) m))
  | .cancel => inferInstanceAs (Decidable (∀ lease ∈ s.lease, lease.conn.outbox = []))
  | .upstream | .upstreamClosed | .upstreamError _ | .clientGone | .shutdown => isTrue trivial

instance (mode : PoolMode) (s : Session Pg Unit) (e : Event) :
    Decidable (s.Regular (env mode) Pg.attends Pg.table (Pg.accepts .sample) e) :=
  inferInstanceAs (Decidable (_ ∧ _))

end Sample

open Sample

/-- The first client prepares a statement and is detached, which discards it. The second one takes
    the connection. Then the first parses its statement again, which is answered locally, and binds
    the replayed one; it closes it while detached and gives the name to another query. -/
theorem statements_transparent_shared :
    ¬ ∃ (n : Nat) (s : Session Pg Unit) (lease : UpstreamLease Pg) (name : String),
      (system ([connect, connect] ++
        turns 0 ([client (.parse (some "s") "SELECT 1" []),
          client .sync] ++ reads 2) ++
        turns 1 ([client (.parse (some "t") "SELECT 2" []),
          client .sync] ++ reads 2) ++
        turns 0 ([client (.parse (some "s") "SELECT 1" []),
          client (.bind none (some "s")), client (.execute none),
          client .sync] ++ reads 3 ++
          [client (.close .statement (some "s")), client .sync,
            client (.parse (some "s") "SELECT 3" [])]))).sessions[n]? = some s ∧
      s.ended = none ∧ s.lease = some lease ∧ Pg.table (lease.conn.caughtUp (pg .sample)) name ≠
        (s.toCore.dedicated (Pg.accepts .sample)).statements.lookup name := by
  rintro ⟨n, s, lease, name, hs, hlive, hlease, hne⟩
  refine hne ((statements_transparent (env .transaction) Pg.attends Pg.table
    (Pg.accepts .sample) (world .transaction) _ (pg_inOrder _) tables
    (world_blank .transaction) ?_ n s hs hlive).1 lease hlease name)
  exact (Along.mono (fun _ _ h => System.Within.mono
      (fun _ hl => by rw [Launch.Plain.interceptor hl]; exact transparent_none)
      (fun _ _ h => h) (fun _ _ h => h) h) _ _
      (by decide : Along _ (System.Within Launch.Plain
        (Session.Regular _ Pg.attends Pg.table (Pg.accepts .sample)) (Session.EndsInTime _)) _ _))

namespace Sample

/-- A client that parses the statement `s` twice, in session mode. The first `Parse` is rejected. -/
def rejectedTwice : Session Pg Unit :=
  after .session none ([client (.parse (some "s") "SELEC 1" []), client .sync] ++ reads 2 ++
    [client (.parse (some "s") "SELEC 1" [])])

/-- A statement is prepared, and a portal of its name is closed between two transactions. -/
def portalClosed : Session Pg Unit :=
  after .transaction none (prepare ++ [client (.close .portal (some "s")), client .sync,
    client (.bind none (some "s"))])

end Sample

/-- The second `Parse` of a rejected statement is confirmed, though there is no statement. The
    `Close` of a portal drops the statement, which a dedicated connection still has. -/
theorem statements_diverge :
    ((∃ lease ∈ rejectedTwice.lease,
        (lease.conn.caughtUp (pg .sample)).table "s" = none) ∧
      .sent true (.client 0 3) .parseComplete ∈ rejectedTwice.log) ∧
    (∃ lease ∈ portalClosed.lease, (lease.conn.caughtUp (pg .sample)).table "s" = none) ∧
      (portalClosed.toCore.dedicated (Pg.accepts .sample)).statements.lookup "s" =
        some ("SELECT 1", []) := by
  decide

end Pgferry
