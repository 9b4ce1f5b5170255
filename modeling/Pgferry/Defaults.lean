/-
  The parameters of pooled connections.

  A server starts a session with the values `initial`, and `DISCARD ALL` restores them. A connection
  is `Neutral` when it is at rest with these values, on the server and in the cache. The proxy syncs
  the tracked startup parameters of a session whenever it takes a connection; the sync changes
  nothing when the session asks for the initial values (`AsksDefaults`).

  Proved: what puts a connection back on an idle stack leaves it neutral. This is so after a
  `DISCARD ALL` (`neutral_discarded`), hence after a session end whose drain was in time
  (`neutral_sanitize`) and a baseline probe (`neutral_baseline`), and for a scatter leg of a session
  that asks for the initial values (`neutral_leg`).
-/
import Pgferry.Accrual
import Pgferry.Session.Replay

namespace Pgferry

variable {σ : Type} {u : Upstream σ} {values initial : σ → Values}

/-- Nothing changes the values `initial` of a server, `DISCARD ALL` restores them, and what a cancel
    request changes is reported. -/
structure Upstream.Resets (u : Upstream σ) (values initial : σ → Values) : Prop where
  respond : ∀ b m, initial (u.respond b m).1 = initial b
  interrupt : ∀ b, initial (u.interrupt b).1 = initial b
  interrupted : ∀ b, values (u.interrupt b).1 = reported (values b) (u.interrupt b).2
  discard : ∀ b, (∀ m ∈ (u.respond b (.query "DISCARD ALL")).2, m.isError = false) →
    readies (u.respond b (.query "DISCARD ALL")).2 ≠ 0 →
    values (u.respond b (.query "DISCARD ALL")).1 = initial b

namespace Conn

variable {c c' : Conn σ} {v : Values}

/-! ## Cached values on the way back -/

theorem Current.cancel (hr : u.Resets values initial) (h : c.Current values) :
    (c.cancel u).Current values := by
  unfold Current at h ⊢
  show reported c.parameter ((c.inbox ++ (u.interrupt c.backend).2.map fun m => (c.running, m)).map
    Prod.snd) = values (u.interrupt c.backend).1
  have htag : ((u.interrupt c.backend).2.map fun m => (c.running, m)).map Prod.snd =
      (u.interrupt c.backend).2 := by
    rw [List.map_map]
    exact List.map_id _
  rw [List.map_append, reported_append, h, htag, hr.interrupted]

theorem Current.drainWithin (h : c.Current values) (n : Nat) :
    (c.drainWithin n).1.Current values := by
  fun_induction Conn.drainWithin n c with
  | case1 c => exact h
  | case2 n c hin => exact h
  | case3 n c o st rest hin =>
      unfold Current at h ⊢
      rw [hin] at h
      exact h
  | case4 n c o name value rest hin ih =>
      refine ih ?_
      unfold Current at h ⊢
      rw [hin] at h
      rw [setServerParameter_parameter]
      exact h
  | case5 n c x rest hready hstatus hin ih =>
      refine ih ?_
      unfold Current at h ⊢
      rw [hin] at h
      obtain ⟨o, m⟩ := x
      cases m with
      | readyForQuery status => exact absurd rfl (hready o status)
      | parameterStatus name value => exact absurd rfl (hstatus o name value)
      | _ => exact h

theorem current_settles (hp : u.Parameters values) (hr : u.Resets values initial) :
    Settles u (Conn.Current values) where
  sync := fun _ _ h hq => (h.send hp .proxy .sync).readReply hq
  copyFail := fun _ _ h => h.send hp .proxy _
  cancel := fun _ h => h.cancel hr
  drained := fun n _ h => h.drainWithin n
  rollback := fun _ _ h hq => (h.send hp .proxy _).readReply hq

/-- A leg applies the reports that it reads. -/
theorem Current.collect (hp : u.Parameters values) (h : c.Current values) (sql : String) :
    (runQueryCollect u c sql).conn.Current values := by
  have hread : ∀ (xs : List (Origin × BackendMessage)) (r : Collected σ),
      reported (collectReply xs r).conn.parameter ((collectReply xs r).conn.inbox.map Prod.snd) =
        reported r.conn.parameter (xs.map Prod.snd) ∧
      (collectReply xs r).conn.backend = r.conn.backend := by
    intro xs r
    fun_induction collectReply xs r with
    | case1 r => exact ⟨rfl, rfl⟩
    | case2 o status rest r => exact ⟨rfl, rfl⟩
    | case3 o name value rest r ih =>
        refine ⟨ih.1.trans ?_, ih.2⟩
        rw [setServerParameter_parameter]
        rfl
    | case4 o info rest r ih => exact ih
    | case5 o row rest r ih => exact ih
    | case6 o m rest r hready hstatus _ _ ih =>
        refine ⟨ih.1.trans ?_, ih.2⟩
        cases m with
        | readyForQuery status => exact absurd rfl (hready status)
        | parameterStatus name value => exact absurd rfl (hstatus name value)
        | _ => rfl
  have hsent := h.send hp .proxy (.query sql)
  obtain ⟨hreports, hbackend⟩ := hread (c.send u .proxy (.query sql)).inbox
    { conn := c.send u .proxy (.query sql), messages := [], rows := 0, error := none,
      dirty := false, broken := false }
  unfold Current at hsent ⊢
  exact hreports.trans (hsent.trans (congrArg values hbackend.symm))

/-- A leg without a report leaves the cache alone. -/
theorem collect_silent {sql : String} (h : (runQueryCollect u c sql).dirty = false) :
    (runQueryCollect u c sql).conn.parameter = c.parameter := by
  have hdirty : ∀ (xs : List (Origin × BackendMessage)) (r : Collected σ), r.dirty = true →
      (collectReply xs r).dirty = true := by
    intro xs r hr
    fun_induction collectReply xs r <;> simp_all
  have hread : ∀ (xs : List (Origin × BackendMessage)) (r : Collected σ),
      (collectReply xs r).dirty = false →
      (collectReply xs r).conn.parameter = r.conn.parameter := by
    intro xs r hr
    fun_induction collectReply xs r with
    | case1 r => rfl
    | case2 o status rest r => rfl
    | case3 o name value rest r ih =>
        rw [hdirty _ _ rfl] at hr
        cases hr
    | case4 o info rest r ih => exact ih hr
    | case5 o row rest r ih => exact ih hr
    | case6 o m rest r _ _ _ _ ih => exact ih hr
  exact hread _ _ h

/-- A leg that reads no report. -/
theorem collect_clean {sql : String}
    (h : ∀ x ∈ (c.send u .proxy (.query sql)).inbox,
      ∀ name value, x.2 ≠ .parameterStatus name value) :
    (runQueryCollect u c sql).dirty = false := by
  have hread : ∀ (xs : List (Origin × BackendMessage)) (r : Collected σ),
      (∀ x ∈ xs, ∀ name value, x.2 ≠ .parameterStatus name value) → r.dirty = false →
      (collectReply xs r).dirty = false := by
    intro xs r hxs hr
    fun_induction collectReply xs r with
    | case1 r => exact hr
    | case2 o status rest r => exact hr
    | case3 o name value rest r ih => exact absurd rfl (hxs _ List.mem_cons_self name value)
    | case4 o info rest r ih => exact ih (fun x hx => hxs x (List.mem_cons_of_mem _ hx)) hr
    | case5 o row rest r ih => exact ih (fun x hx => hxs x (List.mem_cons_of_mem _ hx)) hr
    | case6 o m rest r _ _ _ _ ih => exact ih (fun x hx => hxs x (List.mem_cons_of_mem _ hx)) hr
  exact hread _ _ h rfl

/-! ## Neutral connections -/

/-- The server of `c` has the initial values `v`. -/
def Home (initial : σ → Values) (v : Values) (c : Conn σ) : Prop :=
  c.Limited (fun b x => initial b = x) (fun _ _ => False) (· = v)

theorem Home.eq (h : c.Home initial v) : initial c.backend = v := h.backend _ rfl

theorem home_of_eq (h : initial c.backend = v) : c.Home initial v :=
  ⟨fun _ hx => hx.symm.trans h, fun _ _ _ hx => hx.elim⟩

/-- At rest, with the initial values `v`. -/
structure Neutral (u : Upstream σ) (values initial : σ → Values) (v : Values) (c : Conn σ) :
    Prop where
  level : c.Level u values
  home : c.Home initial v
  parameters : c.parameter = v

end Conn

theorem Upstream.Resets.accrues (hr : u.Resets values initial) :
    Accrues u (fun b x => initial b = x) (fun _ _ => False) where
  respond := fun b m _ h => .inl ((hr.respond b m).symm.trans h)
  interrupt := fun b _ h => (hr.interrupt b).symm.trans h

theorem home_cleans (hr : u.Resets values initial) (v : Values) :
    Cleans u (Conn.Home initial v) :=
  hr.accrues.cleans fun _ _ _ hx => hx.elim

/-- The startup parameters ask for nothing but the values `v`. -/
def AsksDefaults (startup : Params) (v : Values) : Prop :=
  ∀ name ∈ trackedStartupParameters, ∀ value ∈ startup.lookup name, value = v name

instance (startup : Params) (v : Values) : Decidable (AsksDefaults startup v) :=
  inferInstanceAs (Decidable (∀ _ ∈ _, ∀ _ ∈ _, _))

theorem AsksDefaults.inForce {startup : Params} {v : Values} (h : AsksDefaults startup v) :
    inForce ∅ startup v = v := by
  funext name
  unfold Pgferry.inForce
  rw [AList.lookup_empty, Option.getD_none]
  split
  case isTrue htracked =>
    cases hs : startup.lookup name with
    | none => rfl
    | some value => exact h name htracked value hs
  case isFalse => rfl

/-- A pooled connection has the initial values of its server. -/
def NeutralPool (u : Upstream σ) (values initial : σ → Values) (defaults : PoolKey → Values)
    (key : PoolKey) (c : Conn σ) : Prop :=
  c.Neutral u values initial (defaults key)

section Pools

variable {c c' : Conn σ} {v : Values} {defaults : PoolKey → Values} (hu : u.InOrder)
  (hp : u.Parameters values) (hr : u.Resets values initial)

include hu hp

/-- The sync of the startup parameters. -/
theorem syncStartupParameters_level {startup : Params} (h : c.Level u values)
    (hs : syncStartupParameters u startup c = .ok c') :
    c'.Level u values ∧ c'.parameter = inForce ∅ startup c.parameter := by
  obtain ⟨hlevel, hvalues⟩ := (syncParameters_passes hs).leaves hu hp h
  refine ⟨hlevel, hvalues.trans ?_⟩
  funext name
  rw [assigned_startup]
  rfl

include hr

/-- A `DISCARD ALL` that succeeds. -/
theorem neutral_discarded (hq : c.Quiet u) (hc : c.Current values) (hh : c.Home initial v)
    (hd : c.simpleQuery u "DISCARD ALL" = .ok c') : c'.Neutral u values initial v := by
  have hlevel : c'.Level u values :=
    ((hc.send hp .proxy _).readReply hd).level (Conn.simpleQuery_quiet hu hq hd)
  obtain ⟨hb, hclean⟩ := Conn.simpleQuery_clean hu hq hd
  refine ⟨hlevel, (home_cleans hr v).discard _ _ hh hd, ?_⟩
  rw [hlevel.cached, hb, hr.discard _ hclean (Conn.simpleQuery_readies hq hd), hh.eq]

theorem neutral_probe : ProbeKeeps u (NeutralPool u values initial defaults) := by
  intro key c c' h hq
  have hlevel := h.level.probe hu hp hq
  refine ⟨hlevel, (home_cleans hr _).sync c c' h.home hq, ?_⟩
  obtain ⟨_, _, _, _, _, _, _, _, _, hb, _⟩ := Conn.readReply_spec hq
  rw [hlevel.cached, hb, Conn.send_backend, hp.sync, h.level.quiet.outbox]
  exact h.level.cached.symm.trans h.parameters

/-- What a session end returns, if the drain was in time. -/
theorem neutral_sanitize {hygiene : Hygiene} {arrived : Nat} (ht : c.Tame u)
    (hc : c.Current values) (hh : c.Home initial v)
    (hd : c.pending u ≠ 0 → drainsInTime u c hygiene arrived = true)
    (hs : sanitize u c hygiene arrived = .ok c') : c'.Neutral u values initial v := by
  obtain ⟨c₂, hq, hkeeps, hdiscard⟩ := sanitize_discards hu ht hd hs
  have hclean := home_cleans hr v
  have hsettles : Settles u (Conn.Home initial v) :=
    ⟨hclean.sync, hclean.copyFail, hclean.cancel, hclean.drained, hclean.rollback⟩
  exact neutral_discarded hu hp hr hq (hkeeps _ (Conn.current_settles hp hr) hc)
    (hkeeps _ hsettles hh) hdiscard

theorem neutral_baseline : BaselineKeeps u (NeutralPool u values initial defaults) :=
  fun _ _ _ h hs => neutral_sanitize hu hp hr h.level.quiet.tame h.level.current h.home
    (fun hne => absurd h.level.quiet.pending hne) hs

/-- What a detach puts back: with `DISCARD ALL`, or as it is when the flag is down. -/
theorem neutral_detached {dirty : Bool} (hq : c.Quiet u) (hc : c.Current values)
    (hh : c.Home initial v) (hclean : dirty = false → c.parameter = v)
    (hd : discardIfDirty u c dirty = .ok c') : c'.Neutral u values initial v := by
  unfold discardIfDirty at hd
  split at hd
  case isTrue => exact neutral_discarded hu hp hr hq hc hh hd
  case isFalse hdirty =>
    cases hd
    exact ⟨hc.level hq, hh, hclean (Bool.not_eq_true _ ▸ hdirty)⟩

/-- A leg of a session that asks for the initial values. -/
theorem neutral_leg {startup : Params} (hasks : ∀ key, AsksDefaults startup (defaults key))
    (sql : String) : LegKeeps u (NeutralPool u values initial defaults) startup sql := by
  intro key base c c' hbase hsync hb hd
  obtain ⟨hlevel, hvalues⟩ := syncStartupParameters_level hu hp hbase.level hsync
  have hhome := (home_cleans hr _).syncParameters hbase.home hsync
  refine neutral_detached hu hp hr
    (Conn.runQueryCollect_quiet hu hlevel.quiet.tame hlevel.quiet.pending hb)
    (hlevel.current.collect hp sql) (Conn.Limited.collect hr.accrues hhome fun _ hx => hx.elim)
    (fun hclean => ?_) hd
  rw [Conn.collect_silent hclean, hvalues, hbase.parameters]
  exact (hasks key).inForce

end Pools

end Pgferry
