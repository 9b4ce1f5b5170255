/-
  The parameters of a connection that a session has attached to.

  An attach brings a connection to the session's state in two passes: the tracked startup
  parameters, then the `SET`s of earlier cycles (`guc_overrides`). Both skip a name whose cached
  value is the wanted one. `inForce` is what should hold afterwards.

  Proved: for every state of the connection that was checked out, the parameters after the attach
  are `inForce`, on the server and in the cache; each `SET` was for a value that differed; another
  order of the overrides gives the same parameters (`attach_replays`).
-/
import Mathlib.Data.List.Induction
import Pgferry.Parameters
import Pgferry.Session.Attempts

namespace Pgferry

variable {σ κ : Type} {u : Upstream σ} {values : σ → Values}

/-- The values that a session wants, over the values `before` of the connection: an override, else
    a tracked startup parameter, else what was there. -/
def inForce (overrides startup : Params) (before : Values) : Values := fun name =>
  (overrides.lookup name).getD
    (if name ∈ trackedStartupParameters then (startup.lookup name).getD (before name)
      else before name)

/-- What may have to be set, in the order of the two passes. -/
def wanted (overrides startup : Params) : List (String × String) :=
  trackedStartupParameters.filterMap (fun name => (startup.lookup name).map (name, ·)) ++
    overrides.entries.map fun guc => (guc.1, guc.2)

/-! ## The two passes -/

namespace Conn

/-- `c` has become `c'` by bringing the parameters to the wanted values one after the other: a
    value that is there is skipped, one that differs is `SET`. -/
inductive Passes (u : Upstream σ) : Conn σ → List (String × String) → Conn σ → Prop where
  | nil (c : Conn σ) : Passes u c [] c
  | skip {c c' : Conn σ} {name value : String} {rest : List (String × String)}
      (hsame : c.parameter name = value) (hrest : Passes u c rest c') :
      Passes u c ((name, value) :: rest) c'
  | set {c c₁ c₂ c' : Conn σ} {name value : String} {rest : List (String × String)}
      (hdiffers : c.parameter name ≠ value)
      (hset : c.simpleQuery u (setSql name value) = .ok c₁)
      (hcached : c₂ = c₁ ∨ c₂ = c₁.setServerParameter name value)
      (hrest : Passes u c₂ rest c') : Passes u c ((name, value) :: rest) c'

theorem Passes.append {c c₁ c' : Conn σ} {pairs pairs' : List (String × String)}
    (h : Passes u c pairs c₁) (h' : Passes u c₁ pairs' c') : Passes u c (pairs ++ pairs') c' := by
  induction h with
  | nil c => exact h'
  | skip hsame _ ih => exact .skip hsame (ih h')
  | set hdiffers hset hcached _ ih => exact .set hdiffers hset hcached (ih h')

end Conn

theorem syncParameters_passes {startup : Params} {names : List String} {c c' : Conn σ}
    (h : syncParameters u startup names c = .ok c') :
    Conn.Passes u c (names.filterMap fun name => (startup.lookup name).map (name, ·)) c' := by
  induction names generalizing c with
  | nil =>
      cases h
      exact .nil _
  | cons name names ih =>
      rw [syncParameters] at h
      cases hs : startup.lookup name with
      | none =>
          rw [hs] at h
          rw [List.filterMap_cons, hs]
          exact ih h
      | some desired =>
          rw [hs] at h
          dsimp only at h
          rw [List.filterMap_cons, hs]
          by_cases hd : c.parameter name = desired
          · rw [if_pos hd] at h
            exact .skip hd (ih h)
          · rw [if_neg hd, setParameter] at h
            cases hq : c.simpleQuery u (setSql name desired) with
            | error e =>
                rw [hq] at h
                cases h
            | ok c₁ =>
                rw [hq] at h
                exact .set hd hq (.inr rfl) (ih h)

theorem replayGucs_passes {gucs : List (Σ _ : String, String)} {c c' : Conn σ}
    {dirty dirty' : Bool} (h : replayGucs u gucs c dirty = (dirty', .ok c')) :
    Conn.Passes u c (gucs.map fun guc => (guc.1, guc.2)) c' := by
  induction gucs generalizing c dirty with
  | nil =>
      cases h
      exact .nil _
  | cons guc gucs ih =>
      obtain ⟨name, value⟩ := guc
      rw [replayGucs] at h
      by_cases hd : c.parameter name = value
      · rw [if_pos hd] at h
        exact .skip hd (ih h)
      · rw [if_neg hd] at h
        cases hq : c.simpleQuery u (setSql name value) with
        | error e =>
            rw [hq] at h
            cases h
        | ok c₁ =>
            rw [hq] at h
            exact .set hd hq (.inl rfl) (ih h)

/-! ## The values that they leave -/

/-- Give each parameter its value, one after the other. -/
def assigned (before : Values) (pairs : List (String × String)) : Values :=
  pairs.foldl (fun values p => Function.update values p.1 p.2) before

/-- Skipped or set, a parameter has its value afterwards and the others are as they were. -/
theorem Conn.Passes.leaves (hu : u.InOrder) (hp : u.Parameters values) {c c' : Conn σ}
    {pairs : List (String × String)} (h : Passes u c pairs c') (hc : c.Level u values) :
    c'.Level u values ∧ c'.parameter = assigned c.parameter pairs := by
  induction h with
  | nil c => exact ⟨hc, rfl⟩
  | @skip c c' name value rest hsame _ ih =>
      obtain ⟨hlevel, hvalues⟩ := ih hc
      refine ⟨hlevel, hvalues.trans ?_⟩
      show assigned c.parameter rest = assigned (Function.update c.parameter name value) rest
      rw [← hsame, Function.update_eq_self]
  | @set c c₁ c₂ c' name value rest _ hset hcached _ ih =>
      have hnext : c₂.Level u values ∧ c₂.parameter = Function.update c.parameter name value := by
        rcases hcached with rfl | rfl
        · exact hc.set hu hp hset
        · refine hc.setParameter hu hp ?_
          unfold setParameter
          rw [hset]
      obtain ⟨hlevel, hvalues⟩ := ih hnext.1
      refine ⟨hlevel, hvalues.trans ?_⟩
      rw [hnext.2]
      rfl

/-- The last value of a parameter is the one that counts, and here there is one at most. -/
theorem assigned_overrides {gucs : List (Σ _ : String, String)} (hnodup : gucs.NodupKeys)
    (before : Values) (n : String) :
    assigned before (gucs.map fun guc => (guc.1, guc.2)) n =
      (gucs.dlookup n).getD (before n) := by
  induction gucs generalizing before with
  | nil => rfl
  | cons guc gucs ih =>
      obtain ⟨name, value⟩ := guc
      obtain ⟨hfresh, hnodup⟩ := List.nodupKeys_cons.mp hnodup
      refine (ih hnodup (Function.update before name value)).trans ?_
      by_cases hn : n = name
      · subst hn
        rw [List.dlookup_cons_eq, List.dlookup_eq_none.mpr hfresh, Function.update_self]
        rfl
      · rw [List.dlookup_cons_ne _ _ hn, Function.update_of_ne hn]

theorem assigned_startup (startup : Params) (names : List String) (before : Values) (n : String) :
    assigned before (names.filterMap fun name => (startup.lookup name).map (name, ·)) n =
      if n ∈ names then (startup.lookup n).getD (before n) else before n := by
  induction names generalizing before with
  | nil => rfl
  | cons name names ih =>
      rw [List.filterMap_cons]
      cases hs : startup.lookup name with
      | none =>
          refine (ih before).trans ?_
          by_cases hn : n = name
          · subst hn
            rw [hs, if_pos List.mem_cons_self]
            exact ite_self _
          · simp only [List.mem_cons, hn, false_or]
      | some desired =>
          refine (ih (Function.update before name desired)).trans ?_
          by_cases hn : n = name
          · subst hn
            rw [hs, if_pos List.mem_cons_self, Function.update_self]
            exact ite_self _
          · rw [Function.update_of_ne hn]
            simp only [List.mem_cons, hn, false_or]

theorem assigned_wanted (overrides startup : Params) (before : Values) :
    assigned before (wanted overrides startup) = inForce overrides startup before := by
  funext n
  unfold wanted inForce
  have hsplit : ∀ first second, assigned before (first ++ second) =
      assigned (assigned before first) second := fun _ _ => List.foldl_append
  rw [hsplit, assigned_overrides overrides.nodupKeys, assigned_startup]
  rfl

/-- The order of the overrides does not matter. -/
theorem inForce_perm {overrides overrides' : Params}
    (h : overrides'.entries.Perm overrides.entries) (startup : Params) (before : Values) :
    inForce overrides' startup before = inForce overrides startup before := by
  funext n
  unfold inForce
  rw [AList.perm_lookup h]

/-! ## The attach -/

/-- The pools hold connections at rest with their values cached, and so are the new ones. -/
def LevelPool (u : Upstream σ) (values : σ → Values) (_ : PoolKey) (c : Conn σ) : Prop :=
  c.Level u values

theorem World.Returns.tidy {Φ : PoolKey → Conn σ → Prop} (hprobe : ProbeKeeps u Φ)
    {w w' : World σ} (h : World.Returns u w w') (ht : w.Tidy Φ) : w'.Tidy Φ := by
  induction h with
  | refl w => exact ht
  | refused key e _ _ ih => exact ih (ht.checkout hprobe key).1
  | destroyed key lease _ _ ih => exact ih ((ht.checkout hprobe key).1.destroy lease)

/-- The connection `conn` is `base`, brought to the state of the session `s`. -/
structure Session.Replayed (u : Upstream σ) (values : σ → Values) (s : Session σ κ)
    (base conn : Conn σ) : Prop where
  parameters : conn.parameter = inForce s.gucOverrides s.startupParameters base.parameter
  server : values conn.backend = conn.parameter
  passes : ∃ c, Conn.Passes u base (wanted s.gucOverrides s.startupParameters) c ∧
    s.registry.replay u c = .ok conn

/-- A connection that was brought to a session's state. -/
theorem prepared_level (hu : u.InOrder) (hp : u.Parameters values) {startup : Params} {c : Core σ}
    {base conn : Conn σ} {dirty₀ dirty : Bool} (hbase : base.Level u values)
    (h : Prepared u startup c dirty₀ base conn dirty) :
    conn.Level u values ∧ conn.parameter = inForce c.gucOverrides startup base.parameter := by
  obtain ⟨c₁, c₂, d, hsync, hgucs, hreplay, -⟩ := h
  have hpasses : Conn.Passes u base (wanted c.gucOverrides startup) c₂ :=
    (syncParameters_passes hsync).append (replayGucs_passes hgucs)
  obtain ⟨hlevel, hvalues⟩ := hpasses.leaves hu hp hbase
  obtain ⟨hdone, hsame⟩ := hlevel.replay hu hp hreplay
  refine ⟨hdone, ?_⟩
  rw [hsame, hvalues, assigned_wanted]

theorem Session.prepared_replayed (hu : u.InOrder) (hp : u.Parameters values) {s : Session σ κ}
    {base conn : Conn σ} {dirty₀ dirty : Bool} (hbase : base.Level u values)
    (h : Prepared u s.startupParameters s.toCore dirty₀ base conn dirty) :
    s.Replayed u values base conn := by
  obtain ⟨hlevel, hvalues⟩ := prepared_level hu hp hbase h
  obtain ⟨c₁, c₂, d, hsync, hgucs, hreplay, -⟩ := h
  exact ⟨hvalues, hlevel.cached.symm, c₂,
    (syncParameters_passes hsync).append (replayGucs_passes hgucs), hreplay⟩

/-- For every startup parameters, overrides and state of the pooled connection: when an attach
    succeeds, the lease is the last checkout of the attach, those before it came to nothing, and the
    connection `base` that the pool gave out has been brought to the parameters that the session
    wants, by `SET`s of values that differed; another order of the overrides gives the same. -/
theorem attach_replays (env : Env σ) (hu : env.upstream.InOrder)
    (hp : env.upstream.Parameters values) (s : Session σ κ) (sqlHint : Option String)
    (hfree : s.lease = none) (ht : s.world.Tidy (LevelPool env.upstream values))
    (hattached : (s.ensureAttached env sqlHint).2 = true) :
    ∃ (lease : UpstreamLease σ) (w : World σ) (base : Conn σ),
      (s.ensureAttached env sqlHint).1.lease = some lease ∧
      World.Returns env.upstream s.world w ∧
      w.checkout env.upstream lease.pool =
        ((s.ensureAttached env sqlHint).1.world, .ok { lease with conn := base }) ∧
      s.Replayed env.upstream values base lease.conn ∧
      ∀ overrides : Params, overrides.entries.Perm s.gucOverrides.entries →
        ∀ conn, ({ s with gucOverrides := overrides }.prepare env base).2 = .ok conn →
          conn.parameter = lease.conn.parameter := by
  have hprobe : ProbeKeeps env.upstream (LevelPool env.upstream values) :=
    fun _ _ _ h hq => Conn.Level.probe hu hp h hq
  obtain ⟨lease, hacquires⟩ := Session.ensureAttached_acquires hfree hattached
  obtain ⟨w, base, hreturns, hout, _, _, hprep⟩ := hacquires.world
  have hlease : (w.checkout env.upstream lease.pool).2 = .ok { lease with conn := base } := by
    rw [hout]
  have hbase : base.Level env.upstream values :=
    (((hreturns.tidy hprobe ht).checkout hprobe lease.pool).2 _ hlease).2
  have hreplayed := Session.prepared_replayed hu hp hbase hprep
  refine ⟨lease, w, base, hacquires.held, hreturns, hout, hreplayed,
    fun overrides hperm conn hconn => ?_⟩
  obtain ⟨_, -, -, hready⟩ := Session.prepare_spec env { s with gucOverrides := overrides } base
  have hother := Session.prepared_replayed hu hp hbase (hready conn hconn)
  rw [hother.parameters, hreplayed.parameters]
  exact inForce_perm hperm s.startupParameters base.parameter

/-! ## A server of parameters

  It understands the text of `set_parameter` and nothing else, and shows that the assumptions can
  be met. -/

/-- Read a quoted text from its end: what it says and what stands before the opening quote. -/
def unquote : List Char → List Char → Option (List Char × List Char)
  | '\'' :: '\'' :: rest, text => unquote rest ('\'' :: text)
  | '\'' :: rest, text => some (text, rest)
  | ch :: rest, text => unquote rest (ch :: text)
  | [], _ => none

/-- The name and the value of a `SET`. -/
def decodeSet (sql : String) : Option (String × String) :=
  match unquote (sql.toList.reverse.drop 1) [] with
  | some (value, ' ' :: '=' :: ' ' :: name) =>
      some (String.ofList (name.reverse.drop 4), String.ofList value)
  | _ => none

/-- Doubled quotes are read back, up to the single one before a blank. -/
theorem unquote_escaped (value : List Char) (before text : List Char) :
    unquote ((value.flatMap fun ch => if ch = '\'' then ['\'', '\''] else [ch]).reverse ++
      '\'' :: ' ' :: before) text = some (value ++ text, ' ' :: before) := by
  induction value using List.reverseRecOn generalizing text with
  | nil => rfl
  | append_singleton value ch ih =>
      rw [List.flatMap_append, List.reverse_append, List.append_assoc, List.append_assoc,
        List.singleton_append, ← ih (ch :: text)]
      by_cases hch : ch = '\''
      · subst hch
        rfl
      · rw [List.flatMap_singleton, if_neg hch, List.reverse_singleton, List.singleton_append]
        exact unquote.eq_3 _ _ _ (fun _ h _ => hch h) hch

theorem decodeSet_setSql (name value : String) :
    decodeSet (setSql name value) = some (name, value) := by
  have htext : (setSql name value).toList.reverse = '\'' ::
      ((value.toList.flatMap fun ch => if ch = '\'' then ['\'', '\''] else [ch]).reverse ++
        '\'' :: ' ' :: '=' :: ' ' :: (name.toList.reverse ++ [' ', 'T', 'E', 'S'])) := by
    simp [setSql, escapeQuotes]
  unfold decodeSet
  rw [htext, List.drop_one, List.tail_cons, unquote_escaped]
  simp

/-- A server that keeps parameters. -/
def parameterServer : Upstream Params where
  respond params
    | .query sql =>
        match decodeSet sql with
        | some (name, value) => (params.insert name value,
            [.commandComplete "SET", .parameterStatus name value, .readyForQuery .idle])
        | none => (params, [.emptyQueryResponse, .readyForQuery .idle])
    | .sync => (params, [.readyForQuery .idle])
    | _ => (params, [])
  interrupt params := (params, [])
  owed _ := 0
  copying _ := false

theorem parameterServer_inOrder : parameterServer.InOrder where
  respond_owed params m := by
    cases m with
    | query sql =>
        unfold parameterServer
        dsimp only
        split <;> rfl
    | _ => rfl
  respond_last params m _ := by
    cases m with
    | query sql =>
        unfold parameterServer
        dsimp only
        split <;> rfl
    | _ => rfl
  respond_ready _ _ _ _ := rfl
  stray_copy params m hm _ := by
    cases m with
    | copyData | copyDone | copyFail => exact ⟨rfl, rfl⟩
    | _ => cases hm
  interrupt_owed _ := rfl
  interrupt_last _ := rfl
  interrupt_ready _ h := absurd rfl h
  interrupt_idle _ _ _ := ⟨rfl, rfl⟩

/-- The value of a parameter in a map. -/
def valuesIn (params : Params) : Values := fun name => (params.lookup name).getD ""

theorem valuesIn_insert (params : Params) (name value : String) :
    valuesIn (params.insert name value) = Function.update (valuesIn params) name value :=
  Conn.setServerParameter_parameter (Conn.new 0 () params) name value

theorem parameterServer_parameters : parameterServer.Parameters valuesIn where
  announced params m := by
    cases m with
    | query sql =>
        unfold parameterServer
        dsimp only
        split
        · exact valuesIn_insert _ _ _
        · rfl
    | _ => rfl
  set params name value _ _ := by
    unfold parameterServer
    dsimp only
    rw [decodeSet_setSql]
    exact valuesIn_insert _ _ _
  parse _ _ _ _ := rfl
  sync _ := rfl

namespace Sample

/-- A session that wants `application_name`, `DateStyle` and a statement on every connection. -/
def tuned : Session Params Unit :=
  { Session.new 0 100
      { pools := fun _ => Pool.new { mode := .transaction }, now := 0, dials := 0,
        supply := fun _ _ => .ok (∅, ∅) }
      { user := "u", database := none } ((∅ : Params).insert "application_name" "it's") none with
    gucOverrides := (∅ : Params).insert "DateStyle" "ISO"
    registry := (∅ : StatementRegistry).insert "s" ("SELECT 1", []) }

def tunedEnv : Env Params := { Sample.env .transaction with upstream := parameterServer }

theorem tuned_tidy : tuned.world.Tidy (LevelPool parameterServer valuesIn) := by
  refine ⟨nofun, fun key n params cached h pid => ?_⟩
  cases h
  exact ⟨Conn.new_quiet rfl rfl, rfl⟩

end Sample

/-- A fresh connection without parameters is brought to the session's. -/
theorem attach_replays_tuned :
    ∃ lease, (Sample.tuned.ensureAttached Sample.tunedEnv none).1.lease = some lease ∧
      ∃ w base, World.Returns parameterServer Sample.tuned.world w ∧
        (w.checkout parameterServer lease.pool).2 = .ok { lease with conn := base } ∧
        Sample.tuned.Replayed parameterServer valuesIn base lease.conn := by
  obtain ⟨lease, w, base, hlease, hreturns, hout, hreplayed, -⟩ := attach_replays Sample.tunedEnv
    parameterServer_inOrder parameterServer_parameters Sample.tuned none rfl
    Sample.tuned_tidy (by decide +kernel)
  exact ⟨lease, hlease, w, base, hreturns, congrArg Prod.snd hout, hreplayed⟩

end Pgferry
